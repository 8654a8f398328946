import GBerry.Protocol.Downloads

/-!
# No download is lost

A download that an application lists is asked for by a message that has not arrived,
or is in progress on the server, or is ended by a message that has not arrived, or
was lost when a connection broke or had no command.  The proof balances the four
against the list of the model.
-/

namespace GBerry.Protocol.Downloads

open GBerry.Client
open GBerry.Common
open GBerry.Comms
open GBerry.Foundation
open DownloadApplicationCommand (ReplyMessage)

section Sending

variable {s : DownloadSystem} {command : Nat} {a : String}

def answersTo (messages : List ReplyMessage) (command : Nat) (a : String) : Nat :=
  messages.countP fun message => message.command == command && answers a message.json

theorem countP_sent (messages : List ReplyMessage) (command : Nat) :
    ((messages.filter fun message => some command = some message.command).map
      (·.json)).countP (answers a) = answersTo messages command a := by
  rw [List.countP_map, List.countP_filter, answersTo]
  apply List.countP_congr
  intro message _
  simp only [Bool.and_eq_true, decide_eq_true_eq, Option.some.injEq, beq_iff_eq,
    Function.comp_apply]
  rw [and_comm, eq_comm]

theorem answers_okReply (b : String) :
    answers a (DownloadApplicationCommand.okReply b) = (b == a) := by
  have hnotices : DownloadModelCommunication.processMessage
      (DownloadApplicationCommand.okReply b) = [.downloadFinished b] := rfl
  simp [answers, hnotices, concludes]

theorem answers_failureReply (b : String) (details : Json) :
    answers a (DownloadApplicationCommand.failureReply b details) = (b == a) := by
  have hnotices : DownloadModelCommunication.processMessage
      (DownloadApplicationCommand.failureReply b details) = [.downloadAborted b] := rfl
  simp [answers, hnotices, concludes]

theorem answers_downloadStarted (b : String) :
    answers a (DownloadApplicationCommand.downloadStarted b) = false := by
  have hnotices : DownloadModelCommunication.processMessage
      (DownloadApplicationCommand.downloadStarted b) = [.downloadStarted b] := rfl
  simp [answers, hnotices, concludes]

theorem answers_downloadProgress (b : String) (percentage : Int) :
    answers a (DownloadApplicationCommand.downloadProgress b percentage) = false := by
  have hnotices : DownloadModelCommunication.processMessage
      (DownloadApplicationCommand.downloadProgress b percentage) =
        [.downloadProgress b (Json.number percentage).toInt] := rfl
  simp [answers, hnotices, concludes]

theorem message_answers {details : Json} {percentage : Int} {signal : DownloadSignal}
    (hnames : ∀ request b result, signal = .reply request b result →
      ∃ command, s.download request = some ⟨command, b⟩) :
    ((s.message details percentage signal).map fun message =>
      message.command == command && answers a message.json).getD false =
        s.concludes command a signal := by
  cases signal with
  | accepted _ _ _ => rfl
  | refused other b =>
      simp [DownloadSystem.message, DownloadSystem.concludes, answers_failureReply]
  | called request call =>
      cases call with
      | downloadStarted =>
          cases hd : s.download request <;>
            simp [DownloadSystem.message, DownloadSystem.concludes, hd,
              answers_downloadStarted]
      | downloadProgress =>
          cases hd : s.download request <;>
            simp [DownloadSystem.message, DownloadSystem.concludes, hd,
              answers_downloadProgress]
      | processRequestOkResponse => rfl
      | processRequestErrorResponse => rfl
  | cancelled _ => rfl
  | reply request b result =>
      obtain ⟨owner, hd⟩ := hnames request b result rfl
      have hconcludes : s.concludes command a (.reply request b result) =
          (owner == command && b == a) := by
        rw [Bool.eq_iff_iff]
        simp [DownloadSystem.concludes, hd]
      rw [hconcludes]
      cases result with
      | ok => simp [DownloadSystem.message, hd, answers_okReply]
      | failure => simp [DownloadSystem.message, hd, answers_failureReply]

theorem answersTo_messages {details : Json} {percentages : List Int}
    {out : List DownloadSignal}
    (hnames : ∀ request b result, .reply request b result ∈ out →
      ∃ command, s.download request = some ⟨command, b⟩) :
    answersTo (s.messages details percentages out) command a = s.concluded command a out := by
  have hsignals : s.concluded command a out =
      out.zipIdx.countP (fun indexed => s.concludes command a indexed.1) := by
    rw [DownloadSystem.concluded]
    nth_rewrite 1 [← List.zipIdx_map_fst 0 out]
    rw [List.countP_map]
    rfl
  rw [answersTo, DownloadSystem.messages, List.countP_filterMap, hsignals]
  apply List.countP_congr
  rintro ⟨signal, i⟩ hmem
  have hsignal : signal ∈ out := List.fst_mem_of_mem_zipIdx hmem
  rw [message_answers]
  rintro request b result rfl
  exact hnames request b result hsignal

end Sending

/-- `gone` counts the downloads that an application waits for in vain. -/
structure Balanced (gone : Nat → String → Nat) (s : Downloads) : Prop where
  consistent : s.server.Consistent
  numbered : ∀ command ∈ s.server.commands, command < s.server.nextCommand
  seated : ∀ n command, s.command n = some command → command ∈ s.server.commands
  alone : ∀ n m command, s.command n = some command → s.command m = some command → n = m
  left : ∀ command ∈ s.unnoticed, command < s.server.nextCommand ∧
    ∀ n, s.command n ≠ some command
  ongoing : ∀ n a,
    (s.peers n).model.ongoingDownloads.count a = s.pending n a + gone n a

section Peers

variable {s s' : Downloads} {gone gone' : Nat → String → Nat} {n m : Nat} {a : String}
  {peer : DownloadPeer} {model : DownloadModel} {link : Option DownloadLink}

theorem command_eq (hpeer : s.peers n = ⟨model, link⟩) :
    s.command n = link.bind (·.command) := by
  rw [command, hpeer]

theorem pending_eq (hpeer : s.peers n = ⟨model, link⟩) :
    s.pending n a = link.elim 0 (pendingOn s.server a) := by
  rw [pending, hpeer]

@[simp] theorem peers_setPeer (s : Downloads) (n m : Nat) (peer : DownloadPeer) :
    (s.setPeer n peer).peers m = if m = n then peer else s.peers m :=
  Function.update_apply s.peers n peer m

theorem command_setPeer (s : Downloads) (n m : Nat) (peer : DownloadPeer) :
    (s.setPeer n peer).command m =
      if m = n then peer.link.bind (·.command) else s.command m := by
  rw [command, peers_setPeer]
  split <;> rfl

theorem pending_setPeer (s : Downloads) (n m : Nat) (peer : DownloadPeer) (a : String) :
    (s.setPeer n peer).pending m a =
      if m = n then peer.link.elim 0 (pendingOn s.server a) else s.pending m a := by
  rw [pending, peers_setPeer]
  split <;> rfl

theorem pendingOn_congr {server server' : DownloadSystem} {l : DownloadLink}
    (h : ∀ command, server'.inProgress command a = server.inProgress command a) :
    pendingOn server' a l = pendingOn server a l := by
  simp only [pendingOn, h]

theorem start_balanced (storage : LocalApplicationsStorage) :
    Balanced (fun _ _ => 0) (start storage) where
  consistent := DownloadSystem.start_consistent storage
  numbered := by simp [start, DownloadSystem.start]
  seated := by simp [start, command]
  alone := by simp [start, command]
  left := by simp [start]
  ongoing := by simp [start, pending]

theorem Balanced.setPeer (h : Balanced gone s)
    (hcommand : ∀ command, peer.link.bind (·.command) = some command →
      s.command n = some command)
    (hongoing : ∀ a, peer.model.ongoingDownloads.count a =
      peer.link.elim 0 (pendingOn s.server a) + gone' n a)
    (hgone : ∀ m, m ≠ n → ∀ a, gone' m a = gone m a) :
    Balanced gone' (s.setPeer n peer) := by
  have hbefore : ∀ m command, (s.setPeer n peer).command m = some command →
      s.command m = some command := by
    intro m command hm
    rw [command_setPeer] at hm
    split at hm
    · rename_i heq
      exact heq ▸ hcommand command hm
    · exact hm
  refine ⟨h.consistent, h.numbered, ?_, ?_, ?_, ?_⟩
  · intro m command hm
    exact h.seated m command (hbefore m command hm)
  · intro m m' command hm hm'
    exact h.alone m m' command (hbefore m command hm) (hbefore m' command hm')
  · intro command hmem
    obtain ⟨hlt, hnone⟩ := h.left command hmem
    exact ⟨hlt, fun m hm => hnone m (hbefore m command hm)⟩
  · intro m a
    rw [peers_setPeer, pending_setPeer]
    by_cases heq : m = n
    · rw [if_pos heq, if_pos heq, heq]
      exact hongoing a
    · rw [if_neg heq, if_neg heq, hgone m heq]
      exact h.ongoing m a

theorem Balanced.connect (h : Balanced gone s) : Balanced gone (s.connect n) := by
  unfold Downloads.connect
  split
  · rename_i model hpeer
    refine h.setPeer nofun ?_ fun _ _ _ => rfl
    intro a
    have hongoing := h.ongoing n a
    rw [pending_eq hpeer, hpeer] at hongoing
    exact hongoing
  · exact h

theorem Balanced.openControlChannel (h : Balanced gone s) :
    Balanced gone (s.openControlChannel n) := by
  unfold Downloads.openControlChannel
  split
  swap
  · exact h
  rename_i model toServer toClient hpeer
  have hfresh : ∀ m command, s.command m = some command →
      command < s.server.nextCommand := fun m command hm => h.numbered _ (h.seated m _ hm)
  have hnone : ∀ a, s.server.inProgress s.server.nextCommand a = 0 := by
    intro a
    apply DownloadSystem.inProgress_eq_zero
    intro request d hd
    exact Nat.ne_of_lt (h.numbered _ (h.consistent.alive request d hd))
  have hcommand : ∀ m command, (s.setPeer n ⟨model, some ⟨some s.server.nextCommand, toServer,
      toClient, false⟩⟩).command m = some command →
      (m = n ∧ command = s.server.nextCommand) ∨ (m ≠ n ∧ s.command m = some command) := by
    intro m command hm
    rw [command_setPeer] at hm
    split at hm
    · cases hm
      exact .inl ⟨‹_›, rfl⟩
    · exact .inr ⟨‹_›, hm⟩
  refine ⟨(DownloadSystem.createCommand_effect h.consistent).2, ?_, ?_, ?_, ?_, ?_⟩
  · intro command hmem
    rcases (QMap.mem_insert_iff _ _ _ _).mp hmem with rfl | hmem
    · exact Nat.lt_succ_self _
    · exact Nat.lt_succ_of_lt (h.numbered command hmem)
  · intro m command hm
    apply (QMap.mem_insert_iff _ _ _ _).mpr
    rcases hcommand m command hm with ⟨-, rfl⟩ | ⟨-, hm⟩
    · exact .inl rfl
    · exact .inr (h.seated m command hm)
  · intro m m' command hm hm'
    rcases hcommand m command hm with ⟨rfl, rfl⟩ | ⟨-, hold⟩ <;>
      rcases hcommand m' _ hm' with ⟨rfl, heq⟩ | ⟨-, hold'⟩
    · rfl
    · exact absurd (hfresh m' _ hold') (Nat.lt_irrefl _)
    · rw [heq] at hold
      exact absurd (hfresh m _ hold) (Nat.lt_irrefl _)
    · exact h.alone m m' command hold hold'
  · intro command hmem
    obtain ⟨hlt, hother⟩ := h.left command hmem
    refine ⟨Nat.lt_succ_of_lt hlt, ?_⟩
    intro m hm
    rcases hcommand m command hm with ⟨-, rfl⟩ | ⟨-, hm⟩
    · exact Nat.lt_irrefl _ hlt
    · exact hother m hm
  · intro m a
    have hongoing := h.ongoing m a
    have hkept : pendingOn s.server.createCommand a = pendingOn s.server a :=
      funext fun _ => pendingOn_congr fun _ =>
        DownloadSystem.inProgress_congr (fun _ => rfl) rfl
    by_cases heq : m = n
    · subst heq
      rw [pending_eq hpeer, hpeer] at hongoing
      simpa [pending, Downloads.setPeer, hkept, pendingOn, hnone] using hongoing
    · simpa [pending, Downloads.setPeer, heq, hkept] using hongoing

theorem requests_startMessage (activePlayerModel : ActivePlayerModel) (b : String) :
    requests a (DownloadModel.startMessage activePlayerModel b) = (b == a) := by
  have hcommand : (DownloadModel.startMessage activePlayerModel b).isCommand
      "DownloadApplication" = true := rfl
  rw [requests, hcommand, Bool.true_and]
  rfl

theorem write_command (l : DownloadLink) (json : JsonObject) :
    (l.write json).command = l.command := by
  unfold DownloadLink.write
  split <;> rfl

theorem pendingOn_write (server : DownloadSystem) (l : DownloadLink) (json : JsonObject) :
    pendingOn server a (l.write json) =
      pendingOn server a l + if !l.closed && requests a json then 1 else 0 := by
  obtain ⟨command, toServer, toClient, closed⟩ := l
  cases closed with
  | true => rfl
  | false =>
      simp only [DownloadLink.write, pendingOn, Bool.false_eq_true, if_false,
        List.countP_append, List.countP_singleton, Bool.not_false, Bool.true_and]
      omega

theorem bind_write (json : JsonObject) :
    (link.map (·.write json)).bind (·.command) = link.bind (·.command) := by
  cases link with
  | none => rfl
  | some l => exact write_command l json

theorem Balanced.startDownload (h : Balanced gone s) (activePlayerModel : ActivePlayerModel)
    (b : String) (hstart : s.startDownload n activePlayerModel b = (s', out)) :
    Balanced (fun m a => gone m a + lost m a s (.startDownload n activePlayerModel b)) s' := by
  cases hstart
  refine h.setPeer ?_ ?_ ?_
  · intro command hcommand
    rwa [bind_write] at hcommand
  · intro a
    have hongoing := h.ongoing n a
    simp only [pending] at hongoing
    simp only [List.count_append, List.count_singleton, hongoing, lost]
    cases (s.peers n).link with
    | none => simp
    | some l =>
        simp only [Option.map_some, Option.elim_some, pendingOn_write, requests_startMessage]
        cases hclosed : l.closed with
        | true => simp [hclosed, Nat.add_assoc]
        | false =>
            simp only [Option.all_some, hclosed, Bool.false_eq_true, and_false, if_false,
              Bool.not_false, Bool.true_and]
            omega
  · intro m hne a
    simp [lost, Ne.symm hne]

theorem requests_cancelMessage (b : String) :
    requests a (DownloadModel.cancelMessage b) = false := rfl

theorem Balanced.cancelDownload (h : Balanced gone s) (b : String) :
    Balanced gone (s.cancelDownload n b) := by
  refine h.setPeer ?_ ?_ fun _ _ _ => rfl
  · intro command hcommand
    rwa [bind_write] at hcommand
  · intro a
    have hongoing := h.ongoing n a
    simp only [pending] at hongoing
    rw [hongoing]
    cases (s.peers n).link with
    | none => rfl
    | some l => simp [pendingOn_write, requests_cancelMessage]

theorem onNotices_count (m : DownloadModel) (json : JsonObject) (a : String) :
    (m.onNotices (DownloadModelCommunication.processMessage json)).1.ongoingDownloads.count a =
      m.ongoingDownloads.count a - if answers a json then 1 else 0 := by
  rcases DownloadModelCommunication.processMessage_cases json with hnone | ⟨notice, hone⟩
  · simp [answers, hnone, DownloadModel.onNotices]
  · rw [answers, hone, List.any_cons, List.any_nil, Bool.or_false]
    cases notice with
    | downloadStarted b => rfl
    | downloadAborted b => exact List.count_erase
    | downloadFinished b => exact List.count_erase
    | downloadProgress b percentage => rfl

theorem onNotices_signals (m : DownloadModel) (json : JsonObject) (a : String) :
    let signals := (m.onNotices (DownloadModelCommunication.processMessage json)).2
    signals.count (.downloadInitiated a) = 0 ∧
      signals.count (.downloadAborted a) + signals.count (.downloadFinished a) =
        if answers a json then 1 else 0 := by
  rcases DownloadModelCommunication.processMessage_cases json with hnone | ⟨notice, hone⟩
  · simp [answers, hnone, DownloadModel.onNotices]
  · rw [answers, hone, List.any_cons, List.any_nil, Bool.or_false]
    cases notice with
    | downloadStarted b => exact ⟨rfl, rfl⟩
    | downloadAborted b =>
        simp [DownloadModel.onNotices, DownloadModel.onNotice, concludes,
          List.count_singleton]
    | downloadFinished b =>
        simp [DownloadModel.onNotices, DownloadModel.onNotice, concludes,
          List.count_singleton]
    | downloadProgress b percentage => exact ⟨rfl, rfl⟩

theorem Balanced.deliverToClient (h : Balanced gone s)
    (hdeliver : s.deliverToClient n = (s', out)) : Balanced gone s' := by
  unfold Downloads.deliverToClient at hdeliver
  split at hdeliver
  swap
  · cases hdeliver
    exact h
  rename_i model command toServer json toClient closed hpeer
  cases hdeliver
  refine h.setPeer ?_ ?_ fun _ _ _ => rfl
  · intro other hother
    rw [command_eq hpeer]
    exact hother
  · intro a
    have hongoing := h.ongoing n a
    rw [pending_eq hpeer, hpeer] at hongoing
    simp only [Option.elim_some, pendingOn, List.countP_cons] at hongoing ⊢
    rw [onNotices_count]
    omega

theorem Balanced.connectionBroken (h : Balanced gone s) :
    Balanced (fun m a => gone m a + lost m a s (.connectionBroken n))
      (s.connectionBroken n) := by
  obtain ⟨model, link, hpeer⟩ : ∃ model link, s.peers n = ⟨model, link⟩ := ⟨_, _, rfl⟩
  simp only [Downloads.connectionBroken, hpeer]
  cases link with
  | none =>
      have hzero : ∀ m a, lost m a s (.connectionBroken n) = 0 := by
        intro m a
        simp only [lost]
        split
        · subst m
          exact pending_eq hpeer
        · rfl
      simpa only [hzero, Nat.add_zero] using h
  | some l =>
      have hbroken : Balanced (fun m a => gone m a + lost m a s (.connectionBroken n))
          (s.setPeer n ⟨model, none⟩) := by
        refine h.setPeer nofun ?_ ?_
        · intro a
          have hongoing := h.ongoing n a
          rw [hpeer] at hongoing
          simp only [hongoing, lost, if_true, Option.elim_none]
          omega
        · intro m hne a
          simp [lost, Ne.symm hne]
      refine ⟨hbroken.consistent, hbroken.numbered, hbroken.seated, hbroken.alone, ?_,
        hbroken.ongoing⟩
      intro command hmem
      rcases List.mem_append.mp hmem with hnew | hold
      · have hcommand : s.command n = some command := by
          rw [command_eq hpeer]
          exact Option.mem_toList.mp hnew
        refine ⟨h.numbered _ (h.seated n _ hcommand), ?_⟩
        intro m hm
        have hm' : (s.setPeer n ⟨model, none⟩).command m = some command := hm
        rw [command_setPeer] at hm'
        split at hm'
        · cases hm'
        · exact absurd (h.alone m n _ hm' hcommand) ‹_›
      · exact hbroken.left command hold

end Peers

section Serving

variable {s s' : Downloads} {out : List DownloadsSignal} {gone gone' : Nat → String → Nat}
  {n : Nat} {a : String} {server : DownloadSystem} {messages : List ReplyMessage}
  {details : Json} {percentages : List Int}

theorem command_send (s : Downloads) (messages : List ReplyMessage) (n : Nat) :
    (s.send messages).command n = s.command n := by
  simp only [command, send]
  cases (s.peers n).link <;> rfl

theorem pendingOn_send (server : DownloadSystem) (l : DownloadLink)
    (messages : List ReplyMessage) :
    pendingOn server a (l.send messages) =
      pendingOn server a l + l.command.elim 0 fun command => answersTo messages command a := by
  unfold DownloadLink.send pendingOn
  cases hcommand : l.command with
  | none => simp
  | some command =>
      simp only [List.countP_append, countP_sent, Option.elim_some]
      omega

theorem Balanced.serve (h : Balanced gone s) (hconsistent : server.Consistent)
    (hcommands : ∀ command ∈ server.commands, command ∈ s.server.commands)
    (hnext : server.nextCommand = s.server.nextCommand)
    (hseated : ∀ n command, s.command n = some command → command ∈ server.commands)
    (hcount : ∀ n command, s.command n = some command → ∀ a,
      server.inProgress command a + answersTo messages command a + gone' n a =
        s.server.inProgress command a + gone n a)
    (hgone : ∀ n, s.command n = none → ∀ a, gone' n a = gone n a) :
    Balanced gone' ({ s with server := server }.send messages) := by
  refine ⟨hconsistent, ?_, ?_, ?_, ?_, ?_⟩
  · intro command hmem
    exact hnext ▸ h.numbered command (hcommands command hmem)
  · intro n command hn
    rw [command_send] at hn
    exact hseated n command hn
  · intro n m command hn hm
    rw [command_send] at hn hm
    exact h.alone n m command hn hm
  · intro command hmem
    obtain ⟨hlt, hnone⟩ := h.left command hmem
    refine ⟨hnext ▸ hlt, ?_⟩
    intro n hn
    rw [command_send] at hn
    exact hnone n hn
  · intro n a
    have hongoing := h.ongoing n a
    obtain ⟨model, link, hpeer⟩ : ∃ model link, s.peers n = ⟨model, link⟩ := ⟨_, _, rfl⟩
    rw [pending_eq hpeer, hpeer] at hongoing
    have hcommand := command_eq hpeer
    simp only [pending, send, hpeer]
    cases link with
    | none => rw [hongoing, hgone n hcommand a]; rfl
    | some l =>
        simp only [Option.map_some, Option.elim_some, pendingOn_send] at hongoing ⊢
        simp only [hongoing, pendingOn]
        cases hl : l.command with
        | none =>
            have hsame := hgone n (hcommand.trans hl) a
            simp only [Option.elim_none]
            omega
        | some command =>
            have hbalance := hcount n command (hcommand.trans hl) a
            simp only [Option.elim_some]
            omega

theorem serve_ok {result : DownloadResult} (h : s.serve details percentages result = .ok (s', out)) :
    ∃ server signals, result = .ok (server, signals) ∧
      s' = { s with server := server }.send (s.server.messages details percentages signals) ∧
      out = signals.map .server := by
  unfold serve at h
  split at h
  · cases h
  · cases h
    exact ⟨_, _, rfl, rfl, rfl⟩

theorem Balanced.transfer (h : Balanced gone s) {event : DownloadEvent}
    (htransfer : s.transfer event details percentages = .ok (s', out)) :
    Balanced gone s' := by
  unfold Downloads.transfer at htransfer
  split at htransfer
  swap
  · cases htransfer
    exact h
  rename_i hevent
  obtain ⟨server, signals, hstep, rfl, -⟩ := serve_ok htransfer
  obtain ⟨heffect, hconsistent⟩ := DownloadSystem.step_effect h.consistent hstep
    (DownloadSystem.not_abandonsDownload hevent)
  have hrouted := DownloadSystem.transfer_routed h.consistent hevent hstep
  refine h.serve hconsistent ?_ hrouted.nextCommand ?_ ?_ fun _ _ _ => rfl
  · intro command hmem
    exact (hrouted.commands command).mp hmem
  · intro n command hn
    exact (hrouted.commands command).mpr (h.seated n command hn)
  · intro n command _ a
    rw [answersTo_messages fun request b result hmem => hrouted.concerns _ hmem,
      DownloadSystem.transfer_inProgress h.consistent heffect hrouted.concerns]

theorem Balanced.destroyCommand (h : Balanced gone s) {command : Nat}
    (hunused : ∀ n, s.command n ≠ some command)
    (hfinished : ¬ s.server.AbandonsDownload (.destroyCommand command))
    (hserve : s.serve details percentages (s.server.destroyCommand command) =
      .ok (s', out)) : Balanced gone s' := by
  obtain ⟨server, signals, hdestroy, rfl, -⟩ := serve_ok hserve
  obtain ⟨hcommands, hnext, hrequest, hdownload, hcancelled⟩ :=
    DownloadSystem.destroyCommand_kept h.consistent hfinished hdestroy
  refine h.serve (DownloadSystem.destroyCommand_effect h.consistent hfinished hdestroy).2 ?_
    hnext ?_ ?_ fun _ _ _ => rfl
  · intro other hmem
    exact ((hcommands other).mp hmem).2
  · intro n other hn
    refine (hcommands other).mpr ⟨?_, h.seated n other hn⟩
    rintro rfl
    exact hunused n hn
  · intro n other _ a
    have hsilent : s.server.concluded other a signals = 0 := by
      apply List.countP_eq_zero.mpr
      intro signal hmem
      obtain ⟨request, rfl⟩ := hcancelled signal hmem
      exact nofun
    rw [answersTo_messages, hsilent, DownloadSystem.inProgress_congr hdownload hrequest,
      Nat.add_zero]
    intro request b result hmem
    obtain ⟨_, heq⟩ := hcancelled _ hmem
    cases heq

theorem Balanced.applicationClosed (h : Balanced gone s)
    (hfinished : ¬ s.AbandonsDownload (.applicationClosed n))
    (hclose : s.applicationClosed n = .ok (s', out)) :
    Balanced (fun m a => gone m a + lost m a s (.applicationClosed n)) s' := by
  obtain ⟨model, link, hpeer⟩ : ∃ model link, s.peers n = ⟨model, link⟩ := ⟨_, _, rfl⟩
  simp only [Downloads.applicationClosed, hpeer] at hclose
  have hother : ∀ m, m ≠ n → ∀ a, gone m a + lost m a s (.applicationClosed n) = gone m a := by
    intro m hne a
    simp [lost, Ne.symm hne]
  cases link with
  | none =>
      cases hclose
      have hzero : ∀ m a, lost m a s (.applicationClosed n) = 0 := by
        intro m a
        simp only [lost]
        split
        · subst m
          rw [hpeer]
          rfl
        · rfl
      simpa only [hzero, Nat.add_zero] using h
  | some l =>
      obtain ⟨command, toServer, toClient, closed⟩ := l
      have hidle : ∀ a, command.elim 0 (fun command => s.server.inProgress command a) = 0 := by
        intro a
        cases command with
        | none => rfl
        | some command =>
            apply DownloadSystem.inProgress_eq_zero
            intro request d hd heq
            exact hfinished ⟨command, command_eq hpeer, request, d, hd, heq⟩
      have hclosed : Balanced (fun m a => gone m a + lost m a s (.applicationClosed n))
          (s.setPeer n ⟨model, some ⟨none, [], toClient, true⟩⟩) := by
        refine h.setPeer nofun ?_ hother
        intro a
        have hongoing := h.ongoing n a
        rw [pending_eq hpeer, hpeer] at hongoing
        simp only [Option.elim_some, pendingOn, hidle, Option.elim_none, List.countP_nil, lost,
          if_true, hpeer] at hongoing ⊢
        omega
      cases command with
      | none =>
          cases hclose
          exact hclosed
      | some command =>
          refine hclosed.destroyCommand ?_ ?_ hclose
          · intro m hm
            rw [command_setPeer] at hm
            split at hm
            · cases hm
            · exact absurd (h.alone m n command hm (command_eq hpeer)) ‹_›
          · intro habandons
            exact hfinished ⟨command, command_eq hpeer, habandons⟩

theorem Balanced.brokenConnectionClosed (h : Balanced gone s) {command : Nat}
    (hfinished : ¬ s.AbandonsDownload (.brokenConnectionClosed command))
    (hclose : s.brokenConnectionClosed command = .ok (s', out)) : Balanced gone s' := by
  unfold Downloads.brokenConnectionClosed at hclose
  split at hclose
  · rename_i hmem
    have herased : Balanced gone { s with unnoticed := s.unnoticed.erase command } :=
      ⟨h.consistent, h.numbered, h.seated, h.alone,
        fun other hother => h.left other (List.mem_of_mem_erase hother), h.ongoing⟩
    refine herased.destroyCommand (h.left command hmem).2 ?_ hclose
    intro habandons
    exact hfinished ⟨hmem, habandons⟩
  · cases hclose
    exact h

theorem Balanced.process {json : JsonObject} {command : Nat} {cached created : Bool}
    {writing : Writing}
    (h : Balanced
      (fun m a => gone m a + if m = n then (if requests a json then 1 else 0) else 0) s)
    (hcommand : json.isCommand "DownloadApplication" = true)
    (hn : s.command n = some command)
    (hserve : s.serve details [] (s.server.process command
      (json.value "application_id").toString cached created writing) = .ok (s', out)) :
    Balanced gone s' := by
  obtain ⟨server, signals, hprocess, rfl, -⟩ := serve_ok hserve
  have halive := h.seated n command hn
  obtain ⟨-, hconsistent⟩ := DownloadSystem.process_effect h.consistent _ _ _ _ _ hprocess
  obtain ⟨hcommands, hnext, hreplies⟩ := DownloadSystem.process_kept hprocess
  have hrequest : ∀ a, requests a json = ((json.value "application_id").toString == a) := by
    intro a
    rw [requests, hcommand, Bool.true_and]
  refine h.serve hconsistent ?_ hnext ?_ ?_ ?_
  · intro other hmem
    exact (hcommands other).mp hmem
  · intro m other hm
    exact (hcommands other).mpr (h.seated m other hm)
  · intro m other hm a
    have hnames : ∀ request b result, .reply request b result ∈ signals →
        ∃ owner, s.server.download request = some ⟨owner, b⟩ := by
      intro request b result hmem
      exact absurd hmem (hreplies request b result)
    have hsame : command = other ↔ m = n := by
      constructor
      · rintro rfl
        exact h.alone m n command hm hn
      · rintro rfl
        exact Option.some.inj (hn.symm.trans hm)
    rw [answersTo_messages hnames,
      DownloadSystem.process_inProgress h.consistent halive hprocess, hrequest]
    simp only [hsame, beq_iff_eq, ite_and]
    omega
  · intro m hm a
    have hne : m ≠ n := by
      rintro rfl
      cases hm.symm.trans hn
    simp [hne]

theorem Balanced.deliverToServer (h : Balanced gone s) {cached created : Bool}
    {writing : Writing}
    (hdeliver : s.deliverToServer n cached created writing details = .ok (s', out)) :
    Balanced (fun m a =>
      gone m a + lost m a s (.deliverToServer n cached created writing details)) s' := by
  have hlost (amount : String → Nat) (hself : ∀ a,
      lost n a s (.deliverToServer n cached created writing details) = amount a) :
      (fun m a => gone m a + lost m a s (.deliverToServer n cached created writing details)) =
        fun m a => gone m a + if m = n then amount a else 0 := by
    funext m a
    by_cases heq : m = n
    · rw [heq, hself, if_pos rfl]
    · rw [if_neg heq]
      simp only [lost]
      split
      · simp [Ne.symm heq]
      · rfl
  obtain ⟨model, link, hpeer⟩ : ∃ model link, s.peers n = ⟨model, link⟩ := ⟨_, _, rfl⟩
  rcases link with _ | ⟨command, _ | ⟨json, toServer⟩, toClient, closed⟩
  · simp only [Downloads.deliverToServer, hpeer] at hdeliver
    cases hdeliver
    rw [hlost (fun _ => 0) fun a => by simp only [lost, hpeer]]
    simpa using h
  · simp only [Downloads.deliverToServer, hpeer] at hdeliver
    cases hdeliver
    rw [hlost (fun _ => 0) fun a => by simp only [lost, hpeer]]
    simpa using h
  simp only [Downloads.deliverToServer, hpeer] at hdeliver
  -- the message has left the connection, and is not yet with the server
  have htaken : Balanced
      (fun m a => gone m a + if m = n then (if requests a json then 1 else 0) else 0)
      (s.setPeer n ⟨model, some ⟨command, toServer, toClient, closed⟩⟩) := by
    refine h.setPeer ?_ ?_ ?_
    · intro other hcommand
      rw [command_eq hpeer]
      exact hcommand
    · intro a
      have hongoing := h.ongoing n a
      rw [pending_eq hpeer, hpeer] at hongoing
      simp only [Option.elim_some, pendingOn, List.countP_cons, if_true] at hongoing ⊢
      omega
    · intro m hne a
      simp [hne]
  cases command with
  | none =>
      cases hdeliver
      rwa [hlost (fun a => if requests a json then 1 else 0) fun a => by
        simp only [lost, hpeer, true_and]]
  | some command =>
      rw [hlost (fun _ => 0) fun a => by simp only [lost, hpeer]]
      simp only [ite_self, Nat.add_zero] at hdeliver ⊢
      split at hdeliver
      · rename_i hcommand
        exact htaken.process hcommand ((command_setPeer _ _ _ _).trans (if_pos rfl)) hdeliver
      · rename_i hcommand
        cases hdeliver
        have hrequest : ∀ a, requests a json = false := by
          intro a
          rw [requests, Bool.eq_false_iff.mpr hcommand, Bool.false_and]
        simpa only [hrequest, Bool.false_eq_true, if_false, ite_self, Nat.add_zero] using htaken

theorem Balanced.step (h : Balanced gone s) {event : DownloadsEvent}
    (hnever : ¬ s.AbandonsDownload event) (hstep : s.step event = .ok (s', out)) :
    Balanced (fun n a => gone n a + lost n a s event) s' := by
  cases event with
  | connect n =>
      cases hstep
      exact h.connect
  | openControlChannel n =>
      cases hstep
      exact h.openControlChannel
  | startDownload n activePlayerModel b =>
      exact h.startDownload activePlayerModel b (Except.ok.inj hstep)
  | cancelDownload n b =>
      cases hstep
      exact h.cancelDownload b
  | deliverToServer n cached created writing details => exact h.deliverToServer hstep
  | deliverToClient n => exact h.deliverToClient (Except.ok.inj hstep)
  | transfer event details percentages => exact h.transfer hstep
  | connectionBroken n =>
      cases hstep
      exact h.connectionBroken
  | applicationClosed n => exact h.applicationClosed hnever hstep
  | brokenConnectionClosed command => exact h.brokenConnectionClosed hnever hstep

end Serving

def Accounts (s s' : Downloads) (out : List DownloadsSignal) : Prop :=
  ∀ n a, (s.peers n).model.ongoingDownloads.count a + initiated n a out =
    aborted n a out + finished n a out + (s'.peers n).model.ongoingDownloads.count a

section Signals

variable {s s' : Downloads} {out : List DownloadsSignal} {gone : Nat → String → Nat} {n : Nat}

theorem count_client_server (signals : List DownloadSignal) (signal : DownloadModelSignal) :
    (signals.map DownloadsSignal.server).count (.client n signal) = 0 := by
  apply List.count_eq_zero.mpr
  simp

theorem Accounts.server {signals : List DownloadSignal}
    (hmodel : ∀ n, (s'.peers n).model = (s.peers n).model) :
    Accounts s s' (signals.map .server) := by
  intro n a
  simp only [initiated, aborted, finished, count_client_server, hmodel]
  omega

theorem Accounts.silent (hmodel : ∀ n, (s'.peers n).model = (s.peers n).model) :
    Accounts s s' [] := by
  have hserver : Accounts s s' (List.map .server []) := .server hmodel
  exact hserver

theorem setPeer_model {peer : DownloadPeer} (hpeer : peer.model = (s.peers n).model) (m : Nat) :
    ((s.setPeer n peer).peers m).model = (s.peers m).model := by
  rw [peers_setPeer]
  split
  · rename_i heq
    rw [heq, hpeer]
  · rfl

theorem serve_accounts {s₁ : Downloads} {details : Json} {percentages : List Int}
    {result : DownloadResult} (hmodel : ∀ n, (s₁.peers n).model = (s.peers n).model)
    (h : s₁.serve details percentages result = .ok (s', out)) : Accounts s s' out := by
  obtain ⟨server, signals, -, rfl, rfl⟩ := serve_ok h
  exact .server hmodel

theorem count_client (signals : List DownloadModelSignal) (signal : DownloadModelSignal) :
    (signals.map (DownloadsSignal.client n)).count (.client n signal) =
      signals.count signal := by
  apply List.count_map_of_injective
  intro signal' signal'' heq
  exact (DownloadsSignal.client.inj heq).2

theorem count_client_other {m : Nat} (hne : m ≠ n) (signals : List DownloadModelSignal)
    (signal : DownloadModelSignal) :
    (signals.map (DownloadsSignal.client n)).count (.client m signal) = 0 := by
  apply List.count_eq_zero.mpr
  simp [hne.symm]

theorem Accounts.client {peer : DownloadPeer} {signals : List DownloadModelSignal}
    (hcount : ∀ a, (s.peers n).model.ongoingDownloads.count a +
        signals.count (.downloadInitiated a) =
      signals.count (.downloadAborted a) + signals.count (.downloadFinished a) +
        peer.model.ongoingDownloads.count a) :
    Accounts s (s.setPeer n peer) (signals.map (.client n)) := by
  intro m a
  rw [peers_setPeer]
  split
  · subst m
    simp only [initiated, aborted, finished, count_client]
    exact hcount a
  · rename_i hne
    simp only [initiated, aborted, finished, count_client_other hne]
    omega

theorem deliverToClient_accounts (h : Balanced gone s)
    (hdeliver : s.deliverToClient n = (s', out)) : Accounts s s' out := by
  unfold deliverToClient at hdeliver
  split at hdeliver
  swap
  · cases hdeliver
    exact .silent fun _ => rfl
  rename_i model command toServer json toClient closed hpeer
  cases hdeliver
  apply Accounts.client
  intro a
  rw [hpeer]
  -- the model lists every download that a message ends
  have hlisted : answers a json = true → 0 < model.ongoingDownloads.count a := by
    intro hanswers
    have hongoing := h.ongoing n a
    rw [pending_eq hpeer, hpeer] at hongoing
    simp only [Option.elim_some, pendingOn, List.countP_cons, hanswers, if_true] at hongoing
    omega
  obtain ⟨hinitiated, hended⟩ := onNotices_signals model json a
  simp only [hinitiated, hended, onNotices_count]
  split
  · rename_i hanswers
    have hpositive := hlisted hanswers
    omega
  · omega

theorem step_accounts (h : Balanced gone s) {event : DownloadsEvent}
    (hstep : s.step event = .ok (s', out)) : Accounts s s' out := by
  cases event with
  | connect n =>
      cases hstep
      refine .silent ?_
      unfold connect
      split
      · rename_i hpeer
        exact setPeer_model (by rw [hpeer])
      · exact fun _ => rfl
  | openControlChannel n =>
      cases hstep
      refine .silent ?_
      unfold openControlChannel
      split
      · rename_i hpeer
        exact setPeer_model (by rw [hpeer])
      · exact fun _ => rfl
  | startDownload n activePlayerModel b =>
      cases hstep
      apply Accounts.client
      intro a
      simp [List.count_append, List.count_singleton]
  | cancelDownload n b =>
      cases hstep
      exact .silent (setPeer_model rfl)
  | deliverToServer n cached created writing details =>
      obtain ⟨model, link, hpeer⟩ : ∃ model link, s.peers n = ⟨model, link⟩ := ⟨_, _, rfl⟩
      rcases link with _ | ⟨command, _ | ⟨json, toServer⟩, toClient, closed⟩
      all_goals simp only [step, deliverToServer, hpeer] at hstep
      · cases hstep
        exact .silent fun _ => rfl
      · cases hstep
        exact .silent fun _ => rfl
      have hmodel : ∀ m, ((s.setPeer n ⟨model, some ⟨command, toServer, toClient, closed⟩⟩).peers
          m).model = (s.peers m).model := setPeer_model (by rw [hpeer])
      cases command with
      | none =>
          cases hstep
          exact .silent hmodel
      | some command =>
          simp only at hstep
          split at hstep
          · exact serve_accounts hmodel hstep
          · cases hstep
            exact .silent hmodel
  | deliverToClient n => exact deliverToClient_accounts h (Except.ok.inj hstep)
  | transfer event details percentages =>
      simp only [step, transfer] at hstep
      split at hstep
      · exact serve_accounts (fun _ => rfl) hstep
      · cases hstep
        exact .silent fun _ => rfl
  | connectionBroken n =>
      cases hstep
      refine .silent ?_
      unfold connectionBroken
      split
      · rename_i hpeer
        exact setPeer_model (by rw [hpeer])
      · exact fun _ => rfl
  | applicationClosed n =>
      simp only [step, applicationClosed] at hstep
      split at hstep
      · rename_i model command toServer toClient closed hpeer
        have hmodel : ∀ m, ((s.setPeer n ⟨model, some ⟨none, [], toClient, true⟩⟩).peers
            m).model = (s.peers m).model := setPeer_model (by rw [hpeer])
        cases command with
        | none =>
            cases hstep
            exact .silent hmodel
        | some command => exact serve_accounts hmodel hstep
      · cases hstep
        exact .silent fun _ => rfl
  | brokenConnectionClosed command =>
      simp only [step, brokenConnectionClosed] at hstep
      split at hstep
      · have hmodel : ∀ m, (({ s with unnoticed := s.unnoticed.erase command } :
            Downloads).peers m).model = (s.peers m).model := fun _ => rfl
        exact serve_accounts hmodel hstep
      · cases hstep
        exact .silent fun _ => rfl

end Signals

/-- A download that was started is ended or listed, and a listed one is pending or lost. -/
structure Conserved (history : History) (s : Downloads) : Prop where
  listed : ∀ n a, (s.peers n).model.ongoingDownloads.count a =
    s.pending n a + lostIn n a history
  ended : ∀ n a, initiated n a (outputs history) =
    aborted n a (outputs history) + finished n a (outputs history) +
      (s.peers n).model.ongoingDownloads.count a

section Runs

variable {storage : LocalApplicationsStorage} {history : History} {s : Downloads}

theorem balanced_always (h : Execution (machine storage) history s)
    (hnever : Execution.EachStep (fun _ st => ¬ st.pre.AbandonsDownload st.label) history) :
    Balanced (fun n a => lostIn n a history) s ∧ Accounts (start storage) s (outputs history) := by
  have hall : Execution.Always (machine storage)
      (fun history s => Balanced (fun n a => lostIn n a history) s ∧
        Accounts (start storage) s (outputs history)) history := by
    refine h.always_of_eachStep
      (P := fun history s => Balanced (fun n a => lostIn n a history) s ∧
        Accounts (start storage) s (outputs history)) ?_ ?_ hnever
    · exact ⟨start_balanced storage, .silent fun _ => rfl⟩
    · rintro history s s' event out - ⟨hs, hpast⟩ hstep hevent
      refine ⟨?_, ?_⟩
      · have hbalanced := hs.step hevent hstep
        simpa only [lostIn, List.map_cons, List.sum_cons, Nat.add_comm] using hbalanced
      · intro n a
        have hbefore := hpast n a
        have hnow := step_accounts hs hstep n a
        simp only [outputs, initiated, aborted, finished, List.count_append] at hbefore hnow ⊢
        omega
  exact hall history s List.suffix_rfl h

theorem startDownload_conserved (h : Execution (machine storage) history s)
    (hnever : Execution.EachStep (fun _ st => ¬ st.pre.AbandonsDownload st.label) history) :
    Conserved history s := by
  obtain ⟨hs, haccounts⟩ := balanced_always h hnever
  refine ⟨hs.ongoing, ?_⟩
  intro n a
  have hcount := haccounts n a
  simpa [start] using hcount

/--
Two applications want the same game.  One of them asks before its connection is
validated, and once more afterwards; then it loses its connection with another request.
-/
def sharedGame : List DownloadsEvent :=
  [.connect 0, .connect 1, .startDownload 0 ⟨7⟩ "chess-1",
    .deliverToServer 0 true true .written .null, .openControlChannel 0,
    .openControlChannel 1, .startDownload 0 ⟨7⟩ "chess-1", .startDownload 1 ⟨0⟩ "chess-1",
    .deliverToServer 0 true true .written .null, .deliverToServer 1 true true .written .null,
    .cancelDownload 0 "chess-1", .transfer (.executeRequest 0) .null [],
    .transfer (.readyRead 0 .OK_200 true 1) .null [50], .deliverToClient 1,
    .transfer (.replyFinished 0 false true) .null [],
    .transfer (.unzipFinished 0 ⟨0, .application "chess-1", .written⟩) .null [],
    .deliverToClient 0, .deliverToClient 0, .deliverToClient 0,
    .startDownload 0 ⟨7⟩ "go-1", .connectionBroken 0, .connect 0, .openControlChannel 0]

theorem sharedGame_staysOpen {older : History}
    (hlabels : older.map Step.label = sharedGame.reverse) :
    Execution.EachStep (fun _ st => ¬ st.pre.AbandonsDownload st.label) older := by
  apply Execution.eachStep_const.mpr
  intro st hst
  have hlabel : st.label ∈ sharedGame := by
    rw [← List.mem_reverse, ← hlabels]
    exact List.mem_map_of_mem hst
  have hopen : ∀ event ∈ sharedGame, ∀ s, ¬ AbandonsDownload s event := by
    simp [sharedGame, AbandonsDownload]
  exact hopen st.label hlabel st.pre

def downloadedOnce (history : History) (s : Downloads) : Bool :=
  finished 0 "chess-1" (outputs history) == 1 &&
    aborted 1 "chess-1" (outputs history) == 1 &&
    lostIn 0 "chess-1" history == 1 && lostIn 0 "go-1" history == 1 &&
    (s.peers 0).model.ongoingDownloads == ["chess-1", "go-1"] &&
    (s.peers 1).model.ongoingDownloads == []

theorem startDownload_conserved_sharedGame :
    ∃ history s, (machine ⟨[], []⟩).run sharedGame = .ok (history, s) ∧
      downloadedOnce history s = true ∧ Conserved history s := by
  have hruns : ∃ history s, (machine ⟨[], []⟩).run sharedGame = .ok (history, s) ∧
      downloadedOnce history s = true :=
    Machine.exists_run (by decide +kernel)
  obtain ⟨history, s, hrun, hdownloaded⟩ := hruns
  have hopen := sharedGame_staysOpen (Machine.run_labels hrun)
  exact ⟨history, s, hrun, hdownloaded,
    startDownload_conserved (Machine.run_execution hrun) hopen⟩

end Runs

end GBerry.Protocol.Downloads
