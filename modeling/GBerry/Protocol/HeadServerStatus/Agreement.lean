import GBerry.Protocol.HeadServerStatus.Links

/-!
# Agreement on the status of the head server

Once an application that the server has addressed has received what is under way,
and its queries have been answered, its `Connection` shows the status that the
`HeadServerConnection` has.
-/

namespace GBerry.Protocol

open GBerry.Common
open GBerry.Comms
open GBerry.Foundation
open GBerry.Server
open GBerry.Client
open ClientChannelManager (ROOT_CHANNEL)
open ServerSideControlChannel (CHANNEL_ID)

variable {β : Type} [QByteArray β]

section Client

def activations (signals : List (ClientSignal β)) : List Unit :=
  signals.filterMap fun
    | .isActivatedChanged => some ()
    | _ => none

def activationCalls (calls : List (ClientCall β)) : List Unit :=
  calls.filterMap fun
    | .isActivatedChanged => some ()
    | _ => none

omit [QByteArray β] in
theorem activations_performAll (m : ClientChannelManager) (calls : List (ClientCall β)) :
    activations (m.performAll calls).2 = activationCalls calls := by
  induction calls generalizing m with
  | nil => rfl
  | cons call calls ih =>
      have hrest := ih (m.perform call).1
      unfold activations at hrest ⊢
      rw [ClientChannelManager.performAll, List.filterMap_append, hrest]
      cases call <;> rfl

omit [QByteArray β] in
@[simp] theorem activationCalls_sendMessage (ch : ClientSideControlChannel) (msg : β) :
    activationCalls (ch.sendMessage msg) = [] := by
  unfold ClientSideControlChannel.sendMessage
  split <;> rfl

theorem activationCalls_receiveMessage (ch : ClientSideControlChannel) (msg : β) :
    activationCalls (ch.receiveMessage msg).2 = if steers msg then [()] else [] := by
  unfold ClientSideControlChannel.receiveMessage
  cases hjson : QByteArray.fromJson msg with
  | none => simp [steers, isCommand, hjson, activationCalls]
  | some json =>
      simp only [steers, isCommand, hjson]
      by_cases hcommand : JsonObject.contains json "command" = true
      · have hsend (msg : β) := activationCalls_sendMessage ch msg
        unfold activationCalls at hsend ⊢
        simp only [hcommand, Bool.not_true, Bool.false_eq_true, if_false]
        split
        · rename_i hping
          rw [JsonObject.isCommand_other hping (show "Ping" ≠ "Activate" by decide),
            JsonObject.isCommand_other hping (show "Ping" ≠ "Deactivate" by decide)]
          split <;> simp [hsend]
        split
        · rename_i hreply
          rw [JsonObject.isCommand_other hreply (show "PingReply" ≠ "Activate" by decide),
            JsonObject.isCommand_other hreply (show "PingReply" ≠ "Deactivate" by decide)]
          rfl
        split
        · rename_i hactivate
          rw [hactivate]
          rfl
        split
        · rename_i hdeactivate
          rw [hdeactivate, Bool.or_true]
          rfl
        · rename_i hactivate hdeactivate
          rw [Bool.not_eq_true] at hactivate hdeactivate
          rw [hactivate, hdeactivate]
          unfold ClientSideControlChannel.processJsonMessage
          split
          · simp only
            split
            · exact hsend _
            · rfl
          · rfl
      · have hnone (name : String) : JsonObject.isCommand json name = false := by
          simp [JsonObject.isCommand, hcommand]
        simp [hcommand, hnone, activationCalls]

theorem activationCalls_receivePlayer (ch : ClientSidePlayerChannel) (msg : β) :
    activationCalls (ch.receiveMessage msg) = [] := by
  unfold ClientSidePlayerChannel.receiveMessage
  split
  · rfl
  split
  · unfold ClientSidePlayerChannel.closeChannel activationCalls
    rw [List.filterMap_append]
    cases ch.playerPartner <;> cases ch.channelPartner <;> rfl
  split
  · split
    · split <;> rfl
    · rfl
  · rfl

theorem activations_processMessage {m : ClientChannelManager}
    (hm : m.controlChannel.isSome) (k : Int) (msg : β) :
    activations (m.processMessage k msg).2 = if prompts (k, msg) then [()] else [] := by
  obtain ⟨channel, hchannel⟩ := Option.isSome_iff_exists.mp hm
  unfold ClientChannelManager.processMessage
  by_cases hroot : k = ROOT_CHANNEL
  · simp only [hroot, if_true, hchannel, activations_performAll,
      activationCalls_receiveMessage, prompts, decide_true, Bool.true_and]
  · simp only [hroot, if_false, prompts, decide_false, Bool.false_and, Bool.false_eq_true]
    split
    · unfold ClientChannelManager.openPlayerChannel
      repeat' split
      all_goals rfl
    · rw [activations_performAll]
      exact activationCalls_receivePlayer _ _

omit [QByteArray β] in
theorem framesOf_sendControlMessage {m : ClientChannelManager}
    (hm : m.controlChannel.isSome) (hrooted : Rooted m) (msg : β) :
    framesOf (m.sendControlMessage msg) = [(ROOT_CHANNEL, msg)] := by
  obtain ⟨channel, hchannel⟩ := Option.isSome_iff_exists.mp hm
  simp only [ClientChannelManager.sendControlMessage, hchannel,
    ClientSideControlChannel.sendMessage, hrooted channel hchannel]
  rfl

end Client

namespace StatusNetwork

def Tracked (told exempt : Nat → Prop) (s : StatusNetwork β) : Prop :=
  Current told exempt s.connection.isConnected s.isHeadServerConnected s.network

section Addressed

variable {c : Nat} {out out' : List (StatusSignal β)} {sent : List (ProtocolSignal β)}

theorem addressed_append : Addressed c (out ++ out') ↔ Addressed c out ∨ Addressed c out' := by
  simp only [Addressed, List.mem_append, or_and_right, exists_or]

theorem addressed_network :
    Addressed c (sent.map StatusSignal.network) ↔ ToldBy sent c := by
  constructor
  · rintro ⟨signal, hmem, haddresses⟩
    obtain ⟨sent, hsent, rfl⟩ := List.mem_map.mp hmem
    unfold addresses at haddresses
    split at haddresses
    · rename_i message heq
      cases heq
      simp only [Bool.and_eq_true, decide_eq_true_eq] at haddresses
      exact ⟨message, hsent, haddresses.1.1, haddresses.1.2, haddresses.2⟩
    · cases haddresses
  · rintro ⟨message, hmem, hconnection, hchannel, htells⟩
    refine ⟨_, List.mem_map_of_mem hmem, ?_⟩
    unfold tells at htells
    simp [addresses, hconnection, hchannel, htells]

theorem not_addressed (h : ∀ signal ∈ out, ∀ sent, signal ≠ .network sent) :
    ¬ Addressed c out := by
  rintro ⟨signal, hmem, haddresses⟩
  unfold addresses at haddresses
  split at haddresses
  · exact h _ hmem _ rfl
  · cases haddresses

end Addressed

section Programs

variable {told exempt exempt' : Nat → Prop} {s s' s'' : StatusNetwork β}
  {out out' : List (StatusSignal β)} {first next : Program β}

abbrev orAddressed (told : Nat → Prop) (out : List (StatusSignal β)) (c : Nat) : Prop :=
  told c ∨ Addressed c out

theorem Tracked.append (h : Tracked (orAddressed (orAddressed told out) out') exempt s) :
    Tracked (orAddressed told (out ++ out')) exempt s := by
  refine h.mono ?_ fun _ _ hex => hex
  rintro c (hold | hnow)
  · exact .inl (.inl hold)
  · cases addressed_append.mp hnow with
    | inl hfirst => exact .inl (.inr hfirst)
    | inr hsecond => exact .inr hsecond

theorem Tracked.silent (h : Tracked told exempt s) (hout : ∀ c, ¬ Addressed c out) :
    Tracked (orAddressed told out) exempt s :=
  h.mono (fun c hc => hc.resolve_right (hout c)) fun _ _ hex => hex

theorem overNetwork_ok {ev : NetworkEvent β} (h : overNetwork ev s = .ok (s', out)) :
    ∃ network sent, s.network.step ev = .ok (network, sent) ∧
      s' = { s with network := network } ∧ out = sent.map .network :=
  Fallible.within_ok h

theorem Tracked.overNetwork {ev : NetworkEvent β} (h : overNetwork ev s = .ok (s', out))
    (hstep : ∀ {network sent}, s.network.step ev = .ok (network, sent) →
      Current (fun c => told c ∨ ToldBy sent c) exempt s.connection.isConnected
        s.isHeadServerConnected network) :
    Tracked (orAddressed told out) exempt s' := by
  obtain ⟨network, sent, hnetwork, rfl, rfl⟩ := overNetwork_ok h
  refine (hstep hnetwork).mono ?_ fun _ _ hex => hex
  intro c hc
  exact hc.imp id addressed_network.mp

theorem overNetwork_connection {ev : NetworkEvent β} (h : overNetwork ev s = .ok (s', out)) :
    s'.connection = s.connection := by
  obtain ⟨network, sent, -, rfl, -⟩ := overNetwork_ok h
  rfl

theorem sendStatus_tracked (hs : Tracked told exempt s) {oldStatus : Bool} {c : Nat}
    (h : sendStatus s.connection.isConnected oldStatus c s = .ok (s', out)) :
    Tracked (orAddressed told out) (fun x => exempt x ∧ x ≠ c) s' :=
  .overNetwork h fun hnetwork => hs.sendStatus hnetwork

theorem sendStatuses_tracked {oldStatus : Bool} {connections : List Nat}
    (hs : Tracked told exempt s)
    (h : Fallible.forEach (sendStatus s.connection.isConnected oldStatus) connections s =
      .ok (s', out)) :
    Tracked (orAddressed told out) (fun x => exempt x ∧ x ∉ connections) s' := by
  induction connections generalizing told exempt s out with
  | nil =>
      cases h
      refine Tracked.silent (hs.mono (fun _ hc => hc) ?_) fun c => ?_
      · intro c _ hex
        exact ⟨hex, List.not_mem_nil⟩
      · apply not_addressed
        intro signal hmem
        cases hmem
  | cons c connections ih =>
      obtain ⟨s₁, out₁, out₂, hfirst, hrest, rfl⟩ := Fallible.andThen_ok h
      have hsent := sendStatus_tracked hs hfirst
      rw [← overNetwork_connection hfirst] at hrest
      have hall := ih hsent hrest
      refine (hall.append).mono (fun _ hc => hc) ?_
      rintro x - ⟨⟨hex, hne⟩, hnot⟩
      refine ⟨hex, ?_⟩
      intro hmem
      cases List.mem_cons.mp hmem with
      | inl heq => exact hne heq
      | inr hlater => exact hnot hlater

theorem sendStatus_nextConnectionId (currentStatus oldStatus : Bool) (c : Nat) :
    Fallible.Ensures (fun s s' _ => s'.network.nextConnectionId = s.network.nextConnectionId)
      (sendStatus (β := β) currentStatus oldStatus c) := by
  intro s s' out h
  obtain ⟨network, sent, hnetwork, rfl, -⟩ := overNetwork_ok h
  have hserve : s.network.serve (.sendJsonMessageToSouth c
      (HeadServerStatusCommand.createResponse currentStatus oldStatus)) =
        .ok (network, sent) := hnetwork
  obtain ⟨server, served, -, rfl⟩ := Network.serve_ok hserve
  rfl

theorem sendStatusToAll_tracked (hs : Tracked told exempt s)
    (h : sendStatusToAll s.connection.isConnected s = .ok (s', out)) :
    Tracked (orAddressed told out) (fun _ => False) s' := by
  have hsent := sendStatuses_tracked hs h
  have hnext : s'.network.nextConnectionId = s.network.nextConnectionId := by
    refine Fallible.Ensures.forEach ⟨fun _ => rfl, fun hfirst hnext => hnext.trans hfirst⟩
      (fun c _ => sendStatus_nextConnectionId _ _ c) s s' out h
  refine hsent.mono (fun _ hc => hc) ?_
  rintro c hc ⟨-, hnot⟩
  have hlt := hsent.told_lt c hc
  rw [hnext] at hlt
  exact hnot (List.mem_range.mpr hlt)

theorem onHeadServer_tracked {obtains : Nat → Bool} {event : Option ConnectionEvent}
    (hs : Tracked told (fun _ => False) s)
    (h : onHeadServer obtains event s = .ok (s', out)) :
    Tracked (orAddressed told out) (fun _ => False) s' := by
  unfold onHeadServer at h
  have hreports : HeadServerConnection.Reports (HeadServerConnection.perform obtains event) :=
    HeadServerConnection.perform_reports event
  specialize hreports s.connection
  generalize HeadServerConnection.perform obtains event s.connection = made at h hreports
  obtain ⟨connection, signals⟩ := made
  simp only at h hreports
  obtain ⟨s₁, out₁, out₂, hemit, htold, rfl⟩ := Fallible.andThen_ok h
  cases hemit
  have hquiet (c : Nat) : ¬ Addressed c (signals.map (StatusSignal.headServer (β := β))) := by
    apply not_addressed
    intro signal hmem sent
    obtain ⟨_, -, rfl⟩ := List.mem_map.mp hmem
    nofun
  apply Tracked.append
  rw [hreports, report] at htold
  split at htold
  · rename_i hsame
    cases htold
    have hunchanged : Tracked told (fun _ => False) { s with connection := connection } := by
      have hbefore := hs
      unfold Tracked at hbefore ⊢
      rwa [← hsame]
    apply Tracked.silent (hunchanged.silent hquiet)
    intro c
    apply not_addressed
    intro signal hmem
    cases hmem
  · obtain ⟨s₂, out₃, out₄, hsend, hskip, rfl⟩ := Fallible.andThen_ok htold
    cases hskip
    have hchanged : Tracked told (fun _ => True) { s with connection := connection } :=
      hs.setConnected _
    rw [List.append_nil]
    exact sendStatusToAll_tracked (hchanged.silent hquiet) hsend

theorem openControlChannel_tracked {n : Nat} {commands : List (OtherCommand β)}
    {obtains : Nat → Bool} (hs : Tracked told exempt s)
    (h : step obtains (.openControlChannel n commands) s = .ok (s', out)) :
    Tracked (orAddressed told out) exempt s' := by
  refine .overNetwork h fun hnetwork => hs.openControlChannel ?_ hnetwork
  intro cmd hcmd
  rcases List.mem_append.mp hcmd with hother | hstatus
  · obtain ⟨command, -, rfl⟩ := List.mem_map.mp hother
    exact command.2.2
  · rw [List.mem_singleton.mp hstatus]
    exact ServerChannelManager.neverAnswers_silent fun _ => rfl

theorem deliverToServer_tracked {n : Nat} (hs : Tracked told (fun _ => False) s)
    (h : ((overNetwork (.deliverToServer n)).andThen (answerQuery (s.queried n))) s =
      .ok (s', out)) : Tracked (orAddressed told out) (fun _ => False) s' := by
  obtain ⟨s₁, out₁, out₂, hdeliver, hanswer, rfl⟩ := Fallible.andThen_ok h
  apply Tracked.append
  have hdelivered : Tracked (orAddressed told out₁) (fun c => s.queried n = some c) s₁ := by
    refine .overNetwork hdeliver fun hnetwork => hs.deliverToServer ?_ ?_ hnetwork
    · intro c hex
      exact hex.elim
    · intro l frame rest hl hopen htoServer hasks hregistered
      obtain ⟨connectionId, toClient, toServer, closed⟩ := l
      obtain rfl : closed = false := hopen
      obtain rfl : toServer = frame :: rest := htoServer
      have hn : s.network.applications n = ⟨(s.network.applications n).client,
          some ⟨connectionId, toClient, frame :: rest, false⟩⟩ := by
        rw [← hl]
      rw [queried, hn]
      exact if_pos ⟨hasks, Std.ExtTreeMap.contains_iff_mem.mpr hregistered⟩
  unfold answerQuery at hanswer
  split at hanswer
  · rename_i c hqueried
    refine (sendStatus_tracked hdelivered hanswer).mono (fun _ hc => hc) ?_
    rintro x - ⟨hx, hne⟩
    exact hne (Option.some.inj (hx.symm.trans hqueried))
  · rename_i hqueried
    cases hanswer
    apply Tracked.silent
    · refine hdelivered.mono (fun _ hc => hc) ?_
      intro x _ hx
      cases hx.symm.trans hqueried
    · intro c
      apply not_addressed
      intro signal hmem
      cases hmem

theorem deliverToClient_none {s' : Network β} {sent : List (ProtocolSignal β)} {n : Nat}
    {s : Network β} (hnone : ∀ l, (s.applications n).link = some l → l.toClient = [])
    (h : s.step (.deliverToClient n) = .ok (s', sent)) : s' = s ∧ sent = [] := by
  simp only [Network.step] at h
  split at h
  · rename_i client connectionId k msg toClient toServer closed hn
    have hempty := hnone _ (by rw [hn])
    cases hempty
  · cases h
    exact ⟨rfl, rfl⟩

theorem statusOf_of_prompts {frame : Frame β} (h : prompts frame = true) :
    statusOf frame = none := by
  apply if_neg
  rintro ⟨-, hstatus⟩
  simp only [prompts, Bool.and_eq_true] at h
  have hsteers := h.2
  unfold steers isCommand at hsteers
  unfold isCommand at hstatus
  split at hstatus
  · cases hstatus
  · rename_i json hjson
    simp only [hjson, Bool.or_eq_true] at hsteers
    cases hsteers with
    | inl hactivate => exact absurd (JsonObject.isCommand_unique hactivate hstatus) (by decide)
    | inr hdeactivate =>
        exact absurd (JsonObject.isCommand_unique hdeactivate hstatus) (by decide)

omit [QByteArray β] in
theorem activationSignals_network {c : Int} (signals : List (ClientSignal β)) :
    activationSignals ((signals.map (ProtocolSignal.client c)).map StatusSignal.network) =
      activations signals := by
  unfold activationSignals activations
  rw [List.filterMap_map, List.filterMap_map]
  congr 1
  funext signal
  cases signal <;> rfl

theorem asks_query :
    asks (ROOT_CHANNEL, (MessageFactory.createSimpleCommand "QueryHeadServerStatus" : β)) =
      true := by
  simp [asks, ROOT_CHANNEL, CHANNEL_ID]

theorem queryHeadServerStatus_tracked {n : Nat} {l : Link β} {client : ClientChannelManager}
    (hs : Tracked told (fun c => c = l.connectionId) s)
    (hn : s.network.applications n = ⟨client, some l⟩)
    (h : queryHeadServerStatus n s = .ok (s', out)) :
    Tracked (orAddressed told out) (fun _ => False) s' := by
  have hcontrol := hs.sound.control n
  have hrooted := hs.rooted n
  rw [hn] at hcontrol hrooted
  refine .overNetwork h fun {network sent} hnetwork => ?_
  let asking : NetworkEvent β := .sendControlMessage n
    (MessageFactory.createSimpleCommand "QueryHeadServerStatus")
  have hasking : s.network.step asking = .ok (network, sent) := hnetwork
  have hunconcerned : asking.Unconcerned := trivial
  have htoClient : ∀ m, asking ≠ .deliverToClient m := nofun
  have htoServer : ∀ m, asking ≠ .deliverToServer m := nofun
  have hwritten := hs.step hunconcerned htoClient htoServer hasking
  refine hwritten.restore n ?_ ?_
  all_goals
    simp only [Network.step, hn] at hnetwork
    cases hnetwork
  · intro x l' hl' hx hid
    simp only [Network.setApplication, Function.update_of_ne hx] at hl'
    exact hx (hs.sound.link_unique x n l' l hl' (congrArg Application.link hn) hid)
  · intro l' hl' _ _ _
    simp only [Network.setApplication, Function.update_self, Application.reply, Option.map_some,
      Option.some.injEq] at hl'
    subst hl'
    rw [framesOf_sendControlMessage hcontrol hrooted]
    exact .of_question List.mem_cons_self asks_query

theorem restore_tracked {n : Nat} {l : Link β} {client : ClientChannelManager}
    (hs : Tracked told (fun c => c = l.connectionId) s)
    (hn : s.network.applications n = ⟨client, some l⟩)
    (hinformed : l.closed = false → told l.connectionId →
      Informed s.connection.isConnected (s.isHeadServerConnected n) l) :
    Tracked told (fun _ => False) s := by
  refine hs.restore n ?_ ?_
  · intro x l' hl' hx hid
    exact hx (hs.sound.link_unique x n l' l hl' (congrArg Application.link hn) hid)
  · intro l' hl' hopen hc _
    rw [hn] at hl'
    cases hl'
    exact hinformed hopen hc

theorem receiveStatus_tracked {n : Nat} {l : Link β} {client : ClientChannelManager}
    {frame : Frame β} (hs : Tracked told (fun c => c = l.connectionId) s)
    (hn : s.network.applications n = ⟨client, some l⟩)
    (hinformed : l.closed = false → told l.connectionId →
      Informed s.connection.isConnected
        ((statusOf frame).getD (s.isHeadServerConnected n)) l)
    (h : receiveStatus n (some frame) s = .ok (s', out)) :
    Tracked (orAddressed told out) (fun _ => False) s' := by
  unfold receiveStatus at h
  rw [Option.bind_some] at h
  cases hstatus : statusOf frame with
  | none =>
      rw [hstatus] at h hinformed
      cases h
      apply Tracked.silent (restore_tracked hs hn hinformed)
      exact fun c => not_addressed nofun
  | some currentConnected =>
      rw [hstatus] at h hinformed
      simp only [onMessageReceived] at h
      split at h
      · cases h
        have hset : Tracked told (fun c => c = l.connectionId) { s with
            isHeadServerConnected :=
              Function.update s.isHeadServerConnected n currentConnected } := by
          apply hs.setFlag
          intro l' hl'
          rw [hn] at hl'
          cases hl'
          rfl
        apply Tracked.silent (restore_tracked hset hn ?_)
        · intro c
          apply not_addressed
          intro signal hmem sent
          rw [List.mem_singleton.mp hmem]
          nofun
        · simpa only [Function.update_self, Option.getD_some] using hinformed
      · rename_i hsame
        cases h
        apply Tracked.silent (restore_tracked hs hn ?_)
        · exact fun c => not_addressed nofun
        · rw [ne_eq, not_not] at hsame
          rw [hsame]
          exact hinformed

theorem deliverToClient_tracked {n : Nat} (hs : Tracked told (fun _ => False) s)
    (h : (((overNetwork (.deliverToClient n)).thenReact activationSignals
      fun _ => queryHeadServerStatus n).andThen (receiveStatus n (s.nextToClient n))) s =
        .ok (s', out)) : Tracked (orAddressed told out) (fun _ => False) s' := by
  obtain ⟨s₂, asked, received, hasked, hreceived, rfl⟩ := Fallible.andThen_ok h
  obtain ⟨s₁, delivered, queried, hdeliver, hquery, rfl⟩ := Fallible.thenReact_ok hasked
  obtain ⟨network, sent, hnetwork, rfl, rfl⟩ := overNetwork_ok hdeliver
  by_cases hmessage : ∃ l frame rest, (s.network.applications n).link = some l ∧
      l.toClient = frame :: rest
  · obtain ⟨l, frame, rest, hl, htoClient⟩ := hmessage
    have hn : s.network.applications n =
        ⟨(s.network.applications n).client, some l⟩ := by rw [← hl]
    have hnext : s.nextToClient n = some frame := by
      rw [nextToClient, hl]
      simp only [htoClient, List.head?_cons]
    have hcontrol := hs.sound.control n
    obtain ⟨hcurrent, happlication, rfl⟩ := hs.deliverToClient hn htoClient hnetwork
    rw [activationSignals_network, activations_processMessage hcontrol] at hquery
    rw [hnext] at hreceived
    obtain ⟨l', hl'⟩ : ∃ l' : Link β, l' = { l with
        toClient := rest
        toServer := l.toServer ++ framesOf
          ((s.network.applications n).client.processMessage frame.1 frame.2).2 } := ⟨_, rfl⟩
    rw [← hl'] at happlication
    have hid : l.connectionId = l'.connectionId := by rw [hl']
    have hdelivered : Tracked told (fun c => c = l'.connectionId)
        { s with network := network } :=
      hcurrent.mono (fun _ hc => hc) fun _ _ hex => hid ▸ hex.resolve_left not_false
    have hquiet (c : Nat) : ¬ Addressed c
        ((((s.network.applications n).client.processMessage frame.1 frame.2).2.map
          (ProtocolSignal.client (l.connectionId : Int))).map StatusSignal.network) := by
      rw [addressed_network]
      exact Current.not_toldBy_client
    apply Tracked.append
    split at hquery
    · rename_i hprompts
      obtain ⟨s₃, first, others, hfirst, hskip, rfl⟩ := Fallible.andThen_ok hquery
      cases hskip
      have hstatus := statusOf_of_prompts hprompts
      simp only [receiveStatus, Option.bind_some, hstatus, Except.ok.injEq,
        Prod.mk.injEq] at hreceived
      obtain ⟨rfl, rfl⟩ := hreceived
      have hqueried := queryHeadServerStatus_tracked (hdelivered.silent hquiet) happlication
        hfirst
      rw [List.append_nil]
      exact (hqueried.append).silent fun c => not_addressed nofun
    · rename_i hprompts
      cases hquery
      rw [List.append_nil]
      apply receiveStatus_tracked (hdelivered.silent hquiet) happlication ?_ hreceived
      intro hopen hc
      subst hl'
      have htold := hc.resolve_right (hquiet _)
      have hbefore := hs.informed n l hl hopen htold not_false
      exact (hbefore.receive htoClient (by simpa using hprompts)).reply _
  · have hnone (l : Link β) (hl : (s.network.applications n).link = some l) :
        l.toClient = [] := by
      cases htoClient : l.toClient with
      | nil => rfl
      | cons frame rest => exact absurd ⟨l, frame, rest, hl, htoClient⟩ hmessage
    obtain ⟨rfl, rfl⟩ := deliverToClient_none hnone hnetwork
    cases hquery
    have hnext : s.nextToClient n = none := by
      unfold nextToClient
      split
      · rename_i l hl
        rw [hnone l hl]
        rfl
      · rfl
    rw [hnext] at hreceived
    cases hreceived
    exact hs.silent fun c => not_addressed nofun

end Programs

section Run

variable {obtains : Nat → Bool} {applicationCode : Nat → String}
  {clientCommands : Nat → List ICommand} {history : History β} {s s' : StatusNetwork β}
  {out : List (StatusSignal β)}

theorem step_tracked {told : Nat → Prop} {event : StatusEvent β}
    (hs : Tracked told (fun _ => False) s) (h : step obtains event s = .ok (s', out)) :
    Tracked (orAddressed told out) (fun _ => False) s' := by
  cases event with
  | headServer event => exact onHeadServer_tracked hs h
  | openControlChannel n commands => exact openControlChannel_tracked hs h
  | network ev =>
      obtain ⟨ev, hev⟩ := ev
      simp only [step] at h
      split at h
      · exact deliverToServer_tracked hs h
      · exact deliverToClient_tracked hs h
      · rename_i htoServer htoClient
        exact .overNetwork h fun hnetwork => hs.step hev (fun n heq => htoClient n heq)
          (fun n heq => htoServer n heq) hnetwork

theorem tracked_start :
    Tracked (fun _ => False) (fun _ => False)
      (start applicationCode clientCommands : StatusNetwork β) := by
  refine ⟨Network.synchronised_start.sound, ?_, ?_, ?_, ?_, ?_⟩
  · rintro n ch ⟨⟩
    rfl
  · intro c ch hch
    simp [start, Network.start, ServerChannelManager.start] at hch
  · intro c hc
    exact hc.elim
  · intro n l hl
    cases hl
  · intro n l hl
    cases hl

theorem tracked_of_execution
    (h : Execution (machine β obtains applicationCode clientCommands) history s) :
    Tracked (Told history) (fun _ => False) s := by
  induction h with
  | start =>
      refine tracked_start.mono ?_ fun _ _ hex => hex
      rintro c ⟨st, hst, -⟩
      cases hst
  | next _ hstep ih =>
      refine (step_tracked ih hstep).mono ?_ fun _ _ hex => hex
      rintro c ⟨st, hst, haddressed⟩
      rcases List.mem_cons.mp hst with rfl | hold
      · exact .inr haddressed
      · exact .inl ⟨st, hold, haddressed⟩

theorem Tracked.agrees {told : Nat → Prop} (hs : Tracked told (fun _ => False) s) {n : Nat}
    {l : Link β} (hl : (s.network.applications n).link = some l) (hdrained : l.Drained)
    (htold : told l.connectionId) :
    s.isHeadServerConnected n = s.connection.isConnected := by
  have hinformed := hs.informed n l hl hdrained.up htold not_false
  unfold Informed at hinformed
  rw [hdrained.to_client, hdrained.to_server] at hinformed
  exact hinformed.settled (by simp) (by simp)

end Run

section Changes

variable {n : Nat} {out out' : List (StatusSignal β)}

def changes (n : Nat) (out : List (StatusSignal β)) : List Bool :=
  out.filterMap fun
    | .isHeadServerConnectedChanged application connected =>
        if application = n then some connected else none
    | _ => none

omit [QByteArray β] in
theorem changes_append : changes n (out ++ out') = changes n out ++ changes n out' :=
  List.filterMap_append

omit [QByteArray β] in
theorem changes_nil (h : ∀ signal ∈ out, ∀ x connected,
    signal ≠ .isHeadServerConnectedChanged x connected) : changes n out = [] := by
  unfold changes
  rw [List.filterMap_eq_nil_iff]
  intro signal hmem
  cases signal with
  | isHeadServerConnectedChanged x connected => exact absurd rfl (h _ hmem x connected)
  | _ => rfl

def Reports (n : Nat) (s s' : StatusNetwork β) (out : List (StatusSignal β)) : Prop :=
  ∀ reports, Alternates reports → reported reports = s.isHeadServerConnected n →
    Alternates (reports ++ changes n out) ∧
      reported (reports ++ changes n out) = s'.isHeadServerConnected n

omit [QByteArray β] in
theorem reports_composes : Fallible.Composes (Reports (β := β) n) where
  refl s := by
    intro reports halternates hreported
    simpa [changes] using ⟨halternates, hreported⟩
  trans := by
    intro s s' s'' out out' hfirst hnext reports halternates hreported
    obtain ⟨hmiddle, hflag⟩ := hfirst reports halternates hreported
    rw [changes_append, ← List.append_assoc]
    exact hnext _ hmiddle hflag

omit [QByteArray β] in
theorem reports_of_report {s s' : StatusNetwork β}
    (h : changes n out = report (s.isHeadServerConnected n) (s'.isHeadServerConnected n)) :
    Reports n s s' out := by
  intro reports halternates hreported
  rw [h, ← hreported]
  exact ⟨halternates.append _, reported_append _⟩

omit [QByteArray β] in
theorem reports_of_same {s s' : StatusNetwork β}
    (hflag : s'.isHeadServerConnected = s.isHeadServerConnected)
    (h : ∀ signal ∈ out, ∀ x connected, signal ≠ .isHeadServerConnectedChanged x connected) :
    Reports n s s' out := by
  apply reports_of_report
  rw [changes_nil h, hflag, report_self]

theorem overNetwork_reports (ev : NetworkEvent β) :
    Fallible.Ensures (Reports n) (overNetwork ev) := by
  intro s s' out h
  obtain ⟨network, sent, -, rfl, rfl⟩ := overNetwork_ok h
  apply reports_of_same rfl
  intro signal hmem x connected
  obtain ⟨sent, -, rfl⟩ := List.mem_map.mp hmem
  nofun

theorem receiveStatus_reports (m : Nat) (frame : Option (Frame β)) :
    Fallible.Ensures (Reports n) (receiveStatus m frame) := by
  intro s s' out h
  unfold receiveStatus at h
  split at h
  · rename_i currentConnected hstatus
    unfold onMessageReceived at h
    split at h
    · rename_i hne
      cases h
      apply reports_of_report
      by_cases hm : m = n
      · subst hm
        simp [changes, report, hne]
      · simp [changes, hm, Function.update_of_ne (Ne.symm hm)]
    · cases h
      exact reports_composes.refl s
  · cases h
    exact reports_composes.refl s

theorem sendStatusToAll_reports (status : Bool) :
    Fallible.Ensures (Reports n) (sendStatusToAll (β := β) status) := by
  intro s s' out h
  exact Fallible.Ensures.forEach reports_composes (fun c _ => overNetwork_reports _) s s' out h

theorem step_reports (obtains : Nat → Bool) (event : StatusEvent β) :
    Fallible.Ensures (Reports n) (step obtains event) := by
  intro s s' out h
  cases event with
  | headServer event =>
      simp only [step, onHeadServer] at h
      obtain ⟨s₁, out₁, out₂, hemit, htold, rfl⟩ := Fallible.andThen_ok h
      cases hemit
      have hsent := Fallible.Ensures.forEach (reports_composes (β := β) (n := n))
        (fun status _ => sendStatusToAll_reports status) _ s' out₂ htold
      refine reports_composes.trans (reports_of_same ?_ ?_) hsent
      · rfl
      intro signal hmem x connected
      obtain ⟨_, -, rfl⟩ := List.mem_map.mp hmem
      nofun
  | openControlChannel m commands => exact overNetwork_reports _ s s' out h
  | network ev =>
      simp only [step] at h
      split at h
      · obtain ⟨s₁, out₁, out₂, hdeliver, hanswer, rfl⟩ := Fallible.andThen_ok h
        refine reports_composes.trans (overNetwork_reports _ _ _ _ hdeliver) ?_
        unfold answerQuery at hanswer
        split at hanswer
        · exact overNetwork_reports _ _ _ _ hanswer
        · cases hanswer
          exact reports_composes.refl _
      · rename_i m _
        obtain ⟨s₂, out₁, out₂, hasked, hreceived, rfl⟩ := Fallible.andThen_ok h
        obtain ⟨s₁, out₃, out₄, hdeliver, hquery, rfl⟩ := Fallible.thenReact_ok hasked
        have hqueried := Fallible.Ensures.forEach (R := Reports n) reports_composes
          (fun _ _ => overNetwork_reports _) s₁ s₂ out₄ hquery
        have hdelivered := overNetwork_reports (n := n) _ s s₁ out₃ hdeliver
        exact reports_composes.trans (reports_composes.trans hdelivered hqueried)
          (receiveStatus_reports m _ _ _ _ hreceived)
      · exact overNetwork_reports _ s s' out h

end Changes

section Run

variable {obtains : Nat → Bool} {applicationCode : Nat → String}
  {clientCommands : Nat → List ICommand} {history : History β} {s : StatusNetwork β}

theorem reports_of_execution
    (h : Execution (machine β obtains applicationCode clientCommands) history s) (n : Nat) :
    Alternates (changes n (outputs history)) ∧
      reported (changes n (outputs history)) = s.isHeadServerConnected n := by
  induction h with
  | start => exact ⟨.singleton _, rfl⟩
  | @next history s s' event out _ hstep ih =>
      rw [outputs, changes_append]
      exact step_reports obtains event s s' out hstep _ ih.1 ih.2

/--
An application that was told something, and has nothing under way, shows the status
of the head server; it reports every change of what it shows, and nothing else.
-/
theorem isHeadServerConnected_agrees
    (h : Execution (machine β obtains applicationCode clientCommands) history s) :
    (∀ (n : Nat) (l : Link β), (s.network.applications n).link = some l → l.Drained →
      Told history l.connectionId →
        s.isHeadServerConnected n = s.connection.isConnected) ∧
    ∀ n : Nat, Alternates (changes n (outputs history)) ∧
      reported (changes n (outputs history)) = s.isHeadServerConnected n :=
  ⟨fun _ _ hl hdrained htold => (tracked_of_execution h).agrees hl hdrained htold,
    reports_of_execution h⟩

def activatesWhenConnected : List (StatusEvent Text) :=
  [.headServer none, .headServer (some (.pingFinishedOK ⟨0, 0, fun _ => 0⟩)),
    .network ⟨.reconnect 0, trivial⟩, .openControlChannel 0 [],
    .network ⟨.serverOperation ⟨.activateConnection 0, trivial⟩, trivial⟩,
    .network ⟨.deliverToClient 0, trivial⟩, .network ⟨.deliverToServer 0, trivial⟩,
    .network ⟨.deliverToClient 0, trivial⟩]

def showsConnected (history : History Text) (s : StatusNetwork Text) : Bool :=
  (match (s.network.applications 0).link with
    | some ⟨0, [], [], false⟩ => true
    | _ => false) &&
  (history.any fun st => st.out.any (addresses 0)) && s.isHeadServerConnected 0

theorem isHeadServerConnected_agrees_activatesWhenConnected :
    ∃ history s, (machine Text (fun _ => true) (fun _ => "") (fun _ => [])).run
        activatesWhenConnected = .ok (history, s) ∧
      s.isHeadServerConnected 0 = true ∧
      s.isHeadServerConnected 0 = s.connection.isConnected := by
  have hruns : ∃ history s, (machine Text (fun _ => true) (fun _ => "") (fun _ => [])).run
        activatesWhenConnected = .ok (history, s) ∧ showsConnected history s = true :=
    Machine.exists_run (by decide +kernel)
  obtain ⟨history, s, hrun, hcheck⟩ := hruns
  unfold showsConnected at hcheck
  simp only [Bool.and_eq_true] at hcheck
  obtain ⟨⟨hlink, htold⟩, hflag⟩ := hcheck
  refine ⟨history, s, hrun, hflag, ?_⟩
  split at hlink
  · rename_i hl
    refine (isHeadServerConnected_agrees (Machine.run_execution hrun)).1 0 _ hl
      ⟨rfl, rfl, rfl⟩ ?_
    simpa only [Told, Addressed, List.any_eq_true] using htold
  · cases hlink

end Run

end StatusNetwork

end GBerry.Protocol
