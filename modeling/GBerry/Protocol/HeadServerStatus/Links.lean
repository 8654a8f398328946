import GBerry.Foundation.Mirror
import GBerry.Protocol.Activation
import GBerry.Protocol.HeadServerStatus

/-!
# What is under way of the status

For every connection that the server has addressed, the application will agree with
the server once what is under way has arrived, unless the connection is exempt: a
composed step of the system leaves some connections exempt in the meantime.
-/

namespace GBerry.Protocol

open GBerry.Common
open GBerry.Foundation
open GBerry.Server
open GBerry.Client
open ClientChannelManager (ROOT_CHANNEL)
open ServerSideControlChannel (CHANNEL_ID)
open ServerChannelManager (Effect NeverAnswering Unsaid)

variable {β : Type} [QByteArray β]

theorem headServerStatus_notMem : "HeadServerStatus" ∉ ownCommands := by decide

def tells (msg : β) : Bool := steers msg || isCommand "HeadServerStatus" msg

section Server

variable {m m' : ServerChannelManager} {op : ServerOp β} {out : List (Signal β)}

theorem controlChannels_kept (h : Effect m op m' out) {c : Nat}
    (hc : (c : Int) ∈ m.controlChannels) (hclose : ∀ x, op ≠ .closeControlChannel x)
    (hend : op ≠ .applicationClosed c) : (c : Int) ∈ m'.controlChannels := by
  cases h with
  | registered x commands =>
      rw [ServerChannelManager.openControlChannel, QMap.mem_insert_iff]
      exact .inr hc
  | unregistered _ => exact absurd rfl (hclose _)
  | activated _ =>
      simp only [ServerChannelManager.reopenPlayerChannels,
        ServerChannelManager.withActive_controlChannels]
      exact hc
  | @disconnected x _ =>
      have hne : (c : Int) ≠ x := by
        intro heq
        exact hend (Int.ofNat.inj heq ▸ rfl)
      rw [ServerChannelManager.withoutControl, QMap.mem_erase_iff]
      exact ⟨hne, hc⟩
  | _ => exact hc

theorem addressed_registered (h : Effect m op m' out) (hm : m.Valid)
    (hsteady : SteadyServer β m) (hanswers : NeverAnswering β "HeadServerStatus" m)
    (hreply : ∀ (c : Nat) (json : JsonObject), op = .sendJsonMessageToSouth c json →
      steers (QByteArray.toJson json : β) = false)
    {message : Outgoing β} (hmem : .outgoingMessageToSouth message ∈ out)
    (htells : tells message.msg = true) : message.connectionId ∈ m.controlChannels := by
  have hreopened {m : ServerChannelManager} (hm : m.Valid)
      (hmem : .outgoingMessageToSouth message ∈ (m.reopenPlayerChannels (β := β)).2) :
      tells message.msg = false := by
    have hunsaid := ServerChannelManager.unsaid_reopen headServerStatus_notMem hm message hmem
    simp [tells, silent_reopen hm message hmem, hunsaid]
  by_cases hanswer : ∃ c json, op = .sendJsonMessageToSouth c json
  · obtain ⟨c, json, rfl⟩ := hanswer
    cases h with
    | ignored _ => cases hmem
    | @answered _ _ ch hch =>
        have hpartner := hm.control_partner c ch hch
        simp only [ServerSideControlChannel.sendJsonMessageToSouth, hpartner,
          List.flatMap_cons, List.flatMap_nil, List.append_nil,
          ServerChannelManager.controlCall, List.mem_singleton] at hmem
        cases hmem
        exact QMap.mem_of_getElem? hch
  have hunsaid : Unsaid "HeadServerStatus" out := by
    apply h.unsaid hm headServerStatus_notMem hanswers
    intro c json heq
    exact absurd ⟨c, json, heq⟩ hanswer
  have hsteers : steers message.msg = true := by
    simpa [tells, hunsaid message hmem] using htells
  obtain hsilent | ⟨c, rfl⟩ | ⟨c, rfl⟩ := silent_effect hsteady h hreply
  · simp [hsilent message hmem] at hsteers
  · cases h with
    | ignored _ => cases hmem
    | activated hc =>
        rcases List.mem_append.mp hmem with hdisplaced | hactivated
        · split at hdisplaced
          · cases hdisplaced
          · rename_i hactive
            cases List.mem_singleton.mp hdisplaced
            exact hm.active_registered hactive
        · rcases List.mem_cons.mp hactivated with heq | hreopen
          · cases heq
            exact hc
          · simp [hreopened (hm.withActive hc) hreopen] at htells
  · cases h with
    | ignored _ => cases hmem
    | deactivated hc _ =>
        cases List.mem_singleton.mp hmem
        exact hc

end Server

section Frames

variable {connected flag : Bool} {l : Link β} {sent : List (Signal β)}

def Informed (connected flag : Bool) (l : Link β) : Prop :=
  WillAgree connected flag (∃ frame ∈ l.toClient, prompts frame = true)
    (∃ frame ∈ l.toServer, asks frame = true) (l.toClient.filterMap statusOf)

theorem statusOf_framesTo (hsent : Unsaid "HeadServerStatus" sent) (c : Int) :
    (framesTo c sent).filterMap statusOf = [] := by
  rw [List.filterMap_eq_nil_iff]
  intro frame hframe
  obtain ⟨message, hmem, -, rfl⟩ := System.mem_framesTo.mp hframe
  apply if_neg
  rintro ⟨-, hstatus⟩
  simp [hsent message hmem] at hstatus

theorem Informed.send (h : Informed connected flag l)
    (hsent : Unsaid "HeadServerStatus" sent) : Informed connected flag (l.send sent) := by
  unfold Link.send
  split
  · exact h
  · unfold Informed
    rw [List.filterMap_append, statusOf_framesTo hsent, List.append_nil]
    refine WillAgree.mono h ?_ id
    rintro ⟨frame, hframe, hprompts⟩
    exact ⟨frame, List.mem_append_left _ hframe, hprompts⟩

theorem Informed.of_prompt (hopen : l.closed = false) {message : Outgoing β}
    (hmem : .outgoingMessageToSouth message ∈ sent)
    (hconnection : message.connectionId = l.connectionId)
    (hchannel : message.channelId = CHANNEL_ID) (hsteers : steers message.msg = true) :
    Informed connected flag (l.send sent) := by
  apply WillAgree.of_prompt
  refine ⟨(message.channelId, message.msg), ?_, ?_⟩
  · rw [Link.send, hopen]
    exact List.mem_append_right _ (System.mem_framesTo.mpr ⟨message, hmem, hconnection, rfl⟩)
  · simp [prompts, hchannel, hsteers, CHANNEL_ID, ROOT_CHANNEL]

theorem Informed.reply (h : Informed connected flag l) (frames : List (Frame β)) :
    Informed connected flag { l with toServer := l.toServer ++ frames } := by
  refine WillAgree.mono h id ?_
  rintro ⟨frame, hframe, hasks⟩
  exact ⟨frame, List.mem_append_left _ hframe, hasks⟩

theorem Informed.receive (h : Informed connected flag l) {frame : Frame β}
    {rest : List (Frame β)} (hl : l.toClient = frame :: rest)
    (hprompts : prompts frame = false) :
    Informed connected ((statusOf frame).getD flag) { l with toClient := rest } := by
  have hprompted : (∃ f ∈ l.toClient, prompts f = true) → ∃ f ∈ rest, prompts f = true := by
    rintro ⟨f, hf, hprompt⟩
    rw [hl] at hf
    rcases List.mem_cons.mp hf with rfl | hlater
    · simp [hprompts] at hprompt
    · exact ⟨f, hlater, hprompt⟩
  have hwill := WillAgree.mono h hprompted id
  rw [hl] at hwill
  cases hstatus : statusOf frame with
  | none =>
      rw [List.filterMap_cons_none hstatus] at hwill
      exact hwill
  | some status =>
      rw [List.filterMap_cons_some hstatus] at hwill
      have hpending := hwill.pending
      rw [latest_cons] at hpending
      exact ⟨hpending⟩

theorem Informed.of_question {frames : List (Frame β)} {frame : Frame β}
    (hframe : frame ∈ frames) (hasks : asks frame = true) :
    Informed connected flag { l with toServer := l.toServer ++ frames } := by
  apply WillAgree.of_question
  exact ⟨frame, List.mem_append_right _ hframe, hasks⟩

end Frames

/--
The bookkeeping of the connections that were told something, and what is under way
to the applications.
-/
structure Current (told exempt : Nat → Prop) (connected : Bool) (flag : Nat → Bool)
    (s : Network β) : Prop where
  sound : s.Sound
  rooted : ∀ n, Rooted (s.applications n).client
  answers : NeverAnswering β "HeadServerStatus" s.server
  told_lt : ∀ c, told c → c < s.nextConnectionId
  registered : ∀ (n : Nat) (l : Link β), (s.applications n).link = some l →
    l.closed = false → told l.connectionId →
      (l.connectionId : Int) ∈ s.server.controlChannels
  informed : ∀ (n : Nat) (l : Link β), (s.applications n).link = some l →
    l.closed = false → told l.connectionId → ¬ exempt l.connectionId →
      Informed connected (flag n) l

def ToldBy (out : List (ProtocolSignal β)) (c : Nat) : Prop :=
  ∃ message : Outgoing β, .server (.outgoingMessageToSouth message) ∈ out ∧
    message.connectionId = c ∧ message.channelId = CHANNEL_ID ∧ tells message.msg = true

namespace Current

open Network

variable {told exempt : Nat → Prop} {connected : Bool} {flag : Nat → Bool}
  {s s' : Network β} {out : List (ProtocolSignal β)} {op : ServerOp β}

theorem mono (h : Current told exempt connected flag s) {told' exempt' : Nat → Prop}
    (htold : ∀ c, told' c → told c) (hexempt : ∀ c, told c → exempt c → exempt' c) :
    Current told' exempt' connected flag s where
  sound := h.sound
  rooted := h.rooted
  answers := h.answers
  told_lt c hc := h.told_lt c (htold c hc)
  registered n l hl hopen hc := h.registered n l hl hopen (htold _ hc)
  informed n l hl hopen hc hnot :=
    h.informed n l hl hopen (htold _ hc) fun hex => hnot (hexempt _ (htold _ hc) hex)

theorem toldBy_server {sent : List (Signal β)} {c : Nat}
    (h : ToldBy (sent.map ProtocolSignal.server) c) :
    ∃ message : Outgoing β, .outgoingMessageToSouth message ∈ sent ∧
      message.connectionId = c ∧ message.channelId = CHANNEL_ID ∧
        tells message.msg = true := by
  obtain ⟨message, hmem, hrest⟩ := h
  obtain ⟨signal, hsignal, heq⟩ := List.mem_map.mp hmem
  cases heq
  exact ⟨message, hsignal, hrest⟩

theorem not_toldBy_client {c : Int} {signals : List (ClientSignal β)} {x : Nat} :
    ¬ ToldBy (signals.map (ProtocolSignal.client c)) x := by
  rintro ⟨message, hmem, -⟩
  obtain ⟨signal, -, heq⟩ := List.mem_map.mp hmem
  cases heq

structure Permitted (s : Network β) (op : ServerOp β) : Prop where
  opened : ∀ (c : Nat) (commands : List ICommand), op = .openControlChannel c commands →
    c < s.nextConnectionId ∧ ∀ cmd ∈ commands,
      SteadyCommand β cmd ∧ NeverAnswers β "HeadServerStatus" cmd
  steady : ∀ (c : Nat) (json : JsonObject), op = .sendJsonMessageToSouth c json →
    steers (QByteArray.toJson json : β) = false
  keeps : ∀ x, op ≠ .closeControlChannel x
  apart : ∀ (n : Nat) (l : Link β), (s.applications n).link = some l → l.closed = false →
    op ≠ .applicationClosed l.connectionId

theorem serve_bookkeeping (hs : Current told exempt connected flag s)
    (hop : Permitted s op) (h : s.serve op = .ok (s', out)) :
    Current (fun c => told c ∨ ToldBy out c) (fun _ => True) connected flag s' := by
  have hsound := hs.sound.serve h fun c commands heq =>
    ⟨(hop.opened c commands heq).1, fun cmd hcmd => ((hop.opened c commands heq).2 cmd hcmd).1⟩
  obtain ⟨server, sent, hstep, rfl⟩ := serve_ok h
  have heffect := hs.sound.server.effect hstep
  have hout : out = sent.map .server := by
    simp only [serve, hstep, Except.ok.injEq, Prod.mk.injEq] at h
    exact h.2.symm
  subst hout
  have hregistered {c : Nat} (hc : ToldBy (sent.map ProtocolSignal.server) c) :
      (c : Int) ∈ s.server.controlChannels := by
    obtain ⟨message, hmem, hid, -, htells⟩ := toldBy_server hc
    rw [← hid]
    exact addressed_registered heffect hs.sound.server hs.sound.steady hs.answers hop.steady
      hmem htells
  constructor
  · exact hsound
  · exact hs.rooted
  · exact heffect.neverAnswering headServerStatus_notMem hs.answers fun c commands heq cmd hcmd =>
      ((hop.opened c commands heq).2 cmd hcmd).2
  · rintro c (hold | hnow)
    · exact hs.told_lt c hold
    · have hlt := hs.sound.registered_lt _ (hregistered hnow)
      exact_mod_cast hlt
  · intro n l hl hopen hc
    obtain ⟨l₀, hl₀, hid, hclosed⟩ := send_link _ _ hl
    rw [hid] at hc ⊢
    have hbefore : (l₀.connectionId : Int) ∈ s.server.controlChannels := by
      cases hc with
      | inl hold => exact hs.registered n l₀ hl₀ (hclosed ▸ hopen) hold
      | inr hnow => exact hregistered hnow
    exact controlChannels_kept heffect hbefore hop.keeps
      (hop.apart n l₀ hl₀ (hclosed ▸ hopen))
  · intro _ _ _ _ _ hnot
    exact absurd trivial hnot

theorem serve (hs : Current told exempt connected flag s) (hop : Permitted s op)
    (hreply : ∀ (c : Nat) (json : JsonObject), op = .sendJsonMessageToSouth c json →
      isCommand "HeadServerStatus" (QByteArray.toJson json : β) = false)
    (h : s.serve op = .ok (s', out)) :
    Current (fun c => told c ∨ ToldBy out c) exempt connected flag s' := by
  have hbook := hs.serve_bookkeeping hop h
  refine ⟨hbook.sound, hbook.rooted, hbook.answers, hbook.told_lt, hbook.registered, ?_⟩
  obtain ⟨server, sent, hstep, rfl⟩ := serve_ok h
  have hout : out = sent.map .server := by
    simp only [Network.serve, hstep, Except.ok.injEq, Prod.mk.injEq] at h
    exact h.2.symm
  subst hout
  have hunsaid : Unsaid "HeadServerStatus" sent :=
    (hs.sound.server.effect hstep).unsaid hs.sound.server headServerStatus_notMem hs.answers
      hreply
  intro n l hl hopen hc hnot
  obtain ⟨l₀, hl₀, rfl⟩ := Option.map_eq_some_iff.mp hl
  obtain ⟨l₁, hl₁, hid, hclosed⟩ := send_link _ _ hl
  obtain rfl : l₀ = l₁ := Option.some.inj (hl₀.symm.trans hl₁)
  rw [hid] at hc hnot
  by_cases hold : told l₀.connectionId
  · exact (hs.informed n l₀ hl₀ (hclosed ▸ hopen) hold hnot).send hunsaid
  · obtain ⟨message, hmem, hconnection, hchannel, htells⟩ :=
      toldBy_server (hc.resolve_left hold)
    have hsteers : steers message.msg = true := by
      simpa [tells, hunsaid message hmem] using htells
    exact .of_prompt (hclosed ▸ hopen) hmem hconnection hchannel hsteers

theorem toldBy_nil {c : Nat} : ¬ ToldBy ([] : List (ProtocolSignal β)) c := by
  rintro ⟨message, hmem, -⟩
  cases hmem

theorem silent (hs : Current told exempt connected flag s)
    (h : ∀ c, ¬ ToldBy out c) :
    Current (fun c => told c ∨ ToldBy out c) exempt connected flag s :=
  hs.mono (fun c hc => hc.resolve_right (h c)) fun _ _ hex => hex

theorem setApplication (hs : Current told exempt connected flag s) {n : Nat}
    {a : Application β} (hcontrol : a.client.controlChannel.isSome) (hrooted : Rooted a.client)
    (hlink : ∀ l, a.link = some l → ∃ l₀, (s.applications n).link = some l₀ ∧
      l.connectionId = l₀.connectionId ∧ (l.closed = false → l₀.closed = false))
    (hinformed : ∀ l, a.link = some l → l.closed = false → told l.connectionId →
      ¬ exempt l.connectionId → Informed connected (flag n) l) :
    Current told exempt connected flag (s.setApplication n a) := by
  have hsound := hs.sound.setApplication (n := n) hcontrol fun l hl => by
    obtain ⟨l₀, hl₀, hid, -⟩ := hlink l hl
    exact ⟨l₀, hl₀, hid⟩
  refine ⟨hsound, ?_, hs.answers, hs.told_lt, ?_, ?_⟩
  · intro x
    by_cases hx : x = n
    · subst hx
      simpa [Network.setApplication] using hrooted
    · simpa [Network.setApplication, hx] using hs.rooted x
  · intro x l hl hopen hc
    by_cases hx : x = n
    · subst hx
      simp only [Network.setApplication, Function.update_self] at hl
      obtain ⟨l₀, hl₀, hid, hup⟩ := hlink l hl
      rw [hid] at hc ⊢
      exact hs.registered x l₀ hl₀ (hup hopen) hc
    · simp only [Network.setApplication, Function.update_of_ne hx] at hl
      exact hs.registered x l hl hopen hc
  · intro x l hl hopen hc hnot
    by_cases hx : x = n
    · subst hx
      simp only [Network.setApplication, Function.update_self] at hl
      exact hinformed l hl hopen hc hnot
    · simp only [Network.setApplication, Function.update_of_ne hx] at hl
      exact hs.informed x l hl hopen hc hnot

theorem signal (hs : Current told exempt connected flag s) {n : Nat}
    {client : ClientChannelManager} {l l₀ : Link β} {signals : List (ClientSignal β)}
    (h : s.signal n l ⟨client, some l⟩ signals = .ok (s', out))
    (hcontrol : client.controlChannel.isSome) (hrooted : Rooted client)
    (hl₀ : (s.applications n).link = some l₀)
    (hid : l.connectionId = l₀.connectionId) (hclosed : l.closed = l₀.closed)
    (hinformed : l.closed = false → told l.connectionId → ¬ exempt l.connectionId →
      Informed connected (flag n) l) :
    Current (fun c => told c ∨ ToldBy out c) exempt connected flag s' := by
  cases h
  apply silent _ fun c => not_toldBy_client
  apply hs.setApplication hcontrol hrooted
  · intro l' hl'
    cases hl'
    exact ⟨l₀, hl₀, hid, fun hopen => hclosed ▸ hopen⟩
  · intro l' hl' hopen hc hnot
    cases hl'
    exact (hinformed hopen hc hnot).reply _

theorem write (hs : Current told exempt connected flag s) {n : Nat}
    {client : ClientChannelManager} {l : Link β} {signals : List (ClientSignal β)}
    (hn : s.applications n = ⟨client, some l⟩)
    (h : s.signal n l ⟨client, some l⟩ signals = .ok (s', out)) :
    Current (fun c => told c ∨ ToldBy out c) exempt connected flag s' := by
  have hcontrol := hs.sound.control n
  have hrooted := hs.rooted n
  rw [hn] at hcontrol hrooted
  have hlink : (s.applications n).link = some l := by rw [hn]
  exact hs.signal h hcontrol hrooted hlink rfl rfl (hs.informed n l hlink)

theorem reconnect (hs : Current told exempt connected flag s) {n : Nat}
    {client : ClientChannelManager} (hn : s.applications n = ⟨client, none⟩) :
    Current told exempt connected flag
      { s.setApplication n ⟨client, some ⟨s.nextConnectionId, [], [], false⟩⟩ with
        nextConnectionId := s.nextConnectionId + 1 } := by
  have hlink (x : Nat) (l : Link β)
      (hl : ((s.setApplication n ⟨client, some ⟨s.nextConnectionId, [], [], false⟩⟩).applications
        x).link = some l) (hc : told l.connectionId) : (s.applications x).link = some l := by
    by_cases hx : x = n
    · subst hx
      simp only [Network.setApplication, Function.update_self, Option.some.injEq] at hl
      subst hl
      exact absurd (hs.told_lt _ hc) (Nat.lt_irrefl _)
    · simpa only [Network.setApplication, Function.update_of_ne hx] using hl
  refine ⟨hs.sound.reconnect hn, ?_, hs.answers, ?_, ?_, ?_⟩
  · intro x
    have hrooted := hs.rooted n
    rw [hn] at hrooted
    by_cases hx : x = n
    · subst hx
      simpa [Network.setApplication] using hrooted
    · simpa [Network.setApplication, hx] using hs.rooted x
  · intro c hc
    exact Nat.lt_succ_of_lt (hs.told_lt c hc)
  · intro x l hl hopen hc
    exact hs.registered x l (hlink x l hl hc) hopen hc
  · intro x l hl hopen hc hnot
    exact hs.informed x l (hlink x l hl hc) hopen hc hnot

theorem connectionBroken (hs : Current told exempt connected flag s) {n : Nat}
    {client : ClientChannelManager} {l : Link β}
    (hn : s.applications n = ⟨client, some l⟩)
    (h : s.step (.connectionBroken n) = .ok (s', out)) :
    Current (fun c => told c ∨ ToldBy out c) exempt connected flag s' := by
  have hsound := hs.sound.connectionBroken hn h
  simp only [Network.step, hn] at h
  cases h
  apply silent _ fun c => not_toldBy_client
  have hlink (x : Nat) (l' : Link β)
      (hl' : ((s.setApplication n ((⟨(client.connectionBroken (β := β)).1, none⟩ :
        Application β).reply (client.connectionBroken (β := β)).2)).applications x).link =
          some l') : (s.applications x).link = some l' := by
    by_cases hx : x = n
    · subst hx
      simp [Network.setApplication, Application.reply] at hl'
    · simpa only [Network.setApplication, Function.update_of_ne hx] using hl'
  have hrooted (x : Nat) : Rooted ((s.setApplication n ((⟨(client.connectionBroken (β := β)).1,
      none⟩ : Application β).reply (client.connectionBroken (β := β)).2)).applications
        x).client := by
    have hbefore := hs.rooted n
    rw [hn] at hbefore
    by_cases hx : x = n
    · subst hx
      simpa [Network.setApplication, Application.reply] using hbefore.connectionBroken
    · simpa [Network.setApplication, hx] using hs.rooted x
  exact ⟨hsound, hrooted, hs.answers, hs.told_lt,
    fun x l' hl' => hs.registered x l' (hlink x l' hl'),
    fun x l' hl' => hs.informed x l' (hlink x l' hl')⟩

theorem applicationClosed (hs : Current told exempt connected flag s) {n : Nat}
    (h : s.step (.applicationClosed n) = .ok (s', out)) :
    Current (fun c => told c ∨ ToldBy out c) exempt connected flag s' := by
  simp only [Network.step] at h
  split at h
  · rename_i client connectionId toClient toServer hn
    have hcontrol := hs.sound.control n
    have hrooted := hs.rooted n
    rw [hn] at hcontrol hrooted
    have hclosed : Current told exempt connected flag (s.setApplication n
        ⟨client, some ⟨connectionId, toClient, toServer, true⟩⟩) := by
      refine hs.setApplication (show client.controlChannel.isSome from hcontrol)
        hrooted ?_ ?_
      · intro l hl
        cases hl
        exact ⟨_, congrArg Application.link hn, rfl, by rintro ⟨⟩⟩
      · intro l hl hopen
        cases hl
        cases hopen
    refine hclosed.serve ⟨by rintro _ _ ⟨⟩, by rintro _ _ ⟨⟩, by rintro _ ⟨⟩, ?_⟩
      (by rintro _ _ ⟨⟩) h
    intro x l hl hopen heq
    by_cases hx : x = n
    · subst hx
      simp only [Network.setApplication, Function.update_self, Option.some.injEq] at hl
      subst hl
      cases hopen
    · simp only [Network.setApplication, Function.update_of_ne hx] at hl
      cases heq
      exact hx (hs.sound.link_unique x n l _ hl (congrArg Application.link hn) rfl)
  · cases h
    exact hs.silent fun _ => toldBy_nil

theorem brokenConnectionClosed (hs : Current told exempt connected flag s) {c : Nat}
    (h : s.step (.brokenConnectionClosed c) = .ok (s', out)) :
    Current (fun c => told c ∨ ToldBy out c) exempt connected flag s' := by
  simp only [Network.step] at h
  split at h
  · rename_i hc
    have hsound : ({ s with unnoticed := s.unnoticed.erase c } : Network β).Sound := by
      apply hs.sound.setUnnoticed
      · intro x hx
        exact hs.sound.unnoticed_lt x (List.mem_of_mem_erase hx)
      · intro x l hl hmem
        exact hs.sound.unnoticed_apart x l hl (List.mem_of_mem_erase hmem)
    have hforgotten : Current told exempt connected flag
        ({ s with unnoticed := s.unnoticed.erase c } : Network β) :=
      ⟨hsound, hs.rooted, hs.answers, hs.told_lt, hs.registered, hs.informed⟩
    refine hforgotten.serve ⟨by rintro _ _ ⟨⟩, by rintro _ _ ⟨⟩, by rintro _ ⟨⟩, ?_⟩
      (by rintro _ _ ⟨⟩) h
    rintro x l hl - heq
    cases heq
    exact hs.sound.unnoticed_apart x l hl hc
  · cases h
    exact hs.silent fun _ => toldBy_nil

theorem openControlChannel (hs : Current told exempt connected flag s) {n : Nat}
    {commands : List { cmd : ICommand // SteadyCommand β cmd }}
    (hcommands : ∀ cmd ∈ commands, NeverAnswers β "HeadServerStatus" cmd.1)
    (h : s.step (.openControlChannel n commands) = .ok (s', out)) :
    Current (fun c => told c ∨ ToldBy out c) exempt connected flag s' := by
  simp only [Network.step] at h
  split at h
  · rename_i client connectionId toClient toServer hn
    refine hs.serve ⟨?_, by rintro _ _ ⟨⟩, by rintro _ ⟨⟩, by rintro _ _ _ _ ⟨⟩⟩
      (by rintro _ _ ⟨⟩) h
    rintro c commands' ⟨⟩
    refine ⟨hs.sound.link_lt n _ (by rw [hn]), ?_⟩
    intro cmd hcmd
    obtain ⟨command, hmem, rfl⟩ := List.mem_map.mp hcmd
    exact ⟨command.2, hcommands command hmem⟩
  · cases h
    exact hs.silent fun _ => toldBy_nil

theorem step (hs : Current told exempt connected flag s) {ev : NetworkEvent β}
    (hev : ev.Unconcerned) (htoClient : ∀ n, ev ≠ .deliverToClient n)
    (htoServer : ∀ n, ev ≠ .deliverToServer n) (h : s.step ev = .ok (s', out)) :
    Current (fun c => told c ∨ ToldBy out c) exempt connected flag s' := by
  cases ev with
  | reconnect n =>
      simp only [Network.step] at h
      split at h
      · rename_i client hn
        cases h
        exact (hs.reconnect hn).silent fun _ => toldBy_nil
      · cases h
        exact hs.silent fun _ => toldBy_nil
  | openControlChannel n commands => exact hev.elim
  | serverOperation op =>
      obtain ⟨op, hop⟩ := op
      refine hs.serve ⟨?_, ?_, ?_, ?_⟩ ?_ h
      · rintro c commands rfl
        exact hop.elim
      · rintro c json rfl
        exact hop
      · rintro x rfl
        exact hev
      · rintro n l - - rfl
        exact hop
      · rintro c json rfl
        exact hev
  | deliverToClient n => exact absurd rfl (htoClient n)
  | deliverToServer n => exact absurd rfl (htoServer n)
  | sendPlayerMessage n k msg =>
      simp only [Network.step] at h
      split at h
      · rename_i client l hn
        exact hs.write hn h
      · cases h
        exact hs.silent fun _ => toldBy_nil
  | sendControlMessage n msg =>
      simp only [Network.step] at h
      split at h
      · rename_i client l hn
        exact hs.write hn h
      · cases h
        exact hs.silent fun _ => toldBy_nil
  | connectionBroken n =>
      cases hn : s.applications n with
      | mk client link =>
          cases link with
          | none =>
              simp only [Network.step, hn] at h
              cases h
              exact hs.silent fun _ => toldBy_nil
          | some l => exact hs.connectionBroken hn h
  | applicationClosed n => exact hs.applicationClosed h
  | brokenConnectionClosed c => exact hs.brokenConnectionClosed h

theorem restore (hs : Current told exempt connected flag s) {exempt' : Nat → Prop} (n : Nat)
    (hothers : ∀ (x : Nat) (l : Link β), (s.applications x).link = some l → x ≠ n →
      exempt l.connectionId → exempt' l.connectionId)
    (hinformed : ∀ l, (s.applications n).link = some l → l.closed = false →
      told l.connectionId → ¬ exempt' l.connectionId → Informed connected (flag n) l) :
    Current told exempt' connected flag s := by
  refine ⟨hs.sound, hs.rooted, hs.answers, hs.told_lt, hs.registered, ?_⟩
  intro x l hl hopen hc hnot
  by_cases hx : x = n
  · subst hx
    exact hinformed l hl hopen hc hnot
  · exact hs.informed x l hl hopen hc fun hex => hnot (hothers x l hl hx hex)

theorem setFlag (hs : Current told exempt connected flag s) {n : Nat}
    (hexempt : ∀ l, (s.applications n).link = some l → exempt l.connectionId)
    (status : Bool) : Current told exempt connected (Function.update flag n status) s := by
  refine ⟨hs.sound, hs.rooted, hs.answers, hs.told_lt, hs.registered, ?_⟩
  intro x l hl hopen hc hnot
  by_cases hx : x = n
  · subst hx
    exact absurd (hexempt l hl) hnot
  · rw [Function.update_of_ne hx]
    exact hs.informed x l hl hopen hc hnot

theorem setConnected (hs : Current told exempt connected flag s) (connected' : Bool) :
    Current told (fun _ => True) connected' flag s :=
  ⟨hs.sound, hs.rooted, hs.answers, hs.told_lt, hs.registered,
    fun _ _ _ _ _ hnot => absurd trivial hnot⟩

section Answers

theorem sendJsonMessageToSouth_eq {m : ServerChannelManager} (hm : m.Valid) (c : Nat)
    (json : JsonObject) : m.sendJsonMessageToSouth (β := β) c json =
      if (c : Int) ∈ m.controlChannels then [m.emit c CHANNEL_ID (QByteArray.toJson json)]
      else [] := by
  unfold ServerChannelManager.sendJsonMessageToSouth
  cases hch : m.controlChannels[(c : Int)]? with
  | none =>
      rw [if_neg ((QMap.notMem_iff _ _).mpr hch)]
  | some ch =>
      rw [if_pos (QMap.mem_of_getElem? hch)]
      simp [ServerSideControlChannel.sendJsonMessageToSouth, hm.control_partner c ch hch,
        ServerChannelManager.controlCall]

theorem statusOf_createResponse (currentStatus oldStatus : Bool) :
    statusOf (CHANNEL_ID, (QByteArray.toJson
      (HeadServerStatusCommand.createResponse currentStatus oldStatus) : β)) =
        some currentStatus := by
  have hcommand := HeadServerStatusCommand.isCommand_createResponse (β := β)
    "HeadServerStatus" currentStatus oldStatus
  have hread := QByteArray.fromJson_toJson (β := β) _
    (HeadServerStatusCommand.normal_createResponse currentStatus oldStatus)
  rw [statusOf, if_pos ⟨rfl, hcommand.trans (by decide)⟩, hread]
  cases currentStatus <;> rfl

theorem sendStatus (hs : Current told exempt connected flag s) {oldStatus : Bool} {c : Nat}
    (h : s.serve (.sendJsonMessageToSouth c
      (HeadServerStatusCommand.createResponse connected oldStatus)) = .ok (s', out)) :
    Current (fun x => told x ∨ ToldBy out x) (fun x => exempt x ∧ x ≠ c) connected flag s' := by
  have hop : Permitted s (.sendJsonMessageToSouth c
      (HeadServerStatusCommand.createResponse connected oldStatus)) := by
    refine ⟨by rintro _ _ ⟨⟩, ?_, by rintro _ ⟨⟩, by rintro _ _ _ _ ⟨⟩⟩
    rintro _ _ ⟨⟩
    exact HeadServerStatusCommand.steers_createResponse _ _
  have hbook := hs.serve_bookkeeping hop h
  refine ⟨hbook.sound, hbook.rooted, hbook.answers, hbook.told_lt, hbook.registered, ?_⟩
  have hsent := sendJsonMessageToSouth_eq (β := β) hs.sound.server c
    (HeadServerStatusCommand.createResponse connected oldStatus)
  simp only [Network.serve, ServerChannelManager.step, hsent, Except.ok.injEq,
    Prod.mk.injEq] at h
  obtain ⟨rfl, rfl⟩ := h
  intro n l hl hopen htold hnot
  have hregistered := hbook.registered n l hl hopen htold
  obtain ⟨l₀, hl₀, rfl⟩ := Option.map_eq_some_iff.mp hl
  obtain ⟨l₁, hl₁, hid, hclosed⟩ := send_link _ _ hl
  obtain rfl : l₀ = l₁ := Option.some.inj (hl₀.symm.trans hl₁)
  rw [hid] at htold hnot hregistered
  have hup : l₀.closed = false := hclosed ▸ hopen
  by_cases hc : l₀.connectionId = c
  · subst hc
    rw [if_pos hregistered]
    have hanswered : Informed connected (flag n)
        { l₀ with toClient := l₀.toClient ++ [(CHANNEL_ID, QByteArray.toJson
          (HeadServerStatusCommand.createResponse connected oldStatus))] } := by
      unfold Informed
      rw [List.filterMap_append, List.filterMap_cons, statusOf_createResponse]
      exact .of_answer
    simpa [Link.send, hup, framesTo, ServerChannelManager.emit] using hanswered
  · have hframes : framesTo (β := β) l₀.connectionId
        (if (c : Int) ∈ s.server.controlChannels then
          [s.server.emit c CHANNEL_ID (QByteArray.toJson
            (HeadServerStatusCommand.createResponse connected oldStatus))]
        else []) = [] := by
      split
      · have hne : (c : Int) ≠ l₀.connectionId := by
          intro heq
          exact hc (Int.ofNat.inj heq.symm)
        simp [framesTo, ServerChannelManager.emit, hne]
      · rfl
    have hold : told l₀.connectionId := by
      apply htold.resolve_right
      rintro hnow
      obtain ⟨message, hmem, hconnection, -⟩ := toldBy_server hnow
      have hframe := System.mem_framesTo.mpr ⟨message, hmem, hconnection, rfl⟩
      rw [hframes] at hframe
      cases hframe
    have hbefore := hs.informed n l₀ hl₀ hup hold fun hex => hnot ⟨hex, hc⟩
    have hsame : l₀.send (if (c : Int) ∈ s.server.controlChannels then
        [s.server.emit c CHANNEL_ID (QByteArray.toJson
          (HeadServerStatusCommand.createResponse connected oldStatus))]
        else []) = l₀ := by
      rw [Link.send, hframes, List.append_nil]
      split <;> rfl
    rw [hsame]
    exact hbefore

end Answers

theorem deliverToServer (hs : Current told exempt connected flag s) {n : Nat}
    {exempt' : Nat → Prop} (hexempt : ∀ c, exempt c → exempt' c)
    (hqueried : ∀ (l : Link β) (frame : Frame β) (rest : List (Frame β)),
      (s.applications n).link = some l → l.closed = false → l.toServer = frame :: rest →
      asks frame = true → (l.connectionId : Int) ∈ s.server.controlChannels →
      exempt' l.connectionId)
    (h : s.step (.deliverToServer n) = .ok (s', out)) :
    Current (fun c => told c ∨ ToldBy out c) exempt' connected flag s' := by
  simp only [Network.step] at h
  split at h
  · rename_i client connectionId toClient k msg toServer hn
    have hlink := congrArg Application.link hn
    have hcontrol := hs.sound.control n
    have hrooted := hs.rooted n
    rw [hn] at hcontrol hrooted
    have htaken : Current told exempt' connected flag (s.setApplication n
        ⟨client, some ⟨connectionId, toClient, toServer, false⟩⟩) := by
      refine (hs.mono (fun _ hc => hc) fun c _ hex => hexempt c hex).setApplication
        (show client.controlChannel.isSome from hcontrol)
        hrooted ?_ ?_
      · intro l hl
        cases hl
        exact ⟨_, hlink, rfl, fun _ => rfl⟩
      · intro l hl hopen hc hnot
        cases hl
        have hregistered := hs.registered n _ hlink rfl hc
        have hasks : asks (k, msg) = false := by
          rw [← Bool.not_eq_true]
          intro hasks
          exact hnot (hqueried ⟨connectionId, toClient, (k, msg) :: toServer, false⟩ _ _ hlink rfl
            rfl hasks hregistered)
        have hbefore := hs.informed n _ hlink rfl hc fun hex => hnot (hexempt _ hex)
        refine WillAgree.mono hbefore id ?_
        rintro ⟨frame, hframe, hquery⟩
        rcases List.mem_cons.mp hframe with rfl | hlater
        · simp [hasks] at hquery
        · exact ⟨frame, hlater, hquery⟩
    exact htaken.serve ⟨by rintro _ _ ⟨⟩, by rintro _ _ ⟨⟩, by rintro _ ⟨⟩,
      by rintro _ _ _ _ ⟨⟩⟩ (by rintro _ _ ⟨⟩) h
  · cases h
    exact (hs.mono (fun _ hc => hc) fun c _ hex => hexempt c hex).silent fun _ => toldBy_nil

theorem deliverToClient (hs : Current told exempt connected flag s) {n : Nat}
    {client : ClientChannelManager} {l : Link β} {frame : Frame β} {rest : List (Frame β)}
    (hn : s.applications n = ⟨client, some l⟩) (hl : l.toClient = frame :: rest)
    (h : s.step (.deliverToClient n) = .ok (s', out)) :
    Current told (fun c => exempt c ∨ c = l.connectionId) connected flag s' ∧
      s'.applications n = ⟨(client.processMessage frame.1 frame.2).1, some { l with
        toClient := rest
        toServer := l.toServer ++ framesOf (client.processMessage frame.1 frame.2).2 }⟩ ∧
      out = (client.processMessage frame.1 frame.2).2.map (.client l.connectionId) := by
  obtain ⟨connectionId, toClient, toServer, closed⟩ := l
  obtain rfl : toClient = frame :: rest := hl
  obtain ⟨k, msg⟩ := frame
  have hcontrol : client.controlChannel.isSome := by
    simpa [hn] using hs.sound.control n
  have hrooted : Rooted client := by
    simpa [hn] using hs.rooted n
  simp only [Network.step, hn] at h
  have hexempted : Current told (fun c => exempt c ∨ c = connectionId) connected flag s :=
    hs.mono (fun _ hc => hc) fun _ _ hex => .inl hex
  have hsignal := hexempted.signal h (processMessage_controlChannel hcontrol)
    (hrooted.processMessage k msg) (congrArg Application.link hn) rfl rfl
    fun _ _ hnot => absurd (.inr rfl) hnot
  cases h
  refine ⟨hsignal.mono (fun _ hc => .inl hc) fun _ _ hex => hex, ?_, rfl⟩
  simp [Network.setApplication, Application.reply]

end Current

end GBerry.Protocol
