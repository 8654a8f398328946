import GBerry.Protocol.Settled

/-!
# What a step of the system does to one connection

A step performs at most one operation of the server.  Seen from one connection,
it sends the frames of that operation, or lets the client and the server go on
with what is under way.
-/

namespace GBerry.Protocol

open GBerry.Common
open GBerry.Foundation
open GBerry.Server
open GBerry.Client
open ClientChannelManager (ROOT_CHANNEL)

namespace System

variable {β : Type} [QByteArray β] {s s' : System β} {ev : ProtocolEvent β}
  {out : List (ProtocolSignal β)}

section Steps

omit [QByteArray β] in
theorem serverSignals_server (signals : List (Signal β)) :
    serverSignals (signals.map .server) = signals := by
  induction signals with
  | nil => rfl
  | cons signal signals ih => exact congrArg (signal :: ·) ih

omit [QByteArray β] in
theorem serverSignals_client (connectionId : Int) (signals : List (ClientSignal β)) :
    serverSignals (signals.map (.client connectionId)) = [] := by
  induction signals with
  | nil => rfl
  | cons signal signals ih => exact ih

theorem serve_ok {op : ServerOp β} (h : s.serve op = .ok (s', out)) :
    s.server.step op = .ok (s'.server, serverSignals out) ∧
      ∀ c : Int, s'.peers[c]? =
        s.peers[c]?.map (·.send (framesTo c (serverSignals out))) := by
  unfold serve at h
  split at h
  · cases h
  · rename_i server signals hstep
    cases h
    rw [serverSignals_server]
    exact ⟨hstep, fun c => by simp⟩

/-- How a connection goes on: the server sends frames, and may receive one. -/
structure Continues (c : Nat) (op : Option (ServerOp β)) (sent : List (Frame β))
    (p p' : Peer β) : Prop where
  settled_eq : p'.settled = (receiveAll p.settled sent).1
  answered : ∀ frame ∈ p.answers,
    frame ∈ p'.answers ∨ op = some (.processMessageFromSouth c frame.1 frame.2)
  answers : ∀ frame ∈ (receiveAll p.settled sent).2, frame ∈ p'.answers

namespace Continues

variable {c : Nat} {op : Option (ServerOp β)} {sent : List (Frame β)} {p p' : Peer β}
  {k : Int}

theorem accepting (h : Continues c op sent p p') (haccepting : p.Accepting k) :
    p'.Accepting k ∨ ∃ msg : β, op = some (.processMessageFromSouth c k msg) ∧
      isCommand "OpenChannelAccepted" msg = true := by
  obtain ⟨frame, hframe, rfl, haccepts⟩ := haccepting
  rcases h.answered frame hframe with hstill | hreceived
  · exact .inl ⟨frame, hstill, rfl, haccepts⟩
  · exact .inr ⟨frame.2, hreceived, haccepts⟩

theorem keeps (h : Continues c op sent p p') (hp : p.settled.Attached)
    (hk : k ∈ p.settled.playerChannels) (hclose : ∀ frame ∈ sent, ¬ Closes k frame) :
    k ∈ p'.settled.playerChannels := by
  rw [h.settled_eq]
  exact receiveAll_keeps hp hk hclose

theorem opens (h : Continues c op sent p p') (hp : p.settled.Attached)
    (hroot : k ≠ ROOT_CHANNEL) (hk : k ∉ p.settled.playerChannels)
    (hclose : ∀ frame ∈ sent, ¬ Closes k frame)
    (hopens : ∃ frame ∈ sent, Opens k frame) :
    k ∈ p'.settled.playerChannels ∧ p'.Accepting k := by
  obtain ⟨hthere, answer, hanswer, haccepts⟩ :=
    receiveAll_opens hp hroot hk hclose hopens
  exact ⟨h.settled_eq ▸ hthere, answer, h.answers answer hanswer, haccepts⟩

end Continues

omit [QByteArray β] in
theorem framesTo_nil (c : Int) : framesTo c ([] : List (Signal β)) = [] := rfl

theorem continues_send (c : Nat) (op : Option (ServerOp β)) (sent : List (Frame β))
    (p : Peer β) : Continues c op sent p (p.send sent) where
  settled_eq := Peer.settled_send
  answered frame hframe := by
    rw [Peer.answers_send]
    exact .inl (List.mem_append_left _ hframe)
  answers frame hframe := by
    rw [Peer.answers_send]
    exact List.mem_append_right _ hframe

theorem continues_reply (c : Nat) (op : Option (ServerOp β)) (p : Peer β)
    (signals : List (ClientSignal β)) : Continues c op [] p (p.reply signals) where
  settled_eq := Peer.settled_reply signals
  answered _ hframe := .inl (Peer.mem_answers_reply signals hframe)
  answers _ hframe := by cases hframe

theorem continues_deliverToClient (c : Nat) (op : Option (ServerOp β))
    (client : ClientChannelManager) (frame : Frame β)
    (toClient toServer : List (Frame β)) :
    Continues c op [] ⟨client, frame :: toClient, toServer⟩
      (Peer.reply ⟨(client.processMessage frame.1 frame.2).1, toClient, toServer⟩
        (client.processMessage frame.1 frame.2).2) where
  settled_eq := rfl
  answered frame' hframe' := by
    simp only [Peer.answers, Peer.reply, receiveAll, receive, List.mem_append] at hframe' ⊢
    tauto
  answers _ hframe := by cases hframe

theorem continues_deliverToServer (c : Nat) (client : ClientChannelManager)
    (frame : Frame β) (toClient toServer sent : List (Frame β)) :
    Continues c (some (.processMessageFromSouth c frame.1 frame.2)) sent
      ⟨client, toClient, frame :: toServer⟩
      (Peer.send ⟨client, toClient, toServer⟩ sent) where
  settled_eq := Peer.settled_send
  answered frame' hframe' := by
    rw [Peer.answers_send]
    simp only [Peer.answers, List.mem_append, List.mem_cons] at hframe' ⊢
    rcases hframe' with (rfl | hlater) | hlater
    · exact .inr rfl
    · exact .inl (.inl (.inl hlater))
    · exact .inl (.inl (.inr hlater))
  answers frame' hframe' := by
    rw [Peer.answers_send]
    exact List.mem_append_right _ hframe'

inductive PeerStep (c : Nat) (op : Option (ServerOp β)) (sent : List (Frame β)) :
    Option (Peer β) → Option (Peer β) → Prop
  | absent : (∀ commands, op ≠ some (.openControlChannel c commands)) →
      PeerStep c op sent none none
  | accepted (commands : List ICommand) (applicationCode : String)
      (clientCommands : List ICommand) :
      op = some (.openControlChannel c commands) →
      PeerStep c op sent none
        (some ((Peer.connected applicationCode clientCommands).send sent))
  | continues {p p' : Peer β} : Continues c op sent p p' →
      PeerStep c op sent (some p) (some p')

theorem peerStep_send {c : Nat} {op : Option (ServerOp β)} (sent : List (Frame β))
    (hop : ∀ commands, op ≠ some (.openControlChannel c commands))
    (peer : Option (Peer β)) : PeerStep c op sent peer (peer.map (·.send sent)) := by
  cases peer with
  | none => exact .absent hop
  | some p => exact .continues (continues_send c op sent p)

theorem peerStep_self (c : Nat) (peer : Option (Peer β)) :
    PeerStep c none [] peer peer := by
  cases peer with
  | none => exact .absent (by simp)
  | some p => exact .continues ⟨rfl, fun _ h => .inl h, fun _ h => by cases h⟩

theorem peerStep_signal {c connectionId : Nat} {p p₁ : Peer β}
    {signals : List (ClientSignal β)} (hp : s.peers[(connectionId : Int)]? = some p)
    (hcontinues : Continues connectionId none [] p (p₁.reply signals)) :
    PeerStep c none (framesTo c (serverSignals (s.signal connectionId p₁ signals).2))
      s.peers[(c : Int)]? (s.signal connectionId p₁ signals).1.peers[(c : Int)]? := by
  simp only [signal, serverSignals_client, framesTo_nil, QMap.getElem?_insert]
  split
  · rename_i heq
    obtain rfl := Int.ofNat.inj heq
    rw [hp]
    exact .continues hcontinues
  · exact peerStep_self c _

theorem connect_peer {c connectionId : Nat} {commands : List ICommand}
    {applicationCode : String} {clientCommands : List ICommand}
    (h : s.connect connectionId commands applicationCode clientCommands =
      .ok (s', out)) :
    PeerStep c (s.serverOp (.connect connectionId commands applicationCode
      clientCommands)) (framesTo c (serverSignals out))
      s.peers[(c : Int)]? s'.peers[(c : Int)]? := by
  unfold connect at h
  simp only [serverOp]
  split at h
  · rename_i hknown
    cases h
    rw [if_pos hknown]
    exact peerStep_self c _
  · rename_i hunknown
    rw [if_neg hunknown, (serve_ok h).2 c]
    simp only [QMap.getElem?_insert]
    split
    · rename_i heq
      obtain rfl := Int.ofNat.inj heq
      have hnone : s.peers[(c : Int)]? = none := by
        rw [← QMap.notMem_iff, ← Std.ExtTreeMap.contains_iff_mem]
        exact hunknown
      rw [hnone]
      exact .accepted commands applicationCode clientCommands rfl
    · rename_i hne
      apply peerStep_send
      rintro commands' heq
      simp only [Option.some.injEq, ServerOp.openControlChannel.injEq] at heq
      omega

theorem deliverToServer_peer {c connectionId : Nat}
    (h : s.deliverToServer connectionId = .ok (s', out)) :
    PeerStep c (s.serverOp (.deliverToServer connectionId))
      (framesTo c (serverSignals out)) s.peers[(c : Int)]? s'.peers[(c : Int)]? := by
  unfold deliverToServer at h
  simp only [serverOp]
  split at h
  · rename_i client toClient channelId msg toServer hpeer
    rw [(serve_ok h).2 c]
    simp only [QMap.getElem?_insert]
    split
    · rename_i heq
      obtain rfl := Int.ofNat.inj heq
      rw [hpeer]
      exact .continues
        (continues_deliverToServer c client (channelId, msg) toClient toServer _)
    · exact peerStep_send _ (by simp) _
  · cases h
    exact peerStep_self c _

theorem deliverToClient_peer (s : System β) (c connectionId : Nat) :
    PeerStep c none (framesTo c (serverSignals (s.deliverToClient connectionId).2))
      s.peers[(c : Int)]? (s.deliverToClient connectionId).1.peers[(c : Int)]? := by
  unfold deliverToClient
  split
  · rename_i client channelId msg toClient toServer hpeer
    exact peerStep_signal hpeer
      (continues_deliverToClient _ _ client (channelId, msg) toClient toServer)
  · exact peerStep_self c _

theorem step_peer (h : s.step ev = .ok (s', out)) (c : Nat) :
    PeerStep c (s.serverOp ev) (framesTo c (serverSignals out))
      s.peers[(c : Int)]? s'.peers[(c : Int)]? := by
  cases ev with
  | connect connectionId commands applicationCode clientCommands => exact connect_peer h
  | serverOperation op =>
      rw [(serve_ok h).2 c]
      apply peerStep_send
      rintro commands heq
      have hspontaneous := op.2
      rw [Option.some.inj heq] at hspontaneous
      cases hspontaneous
  | deliverToClient connectionId =>
      have hpeer := deliverToClient_peer s c connectionId
      rwa [show s.deliverToClient connectionId = (s', out) from Except.ok.inj h] at hpeer
  | deliverToServer connectionId => exact deliverToServer_peer h
  | sendPlayerMessage connectionId channelId msg =>
      simp only [step] at h
      split at h
      · rename_i p hpeer
        cases h
        exact peerStep_signal hpeer (continues_reply _ _ p _)
      · cases h
        exact peerStep_self c _
  | sendControlMessage connectionId msg =>
      simp only [step] at h
      split at h
      · rename_i p hpeer
        cases h
        exact peerStep_signal hpeer (continues_reply _ _ p _)
      · cases h
        exact peerStep_self c _

theorem deliverToClient_server (s : System β) (connectionId : Int) :
    (s.deliverToClient connectionId).1.server = s.server ∧
      serverSignals (s.deliverToClient connectionId).2 = [] := by
  unfold deliverToClient
  split
  · exact ⟨rfl, serverSignals_client _ _⟩
  · exact ⟨rfl, rfl⟩

theorem step_server (h : s.step ev = .ok (s', out)) :
    s.serverOp ev = none ∧ s'.server = s.server ∧ serverSignals out = [] ∨
      ∃ op, s.serverOp ev = some op ∧
        s.server.step op = .ok (s'.server, serverSignals out) := by
  cases ev with
  | connect connectionId commands applicationCode clientCommands =>
      simp only [step, connect] at h
      simp only [serverOp]
      split at h
      · rename_i hknown
        cases h
        exact .inl ⟨if_pos hknown, rfl, rfl⟩
      · rename_i hunknown
        exact .inr ⟨_, if_neg hunknown, (serve_ok h).1⟩
  | serverOperation op => exact .inr ⟨op.1, rfl, (serve_ok h).1⟩
  | deliverToClient connectionId =>
      have hserver := deliverToClient_server s connectionId
      rw [show s.deliverToClient connectionId = (s', out) from Except.ok.inj h] at hserver
      exact .inl ⟨rfl, hserver⟩
  | deliverToServer connectionId =>
      simp only [step, deliverToServer] at h
      simp only [serverOp]
      split at h
      · exact .inr ⟨_, rfl, (serve_ok h).1⟩
      · cases h
        exact .inl ⟨rfl, rfl, rfl⟩
  | sendPlayerMessage connectionId channelId msg =>
      simp only [step] at h
      split at h
      · cases h
        exact .inl ⟨rfl, rfl, serverSignals_client _ _⟩
      · cases h
        exact .inl ⟨rfl, rfl, rfl⟩
  | sendControlMessage connectionId msg =>
      simp only [step] at h
      split at h
      · cases h
        exact .inl ⟨rfl, rfl, serverSignals_client _ _⟩
      · cases h
        exact .inl ⟨rfl, rfl, rfl⟩

end Steps

theorem server_execution {history : History β} (h : Execution (machine β) history s) :
    Execution (ServerChannelManager.machine β) (serverHistory history) s.server := by
  apply h.project System.server serverStep rfl
  · intro s s' ev out hstep hnone
    rcases step_server hstep with ⟨-, hsame, -⟩ | ⟨op, hop, -⟩
    · exact hsame
    · simp [serverStep, hop] at hnone
  · intro s s' ev out st hstep hsome
    rcases step_server hstep with ⟨hop, -⟩ | ⟨op, hop, hserver⟩
    · simp [serverStep, hop] at hsome
    · simp only [serverStep, hop, Option.map_some, Option.some.injEq] at hsome
      exact hsome ▸ ⟨rfl, rfl, hserver⟩

section Frames

variable {m m' : ServerChannelManager} {c k : Int} {op : ServerOp β}
  {signals : List (Signal β)} {frame : Frame β}

omit [QByteArray β] in
theorem mem_framesTo : frame ∈ framesTo c signals ↔
    ∃ message, .outgoingMessageToSouth message ∈ signals ∧
      message.connectionId = c ∧ frame = (message.channelId, message.msg) := by
  constructor
  · intro h
    obtain ⟨signal, hmem, hsignal⟩ := List.mem_filterMap.mp h
    cases signal with
    | outgoingMessageToSouth message =>
        simp only [Option.ite_none_right_eq_some, Option.some.injEq] at hsignal
        exact ⟨message, hmem, hsignal.1, hsignal.2.symm⟩
    | _ => cases hsignal
  · rintro ⟨message, hmem, hconnection, rfl⟩
    exact List.mem_filterMap.mpr ⟨_, hmem, by simp [hconnection]⟩

theorem closes_framesTo (hm : m.Valid) (h : m.Effect op m' signals)
    (hk : k ≠ ROOT_CHANNEL) (hmem : frame ∈ framesTo c signals)
    (hclose : Closes k frame) : op = .closePlayerChannel k := by
  obtain ⟨message, hsent, -, rfl⟩ := mem_framesTo.mp hmem
  obtain ⟨rfl, hclose⟩ := hclose
  have htext := h.playerText hm hsent hk
  by_contra hop
  rw [htext.not_closes hop] at hclose
  cases hclose

theorem opens_framesTo (hm : m.Valid) (h : m.Effect op m' signals)
    (hk : k ≠ ROOT_CHANNEL) (hmem : frame ∈ framesTo c signals)
    (hopens : Opens k frame) : k ∈ m'.playerChannels := by
  obtain ⟨message, hsent, -, rfl⟩ := mem_framesTo.mp hmem
  obtain ⟨rfl, hopens⟩ := hopens
  have htext := h.playerText hm hsent hk
  exact (htext.opens (isCommand_of_opensPlayer hopens)).1

theorem exists_opens (hm : m.Valid) (h : m.Effect op m' signals)
    (hk : k ≠ ROOT_CHANNEL)
    (hsent : openChannels c k signals ≠ []) :
    ∃ frame ∈ framesTo c signals, Opens k frame := by
  obtain ⟨message, hmem, hconnection, rfl, hopen⟩ :=
    ServerChannelManager.exists_openChannel hsent
  obtain ⟨-, -, playerMeta, hmsg⟩ := (h.playerText hm hmem hk).opens hopen
  refine ⟨_, mem_framesTo.mpr ⟨message, hmem, hconnection, rfl⟩, rfl, ?_⟩
  rw [hmsg]
  exact opensPlayer_createOpenChannelCommand playerMeta

end Frames

/--
Every connection of the server has a peer, and every channel that a settled
client has was drawn by the server.
-/
structure Valid (s : System β) : Prop where
  server : s.server.Valid
  registered_peer : ∀ c : Nat, (c : Int) ∈ s.server.controlChannels →
    (c : Int) ∈ s.peers
  settled_attached : ∀ (c : Nat) (p : Peer β), s.peers[(c : Int)]? = some p →
    p.settled.Attached
  settled_drawn : ∀ (c : Nat) (p : Peer β), s.peers[(c : Int)]? = some p →
    ∀ k ∈ p.settled.playerChannels, k < s.server.channelIdCount

section Preservation

theorem Valid.effect (hs : s.Valid) (h : s.step ev = .ok (s', out)) :
    s.serverOp ev = none ∧ s'.server = s.server ∧ serverSignals out = [] ∨
      ∃ op, s.serverOp ev = some op ∧
        s.server.Effect op s'.server (serverSignals out) := by
  rcases step_server h with hquiet | ⟨op, hop, hstep⟩
  · exact .inl hquiet
  · exact .inr ⟨op, hop, hs.server.effect hstep⟩

/-- What a settled client has after a step, it had before or the server has. -/
theorem Valid.settled_mem (hs : s.Valid) (h : s.step ev = .ok (s', out))
    {m : ClientChannelManager} (hm : m.Attached) {c k : Int}
    (hk : k ∈ (receiveAll m (framesTo c (serverSignals out))).1.playerChannels) :
    k ∈ m.playerChannels ∨ k ∈ s'.server.playerChannels := by
  have hroot := (attached_receiveAll hm).ne_root hk
  rcases receiveAll_mem hm hk with hold | ⟨frame, hmem, hopens⟩
  · exact .inl hold
  rcases hs.effect h with ⟨-, -, hsilent⟩ | ⟨op, -, heffect⟩
  · rw [hsilent] at hmem
    cases hmem
  · exact .inr (opens_framesTo hs.server heffect hroot hmem hopens)

theorem valid_start : (start : System β).Valid where
  server := ServerChannelManager.valid_start
  registered_peer c hc := by simp [start, ServerChannelManager.start] at hc
  settled_attached c p hp := by simp [start] at hp
  settled_drawn c p hp := by simp [start] at hp

theorem peer_after (h : s.step ev = .ok (s', out)) {c : Nat} {p : Peer β}
    (hp : s.peers[(c : Int)]? = some p) :
    ∃ p', s'.peers[(c : Int)]? = some p' ∧
      Continues c (s.serverOp ev) (framesTo c (serverSignals out)) p p' := by
  have hpeer := step_peer h c
  rw [hp] at hpeer
  generalize s'.peers[(c : Int)]? = after at hpeer
  cases hpeer with
  | continues hcontinues => exact ⟨_, rfl, hcontinues⟩

theorem peer_before (h : s.step ev = .ok (s', out)) {c : Nat} {p' : Peer β}
    (hp' : s'.peers[(c : Int)]? = some p') :
    (∃ applicationCode clientCommands,
      p' = (Peer.connected applicationCode clientCommands).send
        (framesTo c (serverSignals out))) ∧ (c : Int) ∉ s.peers ∨
    ∃ p, s.peers[(c : Int)]? = some p ∧
      Continues c (s.serverOp ev) (framesTo c (serverSignals out)) p p' := by
  have hpeer := step_peer h c
  rw [hp'] at hpeer
  cases hbefore : s.peers[(c : Int)]? with
  | none =>
      rw [hbefore] at hpeer
      cases hpeer with
      | accepted _ applicationCode clientCommands _ =>
          have habsent := (QMap.notMem_iff _ _).mpr hbefore
          exact .inl ⟨⟨applicationCode, clientCommands, rfl⟩, habsent⟩
  | some p =>
      rw [hbefore] at hpeer
      cases hpeer with
      | continues hcontinues => exact .inr ⟨p, rfl, hcontinues⟩

theorem peer_accepted (h : s.step ev = .ok (s', out)) {c : Nat}
    {commands : List ICommand}
    (hop : s.serverOp ev = some (.openControlChannel c commands)) :
    (c : Int) ∈ s'.peers := by
  have hpeer := step_peer h c
  rw [QMap.mem_iff]
  generalize s.peers[(c : Int)]? = before at hpeer
  generalize s'.peers[(c : Int)]? = after at hpeer ⊢
  cases hpeer with
  | absent hother => exact absurd hop (hother commands)
  | accepted _ _ _ _ => exact ⟨_, rfl⟩
  | continues _ => exact ⟨_, rfl⟩

theorem Valid.step_registered_peer (hs : s.Valid) (h : s.step ev = .ok (s', out))
    {c : Nat} (hc : (c : Int) ∈ s'.server.controlChannels) : (c : Int) ∈ s'.peers := by
  have hkept (hold : (c : Int) ∈ s.server.controlChannels) : (c : Int) ∈ s'.peers := by
    obtain ⟨p, hp⟩ := (QMap.mem_iff _ _).mp (hs.registered_peer c hold)
    obtain ⟨p', hp', -⟩ := peer_after h hp
    exact QMap.mem_of_getElem? hp'
  rcases hs.effect h with ⟨-, hsame, -⟩ | ⟨op, hop, heffect⟩
  · exact hkept (hsame ▸ hc)
  · rcases heffect.mem_controlChannels hc with hold | ⟨x, commands, rfl, hx⟩
    · exact hkept hold
    · obtain rfl := Int.ofNat.inj hx
      exact peer_accepted h hop

/-- A settled client is an earlier one that has received what the step sent. -/
theorem Valid.settled_before (hs : s.Valid) (h : s.step ev = .ok (s', out)) {c : Nat}
    {p' : Peer β} (hp' : s'.peers[(c : Int)]? = some p') :
    ∃ m : ClientChannelManager, m.Attached ∧
      (∀ k ∈ m.playerChannels, k < s.server.channelIdCount) ∧
      p'.settled = (receiveAll m (framesTo c (serverSignals out))).1 := by
  rcases peer_before h hp' with ⟨⟨applicationCode, commands, rfl⟩, -⟩ | ⟨p, hp, hcontinues⟩
  · refine ⟨_, ClientChannelManager.attached_registered _, ?_, Peer.settled_send⟩
    intro k hk
    simp [ClientChannelManager.registerControlChannel,
      ClientChannelManager.start] at hk
  · exact ⟨p.settled, hs.settled_attached c p hp, hs.settled_drawn c p hp,
      hcontinues.settled_eq⟩

theorem Valid.step (hs : s.Valid) (h : s.step ev = .ok (s', out)) : s'.Valid := by
  have hserver : s'.server.Valid ∧
      s.server.channelIdCount ≤ s'.server.channelIdCount := by
    rcases hs.effect h with ⟨-, hsame, -⟩ | ⟨op, -, heffect⟩
    · rw [hsame]
      exact ⟨hs.server, Int.le_refl _⟩
    · exact ⟨heffect.valid hs.server, heffect.channelIdCount_le⟩
  constructor
  · exact hserver.1
  · intro c hc
    exact hs.step_registered_peer h hc
  · intro c p' hp'
    obtain ⟨m, hm, -, hsettled⟩ := hs.settled_before h hp'
    exact hsettled ▸ attached_receiveAll hm
  · intro c p' hp' k hk
    obtain ⟨m, hm, hdrawn, hsettled⟩ := hs.settled_before h hp'
    rw [hsettled] at hk
    rcases hs.settled_mem h hm hk with hold | hplayer
    · have hlt := hdrawn k hold
      have hle := hserver.2
      omega
    · exact (hserver.1.player_range k hplayer).2

theorem valid_of_execution {history : History β} (h : Execution (machine β) history s) :
    s.Valid :=
  h.state_invariant valid_start fun hs hstep => hs.step hstep

theorem Valid.registered_continues (hs : s.Valid) (h : s.step ev = .ok (s', out))
    {c : Nat} (hregistered : (c : Int) ∈ s.server.controlChannels) {p' : Peer β}
    (hp' : s'.peers[(c : Int)]? = some p') :
    ∃ p, s.peers[(c : Int)]? = some p ∧
      Continues c (s.serverOp ev) (framesTo c (serverSignals out)) p p' := by
  rcases peer_before h hp' with ⟨-, habsent⟩ | hcontinues
  · exact absurd (hs.registered_peer c hregistered) habsent
  · exact hcontinues

end Preservation

end System

end GBerry.Protocol
