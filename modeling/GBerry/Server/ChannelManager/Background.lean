import GBerry.Server.ChannelManager.Addressing

/-!
# Closing a background application

`applicationClosed` closes all player channels, also when the application that
disconnected is not the active one.  The traffic between the players and the
active application then stops, unless no player channel was in use anyway.
-/

namespace GBerry.Server

open GBerry.Common
open GBerry.Foundation

inductive Traffic (β : Type) where
  | fromApplication (channelId : Int) (msg : β)
  | fromPlayer (channelId : Int) (msg : β)

namespace ServerChannelManager

variable {β : Type} [QByteArray β] {m m' : ServerChannelManager} {c : Int}

def exchange (m : ServerChannelManager) :
    Traffic β → ServerChannelManager × List (Signal β)
  | .fromApplication channelId msg =>
      m.processMessageFromSouth m.activeConnectionId channelId msg
  | .fromPlayer channelId msg => (m, m.receivePlayerMessageFromNorth channelId msg)

def traffic (m : ServerChannelManager) : List (Traffic β) → List (Signal β)
  | [] => []
  | message :: messages =>
      (m.exchange message).2 ++ traffic (m.exchange message).1 messages

/--
The closed connection is gone and the rest of the manager is as before.  The
traffic is the one of a manager that does not know the connection, and the one
that there would have been had it stayed.
-/
structure Undisturbed (β : Type) [QByteArray β] (c : Int)
    (m m' : ServerChannelManager) : Prop where
  removed : c ∉ m'.controlChannels
  active_eq : m'.activeConnectionId = m.activeConnectionId
  stack_eq : m'.activeConnectionIdsStack =
    m.activeConnectionIdsStack.filter (· ≠ c)
  state_eq : ∀ k : Int, m'.playerChannels[k]?.map ServerSidePlayerChannel.state =
    m.playerChannels[k]?.map ServerSidePlayerChannel.state
  traffic_absent : ∀ messages : List (Traffic β),
    traffic m' messages = traffic (m.withoutControl c) messages
  traffic_unchanged : ∀ messages : List (Traffic β),
    traffic m' messages = traffic m messages

def BackgroundUndisturbed (st : Step ServerChannelManager (ServerOp β) (Signal β)) :
    Prop :=
  ∀ c : Nat, st.label = .applicationClosed c → (c : Int) ∈ st.pre.controlChannels →
    st.pre.activeConnectionId ≠ c → Undisturbed β c st.pre st.post

/-- It disconnects while all player channels are closed. -/
def BackgroundClosedIdle (st : Step ServerChannelManager (ServerOp β) (Signal β)) :
    Prop :=
  ∀ c : Nat, st.label = .applicationClosed c → (c : Int) ∈ st.pre.controlChannels →
    st.pre.activeConnectionId ≠ c →
    ∀ (k : Int) (ch : ServerSidePlayerChannel),
      st.pre.playerChannels[k]? = some ch → ch.state = .CHANNEL_CLOSED

section Traffic

omit [QByteArray β] in
theorem emit_withoutControl (hne : c ≠ m.activeConnectionId) (k : Int) (msg : β) :
    (m.withoutControl c).emit m.activeConnectionId k msg =
      m.emit m.activeConnectionId k msg := by
  have hcontains : (m.controlChannels.erase c).contains m.activeConnectionId =
      m.controlChannels.contains m.activeConnectionId := by
    simp [Std.ExtTreeMap.contains_erase, hne]
  simp only [emit, withoutControl, hne, if_false, hcontains]

omit [QByteArray β] in
theorem playerCall_withoutControl (hne : c ≠ m.activeConnectionId)
    (call : ChannelCall β) :
    (m.withoutControl c).playerCall call = m.playerCall call := by
  have hactive : (m.withoutControl c).activeConnectionId = m.activeConnectionId := by
    simp [withoutControl, hne]
  cases call with
  | channelSendMessageToSouth partner msg =>
      cases Decidable.em (m.activeConnectionId = -1) with
      | inl hnone => simp [playerCall, hasActiveConnection, hactive, hnone]
      | inr hsome =>
          simp [playerCall, hasActiveConnection, hactive, hsome,
            emit_withoutControl hne]
  | playerMessageFromSouth partner msg => rfl
  | playerRequestedMainMenu channelId => rfl

omit [QByteArray β] in
theorem playerCalls_withoutControl (hne : c ≠ m.activeConnectionId)
    (calls : List (ChannelCall β)) :
    calls.flatMap (m.withoutControl c).playerCall = calls.flatMap m.playerCall :=
  List.flatMap_congr fun call _ => playerCall_withoutControl hne call

theorem controlCalls_withoutControl (hm : m.Valid) (hne : c ≠ m.activeConnectionId)
    {ch : ServerSideControlChannel}
    (hch : m.controlChannels[m.activeConnectionId]? = some ch) (msg : β) :
    (ch.receiveMessageFromSouth msg).flatMap (m.withoutControl c).controlCall =
      (ch.receiveMessageFromSouth msg).flatMap m.controlCall := by
  apply List.flatMap_congr
  intro call hcall
  unfold ServerSideControlChannel.receiveMessageFromSouth at hcall
  split at hcall
  · simp at hcall
  · obtain ⟨reply, rfl⟩ :=
      controlChannel_calls (hm.control_partner _ ch hch) _ call hcall
    simp only [controlCall, emit_withoutControl hne]

theorem exchange_withoutControl (hm : m.Valid) (hne : c ≠ m.activeConnectionId)
    (message : Traffic β) :
    (m.withoutControl c).exchange message =
      ((m.exchange message).1.withoutControl c, (m.exchange message).2) := by
  have hactive : (m.withoutControl c).activeConnectionId = m.activeConnectionId := by
    simp [withoutControl, hne]
  cases message with
  | fromPlayer k msg =>
      simp only [exchange, receivePlayerMessageFromNorth,
        playerCalls_withoutControl hne]
      rfl
  | fromApplication k msg =>
      have hcontrol : (m.withoutControl c).controlChannels[m.activeConnectionId]? =
          m.controlChannels[m.activeConnectionId]? := by
        simp [withoutControl, QMap.getElem?_erase, Ne.symm hne]
      simp only [exchange, processMessageFromSouth, hactive, hcontrol, if_true,
        playerCalls_withoutControl hne]
      split
      · split
        · rename_i hch
          rw [controlCalls_withoutControl hm hne hch]
        · rfl
      · cases hch : m.playerChannels[k]? with
        | none => simp [withoutControl, hch]
        | some ch => simp [withoutControl, hch, hne]

theorem exchange_active (m : ServerChannelManager) (message : Traffic β) :
    (m.exchange message).1.activeConnectionId = m.activeConnectionId := by
  cases message with
  | fromPlayer k msg => rfl
  | fromApplication k msg =>
      simp only [exchange, processMessageFromSouth]
      repeat' split
      all_goals rfl

theorem Valid.exchange (hm : m.Valid) (message : Traffic β) :
    (m.exchange message).1.Valid := by
  cases message with
  | fromPlayer k msg => exact hm
  | fromApplication k msg =>
      simp only [ServerChannelManager.exchange, processMessageFromSouth]
      split
      · split <;> exact hm
      · split
        · split
          · rename_i ch hch
            exact hm.insertPlayer (QMap.mem_of_getElem? hch)
              ((hm.player_attached k ch hch).receiveMessageFromSouth msg)
          · exact hm
        · exact hm

theorem traffic_withoutControl (hm : m.Valid) (hne : c ≠ m.activeConnectionId)
    (messages : List (Traffic β)) :
    traffic (m.withoutControl c) messages = traffic m messages := by
  induction messages generalizing m with
  | nil => rfl
  | cons message messages ih =>
      have hnext : c ≠ (m.exchange message).1.activeConnectionId := by
        rw [exchange_active]
        exact hne
      rw [traffic, exchange_withoutControl hm hne, ih (hm.exchange message) hnext]
      rfl

end Traffic

omit [QByteArray β] in
theorem closePlayerChannels_eq_self (hm : m.Valid)
    (hclosed : ∀ (k : Int) (ch : ServerSidePlayerChannel),
      m.playerChannels[k]? = some ch → ch.state = .CHANNEL_CLOSED) :
    m.closePlayerChannels = m := by
  have hplayers : m.closePlayerChannels.playerChannels = m.playerChannels := by
    apply Std.ExtTreeMap.ext_getElem?
    intro k
    rw [closePlayerChannels_getElem?]
    cases hch : m.playerChannels[k]? with
    | none => rfl
    | some ch =>
        have hstate := hclosed k ch hch
        have hflag := (hm.player_attached k ch hch).flag_eq
        cases ch
        simp_all [ServerSidePlayerChannel.close]
  calc m.closePlayerChannels
      = { m with playerChannels := m.closePlayerChannels.playerChannels } := rfl
    _ = m := by rw [hplayers]

/-- A background application leaves without a trace exactly from idle players. -/
theorem undisturbed_iff (hm : m.Valid)
    (hne : m.activeConnectionId ≠ c) :
    Undisturbed β c m (m.closePlayerChannels.withoutControl c) ↔
      ∀ (k : Int) (ch : ServerSidePlayerChannel),
        m.playerChannels[k]? = some ch → ch.state = .CHANNEL_CLOSED := by
  constructor
  · intro hundisturbed k ch hch
    have hstate := hundisturbed.state_eq k
    have hclosed : (m.closePlayerChannels.withoutControl c).playerChannels[k]? =
        some ch.close := by
      have hmap := closePlayerChannels_getElem? m k
      rw [hch] at hmap
      exact hmap
    rw [hclosed, hch] at hstate
    simp only [Option.map_some, Option.some.injEq] at hstate
    exact hstate.symm
  · intro hclosed
    rw [closePlayerChannels_eq_self hm hclosed]
    constructor
    · simp [withoutControl]
    · simp [withoutControl, Ne.symm hne]
    · have hstack : m.activeConnectionIdsStack.filter (· ≠ c) =
          m.activeConnectionIdsStack := by
        cases hm.active_cases with
        | inl hnone => simp [hnone.2]
        | inr hsome => simp [hsome.2, hne]
      rw [hstack]
      simp [withoutControl, Ne.symm hne]
    · intro k
      rfl
    · intro messages
      rfl
    · exact traffic_withoutControl hm (Ne.symm hne)

theorem backgroundUndisturbed_iff
    {history : List (Step ServerChannelManager (ServerOp β) (Signal β))}
    (h : Execution (machine β) history m) :
    (∀ st ∈ history, BackgroundUndisturbed st) ↔
      ∀ st ∈ history, BackgroundClosedIdle st := by
  refine forall₂_congr fun st hst => ?_
  obtain ⟨older, hexec, hmade⟩ := h.of_mem hst
  have hm := valid_of_execution hexec
  refine forall_congr' fun c => forall_congr' fun hlabel => ?_
  refine forall_congr' fun hc => forall_congr' fun hne => ?_
  have hclosed : (machine β).step st.pre st.label =
      .ok (st.pre.closePlayerChannels.withoutControl c, []) := by
    rw [hlabel]
    exact hm.applicationClosed_eq hc
  rw [hclosed, Except.ok.injEq, Prod.mk.injEq] at hmade
  rw [← hmade.1]
  exact undisturbed_iff hm hne

def backgroundDisconnects : List (ServerOp Text) :=
  [.openControlChannel 0 [], .openControlChannel 1 [], .activateConnection 0,
    .openPlayerChannel ⟨7, "player"⟩ .CHANNEL_CLOSED,
    .processMessageFromSouth 0 1
      (MessageFactory.createSimpleCommand "OpenChannelAccepted"),
    .applicationClosed 1]

theorem backgroundDisconnects_disturbs :
    ∃ history m, (machine Text).run backgroundDisconnects = .ok (history, m) ∧
      ¬ ∀ st ∈ history, BackgroundUndisturbed st := by
  refine ⟨_, _, rfl, ?_⟩
  intro hall
  have hundisturbed := hall _ List.mem_cons_self 1 rfl
    (Std.ExtTreeMap.contains_iff_mem.mp rfl) (by decide)
  have hstate := hundisturbed.state_eq 1
  cases hstate

theorem backgroundUndisturbed_iff_backgroundDisconnects :
    ∃ history m, (machine Text).run backgroundDisconnects = .ok (history, m) ∧
      ((∀ st ∈ history, BackgroundUndisturbed st) ↔
        ∀ st ∈ history, BackgroundClosedIdle st) :=
  ⟨_, _, rfl, backgroundUndisturbed_iff (Machine.run_execution
    (show (machine Text).run backgroundDisconnects = .ok (_, _) from rfl))⟩

end ServerChannelManager

end GBerry.Server
