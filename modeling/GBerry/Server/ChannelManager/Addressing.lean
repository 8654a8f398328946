import GBerry.Server.ChannelManager.Effect

/-!
# Addressing of outgoing messages

The partners of the channels and the activation messages address connections
that have a control channel.  `closePlayerChannel` alone sends without looking
whether a connection is active, so it can address -1.
-/

namespace GBerry.Server

open GBerry.Common
open GBerry.Foundation
open ServerSideControlChannel (CHANNEL_ID)

/--
The addressed connection has a control channel when the message leaves, and
only the active connection is sent messages of players.
-/
def Signal.WellAddressed {β : Type} : Signal β → Prop
  | .outgoingMessageToSouth message =>
      message.registered = true ∧ message.connectionId ≠ -1 ∧
        (message.channelId ≠ CHANNEL_ID → message.connectionId = message.active)
  | _ => True

namespace ServerChannelManager

variable {β : Type} [QByteArray β] {m m' : ServerChannelManager} {c : Int}

/-- A player channel that is open is closed while no connection is active. -/
def ClosesUnaddressed (m : ServerChannelManager) : ServerOp β → Prop
  | .closePlayerChannel k =>
      m.activeConnectionId = -1 ∧ ∃ ch, m.playerChannels[k]? = some ch ∧ ch.isOpen
  | _ => False

omit [QByteArray β] in
theorem Valid.emit_control (hm : m.Valid) (hc : c ∈ m.controlChannels) (msg : β) :
    (m.emit c CHANNEL_ID msg).WellAddressed :=
  ⟨Std.ExtTreeMap.contains_iff_mem.mpr hc, hm.ne_neg_one hc,
    fun hne => absurd rfl hne⟩

omit [QByteArray β] in
theorem Valid.emit_active (hm : m.Valid) (hactive : m.activeConnectionId ≠ -1)
    (k : Int) (msg : β) : (m.emit m.activeConnectionId k msg).WellAddressed :=
  ⟨Std.ExtTreeMap.contains_iff_mem.mpr (hm.active_registered hactive), hactive,
    fun _ => rfl⟩

theorem Valid.emitCommand (hm : m.Valid) (hc : c ∈ m.controlChannels)
    (command : String) : (m.emitCommand (β := β) c command).WellAddressed :=
  hm.emit_control hc _

omit [QByteArray β] in
theorem Valid.playerCall (hm : m.Valid) (call : ChannelCall β) :
    ∀ signal ∈ m.playerCall call, signal.WellAddressed := by
  intro signal hsignal
  cases call with
  | channelSendMessageToSouth partner msg =>
      by_cases hactive : m.activeConnectionId = -1
      · simp [ServerChannelManager.playerCall, hasActiveConnection, hactive] at hsignal
      · simp [ServerChannelManager.playerCall, hasActiveConnection, hactive] at hsignal
        rw [hsignal]
        exact hm.emit_active hactive partner msg
  | playerMessageFromSouth partner msg =>
      rw [List.mem_singleton.mp hsignal]
      trivial
  | playerRequestedMainMenu channelId =>
      rw [List.mem_singleton.mp hsignal]
      trivial

omit [QByteArray β] in
theorem Valid.playerCalls (hm : m.Valid) (calls : List (ChannelCall β)) :
    ∀ signal ∈ calls.flatMap m.playerCall, signal.WellAddressed := by
  intro signal hsignal
  obtain ⟨call, -, hcall⟩ := List.mem_flatMap.mp hsignal
  exact hm.playerCall call signal hcall

theorem Valid.reopened (hm : m.Valid) :
    ∀ signal ∈ (m.reopenPlayerChannels (β := β)).2, signal.WellAddressed := by
  intro signal hsignal
  obtain ⟨entry, -, hentry⟩ := List.mem_flatMap.mp hsignal
  exact hm.playerCalls _ signal hentry

theorem controlChannel_calls {ch : ServerSideControlChannel} {partner : Int}
    (hpartner : ch.southPartner = some partner) (json : JsonObject) :
    ∀ call ∈ (Channel.processJsonMessage ch.commands ch.southPartner json).2,
      ∃ msg : β, call = .channelSendMessageToSouth partner msg := by
  unfold Channel.processJsonMessage
  rw [hpartner]
  split
  · split
    · simp only
      split
      · rename_i hmatch _
        cases hmatch
        simp
      · simp
    · simp
    · simp
  · simp

omit [QByteArray β] in
theorem Valid.controlCalls (hm : m.Valid) (hc : c ∈ m.controlChannels)
    {calls : List (ChannelCall β)}
    (hcalls : ∀ call ∈ calls, ∃ msg, call = .channelSendMessageToSouth c msg) :
    ∀ signal ∈ calls.flatMap m.controlCall, signal.WellAddressed := by
  intro signal hsignal
  obtain ⟨call, hcall, hsignal⟩ := List.mem_flatMap.mp hsignal
  obtain ⟨msg, rfl⟩ := hcalls call hcall
  rw [List.mem_singleton.mp hsignal]
  exact hm.emit_control hc msg

theorem Effect.addressed_iff (hm : m.Valid) {op : ServerOp β}
    {out : List (Signal β)} (h : Effect m op m' out) :
    (∀ signal ∈ out, signal.WellAddressed) ↔ ¬ m.ClosesUnaddressed op := by
  cases h with
  | @ignored op hignored =>
      refine iff_of_true (by simp) ?_
      cases op with
      | closePlayerChannel k =>
          rintro ⟨-, ch, hch, -⟩
          exact hignored (QMap.mem_of_getElem? hch)
      | _ => exact id
  | drawn => exact iff_of_true (by simp) id
  | joined playerMeta uninitialised =>
      refine iff_of_true ?_ id
      intro signal hsignal
      unfold announce at hsignal
      split at hsignal
      · simp at hsignal
      · by_cases hactive : m.activeConnectionId = -1
        · simp [hasActiveConnection, hactive] at hsignal
        · simp [hasActiveConnection, hactive] at hsignal
          rw [hsignal]
          exact hm.emit_active hactive _ _
  | northAttached _ => exact iff_of_true (by simp) id
  | registered c commands => exact iff_of_true (by simp) id
  | @left k ch hch =>
      have hclosing : m.ClosesUnaddressed (.closePlayerChannel k : ServerOp β) ↔
          m.activeConnectionId = -1 ∧ ch.isOpen := by
        simp [ClosesUnaddressed, hch]
      rw [hclosing]
      by_cases hopen : ch.isOpen = true
      · simp only [hopen, if_true, and_true]
        constructor
        · intro hall hactive
          have haddressed := hall _ List.mem_cons_self
          exact haddressed.2.1 hactive
        · intro hactive signal hsignal
          rw [List.mem_singleton.mp hsignal]
          exact hm.emit_active hactive _ _
      · simp [hopen]
  | @unregistered c ch hch =>
      refine iff_of_true ?_ id
      intro signal hsignal
      split at hsignal
      · rw [List.mem_singleton.mp hsignal]
        exact hm.emit_control (QMap.mem_of_getElem? hch) _
      · simp at hsignal
  | @activated c hc =>
      refine iff_of_true ?_ id
      intro signal hsignal
      have hm' := hm.withActive hc
      rcases List.mem_append.mp hsignal with hsignal | hsignal
      · split at hsignal
        · simp at hsignal
        · rename_i hactive
          rw [List.mem_singleton.mp hsignal]
          exact hm.emitCommand (hm.active_registered hactive) _
      · rcases List.mem_cons.mp hsignal with rfl | hsignal
        · exact hm'.emitCommand (by rw [withActive_controlChannels]; exact hc) _
        · exact hm'.reopened signal hsignal
  | deactivated hc _ =>
      refine iff_of_true ?_ id
      intro signal hsignal
      rw [List.mem_singleton.mp hsignal]
      exact hm.emitCommand hc _
  | disconnected _ => exact iff_of_true (by simp) id
  | @controlMessage c msg ch hch =>
      refine iff_of_true (hm.controlCalls (QMap.mem_of_getElem? hch) ?_) id
      have hpartner := hm.control_partner _ ch hch
      unfold ServerSideControlChannel.receiveMessageFromSouth
      split
      · simp
      · exact controlChannel_calls hpartner _
  | playerMessage _ _ _ => exact iff_of_true (hm.playerCalls _) id
  | northMessage _ => exact iff_of_true (hm.playerCalls _) id
  | @pinged c ch hch =>
      refine iff_of_true (hm.controlCalls (QMap.mem_of_getElem? hch) ?_) id
      have hpartner := hm.control_partner _ ch hch
      simp only [ServerSideControlChannel.pingSouth, hpartner]
      split <;> simp
  | @answered c json ch hch =>
      refine iff_of_true (hm.controlCalls (QMap.mem_of_getElem? hch) ?_) id
      have hpartner := hm.control_partner _ ch hch
      simp [ServerSideControlChannel.sendJsonMessageToSouth, hpartner]

theorem wellAddressed_iff
    {history : List (Step ServerChannelManager (ServerOp β) (Signal β))}
    (h : Execution (machine β) history m) :
    (∀ st ∈ history, ∀ signal ∈ st.out, signal.WellAddressed) ↔
      ∀ st ∈ history, ¬ st.pre.ClosesUnaddressed st.label := by
  refine forall₂_congr fun st hst => ?_
  obtain ⟨older, hexec, hmade⟩ := h.of_mem hst
  have hm := valid_of_execution hexec
  exact (hm.effect hmade).addressed_iff hm

def leavesAfterClosing : List (ServerOp Text) :=
  [.openControlChannel 0 [], .activateConnection 0,
    .openPlayerChannel ⟨7, "player"⟩ .CHANNEL_CLOSED,
    .processMessageFromSouth 0 1
      (MessageFactory.createSimpleCommand "OpenChannelAccepted"),
    .closeControlChannel 0, .closePlayerChannel 1]

theorem leavesAfterClosing_unaddressed :
    ∃ history m, (machine Text).run leavesAfterClosing = .ok (history, m) ∧
      ¬ ∀ st ∈ history, ∀ signal ∈ st.out, signal.WellAddressed := by
  refine ⟨_, _, rfl, ?_⟩
  intro hall
  have haddressed := hall _ List.mem_cons_self _ List.mem_cons_self
  exact haddressed.2.1 rfl

theorem wellAddressed_iff_leavesAfterClosing :
    ∃ history m, (machine Text).run leavesAfterClosing = .ok (history, m) ∧
      ((∀ st ∈ history, ∀ signal ∈ st.out, signal.WellAddressed) ↔
        ∀ st ∈ history, ¬ st.pre.ClosesUnaddressed st.label) :=
  ⟨_, _, rfl, wellAddressed_iff (Machine.run_execution
    (show (machine Text).run leavesAfterClosing = .ok (_, _) from rfl))⟩

end ServerChannelManager

end GBerry.Server
