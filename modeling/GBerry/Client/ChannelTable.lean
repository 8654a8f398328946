import GBerry.Client.ChannelManager

/-!
# The player channels of an application

What one message does to the table of `ClientChannelManager`: a channel enters
with an `OpenChannel` that carries the meta data of a player, and leaves with a
`CloseChannel`.  All other messages leave the table alone.
-/

namespace GBerry.Client

open GBerry.Common

def opensPlayer {β : Type} [QByteArray β] (msg : β) : Bool :=
  match QByteArray.fromJson msg with
  | none => false
  | some json => JsonObject.isCommand json "OpenChannel" &&
      JsonObject.contains json "player_metadata"

namespace ClientChannelManager

variable {β : Type} [QByteArray β] {m : ClientChannelManager} {k : Int}

/-- A channel of the table is not the control channel, and closes itself. -/
def Attached (m : ClientChannelManager) : Prop :=
  ∀ (k : Int) (ch : ClientSidePlayerChannel),
    m.playerChannels[k]? = some ch → k ≠ ROOT_CHANNEL ∧ ch.channelPartner = some k

theorem attached_registered (channel : ClientSideControlChannel) :
    (start.registerControlChannel channel).Attached := by
  intro k ch hch
  simp [start, registerControlChannel] at hch

theorem Attached.ne_root (hm : m.Attached) (hk : k ∈ m.playerChannels) :
    k ≠ ROOT_CHANNEL := by
  obtain ⟨ch, hch⟩ := (QMap.mem_iff _ _).mp hk
  exact (hm k ch hch).1

section Calls

omit [QByteArray β] in
theorem performAll_playerChannels {calls : List (ClientCall β)}
    (hcalls : ∀ partner, .closeChannel partner ∉ calls) :
    (m.performAll calls).1.playerChannels = m.playerChannels := by
  induction calls generalizing m with
  | nil => rfl
  | cons call calls ih =>
      have hothers : ∀ partner, .closeChannel partner ∉ calls := by
        intro partner hmem
        exact hcalls partner (List.mem_cons_of_mem _ hmem)
      cases call with
      | closeChannel partner => exact absurd List.mem_cons_self (hcalls partner)
      | _ => exact ih hothers

theorem receiveMessage_calls (ch : ClientSideControlChannel) (msg : β)
    (partner : Int) : .closeChannel partner ∉ (ch.receiveMessage msg).2 := by
  unfold ClientSideControlChannel.receiveMessage
    ClientSideControlChannel.processJsonMessage ClientSideControlChannel.sendMessage
  repeat' split
  all_goals simp

theorem receiveMessage_closeChannel {ch : ClientSidePlayerChannel}
    (hch : ch.channelPartner = some k) {msg : β}
    (hclose : isCommand "CloseChannel" msg = true) :
    (m.performAll (ch.receiveMessage msg)).1.playerChannels =
      m.playerChannels.erase k := by
  unfold ClientSidePlayerChannel.receiveMessage
  cases hjson : QByteArray.fromJson msg with
  | none => simp [isCommand, hjson] at hclose
  | some json =>
      simp only [isCommand, hjson] at hclose
      simp only [hclose, if_true, ClientSidePlayerChannel.closeChannel, hch]
      cases ch.playerPartner with
      | none => rfl
      | some partner => rfl

theorem receiveMessage_other {ch : ClientSidePlayerChannel} {msg : β}
    (hother : isCommand "CloseChannel" msg = false) :
    (m.performAll (ch.receiveMessage msg)).1.playerChannels = m.playerChannels := by
  apply performAll_playerChannels
  intro partner
  unfold ClientSidePlayerChannel.receiveMessage
  cases hjson : QByteArray.fromJson msg with
  | none => simp
  | some json =>
      simp only [isCommand, hjson] at hother
      simp only [hother, Bool.false_eq_true, if_false]
      repeat' split
      all_goals simp

end Calls

section Messages

variable {channelId : Int} {msg : β}

theorem processMessage_control :
    (m.processMessage ROOT_CHANNEL msg).1.playerChannels = m.playerChannels := by
  simp only [processMessage, if_true]
  split
  · rename_i channel _
    exact performAll_playerChannels (receiveMessage_calls channel msg)
  · rfl

theorem processMessage_known (hm : m.Attached) (hk : k ∈ m.playerChannels) :
    (m.processMessage k msg).1.playerChannels =
      if isCommand "CloseChannel" msg then m.playerChannels.erase k
      else m.playerChannels := by
  obtain ⟨ch, hch⟩ := (QMap.mem_iff _ _).mp hk
  have hattached := hm k ch hch
  simp only [processMessage, if_neg hattached.1, hch]
  split
  · rename_i hclose
    exact receiveMessage_closeChannel hattached.2 hclose
  · rename_i hother
    exact receiveMessage_other (by simpa using hother)

theorem openPlayerChannel_eq (hopens : opensPlayer msg = true) :
    ∃ ch : ClientSidePlayerChannel, ch.channelPartner = some k ∧
      ch.playerPartner = some k ∧
      (m.openPlayerChannel k msg).1.playerChannels = m.playerChannels.insert k ch ∧
      .outgoingMessage k (MessageFactory.createSimpleCommand "OpenChannelAccepted") ∈
        (m.openPlayerChannel k msg).2 := by
  unfold openPlayerChannel
  cases hjson : QByteArray.fromJson msg with
  | none => simp [opensPlayer, hjson] at hopens
  | some json =>
      simp only [opensPlayer, hjson, Bool.and_eq_true] at hopens
      simp only [hopens.1, hopens.2, if_true]
      exact ⟨_, rfl, rfl, rfl, by simp⟩

theorem openPlayerChannel_other (hother : opensPlayer msg = false) :
    m.openPlayerChannel k msg = (m, []) := by
  unfold openPlayerChannel
  cases hjson : QByteArray.fromJson msg with
  | none => rfl
  | some json =>
      simp only [opensPlayer, hjson] at hother
      simp only
      split
      · rename_i hopen
        simp only [hopen, Bool.true_and] at hother
        simp [hother]
      · rfl

theorem processMessage_unknown (hroot : k ≠ ROOT_CHANNEL) (hk : k ∉ m.playerChannels) :
    m.processMessage k msg = m.openPlayerChannel k msg := by
  simp only [processMessage, if_neg hroot, (QMap.notMem_iff _ _).mp hk]

theorem Attached.processMessage (hm : m.Attached) (channelId : Int) (msg : β) :
    (m.processMessage channelId msg).1.Attached := by
  intro k ch hch
  by_cases hroot : channelId = ROOT_CHANNEL
  · rw [hroot, processMessage_control] at hch
    exact hm k ch hch
  by_cases hknown : channelId ∈ m.playerChannels
  · rw [processMessage_known hm hknown] at hch
    split at hch
    · rw [QMap.getElem?_erase] at hch
      split at hch
      · cases hch
      · exact hm k ch hch
    · exact hm k ch hch
  · rw [processMessage_unknown hroot hknown] at hch
    cases hopens : opensPlayer msg with
    | false =>
        rw [openPlayerChannel_other hopens] at hch
        exact hm k ch hch
    | true =>
        obtain ⟨new, hpartner, -, htable, -⟩ :=
          openPlayerChannel_eq (m := m) (k := channelId) hopens
        rw [htable, QMap.getElem?_insert] at hch
        split at hch
        · rename_i heq
          cases hch
          exact ⟨heq ▸ hroot, heq ▸ hpartner⟩
        · exact hm k ch hch

def Served (m : ClientChannelManager) : Prop :=
  ∀ (k : Int) (ch : ClientSidePlayerChannel),
    m.playerChannels[k]? = some ch → ch.playerPartner = some k

theorem Served.processMessage (hserved : m.Served) (hm : m.Attached) (channelId : Int)
    (msg : β) : (m.processMessage channelId msg).1.Served := by
  intro k ch hch
  by_cases hroot : channelId = ROOT_CHANNEL
  · rw [hroot, processMessage_control] at hch
    exact hserved k ch hch
  by_cases hknown : channelId ∈ m.playerChannels
  · rw [processMessage_known hm hknown] at hch
    split at hch
    · rw [QMap.getElem?_erase] at hch
      split at hch
      · cases hch
      · exact hserved k ch hch
    · exact hserved k ch hch
  · rw [processMessage_unknown hroot hknown] at hch
    cases hopens : opensPlayer msg with
    | false =>
        rw [openPlayerChannel_other hopens] at hch
        exact hserved k ch hch
    | true =>
        obtain ⟨new, -, hpartner, htable, -⟩ :=
          openPlayerChannel_eq (m := m) (k := channelId) hopens
        rw [htable, QMap.getElem?_insert] at hch
        split at hch
        · rename_i heq
          cases hch
          exact heq ▸ hpartner
        · exact hserved k ch hch

theorem mem_processMessage (hm : m.Attached) :
    k ∈ (m.processMessage channelId msg).1.playerChannels ↔
      k ∈ m.playerChannels ∧ ¬ (channelId = k ∧ isCommand "CloseChannel" msg) ∨
      k ∉ m.playerChannels ∧ k ≠ ROOT_CHANNEL ∧ channelId = k ∧ opensPlayer msg := by
  by_cases hroot : channelId = ROOT_CHANNEL
  · have hne : k ∈ m.playerChannels → channelId ≠ k := by
      intro hk heq
      exact hm.ne_root hk (heq ▸ hroot)
    rw [hroot, processMessage_control, ← hroot]
    grind
  by_cases hknown : channelId ∈ m.playerChannels
  · rw [processMessage_known hm hknown]
    split
    · rw [QMap.mem_erase_iff]
      grind
    · grind
  · rw [processMessage_unknown hroot hknown]
    cases hopens : opensPlayer msg with
    | false =>
        rw [openPlayerChannel_other hopens]
        grind
    | true =>
        obtain ⟨new, -, -, htable, -⟩ :=
          openPlayerChannel_eq (m := m) (k := channelId) hopens
        rw [htable, QMap.mem_insert_iff]
        grind

theorem processMessage_accepts (hroot : k ≠ ROOT_CHANNEL) (hk : k ∉ m.playerChannels)
    (hopens : opensPlayer msg = true) :
    .outgoingMessage k (MessageFactory.createSimpleCommand "OpenChannelAccepted") ∈
      (m.processMessage k msg).2 := by
  rw [processMessage_unknown hroot hk]
  obtain ⟨-, -, -, -, haccept⟩ := openPlayerChannel_eq (m := m) (k := k) hopens
  exact haccept

end Messages

end ClientChannelManager

end GBerry.Client
