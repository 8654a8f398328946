import GBerry.Server.ChannelManager.Invariant

/-!
# What one step can do

`Effect` lists the outcomes of a step from a valid state, guards included.
Whatever holds along every run is derived from it, by one case for each
constructor.
-/

namespace GBerry.Server

open GBerry.Common
open GBerry.Foundation

def ServerOp.drawsChannelId {β : Type} : ServerOp β → Bool
  | .nextFreeChannelId => true
  | .openPlayerChannel _ _ => true
  | _ => false

namespace ServerChannelManager

open ServerSideControlChannel (CHANNEL_ID)

variable {β : Type} [QByteArray β] {m m' : ServerChannelManager}

def newPlayerChannel (m : ServerChannelManager) (playerMeta : PlayerMeta)
    (uninitialised : PlayerChannelState) : ServerSidePlayerChannel :=
  (ServerSidePlayerChannel.create m.channelIdCount playerMeta
    uninitialised).attachSouthPartner m.channelIdCount

def Ignores (m : ServerChannelManager) : ServerOp β → Prop
  | .attachNorthPartner k => k ∉ m.playerChannels
  | .closePlayerChannel k => k ∉ m.playerChannels
  | .closeControlChannel c => (c : Int) ∉ m.controlChannels
  | .activateConnection c => (c : Int) ∉ m.controlChannels
  | .deactivateConnection c =>
      (c : Int) ∉ m.controlChannels ∨ m.activeConnectionId ≠ c
  | .applicationClosed c => (c : Int) ∉ m.controlChannels
  | .processMessageFromSouth c k _ =>
      if k = CHANNEL_ID then (c : Int) ∉ m.controlChannels
      else m.activeConnectionId ≠ c ∨ k ∉ m.playerChannels
  | .receivePlayerMessageFromNorth k _ => k ∉ m.playerChannels
  | .pingSouth c => (c : Int) ∉ m.controlChannels
  | .sendJsonMessageToSouth c _ => (c : Int) ∉ m.controlChannels
  | _ => False

/-- What one step of a valid manager can do. -/
inductive Effect (m : ServerChannelManager) :
    ServerOp β → ServerChannelManager → List (Signal β) → Prop
  | ignored {op : ServerOp β} : m.Ignores op → Effect m op m []
  | drawn : Effect m .nextFreeChannelId
      { m with channelIdCount := m.channelIdCount + 1 } []
  | joined (playerMeta : PlayerMeta) (uninitialised : PlayerChannelState) :
      Effect m (.openPlayerChannel playerMeta uninitialised)
        { m with
          channelIdCount := m.channelIdCount + 1
          playerChannels := m.playerChannels.insert m.channelIdCount
            (m.newPlayerChannel playerMeta uninitialised).opened }
        (m.announce m.channelIdCount (m.newPlayerChannel playerMeta uninitialised))
  | northAttached {k : Int} {ch : ServerSidePlayerChannel} :
      m.playerChannels[k]? = some ch →
      Effect m (.attachNorthPartner k)
        { m with
          playerChannels := m.playerChannels.insert k (ch.attachNorthPartner k) }
        []
  | registered (c : Nat) (commands : List ICommand) :
      Effect m (.openControlChannel c commands) (m.openControlChannel c commands) []
  | left {k : Int} {ch : ServerSidePlayerChannel} :
      m.playerChannels[k]? = some ch →
      Effect m (.closePlayerChannel k)
        { m with playerChannels := m.playerChannels.erase k }
        (if ch.isOpen then
          m.sendCloseChannelMessageToSouth m.activeConnectionId k else [])
  | unregistered {c : Nat} {ch : ServerSideControlChannel} :
      m.controlChannels[(c : Int)]? = some ch →
      Effect m (.closeControlChannel c) (m.withoutControl c)
        (if ch.isOpen then m.sendCloseChannelMessageToSouth c CHANNEL_ID else [])
  | activated {c : Nat} : (c : Int) ∈ m.controlChannels →
      Effect m (.activateConnection c)
        ((m.withActive c).reopenPlayerChannels (β := β)).1
        ((if m.activeConnectionId = -1 then []
          else [m.emitCommand m.activeConnectionId "Deactivate"]) ++
          (m.withActive c).emitCommand c "Activate" ::
            (m.withActive c).reopenPlayerChannels.2)
  | deactivated {c : Nat} : (c : Int) ∈ m.controlChannels →
      m.activeConnectionId = c →
      Effect m (.deactivateConnection c)
        { m.closePlayerChannels with
          activeConnectionId := -1
          activeConnectionIdsStack := [] }
        [m.emitCommand c "Deactivate"]
  | disconnected {c : Nat} : (c : Int) ∈ m.controlChannels →
      Effect m (.applicationClosed c) (m.closePlayerChannels.withoutControl c) []
  | controlMessage {c : Nat} {msg : β} {ch : ServerSideControlChannel} :
      m.controlChannels[(c : Int)]? = some ch →
      Effect m (.processMessageFromSouth c CHANNEL_ID msg) m
        ((ch.receiveMessageFromSouth msg).flatMap m.controlCall)
  | playerMessage {c : Nat} {k : Int} {msg : β} {ch : ServerSidePlayerChannel} :
      k ≠ CHANNEL_ID → m.activeConnectionId = c → m.playerChannels[k]? = some ch →
      Effect m (.processMessageFromSouth c k msg)
        { m with
          playerChannels :=
            m.playerChannels.insert k (ch.receiveMessageFromSouth msg).1 }
        ((ch.receiveMessageFromSouth msg).2.flatMap m.playerCall)
  | northMessage {k : Int} {msg : β} {ch : ServerSidePlayerChannel} :
      m.playerChannels[k]? = some ch →
      Effect m (.receivePlayerMessageFromNorth k msg) m
        ((ch.receivePlayerMessageFromNorth msg).flatMap m.playerCall)
  | pinged {c : Nat} {ch : ServerSideControlChannel} :
      m.controlChannels[(c : Int)]? = some ch →
      Effect m (.pingSouth c) m (ch.pingSouth.flatMap m.controlCall)
  | answered {c : Nat} {json : JsonObject} {ch : ServerSideControlChannel} :
      m.controlChannels[(c : Int)]? = some ch →
      Effect m (.sendJsonMessageToSouth c json) m
        ((ch.sendJsonMessageToSouth json).flatMap m.controlCall)

omit [QByteArray β] in
theorem answer_ok {answer : ServerChannelManager × List (Signal β)}
    {out : List (Signal β)}
    (h : (Except.ok answer : Except Fault _) = .ok (m', out)) :
    m' = answer.1 ∧ out = answer.2 := by
  injection h with h
  rw [h]
  exact ⟨rfl, rfl⟩

theorem processMessageFromSouth_effect (c : Nat) (k : Int) (msg : β) :
    Effect m (.processMessageFromSouth c k msg)
      (m.processMessageFromSouth c k msg).1 (m.processMessageFromSouth c k msg).2 := by
  unfold processMessageFromSouth
  by_cases hcontrol : k = CHANNEL_ID
  · subst hcontrol
    cases hch : m.controlChannels[(c : Int)]? with
    | none =>
        have hc := (QMap.notMem_iff _ _).mpr hch
        exact .ignored (by simpa [Ignores] using hc)
    | some ch => exact .controlMessage hch
  · by_cases hactive : (c : Int) = m.activeConnectionId
    · cases hch : m.playerChannels[k]? with
      | none =>
          have hk := (QMap.notMem_iff _ _).mpr hch
          simp only [hcontrol, if_false, hactive, if_true]
          exact .ignored (by simp [Ignores, hcontrol, hk])
      | some ch =>
          simp only [hcontrol, if_false, hactive, if_true]
          exact .playerMessage hcontrol hactive.symm hch
    · simp only [hcontrol, if_false, hactive]
      exact .ignored (by simp [Ignores, hcontrol, Ne.symm hactive])

theorem Valid.effect (hm : m.Valid) {op : ServerOp β} {out : List (Signal β)}
    (h : m.step op = .ok (m', out)) : Effect m op m' out := by
  cases op with
  | nextFreeChannelId =>
      simp only [step] at h
      split at h
      · cases h
      · rename_i hnext
        cases h
        rw [(nextFreeChannelId_ok hnext).2]
        exact .drawn
  | openPlayerChannel playerMeta uninitialised =>
      have hok := openPlayerChannel_ok h
      rw [hok.1, hok.2]
      exact .joined playerMeta uninitialised
  | attachNorthPartner k =>
      cases h
      unfold attachNorthPartner
      cases hch : m.playerChannels[k]? with
      | none => exact .ignored ((QMap.notMem_iff _ _).mpr hch)
      | some ch => exact .northAttached hch
  | openControlChannel c commands =>
      cases h
      exact .registered c commands
  | closePlayerChannel k =>
      rw [(answer_ok h).1, (answer_ok h).2]
      unfold closePlayerChannel
      cases hch : m.playerChannels[k]? with
      | none => exact .ignored ((QMap.notMem_iff _ _).mpr hch)
      | some ch =>
          have hid := (hm.player_attached k ch hch).id_eq
          simp only [hid]
          exact .left hch
  | closeControlChannel c =>
      rw [(answer_ok h).1, (answer_ok h).2]
      cases hch : m.controlChannels[(c : Int)]? with
      | none =>
          have hignored : m.closeControlChannel (β := β) c = (m, []) := by
            simp [closeControlChannel, hch]
          rw [hignored]
          exact .ignored ((QMap.notMem_iff _ _).mpr hch)
      | some ch =>
          rw [hm.closeControlChannel_eq hch]
          exact .unregistered hch
  | activateConnection c =>
      simp only [step] at h
      by_cases hc : (c : Int) ∈ m.controlChannels
      · rw [hm.activateConnection_eq hc] at h
        cases h
        exact .activated hc
      · rw [activateConnection_unregistered hc] at h
        cases h
        exact .ignored hc
  | deactivateConnection c =>
      simp only [step] at h
      by_cases hc : (c : Int) ∈ m.controlChannels
      · by_cases hactive : m.activeConnectionId = c
        · rw [← hactive, hm.deactivateConnection_eq (hactive ▸ hc)] at h
          cases h
          rw [hactive]
          exact .deactivated hc hactive
        · rw [deactivateConnection_inactive hactive] at h
          cases h
          exact .ignored (.inr hactive)
      · rw [deactivateConnection_unregistered hc] at h
        cases h
        exact .ignored (.inl hc)
  | applicationClosed c =>
      simp only [step] at h
      by_cases hc : (c : Int) ∈ m.controlChannels
      · rw [hm.applicationClosed_eq hc] at h
        cases h
        exact .disconnected hc
      · rw [applicationClosed_unregistered hc] at h
        cases h
        exact .ignored hc
  | processMessageFromSouth c k msg =>
      rw [(answer_ok h).1, (answer_ok h).2]
      exact processMessageFromSouth_effect c k msg
  | receivePlayerMessageFromNorth k msg =>
      rw [(answer_ok h).1, (answer_ok h).2]
      unfold receivePlayerMessageFromNorth
      cases hch : m.playerChannels[k]? with
      | none => exact .ignored ((QMap.notMem_iff _ _).mpr hch)
      | some ch => exact .northMessage hch
  | pingSouth c =>
      rw [(answer_ok h).1, (answer_ok h).2]
      unfold pingSouth
      cases hch : m.controlChannels[(c : Int)]? with
      | none => exact .ignored ((QMap.notMem_iff _ _).mpr hch)
      | some ch => exact .pinged hch
  | sendJsonMessageToSouth c json =>
      rw [(answer_ok h).1, (answer_ok h).2]
      unfold sendJsonMessageToSouth
      cases hch : m.controlChannels[(c : Int)]? with
      | none => exact .ignored ((QMap.notMem_iff _ _).mpr hch)
      | some ch => exact .answered hch

section Keys

variable {op : ServerOp β} {out : List (Signal β)} {k : Int}

theorem Effect.channelIdCount (h : Effect m op m' out) :
    m'.channelIdCount = m.channelIdCount + if op.drawsChannelId then 1 else 0 := by
  cases h with
  | ignored h =>
      cases op with
      | nextFreeChannelId => exact h.elim
      | openPlayerChannel playerMeta uninitialised => exact h.elim
      | _ => exact (Int.add_zero _).symm
  | activated _ =>
      simp [ServerOp.drawsChannelId, reopenPlayerChannels]
  | drawn => rfl
  | joined playerMeta uninitialised => rfl
  | _ => exact (Int.add_zero _).symm

theorem Effect.channelIdCount_le (h : Effect m op m' out) :
    m.channelIdCount ≤ m'.channelIdCount := by
  have hcount := h.channelIdCount
  split at hcount <;> omega

theorem Effect.mem_before (h : Effect m op m' out) (hk : k ∈ m'.playerChannels) :
    k ∈ m.playerChannels ∨ k = m.channelIdCount ∧
      ∃ playerMeta uninitialised, op = .openPlayerChannel playerMeta uninitialised := by
  cases h with
  | joined playerMeta uninitialised =>
      rcases (QMap.mem_insert_iff _ _ _ _).mp hk with hnew | hold
      · exact .inr ⟨hnew, playerMeta, uninitialised, rfl⟩
      · exact .inl hold
  | northAttached hch =>
      rcases (QMap.mem_insert_iff _ _ _ _).mp hk with rfl | hold
      · exact .inl (QMap.mem_of_getElem? hch)
      · exact .inl hold
  | left _ => exact .inl ((QMap.mem_erase_iff _ _ _).mp hk).2
  | activated _ => exact .inl (by simpa using hk)
  | deactivated _ _ => exact .inl ((closePlayerChannels_mem m k).mp hk)
  | disconnected _ => exact .inl ((closePlayerChannels_mem m k).mp hk)
  | playerMessage _ _ hch =>
      rcases (QMap.mem_insert_iff _ _ _ _).mp hk with rfl | hold
      · exact .inl (QMap.mem_of_getElem? hch)
      · exact .inl hold
  | _ => exact .inl hk

theorem Effect.mem_after (h : Effect m op m' out) (hk : k ∈ m.playerChannels) :
    k ∈ m'.playerChannels ∨ op = .closePlayerChannel k := by
  cases h with
  | joined playerMeta uninitialised =>
      exact .inl ((QMap.mem_insert_iff _ _ _ _).mpr (.inr hk))
  | northAttached _ => exact .inl ((QMap.mem_insert_iff _ _ _ _).mpr (.inr hk))
  | @left k' ch hch =>
      by_cases heq : k = k'
      · exact .inr (heq ▸ rfl)
      · exact .inl ((QMap.mem_erase_iff _ _ _).mpr ⟨heq, hk⟩)
  | activated _ => exact .inl (by simpa using hk)
  | deactivated _ _ => exact .inl ((closePlayerChannels_mem m k).mpr hk)
  | disconnected _ => exact .inl ((closePlayerChannels_mem m k).mpr hk)
  | playerMessage _ _ _ => exact .inl ((QMap.mem_insert_iff _ _ _ _).mpr (.inr hk))
  | _ => exact .inl hk

end Keys

theorem Effect.mem_controlChannels {op : ServerOp β} {out : List (Signal β)}
    (h : Effect m op m' out) {c : Int} (hc : c ∈ m'.controlChannels) :
    c ∈ m.controlChannels ∨ ∃ (connectionId : Nat) (commands : List ICommand),
      op = .openControlChannel connectionId commands ∧ c = connectionId := by
  cases h with
  | registered connectionId commands =>
      rcases (QMap.mem_insert_iff _ _ _ _).mp hc with heq | hold
      · exact .inr ⟨connectionId, commands, rfl, heq⟩
      · exact .inl hold
  | unregistered _ => exact .inl ((QMap.mem_erase_iff _ _ _).mp hc).2
  | activated _ => exact .inl (by simpa [reopenPlayerChannels] using hc)
  | disconnected _ => exact .inl ((QMap.mem_erase_iff _ _ _).mp hc).2
  | _ => exact .inl hc

theorem Effect.valid (hm : m.Valid) {op : ServerOp β} {out : List (Signal β)}
    (h : Effect m op m' out) : m'.Valid := by
  cases h with
  | ignored _ => exact hm
  | drawn => exact hm.nextFreeChannelId
  | joined playerMeta uninitialised =>
      exact hm.registerPlayer
        (ServerSidePlayerChannel.attached_create _ _ _).opened
  | northAttached hch =>
      have hattached := hm.player_attached _ _ hch
      exact hm.insertPlayer (QMap.mem_of_getElem? hch)
        ⟨hattached.id_eq, hattached.south_eq,
          by simp [ServerSidePlayerChannel.attachNorthPartner], hattached.flag_eq⟩
  | registered c commands => exact hm.openControlChannel c commands
  | left _ => exact hm.erasePlayer _
  | unregistered _ => exact hm.withoutControl _
  | activated hc => exact (hm.withActive hc).reopenPlayerChannels
  | deactivated _ _ => exact hm.closePlayerChannels.inactive
  | disconnected _ => exact hm.closePlayerChannels.withoutControl _
  | controlMessage _ => exact hm
  | playerMessage _ _ hch =>
      exact hm.insertPlayer (QMap.mem_of_getElem? hch)
        ((hm.player_attached _ _ hch).receiveMessageFromSouth _)
  | northMessage _ => exact hm
  | pinged _ => exact hm
  | answered _ => exact hm

theorem Valid.step (hm : m.Valid) {op : ServerOp β} {out : List (Signal β)}
    (h : m.step op = .ok (m', out)) : m'.Valid :=
  (hm.effect h).valid hm

/-- The only fault of a valid manager is the overflow of the channel counter. -/
theorem Valid.step_error (hm : m.Valid) {op : ServerOp β} {fault : Fault}
    (h : m.step op = .error fault) :
    fault = .intOverflow ∧ op.drawsChannelId ∧ m.channelIdCount = 2 ^ 31 - 1 := by
  cases op with
  | nextFreeChannelId =>
      simp only [ServerChannelManager.step] at h
      split at h
      · rename_i hnext
        cases h
        have hfault := nextFreeChannelId_error hnext
        exact ⟨hfault.1, rfl, hfault.2⟩
      · cases h
  | openPlayerChannel playerMeta uninitialised =>
      simp only [ServerChannelManager.step,
        ServerChannelManager.openPlayerChannel] at h
      split at h
      · rename_i hnext
        cases h
        have hfault := nextFreeChannelId_error hnext
        exact ⟨hfault.1, rfl, hfault.2⟩
      · cases h
  | activateConnection c =>
      simp only [ServerChannelManager.step] at h
      by_cases hc : (c : Int) ∈ m.controlChannels
      · simp [hm.activateConnection_eq hc] at h
      · simp [activateConnection_unregistered hc] at h
  | deactivateConnection c =>
      simp only [ServerChannelManager.step] at h
      by_cases hc : (c : Int) ∈ m.controlChannels
      · by_cases hactive : m.activeConnectionId = c
        · rw [← hactive, hm.deactivateConnection_eq (hactive ▸ hc)] at h
          cases h
        · simp [deactivateConnection_inactive hactive] at h
      · simp [deactivateConnection_unregistered hc] at h
  | applicationClosed c =>
      simp only [ServerChannelManager.step] at h
      by_cases hc : (c : Int) ∈ m.controlChannels
      · simp [hm.applicationClosed_eq hc] at h
      · simp [applicationClosed_unregistered hc] at h
  | _ => cases h

theorem valid_of_execution {history : List (Step ServerChannelManager (ServerOp β)
    (Signal β))} (h : Execution (machine β) history m) : m.Valid :=
  h.state_invariant valid_start fun hm hstep => hm.step hstep

end ServerChannelManager

end GBerry.Server
