import GBerry.Server.ChannelManager

/-!
# The representation invariant

The stack of activated connections never holds more than the active one:
`activateConnection` removes the previous front before it pushes.  With that,
the operations that consult the stack have closed forms, which the later
modules use in place of the definitions.
-/

namespace GBerry.Server

open GBerry.Common
open GBerry.Foundation

namespace ServerSidePlayerChannel

/--
A registered channel and its partners agree on their id.  Nothing sets the flag
of the base class.
-/
structure Attached (ch : ServerSidePlayerChannel) (channelId : Int) : Prop where
  id_eq : ch.id = channelId
  south_eq : ch.southPartner = some channelId
  north_eq : ∀ partner ∈ ch.northPartner, partner = channelId
  flag_eq : ch.isOpenFlag = false

def opened (ch : ServerSidePlayerChannel) : ServerSidePlayerChannel :=
  if ch.isOpening then ch else { ch with state := .CHANNEL_OPEN_ONGOING }

variable {β : Type} [QByteArray β] {ch : ServerSidePlayerChannel} {channelId : Int}

@[simp] theorem open'_fst (ch : ServerSidePlayerChannel) :
    (ch.open' (β := β)).1 = ch.opened := by
  unfold open' opened
  split <;> rfl

theorem Attached.close (h : ch.Attached channelId) : ch.close.Attached channelId :=
  ⟨h.id_eq, h.south_eq, h.north_eq, rfl⟩

theorem Attached.opened (h : ch.Attached channelId) :
    ch.opened.Attached channelId := by
  unfold ServerSidePlayerChannel.opened
  split
  · exact h
  · exact ⟨h.id_eq, h.south_eq, h.north_eq, h.flag_eq⟩

theorem Attached.processJsonMessage (h : ch.Attached channelId)
    (json : JsonObject) :
    (ch.processJsonMessage (β := β) json).1.Attached channelId := by
  unfold ServerSidePlayerChannel.processJsonMessage
  split
  · exact ⟨h.id_eq, h.south_eq, h.north_eq, rfl⟩
  split
  · exact ⟨h.id_eq, h.south_eq, h.north_eq, h.flag_eq⟩
  split
  · split
    · split <;> exact h
    · exact h
  · exact h

theorem Attached.receiveMessageFromSouth (h : ch.Attached channelId) (msg : β) :
    (ch.receiveMessageFromSouth msg).1.Attached channelId := by
  unfold ServerSidePlayerChannel.receiveMessageFromSouth
  split
  · exact h
  · exact h.processJsonMessage _

theorem attached_create (channelId : Int) (playerMeta : PlayerMeta)
    (uninitialised : PlayerChannelState) :
    ((create channelId playerMeta uninitialised).attachSouthPartner
      channelId).Attached channelId :=
  ⟨rfl, rfl, by simp [create, attachSouthPartner], rfl⟩

@[simp] theorem opened_playerMeta (ch : ServerSidePlayerChannel) :
    ch.opened.playerMeta = ch.playerMeta := by
  unfold opened
  split <;> rfl

@[simp] theorem isOpening_opened (ch : ServerSidePlayerChannel) :
    ch.opened.isOpening = true := by
  unfold opened
  split
  · assumption
  · rfl

@[simp] theorem isOpening_close (ch : ServerSidePlayerChannel) :
    ch.close.isOpening = false := rfl

end ServerSidePlayerChannel

namespace ServerChannelManager

open ServerSideControlChannel (CHANNEL_ID)

variable {β : Type} [QByteArray β]

structure Valid (m : ServerChannelManager) : Prop where
  active_cases :
    m.activeConnectionId = -1 ∧ m.activeConnectionIdsStack = [] ∨
    m.activeConnectionId ∈ m.controlChannels ∧
      m.activeConnectionIdsStack = [m.activeConnectionId]
  registered_nonneg : ∀ c ∈ m.controlChannels, 0 ≤ c
  control_partner : ∀ (c : Int) (ch : ServerSideControlChannel),
    m.controlChannels[c]? = some ch → ch.southPartner = some c
  count_pos : 0 < m.channelIdCount
  player_range : ∀ k ∈ m.playerChannels, 0 < k ∧ k < m.channelIdCount
  player_attached : ∀ (k : Int) (ch : ServerSidePlayerChannel),
    m.playerChannels[k]? = some ch → ch.Attached k

def withActive (m : ServerChannelManager) (connectionId : Int) :
    ServerChannelManager :=
  { if m.activeConnectionId = -1 then m else m.closePlayerChannels with
    activeConnectionId := connectionId
    activeConnectionIdsStack := [connectionId] }

def withoutControl (m : ServerChannelManager) (connectionId : Int) :
    ServerChannelManager :=
  { m with
    controlChannels := m.controlChannels.erase connectionId
    activeConnectionId :=
      if connectionId = m.activeConnectionId then -1 else m.activeConnectionId
    activeConnectionIdsStack :=
      if connectionId = m.activeConnectionId then []
      else m.activeConnectionIdsStack }

def announce (m : ServerChannelManager) (channelId : Int)
    (ch : ServerSidePlayerChannel) : List (Signal β) :=
  if ch.isOpening then []
  else if m.hasActiveConnection then
    [m.emit m.activeConnectionId channelId
      (MessageFactory.createOpenChannelCommand ch.playerMeta)]
  else []

section Lookups

variable (m : ServerChannelManager) (k c : Int)

@[simp] theorem closePlayerChannels_getElem? :
    m.closePlayerChannels.playerChannels[k]? =
      m.playerChannels[k]?.map ServerSidePlayerChannel.close := by
  simp [closePlayerChannels]

@[simp] theorem reopenPlayerChannels_getElem? :
    (m.reopenPlayerChannels (β := β)).1.playerChannels[k]? =
      m.playerChannels[k]?.map ServerSidePlayerChannel.opened := by
  simp [reopenPlayerChannels]

@[simp] theorem closePlayerChannels_mem :
    k ∈ m.closePlayerChannels.playerChannels ↔ k ∈ m.playerChannels := by
  simp [closePlayerChannels]

@[simp] theorem reopenPlayerChannels_mem :
    k ∈ (m.reopenPlayerChannels (β := β)).1.playerChannels ↔
      k ∈ m.playerChannels := by
  simp [reopenPlayerChannels]

@[simp] theorem withActive_mem :
    k ∈ (m.withActive c).playerChannels ↔ k ∈ m.playerChannels := by
  unfold withActive
  split <;> simp

@[simp] theorem withActive_controlChannels :
    (m.withActive c).controlChannels = m.controlChannels := by
  unfold withActive
  split <;> rfl

@[simp] theorem withActive_channelIdCount :
    (m.withActive c).channelIdCount = m.channelIdCount := by
  unfold withActive
  split <;> rfl

theorem withActive_getElem? :
    (m.withActive c).playerChannels[k]? =
      if m.activeConnectionId = -1 then m.playerChannels[k]?
      else m.playerChannels[k]?.map ServerSidePlayerChannel.close := by
  unfold withActive
  split <;> simp

end Lookups

section ClosedForms

variable {m : ServerChannelManager} {c : Int}

theorem Valid.active_registered (hm : m.Valid) (h : m.activeConnectionId ≠ -1) :
    m.activeConnectionId ∈ m.controlChannels :=
  hm.active_cases.resolve_left (fun h' => h h'.1) |>.1

theorem Valid.stack_of_active (hm : m.Valid) (h : m.activeConnectionId ≠ -1) :
    m.activeConnectionIdsStack = [m.activeConnectionId] :=
  hm.active_cases.resolve_left (fun h' => h h'.1) |>.2

theorem Valid.ne_neg_one (hm : m.Valid) (hc : c ∈ m.controlChannels) : c ≠ -1 := by
  have hnonneg := hm.registered_nonneg c hc
  omega

theorem Valid.stack_of_inactive (hm : m.Valid) (h : m.activeConnectionId = -1) :
    m.activeConnectionIdsStack = [] := by
  cases hm.active_cases with
  | inl hnone => exact hnone.2
  | inr hsome => exact absurd h (hm.ne_neg_one hsome.1)

theorem activateConnection_unregistered (hc : c ∉ m.controlChannels) :
    m.activateConnection c = .ok (m, ([] : List (Signal β))) := by
  simp [activateConnection, hc]

theorem Valid.activateConnection_eq (hm : m.Valid) (hc : c ∈ m.controlChannels) :
    m.activateConnection (β := β) c = .ok
      (((m.withActive c).reopenPlayerChannels (β := β)).1,
        (if m.activeConnectionId = -1 then []
          else [m.emitCommand m.activeConnectionId "Deactivate"]) ++
        (m.withActive c).emitCommand c "Activate" ::
          (m.withActive c).reopenPlayerChannels.2) := by
  unfold activateConnection
  by_cases hactive : m.activeConnectionId = -1
  · have hstack := hm.stack_of_inactive hactive
    simp [hc, hactive, hstack, withActive]
  · have hstack := hm.stack_of_active hactive
    simp only [Std.ExtTreeMap.contains_iff_mem, hc, if_true, hactive, ne_eq,
      not_false_eq_true, hstack, removeFirst, withActive, if_false]
    rfl

theorem open'_announce {ch : ServerSidePlayerChannel} {k : Int}
    (hch : ch.Attached k) :
    ch.open'.2.flatMap m.playerCall = m.announce (β := β) k ch := by
  unfold ServerSidePlayerChannel.open' announce
  split
  · rfl
  · simp [hch.south_eq, playerCall]

theorem Valid.reopenPlayerChannels_snd (hm : m.Valid) :
    (m.reopenPlayerChannels (β := β)).2 =
      m.playerChannels.toList.flatMap fun e => m.announce e.1 e.2 := by
  refine List.flatMap_congr fun e he => ?_
  have hch := Std.ExtTreeMap.mem_toList_iff_getElem?_eq_some.mp he
  exact open'_announce (hm.player_attached e.1 e.2 hch)

theorem deactivateConnection_unregistered (hc : c ∉ m.controlChannels) :
    m.deactivateConnection c = .ok (m, ([] : List (Signal β))) := by
  simp [deactivateConnection, hc]

theorem deactivateConnection_inactive (hactive : m.activeConnectionId ≠ c) :
    m.deactivateConnection c = .ok (m, ([] : List (Signal β))) := by
  simp [deactivateConnection, hactive]

theorem Valid.deactivateConnection_eq (hm : m.Valid)
    (hc : m.activeConnectionId ∈ m.controlChannels) :
    m.deactivateConnection m.activeConnectionId = .ok
      ({ m.closePlayerChannels with
          activeConnectionId := -1
          activeConnectionIdsStack := [] },
        [m.emitCommand (β := β) m.activeConnectionId "Deactivate"]) := by
  have hstack := hm.stack_of_active (hm.ne_neg_one hc)
  simp [deactivateConnection, hc, hstack, removeFirst, closePlayerChannels]

theorem applicationClosed_unregistered (hc : c ∉ m.controlChannels) :
    m.applicationClosed c = .ok (m, ([] : List (Signal β))) := by
  simp [applicationClosed, hc]

theorem Valid.applicationClosed_eq (hm : m.Valid) (hc : c ∈ m.controlChannels) :
    m.applicationClosed c =
      .ok (m.closePlayerChannels.withoutControl c, ([] : List (Signal β))) := by
  unfold applicationClosed
  by_cases hactive : c = m.activeConnectionId
  · have hstack := hm.stack_of_active (hactive ▸ hm.ne_neg_one hc)
    simp [← hactive, hc, closePlayerChannels, withoutControl] at hstack ⊢
    simp [hstack, removeFirst]
  · simp [hactive, hc, closePlayerChannels, withoutControl]

theorem Valid.closeControlChannel_eq (hm : m.Valid)
    {ch : ServerSideControlChannel} (hch : m.controlChannels[c]? = some ch) :
    m.closeControlChannel c =
      (m.withoutControl c,
        if ch.isOpen then m.sendCloseChannelMessageToSouth (β := β) c CHANNEL_ID
        else []) := by
  have hc : c ∈ m.controlChannels := QMap.mem_of_getElem? hch
  simp only [closeControlChannel, hch, withoutControl]
  cases hm.active_cases with
  | inl hnone =>
      have hne : c ≠ m.activeConnectionId := hnone.1 ▸ hm.ne_neg_one hc
      simp [hnone.2, hne]
  | inr hsome =>
      by_cases hactive : c = m.activeConnectionId
      · simp [hsome.2, hactive]
      · have hne : m.activeConnectionId ≠ c := Ne.symm hactive
        simp [hsome.2, hactive, hne]

end ClosedForms

section Preservation

variable {m m' : ServerChannelManager} {c k : Int}

theorem valid_start : start.Valid := by
  refine ⟨.inl ⟨rfl, rfl⟩, ?_, ?_, by decide, ?_, ?_⟩ <;> simp [start]

theorem Valid.players (hm : m.Valid) {players : QMap Int ServerSidePlayerChannel}
    (hkeys : ∀ k ∈ players, k ∈ m.playerChannels)
    (hattached : ∀ (k : Int) (ch : ServerSidePlayerChannel),
      players[k]? = some ch → ch.Attached k) :
    { m with playerChannels := players }.Valid where
  active_cases := hm.active_cases
  registered_nonneg := hm.registered_nonneg
  control_partner := hm.control_partner
  count_pos := hm.count_pos
  player_range k hk := hm.player_range k (hkeys k hk)
  player_attached := hattached

theorem Valid.closePlayerChannels (hm : m.Valid) : m.closePlayerChannels.Valid := by
  refine hm.players (by simp) ?_
  intro k ch hch
  have hmap : m.closePlayerChannels.playerChannels[k]? = some ch := hch
  rw [closePlayerChannels_getElem?, Option.map_eq_some_iff] at hmap
  obtain ⟨old, hold, rfl⟩ := hmap
  exact (hm.player_attached k old hold).close

theorem Valid.reopenPlayerChannels (hm : m.Valid) :
    (m.reopenPlayerChannels (β := β)).1.Valid := by
  refine hm.players (by simp) ?_
  intro k ch hch
  have hmap : (m.reopenPlayerChannels (β := β)).1.playerChannels[k]? = some ch := hch
  rw [reopenPlayerChannels_getElem?, Option.map_eq_some_iff] at hmap
  obtain ⟨old, hold, rfl⟩ := hmap
  exact (hm.player_attached k old hold).opened

theorem Valid.insertPlayer (hm : m.Valid) (hk : k ∈ m.playerChannels)
    {ch : ServerSidePlayerChannel} (hch : ch.Attached k) :
    { m with playerChannels := m.playerChannels.insert k ch }.Valid := by
  refine hm.players ?_ ?_
  · intro k' hk'
    cases (QMap.mem_insert_iff _ _ _ _).mp hk' with
    | inl heq => exact heq ▸ hk
    | inr hold => exact hold
  · intro k' ch' hch'
    rw [QMap.getElem?_insert] at hch'
    split at hch'
    · rename_i heq
      cases hch'
      exact heq ▸ hch
    · exact hm.player_attached k' ch' hch'

theorem Valid.withActive (hm : m.Valid) (hc : c ∈ m.controlChannels) :
    (m.withActive c).Valid := by
  have hbase : (if m.activeConnectionId = -1 then m
      else m.closePlayerChannels).Valid := by
    split
    · exact hm
    · exact hm.closePlayerChannels
  exact {
    active_cases := .inr ⟨by rw [withActive_controlChannels]; exact hc, rfl⟩
    registered_nonneg := hbase.registered_nonneg
    control_partner := hbase.control_partner
    count_pos := hbase.count_pos
    player_range := hbase.player_range
    player_attached := hbase.player_attached }

theorem Valid.withoutControl (hm : m.Valid) (c : Int) : (m.withoutControl c).Valid where
  active_cases := by
    unfold ServerChannelManager.withoutControl
    split
    · exact .inl ⟨rfl, rfl⟩
    · rename_i hne
      have hne' := Ne.symm hne
      simpa [QMap.mem_erase_iff, hne, hne'] using hm.active_cases
  registered_nonneg c' hc' :=
    hm.registered_nonneg c' ((QMap.mem_erase_iff _ _ _).mp hc').2
  control_partner c' ch hch := by
    have herase : (m.controlChannels.erase c)[c']? = some ch := hch
    rw [QMap.getElem?_erase] at herase
    split at herase
    · cases herase
    · exact hm.control_partner c' ch herase
  count_pos := hm.count_pos
  player_range := hm.player_range
  player_attached := hm.player_attached

theorem Valid.inactive (hm : m.Valid) :
    { m with activeConnectionId := -1, activeConnectionIdsStack := [] }.Valid where
  active_cases := .inl ⟨rfl, rfl⟩
  registered_nonneg := hm.registered_nonneg
  control_partner := hm.control_partner
  count_pos := hm.count_pos
  player_range := hm.player_range
  player_attached := hm.player_attached

theorem nextFreeChannelId_ok {channelId : Int}
    (h : m.nextFreeChannelId = .ok (channelId, m')) :
    channelId = m.channelIdCount ∧
      m' = { m with channelIdCount := m.channelIdCount + 1 } := by
  unfold nextFreeChannelId at h
  split at h
  · cases h
  · cases h
    exact ⟨rfl, rfl⟩

theorem nextFreeChannelId_error {fault : Fault}
    (h : m.nextFreeChannelId = .error fault) :
    fault = .intOverflow ∧ m.channelIdCount = 2 ^ 31 - 1 := by
  unfold nextFreeChannelId at h
  split at h
  · rename_i hcount
    cases h
    exact ⟨rfl, hcount⟩
  · cases h

theorem Valid.nextFreeChannelId (hm : m.Valid) :
    { m with channelIdCount := m.channelIdCount + 1 }.Valid where
  active_cases := hm.active_cases
  registered_nonneg := hm.registered_nonneg
  control_partner := hm.control_partner
  count_pos := by
    have hpos := hm.count_pos
    simp only
    omega
  player_range k hk := by
    have hrange := hm.player_range k hk
    simp only
    omega
  player_attached := hm.player_attached

theorem openPlayerChannel_ok {playerMeta : PlayerMeta}
    {uninitialised : PlayerChannelState} {out : List (Signal β)}
    (h : m.openPlayerChannel playerMeta uninitialised = .ok (m', out)) :
    let ch := (ServerSidePlayerChannel.create m.channelIdCount playerMeta
      uninitialised).attachSouthPartner m.channelIdCount
    m' = { m with
        channelIdCount := m.channelIdCount + 1
        playerChannels := m.playerChannels.insert m.channelIdCount ch.opened } ∧
      out = m.announce m.channelIdCount ch := by
  unfold openPlayerChannel at h
  cases hnext : m.nextFreeChannelId with
  | error fault => simp [hnext] at h
  | ok next =>
      cases next with
      | mk channelId drawn =>
          have hdrawn := nextFreeChannelId_ok hnext
          simp only [hnext, hdrawn, Except.ok.injEq, Prod.mk.injEq,
            ServerSidePlayerChannel.open'_fst] at h
          exact ⟨h.1.symm, h.2.symm.trans
            (open'_announce (ServerSidePlayerChannel.attached_create _ _ _))⟩

theorem Valid.registerPlayer (hm : m.Valid) {ch : ServerSidePlayerChannel}
    (hch : ch.Attached m.channelIdCount) :
    { m with
      channelIdCount := m.channelIdCount + 1
      playerChannels := m.playerChannels.insert m.channelIdCount ch }.Valid := by
  refine { hm.nextFreeChannelId with
    player_range := ?_
    player_attached := ?_ }
  · intro k hk
    have hpos := hm.count_pos
    simp only [QMap.mem_insert_iff] at hk
    rcases hk with rfl | hold
    · simp only
      omega
    · have hrange := hm.player_range k hold
      simp only
      omega
  · intro k ch' hch'
    simp only [QMap.getElem?_insert] at hch'
    split at hch'
    · rename_i heq
      cases hch'
      exact heq ▸ hch
    · exact hm.player_attached k ch' hch'

theorem Valid.openControlChannel (hm : m.Valid) (connectionId : Nat)
    (commands : List ICommand) : (m.openControlChannel connectionId commands).Valid where
  active_cases := by
    have hcases := hm.active_cases
    simp only [ServerChannelManager.openControlChannel, QMap.mem_insert_iff]
    tauto
  registered_nonneg c hc := by
    cases (QMap.mem_insert_iff _ _ _ _).mp hc with
    | inl heq => omega
    | inr hold => exact hm.registered_nonneg c hold
  control_partner c ch hch := by
    simp only [ServerChannelManager.openControlChannel, QMap.getElem?_insert] at hch
    split at hch
    · rename_i heq
      cases hch
      exact heq ▸ rfl
    · exact hm.control_partner c ch hch
  count_pos := hm.count_pos
  player_range := hm.player_range
  player_attached := hm.player_attached

theorem Valid.erasePlayer (hm : m.Valid) (k : Int) :
    { m with playerChannels := m.playerChannels.erase k }.Valid := by
  refine hm.players ?_ ?_
  · intro k' hk'
    exact ((QMap.mem_erase_iff _ _ _).mp hk').2
  · intro k' ch hch
    rw [QMap.getElem?_erase] at hch
    split at hch
    · cases hch
    · exact hm.player_attached k' ch hch

end Preservation

end ServerChannelManager

end GBerry.Server
