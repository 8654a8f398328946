import GBerry.Client.PlayersManager

/-!
# The index of the players

Which channels are registered is a matter of the calls: a channel is registered by
`newPlayer`, unless one with its id is there, until it exits.  Whatever the calls,
the manager knows who the registered channels belong to, and the channel that it
keeps for a player is one of that player's; the maps of ids are inverse as long as
no player gets a second channel.
-/

namespace GBerry.Client

open GBerry.Common
open GBerry.Foundation

namespace PlayersManager

variable {β : Type}

def registered : History β → Int → Option (PlayerChannelPointer × PlayerMeta)
  | [], _ => none
  | st :: older, channelId =>
      match st.label with
      | .newPlayer channel metadata =>
          if channelId = channel.channelId ∧ registered older channelId = none then
            some (channel, metadata)
          else registered older channelId
      | .playerExit exited => if channelId = exited then none else registered older channelId
      | _ => registered older channelId

/-- The channel is registered for the player. -/
def Present (history : History β) (playerId : Int32) (channel : PlayerChannelPointer) : Prop :=
  ∃ metadata, registered history channel.channelId = some (channel, metadata) ∧
    metadata.pid = playerId

/-- Every player who is present is sent the message once, on the registered channel. -/
def Delivers (history : History β) (m : PlayersManager) : Prop :=
  ∀ msg : β, ∃ addressed : List (Int32 × PlayerChannelPointer),
    sendAllPlayersMessage msg m = .ok (m,
      addressed.map (fun e => .sendPlayerMessage e.2 msg) ++
        m.debugPlayerNamesByPlayerId.keys.map (.debugPlayerMessageReceived · msg)) ∧
    (addressed.map Prod.fst).Nodup ∧
    ∀ playerId channel, (playerId, channel) ∈ addressed ↔ Present history playerId channel

structure Indexed (history : History β) (m : PlayersManager) : Prop where
  inverse : QMap.Inverse m.playerIdsByChannelId m.channelIdsByPlayerIds
  keys : ∀ playerId : Int32, playerId ∈ m.channelsByPlayerId ↔ playerId ∈ m.metas
  channels : ∀ (playerId : Int32) channel,
    m.channelsByPlayerId[playerId]? = some channel ↔ Present history playerId channel
  delivers : Delivers history m

structure Tracks (history : History β) (m : PlayersManager) : Prop where
  owned : ∀ (channelId : Int) channel metadata,
    registered history channelId = some (channel, metadata) → channel.channelId = channelId
  players : ∀ (channelId : Int) (playerId : Int32),
    m.playerIdsByChannelId[channelId]? = some playerId ↔
    ∃ channel metadata, registered history channelId = some (channel, metadata) ∧
      metadata.pid = playerId
  metas : ∀ playerId : Int32, playerId ∈ m.channelsByPlayerId ↔ playerId ∈ m.metas
  ids : ∀ playerId : Int32, m.channelIdsByPlayerIds[playerId]? =
    (m.channelsByPlayerId[playerId]?).map PlayerChannelPointer.channelId
  present : ∀ (playerId : Int32) channel,
    m.channelsByPlayerId[playerId]? = some channel → Present history playerId channel

section Sending

variable {m m' : PlayersManager} {msg : β} {out : List (PlayersSignal β)}

theorem forEach_sendToChannel {l : List (Int32 × PlayerChannelPointer)}
    (h : ∀ e ∈ l, m.channelsByPlayerId[e.1]? = some e.2) :
    Fallible.forEach (sendToChannel msg) (l.map Prod.fst) m =
      .ok (m, l.map fun e => .sendPlayerMessage e.2 msg) := by
  induction l with
  | nil => rfl
  | cons e rest ih =>
      have hfirst : sendToChannel msg e.1 m = .ok (m, [.sendPlayerMessage e.2 msg]) := by
        simp only [sendToChannel, h e List.mem_cons_self]
      have hrest := ih fun e' he' => h e' (List.mem_cons_of_mem e he')
      simp only [List.map_cons, Fallible.forEach, Fallible.andThen, hfirst, hrest]
      rfl

end Sending

namespace Tracks

variable {history : History β} {m : PlayersManager}

theorem start : Tracks ([] : History β) PlayersManager.start where
  owned _ _ _ h := by cases h
  players channelId playerId := by simp [PlayersManager.start, registered]
  metas playerId := by simp [PlayersManager.start]
  ids playerId := by simp [PlayersManager.start]
  present playerId channel h := by simp [PlayersManager.start] at h

theorem mem_ids (h : Tracks history m) (playerId : Int32) :
    playerId ∈ m.channelIdsByPlayerIds ↔ playerId ∈ m.channelsByPlayerId := by
  rw [QMap.mem_iff, QMap.mem_iff, h.ids]
  simp

/-- The registered channels are those that the manager knows the players of. -/
theorem unregistered_iff (h : Tracks history m) (channelId : Int) :
    channelId ∉ m.playerIdsByChannelId ↔ registered history channelId = none := by
  rw [QMap.notMem_iff]
  constructor
  · intro hnone
    cases hregistered : registered history channelId with
    | none => rfl
    | some entry =>
        have hknown := (h.players channelId entry.2.pid).mpr
          ⟨entry.1, entry.2, hregistered, rfl⟩
        cases hnone.symm.trans hknown
  · intro hnone
    refine Option.eq_none_iff_forall_ne_some.mpr fun playerId hknown => ?_
    obtain ⟨channel, metadata, hregistered, -⟩ := (h.players channelId playerId).mp hknown
    cases hnone.symm.trans hregistered

theorem channels_iff (h : Tracks history m)
    (hinverse : QMap.Inverse m.playerIdsByChannelId m.channelIdsByPlayerIds)
    (playerId : Int32) (channel : PlayerChannelPointer) :
    m.channelsByPlayerId[playerId]? = some channel ↔ Present history playerId channel := by
  refine ⟨h.present playerId channel, ?_⟩
  rintro ⟨metadata, hregistered, hplayer⟩
  have hknown := (h.players channel.channelId playerId).mpr
    ⟨channel, metadata, hregistered, hplayer⟩
  have hid := (hinverse channel.channelId playerId).mp hknown
  rw [h.ids] at hid
  obtain ⟨kept, hkept, hsame⟩ := Option.map_eq_some_iff.mp hid
  obtain ⟨metadata', hregistered', -⟩ := h.present playerId kept hkept
  rw [hsame] at hregistered'
  cases hregistered.symm.trans hregistered'
  exact hkept

theorem delivers (h : Tracks history m)
    (hchannels : ∀ (playerId : Int32) channel,
      m.channelsByPlayerId[playerId]? = some channel ↔ Present history playerId channel) :
    Delivers history m := by
  intro msg
  have hkeys : m.channelIdsByPlayerIds.keys = m.channelsByPlayerId.keys := by
    have heq := QMap.keys_filter_congr (p := fun _ => true) (m := m.channelsByPlayerId)
      fun playerId _ => h.mem_ids playerId
    simpa only [List.filter_true] using heq
  refine ⟨m.channelsByPlayerId.toList, ?_, ?_, ?_⟩
  · have hsent := @forEach_sendToChannel β m msg m.channelsByPlayerId.toList
      fun e he => Std.ExtTreeMap.mem_toList_iff_getElem?_eq_some.mp he
    rw [Std.ExtTreeMap.map_fst_toList_eq_keys] at hsent
    simp only [sendAllPlayersMessage, hkeys, Fallible.andThen, hsent, Fallible.emit]
  · rw [Std.ExtTreeMap.map_fst_toList_eq_keys]
    exact Std.ExtTreeMap.nodup_keys
  · intro playerId channel
    rw [Std.ExtTreeMap.mem_toList_iff_getElem?_eq_some]
    exact hchannels playerId channel

theorem indexed_iff (h : Tracks history m) : Indexed history m ↔
    QMap.Inverse m.playerIdsByChannelId m.channelIdsByPlayerIds := by
  refine ⟨Indexed.inverse, fun hinverse => ?_⟩
  have hchannels := h.channels_iff hinverse
  exact ⟨hinverse, h.metas, hchannels, h.delivers hchannels⟩

end Tracks

/-- A channel that is not registered is registered for a player who has no other. -/
def JoinsOnce (st : Step PlayersManager (PlayersEvent β) (PlayersSignal β)) : Prop :=
  ∀ channel metadata, st.label = .newPlayer channel metadata →
    channel.channelId ∉ st.pre.playerIdsByChannelId →
    metadata.pid ∉ st.pre.channelIdsByPlayerIds

section Steps

variable {history : History β} {m m' : PlayersManager} {ev : PlayersEvent β}
  {out : List (PlayersSignal β)}

inductive Change (m : PlayersManager) : PlayersEvent β → PlayersManager → Prop
  | joined {channel : PlayerChannelPointer} {metadata : PlayerMeta} {m' : PlayersManager}
      (hfresh : channel.channelId ∉ m.playerIdsByChannelId)
      (hplayers : m'.playerIdsByChannelId =
        m.playerIdsByChannelId.insert channel.channelId metadata.pid)
      (hids : m'.channelIdsByPlayerIds =
        m.channelIdsByPlayerIds.insert metadata.pid channel.channelId)
      (hchannels : m'.channelsByPlayerId = m.channelsByPlayerId.insert metadata.pid channel)
      (hmetas : m'.metas = m.metas.insert metadata.pid metadata) :
      Change m (.newPlayer channel metadata) m'
  | left {channelId : Int} {playerId : Int32} {m' : PlayersManager}
      (hknown : m.playerIdsByChannelId[channelId]? = some playerId)
      (hplayers : m'.playerIdsByChannelId = m.playerIdsByChannelId.erase channelId)
      (hids : m'.channelIdsByPlayerIds = m.channelIdsByPlayerIds.erase playerId)
      (hchannels : m'.channelsByPlayerId = m.channelsByPlayerId.erase playerId)
      (hmetas : m'.metas = m.metas.erase playerId) :
      Change m (.playerExit channelId) m'
  | quiet {ev : PlayersEvent β} {m' : PlayersManager}
      (hjoins : ∀ channel metadata, ev = .newPlayer channel metadata →
        channel.channelId ∈ m.playerIdsByChannelId)
      (hleaves : ∀ channelId, ev = .playerExit channelId →
        m.playerIdsByChannelId[channelId]? = none)
      (hplayers : m'.playerIdsByChannelId = m.playerIdsByChannelId)
      (hids : m'.channelIdsByPlayerIds = m.channelIdsByPlayerIds)
      (hchannels : m'.channelsByPlayerId = m.channelsByPlayerId)
      (hmetas : m'.metas = m.metas) :
      Change m ev m'

theorem Change.refl (hjoins : ∀ channel metadata, ev = .newPlayer channel metadata →
      channel.channelId ∈ m.playerIdsByChannelId)
    (hleaves : ∀ channelId, ev = .playerExit channelId →
      m.playerIdsByChannelId[channelId]? = none) : Change m ev m :=
  .quiet hjoins hleaves rfl rfl rfl rfl

theorem sendAllPlayersMessage_state {msg : β}
    (h : sendAllPlayersMessage msg m = .ok (m', out)) : m' = m := by
  have hquiet : Fallible.Composes fun (m m' : PlayersManager) (_ : List (PlayersSignal β)) =>
      m' = m := ⟨fun _ => rfl, fun h h' => h'.trans h⟩
  have hsends : Fallible.Ensures (fun (m m' : PlayersManager) _ => m' = m)
      (fun m => sendAllPlayersMessage msg m) := by
    intro m m' out h
    refine Fallible.Ensures.andThen hquiet (.forEach hquiet fun playerId _ => ?_)
      (.emit fun _ => rfl) m m' out h
    intro m m' out h
    unfold sendToChannel at h
    split at h
    · cases h
    · cases h
      rfl
  exact hsends m m' out h

theorem sendPlayerMessage_state {playerId : Int32} {msg : β}
    (h : sendPlayerMessage playerId msg m = .ok (m', out)) : m' = m := by
  unfold sendPlayerMessage sendToChannel at h
  split at h
  · split at h
    · cases h
    · cases h
      rfl
  · split at h
    · cases h
      rfl
    · cases h
      rfl

theorem step_change (h : (machine β).step m ev = .ok (m', out)) : Change m ev m' := by
  cases ev with
  | newPlayer channel metadata =>
      simp only [machine, Fallible.machine, handle, newPlayer] at h
      split at h
      · rename_i hthere
        cases h
        refine .refl ?_ (by simp)
        rintro _ _ ⟨⟩
        exact hthere
      · rename_i hfresh
        cases h
        exact .joined hfresh rfl rfl rfl rfl
  | playerExit channelId =>
      simp only [machine, Fallible.machine, handle, playerExit] at h
      split at h
      · rename_i hnone
        cases h
        refine .refl (by simp) ?_
        rintro _ ⟨⟩
        exact hnone
      · rename_i playerId hknown
        cases h
        exact .left hknown rfl rfl rfl rfl
  | playerMessage channelId msg =>
      simp only [machine, Fallible.machine, handle, playerMessage] at h
      split at h
      · cases h
        exact .refl (by simp) (by simp)
      · cases h
        exact .refl (by simp) (by simp)
  | sendPlayerMessage playerId msg =>
      obtain rfl := sendPlayerMessage_state h
      exact .refl (by simp) (by simp)
  | sendAllPlayersMessage msg =>
      obtain rfl := sendAllPlayersMessage_state h
      exact .refl (by simp) (by simp)
  | registerDebugPlayer playerName =>
      cases h
      exact .quiet (by simp) (by simp) rfl rfl rfl rfl
  | sendDebugPlayerMessage playerId msg =>
      cases h
      exact .refl (by simp) (by simp)

theorem Tracks.registered_joined (h : Tracks history m) {channel : PlayerChannelPointer}
    {metadata : PlayerMeta} (hfresh : channel.channelId ∉ m.playerIdsByChannelId) (k : Int) :
    registered (⟨m, .newPlayer channel metadata, out, m'⟩ :: history) k =
      if k = channel.channelId then some (channel, metadata) else registered history k := by
  have hnone := (h.unregistered_iff channel.channelId).mp hfresh
  simp only [registered]
  by_cases hk : k = channel.channelId
  · subst hk
    simp [hnone]
  · simp [hk]

theorem Tracks.registered_quiet (h : Tracks history m)
    (hjoins : ∀ channel metadata, ev = .newPlayer channel metadata →
      channel.channelId ∈ m.playerIdsByChannelId)
    (hleaves : ∀ channelId, ev = .playerExit channelId →
      m.playerIdsByChannelId[channelId]? = none) :
    registered (⟨m, ev, out, m'⟩ :: history) = registered history := by
  funext k
  cases ev with
  | newPlayer channel metadata =>
      have hthere := hjoins channel metadata rfl
      have hsome : registered history channel.channelId ≠ none := fun hnone =>
        (h.unregistered_iff channel.channelId).mpr hnone hthere
      simp only [registered]
      rw [if_neg]
      rintro ⟨rfl, hnone⟩
      exact hsome hnone
  | playerExit channelId =>
      have hnone := (h.unregistered_iff channelId).mp
        ((QMap.notMem_iff _ _).mpr (hleaves channelId rfl))
      simp only [registered]
      split
      · rename_i heq
        rw [heq, hnone]
      · rfl
  | playerMessage channelId msg => rfl
  | sendPlayerMessage playerId msg => rfl
  | sendAllPlayersMessage msg => rfl
  | registerDebugPlayer playerName => rfl
  | sendDebugPlayerMessage playerId msg => rfl

theorem Tracks.joined {history' : History β} (h : Tracks history m)
    {channel : PlayerChannelPointer} {metadata : PlayerMeta}
    (hnow : ∀ k, registered history' k =
      if k = channel.channelId then some (channel, metadata) else registered history k)
    (hfresh : channel.channelId ∉ m.playerIdsByChannelId)
    (hplayers : m'.playerIdsByChannelId =
      m.playerIdsByChannelId.insert channel.channelId metadata.pid)
    (hids : m'.channelIdsByPlayerIds =
      m.channelIdsByPlayerIds.insert metadata.pid channel.channelId)
    (hchannels : m'.channelsByPlayerId = m.channelsByPlayerId.insert metadata.pid channel)
    (hmetas : m'.metas = m.metas.insert metadata.pid metadata) : Tracks history' m' := by
  refine ⟨?_, ?_, ?_, ?_, ?_⟩
  · intro k other told hk
    rw [hnow] at hk
    split at hk
    · rename_i heq
      cases hk
      exact heq.symm
    · exact h.owned k other told hk
  · intro k playerId
    rw [hplayers, QMap.getElem?_insert, hnow]
    split
    · simp
    · exact h.players k playerId
  · intro playerId
    rw [hchannels, hmetas, QMap.mem_insert_iff, QMap.mem_insert_iff, h.metas]
  · intro playerId
    rw [hids, hchannels, QMap.getElem?_insert, QMap.getElem?_insert, h.ids]
    split
    · rfl
    · rfl
  · intro playerId other hother
    rw [hchannels, QMap.getElem?_insert] at hother
    split at hother
    · rename_i heq
      cases hother
      exact ⟨metadata, by rw [hnow, if_pos rfl], heq.symm⟩
    · obtain ⟨told, htold, hplayer⟩ := h.present playerId other hother
      refine ⟨told, ?_, hplayer⟩
      rw [hnow, if_neg, htold]
      intro heq
      rw [heq] at htold
      cases ((h.unregistered_iff channel.channelId).mp hfresh).symm.trans htold

theorem Tracks.left {history' : History β} (h : Tracks history m) {channelId : Int}
    {playerId : Int32}
    (hnow : ∀ k, registered history' k = if k = channelId then none else registered history k)
    (hknown : m.playerIdsByChannelId[channelId]? = some playerId)
    (hplayers : m'.playerIdsByChannelId = m.playerIdsByChannelId.erase channelId)
    (hids : m'.channelIdsByPlayerIds = m.channelIdsByPlayerIds.erase playerId)
    (hchannels : m'.channelsByPlayerId = m.channelsByPlayerId.erase playerId)
    (hmetas : m'.metas = m.metas.erase playerId) : Tracks history' m' := by
  refine ⟨?_, ?_, ?_, ?_, ?_⟩
  · intro k other told hk
    rw [hnow] at hk
    split at hk
    · cases hk
    · exact h.owned k other told hk
  · intro k player
    rw [hplayers, QMap.getElem?_erase, hnow]
    split
    · simp
    · exact h.players k player
  · intro player
    rw [hchannels, hmetas, QMap.mem_erase_iff, QMap.mem_erase_iff, h.metas]
  · intro player
    rw [hids, hchannels, QMap.getElem?_erase, QMap.getElem?_erase, h.ids]
    split
    · rfl
    · rfl
  · intro player other hother
    rw [hchannels, QMap.getElem?_erase] at hother
    split at hother
    · cases hother
    rename_i hne
    obtain ⟨told, htold, hplayer⟩ := h.present player other hother
    refine ⟨told, ?_, hplayer⟩
    rw [hnow, if_neg, htold]
    -- the channel that exits belongs to another player
    intro heq
    have howner := (h.players channelId player).mpr ⟨other, told, heq ▸ htold, hplayer⟩
    cases hknown.symm.trans howner
    exact hne rfl

theorem Tracks.step (h : Tracks history m) (hchange : Change m ev m') :
    Tracks (⟨m, ev, out, m'⟩ :: history) m' := by
  cases hchange with
  | joined hfresh hplayers hids hchannels hmetas =>
      exact h.joined (h.registered_joined hfresh) hfresh hplayers hids hchannels hmetas
  | left hknown hplayers hids hchannels hmetas =>
      exact h.left (fun _ => rfl) hknown hplayers hids hchannels hmetas
  | quiet hjoins hleaves hplayers hids hchannels hmetas =>
      have hnow : registered (⟨m, ev, out, m'⟩ :: history) = registered history :=
        h.registered_quiet hjoins hleaves
      obtain ⟨howned, hknown, hkeys, hkept, hpresent⟩ := h
      refine ⟨?_, ?_, ?_, ?_, ?_⟩
      · rw [hnow]
        exact howned
      · rw [hnow, hplayers]
        exact hknown
      · rw [hchannels, hmetas]
        exact hkeys
      · rw [hids, hchannels]
        exact hkept
      · unfold Present
        rw [hnow, hchannels]
        exact hpresent

theorem tracks_of_execution (h : Execution (machine β) history m) : Tracks history m :=
  h.invariant .start fun _ htracks hstep => htracks.step (step_change hstep)

theorem Change.inverse_iff (h : Change m ev m')
    (hinverse : QMap.Inverse m.playerIdsByChannelId m.channelIdsByPlayerIds) :
    QMap.Inverse m'.playerIdsByChannelId m'.channelIdsByPlayerIds ↔
      JoinsOnce ⟨m, ev, out, m'⟩ := by
  cases h with
  | @joined channel metadata _ hfresh hplayers hids _ _ =>
      rw [hplayers, hids]
      by_cases hmem : metadata.pid ∈ m.channelIdsByPlayerIds
      · refine iff_of_false ?_ fun honce => honce channel metadata rfl hfresh hmem
        intro hback
        exact QMap.not_inverse_insert hinverse.symm hmem hfresh hback.symm
      · refine iff_of_true (hinverse.insert hfresh hmem) ?_
        rintro _ _ ⟨⟩ _
        exact hmem
  | left hknown hplayers hids _ _ =>
      rw [hplayers, hids]
      refine iff_of_true (hinverse.erase hknown) ?_
      rintro _ _ ⟨⟩
  | quiet hjoins _ hplayers hids _ _ =>
      rw [hplayers, hids]
      refine iff_of_true hinverse ?_
      intro channel metadata hev hfresh
      exact absurd (hjoins channel metadata hev) hfresh

end Steps

theorem playersIndexed_iff {history : History β} {m : PlayersManager}
    (h : Execution (machine β) history m) :
    Execution.Always (machine β) Indexed history ↔ ∀ st ∈ history, JoinsOnce st := by
  have hstart : Indexed ([] : History β) start :=
    Tracks.start.indexed_iff.mpr fun k a => by simp [start]
  refine Execution.always_iff hstart ?_ h
  intro older m m' ev out hexec hindexed hstep
  have htracks := tracks_of_execution hexec
  have hchange := step_change hstep
  rw [(htracks.step hchange).indexed_iff]
  exact hchange.inverse_iff hindexed.inverse

def joins (channelId : Int) (pid : Int32) : PlayersEvent Text :=
  .newPlayer ⟨channelId.toNat, channelId⟩ ⟨pid, "ann"⟩

theorem twoPlayers_indexed :
    ∃ history m, (machine Text).run [joins 1 (-2), joins 2 (-3), .playerExit 1] =
        .ok (history, m) ∧
      Execution.Always (machine Text) Indexed history := by
  refine ⟨_, _, rfl, (playersIndexed_iff (Machine.run_execution (show (machine Text).run
    [joins 1 (-2), joins 2 (-3), .playerExit 1] = .ok (_, _) from rfl))).mpr ?_⟩
  intro st hst
  simp only [List.mem_cons, List.not_mem_nil, or_false] at hst
  rcases hst with rfl | rfl | rfl
  · intro channel metadata hlabel
    cases hlabel
  · intro channel metadata hlabel _
    cases hlabel
    decide +kernel
  · intro channel metadata hlabel _
    cases hlabel
    exact Std.ExtTreeMap.not_mem_empty

/-- The exit of the first channel takes the player away from the second. -/
theorem twoChannels_forgotten :
    ∃ history m, (machine Text).run [joins 1 (-2), joins 2 (-2), .playerExit 1] =
        .ok (history, m) ∧
      decide (m.playerIdsByChannelId[(2 : Int)]? = some (-2) ∧
        m.channelIdsByPlayerIds[(-2 : Int32)]? = none) = true := by
  apply Machine.exists_run
  decide +kernel

theorem twoChannels_notIndexed :
    ∃ history m, (machine Text).run [joins 1 (-2), joins 2 (-2), .playerExit 1] =
        .ok (history, m) ∧
      ¬ Execution.Always (machine Text) Indexed history := by
  obtain ⟨history, m, hrun, hcheck⟩ := twoChannels_forgotten
  obtain ⟨hkept, hlost⟩ := of_decide_eq_true hcheck
  refine ⟨history, m, hrun, ?_⟩
  intro halways
  have hindexed := halways history m List.suffix_rfl (Machine.run_execution hrun)
  have hback := (hindexed.inverse 2 (-2)).mp hkept
  cases hlost.symm.trans hback

end PlayersManager

end GBerry.Client
