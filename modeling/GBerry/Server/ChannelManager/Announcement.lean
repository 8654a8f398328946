import GBerry.Server.ChannelManager.PlayerMessages

/-!
# Announcement of players to the active connection

Every registered player should be announced once, with an `OpenChannel`, to
the connection that is active.  `open` discards the request of a channel that
is open or opening, and what it sends is dropped while no connection is active;
the theorem names the steps after which a player is not announced.
-/

namespace GBerry.Server

open GBerry.Common
open GBerry.Foundation
open ServerSideControlChannel (CHANNEL_ID)

namespace ServerChannelManager

variable {β : Type} [QByteArray β] {m m' : ServerChannelManager} {c k : Int}

def createsPlayer (k : Int)
    (st : Step ServerChannelManager (ServerOp β) (Signal β)) : Bool :=
  k ∈ st.post.playerChannels ∧ k ∉ st.pre.playerChannels

/--
For every registered player, one `OpenChannel` with its meta data was sent to
the active connection since that became active and the player joined.
-/
def EveryPlayerAnnounced
    (history : List (Step ServerChannelManager (ServerOp β) (Signal β)))
    (m : ServerChannelManager) : Prop :=
  m.activeConnectionId ≠ -1 →
    ∀ (k : Int) (ch : ServerSidePlayerChannel), m.playerChannels[k]? = some ch →
      openChannels m.activeConnectionId k
        (since (fun st => becomesActive m.activeConnectionId st || createsPlayer k st)
          history) = [MessageFactory.createOpenChannelCommand ch.playerMeta]

/--
A player joins and its `_state` happens to hold an opening state, or a
connection is activated while none is active and a player has been opening.
-/
def SkipsAnnouncement (m : ServerChannelManager) : ServerOp β → Prop
  | .openPlayerChannel playerMeta uninitialised =>
      m.activeConnectionId ≠ -1 ∧
        (m.newPlayerChannel playerMeta uninitialised).isOpening
  | .activateConnection c =>
      (c : Int) ∈ m.controlChannels ∧ m.activeConnectionId = -1 ∧
        ∃ (k : Int) (ch : ServerSidePlayerChannel),
          m.playerChannels[k]? = some ch ∧ ch.isOpening
  | _ => False

section OpenChannels

theorem openChannels_emit (c' k' : Int) (msg : β) :
    openChannels c k [m.emit c' k' msg] =
      if c' = c ∧ k' = k ∧ isCommand "OpenChannel" msg then [msg] else [] := by
  by_cases h : c' = c ∧ k' = k ∧ isCommand "OpenChannel" msg = true
  · rw [if_pos h]
    simp [openChannels, emit, Signal.openChannel, h]
  · rw [if_neg h]
    simp only [openChannels, emit, Signal.openChannel, h, if_false,
      List.filterMap_cons, List.filterMap_nil]

theorem openChannels_announce_other {k' : Int} (hk : k' ≠ k)
    (ch : ServerSidePlayerChannel) :
    openChannels c k (m.announce (β := β) k' ch) = [] := by
  unfold announce
  split
  · rfl
  · by_cases hactive : m.activeConnectionId = -1
    · simp [hasActiveConnection, hactive, openChannels]
    · simp [hasActiveConnection, hactive, openChannels_emit, hk]

theorem openChannels_announce (hactive : m.activeConnectionId ≠ -1)
    (ch : ServerSidePlayerChannel) :
    openChannels m.activeConnectionId k (m.announce (β := β) k ch) =
      if ch.isOpening then []
      else [MessageFactory.createOpenChannelCommand ch.playerMeta] := by
  unfold announce
  split
  · rfl
  · simp [hasActiveConnection, hactive, openChannels_emit]

theorem openChannels_reopen (hm : m.Valid) (hactive : m.activeConnectionId ≠ -1)
    {ch : ServerSidePlayerChannel} (hch : m.playerChannels[k]? = some ch) :
    openChannels m.activeConnectionId k (m.reopenPlayerChannels (β := β)).2 =
      if ch.isOpening then []
      else [MessageFactory.createOpenChannelCommand ch.playerMeta] := by
  rw [hm.reopenPlayerChannels_snd, openChannels, List.filterMap_flatMap,
    QMap.flatMap_toList_single hch]
  · exact openChannels_announce hactive ch
  · intro e he hne
    exact openChannels_announce_other hne e.2

end OpenChannels

section Steps

variable {op : ServerOp β} {out : List (Signal β)}
  {history : List (Step ServerChannelManager (ServerOp β) (Signal β))}

theorem EveryPlayerAnnounced.other (hP : EveryPlayerAnnounced history m)
    (hm : m.Valid) (h : Effect m op m' out)
    (hplayers : ∀ k ∈ m'.playerChannels, k ∈ m.playerChannels)
    (hop : op.activates m'.activeConnectionId = false) :
    EveryPlayerAnnounced (⟨m, op, out, m'⟩ :: history) m' := by
  intro hsome k ch' hch'
  have hk' := QMap.mem_of_getElem? hch'
  have hk := hplayers k hk'
  have hrange := hm.player_range k hk
  obtain ⟨ch, hch⟩ := (QMap.mem_iff _ _).mp hk
  have hmeta := h.playerMeta_kept hm hch hch'
  have hnonneg := (h.valid hm).registered_nonneg _
    ((h.valid hm).active_registered hsome)
  obtain ⟨c, hactive⟩ := Int.eq_ofNat_of_zero_le hnonneg
  rw [hactive] at hop ⊢
  have hsame : m.activeConnectionId = c := by
    rcases h.activated_or_kept hm hactive with ⟨rfl, -⟩ | ⟨hbefore, -⟩
    · simp [ServerOp.activates] at hop
    · exact hbefore
  have hquiet : openChannels c k out = [] := by
    by_contra hsent
    obtain ⟨message, hmem, -, rfl, hopen⟩ := exists_openChannel hsent
    have hroot : message.channelId ≠ CHANNEL_ID := by
      unfold CHANNEL_ID
      omega
    rcases ((h.playerText hm hmem hroot).opens hopen).2.1 with hnew | hactivates
    · omega
    · rw [hactive, hop] at hactivates
      cases hactivates
  have hunmarked : (becomesActive c
      (⟨m, op, out, m'⟩ : Step ServerChannelManager (ServerOp β) (Signal β)) ||
        createsPlayer k ⟨m, op, out, m'⟩) = false := by
    simp [becomesActive, createsPlayer, hsame, hop, hk]
  rw [since_cons_unmarked hunmarked, openChannels_append, hquiet, List.append_nil,
    ← hmeta]
  rw [← hsame]
  exact hP (by omega) k ch hch

theorem EveryPlayerAnnounced.joined_iff (hP : EveryPlayerAnnounced history m)
    (hm : m.Valid) (playerMeta : PlayerMeta) (uninitialised : PlayerChannelState) :
    let new := m.newPlayerChannel playerMeta uninitialised
    let m' : ServerChannelManager :=
      { m with
        channelIdCount := m.channelIdCount + 1
        playerChannels := m.playerChannels.insert m.channelIdCount new.opened }
    let st : Step ServerChannelManager (ServerOp β) (Signal β) :=
      ⟨m, .openPlayerChannel playerMeta uninitialised,
        m.announce m.channelIdCount new, m'⟩
    EveryPlayerAnnounced (st :: history) m' ↔ ¬ m.SkipsAnnouncement st.label := by
  intro new m' st
  have hfree : m.channelIdCount ∉ m.playerChannels := by
    intro hk
    have hrange := hm.player_range _ hk
    omega
  have hnew : m'.playerChannels[m.channelIdCount]? = some new.opened := by
    simp [m']
  have hcreates : createsPlayer m.channelIdCount st = true := by
    simp [createsPlayer, st, m', hfree]
  have hsent (hactive : m.activeConnectionId ≠ -1) :=
    openChannels_announce (β := β) (k := m.channelIdCount) hactive new
  constructor
  · rintro hP' ⟨hactive, hopening⟩
    have hannounced := hP' hactive m.channelIdCount new.opened hnew
    rw [since_cons_marked (by simp [hcreates])] at hannounced
    rw [hsent hactive, if_pos hopening] at hannounced
    cases hannounced
  · intro hskips hactive k ch' hch'
    by_cases hk : k = m.channelIdCount
    · subst hk
      rw [hnew, Option.some.injEq] at hch'
      have hclosed : ¬ new.isOpening = true := fun h => hskips ⟨hactive, h⟩
      rw [since_cons_marked (by simp [hcreates])]
      rw [hsent hactive, if_neg hclosed, ← hch']
      simp
    · have hold : m.playerChannels[k]? = some ch' := by
        rw [← hch']
        simp [m', QMap.getElem?_insert, hk]
      have hkold := QMap.mem_of_getElem? hold
      have hunmarked : (becomesActive m'.activeConnectionId st ||
          createsPlayer k st) = false := by
        simp [becomesActive, createsPlayer, ServerOp.activates, hkold, st, m']
      rw [since_cons_unmarked hunmarked, openChannels_append,
        openChannels_announce_other (Ne.symm hk), List.append_nil]
      exact hP hactive k ch' hold

theorem everyPlayerAnnounced_activated_iff (hm : m.Valid) {c : Nat}
    (hc : (c : Int) ∈ m.controlChannels) (displaced : List (Signal β))
    (hdisplaced : ∀ k ∈ m.playerChannels, openChannels c k displaced = []) :
    let m' := ((m.withActive c).reopenPlayerChannels (β := β)).1
    let st : Step ServerChannelManager (ServerOp β) (Signal β) :=
      ⟨m, .activateConnection c,
        displaced ++ (m.withActive c).emitCommand c "Activate" ::
          (m.withActive c).reopenPlayerChannels.2, m'⟩
    EveryPlayerAnnounced (st :: history) m' ↔ ¬ m.SkipsAnnouncement st.label := by
  intro m' st
  have hm₁ := hm.withActive hc
  have hc' : (m.withActive c).activeConnectionId ≠ -1 := hm.ne_neg_one hc
  have hsent (k : Int) (ch : ServerSidePlayerChannel)
      (hch : (m.withActive c).playerChannels[k]? = some ch) :
      openChannels c k st.out =
        if ch.isOpening then []
        else [MessageFactory.createOpenChannelCommand (β := β) ch.playerMeta] := by
    have hk := (m.withActive_mem k c).mp (QMap.mem_of_getElem? hch)
    have hreopen := openChannels_reopen (β := β) hm₁ hc' hch
    have hactivate : openChannels c k
        [(m.withActive c).emitCommand (β := β) c "Activate"] = [] := by
      rw [emitCommand, openChannels_emit]
      simp
    rw [openChannels_append, hdisplaced k hk, List.nil_append,
      ← List.singleton_append, openChannels_append, hactivate, List.nil_append]
    exact hreopen
  have hmarked (k : Int) :
      (becomesActive m'.activeConnectionId st || createsPlayer k st) = true := by
    simp [becomesActive, ServerOp.activates, st, m', reopenPlayerChannels, withActive]
  constructor
  · rintro hP' ⟨-, hnone, k, ch, hch, hopening⟩
    have hch₁ : (m.withActive c).playerChannels[k]? = some ch := by
      rw [withActive_getElem?, if_pos hnone, hch]
    have hch' : m'.playerChannels[k]? = some ch.opened := by
      simp [m', hch₁]
    have hannounced := hP' hc' k ch.opened hch'
    rw [since_cons_marked (hmarked k)] at hannounced
    rw [show m'.activeConnectionId = c from rfl, hsent k ch hch₁,
      if_pos hopening] at hannounced
    cases hannounced
  · intro hskips _ k ch' hch'
    rw [reopenPlayerChannels_getElem?, Option.map_eq_some_iff] at hch'
    obtain ⟨ch, hch₁, rfl⟩ := hch'
    rw [since_cons_marked (hmarked k)]
    rw [show m'.activeConnectionId = c from rfl, hsent k ch hch₁, if_neg]
    · simp
    · intro hopening
      rw [withActive_getElem?] at hch₁
      split at hch₁
      · rename_i hnone
        exact hskips ⟨hc, hnone, k, ch, hch₁, hopening⟩
      · obtain ⟨old, -, rfl⟩ := Option.map_eq_some_iff.mp hch₁
        simp at hopening

/-- A step keeps all players announced unless it is one of the two that skip. -/
theorem EveryPlayerAnnounced.step_iff (hP : EveryPlayerAnnounced history m)
    (hm : m.Valid) (h : Effect m op m' out) :
    EveryPlayerAnnounced (⟨m, op, out, m'⟩ :: history) m' ↔
      ¬ m.SkipsAnnouncement op := by
  cases op with
  | openPlayerChannel playerMeta uninitialised =>
      cases h with
      | ignored hignored => exact hignored.elim
      | joined _ _ => exact hP.joined_iff hm playerMeta uninitialised
  | activateConnection c =>
      cases h with
      | ignored hignored =>
          have hop : (ServerOp.activateConnection c : ServerOp β).activates
              m.activeConnectionId = false := by
            apply decide_eq_false
            intro heq
            have hnonneg := Int.natCast_nonneg c
            exact hignored (heq ▸ hm.active_registered (by omega))
          exact iff_of_true (hP.other hm (.ignored hignored) (fun _ hk => hk) hop)
            (fun hskips => hignored hskips.1)
      | activated hc =>
          apply everyPlayerAnnounced_activated_iff hm hc
          intro k hk
          split
          · rfl
          · rw [emitCommand, openChannels_emit]
            simp
  | _ =>
      refine iff_of_true (hP.other hm h ?_ rfl) id
      intro k hk
      rcases h.mem_before hk with hold | ⟨-, playerMeta, uninitialised, heq⟩
      · exact hold
      · cases heq

theorem everyPlayerAnnounced_iff (h : Execution (machine β) history m) :
    Execution.Always (machine β) EveryPlayerAnnounced history ↔
      ∀ st ∈ history, ¬ st.pre.SkipsAnnouncement st.label := by
  refine h.always_iff (C := fun st => ¬ st.pre.SkipsAnnouncement st.label) ?_ ?_
  · intro hactive
    exact absurd rfl hactive
  · intro history m m' op out hexec hP hstep
    have hm := valid_of_execution hexec
    exact hP.step_iff hm (hm.effect hstep)

end Steps

def joinsBeforeActivation : List (ServerOp Text) :=
  [.openControlChannel 0 [], .openPlayerChannel ⟨7, "player"⟩ .CHANNEL_CLOSED,
    .activateConnection 0]

theorem joinsBeforeActivation_unannounced :
    ∃ history m, (machine Text).run joinsBeforeActivation = .ok (history, m) ∧
      ¬ EveryPlayerAnnounced history m := by
  refine ⟨_, _, rfl, ?_⟩
  intro hP
  have hannounced := hP (by decide) 1 _ rfl
  cases hannounced

theorem everyPlayerAnnounced_iff_joinsBeforeActivation :
    ∃ history m, (machine Text).run joinsBeforeActivation = .ok (history, m) ∧
      (Execution.Always (machine Text) EveryPlayerAnnounced history ↔
        ∀ st ∈ history, ¬ st.pre.SkipsAnnouncement st.label) :=
  ⟨_, _, rfl, everyPlayerAnnounced_iff (Machine.run_execution
    (show (machine Text).run joinsBeforeActivation = .ok (_, _) from rfl))⟩

end ServerChannelManager

end GBerry.Server
