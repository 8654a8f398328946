import GBerry.Server.ChannelManager.Effect

/-!
# The representation of the manager along a run

What the invariant says in the words of the source, for every sequence of
operations, together with the history of the channel ids: an id that was drawn
once is never registered again.
-/

namespace GBerry.Server

open GBerry.Common
open GBerry.Foundation

namespace ServerChannelManager

open ServerSideControlChannel (CHANNEL_ID)

variable {β : Type} [QByteArray β]

structure Representation (m : ServerChannelManager) : Prop where
  stack_nodup : m.activeConnectionIdsStack.Nodup
  stack_registered : ∀ c ∈ m.activeConnectionIdsStack, c ∈ m.controlChannels
  active_eq_neg_one_iff :
    m.activeConnectionId = -1 ↔ m.activeConnectionIdsStack = []
  active_eq_front : ∀ front rest,
    m.activeConnectionIdsStack = front :: rest → m.activeConnectionId = front
  keys_nodup : m.playerChannels.keys.Nodup
  player_key : ∀ (k : Int) (ch : ServerSidePlayerChannel),
    m.playerChannels[k]? = some ch → 0 < k ∧ ch.id = k ∧ k ≠ CHANNEL_ID

/--
Every `openPlayerChannel` registers one id that was free, and an id that
becomes registered had not been registered at any earlier moment.
-/
structure NeverReused (history : List (Step ServerChannelManager (ServerOp β)
    (Signal β))) : Prop where
  opened_free : ∀ newer st older, history = newer ++ st :: older →
    ∀ playerMeta uninitialised,
      st.label = .openPlayerChannel playerMeta uninitialised →
      ∃ k ch, k ∉ st.pre.playerChannels ∧
        st.post.playerChannels = st.pre.playerChannels.insert k ch
  registered_fresh : ∀ newer st older, history = newer ++ st :: older →
    ∀ k ∈ st.post.playerChannels, k ∉ st.pre.playerChannels →
      ∀ st' ∈ older, k ∉ st'.pre.playerChannels

theorem Valid.representation {m : ServerChannelManager} (hm : m.Valid) :
    m.Representation := by
  have hsingle : m.activeConnectionIdsStack = [] ∨
      m.activeConnectionIdsStack = [m.activeConnectionId] :=
    hm.active_cases.imp And.right And.right
  have hnone : m.activeConnectionId = -1 ↔ m.activeConnectionIdsStack = [] := by
    cases hm.active_cases with
    | inl hnone => simp [hnone]
    | inr hsome => simp [hsome.2, hm.ne_neg_one hsome.1]
  refine ⟨?_, ?_, hnone, ?_, ?_, ?_⟩
  · rcases hsingle with hstack | hstack <;> simp [hstack]
  · intro c hc
    cases hm.active_cases with
    | inl hnone => simp [hnone.2] at hc
    | inr hsome =>
        rw [hsome.2, List.mem_singleton] at hc
        exact hc ▸ hsome.1
  · intro front rest hstack
    rcases hsingle with h | h
    · simp [h] at hstack
    · rw [h] at hstack
      simp only [List.cons.injEq] at hstack
      exact hstack.1
  · have hdistinct := Std.ExtTreeMap.distinct_keys (t := m.playerChannels)
    refine hdistinct.imp ?_
    intro a b hne heq
    exact hne (Std.compare_eq_iff_eq.mpr heq)
  · intro k ch hch
    have hpos := (hm.player_range k (QMap.mem_of_getElem? hch)).1
    refine ⟨hpos, (hm.player_attached k ch hch).id_eq, ?_⟩
    unfold CHANNEL_ID
    omega

section Runs

variable {m m' : ServerChannelManager} {op : ServerOp β} {out : List (Signal β)}
  {history : List (Step ServerChannelManager (ServerOp β) (Signal β))}

theorem channelIdCount_eq (h : Execution (machine β) history m) :
    m.channelIdCount =
      1 + ((history.map Step.label).countP ServerOp.drawsChannelId : Nat) := by
  refine h.invariant
    (I := fun history (m : ServerChannelManager) => m.channelIdCount =
      1 + ((history.map Step.label).countP ServerOp.drawsChannelId : Nat)) rfl ?_
  intro history m m' op out hexec hcount hstep
  have heffect := (valid_of_execution hexec).effect hstep
  rw [heffect.channelIdCount, hcount]
  cases hdraws : op.drawsChannelId <;>
    simp [hdraws]
  omega

theorem key_lt_of_mem (h : Execution (machine β) history m) :
    ∀ st ∈ history, ∀ k ∈ st.pre.playerChannels, k < m.channelIdCount := by
  refine h.invariant
    (I := fun history m => ∀ st ∈ history, ∀ k ∈ st.pre.playerChannels,
      k < m.channelIdCount) (by simp) ?_
  intro history m m' op out hexec hbelow hstep st hst k hk
  have hm := valid_of_execution hexec
  have hle := (hm.effect hstep).channelIdCount_le
  have hlt : k < m.channelIdCount := by
    rcases List.mem_cons.mp hst with rfl | hold
    · exact (hm.player_range k hk).2
    · exact hbelow st hold k hk
  omega

theorem Effect.opened_free (hm : m.Valid) {playerMeta : PlayerMeta}
    {uninitialised : PlayerChannelState}
    (h : Effect m (.openPlayerChannel playerMeta uninitialised) m' out) :
    ∃ k ch, k ∉ m.playerChannels ∧
      m'.playerChannels = m.playerChannels.insert k ch := by
  cases h with
  | ignored h => exact h.elim
  | joined =>
      refine ⟨m.channelIdCount, _, ?_, rfl⟩
      intro hk
      have hrange := hm.player_range _ hk
      omega

theorem neverReused_of_execution (h : Execution (machine β) history m) :
    NeverReused history where
  opened_free newer st older hsplit playerMeta uninitialised hlabel := by
    subst hsplit
    obtain ⟨hexec, hmade⟩ := h.of_append
    rw [hlabel] at hmade
    have hm := valid_of_execution hexec
    exact Effect.opened_free hm (hm.effect hmade)
  registered_fresh newer st older hsplit k hk hnew st' hst' hold := by
    subst hsplit
    obtain ⟨hexec, hmade⟩ := h.of_append
    have heffect := (valid_of_execution hexec).effect hmade
    have hlt := key_lt_of_mem hexec st' hst' k hold
    have heq := ((heffect.mem_before hk).resolve_left hnew).1
    omega

theorem run_representation (ops : List (ServerOp β)) :
    match (machine β).run ops with
    | .ok (history, m) => m.Representation ∧ NeverReused history
    | .error fault =>
        fault = .intOverflow ∧ 2 ^ 31 - 1 ≤ ops.countP ServerOp.drawsChannelId := by
  cases hrun : (machine β).run ops with
  | ok result =>
      cases result with
      | mk history m =>
      have hexec := Machine.run_execution hrun
      exact ⟨(valid_of_execution hexec).representation,
        neverReused_of_execution hexec⟩
  | error fault =>
      obtain ⟨before, op, after, history, m, rfl, hbefore, hfail⟩ :=
        Machine.run_error hrun
      have hexec := Machine.run_execution hbefore
      have hfault := (valid_of_execution hexec).step_error hfail
      refine ⟨hfault.1, ?_⟩
      have hcount := channelIdCount_eq hexec
      have hlabels := Machine.run_labels hbefore
      rw [hlabels, List.countP_reverse, hfault.2.2] at hcount
      simp only [List.countP_append, List.countP_cons, hfault.2.1, if_true]
      omega

end Runs

end ServerChannelManager

end GBerry.Server
