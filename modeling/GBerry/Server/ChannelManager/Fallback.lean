import GBerry.Server.ChannelManager.Announcement

/-!
# Fallback when the active connection goes away

`eligible` keeps the activations of a run, the most recent first, without the
connections that were closed or deactivated since.  The manager should fall
back to the first of them.  As an activation takes the previous connection off
the stack, there is nothing to fall back to, whatever was activated before.
-/

namespace GBerry.Server

open GBerry.Common
open GBerry.Foundation
open ServerSideControlChannel (CHANNEL_ID)

def Signal.isActivate {β : Type} [QByteArray β] (connectionId : Int) :
    Signal β → Prop
  | .outgoingMessageToSouth message =>
      message.connectionId = connectionId ∧ message.channelId = CHANNEL_ID ∧
        isCommand "Activate" message.msg
  | _ => False

namespace ServerChannelManager

variable {β : Type} [QByteArray β] {m m' : ServerChannelManager}
  {op : ServerOp β} {out : List (Signal β)}
  {history : List (Step ServerChannelManager (ServerOp β) (Signal β))}

def without (connections : List Int) (c : Int) : List Int :=
  connections.filter (· ≠ c)

def eligibleAfter (m : ServerChannelManager) (connections : List Int) :
    ServerOp β → List Int
  | .activateConnection c =>
      if (c : Int) ∈ m.controlChannels then c :: without connections c
      else connections
  | .deactivateConnection c =>
      if m.activeConnectionId = c then without connections c else connections
  | .applicationClosed c => without connections c
  | .closeControlChannel c => without connections c
  | _ => connections

/--
The connections with a control channel that were activated and not deactivated
since, the most recently activated one first.
-/
def eligible :
    List (Step ServerChannelManager (ServerOp β) (Signal β)) → List Int
  | [] => []
  | st :: older => eligibleAfter st.pre (eligible older) st.label

def EndsActive (m : ServerChannelManager) : ServerOp β → Prop
  | .deactivateConnection c =>
      m.activeConnectionId = c ∧ (c : Int) ∈ m.controlChannels
  | .applicationClosed c =>
      m.activeConnectionId = c ∧ (c : Int) ∈ m.controlChannels
  | _ => False

def TakesOver (next : Int)
    (st : Step ServerChannelManager (ServerOp β) (Signal β)) : Prop :=
  st.post.activeConnectionId = next ∧
    (∃ signal ∈ st.out, signal.isActivate next) ∧
    ∀ (k : Int) (ch : ServerSidePlayerChannel),
      st.post.playerChannels[k]? = some ch →
      openChannels next k st.out =
        [MessageFactory.createOpenChannelCommand ch.playerMeta]

/-- When the active connection ends, the first eligible one takes over. -/
def FallsBack (older : List (Step ServerChannelManager (ServerOp β) (Signal β)))
    (st : Step ServerChannelManager (ServerOp β) (Signal β)) : Prop :=
  st.pre.EndsActive st.label →
    match eligible (st :: older) with
    | [] => st.post.activeConnectionId = -1
    | next :: _ => TakesOver next st

/-- Nothing else was eligible when the active connection ended. -/
def EndsAlone (older : List (Step ServerChannelManager (ServerOp β) (Signal β)))
    (st : Step ServerChannelManager (ServerOp β) (Signal β)) : Prop :=
  st.pre.EndsActive st.label → eligible (st :: older) = []

omit [QByteArray β] in
theorem mem_without {connections : List Int} {c c' : Int} :
    c' ∈ without connections c ↔ c' ∈ connections ∧ c' ≠ c := by
  simp [without]

theorem Effect.endsActive (h : Effect m op m' out)
    (hends : m.EndsActive op) : m'.activeConnectionId = -1 := by
  cases h with
  | deactivated _ _ => rfl
  | disconnected _ => simp [withoutControl, closePlayerChannels, hends.1]
  | @ignored op hignored =>
      cases op with
      | deactivateConnection c =>
          cases hignored with
          | inl hc => exact absurd hends.2 hc
          | inr hactive => exact absurd hends.1 hactive
      | applicationClosed c => exact absurd hends.2 hignored
      | _ => exact hends.elim
  | _ => exact hends.elim

omit [QByteArray β] in
theorem subset_without {connections : List Int} {c : Int}
    (h : ∀ c' ∈ connections, c' ∈ m.controlChannels) :
    ∀ c' ∈ without connections c, c' ∈ (m.withoutControl c).controlChannels := by
  intro c' hc'
  have hold := mem_without.mp hc'
  exact (QMap.mem_erase_iff _ _ _).mpr ⟨hold.2, h c' hold.1⟩

theorem Effect.eligible_registered (h : Effect m op m' out)
    {connections : List Int} (hold : ∀ c ∈ connections, c ∈ m.controlChannels) :
    ∀ c ∈ eligibleAfter m connections op, c ∈ m'.controlChannels := by
  have hwithout (c' : Int) : ∀ c ∈ without connections c', c ∈ m.controlChannels :=
    fun c hc => hold c (mem_without.mp hc).1
  cases h with
  | @ignored op hignored =>
      cases op with
      | activateConnection c =>
          rw [eligibleAfter, if_neg hignored]
          exact hold
      | deactivateConnection c =>
          rw [eligibleAfter]
          split
          · exact hwithout c
          · exact hold
      | applicationClosed c => exact hwithout c
      | closeControlChannel c => exact hwithout c
      | _ => exact hold
  | registered c commands =>
      intro c' hc'
      exact (QMap.mem_insert_iff _ _ _ _).mpr (.inr (hold c' hc'))
  | unregistered _ => exact subset_without hold
  | @activated c hc =>
      rw [eligibleAfter, if_pos hc]
      intro c' hc'
      have hmem : c' ∈ m.controlChannels := by
        rcases List.mem_cons.mp hc' with rfl | hc'
        · exact hc
        · exact hwithout c c' hc'
      simpa [reopenPlayerChannels] using hmem
  | @deactivated c _ hactive =>
      rw [eligibleAfter, if_pos hactive]
      exact hwithout c
  | disconnected _ => exact subset_without (m := m.closePlayerChannels) hold
  | _ => exact hold

theorem eligible_registered (h : Execution (machine β) history m) :
    ∀ c ∈ eligible history, c ∈ m.controlChannels := by
  refine h.invariant (I := fun history m =>
    ∀ c ∈ eligible history, c ∈ m.controlChannels) (by simp [eligible]) ?_
  intro history m m' op out hexec hold hstep
  exact ((valid_of_execution hexec).effect hstep).eligible_registered hold

theorem fallsBack_iff (h : Execution (machine β) history m) :
    Execution.EachStep FallsBack history ↔ Execution.EachStep EndsAlone history := by
  refine h.eachStep_iff ?_
  intro older m m' op out hexec hstep
  have hm := valid_of_execution hexec
  have hm' := hm.step hstep
  have hregistered := eligible_registered (hexec.next hstep)
  refine forall_congr' fun hends => ?_
  have hnone := (hm.effect hstep).endsActive hends
  cases heligible : eligible (⟨m, op, out, m'⟩ :: older) with
  | nil => exact iff_of_true hnone rfl
  | cons next rest =>
      refine iff_of_false ?_ (by simp)
      rintro ⟨hactive, -⟩
      have hnext := hregistered next (by rw [heligible]; exact List.mem_cons_self)
      exact hm'.ne_neg_one hnext (hactive.symm.trans hnone)

def endsSecond : List (ServerOp Text) :=
  [.openControlChannel 0 [], .openControlChannel 1 [], .activateConnection 0,
    .activateConnection 1, .deactivateConnection 1]

theorem endsSecond_not_fallsBack :
    ∃ history m, (machine Text).run endsSecond = .ok (history, m) ∧
      ¬ Execution.EachStep FallsBack history := by
  refine ⟨_, _, rfl, ?_⟩
  rintro ⟨hfalls, -⟩
  have htakes : TakesOver 0 _ :=
    hfalls ⟨rfl, Std.ExtTreeMap.contains_iff_mem.mp rfl⟩
  cases htakes.1

theorem fallsBack_iff_endsSecond :
    ∃ history m, (machine Text).run endsSecond = .ok (history, m) ∧
      (Execution.EachStep FallsBack history ↔
        Execution.EachStep EndsAlone history) :=
  ⟨_, _, rfl, fallsBack_iff (Machine.run_execution
    (show (machine Text).run endsSecond = .ok (_, _) from rfl))⟩

end ServerChannelManager

end GBerry.Server
