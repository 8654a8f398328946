import GBerry.Foundation.SharedData

/-!
# Value semantics

The objects of a class share their data.  They are constructed, copied, assigned, changed
and destroyed, where an assignment is what the class makes of it: a list of setters, each
of which writes what it reads of the other object.  For the one who reads the objects this
is a store of values (`perform_read`), in which an assignment may lose something.
-/

namespace GBerry.Foundation

variable {ν α κ : Type*}

structure ValueClass (α κ : Type*) where
  /-- What a setter makes of the target, from the source that it reads. -/
  setters : List (α → α → α)
  change : κ → α → α
  /-- No setter reads what a setter before it has written. -/
  self_assigned : ∀ x, setters.foldl (fun y set => set y y) x =
    setters.foldl (fun y set => set x y) x

inductive ValueEvent (ν α κ : Type*)
  | construct (v : ν) (a : α)
  | copy (v w : ν)
  | assign (v w : ν)
  | change (v : ν) (k : κ)
  | destroy (v : ν)
  deriving DecidableEq

namespace ValueEvent

def target : ValueEvent ν α κ → ν
  | construct v _ => v
  | copy v _ => v
  | assign v _ => v
  | change v _ => v
  | destroy v => v

/-- Constructors make new objects, and the other operations use those that live. -/
def Allowed (live : Finset ν) : ValueEvent ν α κ → Prop
  | construct v _ => v ∉ live
  | copy v w => v ∉ live ∧ w ∈ live
  | assign v w => v ∈ live ∧ w ∈ live
  | change v _ => v ∈ live
  | destroy v => v ∈ live

instance [DecidableEq ν] (live : Finset ν) (e : ValueEvent ν α κ) :
    Decidable (e.Allowed live) :=
  match e with
  | construct v _ => inferInstanceAs (Decidable (v ∉ live))
  | copy v w => inferInstanceAs (Decidable (v ∉ live ∧ w ∈ live))
  | assign v w => inferInstanceAs (Decidable (v ∈ live ∧ w ∈ live))
  | change v _ => inferInstanceAs (Decidable (v ∈ live))
  | destroy v => inferInstanceAs (Decidable (v ∈ live))

end ValueEvent

namespace ValueClass

variable (C : ValueClass α κ)

def assigned (x y : α) : α := C.setters.foldl (fun y set => set x y) y

def result (env : ν → Option α) : ValueEvent ν α κ → Option α
  | .construct _ a => some a
  | .copy _ w => env w
  | .assign v w => (env w).bind fun x => (env v).map (C.assigned x)
  | .change v k => (env v).map (C.change k)
  | .destroy _ => none

variable [DecidableEq ν]

/-- A setter reads the source as it is when it is called. -/
def callSetter (v w : ν) (d : SharedData ν α) (set : α → α → α) : SharedData ν α :=
  match d.read w with
  | none => d
  | some x => d.write v (set x)

def assign (v w : ν) (d : SharedData ν α) : SharedData ν α :=
  C.setters.foldl (callSetter v w) d

def perform (d : SharedData ν α) : ValueEvent ν α κ → SharedData ν α
  | .construct v a => d.allocate v a
  | .copy v w => d.share v w
  | .assign v w => C.assign v w d
  | .change v k => d.write v (C.change k)
  | .destroy v => d.release v

def machine (ν : Type*) [DecidableEq ν] :
    Machine (SharedData ν α) (ValueEvent ν α κ) Empty Unit where
  init := .empty
  step d e := if e.Allowed d.live then .ok (C.perform d e, []) else .error ()

section Refinement

variable {C} {d : SharedData ν α} {v w : ν} {x y : α} {e : ValueEvent ν α κ}

theorem foldl_callSetter {source : α → α} (sets : List (α → α → α)) (h : d.WellFormed)
    (hy : d.read v = some y)
    (hsource : ∀ y', Function.update d.read v (some y') w = some (source y')) :
    (sets.foldl (callSetter v w) d).WellFormed ∧
      (sets.foldl (callSetter v w) d).read = Function.update d.read v
        (some (sets.foldl (fun y set => set (source y) y) y)) := by
  induction sets generalizing d y with
  | nil =>
      refine ⟨h, ?_⟩
      rw [List.foldl_nil, List.foldl_nil, ← hy, Function.update_eq_self]
  | cons set sets ih =>
      have hread : d.read w = some (source y) := by
        rw [← hsource y, ← hy, Function.update_eq_self]
      have hcall : callSetter v w d set = d.write v (set (source y)) := by
        rw [callSetter, hread]
      have hlive : v ∈ d.live := by
        by_contra hnot
        rw [(SharedData.read_eq_none_iff h).mpr hnot] at hy
        cases hy
      have hwritten : (d.write v (set (source y))).read =
          Function.update d.read v (some (set (source y) y)) := by
        rw [SharedData.read_write h hlive, hy, Option.map_some]
      obtain ⟨hwell, hrest⟩ := ih (SharedData.write_wellFormed h hlive)
        (by rw [hwritten, Function.update_self])
        (fun y' => by rw [hwritten, Function.update_idem, hsource])
      rw [List.foldl_cons, List.foldl_cons, hcall]
      exact ⟨hwell, by rw [hrest, hwritten, Function.update_idem]⟩

theorem assign_spec (h : d.WellFormed) (hy : d.read v = some y) (hx : d.read w = some x) :
    (C.assign v w d).WellFormed ∧
      (C.assign v w d).read = Function.update d.read v (some (C.assigned x y)) := by
  by_cases hw : w = v
  · subst hw
    obtain rfl : y = x := Option.some.inj (hy.symm.trans hx)
    have hsource : ∀ y', Function.update d.read w (some y') w = some (id y') := fun y' =>
      Function.update_self _ _ _
    rw [assigned, ← C.self_assigned]
    exact foldl_callSetter C.setters h hy hsource
  · have hsource : ∀ y', Function.update d.read v (some y') w = some x := fun y' => by
      rw [Function.update_of_ne hw, hx]
    exact foldl_callSetter C.setters h hy hsource

theorem perform_spec (h : d.WellFormed) (hallowed : e.Allowed d.live) :
    (C.perform d e).WellFormed ∧
      (C.perform d e).read = Function.update d.read e.target (C.result d.read e) := by
  cases e with
  | construct v a =>
      exact ⟨SharedData.allocate_wellFormed h hallowed, SharedData.read_allocate h⟩
  | copy v w =>
      obtain ⟨hv, hw⟩ := hallowed
      exact ⟨SharedData.share_wellFormed h hv hw, SharedData.read_share hw⟩
  | assign v w =>
      obtain ⟨target, -, hy⟩ := SharedData.read_of_live h hallowed.1
      obtain ⟨source, -, hx⟩ := SharedData.read_of_live h hallowed.2
      obtain ⟨hwell, hread⟩ := C.assign_spec h hy hx
      refine ⟨hwell, ?_⟩
      rw [perform, hread, result, hx, hy]
      rfl
  | change v k =>
      exact ⟨SharedData.write_wellFormed h hallowed, SharedData.read_write h hallowed⟩
  | destroy v =>
      exact ⟨SharedData.release_wellFormed h hallowed, SharedData.read_release⟩

theorem machine_step {d' : SharedData ν α} {out : List Empty}
    (h : (C.machine ν).step d e = .ok (d', out)) :
    e.Allowed d.live ∧ d' = C.perform d e := by
  simp only [machine] at h
  split at h
  · rename_i hallowed
    cases h
    exact ⟨hallowed, rfl⟩
  · cases h

theorem execution_wellFormed {history : List (Step (SharedData ν α) (ValueEvent ν α κ) Empty)}
    (h : Execution (C.machine ν) history d) : d.WellFormed := by
  refine h.state_invariant SharedData.empty_wellFormed ?_
  intro d d' e out hwell hstep
  obtain ⟨hallowed, rfl⟩ := machine_step hstep
  exact (perform_spec hwell hallowed).1

end Refinement

section Semantics

variable (Same Good : α → α → Prop)

/--
An event changes its target only, a copy is its original, and a target is as its source
was before the assignment.
-/
structure Semantics (st : Step (SharedData ν α) (ValueEvent ν α κ) Empty) : Prop where
  frame : ∀ u, u ≠ st.label.target → st.post.read u = st.pre.read u
  copied : ∀ v w, st.label = .copy v w → st.post.read v = st.pre.read w
  assigned : ∀ v w x, st.label = .assign v w → st.pre.read w = some x →
    ∃ y, st.post.read v = some y ∧ Same x y

def GoodAssignment (st : Step (SharedData ν α) (ValueEvent ν α κ) Empty) : Prop :=
  ∀ v w x y, st.label = .assign v w → st.pre.read w = some x → st.pre.read v = some y →
    Good x y

variable {C Same Good} {d : SharedData ν α}
  {history : List (Step (SharedData ν α) (ValueEvent ν α κ) Empty)}

theorem semantics_iff (hsame : ∀ x y, Same x (C.assigned x y) ↔ Good x y)
    (h : Execution (C.machine ν) history d) :
    (∀ st ∈ history, Semantics Same st) ↔ ∀ st ∈ history, GoodAssignment Good st := by
  rw [← Execution.eachStep_const, ← Execution.eachStep_const]
  refine h.eachStep_iff ?_
  intro older d d' e out hbefore hstep
  have hwell := execution_wellFormed hbefore
  obtain ⟨hallowed, rfl⟩ := machine_step hstep
  have hread := (perform_spec (C := C) hwell hallowed).2
  constructor
  · rintro hsem v w x y (rfl : e = .assign v w) hx hy
    obtain ⟨y', hy', hsame'⟩ := hsem.assigned v w x rfl hx
    rw [hread, ValueEvent.target, Function.update_self, result, hx, hy] at hy'
    obtain rfl : C.assigned x y = y' := Option.some.inj hy'
    exact (hsame x y).mp hsame'
  · intro hgood
    refine ⟨?_, ?_, ?_⟩
    · intro u hu
      exact (congrFun hread u).trans (Function.update_of_ne hu _ _)
    · rintro v w (rfl : e = .copy v w)
      exact (congrFun hread v).trans (Function.update_self _ _ _)
    · rintro v w x (rfl : e = .assign v w) hx
      obtain ⟨target, -, hy⟩ := SharedData.read_of_live hwell hallowed.1
      refine ⟨C.assigned x target.value, ?_, (hsame x _).mpr (hgood v w x _ rfl hx hy)⟩
      rw [hread, ValueEvent.target, Function.update_self, result, hx, hy]
      rfl

/-- The assignments of a class that copies all that is read lose nothing. -/
theorem semantics_of_same (hsame : ∀ x y, Same x (C.assigned x y))
    (h : Execution (C.machine ν) history d) : ∀ st ∈ history, Semantics Same st := by
  have hiff := semantics_iff (fun x y => iff_of_true (hsame x y) trivial) h
  exact hiff.mpr fun _ _ _ _ _ _ _ _ _ => trivial

end Semantics

end ValueClass

end GBerry.Foundation
