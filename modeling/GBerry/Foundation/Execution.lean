import Mathlib.Data.List.Basic

/-!
# Executions of labelled machines

A machine answers every label with a new state and the list of its outputs, or
fails.  An execution keeps the steps it made, the newest first, so that a
property of the past is a property of a list.  The rules below are the only
inductions over executions in this development.
-/

namespace GBerry.Foundation

variable {σ ℓ ω ε : Type*}

structure Machine (σ ℓ ω ε : Type*) where
  init : σ
  step : σ → ℓ → Except ε (σ × List ω)

structure Step (σ ℓ ω : Type*) where
  pre : σ
  label : ℓ
  out : List ω
  post : σ

/-- The steps made so far, the newest first, and the state they led to. -/
inductive Execution (M : Machine σ ℓ ω ε) : List (Step σ ℓ ω) → σ → Prop
  | start : Execution M [] M.init
  | next {history : List (Step σ ℓ ω)} {s s' : σ} {l : ℓ} {out : List ω} :
      Execution M history s → M.step s l = .ok (s', out) →
      Execution M (⟨s, l, out, s'⟩ :: history) s'

namespace Machine

def extend (M : Machine σ ℓ ω ε) (past : List (Step σ ℓ ω) × σ) (l : ℓ) :
    Except ε (List (Step σ ℓ ω) × σ) :=
  match M.step past.2 l with
  | .error e => .error e
  | .ok (s', out) => .ok (⟨past.2, l, out, s'⟩ :: past.1, s')

def runFrom (M : Machine σ ℓ ω ε) :
    List (Step σ ℓ ω) × σ → List ℓ → Except ε (List (Step σ ℓ ω) × σ)
  | past, [] => .ok past
  | past, l :: labels =>
      match M.extend past l with
      | .error e => .error e
      | .ok past' => M.runFrom past' labels

def run (M : Machine σ ℓ ω ε) (labels : List ℓ) :
    Except ε (List (Step σ ℓ ω) × σ) :=
  M.runFrom ([], M.init) labels

theorem extend_execution {M : Machine σ ℓ ω ε}
    {past past' : List (Step σ ℓ ω) × σ} {l : ℓ}
    (hpast : Execution M past.1 past.2) (h : M.extend past l = .ok past') :
    Execution M past'.1 past'.2 := by
  unfold extend at h
  cases hstep : M.step past.2 l with
  | error e => simp [hstep] at h
  | ok result =>
      obtain ⟨s', out⟩ := result
      simp only [hstep, Except.ok.injEq] at h
      subst h
      exact .next hpast hstep

theorem runFrom_execution {M : Machine σ ℓ ω ε} {labels : List ℓ}
    {past past' : List (Step σ ℓ ω) × σ}
    (hpast : Execution M past.1 past.2) (h : M.runFrom past labels = .ok past') :
    Execution M past'.1 past'.2 := by
  induction labels generalizing past with
  | nil =>
      simp only [runFrom, Except.ok.injEq] at h
      subst h
      exact hpast
  | cons l labels ih =>
      simp only [runFrom] at h
      cases hextend : M.extend past l with
      | error e => simp [hextend] at h
      | ok middle =>
          simp only [hextend] at h
          exact ih (extend_execution hpast hextend) h

theorem run_execution {M : Machine σ ℓ ω ε} {labels : List ℓ}
    {history : List (Step σ ℓ ω)} {s : σ}
    (h : M.run labels = .ok (history, s)) : Execution M history s := by
  have hrun : M.runFrom ([], M.init) labels = .ok (history, s) := h
  have hexec := runFrom_execution .start hrun
  exact hexec

theorem exists_run {M : Machine σ ℓ ω ε} {labels : List ℓ}
    {check : List (Step σ ℓ ω) → σ → Bool}
    (h : (match M.run labels with
      | .ok (history, s) => check history s
      | .error _ => false) = true) :
    ∃ history s, M.run labels = .ok (history, s) ∧ check history s = true := by
  split at h
  · rename_i history s hrun
    exact ⟨history, s, hrun, h⟩
  · cases h

theorem runFrom_labels {M : Machine σ ℓ ω ε} {labels : List ℓ}
    {past past' : List (Step σ ℓ ω) × σ} (h : M.runFrom past labels = .ok past') :
    past'.1.map Step.label = labels.reverse ++ past.1.map Step.label := by
  induction labels generalizing past with
  | nil =>
      simp only [runFrom, Except.ok.injEq] at h
      simp [h]
  | cons l labels ih =>
      simp only [runFrom, extend] at h
      cases hstep : M.step past.2 l with
      | error e => simp [hstep] at h
      | ok result =>
          simp only [hstep] at h
          rw [ih h]
          simp

theorem run_labels {M : Machine σ ℓ ω ε} {labels : List ℓ}
    {history : List (Step σ ℓ ω)} {s : σ} (h : M.run labels = .ok (history, s)) :
    history.map Step.label = labels.reverse := by
  simpa using runFrom_labels h

theorem runFrom_error {M : Machine σ ℓ ω ε} {labels : List ℓ}
    {past : List (Step σ ℓ ω) × σ} {e : ε} (h : M.runFrom past labels = .error e) :
    ∃ before l after past', labels = before ++ l :: after ∧
      M.runFrom past before = .ok past' ∧ M.step past'.2 l = .error e := by
  induction labels generalizing past with
  | nil => simp [runFrom] at h
  | cons l labels ih =>
      cases hstep : M.step past.2 l with
      | error e' =>
          simp only [runFrom, extend, hstep, Except.error.injEq] at h
          subst h
          exact ⟨[], l, labels, past, rfl, rfl, hstep⟩
      | ok result =>
          simp only [runFrom, extend, hstep] at h
          obtain ⟨before, l', after, past', heq, hrun, hfail⟩ := ih h
          refine ⟨l :: before, l', after, past', by simp [heq], ?_, hfail⟩
          simpa only [runFrom, extend, hstep] using hrun

/-- A run that fails fails at one of its labels, after a run that did not. -/
theorem run_error {M : Machine σ ℓ ω ε} {labels : List ℓ} {e : ε}
    (h : M.run labels = .error e) :
    ∃ before l after history s, labels = before ++ l :: after ∧
      M.run before = .ok (history, s) ∧ M.step s l = .error e := by
  obtain ⟨before, l, after, past', heq, hrun, hfail⟩ := runFrom_error h
  exact ⟨before, l, after, past'.1, past'.2, heq, hrun, hfail⟩

theorem runFrom_append {M : Machine σ ℓ ω ε} {before after : List ℓ}
    {past middle : List (Step σ ℓ ω) × σ} (h : M.runFrom past before = .ok middle) :
    M.runFrom past (before ++ after) = M.runFrom middle after := by
  induction before generalizing past with
  | nil =>
      simp only [runFrom, Except.ok.injEq] at h
      rw [h]
      rfl
  | cons l before ih =>
      simp only [runFrom, List.cons_append] at h ⊢
      cases hextend : M.extend past l with
      | error e => simp [hextend] at h
      | ok past' =>
          simp only [hextend] at h ⊢
          exact ih h

def AtEach (M : Machine σ ℓ ω ε) (P : List (Step σ ℓ ω) → σ → ℓ → Prop)
    (labels : List ℓ) : Prop :=
  ∀ before l after history s, labels = before ++ l :: after →
    M.run before = .ok (history, s) → P history s l

theorem atEach_congr {M : Machine σ ℓ ω ε}
    {P Q : List (Step σ ℓ ω) → σ → ℓ → Prop} (labels : List ℓ)
    (h : ∀ {history s l}, Execution M history s → (P history s l ↔ Q history s l)) :
    M.AtEach P labels ↔ M.AtEach Q labels := by
  constructor
  · intro hP before l after history s hlabels hrun
    exact (h (run_execution hrun)).mp (hP before l after history s hlabels hrun)
  · intro hQ before l after history s hlabels hrun
    exact (h (run_execution hrun)).mpr (hQ before l after history s hlabels hrun)

/-- A run does not fail exactly when none of its steps does. -/
theorem run_ok_iff {M : Machine σ ℓ ω ε} (labels : List ℓ) :
    (∃ result, M.run labels = .ok result) ↔
      M.AtEach (fun _ s l => ∃ result, M.step s l = .ok result) labels := by
  constructor
  · rintro ⟨result, hresult⟩ before l after history s rfl hbefore
    have hrest : M.runFrom (history, s) (l :: after) = .ok result :=
      (runFrom_append hbefore).symm.trans hresult
    cases hstep : M.step s l with
    | error e => simp [runFrom, extend, hstep] at hrest
    | ok made => exact ⟨made, rfl⟩
  · intro hall
    cases hrun : M.run labels with
    | ok result => exact ⟨result, rfl⟩
    | error e =>
        obtain ⟨before, l, after, history, s, hlabels, hbefore, hfail⟩ := run_error hrun
        obtain ⟨made, hmade⟩ := hall before l after history s hlabels hbefore
        cases hmade.symm.trans hfail

end Machine

namespace Execution

variable {M : Machine σ ℓ ω ε} {history : List (Step σ ℓ ω)} {s : σ}

/-- What holds initially and is kept by every step holds at every moment. -/
theorem invariant {I : List (Step σ ℓ ω) → σ → Prop} (hinit : I [] M.init)
    (hstep : ∀ {history s s' l out}, Execution M history s → I history s →
      M.step s l = .ok (s', out) → I (⟨s, l, out, s'⟩ :: history) s')
    (h : Execution M history s) : I history s := by
  induction h with
  | start => exact hinit
  | next hbefore hs ih => exact hstep hbefore ih hs

theorem state_invariant {I : σ → Prop} (hinit : I M.init)
    (hstep : ∀ {s s' l out}, I s → M.step s l = .ok (s', out) → I s')
    (h : Execution M history s) : I s :=
  h.invariant (I := fun _ s => I s) hinit fun _ hI hs => hstep hI hs

theorem of_append {newer older : List (Step σ ℓ ω)} {st : Step σ ℓ ω}
    (h : Execution M (newer ++ st :: older) s) :
    Execution M older st.pre ∧ M.step st.pre st.label = .ok (st.post, st.out) := by
  induction newer generalizing s with
  | nil =>
      cases h with
      | next hbefore hs => exact ⟨hbefore, hs⟩
  | cons _ newer ih =>
      cases h with
      | next hbefore _ => exact ih hbefore

theorem of_mem (h : Execution M history s) {st : Step σ ℓ ω}
    (hst : st ∈ history) :
    ∃ older, Execution M older st.pre ∧
      M.step st.pre st.label = .ok (st.post, st.out) := by
  obtain ⟨newer, older, rfl⟩ := List.append_of_mem hst
  exact ⟨older, h.of_append⟩

theorem state_unique {s' : σ} (h : Execution M history s)
    (h' : Execution M history s') : s = s' := by
  cases h with
  | start => cases h'; rfl
  | next _ _ => cases h'; rfl

/--
When every step of a machine is one step of another machine, or none, its
executions project to executions of the other machine.
-/
theorem project {τ ℓ' ω' ε' : Type*} {N : Machine τ ℓ' ω' ε'} (part : σ → τ)
    (made : Step σ ℓ ω → Option (Step τ ℓ' ω')) (hinit : part M.init = N.init)
    (hnone : ∀ {s s' l out}, M.step s l = .ok (s', out) →
      made ⟨s, l, out, s'⟩ = none → part s' = part s)
    (hsome : ∀ {s s' l out st}, M.step s l = .ok (s', out) →
      made ⟨s, l, out, s'⟩ = some st → st.pre = part s ∧ st.post = part s' ∧
        N.step st.pre st.label = .ok (st.post, st.out))
    (h : Execution M history s) : Execution N (history.filterMap made) (part s) := by
  induction h with
  | start =>
      rw [hinit]
      exact .start
  | @next history s s' l out _ hs ih =>
      cases hmade : made ⟨s, l, out, s'⟩ with
      | none =>
          rw [List.filterMap_cons_none hmade, hnone hs hmade]
          exact ih
      | some st =>
          obtain ⟨hpre, hpost, hstep⟩ := hsome hs hmade
          obtain ⟨pre, label, out', post⟩ := st
          simp only at hpre hpost hstep
          subst hpre hpost
          rw [List.filterMap_cons_some hmade]
          exact ih.next hstep

/-- `P` at every moment of the past, the present one included. -/
def Always (M : Machine σ ℓ ω ε) (P : List (Step σ ℓ ω) → σ → Prop)
    (history : List (Step σ ℓ ω)) : Prop :=
  ∀ older s, older <:+ history → Execution M older s → P older s

theorem always_nil {P : List (Step σ ℓ ω) → σ → Prop} : Always M P [] ↔ P [] M.init := by
  constructor
  · intro halways
    exact halways [] M.init List.suffix_rfl .start
  · intro hinit older s hsuffix hexec
    obtain rfl := List.suffix_nil.mp hsuffix
    cases hexec
    exact hinit

theorem always_cons {P : List (Step σ ℓ ω) → σ → Prop} {st : Step σ ℓ ω}
    (h : Execution M (st :: history) s) :
    Always M P (st :: history) ↔ P (st :: history) s ∧ Always M P history := by
  constructor
  · intro halways
    exact ⟨halways _ s List.suffix_rfl h, fun older t hsuffix hexec =>
      halways older t (hsuffix.trans (List.suffix_cons _ _)) hexec⟩
  · rintro ⟨hnow, hold⟩ older t hsuffix hexec
    rcases List.suffix_cons_iff.mp hsuffix with rfl | hsuffix
    · obtain rfl := hexec.state_unique h
      exact hnow
    · exact hold older t hsuffix hexec

/--
When a property starts out true and one step keeps it exactly when the step
meets a condition, it holds throughout an execution exactly when all steps meet
the condition.
-/
theorem always_iff {P : List (Step σ ℓ ω) → σ → Prop}
    {C : Step σ ℓ ω → Prop} (hinit : P [] M.init)
    (hstep : ∀ {history s s' l out}, Execution M history s → P history s →
      M.step s l = .ok (s', out) →
      (P (⟨s, l, out, s'⟩ :: history) s' ↔ C ⟨s, l, out, s'⟩))
    (h : Execution M history s) :
    Always M P history ↔ ∀ st ∈ history, C st := by
  induction h with
  | start =>
      rw [always_nil]
      exact iff_of_true hinit (by simp)
  | @next history s s' l out hbefore hs ih =>
      rw [always_cons (hbefore.next hs), List.forall_mem_cons, ← ih]
      constructor
      · rintro ⟨hnow, hold⟩
        have hthen := hold history s List.suffix_rfl hbefore
        exact ⟨(hstep hbefore hthen hs).mp hnow, hold⟩
      · rintro ⟨hmeets, hold⟩
        have hthen := hold history s List.suffix_rfl hbefore
        exact ⟨(hstep hbefore hthen hs).mpr hmeets, hold⟩

/-- The same, of a property that may fail from the start. -/
theorem always_iff_start {P : List (Step σ ℓ ω) → σ → Prop} {C : Step σ ℓ ω → Prop}
    (hstep : ∀ {history s s' l out}, Execution M history s → P history s →
      M.step s l = .ok (s', out) →
      (P (⟨s, l, out, s'⟩ :: history) s' ↔ C ⟨s, l, out, s'⟩))
    (h : Execution M history s) :
    Always M P history ↔ P [] M.init ∧ ∀ st ∈ history, C st := by
  by_cases hinit : P [] M.init
  · rw [always_iff hinit hstep h, and_iff_right hinit]
  · refine iff_of_false ?_ (fun hboth => hinit hboth.1)
    intro halways
    exact hinit (halways [] M.init (List.nil_suffix) .start)

/-- `P` of every step of the past, with what had happened before it. -/
def EachStep (P : List (Step σ ℓ ω) → Step σ ℓ ω → Prop) :
    List (Step σ ℓ ω) → Prop
  | [] => True
  | st :: older => P older st ∧ EachStep P older

theorem eachStep_iff {P C : List (Step σ ℓ ω) → Step σ ℓ ω → Prop}
    (hstep : ∀ {older s s' l out}, Execution M older s →
      M.step s l = .ok (s', out) →
      (P older ⟨s, l, out, s'⟩ ↔ C older ⟨s, l, out, s'⟩))
    (h : Execution M history s) : EachStep P history ↔ EachStep C history := by
  induction h with
  | start => exact Iff.rfl
  | next hbefore hs ih => exact and_congr (hstep hbefore hs) ih

/-- Steps that do what is asked keep the invariant on which the equivalence rests. -/
theorem eachStep_iff_of_invariant {I : List (Step σ ℓ ω) → σ → Prop}
    {P C : List (Step σ ℓ ω) → Step σ ℓ ω → Prop} (hinit : I [] M.init)
    (hstep : ∀ {older s s' l out}, I older s → M.step s l = .ok (s', out) →
      (P older ⟨s, l, out, s'⟩ ↔ C older ⟨s, l, out, s'⟩))
    (hkeep : ∀ {older s s' l out}, I older s → M.step s l = .ok (s', out) →
      P older ⟨s, l, out, s'⟩ → I (⟨s, l, out, s'⟩ :: older) s')
    (h : Execution M history s) : EachStep P history ↔ EachStep C history := by
  suffices hboth : (EachStep P history ↔ EachStep C history) ∧
      (EachStep P history → I history s) from hboth.1
  induction h with
  | start => exact ⟨Iff.rfl, fun _ => hinit⟩
  | next _ hs ih =>
      obtain ⟨hiff, hthen⟩ := ih
      refine ⟨?_, fun hall => hkeep (hthen hall.2) hs hall.1⟩
      constructor
      · intro hall
        exact ⟨(hstep (hthen hall.2) hs).mp hall.1, hiff.mp hall.2⟩
      · intro hall
        have hbefore := hiff.mpr hall.2
        exact ⟨(hstep (hthen hbefore) hs).mpr hall.1, hbefore⟩

theorem eachStep_const {C : Step σ ℓ ω → Prop} :
    EachStep (fun _ st => C st) history ↔ ∀ st ∈ history, C st := by
  induction history with
  | nil => exact iff_of_true trivial (by simp)
  | cons st older ih => rw [EachStep, List.forall_mem_cons, ih]

theorem eachStep_forall {α : Sort*} {P : α → List (Step σ ℓ ω) → Step σ ℓ ω → Prop} :
    EachStep (fun older st => ∀ a, P a older st) history ↔ ∀ a, EachStep (P a) history := by
  induction history with
  | nil => exact iff_of_true trivial fun _ => trivial
  | cons st older ih =>
      simp only [EachStep, ih]
      exact forall_and.symm

/-- Steps that meet a condition keep an invariant, and do what it allows. -/
theorem eachStep_of_invariant {I : σ → Prop}
    {C D : List (Step σ ℓ ω) → Step σ ℓ ω → Prop} (hinit : I M.init)
    (hstep : ∀ {older s s' l out}, Execution M older s → I s →
      M.step s l = .ok (s', out) → C older ⟨s, l, out, s'⟩ →
      I s' ∧ D older ⟨s, l, out, s'⟩)
    (h : Execution M history s) (hall : EachStep C history) : I s ∧ EachStep D history := by
  induction h with
  | start => exact ⟨hinit, trivial⟩
  | next hbefore hs ih =>
      obtain ⟨hI, hD⟩ := ih hall.2
      obtain ⟨hI', hnow⟩ := hstep hbefore hI hs hall.1
      exact ⟨hI', hnow, hD⟩

theorem always_of_eachStep {P : List (Step σ ℓ ω) → σ → Prop}
    {C : List (Step σ ℓ ω) → Step σ ℓ ω → Prop} (hinit : P [] M.init)
    (hstep : ∀ {history s s' l out}, Execution M history s → P history s →
      M.step s l = .ok (s', out) → C history ⟨s, l, out, s'⟩ →
      P (⟨s, l, out, s'⟩ :: history) s')
    (h : Execution M history s) (hall : EachStep C history) : Always M P history := by
  induction h with
  | start => exact always_nil.mpr hinit
  | @next history s s' l out hbefore hs ih =>
      have hold := ih hall.2
      have hthen := hold history s List.suffix_rfl hbefore
      exact (always_cons (hbefore.next hs)).mpr ⟨hstep hbefore hthen hs hall.1, hold⟩

end Execution

/--
The outputs since the newest step that carries the mark, that step's own
outputs included, in the order in which they were made.
-/
def since (mark : Step σ ℓ ω → Bool) : List (Step σ ℓ ω) → List ω
  | [] => []
  | st :: older => if mark st then st.out else since mark older ++ st.out

theorem since_cons_marked {mark : Step σ ℓ ω → Bool} {st : Step σ ℓ ω}
    (h : mark st = true) (older : List (Step σ ℓ ω)) :
    since mark (st :: older) = st.out := by
  simp [since, h]

theorem since_cons_unmarked {mark : Step σ ℓ ω → Bool} {st : Step σ ℓ ω}
    (h : mark st = false) (older : List (Step σ ℓ ω)) :
    since mark (st :: older) = since mark older ++ st.out := by
  simp [since, h]

end GBerry.Foundation
