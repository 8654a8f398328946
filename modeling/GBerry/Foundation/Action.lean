import GBerry.Foundation.Lifecycle

/-!
# Actions

An action changes a state and makes outputs.  Actions are composed as the
statements of a program are, and an invariant of the state and of what was output
so far is kept by a composition when every part keeps it.
-/

namespace GBerry.Foundation

variable {σ ℓ ω ε : Type*}

abbrev Action (σ ω : Type*) := σ → σ × List ω

namespace Action

def skip : Action σ ω := fun s => (s, [])

def emit (output : ω) : Action σ ω := fun s => (s, [output])

def modify (change : σ → σ) : Action σ ω := fun s => (change s, [])

def andThen (first next : Action σ ω) : Action σ ω := fun s =>
  ((next (first s).1).1, (first s).2 ++ (next (first s).1).2)

def times : Nat → Action σ ω → Action σ ω
  | 0, _ => skip
  | n + 1, action => action.andThen (times n action)

def forEach {α : Type*} (action : α → Action σ ω) : List α → Action σ ω
  | [] => skip
  | a :: rest => (action a).andThen (forEach action rest)

section Results

variable {s : σ} {first next : Action σ ω}

@[simp] theorem skip_fst (s : σ) : (skip (ω := ω) s).1 = s := rfl

@[simp] theorem skip_snd (s : σ) : (skip (ω := ω) s).2 = [] := rfl

@[simp] theorem modify_fst (change : σ → σ) (s : σ) :
    (modify (ω := ω) change s).1 = change s := rfl

@[simp] theorem modify_snd (change : σ → σ) (s : σ) :
    (modify (ω := ω) change s).2 = [] := rfl

@[simp] theorem andThen_fst : (first.andThen next s).1 = (next (first s).1).1 := rfl

@[simp] theorem andThen_snd :
    (first.andThen next s).2 = (first s).2 ++ (next (first s).1).2 := rfl

end Results

section Repetitions

variable {P : Action σ ω → Prop}

/-- What composing with an action keeps holds of its repetitions. -/
theorem times_of {action : Action σ ω} (hskip : P skip)
    (handThen : ∀ {next}, P next → P (action.andThen next)) (n : Nat) :
    P (action.times n) := by
  induction n with
  | zero => exact hskip
  | succ n ih => exact handThen ih

theorem forEach_of {α : Type*} {action : α → Action σ ω} (hskip : P skip)
    (handThen : ∀ a {next}, P next → P ((action a).andThen next)) (l : List α) :
    P (forEach action l) := by
  induction l with
  | nil => exact hskip
  | cons a rest ih => exact handThen a ih

end Repetitions

def Keeps (I : σ → List ω → Prop) (action : Action σ ω) : Prop :=
  ∀ s past, I s past → I (action s).1 (past ++ (action s).2)

namespace Keeps

variable {I : σ → List ω → Prop} {first next action : Action σ ω}

theorem skip : Keeps I (skip : Action σ ω) := by
  intro s past h
  rw [skip_fst, skip_snd, List.append_nil]
  exact h

theorem modify {change : σ → σ} (hchange : ∀ s past, I s past → I (change s) past) :
    Keeps I (modify change) := by
  intro s past h
  rw [modify_fst, modify_snd, List.append_nil]
  exact hchange s past h

theorem andThen (hfirst : Keeps I first) (hnext : Keeps I next) :
    Keeps I (first.andThen next) := by
  intro s past h
  have hmiddle := hfirst s past h
  have hlast := hnext _ _ hmiddle
  rwa [List.append_assoc] at hlast

theorem times (haction : Keeps I action) (n : Nat) : Keeps I (action.times n) :=
  times_of skip haction.andThen n

end Keeps

/-- The machine whose steps are actions; it never fails. -/
def machine (init : σ) (action : ℓ → Action σ ω) : Machine σ ℓ ω ε where
  init := init
  step s l := .ok (action l s)

theorem machine_step {init s s' : σ} {action : ℓ → Action σ ω} {l : ℓ} {out : List ω}
    (h : (machine (ε := ε) init action).step s l = .ok (s', out)) :
    s' = (action l s).1 ∧ out = (action l s).2 := by
  simp only [machine, Except.ok.injEq] at h
  rw [h]
  exact ⟨rfl, rfl⟩

/-- The steps of a run, the newest first, and the state it leads to. -/
def traceFrom (action : ℓ → Action σ ω) :
    List (Step σ ℓ ω) × σ → List ℓ → List (Step σ ℓ ω) × σ
  | past, [] => past
  | past, l :: labels =>
      traceFrom action
        (⟨past.2, l, (action l past.2).2, (action l past.2).1⟩ :: past.1,
          (action l past.2).1) labels

def trace (init : σ) (action : ℓ → Action σ ω) (labels : List ℓ) :
    List (Step σ ℓ ω) × σ :=
  traceFrom action ([], init) labels

theorem traceFrom_execution {init : σ} {action : ℓ → Action σ ω} {labels : List ℓ}
    {past : List (Step σ ℓ ω) × σ}
    (h : Execution (machine (ε := ε) init action) past.1 past.2) :
    Execution (machine (ε := ε) init action) (traceFrom action past labels).1
      (traceFrom action past labels).2 := by
  induction labels generalizing past with
  | nil => exact h
  | cons l labels ih => exact ih (h.next rfl)

theorem trace_execution (init : σ) (action : ℓ → Action σ ω) (labels : List ℓ) :
    Execution (machine (ε := ε) init action) (trace init action labels).1
      (trace init action labels).2 := traceFrom_execution .start

end Action

end GBerry.Foundation
