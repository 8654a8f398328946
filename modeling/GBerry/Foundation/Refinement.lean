import GBerry.Foundation.Lifecycle

/-!
# Refinement of machines

A step of a concrete machine may take any number of steps of an abstract one,
and has to make the same outputs.  What the abstract machine never does, the
concrete one does not do either.
-/

namespace GBerry.Foundation

variable {σ τ ℓ ℓ' ω ω' ε ε' : Type*}

section Observation

variable (see : ℓ → List ω → List ω')

/-- The machine for someone who sees something else of a step than its outputs. -/
def Machine.observe (M : Machine σ ℓ ω ε) : Machine σ ℓ ω' ε where
  init := M.init
  step s l :=
    match M.step s l with
    | .error e => .error e
    | .ok (s', out) => .ok (s', see l out)

def Step.observe (st : Step σ ℓ ω) : Step σ ℓ ω' := ⟨st.pre, st.label, see st.label st.out, st.post⟩

variable {see} {M : Machine σ ℓ ω ε} {history : List (Step σ ℓ ω)} {s s' : σ} {l : ℓ}

theorem Machine.observe_ok {out : List ω'} (h : (M.observe see).step s l = .ok (s', out)) :
    ∃ out', M.step s l = .ok (s', out') ∧ out = see l out' := by
  simp only [observe] at h
  split at h
  · cases h
  · rename_i s'' out' hstep
    cases h
    exact ⟨out', hstep, rfl⟩

theorem Execution.observe (h : Execution M history s) :
    Execution (M.observe see) (history.map (Step.observe see)) s := by
  induction h with
  | start => exact .start
  | next _ hstep ih => exact ih.next (by simp only [Machine.observe, hstep])

end Observation

inductive Machine.Runs (N : Machine τ ℓ ω ε) : τ → List ω → τ → Prop
  | refl (t : τ) : Runs N t [] t
  | next {t t' t'' : τ} {l : ℓ} {out later : List ω} :
      N.step t l = .ok (t', out) → Runs N t' later t'' → Runs N t (out ++ later) t''

namespace Machine.Runs

variable {N : Machine τ ℓ ω ε} {t t' t'' : τ} {out later : List ω}

theorem single {l : ℓ} (h : N.step t l = .ok (t', out)) : N.Runs t out t' := by
  have hrun := next h (refl t')
  rwa [List.append_nil] at hrun

theorem trans (h : N.Runs t out t') (h' : N.Runs t' later t'') :
    N.Runs t (out ++ later) t'' := by
  induction h with
  | refl => exact h'
  | next hstep _ ih =>
      rw [List.append_assoc]
      exact .next hstep (ih h')

theorem execution {history : List (Step τ ℓ ω)} (h : N.Runs t out t')
    (hbefore : Execution N history t) :
    ∃ history', Execution N history' t' ∧ outputs history' = outputs history ++ out := by
  induction h generalizing history with
  | refl => exact ⟨history, hbefore, (List.append_nil _).symm⟩
  | next hstep _ ih =>
      obtain ⟨history', hexec, hout⟩ := ih (hbefore.next hstep)
      refine ⟨history', hexec, ?_⟩
      rw [hout, outputs, List.append_assoc]

end Machine.Runs

namespace Execution

variable {M : Machine σ ℓ ω ε} {N : Machine τ ℓ' ω ε'} {R : σ → τ → Prop}
  {C : Step σ ℓ ω → Prop} {history : List (Step σ ℓ ω)} {s : σ}

/--
The steps that meet a condition are simulated: an execution of the concrete
machine has the outputs of an execution of the abstract one, and leads to a
related state.
-/
theorem simulate (hinit : R M.init N.init)
    (hstep : ∀ {s s' : σ} {l : ℓ} {out : List ω} {t : τ}, R s t →
      M.step s l = .ok (s', out) → C ⟨s, l, out, s'⟩ → ∃ t', N.Runs t out t' ∧ R s' t')
    (h : Execution M history s) (hall : ∀ st ∈ history, C st) :
    ∃ history' t, Execution N history' t ∧ R s t ∧ outputs history' = outputs history := by
  induction h with
  | start => exact ⟨[], N.init, .start, hinit, rfl⟩
  | next _ hs ih =>
      rw [List.forall_mem_cons] at hall
      obtain ⟨history', t, hexec, hrelated, hout⟩ := ih hall.2
      obtain ⟨t', hruns, hrelated'⟩ := hstep hrelated hs hall.1
      obtain ⟨history'', hexec', hout'⟩ := hruns.execution hexec
      refine ⟨history'', t', hexec', hrelated', ?_⟩
      rw [hout', hout, outputs]

end Execution

end GBerry.Foundation
