import GBerry.Foundation.Lifecycle
import Mathlib.Data.List.Chain

/-!
# Flags that are reported when they change

The reports of such a flag alternate, and the last one is the value of the flag.
-/

namespace GBerry.Foundation

/-- The first report is `true`, and no two reports in a row agree. -/
def Alternates (reports : List Bool) : Prop := (false :: reports).IsChain (· ≠ ·)

def report (before after : Bool) : List Bool :=
  if before = after then [] else [after]

@[simp] theorem report_self (flag : Bool) : report flag flag = [] := if_pos rfl

def reported (reports : List Bool) : Bool := reports.getLastD false

section Reports

variable {reports : List Bool}

theorem reported_append (after : Bool) :
    reported (reports ++ report (reported reports) after) = after := by
  unfold report
  split
  · rename_i heq
    rw [List.append_nil, heq]
  · simp [reported, List.getLastD_eq_getLast?]

theorem Alternates.append (h : Alternates reports) (after : Bool) :
    Alternates (reports ++ report (reported reports) after) := by
  unfold report
  split
  · rw [List.append_nil]
    exact h
  · rename_i hne
    unfold Alternates
    rw [← List.cons_append]
    refine List.isChain_append.mpr ⟨h, .singleton _, ?_⟩
    intro last hlast first hfirst
    simp only [List.head?_cons, Option.mem_def, Option.some.injEq] at hfirst
    subst hfirst
    have heq : last = reported reports := by
      unfold reported
      rw [List.getLastD_eq_getLast?]
      cases hreports : reports.getLast? with
      | none =>
          rw [List.getLast?_eq_none_iff] at hreports
          subst hreports
          simpa using hlast.symm
      | some value =>
          rw [List.getLast?_cons, hreports] at hlast
          simpa using hlast.symm
    rw [heq]
    exact hne

theorem Alternates.of_append {later : List Bool} (h : Alternates (reports ++ later)) :
    Alternates reports := by
  unfold Alternates at h ⊢
  rw [← List.cons_append] at h
  exact h.left_of_append

theorem not_alternates_repeated : ¬ Alternates (reports ++ [reported reports]) := by
  intro h
  unfold Alternates at h
  rw [← List.cons_append] at h
  refine (List.isChain_append.mp h).2.2 (reported reports) ?_ _ rfl rfl
  unfold reported
  rw [List.getLastD_eq_getLast?, List.getLast?_cons]
  rfl

end Reports

/--
When a step reports the flag as it should exactly if it meets a condition, and
otherwise reports it once more, the reports of a run alternate exactly when all
steps meet the condition.
-/
theorem execution_alternates_iff {σ ℓ ω ε : Type*} {M : Machine σ ℓ ω ε} {flag : σ → Bool}
    {tells : ω → Option Bool} {C : Step σ ℓ ω → Prop} {history : List (Step σ ℓ ω)} {s : σ}
    (hinit : flag M.init = false)
    (hreport : ∀ {s s' : σ} {l : ℓ} {out : List ω}, M.step s l = .ok (s', out) →
      C ⟨s, l, out, s'⟩ → out.filterMap tells = report (flag s) (flag s'))
    (hrepeat : ∀ {s s' : σ} {l : ℓ} {out : List ω}, M.step s l = .ok (s', out) →
      ¬ C ⟨s, l, out, s'⟩ → out.filterMap tells = [flag s])
    (h : Execution M history s) :
    Alternates ((outputs history).filterMap tells) ↔
      Execution.EachStep (fun _ st => C st) history := by
  have hboth : (Alternates ((outputs history).filterMap tells) ↔
      Execution.EachStep (fun _ st => C st) history) ∧
      (Execution.EachStep (fun _ st => C st) history →
        reported ((outputs history).filterMap tells) = flag s) := by
    refine h.invariant (I := fun history s =>
      (Alternates ((outputs history).filterMap tells) ↔
        Execution.EachStep (fun _ st => C st) history) ∧
      (Execution.EachStep (fun _ st => C st) history →
        reported ((outputs history).filterMap tells) = flag s)) ?_ ?_
    · exact ⟨iff_of_true (.singleton _) trivial, fun _ => hinit.symm⟩
    · intro history s s' l out _ ⟨hiff, hreported⟩ hs
      simp only [outputs, List.filterMap_append, Execution.EachStep]
      refine ⟨⟨?_, ?_⟩, ?_⟩
      · intro halternates
        have hold := hiff.mp halternates.of_append
        refine ⟨?_, hold⟩
        by_contra hviolated
        rw [hrepeat hs hviolated, ← hreported hold] at halternates
        exact not_alternates_repeated halternates
      · rintro ⟨hmeets, hold⟩
        rw [hreport hs hmeets, ← hreported hold]
        exact (hiff.mpr hold).append _
      · rintro ⟨hmeets, hold⟩
        rw [hreport hs hmeets, ← hreported hold]
        exact reported_append _
  exact hboth.1

/--
When each step of an execution reports the flag if it changes it, and is silent about
it otherwise, the reports alternate and tell the flag.
-/
theorem execution_reports_of_execution {σ ℓ ω ε : Type*} {M : Machine σ ℓ ω ε}
    (flag : σ → Bool) {tells : ω → Option Bool} {history : List (Step σ ℓ ω)} {s : σ}
    (hinit : flag M.init = false)
    (hstep : ∀ {older : List (Step σ ℓ ω)} {s s' : σ} {l : ℓ} {out : List ω},
      Execution M older s → M.step s l = .ok (s', out) →
      out.filterMap tells = report (flag s) (flag s'))
    (h : Execution M history s) :
    Alternates ((outputs history).filterMap tells) ∧
      reported ((outputs history).filterMap tells) = flag s := by
  refine h.invariant (I := fun history s =>
    Alternates ((outputs history).filterMap tells) ∧
      reported ((outputs history).filterMap tells) = flag s) ?_ ?_
  · exact ⟨.singleton _, hinit.symm⟩
  · intro history s s' l out hexec ⟨halternates, hreported⟩ hs
    simp only [outputs, List.filterMap_append]
    rw [hstep hexec hs, ← hreported]
    exact ⟨halternates.append _, reported_append _⟩

theorem execution_reports {σ ℓ ω ε : Type*} {M : Machine σ ℓ ω ε} {flag : σ → Bool}
    {tells : ω → Option Bool} {history : List (Step σ ℓ ω)} {s : σ}
    (hinit : flag M.init = false)
    (hstep : ∀ {s s' : σ} {l : ℓ} {out : List ω}, M.step s l = .ok (s', out) →
      out.filterMap tells = report (flag s) (flag s'))
    (h : Execution M history s) :
    Alternates ((outputs history).filterMap tells) ∧
      reported ((outputs history).filterMap tells) = flag s :=
  execution_reports_of_execution flag hinit (fun _ hs => hstep hs) h

end GBerry.Foundation
