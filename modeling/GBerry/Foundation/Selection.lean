import Mathlib.Data.List.Basic
import Mathlib.Data.List.Induction

/-!
# Selection in one pass

A pass over a list keeps the first element until a better one comes.  When
being better is irreflexive and transitive on the list, no element is better
than the one that is kept to the end.
-/

namespace GBerry.Foundation

variable {α : Type} (better : α → α → Bool)

def keepBetter : Option α → α → Option α
  | none, x => some x
  | some kept, x => if better x kept then some x else some kept

def selectBest (l : List α) : Option α := l.foldl (keepBetter better) none

section

variable {better} {l : List α}

theorem selectBest_concat (x : α) :
    selectBest better (l ++ [x]) = keepBetter better (selectBest better l) x := by
  rw [selectBest, List.foldl_append]
  rfl

theorem keepBetter_cases {kept : Option α} {x best : α}
    (h : keepBetter better kept x = some best) :
    (best = x ∧ ∀ y ∈ kept, better x y = true) ∨ (kept = some best ∧ better x best = false) := by
  cases kept with
  | none =>
      refine .inl ⟨(Option.some.inj h).symm, fun y hy => ?_⟩
      cases hy
  | some y =>
      cases hbetter : better x y with
      | true =>
          simp only [keepBetter, hbetter, if_true, Option.some.injEq] at h
          refine .inl ⟨h.symm, fun y' hy' => ?_⟩
          rw [Option.mem_some_iff] at hy'
          rwa [← hy']
      | false =>
          simp only [keepBetter, hbetter, Bool.false_eq_true, if_false, Option.some.injEq] at h
          subst h
          exact .inr ⟨rfl, hbetter⟩

theorem selectBest_eq_none_iff : selectBest better l = none ↔ l = [] := by
  induction l using List.reverseRecOn with
  | nil => exact iff_of_true rfl rfl
  | append_singleton l x ih =>
      rw [selectBest_concat]
      refine iff_of_false ?_ (by simp)
      cases selectBest better l with
      | none => nofun
      | some kept => cases hbetter : better x kept <;> simp [keepBetter, hbetter]

theorem selectBest_mem {best : α} (h : selectBest better l = some best) : best ∈ l := by
  induction l using List.reverseRecOn with
  | nil => cases h
  | append_singleton l x ih =>
      rw [selectBest_concat] at h
      rcases keepBetter_cases h with ⟨rfl, -⟩ | ⟨hkept, -⟩
      · simp
      · exact List.mem_append_left _ (ih hkept)

/-- Nothing in the list is better than what was selected. -/
theorem selectBest_maximal (hirrefl : ∀ x ∈ l, better x x = false)
    (htrans : ∀ x ∈ l, ∀ y ∈ l, ∀ z ∈ l, better x y = true → better y z = true →
      better x z = true)
    {best : α} (h : selectBest better l = some best) :
    ∀ x ∈ l, better x best = false := by
  induction l using List.reverseRecOn generalizing best with
  | nil => cases h
  | append_singleton l x ih =>
      have hmem : ∀ y ∈ l, y ∈ l ++ [x] := fun y hy => List.mem_append_left _ hy
      have hx : x ∈ l ++ [x] := by simp
      have hrest {best : α} (h : selectBest better l = some best) :
          ∀ y ∈ l, better y best = false :=
        ih (fun y hy => hirrefl y (hmem y hy))
          (fun a ha b hb c hc => htrans a (hmem a ha) b (hmem b hb) c (hmem c hc)) h
      rw [selectBest_concat] at h
      intro y hy
      rw [List.mem_append, List.mem_singleton] at hy
      rcases keepBetter_cases h with ⟨rfl, hbeats⟩ | ⟨hkept, hworse⟩
      · rcases hy with hy | rfl
        · -- what beats the new element would have beaten the old one
          cases hold : selectBest better l with
          | none =>
              rw [selectBest_eq_none_iff.mp hold] at hy
              cases hy
          | some kept =>
              have hkept := selectBest_mem hold
              cases hbetter : better y best with
              | false => rfl
              | true =>
                  have hbeaten := htrans y (hmem y hy) best hx kept (hmem kept hkept) hbetter
                    (hbeats kept (by rw [hold]; rfl))
                  rw [hrest hold y hy] at hbeaten
                  cases hbeaten
        · exact hirrefl _ hx
      · rcases hy with hy | rfl
        · exact hrest hkept y hy
        · exact hworse

end

end GBerry.Foundation
