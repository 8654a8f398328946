import Mathlib.Data.List.Basic

/-!
# Climbing in bounded steps

A number that grows in steps of at most `bound`, with the values that it takes on its
way.  Such a climb cannot pass a range that is as long as its steps without a value in
it.
-/

namespace GBerry.Foundation

/-- From `a` to `b`, over the values that are listed. -/
inductive Climb (bound : Nat) : Nat → List Nat → Nat → Prop
  | stay {a : Nat} : Climb bound a [] a
  | step {a b c : Nat} {values : List Nat} (hlt : a < b) (hle : b ≤ a + bound)
      (hrest : Climb bound b values c) : Climb bound a (b :: values) c

namespace Climb

variable {bound a b c : Nat} {values values' : List Nat}

theorem trans (h : Climb bound a values b) (h' : Climb bound b values' c) :
    Climb bound a (values ++ values') c := by
  induction h with
  | stay => exact h'
  | step hlt hle _ ih => exact .step hlt hle (ih h')

theorem le (h : Climb bound a values b) : a ≤ b := by
  induction h with
  | stay => exact Nat.le_refl _
  | step hlt _ _ ih => exact Nat.le_trans (Nat.le_of_lt hlt) ih

theorem mem_range (h : Climb bound a values b) {r : Nat} (hr : r ∈ values) :
    a < r ∧ r ≤ b := by
  induction h with
  | stay => cases hr
  | step hlt _ hrest ih =>
      rcases List.mem_cons.mp hr with rfl | hmem
      · exact ⟨hlt, hrest.le⟩
      · obtain ⟨hlow, hhigh⟩ := ih hmem
        exact ⟨Nat.lt_trans hlt hlow, hhigh⟩

theorem pairwise_le (h : Climb bound a values b) : values.Pairwise (· ≤ ·) := by
  induction h with
  | stay => exact .nil
  | step _ _ hrest ih =>
      exact .cons (fun r hr => Nat.le_of_lt (hrest.mem_range hr).1) ih

theorem getLast? (h : Climb bound a values b) (hlt : a < b) : values.getLast? = some b := by
  induction h with
  | stay => omega
  | @step a b c values _ _ hrest ih =>
      cases hrest with
      | stay => rfl
      | step hlt' hle' hrest' =>
          rw [List.getLast?_cons_cons]
          exact ih (Nat.lt_of_lt_of_le hlt' hrest'.le)

theorem exists_reached (h : Climb bound a values b) {k : Nat} (hlow : a < k) (hhigh : k ≤ b) :
    ∃ r ∈ values, k ≤ r ∧ r < k + bound := by
  induction h with
  | stay => omega
  | @step a b c values hlt hle _ ih =>
      by_cases hreached : k ≤ b
      · exact ⟨b, List.mem_cons_self, hreached, by omega⟩
      · obtain ⟨r, hr, hrange⟩ := ih (by omega) hhigh
        exact ⟨r, List.mem_cons_of_mem b hr, hrange⟩

end Climb

end GBerry.Foundation
