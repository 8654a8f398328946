import Mathlib.Order.Defs.LinearOrder
import Mathlib.Order.Lattice
import Mathlib.Data.List.GetD

/-!
# The lexicographic order of padded lists

Lists of different lengths are compared as if the shorter one went on with a
fixed element.
-/

namespace GBerry.Foundation

variable {α : Type} [LinearOrder α] {pad : α}

/-- At the first place where the padded lists differ, the left one is greater. -/
def PaddedGreater (pad : α) (l l' : List α) : Prop :=
  ∃ i, (∀ j < i, l.getD j pad = l'.getD j pad) ∧ l'.getD i pad < l.getD i pad

namespace PaddedGreater

theorem trans {l₁ l₂ l₃ : List α} (h : PaddedGreater pad l₁ l₂)
    (h' : PaddedGreater pad l₂ l₃) : PaddedGreater pad l₁ l₃ := by
  obtain ⟨i, hagree, hgreater⟩ := h
  obtain ⟨i', hagree', hgreater'⟩ := h'
  rcases lt_trichotomy i i' with hlt | rfl | hlt
  · refine ⟨i, fun j hj => ?_, ?_⟩
    · rw [hagree j hj, hagree' j (hj.trans hlt)]
    · rw [← hagree' i hlt]
      exact hgreater
  · refine ⟨i, fun j hj => ?_, hgreater'.trans hgreater⟩
    rw [hagree j hj, hagree' j hj]
  · refine ⟨i', fun j hj => ?_, ?_⟩
    · rw [hagree j (hj.trans hlt), hagree' j hj]
    · rw [hagree i' hlt]
      exact hgreater'

theorem congr {l₁ l₂ l₁' l₂' : List α} (h : ∀ i, l₁.getD i pad = l₁'.getD i pad)
    (h' : ∀ i, l₂.getD i pad = l₂'.getD i pad) :
    PaddedGreater pad l₁ l₂ ↔ PaddedGreater pad l₁' l₂' := by
  unfold PaddedGreater
  simp only [h, h']

theorem cons_iff (a b : α) (l l' : List α) :
    PaddedGreater pad (a :: l) (b :: l') ↔
      b < a ∨ a = b ∧ PaddedGreater pad l l' := by
  constructor
  · rintro ⟨i, hagree, hgreater⟩
    cases i with
    | zero => exact .inl (by simpa using hgreater)
    | succ i =>
        refine .inr ⟨by simpa using hagree 0 (by omega), i, fun j hj => ?_, ?_⟩
        · simpa using hagree (j + 1) (by omega)
        · simpa using hgreater
  · rintro (hgreater | ⟨rfl, i, hagree, hgreater⟩)
    · exact ⟨0, fun j hj => absurd hj (Nat.not_lt_zero j), by simpa using hgreater⟩
    · refine ⟨i + 1, fun j hj => ?_, by simpa using hgreater⟩
      cases j with
      | zero => simp
      | succ j => simpa using hagree j (by omega)

section

variable (hpad : ∀ a : α, pad ≤ a)

include hpad

theorem not_nil_left (l : List α) : ¬ PaddedGreater pad [] l := by
  rintro ⟨i, -, hgreater⟩
  rw [List.getD_nil] at hgreater
  exact absurd hgreater (not_lt.mpr (hpad _))

theorem nil_right_iff (l : List α) :
    PaddedGreater pad l [] ↔ ∃ a ∈ l, a ≠ pad := by
  induction l with
  | nil =>
      refine iff_of_false (not_nil_left hpad []) ?_
      rintro ⟨a, ha, -⟩
      cases ha
  | cons a l ih =>
      have hpadded : PaddedGreater pad (a :: l) [] ↔ PaddedGreater pad (a :: l) [pad] :=
        congr (fun i => rfl) fun i => by cases i <;> simp
      rw [hpadded, cons_iff, ih, lt_iff_le_and_ne]
      simp only [hpad a, true_and, List.mem_cons, exists_eq_or_imp, ne_comm (a := pad)]
      by_cases ha : a = pad
      · simp [ha]
      · simp [ha]

end

end PaddedGreater

end GBerry.Foundation
