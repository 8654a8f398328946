import Mathlib.Data.List.Basic

/-!
# Loops

A `while` loop, run with some fuel: it has no value as long as the fuel is too little
for it, or when its body has none.  A variant that each pass makes smaller bounds the
fuel that it takes.
-/

namespace GBerry.Foundation

variable {σ : Type*}

def whileLoop (cond : σ → Bool) (body : σ → Option σ) : Nat → σ → Option σ
  | 0, _ => none
  | fuel + 1, s =>
      if cond s then
        match body s with
        | none => none
        | some s' => whileLoop cond body fuel s'
      else some s

section

variable {cond : σ → Bool} {body body' : σ → Option σ} {s result : σ} {fuel fuel' : Nat}

/-- More fuel does not change the result. -/
theorem whileLoop_mono (hbody : ∀ s s', body s = some s' → body' s = some s')
    (h : whileLoop cond body fuel s = some result) (hle : fuel ≤ fuel') :
    whileLoop cond body' fuel' s = some result := by
  induction fuel generalizing s fuel' with
  | zero => cases h
  | succ fuel ih =>
      obtain ⟨more, rfl⟩ := Nat.exists_eq_add_of_le' hle
      rw [whileLoop] at h
      rw [← Nat.add_assoc, whileLoop]
      split at h
      · rename_i hcond
        rw [if_pos hcond]
        split at h
        · cases h
        · rename_i s' hs'
          rw [hbody s s' hs']
          exact ih h (Nat.le_add_left _ _)
      · rename_i hcond
        rw [if_neg hcond]
        exact h

/-- An invariant and a variant: the loop ends, and the invariant holds at its end. -/
theorem whileLoop_total {I : σ → Prop} (variant : σ → Nat)
    (hbody : ∀ s, I s → cond s = true → ∃ s', body s = some s' ∧ I s' ∧ variant s' < variant s)
    (hs : I s) (hfuel : variant s < fuel) :
    ∃ s', whileLoop cond body fuel s = some s' ∧ I s' ∧ cond s' = false := by
  induction fuel generalizing s with
  | zero => cases hfuel
  | succ fuel ih =>
      rw [whileLoop]
      cases hcond : cond s with
      | false => exact ⟨s, rfl, hs, hcond⟩
      | true =>
          obtain ⟨s', hs', hI, hlt⟩ := hbody s hs hcond
          rw [if_pos rfl, hs']
          exact ih hI (Nat.lt_of_lt_of_le hlt (Nat.le_of_lt_succ hfuel))

end

end GBerry.Foundation
