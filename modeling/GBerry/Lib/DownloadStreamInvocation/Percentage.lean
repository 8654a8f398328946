import GBerry.Lib.DownloadStreamInvocation.Steps

/-!
# Percentages of a 32-bit total

The total that the percentages refer to keeps 32 bits of the announced length.  While
it is 0 or -1 all percentages are 0.  Otherwise they are in range up to some number of
bytes, and a download that gets beyond it has been seen out of range, as the reads are
too small for the percentage to come round again.
-/

namespace GBerry.Lib

open GBerry.Foundation

namespace DownloadStreamInvocationImpl

def Steady (total : Int) (r : Nat) : Prop :=
  total = 0 ∨ total = -1 ∨ (total < -1 ∧ (r : Int) * 100 < -total) ∨
    (0 < total ∧ (r : Int) * 100 < 101 * total)

section Percentage

variable {total : Int} {r r' : Nat}

theorem percentage_special (h : total = 0 ∨ total = -1) : percentage r total = 0 := by
  unfold percentage
  rcases h with rfl | rfl
  · rfl
  · rfl

theorem product_fits (hr : r < 2 ^ 56) :
    ((r : Int) * 100).bmod (2 ^ 64) = (r : Int) * 100 :=
  Int.bmod_eq_of_le (by omega) (by omega)

theorem percentage_pos (hr : r < 2 ^ 56) (hpos : 0 < total) :
    percentage r total = ((r : Int) * 100 / total).bmod (2 ^ 32) := by
  unfold percentage
  rw [if_neg (by omega), if_pos (by omega), product_fits hr,
    Int.tdiv_eq_ediv_of_nonneg (by omega)]

theorem percentage_neg (hr : r < 2 ^ 56) (hneg : total < -1) :
    percentage r total = (-((r : Int) * 100 / -total)).bmod (2 ^ 32) := by
  have hdivide : ((r : Int) * 100).tdiv total = -((r : Int) * 100 / -total) := by
    rw [← Int.tdiv_eq_ediv_of_nonneg (by omega), Int.tdiv_neg, Int.neg_neg]
  unfold percentage
  rw [if_neg (by omega), if_pos (by omega), product_fits hr, hdivide]

theorem percentage_within (hr : r < 2 ^ 56) (hpos : 0 < total)
    (h : (r : Int) * 100 < 101 * total) :
    percentage r total = (r : Int) * 100 / total ∧ 0 ≤ (r : Int) * 100 / total ∧
      (r : Int) * 100 / total ≤ 100 := by
  have hlow : 0 ≤ (r : Int) * 100 / total := Int.ediv_nonneg (by omega) (by omega)
  have hhigh : (r : Int) * 100 / total < 101 := Int.ediv_lt_of_lt_mul hpos h
  refine ⟨?_, hlow, by omega⟩
  rw [percentage_pos hr hpos]
  exact Int.bmod_eq_of_le (by omega) (by omega)

theorem percentage_small (hr : r < 2 ^ 56) (hneg : total < -1)
    (h : (r : Int) * 100 < -total) : percentage r total = 0 := by
  have hzero : (r : Int) * 100 / -total = 0 := Int.ediv_eq_zero_of_lt (by omega) h
  rw [percentage_neg hr hneg, hzero]
  rfl

theorem Steady.of_le (h : Steady total r') (hle : r ≤ r') : Steady total r := by
  unfold Steady at *
  omega

theorem Steady.range (h : Steady total r) (hr : r < 2 ^ 56) :
    0 ≤ percentage r total ∧ percentage r total ≤ 100 := by
  rcases h with hzero | hnone | ⟨hneg, hsmall⟩ | ⟨hpos, hwithin⟩
  · rw [percentage_special (.inl hzero)]
    omega
  · rw [percentage_special (.inr hnone)]
    omega
  · rw [percentage_small hr hneg hsmall]
    omega
  · obtain ⟨heq, hlow, hhigh⟩ := percentage_within hr hpos hwithin
    rw [heq]
    exact ⟨hlow, hhigh⟩

theorem Steady.mono (h : Steady total r') (hr : r' < 2 ^ 56) (hle : r ≤ r') :
    percentage r total ≤ percentage r' total := by
  rcases h with hzero | hnone | ⟨hneg, hsmall⟩ | ⟨hpos, hwithin⟩
  · rw [percentage_special (.inl hzero), percentage_special (.inl hzero)]
  · rw [percentage_special (.inr hnone), percentage_special (.inr hnone)]
  · rw [percentage_small (by omega) hneg (by omega), percentage_small hr hneg hsmall]
  · rw [(percentage_within (r := r) (by omega) hpos (by omega)).1,
      (percentage_within hr hpos hwithin).1]
    exact Int.ediv_le_ediv hpos (by omega)

theorem percentage_beyond (hr : r < 2 ^ 56) (hlow : -2 ^ 31 ≤ total) (hhigh : total < 2 ^ 31)
    (h : (0 < total ∧ 101 * total ≤ (r : Int) * 100 ∧
        (r : Int) * 100 < 101 * total + 2000000) ∨
      (total < -1 ∧ -total ≤ (r : Int) * 100 ∧ (r : Int) * 100 < -total + 2000000)) :
    ¬ (0 ≤ percentage r total ∧ percentage r total ≤ 100) := by
  rcases h with ⟨hpos, hreached, hnear⟩ | ⟨hneg, hreached, hnear⟩
  · have hover : 101 ≤ (r : Int) * 100 / total := Int.le_ediv_of_mul_le hpos hreached
    have hbound : (r : Int) * 100 / total < 2000101 :=
      Int.ediv_lt_of_lt_mul hpos (by omega)
    rw [percentage_pos hr hpos, Int.bmod_eq_of_le (by omega) (by omega)]
    omega
  · have hover : 1 ≤ (r : Int) * 100 / -total :=
      Int.le_ediv_of_mul_le (by omega) (by omega)
    have hbound : (r : Int) * 100 / -total < 2000001 :=
      Int.ediv_lt_of_lt_mul (by omega) (by omega)
    rw [percentage_neg hr hneg, Int.bmod_eq_of_le (by omega) (by omega)]
    omega

end Percentage

section Observed

variable {total : Int} {values : List Nat} {r : Nat}

/-- What is observed while `r` bytes are read is in range and never decreases. -/
theorem steady_iff (h : Climb READ_BUFFER_SIZE 0 values r) (hr : r < 2 ^ 56)
    (hlow : -2 ^ 31 ≤ total) (hhigh : total < 2 ^ 31) :
    ((∀ p ∈ values.map fun k : Nat => percentage k total, 0 ≤ p ∧ p ≤ 100) ∧
      (values.map fun k : Nat => percentage k total).Pairwise (· ≤ ·)) ↔ Steady total r := by
  have hsize : READ_BUFFER_SIZE = 10000 := rfl
  constructor
  · rintro ⟨hrange, -⟩
    by_contra hnot
    have hbeyond : ∃ k, 0 < k ∧ k ≤ r ∧ ∀ v, k ≤ v → v < k + READ_BUFFER_SIZE →
        (0 < total ∧ 101 * total ≤ (v : Int) * 100 ∧ (v : Int) * 100 < 101 * total + 2000000) ∨
          (total < -1 ∧ -total ≤ (v : Int) * 100 ∧ (v : Int) * 100 < -total + 2000000) := by
      unfold Steady at hnot
      by_cases hpos : 0 < total
      · refine ⟨((101 * total + 99) / 100).toNat, by omega, by omega, fun v hv hv' => ?_⟩
        left
        omega
      · refine ⟨((-total + 99) / 100).toNat, by omega, by omega, fun v hv hv' => ?_⟩
        right
        omega
    obtain ⟨k, hk, hkr, hout⟩ := hbeyond
    obtain ⟨v, hv, hreached, hnear⟩ := h.exists_reached hk hkr
    have hsmall := (h.mem_range hv).2
    exact percentage_beyond (by omega) hlow hhigh (hout v hreached hnear)
      (hrange _ (List.mem_map.mpr ⟨v, hv, rfl⟩))
  · intro hsteady
    constructor
    · intro p hp
      obtain ⟨v, hv, rfl⟩ := List.mem_map.mp hp
      have hsmall := (h.mem_range hv).2
      exact (hsteady.of_le hsmall).range (by omega)
    · rw [List.pairwise_map]
      refine h.pairwise_le.imp_of_mem fun {a b} _ hb hle => ?_
      have hsmall := (h.mem_range hb).2
      exact (hsteady.of_le hsmall).mono (by omega) hle

theorem last_observed (h : Climb READ_BUFFER_SIZE 0 values r) (hpos : 0 < r) :
    (values.map fun k : Nat => percentage k total).getLast? = some (percentage r total) := by
  rw [List.getLast?_map, h.getLast? hpos]
  rfl

end Observed

def Measures (n r : Nat) : Prop :=
  n < 2 ^ 31 ∨ (r < n ∧ Steady (totalOf (some n)) r)

section Lengths

variable {n r : Nat}

theorem totalOf_some (n : Nat) : totalOf (some n) = (n : Int).bmod (2 ^ 32) := rfl

theorem totalOf_range (n : Nat) :
    -2 ^ 31 ≤ totalOf (some n) ∧ totalOf (some n) < 2 ^ 31 := by
  have hlow := Int.le_bmod (x := n) (m := 2 ^ 32) (by decide)
  have hhigh := Int.bmod_lt (x := n) (m := 2 ^ 32) (by decide)
  rw [totalOf_some]
  omega

theorem totalOf_small (h : n < 2 ^ 31) : totalOf (some n) = n := by
  rw [totalOf_some]
  exact Int.bmod_eq_of_le (by omega) (by omega)

/-- The total is the length less a multiple of 2^32. -/
theorem totalOf_wraps (n : Nat) : ∃ k : Int, totalOf (some n) = n - k * 2 ^ 32 := by
  have hmod : (n : Int).bmod (2 ^ 32) % (2 ^ 32 : Nat) = (n : Int) % (2 ^ 32 : Nat) :=
    Int.bmod_emod
  refine ⟨((n : Int) - totalOf (some n)) / 2 ^ 32, ?_⟩
  rw [totalOf_some]
  omega

theorem steady_of_small (h : n < 2 ^ 31) (hr : r ≤ n) : Steady (totalOf (some n)) r := by
  rw [totalOf_small h]
  unfold Steady
  omega

theorem measures_zero (n : Nat) : Measures n 0 := by
  obtain ⟨hlow, hhigh⟩ := totalOf_range n
  unfold Measures Steady
  omega

/-- When all has arrived, the last percentage tells so exactly for a length of 31 bits. -/
theorem complete_iff_small (hn : n < 2 ^ 56) (hpos : 0 < n)
    (hsteady : Steady (totalOf (some n)) n) :
    percentage n (totalOf (some n)) = 100 ↔ n < 2 ^ 31 := by
  constructor
  · intro hall
    by_contra hlarge
    obtain ⟨k, hk⟩ := totalOf_wraps n
    obtain ⟨hlow, hhigh⟩ := totalOf_range n
    rcases hsteady with hzero | hnone | ⟨hneg, hsmall⟩ | ⟨hpositive, hwithin⟩
    · rw [percentage_special (.inl hzero)] at hall
      cases hall
    · rw [percentage_special (.inr hnone)] at hall
      cases hall
    · omega
    · omega
  · intro hsmall
    rw [totalOf_small hsmall]
    obtain ⟨heq, -⟩ := @percentage_within n n hn (by omega) (by omega)
    rw [heq, Int.mul_ediv_cancel_left _ (by omega)]

theorem measures_iff (hn : n < 2 ^ 56) (hr : r ≤ n) :
    Measures n r ↔ Steady (totalOf (some n)) r ∧
      (0 < n → r = n → percentage r (totalOf (some n)) = 100) := by
  constructor
  · rintro (hsmall | ⟨hlt, hsteady⟩)
    · refine ⟨steady_of_small hsmall hr, ?_⟩
      rintro hpos rfl
      exact (complete_iff_small hn hpos (steady_of_small hsmall hr)).mpr hsmall
    · exact ⟨hsteady, fun _ heq => absurd heq (by omega)⟩
  · rintro ⟨hsteady, hcomplete⟩
    rcases Nat.lt_or_eq_of_le hr with hlt | rfl
    · exact .inr ⟨hlt, hsteady⟩
    · rcases Nat.eq_zero_or_pos r with rfl | hpos
      · exact .inl (by decide)
      · exact .inl ((complete_iff_small hn hpos hsteady).mp (hcomplete hpos rfl))

end Lengths

end DownloadStreamInvocationImpl

end GBerry.Lib
