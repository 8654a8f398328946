import GBerry.Common.QString
import GBerry.Foundation.PaddedOrder

/-!
# Version numbers of applications

`ApplicationVersionNumber::versionIsGreater` compares the numbers of two
versions one by one, and once one version has run out of parts looks at one part
of the other, as a text.
-/

namespace GBerry.Client

open GBerry.Foundation GBerry.Common

namespace ApplicationVersionNumber

/-- The branch for a version without a part at place `c`; it returns in all cases. -/
def endSituation (v1Parts v2Parts : List String) (c : Nat) : Bool :=
  if v1Parts.length > v2Parts.length ∧ v1Parts[c]? ≠ some "0" then true
  else if v2Parts.length > v1Parts.length ∧ v2Parts[c]? ≠ some "0" then false
  else false

/-- `fuel` passes of the loop, starting at place `c`; `none` while it goes on. -/
def compareParts (v1Parts v2Parts : List String) : Nat → Nat → Option Bool
  | 0, _ => none
  | fuel + 1, c =>
      match v1Parts[c]?, v2Parts[c]? with
      | some part1, some part2 =>
          if QString.toInt part1 > QString.toInt part2 then some true
          else if QString.toInt part2 > QString.toInt part1 then some false
          else compareParts v1Parts v2Parts fuel (c + 1)
      | _, _ => some (endSituation v1Parts v2Parts c)

/-- Every pass but the last uses up a part of both versions. -/
def versionIsGreater (v1 v2 : String) : Bool :=
  let v1Parts := QString.split v1 '.'
  let v2Parts := QString.split v2 '.'
  (compareParts v1Parts v2Parts (min v1Parts.length v2Parts.length + 1) 0).getD false

/-! ## The loop -/

/-- What the loop returns, by recursion on the parts. -/
def partsGreater : List String → List String → Bool
  | part1 :: v1Parts, part2 :: v2Parts =>
      if QString.toInt part1 > QString.toInt part2 then true
      else if QString.toInt part2 > QString.toInt part1 then false
      else partsGreater v1Parts v2Parts
  | part1 :: _, [] => part1 ≠ "0"
  | [], _ => false

theorem endSituation_cons (part1 part2 : String) (v1Parts v2Parts : List String) (c : Nat) :
    endSituation (part1 :: v1Parts) (part2 :: v2Parts) (c + 1) =
      endSituation v1Parts v2Parts c := by
  simp [endSituation]

theorem compareParts_cons (part1 part2 : String) (v1Parts v2Parts : List String)
    (fuel c : Nat) :
    compareParts (part1 :: v1Parts) (part2 :: v2Parts) fuel (c + 1) =
      compareParts v1Parts v2Parts fuel c := by
  induction fuel generalizing c with
  | zero => rfl
  | succ fuel ih =>
      simp only [compareParts, List.getElem?_cons_succ, endSituation_cons, ih]

theorem compareParts_eq {v1Parts v2Parts : List String} {fuel : Nat}
    (hfuel : min v1Parts.length v2Parts.length < fuel) :
    compareParts v1Parts v2Parts fuel 0 = some (partsGreater v1Parts v2Parts) := by
  induction v1Parts generalizing v2Parts fuel with
  | nil =>
      obtain ⟨fuel, rfl⟩ := Nat.exists_eq_succ_of_ne_zero (Nat.ne_zero_of_lt hfuel)
      simp [compareParts, partsGreater, endSituation]
  | cons part1 v1Parts ih =>
      obtain ⟨fuel, rfl⟩ := Nat.exists_eq_succ_of_ne_zero (Nat.ne_zero_of_lt hfuel)
      cases v2Parts with
      | nil => simp [compareParts, partsGreater, endSituation]
      | cons part2 v2Parts =>
          simp only [List.length_cons, Nat.add_min_add_right] at hfuel
          simp only [compareParts, partsGreater, List.getElem?_cons_zero,
            compareParts_cons, Nat.zero_add]
          rw [ih (by omega)]
          split
          · rfl
          · split <;> rfl

theorem versionIsGreater_eq (v1 v2 : String) :
    versionIsGreater v1 v2 =
      partsGreater (QString.split v1 '.') (QString.split v2 '.') := by
  rw [versionIsGreater, compareParts_eq (Nat.lt_succ_self _)]
  rfl

/-! ## Versions of decimal numbers -/

/-- A part that is a decimal number below 2³¹. -/
def IsNumber (part : String) : Prop :=
  part.toList ≠ [] ∧ part.toList.all Char.isDigit = true ∧
    QString.decimal part.toList < 2 ^ 31

instance (part : String) : Decidable (IsNumber part) :=
  inferInstanceAs (Decidable (_ ∧ _ ∧ _))

def IsVersion (v : String) : Prop := ∀ part ∈ QString.split v '.', IsNumber part

instance (v : String) : Decidable (IsVersion v) :=
  inferInstanceAs (Decidable (∀ part ∈ QString.split v '.', IsNumber part))

def number (part : String) : Nat := QString.decimal part.toList

def numbers (v : String) : List Nat := (QString.split v '.').map number

def Greater (v1 v2 : String) : Prop := PaddedGreater 0 (numbers v1) (numbers v2)

/--
When `v1` starts with the numbers of `v2`, the next part of `v1` is the text
`0` exactly when no number of the rest is positive.
-/
def FirstExtraPartDecides (v1 v2 : String) : Prop :=
  (numbers v1).take (numbers v2).length = numbers v2 →
    ∀ part ∈ (QString.split v1 '.')[(numbers v2).length]?,
      part = "0" ↔ ∀ n ∈ (numbers v1).drop (numbers v2).length, n = 0

theorem toInt_of_isNumber {part : String} (h : IsNumber part) :
    QString.toInt part = (number part : Int) :=
  QString.toInt_digits h.1 h.2.1 h.2.2

def Decides (v1Parts v2Parts : List String) : Prop :=
  (v1Parts.map number).take v2Parts.length = v2Parts.map number →
    ∀ part ∈ v1Parts[v2Parts.length]?,
      part = "0" ↔ ∀ n ∈ (v1Parts.map number).drop v2Parts.length, n = 0

theorem partsGreater_iff {v1Parts v2Parts : List String}
    (h1 : ∀ part ∈ v1Parts, IsNumber part) (h2 : ∀ part ∈ v2Parts, IsNumber part) :
    (partsGreater v1Parts v2Parts = true ↔
        PaddedGreater 0 (v1Parts.map number) (v2Parts.map number)) ↔
      Decides v1Parts v2Parts := by
  induction v1Parts generalizing v2Parts with
  | nil =>
      have hless : ¬ PaddedGreater 0 [] (v2Parts.map number) :=
        PaddedGreater.not_nil_left Nat.zero_le _
      simp [partsGreater, hless, Decides]
  | cons part1 v1Parts ih =>
      cases v2Parts with
      | nil =>
          have hzero := PaddedGreater.nil_right_iff Nat.zero_le
            ((part1 :: v1Parts).map number)
          rw [List.map_nil, hzero]
          have hrest : (∃ n ∈ (part1 :: v1Parts).map number, n ≠ 0) ↔
              ¬ ∀ n ∈ (part1 :: v1Parts).map number, n = 0 := by
            push Not
            rfl
          rw [hrest]
          simp only [partsGreater, Decides, List.length_nil, List.take_zero, List.map_nil,
            List.getElem?_cons_zero, List.drop_zero, Option.mem_def, Option.some.injEq,
            forall_eq', forall_const, decide_eq_true_eq]
          exact not_iff_not
      | cons part2 v2Parts =>
          have hp1 := h1 part1 List.mem_cons_self
          have hp2 := h2 part2 List.mem_cons_self
          have hrest := ih (fun part hpart => h1 part (List.mem_cons_of_mem _ hpart))
            fun part hpart => h2 part (List.mem_cons_of_mem _ hpart)
          simp only [partsGreater, toInt_of_isNumber hp1, toInt_of_isNumber hp2,
            List.map_cons, PaddedGreater.cons_iff, Decides, List.length_cons,
            List.take_succ_cons, List.cons.injEq, List.getElem?_cons_succ,
            List.drop_succ_cons, gt_iff_lt, Int.ofNat_lt]
          rcases Nat.lt_trichotomy (number part1) (number part2) with hlt | heq | hlt
          · simp [hlt, Nat.lt_asymm hlt, Nat.ne_of_lt hlt]
          · simp only [heq, Nat.lt_irrefl, if_false, false_or, true_and]
            exact hrest
          · simp [hlt, Nat.ne_of_gt hlt]

theorem greater_iff {v1 v2 : String} (h1 : IsVersion v1) (h2 : IsVersion v2) :
    (versionIsGreater v1 v2 = true ↔ Greater v1 v2) ↔ FirstExtraPartDecides v1 v2 := by
  have hlength : (numbers v2).length = (QString.split v2 '.').length := by
    simp [numbers]
  rw [FirstExtraPartDecides, hlength, versionIsGreater_eq]
  exact partsGreater_iff h1 h2

/-- The loop ends, and finds out whether `v1` is greater, when one part decides. -/
theorem versionIsGreater_iff_greater {v1 v2 : String} (h1 : IsVersion v1)
    (h2 : IsVersion v2) :
    ((∃ n, ∀ fuel ≥ n,
        compareParts (QString.split v1 '.') (QString.split v2 '.') fuel 0 =
          some (versionIsGreater v1 v2)) ∧
        (versionIsGreater v1 v2 = true ↔ Greater v1 v2)) ↔
      FirstExtraPartDecides v1 v2 := by
  rw [greater_iff h1 h2, versionIsGreater_eq, and_iff_right]
  exact ⟨_, fun fuel hfuel => compareParts_eq hfuel⟩

theorem versionIsGreater_iff_greater_patch :
    ((∃ n, ∀ fuel ≥ n,
        compareParts (QString.split "1.0" '.') (QString.split "1" '.') fuel 0 =
          some (versionIsGreater "1.0" "1")) ∧
        (versionIsGreater "1.0" "1" = true ↔ Greater "1.0" "1")) ↔
      FirstExtraPartDecides "1.0" "1" :=
  versionIsGreater_iff_greater (by decide +kernel) (by decide +kernel)

theorem patch_not_greater :
    (¬ ∀ v1 v2, IsVersion v1 → IsVersion v2 →
        (versionIsGreater v1 v2 = true ↔ Greater v1 v2)) ∧
      ¬ ∀ v1 v2 v3, IsVersion v1 → IsVersion v2 → IsVersion v3 →
        versionIsGreater v1 v2 = true → versionIsGreater v2 v3 = true →
        versionIsGreater v1 v3 = true := by
  constructor
  · intro hgreater
    have hpatch := (hgreater "1.0.1" "1" (by decide +kernel) (by decide +kernel)).mpr
      ⟨2, by decide +kernel, by decide +kernel⟩
    revert hpatch
    decide +kernel
  · intro htrans
    have hpatch := htrans "1.0.1" "1.00" "1" (by decide +kernel) (by decide +kernel)
      (by decide +kernel) (by decide +kernel) (by decide +kernel)
    revert hpatch
    decide +kernel

/-! ## The laws of an order -/

theorem partsGreater_asymm {v1Parts v2Parts : List String}
    (h : partsGreater v1Parts v2Parts = true) : partsGreater v2Parts v1Parts = false := by
  induction v1Parts generalizing v2Parts with
  | nil => cases h
  | cons part1 v1Parts ih =>
      cases v2Parts with
      | nil => rfl
      | cons part2 v2Parts =>
          simp only [partsGreater] at h ⊢
          split at h
          · rename_i hgt
            rw [if_neg (by omega), if_pos hgt]
          · rename_i hle
            rw [Bool.ite_eq_true_distrib] at h
            split at h
            · cases h
            · rename_i hge
              rw [if_neg hge, if_neg hle]
              exact ih h

theorem versionIsGreater_asymm {v1 v2 : String} (h : versionIsGreater v1 v2 = true) :
    versionIsGreater v2 v1 = false := by
  rw [versionIsGreater_eq] at h ⊢
  exact partsGreater_asymm h

theorem versionIsGreater_irrefl (v : String) : versionIsGreater v v = false := by
  cases h : versionIsGreater v v with
  | false => rfl
  | true => exact h.symm.trans (versionIsGreater_asymm h)

theorem partsGreater_zero (parts rest : List String) :
    partsGreater (parts ++ "0" :: rest) parts = false ∧
      partsGreater parts (parts ++ "0" :: rest) = false := by
  induction parts with
  | nil => simp [partsGreater]
  | cons part parts ih =>
      simp only [List.cons_append, partsGreater, gt_iff_lt, Int.lt_irrefl, if_false]
      exact ih

/-- A version is equivalent to what it becomes with `.0`, `.0.0` and so on after it. -/
theorem versionIsGreater_zero {zeros : String} {rest : List String}
    (hzeros : QString.split zeros '.' = "0" :: rest) (v : String) :
    versionIsGreater (v ++ "." ++ zeros) v = false ∧
      versionIsGreater v (v ++ "." ++ zeros) = false := by
  have hsplit : QString.split (v ++ "." ++ zeros) '.' = QString.split v '.' ++ "0" :: rest := by
    rw [← hzeros]
    simp [QString.split, List.splitOn_append_cons_self]
  rw [versionIsGreater_eq, versionIsGreater_eq, hsplit]
  exact partsGreater_zero _ _

theorem versionIsGreater_trans {v1 v2 v3 : String} (h1 : IsVersion v1) (h2 : IsVersion v2)
    (h3 : IsVersion v3) (h12 : FirstExtraPartDecides v1 v2)
    (h23 : FirstExtraPartDecides v2 v3) (h13 : FirstExtraPartDecides v1 v3)
    (hgt : versionIsGreater v1 v2 = true) (hgt' : versionIsGreater v2 v3 = true) :
    versionIsGreater v1 v3 = true := by
  have hgreater := ((greater_iff h1 h2).mpr h12).mp hgt
  have hgreater' := ((greater_iff h2 h3).mpr h23).mp hgt'
  exact ((greater_iff h1 h3).mpr h13).mpr (hgreater.trans hgreater')

end ApplicationVersionNumber

end GBerry.Client
