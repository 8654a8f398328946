import Mathlib.Algebra.Group.Int.Defs
import Mathlib.Algebra.GroupWithZero.Nat
import Mathlib.Data.List.Basic

/-!
# Replacing all occurrences of a pattern

`replaceAll` goes through a list once and replaces the occurrences of a pattern from
left to right.  Occurrences of a pattern whose first element is not in the rest of it
do not overlap, so that they can be counted, and a list that is put together with the
pattern between its parts is replaced part by part.
-/

namespace GBerry.Foundation

variable {α : Type*}

def joined (between : List α) : List α → List (List α) → List α
  | first, [] => first
  | first, next :: parts => first ++ (between ++ joined between next parts)

theorem length_joined (between first : List α) (parts : List (List α)) :
    (joined between first parts).length =
      first.length + (parts.map List.length).sum + parts.length * between.length := by
  induction parts generalizing first with
  | nil => simp [joined]
  | cons next parts ih =>
      rw [joined, List.length_append, List.length_append, ih, List.map_cons, List.sum_cons,
        List.length_cons, Nat.succ_mul]
      omega

theorem prefix_before {head : α} {tail : List α} (hhead : head ∉ tail)
    {a : α} {rest l : List α}
    (h : (head :: tail) <+: (a :: rest) ++ head :: l) : (head :: tail) <+: (a :: rest) := by
  rcases List.prefix_or_prefix_of_prefix h (List.prefix_append (a :: rest) (head :: l)) with
    hinside | ⟨more, hmore⟩
  · exact hinside
  · cases more with
    | nil =>
        rw [List.append_nil] at hmore
        exact hmore ▸ List.prefix_rfl
    | cons b more =>
        rw [← hmore] at h
        have hb : b = head := (List.cons_prefix_cons.mp
          ((List.prefix_append_right_inj (a :: rest)).mp h)).1
        rw [List.cons_append, List.cons.injEq] at hmore
        refine absurd ?_ hhead
        rw [← hmore.2, hb]
        exact List.mem_append_right rest List.mem_cons_self

variable [DecidableEq α]

/-- With so many elements to skip, which belong to an occurrence. -/
def replaceFrom (pattern after : List α) : Nat → List α → List α
  | _, [] => []
  | skip + 1, _ :: rest => replaceFrom pattern after skip rest
  | 0, a :: rest =>
      if pattern.isPrefixOf (a :: rest) then
        after ++ replaceFrom pattern after (pattern.length - 1) rest
      else a :: replaceFrom pattern after 0 rest

def replaceAll (pattern after l : List α) : List α := replaceFrom pattern after 0 l

def occurrences (pattern : List α) : List α → Nat
  | [] => 0
  | a :: rest =>
      (if pattern.isPrefixOf (a :: rest) then 1 else 0) + occurrences pattern rest

theorem replaceFrom_skip (pattern after : List α) (skip : Nat) (l : List α) :
    replaceFrom pattern after skip l = replaceAll pattern after (l.drop skip) := by
  induction l generalizing skip with
  | nil =>
      rw [List.drop_nil]
      cases skip with
      | zero => rfl
      | succ skip => rfl
  | cons a rest ih =>
      cases skip with
      | zero => rfl
      | succ skip => exact ih skip

section Pattern

variable {head : α} {tail after : List α}

@[simp] theorem replaceAll_nil (pattern : List α) : replaceAll pattern after [] = [] := rfl

theorem replaceAll_match (l : List α) : replaceAll (head :: tail) after (head :: tail ++ l) =
    after ++ replaceAll (head :: tail) after l := by
  have hfront : (head :: tail).isPrefixOf (head :: (tail ++ l)) = true :=
    List.isPrefixOf_iff_prefix.mpr (List.prefix_append (head :: tail) l)
  rw [replaceAll, List.cons_append, replaceFrom, if_pos hfront, replaceFrom_skip,
    List.length_cons, Nat.add_sub_cancel, List.drop_left]

theorem replaceAll_other {a : α} {rest : List α}
    (h : ¬ (head :: tail) <+: (a :: rest)) :
    replaceAll (head :: tail) after (a :: rest) = a :: replaceAll (head :: tail) after rest := by
  have hfront : ¬ (head :: tail).isPrefixOf (a :: rest) = true :=
    fun hmatch => h (List.isPrefixOf_iff_prefix.mp hmatch)
  rw [replaceAll, replaceFrom, if_neg hfront]
  rfl

theorem occurrences_cons (pattern : List α) (a : α) (rest : List α) :
    occurrences pattern (a :: rest) =
      (if pattern <+: (a :: rest) then 1 else 0) + occurrences pattern rest := by
  rw [occurrences]
  simp only [List.isPrefixOf_iff_prefix]

theorem occurrences_append_of_not_mem {front : List α} (hfront : head ∉ front) (l : List α) :
    occurrences (head :: tail) (front ++ l) = occurrences (head :: tail) l := by
  induction front with
  | nil => rfl
  | cons a front ih =>
      have hne : head ≠ a := fun heq => hfront (heq ▸ List.mem_cons_self)
      have hnot : ¬ (head :: tail) <+: (a :: (front ++ l)) :=
        fun hmatch => hne (List.cons_prefix_cons.mp hmatch).1
      rw [List.cons_append, occurrences_cons, if_neg hnot, Nat.zero_add]
      exact ih fun hmem => hfront (List.mem_cons_of_mem a hmem)

theorem replaceAll_of_none {l : List α} (h : occurrences (head :: tail) l = 0) :
    replaceAll (head :: tail) after l = l := by
  induction l with
  | nil => rfl
  | cons a rest ih =>
      rw [occurrences_cons] at h
      have hnot : ¬ (head :: tail) <+: (a :: rest) := by
        intro hmatch
        rw [if_pos hmatch] at h
        omega
      rw [replaceAll_other hnot, ih (by omega)]

theorem exists_occurrence {l : List α} (h : 0 < occurrences (head :: tail) l) :
    ∃ front back, l = front ++ (head :: tail ++ back) ∧
      occurrences (head :: tail) front = 0 := by
  induction l with
  | nil => cases h
  | cons a rest ih =>
      by_cases hmatch : (head :: tail) <+: (a :: rest)
      · obtain ⟨back, hback⟩ := hmatch
        exact ⟨[], back, hback.symm, rfl⟩
      · rw [occurrences_cons, if_neg hmatch, Nat.zero_add] at h
        obtain ⟨front, back, rfl, hnone⟩ := ih h
        refine ⟨a :: front, back, rfl, ?_⟩
        have hnot : ¬ (head :: tail) <+: (a :: front) := fun hfront =>
          hmatch (hfront.trans (List.prefix_append (a :: front) _))
        rw [occurrences_cons, if_neg hnot, hnone]

theorem occurrences_append_pattern (hhead : head ∉ tail) (front l : List α) :
    occurrences (head :: tail) (front ++ (head :: tail ++ l)) =
      occurrences (head :: tail) front + 1 + occurrences (head :: tail) l := by
  induction front with
  | nil =>
      have hfront : (head :: tail) <+: (head :: (tail ++ l)) :=
        List.prefix_append (head :: tail) l
      rw [List.nil_append, List.cons_append, occurrences_cons, if_pos hfront,
        occurrences_append_of_not_mem hhead, occurrences, Nat.zero_add]
  | cons a rest ih =>
      have hsame : (head :: tail) <+: (a :: (rest ++ (head :: tail ++ l))) ↔
          (head :: tail) <+: (a :: rest) := by
        constructor
        · exact prefix_before hhead
        · intro hfront
          exact hfront.trans (List.prefix_append (a :: rest) _)
      rw [List.cons_append, occurrences_cons, occurrences_cons, ih]
      simp only [hsame]
      omega

theorem replaceAll_first (hhead : head ∉ tail) {front : List α}
    (hnone : occurrences (head :: tail) front = 0) (l : List α) :
    replaceAll (head :: tail) after (front ++ (head :: tail ++ l)) =
      front ++ (after ++ replaceAll (head :: tail) after l) := by
  induction front with
  | nil => exact replaceAll_match l
  | cons a rest ih =>
      rw [occurrences_cons] at hnone
      have hnot : ¬ (head :: tail) <+: (a :: (rest ++ (head :: tail ++ l))) := by
        intro hfront
        rw [if_pos (prefix_before hhead hfront)] at hnone
        omega
      rw [List.cons_append, replaceAll_other hnot, ih (by omega), List.cons_append]

theorem replaceAll_append_pattern (hhead : head ∉ tail) (front l : List α) :
    replaceAll (head :: tail) after (front ++ (head :: tail ++ l)) =
      replaceAll (head :: tail) after front ++ (after ++ replaceAll (head :: tail) after l) := by
  induction hcount : occurrences (head :: tail) front generalizing front with
  | zero => rw [replaceAll_first hhead hcount, replaceAll_of_none hcount]
  | succ count ih =>
      have hpos : 0 < occurrences (head :: tail) front := by omega
      obtain ⟨first, back, rfl, hnone⟩ := exists_occurrence hpos
      rw [occurrences_append_pattern hhead] at hcount
      rw [List.append_assoc, List.append_assoc, replaceAll_first hhead hnone,
        replaceAll_first hhead hnone, ih back (by omega)]
      simp only [List.append_assoc]

theorem length_replaceAll (hhead : head ∉ tail) (l : List α) :
    (replaceAll (head :: tail) after l).length +
        occurrences (head :: tail) l * (head :: tail).length =
      l.length + occurrences (head :: tail) l * after.length := by
  induction hcount : occurrences (head :: tail) l generalizing l with
  | zero => rw [replaceAll_of_none hcount, Nat.zero_mul, Nat.zero_mul]
  | succ count ih =>
      have hpos : 0 < occurrences (head :: tail) l := by omega
      obtain ⟨front, back, rfl, hnone⟩ := exists_occurrence hpos
      rw [occurrences_append_pattern hhead] at hcount
      have hback := ih back (by omega)
      rw [replaceAll_first hhead hnone, Nat.succ_mul, Nat.succ_mul]
      simp only [List.length_append]
      omega

/-- Replacing a pattern by as much changes a list, unless it is the pattern again. -/
theorem replaceAll_eq_self_iff (hhead : head ∉ tail) (l : List α) :
    replaceAll (head :: tail) after l = l ↔
      after = head :: tail ∨ occurrences (head :: tail) l = 0 := by
  constructor
  · intro hsame
    by_contra hnot
    push Not at hnot
    obtain ⟨hafter, hsome⟩ := hnot
    have hlength := @length_replaceAll _ _ head tail after hhead l
    rw [hsame, Nat.add_left_cancel_iff] at hlength
    have heq := Nat.eq_of_mul_eq_mul_left (Nat.pos_of_ne_zero hsome) hlength
    obtain ⟨front, back, rfl, hnone⟩ := exists_occurrence (Nat.pos_of_ne_zero hsome)
    rw [replaceAll_first hhead hnone, List.append_cancel_left_eq] at hsame
    exact hafter (List.append_inj_left hsame heq.symm)
  · rintro (rfl | hnone)
    · induction hcount : occurrences (head :: tail) l generalizing l with
      | zero => exact replaceAll_of_none hcount
      | succ count ih =>
          have hpos : 0 < occurrences (head :: tail) l := by omega
          obtain ⟨front, back, rfl, hnone⟩ := exists_occurrence hpos
          rw [occurrences_append_pattern hhead] at hcount
          rw [replaceAll_first hhead hnone, ih back (by omega)]
    · exact replaceAll_of_none hnone

end Pattern

section Parts

variable {head : α} {tail after : List α}

theorem replaceAll_joined (hhead : head ∉ tail) (first : List α) (parts : List (List α)) :
    replaceAll (head :: tail) after (joined (head :: tail) first parts) =
      joined after (replaceAll (head :: tail) after first)
        (parts.map (replaceAll (head :: tail) after)) := by
  induction parts generalizing first with
  | nil => rfl
  | cons next parts ih =>
      rw [joined, replaceAll_append_pattern hhead, ih]
      rfl

theorem occurrences_joined (hhead : head ∉ tail) (first : List α) (parts : List (List α)) :
    occurrences (head :: tail) (joined (head :: tail) first parts) =
      parts.length + occurrences (head :: tail) first +
        (parts.map (occurrences (head :: tail))).sum := by
  induction parts generalizing first with
  | nil => simp [joined]
  | cons next parts ih =>
      rw [joined, occurrences_append_pattern hhead, ih, List.length_cons, List.map_cons,
        List.sum_cons]
      omega

theorem sum_length_replaceAll (hhead : head ∉ tail) (parts : List (List α)) :
    (parts.map fun l => (replaceAll (head :: tail) after l).length).sum +
        (parts.map (occurrences (head :: tail))).sum * (head :: tail).length =
      (parts.map List.length).sum +
        (parts.map (occurrences (head :: tail))).sum * after.length := by
  induction parts with
  | nil => simp
  | cons next parts ih =>
      have hnext := @length_replaceAll _ _ head tail after hhead next
      simp only [List.map_cons, List.sum_cons, Nat.add_mul]
      omega

theorem parts_kept (hhead : head ∉ tail) (hlength : after.length = (head :: tail).length)
    {first : List α} {parts : List (List α)}
    (h : joined after (replaceAll (head :: tail) after first)
      (parts.map (replaceAll (head :: tail) after)) = joined after first parts) :
    replaceAll (head :: tail) after first = first ∧
      ∀ l ∈ parts, replaceAll (head :: tail) after l = l := by
  have hsame : ∀ l, (replaceAll (head :: tail) after l).length = l.length := by
    intro l
    have heq := @length_replaceAll _ _ head tail after hhead l
    rw [hlength] at heq
    omega
  induction parts generalizing first with
  | nil => exact ⟨h, by simp⟩
  | cons next parts ih =>
      simp only [List.map_cons, joined] at h
      obtain ⟨hfirst, hrest⟩ := List.append_inj h (hsame first)
      obtain ⟨hnext, hparts⟩ := ih (List.append_cancel_left hrest)
      exact ⟨hfirst, List.forall_mem_cons.mpr ⟨hnext, hparts⟩⟩

/--
The pattern between the parts is replaced, and nothing else is, exactly if there are no
other occurrences of it, or it is replaced by itself.
-/
theorem replaceAll_joined_iff (hhead : head ∉ tail) (first : List α) (parts : List (List α)) :
    replaceAll (head :: tail) after (joined (head :: tail) first parts) =
        joined after first parts ↔
      after = head :: tail ∨
        occurrences (head :: tail) (joined (head :: tail) first parts) = parts.length := by
  have hzero : occurrences (head :: tail) (joined (head :: tail) first parts) = parts.length ↔
      occurrences (head :: tail) first = 0 ∧ ∀ l ∈ parts, occurrences (head :: tail) l = 0 := by
    have hsum : (parts.map (occurrences (head :: tail))).sum = 0 ↔
        ∀ l ∈ parts, occurrences (head :: tail) l = 0 := by
      induction parts with
      | nil => simp
      | cons next parts ih =>
          rw [List.map_cons, List.sum_cons, List.forall_mem_cons, ← ih]
          omega
    rw [occurrences_joined hhead, ← hsum]
    omega
  rw [replaceAll_joined hhead]
  constructor
  · intro hjoined
    by_cases hlength : after.length = (head :: tail).length
    · obtain ⟨hfirst, hparts⟩ := parts_kept hhead hlength hjoined
      by_cases hafter : after = head :: tail
      · exact .inl hafter
      · refine .inr (hzero.mpr ⟨?_, fun l hl => ?_⟩)
        · exact ((replaceAll_eq_self_iff hhead first).mp hfirst).resolve_left hafter
        · exact ((replaceAll_eq_self_iff hhead l).mp (hparts l hl)).resolve_left hafter
    · right
      have hlengths := congrArg List.length hjoined
      rw [length_joined, length_joined, List.map_map, List.length_map] at hlengths
      have hfirst := @length_replaceAll _ _ head tail after hhead first
      have hparts := @sum_length_replaceAll _ _ head tail after hhead parts
      have hall : (occurrences (head :: tail) first +
          (parts.map (occurrences (head :: tail))).sum) * (head :: tail).length =
            (occurrences (head :: tail) first +
              (parts.map (occurrences (head :: tail))).sum) * after.length := by
        rw [Nat.add_mul, Nat.add_mul]
        simp only [Function.comp_def] at hlengths
        omega
      have hnone : occurrences (head :: tail) first +
          (parts.map (occurrences (head :: tail))).sum = 0 := by
        by_contra hsome
        exact hlength (Nat.eq_of_mul_eq_mul_left (Nat.pos_of_ne_zero hsome) hall).symm
      rw [occurrences_joined hhead]
      omega
  · intro hkept
    have hself : ∀ l, l = first ∨ l ∈ parts → replaceAll (head :: tail) after l = l := by
      intro l hl
      refine (replaceAll_eq_self_iff hhead l).mpr (hkept.imp_right fun hcount => ?_)
      obtain ⟨hfirst, hparts⟩ := hzero.mp hcount
      rcases hl with rfl | hmem
      · exact hfirst
      · exact hparts l hmem
    rw [hself first (.inl rfl)]
    refine congrArg (joined after first) ?_
    calc
      parts.map (replaceAll (head :: tail) after) = parts.map id :=
        List.map_congr_left fun l hl => hself l (.inr hl)
      _ = parts := List.map_id parts

end Parts

end GBerry.Foundation
