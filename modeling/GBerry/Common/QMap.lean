import Mathlib.Data.List.Sort

/-!
# Maps

`QMap` iterates in the order of its keys, as the extensional tree maps of the
standard library do.  The lemmas state the lookups with equality of keys in
place of comparison.
-/

namespace GBerry.Common

abbrev QMap (κ α : Type) [Ord κ] := Std.ExtTreeMap κ α compare

namespace QMap

variable {κ α : Type} [Ord κ] [Std.TransOrd κ]

theorem mem_iff (m : QMap κ α) (k : κ) : k ∈ m ↔ ∃ v, m[k]? = some v := by
  rw [Std.ExtTreeMap.mem_iff_isSome_getElem?, Option.isSome_iff_exists]

theorem mem_of_getElem? {m : QMap κ α} {k : κ} {v : α} (h : m[k]? = some v) :
    k ∈ m := (mem_iff m k).mpr ⟨v, h⟩

theorem notMem_iff (m : QMap κ α) (k : κ) : k ∉ m ↔ m[k]? = none := by
  rw [Std.ExtTreeMap.mem_iff_isSome_getElem?, Option.not_isSome_iff_eq_none]

variable [Std.LawfulEqOrd κ]

theorem getElem?_insert [DecidableEq κ] (m : QMap κ α) (k a : κ) (v : α) :
    (m.insert k v)[a]? = if a = k then some v else m[a]? := by
  simp only [Std.ExtTreeMap.getElem?_insert, Std.compare_eq_iff_eq, eq_comm (b := a)]

theorem getElem?_erase [DecidableEq κ] (m : QMap κ α) (k a : κ) :
    (m.erase k)[a]? = if a = k then none else m[a]? := by
  simp only [Std.ExtTreeMap.getElem?_erase, Std.compare_eq_iff_eq, eq_comm (b := a)]

theorem mem_insert_iff (m : QMap κ α) (k a : κ) (v : α) :
    a ∈ m.insert k v ↔ a = k ∨ a ∈ m := by
  rw [Std.ExtTreeMap.mem_insert, Std.compare_eq_iff_eq, eq_comm]

theorem mem_erase_iff (m : QMap κ α) (k a : κ) :
    a ∈ m.erase k ↔ a ≠ k ∧ a ∈ m := by
  rw [Std.ExtTreeMap.mem_erase, Ne, Std.compare_eq_iff_eq, eq_comm]

theorem toList_distinct (m : QMap κ α) :
    m.toList.Pairwise fun e e' => e.1 ≠ e'.1 :=
  Std.ExtTreeMap.distinct_keys_toList.imp fun hne heq =>
    hne (Std.compare_eq_iff_eq.mpr heq)

theorem keys_filter_congr {γ : Type} {m : QMap κ α} {m' : QMap κ γ} {p : κ → Bool}
    (h : ∀ k, p k = true → (k ∈ m' ↔ k ∈ m)) : m'.keys.filter p = m.keys.filter p := by
  have hirrefl : Std.Irrefl fun a b : κ => compare a b = .lt :=
    ⟨fun a hlt => by simp at hlt⟩
  have hantisymm : Std.Antisymm fun a b : κ => compare a b = .lt :=
    ⟨fun a b hlt hgt => by
      have heq : compare a b = (compare b a).swap := Std.OrientedCmp.eq_swap
      rw [heq, hgt] at hlt
      cases hlt⟩
  refine List.Pairwise.eq_of_mem_iff (Std.ExtTreeMap.ordered_keys.filter p)
    (Std.ExtTreeMap.ordered_keys.filter p) fun k => ?_
  simp only [List.mem_filter, Std.ExtTreeMap.mem_keys]
  exact and_congr_left (h k)

theorem flatMap_toList_single {γ : Type} {m : QMap κ α} {k : κ} {v : α}
    (h : m[k]? = some v) {f : κ × α → List γ}
    (hother : ∀ e ∈ m.toList, e.1 ≠ k → f e = []) :
    m.toList.flatMap f = f (k, v) := by
  have hmem : (k, v) ∈ m.toList := Std.ExtTreeMap.mem_toList_iff_getElem?_eq_some.mpr h
  have hdistinct := toList_distinct m
  obtain ⟨before, after, hsplit⟩ := List.append_of_mem hmem
  rw [hsplit] at hother hdistinct ⊢
  have hbefore : before.flatMap f = [] := by
    refine List.flatMap_eq_nil_iff.mpr fun e he => hother e (by simp [he]) ?_
    exact (List.pairwise_append.mp hdistinct).2.2 e he _ List.mem_cons_self
  have hafter : after.flatMap f = [] := by
    refine List.flatMap_eq_nil_iff.mpr fun e he => hother e (by simp [he]) ?_
    have htail := (List.pairwise_append.mp hdistinct).2.1
    exact ((List.pairwise_cons.mp htail).1 e he).symm
  simp [hbefore, hafter]

def values (m : QMap κ α) : List α := m.toList.map Prod.snd

theorem mem_values_iff (m : QMap κ α) (v : α) : v ∈ values m ↔ ∃ k : κ, m[k]? = some v := by
  simp only [values, List.mem_map, Prod.exists,
    Std.ExtTreeMap.mem_toList_iff_getElem?_eq_some, exists_eq_right]

theorem values_eq_map_keys (m : QMap κ α) {γ : Type} {f : α → γ} {g : κ → γ}
    (h : ∀ (k : κ) (v : α), m[k]? = some v → f v = g k) : (values m).map f = m.keys.map g := by
  rw [values, ← Std.ExtTreeMap.map_fst_toList_eq_keys, List.map_map, List.map_map]
  refine List.map_congr_left fun e he => ?_
  exact h e.1 e.2 (Std.ExtTreeMap.mem_toList_iff_getElem?_eq_some.mp he)

section Inverse

variable [Ord α] [Std.TransOrd α]

def Inverse (f : QMap κ α) (g : QMap α κ) : Prop :=
  ∀ (k : κ) (a : α), f[k]? = some a ↔ g[a]? = some k

variable {f : QMap κ α} {g : QMap α κ} {k : κ} {a : α}

omit [Std.LawfulEqOrd κ] in
theorem Inverse.symm (h : Inverse f g) : Inverse g f := fun a k => (h k a).symm

variable [DecidableEq κ] [Std.LawfulEqOrd α] [DecidableEq α]

theorem Inverse.insert (h : Inverse f g) (hk : k ∉ f) (ha : a ∉ g) :
    Inverse (f.insert k a) (g.insert a k) := by
  intro k' a'
  rw [getElem?_insert, getElem?_insert]
  by_cases hk' : k' = k
  · subst hk'
    rw [if_pos rfl, Option.some.injEq]
    by_cases ha' : a' = a
    · subst ha'
      simp
    · rw [if_neg ha', ← h]
      refine iff_of_false (Ne.symm ha') ?_
      intro hold
      exact hk (mem_of_getElem? hold)
  · rw [if_neg hk']
    by_cases ha' : a' = a
    · subst ha'
      rw [if_pos rfl, Option.some.injEq]
      refine iff_of_false ?_ (Ne.symm hk')
      intro hold
      exact ha (mem_of_getElem? ((h k' a').mp hold))
    · rw [if_neg ha', h]

theorem Inverse.erase (h : Inverse f g) (hk : f[k]? = some a) :
    Inverse (f.erase k) (g.erase a) := by
  intro k' a'
  rw [getElem?_erase, getElem?_erase, Option.ite_none_left_eq_some,
    Option.ite_none_left_eq_some, h k' a']
  refine and_congr_left fun hold => not_iff_not.mpr ?_
  constructor
  · rintro rfl
    exact Option.some.inj (((h k' a').mpr hold).symm.trans hk)
  · rintro rfl
    exact Option.some.inj (hold.symm.trans ((h k a').mp hk))

theorem not_inverse_insert (h : Inverse f g) (hk : k ∈ f) (ha : a ∉ g) :
    ¬ Inverse (f.insert k a) (g.insert a k) := by
  obtain ⟨a', hold⟩ := (mem_iff f k).mp hk
  have hback := (h k a').mp hold
  have hne : a' ≠ a := by
    rintro rfl
    exact ha (mem_of_getElem? hback)
  intro hinverse
  have hnew := (hinverse k a').mpr (by rw [getElem?_insert, if_neg hne, hback])
  rw [getElem?_insert, if_pos rfl, Option.some.injEq] at hnew
  exact hne hnew.symm

end Inverse

end QMap

end GBerry.Common
