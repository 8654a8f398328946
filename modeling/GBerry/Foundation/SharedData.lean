import GBerry.Foundation.Action
import Mathlib.Data.Finset.Card

/-!
# Implicitly shared data

Variables point to cells that count the variables pointing to them.  A copy shares the
cell of the original, and a write goes to a cell of the variable's own, which is made
when the cell is shared.  A variable so behaves as if it held its value itself.
-/

namespace GBerry.Foundation

variable {ν α κ : Type*}

structure SharedCell (α : Type*) where
  value : α
  ref : Nat
  deriving DecidableEq

/-- The cells that were made, and the cell of each variable that lives. -/
structure SharedData (ν α : Type*) where
  cells : List (SharedCell α)
  live : Finset ν
  pointer : ν → Nat

namespace SharedData

def empty : SharedData ν α where
  cells := []
  live := ∅
  pointer := fun _ => 0

variable [DecidableEq ν]

def read (d : SharedData ν α) (v : ν) : Option α :=
  if v ∈ d.live then (d.cells[d.pointer v]?).map SharedCell.value else none

def allocate (v : ν) (a : α) (d : SharedData ν α) : SharedData ν α where
  cells := d.cells ++ [⟨a, 1⟩]
  live := insert v d.live
  pointer := Function.update d.pointer v d.cells.length

def recount (p : Nat) (count : Nat → Nat) (cells : List (SharedCell α)) :
    List (SharedCell α) := cells.modify p fun cell => { cell with ref := count cell.ref }

def share (v w : ν) (d : SharedData ν α) : SharedData ν α where
  cells := recount (d.pointer w) (· + 1) d.cells
  live := insert v d.live
  pointer := Function.update d.pointer v (d.pointer w)

def release (v : ν) (d : SharedData ν α) : SharedData ν α where
  cells := recount (d.pointer v) (· - 1) d.cells
  live := d.live.erase v
  pointer := d.pointer

/-- A variable with a cell of its own keeps it. -/
def detach (v : ν) (d : SharedData ν α) : SharedData ν α :=
  match d.cells[d.pointer v]? with
  | none => d
  | some cell => if cell.ref = 1 then d else allocate v cell.value (release v d)

def setValue (v : ν) (change : α → α) (d : SharedData ν α) : SharedData ν α :=
  let set := fun cell : SharedCell α => { cell with value := change cell.value }
  { d with cells := d.cells.modify (d.pointer v) set }

def write (v : ν) (change : α → α) (d : SharedData ν α) : SharedData ν α :=
  setValue v change (detach v d)

def sharers (d : SharedData ν α) (p : Nat) : Finset ν := d.live.filter fun v => d.pointer v = p

/-- Every variable has a cell, and every cell counts its variables. -/
structure WellFormed (d : SharedData ν α) : Prop where
  cell : ∀ v ∈ d.live, d.pointer v < d.cells.length
  ref : ∀ p cell, d.cells[p]? = some cell → cell.ref = (d.sharers p).card

section Cells

variable {d : SharedData ν α} {v w : ν} {a : α} {p : Nat}

omit [DecidableEq ν] in
theorem empty_wellFormed : (empty : SharedData ν α).WellFormed :=
  ⟨fun _ hv => absurd hv (Finset.notMem_empty _), fun _ _ hcell => by cases hcell⟩

omit [DecidableEq ν] in
theorem mem_sharers : v ∈ d.sharers p ↔ v ∈ d.live ∧ d.pointer v = p := Finset.mem_filter

theorem sharers_allocate (h : d.WellFormed) (hv : v ∉ d.live) (p : Nat) :
    (allocate v a d).sharers p = if p = d.cells.length then {v} else d.sharers p := by
  ext u
  rw [mem_sharers]
  by_cases hu : u = v
  · subst hu
    have hother : u ∉ d.sharers p := fun hmem => hv (mem_sharers.mp hmem).1
    split
    · simp [allocate, *]
    · rename_i hp
      simp [allocate, hother, Ne.symm hp]
  · have hlive : u ∈ (allocate v a d).live ↔ u ∈ d.live := by simp [allocate, hu]
    have hpointer : (allocate v a d).pointer u = d.pointer u := Function.update_of_ne hu _ _
    rw [hlive, hpointer]
    split
    · rename_i hp
      refine iff_of_false ?_ (by simpa using hu)
      rintro ⟨hmem, heq⟩
      exact absurd (h.cell u hmem) (by omega)
    · exact mem_sharers.symm

theorem sharers_share (hv : v ∉ d.live) (p : Nat) : (share v w d).sharers p =
    if p = d.pointer w then insert v (d.sharers p) else d.sharers p := by
  ext u
  rw [mem_sharers]
  by_cases hu : u = v
  · subst hu
    have hother : u ∉ d.sharers p := fun hmem => hv (mem_sharers.mp hmem).1
    split
    · simp [share, *]
    · rename_i hp
      simp [share, hother, Ne.symm hp]
  · have hlive : u ∈ (share v w d).live ↔ u ∈ d.live := by simp [share, hu]
    have hpointer : (share v w d).pointer u = d.pointer u := Function.update_of_ne hu _ _
    rw [hlive, hpointer]
    split
    · rw [Finset.mem_insert, mem_sharers, or_iff_right hu]
    · exact mem_sharers.symm

theorem sharers_release (p : Nat) : (release v d).sharers p = (d.sharers p).erase v := by
  ext u
  simp only [mem_sharers, release, Finset.mem_erase, and_assoc]

theorem allocate_wellFormed (h : d.WellFormed) (hv : v ∉ d.live) :
    (allocate v a d).WellFormed := by
  have hlength : (allocate v a d).cells.length = d.cells.length + 1 := by simp [allocate]
  refine ⟨?_, ?_⟩
  · intro u hu
    rw [hlength]
    by_cases heq : u = v
    · subst heq
      simp [allocate]
    · have hmem : u ∈ d.live := by simpa [allocate, heq] using hu
      simp only [allocate, Function.update_of_ne heq]
      exact Nat.lt_succ_of_lt (h.cell u hmem)
  · intro p cell hcell
    rw [sharers_allocate h hv]
    simp only [allocate] at hcell
    split
    · rename_i hp
      subst hp
      rw [List.getElem?_concat_length] at hcell
      cases hcell
      simp
    · rename_i hp
      obtain ⟨hlt, -⟩ := List.getElem?_eq_some_iff.mp hcell
      rw [List.length_append, List.length_singleton] at hlt
      rw [List.getElem?_append_left (by omega)] at hcell
      exact h.ref p cell hcell

theorem length_recount {q : Nat} {count : Nat → Nat} {cells : List (SharedCell α)} :
    (recount q count cells).length = cells.length := by
  rw [recount, List.length_modify]

theorem getElem?_recount {q : Nat} {count : Nat → Nat} {cells : List (SharedCell α)} :
    (recount q count cells)[p]? = cells[p]?.map fun cell =>
      if p = q then { cell with ref := count cell.ref } else cell := by
  rw [recount, List.getElem?_modify, Option.map_eq_map]
  cases cells[p]? with
  | none => rfl
  | some cell => by_cases hp : p = q <;> simp [hp, eq_comm (b := p)]

theorem share_wellFormed (h : d.WellFormed) (hv : v ∉ d.live) (hw : w ∈ d.live) :
    (share v w d).WellFormed := by
  refine ⟨?_, ?_⟩
  · intro u hu
    simp only [share, length_recount]
    by_cases heq : u = v
    · subst heq
      rw [Function.update_self]
      exact h.cell w hw
    · rw [Function.update_of_ne heq]
      exact h.cell u (by simpa [share, heq] using hu)
  · intro p cell hcell
    rw [share, getElem?_recount] at hcell
    obtain ⟨old, hold, rfl⟩ := Option.map_eq_some_iff.mp hcell
    rw [sharers_share hv]
    have href := h.ref p old hold
    split
    · rename_i hp
      have hnot : v ∉ d.sharers p := fun hmem => hv (mem_sharers.mp hmem).1
      rw [Finset.card_insert_of_notMem hnot, ← href]
    · exact href

theorem release_wellFormed (h : d.WellFormed) (hv : v ∈ d.live) :
    (release v d).WellFormed := by
  refine ⟨?_, ?_⟩
  · intro u hu
    simp only [release, length_recount]
    exact h.cell u (Finset.mem_of_mem_erase hu)
  · intro p cell hcell
    rw [release, getElem?_recount] at hcell
    obtain ⟨old, hold, rfl⟩ := Option.map_eq_some_iff.mp hcell
    rw [sharers_release]
    have href := h.ref p old hold
    split
    · rename_i hp
      have hmem : v ∈ d.sharers p := mem_sharers.mpr ⟨hv, hp.symm⟩
      rw [Finset.card_erase_of_mem hmem, ← href]
    · rename_i hp
      have hnot : v ∉ d.sharers p := fun hmem => hp (mem_sharers.mp hmem).2.symm
      rw [Finset.erase_eq_of_notMem hnot, ← href]

end Cells

section Reads

variable {d : SharedData ν α} {v w : ν} {a : α} {change : α → α}

theorem read_of_live (h : d.WellFormed) (hv : v ∈ d.live) :
    ∃ cell, d.cells[d.pointer v]? = some cell ∧ d.read v = some cell.value := by
  have hcell := List.getElem?_eq_getElem (h.cell v hv)
  exact ⟨_, hcell, by rw [read, if_pos hv, hcell, Option.map_some]⟩

theorem read_eq_none_iff (h : d.WellFormed) : d.read v = none ↔ v ∉ d.live := by
  by_cases hv : v ∈ d.live
  · obtain ⟨cell, -, hread⟩ := read_of_live h hv
    simp [hread, hv]
  · simp [read, hv]

theorem read_allocate (h : d.WellFormed) :
    (allocate v a d).read = Function.update d.read v (some a) := by
  ext1 u
  by_cases hu : u = v
  · subst hu
    simp [read, allocate]
  · have hlive : u ∈ (allocate v a d).live ↔ u ∈ d.live := by simp [allocate, hu]
    have hpointer : (allocate v a d).pointer u = d.pointer u := Function.update_of_ne hu _ _
    rw [Function.update_of_ne hu, read, read, if_congr hlive rfl rfl, hpointer]
    by_cases hmem : u ∈ d.live
    · have hlt := h.cell u hmem
      rw [if_pos hmem, if_pos hmem, allocate, List.getElem?_append_left hlt]
    · rw [if_neg hmem, if_neg hmem]

theorem map_value_recount (p q : Nat) (count : Nat → Nat) (cells : List (SharedCell α)) :
    (recount q count cells)[p]?.map SharedCell.value = cells[p]?.map SharedCell.value := by
  rw [getElem?_recount]
  cases cells[p]? with
  | none => rfl
  | some cell => by_cases hp : p = q <;> simp [hp]

theorem read_share (hw : w ∈ d.live) :
    (share v w d).read = Function.update d.read v (d.read w) := by
  ext1 u
  rw [read, share]
  simp only [map_value_recount]
  by_cases hu : u = v
  · subst hu
    simp [read, hw]
  · simp [read, hu]

theorem read_release : (release v d).read = Function.update d.read v none := by
  ext1 u
  rw [read, release]
  simp only [map_value_recount]
  by_cases hu : u = v
  · subst hu
    simp
  · simp [read, hu]

theorem detach_spec (h : d.WellFormed) (hv : v ∈ d.live) :
    (detach v d).WellFormed ∧ v ∈ (detach v d).live ∧ (detach v d).read = d.read ∧
      (detach v d).sharers ((detach v d).pointer v) = {v} := by
  obtain ⟨cell, hcell, hread⟩ := read_of_live h hv
  have hdetach : detach v d =
      if cell.ref = 1 then d else allocate v cell.value (release v d) := by
    rw [detach, hcell]
  rw [hdetach]
  split
  · rename_i href
    have hmem : v ∈ d.sharers (d.pointer v) := mem_sharers.mpr ⟨hv, rfl⟩
    have hcard : (d.sharers (d.pointer v)).card = 1 := (h.ref _ cell hcell).symm.trans href
    obtain ⟨u, hu⟩ := Finset.card_eq_one.mp hcard
    obtain rfl : v = u := by simpa [hu] using hmem
    exact ⟨h, hv, rfl, hu⟩
  · have hreleased := release_wellFormed h hv
    have hnot : v ∉ (release v d).live := Finset.notMem_erase v d.live
    refine ⟨allocate_wellFormed hreleased hnot, Finset.mem_insert_self _ _, ?_, ?_⟩
    · rw [read_allocate hreleased, read_release, Function.update_idem, ← hread,
        Function.update_eq_self]
    · have hpointer : (allocate v cell.value (release v d)).pointer v =
          (release v d).cells.length := Function.update_self _ _ _
      rw [hpointer, sharers_allocate hreleased hnot, if_pos rfl]

omit [DecidableEq ν] in
theorem setValue_wellFormed (h : d.WellFormed) : (setValue v change d).WellFormed := by
  refine ⟨?_, ?_⟩
  · intro u hu
    simp only [setValue, List.length_modify]
    exact h.cell u hu
  · intro p cell hcell
    simp only [setValue, List.getElem?_modify] at hcell
    cases hold : d.cells[p]? with
    | none => simp [hold] at hcell
    | some old =>
        have href : cell.ref = old.ref := by
          rw [hold] at hcell
          by_cases hp : d.pointer v = p
          · obtain rfl : { old with value := change old.value } = cell := by
              simpa [hp] using hcell
            rfl
          · obtain rfl : old = cell := by simpa [hp] using hcell
            rfl
        rw [href]
        exact h.ref p old hold

theorem write_wellFormed (h : d.WellFormed) (hv : v ∈ d.live) :
    (write v change d).WellFormed := setValue_wellFormed (detach_spec h hv).1

theorem read_write (h : d.WellFormed) (hv : v ∈ d.live) :
    (write v change d).read = Function.update d.read v ((d.read v).map change) := by
  obtain ⟨hwell, hlive, hread, hsharers⟩ := detach_spec h hv
  rw [write, ← hread]
  generalize detach v d = made at *
  ext1 u
  by_cases hu : u = v
  · subst hu
    simp [read, setValue, hlive, Function.comp_def]
  · have hpointer : u ∈ made.live → made.pointer v ≠ made.pointer u := by
      intro hmem heq
      have hshares : u ∈ made.sharers (made.pointer v) := mem_sharers.mpr ⟨hmem, heq.symm⟩
      rw [hsharers, Finset.mem_singleton] at hshares
      exact hu hshares
    rw [Function.update_of_ne hu, read, read]
    by_cases hmem : u ∈ made.live
    · simp [setValue, hmem, hpointer hmem]
    · simp [setValue, hmem]

end Reads

end SharedData

end GBerry.Foundation
