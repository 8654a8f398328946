import Mathlib.Data.List.DropRight
import Mathlib.Data.List.Induction
import Mathlib.Data.List.Infix

/-!
# Resolving paths

A position in a file tree is the list of names on the way to it.  The parts of
a path are entered one by one; `..` leaves the last directory, and does nothing
at the top.
-/

namespace GBerry.Foundation

def enter (position : List String) (part : String) : List String :=
  if part = "" ∨ part = "." then position
  else if part = ".." then position.dropLast
  else position ++ [part]

def walk (position parts : List String) : List String := parts.foldl enter position

/-- How far the parts lead up, and the names by which they then lead down. -/
def climb (parts : List String) : Nat × List String :=
  parts.foldl (fun (up, names) part =>
    if part = ".." ∧ names = [] then (up + 1, []) else (up, enter names part)) (0, [])

section

variable {position parts : List String}

theorem walk_append (parts parts' : List String) :
    walk position (parts ++ parts') = walk (walk position parts) parts' :=
  List.foldl_append

theorem enter_append {names : List String} {part : String} (h : ¬ (part = ".." ∧ names = [])) :
    enter (position ++ names) part = position ++ enter names part := by
  unfold enter
  split
  · rfl
  split
  · rename_i hup
    rw [List.dropLast_append_of_ne_nil fun hnil => h ⟨hup, hnil⟩]
  · rw [List.append_assoc]

theorem walk_eq (position parts : List String) :
    walk position parts = position.rdrop (climb parts).1 ++ (climb parts).2 := by
  induction parts using List.reverseRecOn with
  | nil => simp [walk, climb]
  | append_singleton parts part ih =>
      have hwalk : walk position (parts ++ [part]) = enter (walk position parts) part := by
        rw [walk_append]
        rfl
      have hclimb : climb (parts ++ [part]) =
          if part = ".." ∧ (climb parts).2 = [] then ((climb parts).1 + 1, [])
          else ((climb parts).1, enter (climb parts).2 part) := by
        rw [climb, List.foldl_append]
        rfl
      rw [hwalk, hclimb, ih]
      split
      · rename_i hup
        obtain ⟨rfl, hnames⟩ := hup
        rw [hnames, List.append_nil, List.append_nil]
        show (position.rdrop (climb parts).1).dropLast = position.rdrop ((climb parts).1 + 1)
        rw [← List.rdrop_add, List.dropLast_eq_take]
        rfl
      · rename_i hdown
        exact enter_append hdown

/-- Where a walk has to lead down to stay below the place where it began. -/
theorem prefix_walk_iff (position parts : List String) :
    position <+: walk position parts ↔
      position.rtake (climb parts).1 <+: (climb parts).2 := by
  have hsplit : position.rdrop (climb parts).1 ++ position.rtake (climb parts).1 = position :=
    List.take_append_drop _ _
  rw [walk_eq]
  nth_rewrite 1 [← hsplit]
  exact List.prefix_append_right_inj _

end

end GBerry.Foundation
