import GBerry.Foundation.Replacement

/-!
# Templates

A text with named holes, and its substitution by a partial assignment of texts to the
names.  When the holes are filled one name after the other, by replacing the marks of
a name in what the earlier replacements made of the text, the result is that of the
substitution exactly if no mark turns up that the template does not have.
-/

namespace GBerry.Foundation

inductive Token (κ α : Type*) where
  | lit (a : α)
  | hole (key : κ)

variable {κ α : Type*}

/-- A name without a text keeps its mark. -/
def substitute (mark : κ → List α) (value : κ → Option (List α)) :
    List (Token κ α) → List α
  | [] => []
  | .lit a :: template => a :: substitute mark value template
  | .hole key :: template => (value key).getD (mark key) ++ substitute mark value template

def holes : List (Token κ α) → List κ
  | [] => []
  | .lit _ :: template => holes template
  | .hole key :: template => key :: holes template

section Substitution

variable {mark : κ → List α} {value value' : κ → Option (List α)}

theorem substitute_congr {template : List (Token κ α)}
    (h : ∀ key ∈ holes template, (value key).getD (mark key) = (value' key).getD (mark key)) :
    substitute mark value template = substitute mark value' template := by
  induction template with
  | nil => rfl
  | cons token template ih =>
      cases token with
      | lit a => rw [substitute, substitute, ih h]
      | hole key =>
          obtain ⟨hkey, hrest⟩ := List.forall_mem_cons.mp h
          rw [substitute, substitute, ih hrest, hkey]

end Substitution

variable [DecidableEq κ]

def limited (value : κ → Option (List α)) (keys : List κ) (key : κ) : Option (List α) :=
  if key ∈ keys then value key else none

/-- A substitution with the holes of one name left open. -/
def partsAt (mark : κ → List α) (value : κ → Option (List α)) (key : κ) :
    List (Token κ α) → List α × List (List α)
  | [] => ([], [])
  | .lit a :: template =>
      (a :: (partsAt mark value key template).1, (partsAt mark value key template).2)
  | .hole other :: template =>
      if other = key then
        ([], (partsAt mark value key template).1 :: (partsAt mark value key template).2)
      else
        ((value other).getD (mark other) ++ (partsAt mark value key template).1,
          (partsAt mark value key template).2)

section Parts

variable {mark : κ → List α} {value : κ → Option (List α)} {key : κ}

theorem joined_append (between front first : List α) (parts : List (List α)) :
    joined between (front ++ first) parts = front ++ joined between first parts := by
  cases parts with
  | nil => rfl
  | cons next parts => rw [joined, joined, List.append_assoc]

theorem joined_partsAt (between : List α) (template : List (Token κ α)) :
    joined between (partsAt mark value key template).1 (partsAt mark value key template).2 =
      substitute mark (Function.update value key (some between)) template := by
  induction template with
  | nil => rfl
  | cons token template ih =>
      cases token with
      | lit a =>
          rw [partsAt, substitute, ← ih]
          exact joined_append between [a] _ _
      | hole other =>
          rw [partsAt, substitute, ← ih]
          split
          · rename_i heq
            rw [heq, Function.update_self]
            rfl
          · rename_i hne
            rw [Function.update_of_ne hne]
            exact joined_append ..

theorem length_partsAt (template : List (Token κ α)) :
    (partsAt mark value key template).2.length = (holes template).count key := by
  induction template with
  | nil => rfl
  | cons token template ih =>
      cases token with
      | lit a => exact ih
      | hole other =>
          rw [partsAt, holes, List.count_cons]
          split
          · rename_i heq
            rw [List.length_cons, ih, if_pos (beq_iff_eq.mpr heq)]
          · rename_i hne
            rw [ih, if_neg (by simpa using hne), Nat.add_zero]

theorem substitute_open (hkey : value key = none) (template : List (Token κ α)) :
    substitute mark (Function.update value key (some (mark key))) template =
      substitute mark value template := by
  refine substitute_congr fun other _ => ?_
  by_cases heq : other = key
  · rw [heq, Function.update_self, hkey]
    rfl
  · rw [Function.update_of_ne heq]

end Parts

section Pass

variable [DecidableEq α] {mark : κ → List α} {value : κ → Option (List α)} {key : κ}
  {head : α} {tail after : List α} {keys : List κ}

/-- How many marks of a name there should be when the holes of some names are filled. -/
def openHoles (keys : List κ) (key : κ) (template : List (Token κ α)) : Nat :=
  if key ∈ keys then 0 else (holes template).count key

theorem replaceAll_substitute_iff (hmark : mark key = head :: tail) (hhead : head ∉ tail)
    (hvalue : value key = some after) (template : List (Token κ α)) :
    replaceAll (mark key) after (substitute mark (limited value keys) template) =
        substitute mark (limited value (keys ++ [key])) template ↔
      after = mark key ∨
        occurrences (mark key) (substitute mark (limited value keys) template) =
          openHoles keys key template := by
  have hlimited : limited value (keys ++ [key]) =
      Function.update (limited value keys) key (some after) := by
    funext other
    unfold limited
    by_cases heq : other = key
    · rw [heq, Function.update_self, if_pos (by simp), hvalue]
    · rw [Function.update_of_ne heq]
      simp [heq]
  rw [hlimited]
  by_cases hseen : key ∈ keys
  · have hsame : Function.update (limited value keys) key (some after) = limited value keys := by
      rw [Function.update_eq_self_iff, limited, if_pos hseen, hvalue]
    rw [hsame, openHoles, if_pos hseen, hmark]
    exact replaceAll_eq_self_iff hhead _
  · have hopen : limited value keys key = none := if_neg hseen
    have hcount := @length_partsAt κ α _ mark (limited value keys) key template
    rw [openHoles, if_neg hseen, ← hcount, ← substitute_open hopen, ← joined_partsAt,
      ← joined_partsAt, hmark]
    exact replaceAll_joined_iff hhead _ _

end Pass

end GBerry.Foundation
