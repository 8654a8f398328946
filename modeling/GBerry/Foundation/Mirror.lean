import Mathlib.Data.List.Basic

/-!
# Mirrored values

The owner of a value sends it over a queue, and a mirror holds what arrived last.
The mirror may ask for the value, and may have to be prompted to ask.
-/

namespace GBerry.Foundation

variable {α : Type*}

/-- What the mirror holds once all values under way have arrived. -/
def latest (held : α) (queue : List α) : α := queue.getLastD held

section Latest

variable {held value : α} {queue : List α}

@[simp] theorem latest_nil : latest held [] = held := rfl

@[simp] theorem latest_cons : latest held (value :: queue) = latest value queue := by
  unfold latest
  rw [List.getLastD_cons]

@[simp] theorem latest_concat : latest held (queue ++ [value]) = value := by
  induction queue generalizing held with
  | nil => rfl
  | cons first queue ih =>
      rw [List.cons_append, latest_cons]
      exact ih

end Latest

/--
A mirror that agrees with the owner once all that is under way has arrived: it will
be prompted, or its question will be answered, or the last answer is the value.
-/
structure WillAgree (value held : α) (prompted asked : Prop) (answers : List α) : Prop where
  pending : prompted ∨ asked ∨ latest held answers = value

namespace WillAgree

variable {value held : α} {prompted prompted' asked asked' : Prop} {answers : List α}

theorem of_prompt (h : prompted) : WillAgree value held prompted asked answers :=
  ⟨.inl h⟩

theorem of_question (h : asked) : WillAgree value held prompted asked answers :=
  ⟨.inr (.inl h)⟩

theorem of_latest (h : latest held answers = value) :
    WillAgree value held prompted asked answers :=
  ⟨.inr (.inr h)⟩

theorem of_answer : WillAgree value held prompted asked (answers ++ [value]) :=
  of_latest latest_concat

theorem mono (h : WillAgree value held prompted asked answers)
    (hprompted : prompted → prompted') (hasked : asked → asked') :
    WillAgree value held prompted' asked' answers := by
  cases h.pending with
  | inl hprompt => exact of_prompt (hprompted hprompt)
  | inr hlater =>
      cases hlater with
      | inl hquestion => exact of_question (hasked hquestion)
      | inr hlatest => exact of_latest hlatest

theorem settled (h : WillAgree value held prompted asked []) (hprompted : ¬ prompted)
    (hasked : ¬ asked) : held = value := by
  have hlater := h.pending.resolve_left hprompted
  have hlatest := hlater.resolve_left hasked
  rwa [latest_nil] at hlatest

end WillAgree

end GBerry.Foundation
