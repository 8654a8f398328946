import Mathlib.Data.List.Basic

/-!
# Sentences

A text of sentences, each closed by a mark and separated from the one before it by a
space.  What the words of some sentences are can be found in the text, in their order;
and what can be found in the text without crossing a seam between two sentences is in
one of them.
-/

namespace GBerry.Foundation

variable {α : Type*}

structure Sentence (α : Type*) where
  words : List α
  mark : α

def Sentence.text (s : Sentence α) : List α := s.words ++ [s.mark]

def following (space : α) : List (Sentence α) → List α
  | [] => []
  | s :: rest => space :: (s.text ++ following space rest)

def written (space : α) : List (Sentence α) → List α
  | [] => []
  | s :: rest => s.text ++ following space rest

def InOrder : List (List α) → List α → Prop
  | [], _ => True
  | text :: rest, l => ∃ before after, l = before ++ (text ++ after) ∧ InOrder rest after

section Order

variable {space : α} {sentences : List (Sentence α)} {texts : List (List α)}

theorem following_append (sentences more : List (Sentence α)) :
    following space (sentences ++ more) = following space sentences ++ following space more := by
  induction sentences with
  | nil => rfl
  | cons s rest ih => simp [following, ih]

theorem written_append (h : sentences ≠ []) (more : List (Sentence α)) :
    written space (sentences ++ more) = written space sentences ++ following space more := by
  cases sentences with
  | nil => exact absurd rfl h
  | cons s rest => simp [written, following_append]

theorem written_ne_nil (h : sentences ≠ []) : written space sentences ≠ [] := by
  cases sentences with
  | nil => exact absurd rfl h
  | cons s rest => simp [written, Sentence.text]

theorem following_written (h : sentences ≠ []) :
    following space sentences = space :: written space sentences := by
  cases sentences with
  | nil => exact absurd rfl h
  | cons s rest => rfl

theorem InOrder.prepend {l : List α} (h : InOrder texts l) (front : List α) :
    InOrder texts (front ++ l) := by
  cases texts with
  | nil => trivial
  | cons text rest =>
      obtain ⟨before, after, rfl, hrest⟩ := h
      exact ⟨front ++ before, after, (List.append_assoc ..).symm, hrest⟩

theorem inOrder_following (h : texts.Sublist (sentences.map Sentence.words)) :
    InOrder texts (following space sentences) := by
  induction sentences generalizing texts with
  | nil =>
      rw [List.sublist_nil.mp h]
      trivial
  | cons s rest ih =>
      rw [List.map_cons] at h
      cases h with
      | cons _ hrest =>
          rw [following, ← List.singleton_append, ← List.append_assoc]
          exact (ih hrest).prepend _
      | cons_cons _ hrest =>
          refine ⟨[space], s.mark :: following space rest, ?_, ?_⟩
          · simp [following, Sentence.text]
          · exact (ih hrest).prepend [s.mark]

theorem inOrder_written (h : texts.Sublist (sentences.map Sentence.words)) :
    InOrder texts (written space sentences) := by
  cases sentences with
  | nil =>
      rw [List.sublist_nil.mp h]
      trivial
  | cons s rest =>
      rw [List.map_cons] at h
      cases h with
      | cons _ hrest => exact (inOrder_following hrest).prepend s.text
      | cons_cons _ hrest =>
          refine ⟨[], s.mark :: following space rest, ?_, ?_⟩
          · simp [written, Sentence.text]
          · exact (inOrder_following hrest).prepend [s.mark]

end Order

/-- A text that begins in a sentence and has no space after a mark. -/
structure Seamless (space : α) (marks : α → Prop) (text : List α) : Prop where
  begins : ∃ first rest, text = first :: rest ∧ first ≠ space
  inside : ∀ front mark back, text = front ++ mark :: space :: back → ¬ marks mark

section Seams

variable {space : α} {marks : α → Prop} {text : List α} {sentences : List (Sentence α)}

theorem infix_append_cases {l l' : List α} (h : text <:+: l ++ l') :
    text <:+: l ∨ text <:+: l' ∨
      ∃ front back, text = front ++ back ∧ front ≠ [] ∧ front <:+ l ∧ back <+: l' := by
  obtain ⟨before, after, heq⟩ := h
  rw [List.append_assoc, List.append_eq_append_iff] at heq
  rcases heq with ⟨front, rfl, hrest⟩ | ⟨more, rfl, hmore⟩
  · rw [List.append_eq_append_iff] at hrest
    rcases hrest with ⟨back, rfl, rfl⟩ | ⟨back, rfl, rfl⟩
    · exact .inl ⟨before, back, List.append_assoc ..⟩
    · by_cases hfront : front = []
      · subst hfront
        exact .inr (.inl ⟨[], after, rfl⟩)
      · exact .inr (.inr ⟨front, back, rfl, hfront, List.suffix_append before front,
          List.prefix_append back after⟩)
  · exact .inr (.inl ⟨more, after, by rw [hmore, List.append_assoc]⟩)

theorem Seamless.not_across (h : Seamless space marks text) {s : Sentence α} (hs : marks s.mark)
    {l : List α} (hin : text <:+: s.text ++ space :: l) : text <:+: s.text ∨ text <:+: l := by
  obtain ⟨first, rest, hfirst, hspace⟩ := h.begins
  rcases infix_append_cases hin with hleft | hright | ⟨front, back, rfl, hfront, hsuffix, hprefix⟩
  · exact .inl hleft
  · right
    rcases List.infix_cons_iff.mp hright with hprefix | hinside
    · rw [hfirst] at hprefix
      exact absurd (List.cons_prefix_cons.mp hprefix).1 hspace
    · exact hinside
  · left
    cases back with
    | nil =>
        rw [List.append_nil]
        exact hsuffix.isInfix
    | cons b back =>
        obtain rfl := (List.cons_prefix_cons.mp hprefix).1
        obtain ⟨before, hbefore⟩ := hsuffix
        obtain ⟨init, last, rfl⟩ := (List.eq_nil_or_concat front).resolve_left hfront
        rw [Sentence.text, List.concat_eq_append, ← List.append_assoc] at hbefore
        have hlast : last = s.mark := by
          have hmarks := (List.append_inj' hbefore rfl).2
          simpa using hmarks
        refine absurd hs ?_
        rw [← hlast]
        exact h.inside init last back (by simp)

theorem Seamless.infix_written (h : Seamless space marks text)
    (hmarks : ∀ s ∈ sentences, marks s.mark) (hin : text <:+: written space sentences) :
    ∃ s ∈ sentences, text <:+: s.text := by
  induction sentences with
  | nil =>
      obtain ⟨first, rest, rfl, -⟩ := h.begins
      simp [written] at hin
  | cons s rest ih =>
      obtain ⟨hs, hrest⟩ := List.forall_mem_cons.mp hmarks
      cases rest with
      | nil =>
          refine ⟨s, List.mem_cons_self, ?_⟩
          simpa [written, following] using hin
      | cons s' rest =>
          rw [written, following_written (List.cons_ne_nil s' rest)] at hin
          rcases h.not_across hs hin with hhere | hlater
          · exact ⟨s, List.mem_cons_self, hhere⟩
          · obtain ⟨s'', hmem, hthere⟩ := ih hrest hlater
            exact ⟨s'', List.mem_cons_of_mem s hmem, hthere⟩

theorem infix_written_of_mem {s : Sentence α} (hs : s ∈ sentences) (hin : text <:+: s.text) :
    text <:+: written space sentences := by
  obtain ⟨before, after, rfl⟩ := List.append_of_mem hs
  refine hin.trans ?_
  cases before with
  | nil => exact List.infix_append_left
  | cons s' before =>
      rw [written_append (List.cons_ne_nil s' before)]
      refine List.IsInfix.trans ?_ List.infix_append_right
      exact ⟨[space], following space after, rfl⟩

end Seams

end GBerry.Foundation
