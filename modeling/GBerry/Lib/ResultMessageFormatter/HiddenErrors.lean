import GBerry.Lib.ResultMessageFormatter.DeveloperMessage

/-!
# Errors that the message hides

A message tells of a result when it has the descriptions of all errors, in their order,
and does not say that there are none.  The message of a node looks at its subresults
only if the node has errors itself, while `hasErrors` always does.  So a node without
errors hides those below it, and denies the ones of other nodes.
-/

namespace GBerry.Lib

open GBerry.Common
open GBerry.Foundation

namespace ResultMessageFormatter

section Specification

variable (tr : Translator)

mutual

/-- The expanded descriptions of all errors, those of a node before those below it. -/
def expandedErrors : Result → List (List Char)
  | ⟨errors, metas, reasons, subresults⟩ =>
      errors.map (expandedError tr (.ofResult ⟨errors, metas, reasons, subresults⟩)) ++
        expandedErrorsOf subresults

def expandedErrorsOf : List Result → List (List Char)
  | [] => []
  | subresult :: rest => expandedErrors subresult ++ expandedErrorsOf rest

end

end Specification

mutual

def textsOf : Result → List String
  | ⟨errors, metas, reasons, subresults⟩ =>
      errors.map Error.description ++ (metas.values.map Meta.value ++
        (reasons.flatMap (fun reason => reason.description :: reason.metas.values.map Meta.value) ++
          textsOfAll subresults))

def textsOfAll : List Result → List String
  | [] => []
  | subresult :: rest => textsOf subresult ++ textsOfAll rest

end

/-- Some description or meta value has the sentence of a node without errors in it. -/
def Named (result : Result) : Prop :=
  ∃ text ∈ textsOf result, noErrors.text <:+: text.toList

structure Tells (tr : Translator) (result : Result) (message : List Char) : Prop where
  clean : result.hasErrors = false → message = noErrors.text
  described : result.hasErrors = true → InOrder ((expandedErrors tr result).map stem) message
  notDenied : result.hasErrors = true → noErrors.text <:+: message → Named result

structure TellsErrors (tr : Translator) (result : Result) : Prop where
  message : Tells tr result (createDeveloperMessage tr result).toList
  errorString : Tells tr result
    (JsonObject.value (toJson tr result) "error_string").toString.toList

/-- A node that is reached through nodes with errors has none itself, but below it. -/
inductive Hides : Result → Prop
  | here {result : Result} (hnone : result.errors = [])
      (hbelow : Result.anyHasErrors result.subresults = true) : Hides result
  | inside {result subresult : Result} (hsome : result.errors ≠ [])
      (hmem : subresult ∈ result.subresults) (h : Hides subresult) : Hides result

/-- Such a node has no errors, or a sentence of it says that there are none. -/
inductive Denies (tr : Translator) : Result → Prop
  | clean {result : Result} (hnone : result.errors = []) : Denies tr result
  | sentence {result : Result} {s : Sentence Char} (hsome : result.errors ≠ [])
      (hmem : s ∈ ownSentences tr result) (h : noErrors.text <:+: s.text) : Denies tr result
  | inside {result subresult : Result} (hsome : result.errors ≠ [])
      (hmem : subresult ∈ result.subresults) (h : Denies tr subresult) : Denies tr result

/-- No errors are hidden, and none are denied unless a text is to blame for it. -/
structure Speaks (tr : Translator) (result : Result) : Prop where
  shown : ¬ Hides result
  blamed : Denies tr result → Named result

section Marks

variable {tr : Translator} {result : Result} {s : Sentence Char}

def IsMark (c : Char) : Prop := c = '.' ∨ c = ':' ∨ c = ','

theorem noErrors_seamless : Seamless ' ' IsMark noErrors.text := by
  refine ⟨⟨'N', _, rfl, by decide⟩, ?_⟩
  -- The only space is the one after the o.
  have hspace : ∀ n < 10, noErrors.text[n + 1]? = some ' ' → noErrors.text[n]? = some 'o' := by
    decide
  intro front mark back htext hmark
  have hlength := congrArg List.length htext
  rw [List.length_append, List.length_cons, List.length_cons] at hlength
  have hmark' := hspace front.length
    (by have : noErrors.text.length = 10 := by decide
        omega)
    (by rw [htext]; simp)
  rw [htext, List.getElem?_append_right (Nat.le_refl _), Nat.sub_self] at hmark'
  obtain rfl : mark = 'o' := by simpa using hmark'
  revert hmark
  unfold IsMark
  decide

theorem closeAll_marks {between last : Char} {texts : List (List Char)}
    (h : s ∈ closeAll between last texts) : s.mark = between ∨ s.mark = last := by
  rw [closeAll, List.mem_append, List.mem_map, Option.mem_toList, Option.map_eq_some_iff] at h
  rcases h with ⟨text, -, rfl⟩ | ⟨text, -, rfl⟩
  · exact .inl rfl
  · exact .inr rfl

theorem ownSentences_marks (h : s ∈ ownSentences tr result) : IsMark s.mark := by
  rw [ownSentences, List.mem_append] at h
  rcases h with herror | hreason
  · rcases closeAll_marks herror with hmark | hmark
    · exact .inl hmark
    · rw [hmark]
      split
      · exact .inl rfl
      · exact .inr (.inl rfl)
  · rcases closeAll_marks hreason with hmark | hmark
    · exact .inr (.inr hmark)
    · exact .inl hmark

mutual

theorem sentences_marks (tr : Translator) :
    ∀ result, ∀ s ∈ sentences tr result, IsMark s.mark
  | ⟨errors, metas, reasons, subresults⟩, s, h => by
      rw [sentences] at h
      split at h
      · rw [List.mem_singleton.mp h]
        exact .inl rfl
      · rcases List.mem_append.mp h with hown | hbelow
        · exact ownSentences_marks hown
        · exact sentencesOf_marks tr subresults s hbelow

theorem sentencesOf_marks (tr : Translator) :
    ∀ subresults, ∀ s ∈ sentencesOf tr subresults, IsMark s.mark
  | [], s, h => by simp [sentencesOf] at h
  | subresult :: rest, s, h => by
      rw [sentencesOf, List.mem_append] at h
      rcases h with hhere | hlater
      · exact sentences_marks tr subresult s hhere
      · exact sentencesOf_marks tr rest s hlater

end

end Marks

section Hiding

variable {tr : Translator} {result : Result}

mutual

theorem expandedErrors_of_clean (tr : Translator) :
    ∀ result, Result.hasErrors result = false → expandedErrors tr result = []
  | ⟨errors, metas, reasons, subresults⟩, h => by
      rw [Result.hasErrors, Bool.or_eq_false_iff] at h
      have hnone : errors = [] := by simpa using h.1
      rw [expandedErrors, expandedErrorsOf_of_clean tr subresults h.2, hnone]
      rfl

theorem expandedErrorsOf_of_clean (tr : Translator) :
    ∀ subresults, Result.anyHasErrors subresults = false → expandedErrorsOf tr subresults = []
  | [], _ => by rw [expandedErrorsOf]
  | subresult :: rest, h => by
      rw [Result.anyHasErrors, Bool.or_eq_false_iff] at h
      rw [expandedErrorsOf, expandedErrors_of_clean tr subresult h.1,
        expandedErrorsOf_of_clean tr rest h.2]
      rfl

end

theorem sentences_of_none (h : result.errors = []) : sentences tr result = [noErrors] := by
  obtain ⟨errors, metas, reasons, subresults⟩ := result
  rw [sentences, if_pos (by simpa using h)]

theorem sentences_of_some (h : result.errors ≠ []) :
    sentences tr result = ownSentences tr result ++ sentencesOf tr result.subresults := by
  obtain ⟨errors, metas, reasons, subresults⟩ := result
  rw [sentences, if_neg (by simpa using h)]

theorem errors_of_clean (h : result.hasErrors = false) : result.errors = [] := by
  obtain ⟨errors, metas, reasons, subresults⟩ := result
  rw [Result.hasErrors, Bool.or_eq_false_iff] at h
  simpa using h.1

theorem closeAll_words (between last : Char) (texts : List (List Char)) :
    (closeAll between last texts).map Sentence.words = texts.map stem := by
  rcases List.eq_nil_or_concat texts with rfl | ⟨init, text, rfl⟩
  · rfl
  · rw [List.concat_eq_append, closeAll_concat]
    simp

theorem own_sublist (result : Result) :
    ((result.errors.map (expandedError tr (.ofResult result))).map stem).Sublist
      ((ownSentences tr result).map Sentence.words) := by
  rw [ownSentences, List.map_append, closeAll_words]
  exact List.sublist_append_left ..

mutual

theorem expandedErrors_sublist (tr : Translator) : ∀ result, ¬ Hides result →
    ((expandedErrors tr result).map stem).Sublist ((sentences tr result).map Sentence.words)
  | ⟨errors, metas, reasons, subresults⟩, h => by
      by_cases hnone : errors = []
      · have hbelow : Result.anyHasErrors subresults = false := by
          rw [← Bool.not_eq_true]
          exact fun hbelow => h (.here hnone hbelow)
        rw [expandedErrors, expandedErrorsOf_of_clean tr subresults hbelow, hnone]
        exact List.nil_sublist _
      · rw [expandedErrors, sentences_of_some hnone, List.map_append, List.map_append]
        refine (own_sublist _).append (expandedErrorsOf_sublist tr subresults ?_)
        exact fun subresult hmem hhides => h (.inside hnone hmem hhides)

theorem expandedErrorsOf_sublist (tr : Translator) : ∀ subresults, (∀ r ∈ subresults, ¬ Hides r) →
    ((expandedErrorsOf tr subresults).map stem).Sublist
      ((sentencesOf tr subresults).map Sentence.words)
  | [], _ => by rw [expandedErrorsOf, sentencesOf]; exact List.nil_sublist _
  | subresult :: rest, h => by
      obtain ⟨hhere, hlater⟩ := List.forall_mem_cons.mp h
      rw [expandedErrorsOf, sentencesOf, List.map_append, List.map_append]
      exact (expandedErrors_sublist tr subresult hhere).append
        (expandedErrorsOf_sublist tr rest hlater)

end

mutual

theorem denies_of_sentence (tr : Translator) :
    ∀ result, ∀ s ∈ sentences tr result, noErrors.text <:+: s.text → Denies tr result
  | ⟨errors, metas, reasons, subresults⟩, s, hmem, h => by
      by_cases hnone : errors = []
      · exact .clean hnone
      · rw [sentences_of_some hnone] at hmem
        rcases List.mem_append.mp hmem with hown | hbelow
        · exact .sentence hnone hown h
        · obtain ⟨subresult, hsub, hdenies⟩ :=
            denies_of_sentenceOf tr subresults s hbelow h
          exact .inside hnone hsub hdenies

theorem denies_of_sentenceOf (tr : Translator) : ∀ subresults, ∀ s ∈ sentencesOf tr subresults,
    noErrors.text <:+: s.text → ∃ r ∈ subresults, Denies tr r
  | [], s, hmem, _ => by simp [sentencesOf] at hmem
  | subresult :: rest, s, hmem, h => by
      rw [sentencesOf, List.mem_append] at hmem
      rcases hmem with hhere | hlater
      · exact ⟨subresult, List.mem_cons_self, denies_of_sentence tr subresult s hhere h⟩
      · obtain ⟨r, hr, hdenies⟩ := denies_of_sentenceOf tr rest s hlater h
        exact ⟨r, List.mem_cons_of_mem _ hr, hdenies⟩

end

theorem mem_sentencesOf {subresults : List Result} {subresult : Result} {s : Sentence Char}
    (hmem : subresult ∈ subresults) (hs : s ∈ sentences tr subresult) :
    s ∈ sentencesOf tr subresults := by
  induction subresults with
  | nil => simp at hmem
  | cons first rest ih =>
      rw [sentencesOf, List.mem_append]
      rcases List.mem_cons.mp hmem with rfl | hlater
      · exact .inl hs
      · exact .inr (ih hlater)

theorem Denies.sentence_of (h : Denies tr result) :
    ∃ s ∈ sentences tr result, noErrors.text <:+: s.text := by
  induction h with
  | clean hnone => exact ⟨noErrors, by simp [sentences_of_none hnone], List.infix_rfl⟩
  | sentence hsome hmem hin =>
      exact ⟨_, by rw [sentences_of_some hsome]; exact List.mem_append_left _ hmem, hin⟩
  | inside hsome hmem _ ih =>
      obtain ⟨s, hs, hin⟩ := ih
      refine ⟨s, ?_, hin⟩
      rw [sentences_of_some hsome]
      exact List.mem_append_right _ (mem_sentencesOf hmem hs)

theorem Hides.denies (h : Hides result) : Denies tr result := by
  induction h with
  | here hnone _ => exact .clean hnone
  | inside hsome hmem _ ih => exact .inside hsome hmem ih

/-- The message says that there are no errors if and only if the result does. -/
theorem denied_iff :
    noErrors.text <:+: createDeveloperMessageFrom tr result ↔ Denies tr result := by
  rw [createDeveloperMessageFrom_eq]
  constructor
  · intro h
    obtain ⟨s, hs, hin⟩ := noErrors_seamless.infix_written (sentences_marks tr result) h
    exact denies_of_sentence tr result s hs hin
  · intro h
    obtain ⟨s, hs, hin⟩ := h.sentence_of
    exact infix_written_of_mem hs hin

theorem described_of_shown (h : ¬ Hides result) :
    InOrder ((expandedErrors tr result).map stem) (createDeveloperMessageFrom tr result) := by
  rw [createDeveloperMessageFrom_eq]
  exact inOrder_written (expandedErrors_sublist tr result h)

theorem tells_of_speaks (h : result.hasErrors = true → Speaks tr result) :
    Tells tr result (createDeveloperMessageFrom tr result) where
  clean hclean := by
    rw [createDeveloperMessageFrom_eq, sentences_of_none (errors_of_clean hclean)]
    simp [written, following]
  described herrors := described_of_shown (h herrors).shown
  notDenied herrors hin := (h herrors).blamed (denied_iff.mp hin)

theorem speaks_of_tells (h : Tells tr result (createDeveloperMessageFrom tr result)) :
    (result.hasErrors = true → Speaks tr result) ∨ (Named result ∧ Hides result) := by
  by_cases hhides : Hides result
  · by_cases herrors : result.hasErrors = true
    · exact .inr ⟨h.notDenied herrors (denied_iff.mpr hhides.denies), hhides⟩
    · exact .inl fun h' => absurd h' herrors
  · exact .inl fun herrors =>
      ⟨hhides, fun hdenies => h.notDenied herrors (denied_iff.mpr hdenies)⟩

theorem errorString_eq (tr : Translator) (result : Result) :
    (JsonObject.value (toJson tr result) "error_string").toString =
      createDeveloperMessage tr result := by
  obtain ⟨errors, metas, reasons, subresults⟩ := result
  rw [toJson, jsonFrom]
  rfl

end Hiding

theorem tellsErrors_iff (tr : Translator) (result : Result) :
    ((result.hasErrors = true → Speaks tr result) → TellsErrors tr result) ∧
      (TellsErrors tr result →
        (result.hasErrors = true → Speaks tr result) ∨ (Named result ∧ Hides result)) := by
  have hmessage : (createDeveloperMessage tr result).toList =
      createDeveloperMessageFrom tr result := String.toList_ofList
  constructor
  · intro h
    have htells := tells_of_speaks h
    rw [← hmessage] at htells
    exact ⟨htells, by rwa [errorString_eq]⟩
  · intro h
    exact speaks_of_tells (hmessage ▸ h.message)

def diskFull : Error := .make 1 "DISK_FULL" "disk full"

theorem diskFull_hidden :
    ¬ TellsErrors ⟨fun _ msg => msg, false⟩
      (Result.empty.addResult (Result.empty.addError diskFull)) := by
  intro h
  have hnamed := h.message.notDenied (by decide) (by decide +kernel)
  revert hnamed
  unfold Named
  decide +kernel

end ResultMessageFormatter

end GBerry.Lib
