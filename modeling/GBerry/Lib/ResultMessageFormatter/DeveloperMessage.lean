import GBerry.Foundation.Sentences
import GBerry.Lib.ResultMessageFormatter

/-!
# The message for developers

The message is a text of sentences: one for each error and each reason of a node, and
after them those of its subresults.  Each sentence is an expanded description, whose
full stop has been replaced by the mark that its place asks for.  A node without errors
of its own is one sentence that says so, whatever its subresults are.
-/

namespace GBerry.Lib

open GBerry.Common
open GBerry.Foundation

namespace ResultMessageFormatter

/-- A text up to a final full stop. -/
def stem (text : List Char) : List Char := if endsWith '.' text then text.dropLast else text

def noErrors : Sentence Char := ⟨"No errors".toList, '.'⟩

section Specification

variable (tr : Translator)

def expandedError (metas : Metas) (err : Error) : List Char :=
  expand tr err.description.toList metas false

def expandedReason (result : Result) (reason : Reason) : List Char :=
  expand tr reason.description.toList ⟨result, reason⟩ false

/-- One sentence for each text, with a mark between them and one at the end. -/
def closeAll (between last : Char) (texts : List (List Char)) : List (Sentence Char) :=
  texts.dropLast.map (fun text => ⟨stem text, between⟩) ++
    (texts.getLast?.map fun text => ⟨stem text, last⟩).toList

def ownSentences (result : Result) : List (Sentence Char) :=
  closeAll '.' (if result.reasons.isEmpty then '.' else ':')
      (result.errors.map (expandedError tr (.ofResult result))) ++
    closeAll ',' '.' (result.reasons.map (expandedReason tr result))

mutual

def sentences : Result → List (Sentence Char)
  | ⟨errors, metas, reasons, subresults⟩ =>
      if errors.isEmpty then [noErrors]
      else ownSentences tr ⟨errors, metas, reasons, subresults⟩ ++ sentencesOf subresults

def sentencesOf : List Result → List (Sentence Char)
  | [] => []
  | subresult :: rest => sentences subresult ++ sentencesOf rest

end

end Specification

section Writing

variable {tr : Translator} {text : List Char} {ss : List (Sentence Char)}

theorem endsWith_append (msg : List Char) (c : Char) : endsWith c (msg ++ [c]) = true := by
  simp [endsWith]

theorem replaceLast_append (msg : List Char) (c c' : Char) :
    replaceLast (msg ++ [c]) c' = msg ++ [c'] := by
  rw [replaceLast, List.dropLast_concat]

theorem stem_append_of_ends (h : endsWith '.' text = true) : stem text ++ ['.'] = text := by
  rw [stem, if_pos h]
  unfold endsWith at h
  rw [beq_iff_eq, List.getLast?_eq_some_iff] at h
  obtain ⟨init, rfl⟩ := h
  rw [List.dropLast_concat]

theorem spaced_written (ss : List (Sentence Char)) (s : Sentence Char) :
    spaced (written ' ' ss) ++ s.text = written ' ' (ss ++ [s]) := by
  by_cases hss : ss = []
  · subst hss
    simp [written, following, spaced]
  · rw [written_append hss, spaced, if_neg (by simpa using written_ne_nil hss)]
    simp [following]

theorem developerError_eq (metas : Metas) (msg : List Char) (err : Error) :
    developerError tr metas msg err =
      spaced msg ++ (⟨stem (expandedError tr metas err), '.'⟩ : Sentence Char).text := by
  simp only [developerError, Sentence.text]
  change (if endsWith '.' (expandedError tr metas err) then
    spaced msg ++ expandedError tr metas err else _) = _
  split
  · rename_i hends
    rw [stem_append_of_ends hends]
  · rename_i hends
    rw [stem, if_neg hends, List.append_assoc]
    rfl

theorem developerReason_eq (result : Result) (msg : List Char) (reason : Reason) :
    developerReason tr result msg reason =
      spaced msg ++ (⟨stem (expandedReason tr result reason), ','⟩ : Sentence Char).text := by
  simp only [developerReason, Sentence.text]
  change (if endsWith '.' (expandedReason tr result reason) then
    replaceLast (spaced msg ++ expandedReason tr result reason) ',' else _) = _
  split
  · rename_i hends
    have htext := stem_append_of_ends hends
    generalize stem (expandedReason tr result reason) = words at htext ⊢
    rw [← htext, ← List.append_assoc, replaceLast_append, List.append_assoc]
  · rename_i hends
    rw [stem, if_neg hends, List.append_assoc]
    rfl

theorem foldl_written {β : Type} {step : List Char → β → List Char} {sentence : β → Sentence Char}
    (hstep : ∀ msg x, step msg x = spaced msg ++ (sentence x).text) (l : List β)
    (ss : List (Sentence Char)) :
    l.foldl step (written ' ' ss) = written ' ' (ss ++ l.map sentence) := by
  induction l generalizing ss with
  | nil => simp
  | cons x l ih =>
      rw [List.foldl_cons, hstep, spaced_written, ih, List.map_cons, List.append_assoc]
      rfl

theorem remark_written (ss : List (Sentence Char)) (words : List Char) (mark mark' : Char) :
    endsWith mark (written ' ' (ss ++ [⟨words, mark⟩])) = true ∧
      replaceLast (written ' ' (ss ++ [⟨words, mark⟩])) mark' =
        written ' ' (ss ++ [⟨words, mark'⟩]) := by
  rw [← spaced_written, ← spaced_written, Sentence.text, Sentence.text, ← List.append_assoc,
    ← List.append_assoc]
  exact ⟨endsWith_append .., replaceLast_append ..⟩

theorem closeAll_concat (between last : Char) (texts : List (List Char)) :
    closeAll between last (texts ++ [text]) =
      texts.map (fun text => ⟨stem text, between⟩) ++ [⟨stem text, last⟩] := by
  simp [closeAll]

theorem developerOwn_eq {result : Result} (h : result.errors ≠ []) :
    developerOwn tr result = written ' ' (ownSentences tr result) := by
  obtain ⟨init, last, herrors⟩ := (List.eq_nil_or_concat result.errors).resolve_left h
  rw [List.concat_eq_append] at herrors
  have hfirst : result.errors.foldl (developerError tr (.ofResult result)) [] =
      written ' ' (init.map (fun err =>
          ⟨stem (expandedError tr (.ofResult result) err), '.'⟩) ++
        [⟨stem (expandedError tr (.ofResult result) last), '.'⟩]) := by
    rw [herrors]
    exact (foldl_written (developerError_eq (.ofResult result)) _ []).trans (by simp)
  have hclosed := fun mark => @closeAll_concat (expandedError tr (.ofResult result) last)
    '.' mark (init.map (expandedError tr (.ofResult result)))
  simp only [List.map_map, Function.comp_def] at hclosed
  unfold developerOwn ownSentences
  rw [hfirst, herrors, List.map_append, List.map_singleton, hclosed]
  generalize init.map (fun err => (⟨stem (expandedError tr (.ofResult result) err), '.'⟩ :
    Sentence Char)) = before
  generalize stem (expandedError tr (.ofResult result) last) = words
  by_cases hreasons : result.reasons = []
  · simp [hreasons, closeAll]
  · obtain ⟨rinit, rlast, hlist⟩ :=
      (List.eq_nil_or_concat result.reasons).resolve_left hreasons
    rw [List.concat_eq_append] at hlist
    have hsome : result.reasons.isEmpty = false := by simpa using hreasons
    obtain ⟨hends, hreplaced⟩ := remark_written before words '.' ':'
    simp only [hsome, Bool.false_eq_true, if_false, hends, if_true, hreplaced]
    rw [foldl_written (developerReason_eq result), hlist, List.map_append, List.map_append,
      List.map_singleton, List.map_singleton, closeAll_concat, List.map_map, ← List.append_assoc]
    obtain ⟨hends', hreplaced'⟩ := remark_written
      (before ++ [⟨words, ':'⟩] ++ rinit.map fun reason =>
        ⟨stem (expandedReason tr result reason), ','⟩)
      (stem (expandedReason tr result rlast)) ',' '.'
    rw [if_pos hends', hreplaced', List.append_assoc]
    rfl

theorem ownSentences_ne_nil {result : Result} (h : result.errors ≠ []) :
    ownSentences tr result ≠ [] := by
  obtain ⟨init, last, herrors⟩ := (List.eq_nil_or_concat result.errors).resolve_left h
  simp [ownSentences, closeAll, herrors]

theorem sentences_ne_nil (result : Result) : sentences tr result ≠ [] := by
  obtain ⟨errors, metas, reasons, subresults⟩ := result
  rw [sentences]
  split
  · simp
  · rename_i hsome
    have hown := @ownSentences_ne_nil tr ⟨errors, metas, reasons, subresults⟩
      (by simpa using hsome)
    exact List.append_ne_nil_of_left_ne_nil hown _

mutual

theorem createDeveloperMessageFrom_eq (tr : Translator) :
    ∀ result, createDeveloperMessageFrom tr result = written ' ' (sentences tr result)
  | ⟨errors, metas, reasons, subresults⟩ => by
      rw [createDeveloperMessageFrom, sentences]
      split
      · rfl
      · rename_i hsome
        have herrors : (⟨errors, metas, reasons, subresults⟩ : Result).errors ≠ [] := by
          simpa using hsome
        rw [developerOwn_eq herrors]
        exact appendDeveloperMessages_eq tr subresults _ (ownSentences_ne_nil herrors)

theorem appendDeveloperMessages_eq (tr : Translator) :
    ∀ subresults ss, ss ≠ [] → appendDeveloperMessages tr (written ' ' ss) subresults =
      written ' ' (ss ++ sentencesOf tr subresults)
  | [], ss, _ => by rw [appendDeveloperMessages, sentencesOf, List.append_nil]
  | subresult :: rest, ss, hss => by
      have hsentences := @sentences_ne_nil tr subresult
      have hmessage : appendSubmessage (written ' ' ss)
          (createDeveloperMessageFrom tr subresult) =
            written ' ' (ss ++ sentences tr subresult) := by
        rw [createDeveloperMessageFrom_eq tr subresult, appendSubmessage,
          if_neg (by simpa using written_ne_nil hsentences), written_append hss,
          following_written hsentences, spaced, if_neg (by simpa using written_ne_nil hss)]
        simp
      rw [appendDeveloperMessages, hmessage, sentencesOf, ← List.append_assoc]
      exact appendDeveloperMessages_eq tr rest _ (by simp [hss])

end

end Writing

end ResultMessageFormatter

end GBerry.Lib
