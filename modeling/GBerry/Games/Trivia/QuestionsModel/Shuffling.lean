import GBerry.Games.Trivia.QuestionsModel

/-!
# The questions of a new game

Both loops take an element at a random position out of a list until they have enough.
What was taken and what is left make up the list at every moment.
-/

namespace GBerry.Games.Trivia.QuestionsModel

open GBerry.Foundation
open Question

variable {τ : Type} {random : Nat → Random}

section Random

theorem randomIndex_lt (r : Random) {length : Nat} (h : 0 < length) :
    randomIndex r length < length := by
  obtain ⟨r, hnonneg, hlt⟩ := r
  have hpos : (0 : Rat) < (length : Rat) := by exact_mod_cast h
  have hindex : getRandomInt ⟨r, hnonneg, hlt⟩ 0 ((length : Int) - 1) = ⌊r * (length : Rat)⌋ := by
    simp [getRandomInt]
  have hfloor : ⌊r * (length : Rat)⌋ < (length : Int) := by
    rw [Int.floor_lt]
    calc r * (length : Rat) < 1 * (length : Rat) := by gcongr
      _ = ((length : Int) : Rat) := by simp
  unfold randomIndex
  rw [hindex]
  omega

end Random

section Order

variable {labels : List String} {s : OrderLoop}

theorem orderBody_perm (h : 0 < s.all.length) (hs : (s.newOrder ++ s.all).Perm labels) :
    ∃ s', orderBody random s = some s' ∧ (s'.newOrder ++ s'.all).Perm labels ∧
      s'.all.length < s.all.length := by
  have hlt := randomIndex_lt (random s.drawn) h
  refine ⟨_, by rw [orderBody, List.getElem?_eq_getElem hlt]; rfl, ?_, ?_⟩
  · rw [List.append_assoc]
    exact ((List.getElem_cons_eraseIdx_perm hlt).append_left s.newOrder).trans hs
  · rw [List.length_eraseIdx_of_lt hlt]
    exact Nat.sub_lt h Nat.one_pos

theorem randomAnswerOrder_perm (random : Nat → Random) (drawn : Nat) {fuel count : Nat}
    (hfuel : count < fuel) :
    ∃ s, randomAnswerOrder random fuel count drawn = some s ∧
      s.newOrder.Perm (refAnswers.take count) := by
  have hbody : ∀ s : OrderLoop, (s.newOrder ++ s.all).Perm (refAnswers.take count) →
      decide (0 < s.all.length) = true → ∃ s', orderBody random s = some s' ∧
        (s'.newOrder ++ s'.all).Perm (refAnswers.take count) ∧ s'.all.length < s.all.length :=
    fun s hs hcond => orderBody_perm (of_decide_eq_true hcond) hs
  have hstart : (refAnswers.take count).length < fuel :=
    Nat.lt_of_le_of_lt (List.length_take_le _ _) hfuel
  obtain ⟨s, hs, hperm, hend⟩ := whileLoop_total (fun s : OrderLoop => s.all.length) hbody
    (s := ⟨refAnswers.take count, [], drawn⟩) (.refl _) hstart
  refine ⟨s, hs, ?_⟩
  have hnil : s.all = [] := by simpa using hend
  rwa [hnil, List.append_nil] at hperm

end Order

section Answers

variable {old : Question τ} {order : List String}

theorem answersCount_le (q : Question τ) : answersCount q ≤ 4 := by
  unfold answersCount
  split_ifs <;> decide

theorem label_isSome_mem {q : Question τ} {label : String}
    (h : (q.label label).isSome = true) : label ∈ refAnswers := by
  unfold Question.label at h
  split at h <;> first | decide | cases h

theorem Contiguous.label_iff (h : Contiguous old) (label : String) :
    (old.label label).isSome = true ↔ label ∈ refAnswers.take (answersCount old) := by
  have hb := h.b
  have hc := h.c
  have hd := h.d
  constructor
  · intro hlabel
    have hmem := label_isSome_mem hlabel
    unfold answersCount
    simp only [refAnswers, List.mem_cons, List.not_mem_nil, or_false] at hmem
    rcases hmem with rfl | rfl | rfl | rfl <;> simp only [Question.label] at hlabel <;>
      split_ifs <;> simp_all [refAnswers]
  · intro hmem
    unfold answersCount at hmem
    split_ifs at hmem <;> simp [refAnswers] at hmem <;>
      rcases hmem with rfl | rfl | rfl | rfl <;> simp_all [Question.label]

theorem label_makeQuestion {i : Nat} {label : String} (h : refAnswers[i]? = some label) :
    (makeQuestion old order).label label = order[i]?.bind old.label := by
  match i, h with
  | 0, h => cases h; rfl
  | 1, h => cases h; rfl
  | 2, h => cases h; rfl
  | 3, h => cases h; rfl

theorem makeQuestion_label_iff (hdefined : ∀ label ∈ order, (old.label label).isSome = true)
    (label : String) : ((makeQuestion old order).label label).isSome = true ↔
      label ∈ refAnswers.take order.length := by
  constructor
  · intro hlabel
    obtain ⟨i, hi⟩ := List.mem_iff_getElem?.mp (label_isSome_mem hlabel)
    rw [label_makeQuestion hi] at hlabel
    have hlt : i < order.length := by
      by_contra hge
      rw [List.getElem?_eq_none (Nat.not_lt.mp hge)] at hlabel
      cases hlabel
    refine List.mem_iff_getElem?.mpr ⟨i, ?_⟩
    rw [List.getElem?_take_of_lt hlt, hi]
  · intro hmem
    obtain ⟨i, hi⟩ := List.mem_iff_getElem?.mp hmem
    have hlt : i < order.length := by
      by_contra hge
      rw [List.getElem?_take_eq_none (Nat.not_lt.mp hge)] at hi
      cases hi
    rw [List.getElem?_take_of_lt hlt] at hi
    rw [label_makeQuestion hi, List.getElem?_eq_getElem hlt]
    exact hdefined _ (List.getElem_mem hlt)

theorem answers_makeQuestion (h : order.length ≤ 4) :
    (makeQuestion old order).answers = order.filterMap old.label := by
  match order, h with
  | [], _ => rfl
  | [_], _ => simp [answers, refAnswers, makeQuestion, Question.label, List.filterMap_cons]
  | [_, _], _ => simp [answers, refAnswers, makeQuestion, Question.label, List.filterMap_cons]
  | [_, _, _], _ => simp [answers, refAnswers, makeQuestion, Question.label, List.filterMap_cons]
  | [_, _, _, _], _ =>
      simp [answers, refAnswers, makeQuestion, Question.label, List.filterMap_cons]

theorem Contiguous.answers_eq (h : Contiguous old) :
    old.answers = (refAnswers.take (answersCount old)).filterMap old.label := by
  have hsplit := List.take_append_drop (answersCount old) refAnswers
  have hnodup : refAnswers.Nodup := by decide
  have hnone : (refAnswers.drop (answersCount old)).filterMap old.label = [] := by
    rw [List.filterMap_eq_nil_iff]
    intro label hlabel
    rw [← Option.not_isSome_iff_eq_none, h.label_iff]
    intro htake
    rw [← hsplit] at hnodup
    exact List.disjoint_of_nodup_append hnodup htake hlabel
  unfold answers
  conv_lhs => rw [← hsplit]
  rw [List.filterMap_append, hnone, List.append_nil]

theorem makeQuestion_madeFrom (h : Contiguous old)
    (horder : order.Perm (refAnswers.take (answersCount old))) :
    MadeFrom old (makeQuestion old order) := by
  have hlength : order.length = answersCount old := by
    rw [horder.length_eq, List.length_take]
    exact Nat.min_eq_left (answersCount_le old)
  have hdefined : ∀ label ∈ order, (old.label label).isSome = true := fun label hlabel =>
    (h.label_iff label).mpr (horder.mem_iff.mp hlabel)
  refine ⟨rfl, rfl, ?_, ?_, ?_⟩
  · rw [← hlength]
    exact makeQuestion_label_iff hdefined
  · rw [answers_makeQuestion (hlength.trans_le (answersCount_le old)), h.answers_eq]
    exact horder.filterMap _
  · obtain ⟨label, hlabel, hsome⟩ := h.answer
    obtain ⟨text, htext⟩ := Option.isSome_iff_exists.mp hsome
    have hmem : label ∈ order := horder.mem_iff.mpr ((h.label_iff label).mp hsome)
    obtain ⟨i, hi⟩ := Option.isSome_iff_exists.mp (List.isSome_idxOf?.mpr hmem)
    obtain ⟨hlt, hget, -⟩ := List.idxOf?_eq_some_iff.mp hi
    have hlt4 : i < refAnswers.length :=
      Nat.lt_of_lt_of_le hlt (hlength.trans_le (answersCount_le old))
    have href : refAnswers[i]? = some refAnswers[i] := List.getElem?_eq_getElem hlt4
    refine ⟨label, hlabel, refAnswers[i], ?_, text, htext, ?_⟩
    · rw [Option.mem_def] at hlabel
      simp only [makeQuestion, hlabel, hi, Option.bind_some, href, Option.mem_def]
    · rw [label_makeQuestion href, List.getElem?_eq_getElem hlt, hget]
      exact htext

end Answers

section Questions

variable {all : List (Question τ)} {s : QuestionsLoop τ} {fuel : Nat}

/-- The questions were made at different positions of the list, and the others are left. -/
def Drawn (all : List (Question τ)) (s : QuestionsLoop τ) : Prop :=
  ∃ positions left : List (Fin all.length), (positions ++ left).Perm (List.finRange all.length) ∧
    s.tempQ = left.map all.get ∧
    List.Forall₂ (fun i q => ∃ order : List String,
      order.Perm (refAnswers.take (answersCount (all.get i))) ∧
        q = makeQuestion (all.get i) order) positions s.questions

theorem Drawn.length (h : Drawn all s) :
    s.questions.length + s.tempQ.length = all.length := by
  obtain ⟨positions, left, hperm, hleft, hmade⟩ := h
  have hlength := hperm.length_eq
  rw [List.length_append, List.length_finRange] at hlength
  rw [← hmade.length_eq, hleft, List.length_map]
  exact hlength

theorem questionsBody_drawn (random : Nat → Random) (h : Drawn all s) (hlt : s.questions.length < all.length)
    (hfuel : 4 < fuel) :
    ∃ s', questionsBody random fuel s = some s' ∧ Drawn all s' ∧
      s'.questions.length = s.questions.length + 1 := by
  have hlength := h.length
  obtain ⟨positions, left, hperm, hleft, hmade⟩ := h
  have hindex : randomIndex (random s.drawn) s.tempQ.length < s.tempQ.length :=
    randomIndex_lt (random s.drawn) (by omega)
  obtain ⟨i, hi⟩ : ∃ i, i = randomIndex (random s.drawn) s.tempQ.length := ⟨_, rfl⟩
  have hlt : i < left.length := by
    have hlengths : s.tempQ.length = left.length := by rw [hleft, List.length_map]
    omega
  have hget : s.tempQ[i]? = some (all.get left[i]) := by
    rw [hleft, List.getElem?_map, List.getElem?_eq_getElem hlt]
    rfl
  obtain ⟨order, horder, horderPerm⟩ := randomAnswerOrder_perm random
    (s.drawn + 1) (Nat.lt_of_le_of_lt (answersCount_le (all.get left[i])) hfuel)
  refine ⟨{ tempQ := s.tempQ.eraseIdx i
            questions := s.questions ++ [makeQuestion (all.get left[i]) order.newOrder]
            drawn := order.drawn }, ?_, ?_, ?_⟩
  · simp only [questionsBody, ← hi, hget, Option.bind_some, horder, Option.map_some]
  · refine ⟨positions ++ [left[i]], left.eraseIdx i, ?_, ?_, ?_⟩
    · rw [List.append_assoc]
      exact ((List.getElem_cons_eraseIdx_perm hlt).append_left positions).trans hperm
    · rw [hleft, List.eraseIdx_map]
    · exact List.rel_append hmade (.cons ⟨order.newOrder, horderPerm, rfl⟩ .nil)
  · simp

theorem setupGame_drawn (random : Nat → Random) (maxQuestionsCount : Nat) (m : QuestionsModel τ)
    (hfuel : m.allQuestions.length + 4 < fuel) :
    ∃ s : QuestionsLoop τ, Drawn m.allQuestions s ∧
      s.questions.length = min maxQuestionsCount m.allQuestions.length ∧
      setupGame random fuel maxQuestionsCount m = some (newGame m s.questions) := by
  have hbody : ∀ s : QuestionsLoop τ, (Drawn m.allQuestions s ∧
      s.questions.length ≤ min maxQuestionsCount m.allQuestions.length) →
      (decide (s.questions.length < m.allQuestions.length) &&
        decide (s.questions.length < maxQuestionsCount)) = true →
      ∃ s', questionsBody random fuel s = some s' ∧ (Drawn m.allQuestions s' ∧
        s'.questions.length ≤ min maxQuestionsCount m.allQuestions.length) ∧
        m.allQuestions.length - s'.questions.length <
          m.allQuestions.length - s.questions.length := by
    rintro s ⟨hdrawn, -⟩ hcond
    rw [Bool.and_eq_true, decide_eq_true_iff, decide_eq_true_iff] at hcond
    obtain ⟨hall, hmax⟩ := hcond
    obtain ⟨s', hs', hdrawn', hlength⟩ :=
      questionsBody_drawn random hdrawn hall (by omega : 4 < fuel)
    exact ⟨s', hs', ⟨hdrawn', by omega⟩, by omega⟩
  have hstart : Drawn m.allQuestions ⟨m.allQuestions, [], 0⟩ :=
    ⟨[], List.finRange m.allQuestions.length, .refl _, by simp, .nil⟩
  obtain ⟨s, hs, ⟨hdrawn, hle⟩, hend⟩ := whileLoop_total _ hbody
    (s := ⟨m.allQuestions, [], 0⟩) ⟨hstart, Nat.zero_le _⟩ (Nat.lt_of_le_of_lt (Nat.sub_le _ _)
      (Nat.lt_of_le_of_lt (Nat.le_add_right _ 4) hfuel))
  refine ⟨s, hdrawn, ?_, ?_⟩
  · rw [Bool.and_eq_false_iff, decide_eq_false_iff_not, decide_eq_false_iff_not] at hend
    omega
  · rw [setupGame, hs]
    rfl

theorem setupGame_mono {fuel' maxQuestionsCount : Nat} {m m' : QuestionsModel τ}
    (h : setupGame random fuel maxQuestionsCount m = some m') (hle : fuel ≤ fuel') :
    setupGame random fuel' maxQuestionsCount m = some m' := by
  obtain ⟨s, hs, rfl⟩ := Option.map_eq_some_iff.mp h
  refine Option.map_eq_some_iff.mpr ⟨s, whileLoop_mono ?_ hs hle, rfl⟩
  intro s s' hs'
  obtain ⟨questionOld, hold, hbody⟩ := Option.bind_eq_some_iff.mp hs'
  obtain ⟨order, horder, rfl⟩ := Option.map_eq_some_iff.mp hbody
  refine Option.bind_eq_some_iff.mpr ⟨questionOld, hold, ?_⟩
  exact Option.map_eq_some_iff.mpr
    ⟨order, whileLoop_mono (fun _ _ hpass => hpass) horder hle, rfl⟩

/-- A new game has different questions, each with the same answers in another order. -/
theorem setupGame_shuffled (random : Nat → Random) (maxQuestionsCount : Nat)
    (m : QuestionsModel τ) (h : ∀ q ∈ m.allQuestions, Contiguous q) :
    ∃ m', Shuffled maxQuestionsCount m m' ∧ ∀ fuel, m.allQuestions.length + 4 < fuel →
      setupGame random fuel maxQuestionsCount m = some m' := by
  obtain ⟨s, ⟨positions, left, hperm, -, hmade⟩, hlength, hrun⟩ :=
    setupGame_drawn random maxQuestionsCount m (Nat.lt_succ_self _)
  refine ⟨newGame m s.questions, ⟨hlength, ⟨positions, ?_, ?_⟩, rfl⟩, ?_⟩
  · have hnodup := hperm.nodup_iff.mpr (List.nodup_finRange _)
    exact hnodup.of_append_left
  · refine hmade.imp ?_
    rintro i _ ⟨order, horder, rfl⟩
    exact makeQuestion_madeFrom (h _ (List.get_mem _ _)) horder
  · intro fuel hfuel
    exact setupGame_mono hrun hfuel

end Questions

def twoQuestions : QuestionsModel Nat where
  allQuestions := [⟨some 10, none, some 1, some 2, some 3, some 4, some "b", none⟩,
    ⟨some 20, some 21, some 5, some 6, none, none, some "a", none⟩]
  questions := []
  questionsMaxCount := 0
  questionsCount := 0
  questionIdIndex := 0
  maxQuestionsCount := 0
  currentQuestionIndex := 0

theorem twoQuestions_contiguous : ∀ q ∈ twoQuestions.allQuestions, Contiguous q := by
  intro q hq
  simp only [twoQuestions, List.mem_cons, List.not_mem_nil, or_false] at hq
  rcases hq with rfl | rfl
  · exact ⟨fun _ => rfl, fun _ => rfl, fun _ => rfl, "b", rfl, rfl⟩
  · exact ⟨fun _ => rfl, fun _ => rfl, fun hd => hd, "a", rfl, rfl⟩

theorem setupGame_shuffled_twoQuestions :
    ∃ m', Shuffled 1 twoQuestions m' ∧ ∀ fuel, 2 + 4 < fuel →
      setupGame (fun _ => ⟨3 / 4, by norm_num⟩) fuel 1 twoQuestions = some m' :=
  setupGame_shuffled _ 1 twoQuestions twoQuestions_contiguous

end GBerry.Games.Trivia.QuestionsModel
