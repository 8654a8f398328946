import GBerry.Games.Trivia.TriviaGameModel

/-!
# The points of a game

A message either answers the current question, which scores a point and leaves the
question behind, or it changes no points.  Only the last question of a game stays the
current one after it was answered.
-/

namespace GBerry.Games.Trivia

open GBerry.Foundation

namespace TriviaGame

open QuestionsModel

variable {τ : Type}

section Answers

variable {g : TriviaGame τ} {pid : Int}
  {answerId questionId : JsValue}

theorem currentQuestion_ok {m m' : QuestionsModel τ} {q : Question τ}
    (h : currentQuestion m = .ok (q, m')) : q.question_id = some m.questionIdIndex ∧
      m'.questionsCount = m.questionsCount ∧ m'.questions.length = m.questions.length := by
  unfold currentQuestion at h
  split at h
  · cases h
  · cases h
    exact ⟨rfl, rfl, List.length_set⟩

theorem scorePoint_eq {m : PointsModel} (h : ¬ (pid = 0 ∧ m.playerPoints = [])) :
    ∃ signals, PointsModel.scorePoint pid m = .ok (scored pid m, signals) := by
  unfold PointsModel.scorePoint scored
  cases hi : PointsModel.scoredIndex m.playerPoints pid with
  | some i => exact ⟨_, rfl⟩
  | none =>
      refine ⟨[], ?_⟩
      by_cases hpid : pid = 0
      · have hne : m.playerPoints ≠ [] := fun hnil => h ⟨hpid, hnil⟩
        simp [PointsModel.scoredIndex, hpid, hne] at hi
      · simp only [if_neg hpid]

theorem isDefined_and_strictEquals {q : Question τ} {key : String}
    (hkey : answerId.text = .ok key) :
    (isDefined q key && (answerOf q).strictEquals answerId) = true ↔
      ∃ label ∈ q.answer, answerId = .string label ∧ isDefined q label = true := by
  rw [Bool.and_eq_true]
  unfold answerOf
  cases q.answer with
  | none =>
      refine iff_of_false ?_ (by simp)
      rintro ⟨hdefined, hequals⟩
      cases answerId <;> cases hequals
      cases hkey
      exact absurd hdefined (by simp [isDefined, JsValue.objectPrototype])
  | some label =>
      simp only [Option.elim_some, Option.mem_def, Option.some.injEq, exists_eq_left']
      constructor
      · rintro ⟨hdefined, hequals⟩
        cases answerId with
        | string s =>
            obtain rfl : label = s := by simpa [JsValue.strictEquals] using hequals
            cases hkey
            exact ⟨rfl, hdefined⟩
        | _ => cases hequals
      · rintro ⟨rfl, hdefined⟩
        cases hkey
        exact ⟨hdefined, by simp [JsValue.strictEquals]⟩

theorem answerSelected_of_carries (h : CarriesAnswer g answerId questionId)
    (hpid : ¬ (pid = 0 ∧ g.pointsModel.playerPoints = [])) :
    ∃ q m' signals, currentQuestion g.questionsModel = .ok (q, m') ∧
      answerSelected pid answerId questionId g =
        (⟨(moveToNextQuestion m').1, scored pid g.pointsModel⟩,
          List.map TriviaOutput.points signals ++ (moveToNextQuestion m').2 ++
            [.returned true]) := by
  obtain ⟨q, m', hcurrent, rfl, label, hlabel, rfl, hdefined⟩ := h
  obtain ⟨signals, hscore⟩ := scorePoint_eq hpid
  have hid : questionIdOf q = .number (toString g.questionsModel.questionIdIndex) := by
    rw [questionIdOf, (currentQuestion_ok hcurrent).1]
    rfl
  have haccepted : (isDefined q label && (answerOf q).strictEquals (.string label)) = true :=
    (isDefined_and_strictEquals rfl).mpr ⟨label, hlabel, rfl, hdefined⟩
  refine ⟨q, m', signals, hcurrent, ?_⟩
  simp only [answerSelected, hcurrent, hid, JsValue.strictEquals_number.mpr, if_true,
    JsValue.text, haccepted, answeredCorrectly, hscore]

theorem answerSelected_of_not_carries
    (h : ¬ (CarriesAnswer g answerId questionId ∧
      ¬ (pid = 0 ∧ g.pointsModel.playerPoints = []))) :
    let after := answerSelected pid answerId questionId g
    after.1.pointsModel = g.pointsModel ∧
      after.1.questionsModel.questionsCount = g.questionsModel.questionsCount ∧
      after.1.questionsModel.questions.length = g.questionsModel.questions.length ∧
      TriviaOutput.gameEnded ∉ after.2 := by
  intro after
  have hafter : after = answerSelected pid answerId questionId g := rfl
  unfold answerSelected at hafter
  cases hcurrent : currentQuestion g.questionsModel with
  | error e =>
      rw [hcurrent] at hafter
      rw [hafter]
      exact ⟨rfl, rfl, rfl, by simp⟩
  | ok result =>
      obtain ⟨q, m'⟩ := result
      obtain ⟨hid, hcount, hlength⟩ := currentQuestion_ok hcurrent
      rw [hcurrent] at hafter
      simp only at hafter
      split at hafter
      · rename_i hsame
        split at hafter
        · rw [hafter]
          exact ⟨rfl, hcount, hlength, by simp⟩
        · rename_i key hkey
          split at hafter
          · rename_i haccepted
            rw [questionIdOf, hid] at hsame
            have hcarries : CarriesAnswer g answerId questionId :=
              ⟨q, m', hcurrent, JsValue.strictEquals_number.mp hsame,
                (isDefined_and_strictEquals hkey).mp haccepted⟩
            obtain ⟨hpid, hnil⟩ := not_not.mp fun hplayer => h ⟨hcarries, hplayer⟩
            have hthrows : PointsModel.scorePoint pid g.pointsModel = .error .typeError := by
              simp [PointsModel.scorePoint, PointsModel.scoredIndex, hpid, hnil]
            simp only [answeredCorrectly, hthrows] at hafter
            rw [hafter]
            exact ⟨rfl, hcount, hlength, by simp⟩
          · rw [hafter]
            exact ⟨rfl, hcount, hlength, by simp⟩
      · split at hafter
        · rw [hafter]
          exact ⟨rfl, hcount, hlength, by simp⟩
        · rw [hafter]
          exact ⟨rfl, hcount, hlength, by simp⟩

end Answers

section Steps

variable {g : TriviaGame τ} {st : Step (TriviaGame τ) TriviaEvent TriviaOutput}

def Made (st : Step (TriviaGame τ) TriviaEvent TriviaOutput) : Prop :=
  st.post = (handle st.label st.pre).1 ∧ st.out = (handle st.label st.pre).2

theorem Made.of_answers (hmade : Made st) (h : Answers st) :
    ∃ pid, (∀ pid' answerId questionId, st.label = .answerSelected pid' answerId questionId →
        pid' = pid) ∧ st.post.pointsModel = scored pid st.pre.pointsModel ∧
      st.post.questionsModel.questions.length = st.pre.questionsModel.questions.length ∧
      if st.pre.questionsModel.questionsCount + 1 = st.pre.questionsModel.questions.length then
        TriviaOutput.gameEnded ∈ st.out ∧
          st.post.questionsModel.questionsCount = st.pre.questionsModel.questionsCount
      else TriviaOutput.gameEnded ∉ st.out ∧
        st.post.questionsModel.questionsCount = st.pre.questionsModel.questionsCount + 1 := by
  obtain ⟨pid, answerId, questionId, hlabel, hcarries, hpid⟩ := h
  obtain ⟨hpost, hout⟩ := hmade
  rw [hlabel] at hpost hout
  obtain ⟨q, m', signals, hcurrent, hselected⟩ := answerSelected_of_carries hcarries hpid
  obtain ⟨-, hcount, hlength⟩ := currentQuestion_ok hcurrent
  simp only [handle, hselected] at hpost hout
  refine ⟨pid, ?_, ?_, ?_, ?_⟩
  · intro pid' answerId' questionId' hlabel'
    rw [hlabel] at hlabel'
    cases hlabel'
    rfl
  · rw [hpost]
  · rw [hpost, ← hlength]
    unfold moveToNextQuestion
    split <;> rfl
  · rw [hpost, hout, ← hcount, ← hlength]
    unfold moveToNextQuestion
    split <;> simp

theorem Made.of_not_answers (hmade : Made st) (hset : setsUp st = false) (h : ¬ Answers st) :
    st.post.questionsModel.questionsCount = st.pre.questionsModel.questionsCount ∧
      st.post.questionsModel.questions.length = st.pre.questionsModel.questions.length ∧
      TriviaOutput.gameEnded ∉ st.out ∧
      ∀ pid answerId questionId, st.label = .answerSelected pid answerId questionId →
        st.post.pointsModel = st.pre.pointsModel := by
  obtain ⟨hpost, hout⟩ := hmade
  cases hlabel : st.label with
  | setupGame players maxQuestionsCount random => simp [setsUp, hlabel] at hset
  | answerSelected pid answerId questionId =>
      have hnot : ¬ (CarriesAnswer st.pre answerId questionId ∧
          ¬ (pid = 0 ∧ st.pre.pointsModel.playerPoints = [])) :=
        fun hboth => h ⟨pid, answerId, questionId, hlabel, hboth⟩
      obtain ⟨hpoints, hcount, hlength, hended⟩ := answerSelected_of_not_carries hnot
      rw [hlabel] at hpost hout
      rw [hpost, hout]
      exact ⟨hcount, hlength, hended, fun _ _ _ _ => hpoints⟩
  | playerJoined pid playerName =>
      rw [hlabel] at hpost hout
      rw [hpost, hout]
      refine ⟨rfl, rfl, ?_, nofun⟩
      simp [handle, withPoints]
  | playerLeft pid playerName =>
      rw [hlabel] at hpost hout
      rw [hpost, hout]
      refine ⟨rfl, rfl, ?_, nofun⟩
      simp [handle, withPoints]

end Steps

section Runs

variable {allQuestions : List (Question τ)} {history : History τ} {g : TriviaGame τ}
  {st : Step (TriviaGame τ) TriviaEvent TriviaOutput}

theorem gameSteps_setsUp (h : setsUp st = true) : gameSteps (st :: history) = [] := by
  simp [gameSteps, h]

theorem gameSteps_other (h : setsUp st = false) :
    gameSteps (st :: history) = st :: gameSteps history := by
  simp [gameSteps, h]

theorem gameEnded_other (h : setsUp st = false) :
    GameEnded (st :: history) ↔ TriviaOutput.gameEnded ∈ st.out ∨ GameEnded history := by
  unfold GameEnded
  rw [gameSteps_other h]
  simp

/--
Until the game has ended, the questions that were answered lie before the current one;
after that the last question stays the current one.
-/
structure Tracked (history : History τ) (g : TriviaGame τ) : Prop where
  running : ¬ GameEnded history → ∀ st ∈ gameSteps history, Answers st →
    st.pre.questionsModel.questionsCount < g.questionsModel.questionsCount
  ended : GameEnded history → g.questionsModel.questionsCount + 1 =
    g.questionsModel.questions.length

theorem Tracked.of_answers (h : Tracked history st.pre) (hmade : Made st)
    (hset : setsUp st = false) (hanswers : Answers st) : Tracked (st :: history) st.post := by
  obtain ⟨-, -, -, hlength, hmoved⟩ := hmade.of_answers hanswers
  split at hmoved
  · rename_i hlast
    obtain ⟨hout, hcount⟩ := hmoved
    refine ⟨?_, ?_⟩
    · intro hrunning
      exact absurd ((gameEnded_other hset).mpr (.inl hout)) hrunning
    · intro _
      rw [hcount, hlength]
      exact hlast
  · rename_i hmore
    obtain ⟨hout, hcount⟩ := hmoved
    have hrunning : ¬ GameEnded history := fun hended => hmore (h.ended hended)
    refine ⟨?_, ?_⟩
    · intro _
      rw [gameSteps_other hset, List.forall_mem_cons, hcount]
      refine ⟨fun _ => Nat.lt_succ_self _, ?_⟩
      intro st' hst' hanswers'
      exact Nat.lt_succ_of_lt (h.running hrunning st' hst' hanswers')
    · intro hended
      rcases (gameEnded_other hset).mp hended with hnow | hbefore
      · exact absurd hnow hout
      · exact absurd hbefore hrunning

theorem Tracked.of_not_answers (h : Tracked history st.pre) (hmade : Made st)
    (hset : setsUp st = false) (hanswers : ¬ Answers st) : Tracked (st :: history) st.post := by
  obtain ⟨hcount, hlength, hout, -⟩ := hmade.of_not_answers hset hanswers
  have hsame : GameEnded (st :: history) ↔ GameEnded history := by
    rw [gameEnded_other hset]
    exact or_iff_right hout
  refine ⟨?_, ?_⟩
  · intro hrunning
    rw [gameSteps_other hset, List.forall_mem_cons, hcount]
    refine ⟨fun hnow => absurd hnow hanswers, ?_⟩
    exact h.running (mt hsame.mpr hrunning)
  · intro hended
    rw [hcount, hlength]
    exact h.ended (hsame.mp hended)

theorem Tracked.next (h : Tracked history st.pre) (hmade : Made st) :
    Tracked (st :: history) st.post := by
  cases hset : setsUp st with
  | true =>
      refine ⟨fun _ => ?_, ?_⟩
      · simp [gameSteps_setsUp hset]
      · simp [GameEnded, gameSteps_setsUp hset]
  | false =>
      by_cases hanswers : Answers st
      · exact h.of_answers hmade hset hanswers
      · exact h.of_not_answers hmade hset hanswers

theorem tracked_of_execution (h : Execution (machine allQuestions) history g) :
    Tracked history g := by
  refine h.invariant (I := Tracked) ⟨?_, ?_⟩ ?_
  · intro _ st hst
    cases hst
  · rintro ⟨st, hst, -⟩
    cases hst
  · intro older g g' event out _ htracked hstep
    obtain ⟨rfl, rfl⟩ := Action.machine_step hstep
    exact @Tracked.next _ _ ⟨g, event, _, _⟩ htracked ⟨rfl, rfl⟩

theorem Tracked.first (h : Tracked history g) (hrunning : ¬ GameEnded history) :
    FirstAnswer history g := by
  intro st hst hanswers
  exact Nat.ne_of_lt (h.running hrunning st hst hanswers)

theorem setsUp_fair (hset : setsUp st = true) (hmade : Made st) : Fair history st := by
  obtain ⟨hpost, hout⟩ := hmade
  unfold setsUp at hset
  cases hlabel : st.label with
  | setupGame players maxQuestionsCount random =>
      rw [hlabel] at hout
      refine ⟨?_, ?_, fun _ => ⟨?_, ?_⟩⟩
      · intro pid answerId questionId hother
        rw [hlabel] at hother
        cases hother
      · intro pid answerId questionId hother
        rw [hlabel] at hother
        cases hother
      · rw [hout]
        simp [handle, setupGame]
      · intro pid answerId questionId hother
        rw [hlabel] at hother
        cases hother
  | _ => simp [hlabel] at hset

theorem fair_iff (h : Tracked history st.pre) (hmade : Made st) :
    Fair history st ↔ QuietAfterEnd history st := by
  cases hset : setsUp st with
  | true =>
      refine iff_of_true (setsUp_fair hset hmade) ?_
      rintro _ ⟨pid, answerId, questionId, hlabel, -⟩
      simp [setsUp, hlabel] at hset
  | false =>
      by_cases hanswers : Answers st
      · obtain ⟨pid, hpid, hpoints, hlength, hmoved⟩ := hmade.of_answers hanswers
        by_cases hended : GameEnded history
        · refine iff_of_false ?_ fun hquiet => hquiet hended hanswers
          intro hfair
          rw [if_pos (h.ended hended)] at hmoved
          exact (hfair.ended hended).1 hmoved.1
        · refine iff_of_true ⟨?_, ?_, fun hnow => absurd hnow hended⟩
            fun hnow => absurd hnow hended
          · intro pid' answerId questionId hlabel _ _
            rw [hpid pid' answerId questionId hlabel]
            exact hpoints
          · intro _ _ _ _ hnot
            exact absurd ⟨hanswers, h.first hended⟩ hnot
      · obtain ⟨-, -, hout, hpoints⟩ := hmade.of_not_answers hset hanswers
        refine iff_of_true ⟨?_, ?_, fun _ => ⟨hout, hpoints⟩⟩ fun _ => hanswers
        · intro _ _ _ _ hnow
          exact absurd hnow hanswers
        · intro pid answerId questionId hlabel _
          exact hpoints pid answerId questionId hlabel

/-- The scoring is fair as long as the last question is not answered after the end. -/
theorem scoring_fair_iff (h : Execution (machine allQuestions) history g) :
    Execution.EachStep Fair history ↔ Execution.EachStep QuietAfterEnd history := by
  refine Execution.eachStep_iff ?_ h
  intro older g g' event out hexec hstep
  obtain ⟨rfl, rfl⟩ := Action.machine_step hstep
  exact @fair_iff _ _ ⟨g, event, _, _⟩ (tracked_of_execution hexec) ⟨rfl, rfl⟩

end Runs

def oneQuestion : List (Question Nat) :=
  [⟨some 10, none, some 1, none, none, none, some "a", none⟩]

/-- A player answers the last question, and then once more with the next id. -/
def answerTwice : List TriviaEvent :=
  [.setupGame [(7, "Tero")] 10 (fun _ => .zero),
    .answerSelected 7 (.string "a") (.number "1"),
    .answerSelected 7 (.string "a") (.number "2")]

theorem scoring_answerTwice :
    let run := Action.trace (start oneQuestion) handle answerTwice
    run.2.pointsModel = ⟨[⟨7, "Tero", 2⟩]⟩ ∧
      (outputs run.1).count TriviaOutput.gameEnded = 2 ∧ ¬ Execution.EachStep Fair run.1 := by
  refine ⟨by decide +kernel, by decide +kernel, ?_⟩
  rintro ⟨hlast, hbefore⟩
  have hended : GameEnded (Action.trace (start oneQuestion) handle
      (answerTwice.take 2)).1 := by
    unfold GameEnded
    decide +kernel
  exact absurd (by decide +kernel) (hlast.ended hended).1

/-- Another player answers with the id of the question that is over. -/
def answerLate : List TriviaEvent :=
  [.setupGame [(7, "Tero"), (9, "Joel")] 10 (fun _ => .zero),
    .answerSelected 7 (.string "a") (.number "1"),
    .answerSelected 9 (.string "a") (.number "1")]

theorem scoring_fair_iff_answerLate :
    let run := Action.trace (start oneQuestion) handle answerLate
    run.2.pointsModel = ⟨[⟨7, "Tero", 1⟩, ⟨9, "Joel", 0⟩]⟩ ∧
      Execution.EachStep Fair run.1 := by
  refine ⟨by decide +kernel, (@scoring_fair_iff _ oneQuestion _ _
    (Action.trace_execution (start oneQuestion) handle answerLate)).mpr ⟨?_, ?_, ?_, trivial⟩⟩
  · rintro - ⟨pid, answerId, questionId, hlabel, ⟨_, _, -, hid, -⟩, -⟩
    cases hlabel
    exact absurd (JsValue.number.inj hid) (by decide +kernel)
  · unfold QuietAfterEnd GameEnded
    exact fun hended => absurd hended (by decide +kernel)
  · unfold QuietAfterEnd GameEnded
    exact fun hended => absurd hended (by decide +kernel)

end TriviaGame

end GBerry.Games.Trivia
