import GBerry.Games.Trivia.PointsModel
import GBerry.Games.Trivia.QuestionsModel.Shuffling

/-!
# `TriviaGameModel`

The answers of the players are compared with the current question, whose id is
written into it when it is asked for.  A correct answer scores a point and moves to the
next question.  The id is counted on after the last question too, although that stays
the current one.
-/

namespace GBerry.Games.Trivia

open GBerry.Foundation

structure TriviaGame (τ : Type) where
  questionsModel : QuestionsModel τ
  pointsModel : PointsModel
  deriving DecidableEq

inductive TriviaOutput where
  | points (signal : PointsSignal)
  | gameEnded
  | moveToNextQuestion
  | returned (correct : Bool)
  /-- An exception left the call. -/
  | threw (error : JsError)
  deriving DecidableEq

inductive TriviaEvent where
  | setupGame (players : List (Int × String)) (maxQuestionsCount : Nat)
      (random : Nat → Random)
  | answerSelected (pid : Int) (answerId questionId : JsValue)
  | playerJoined (pid : Int) (playerName : String)
  | playerLeft (pid : Int) (playerName : String)

namespace QuestionsModel

variable {τ : Type}

/-- Without a question there is nothing that the id could be written into. -/
def currentQuestion (m : QuestionsModel τ) : Except JsError (Question τ × QuestionsModel τ) :=
  match m.questions[m.questionsCount]? with
  | none => .error .typeError
  | some q =>
      let asked := { q with question_id := some m.questionIdIndex }
      .ok (asked, { m with questions := m.questions.set m.questionsCount asked })

def moveToNextQuestion : Action (QuestionsModel τ) TriviaOutput := fun m =>
  if m.questionsCount + 1 = m.questions.length then
    ({ m with questionIdIndex := m.questionIdIndex + 1 }, [.gameEnded])
  else
    ({ m with
        questionIdIndex := m.questionIdIndex + 1
        questionsCount := m.questionsCount + 1
        currentQuestionIndex := m.questionsCount + 2 }, [.moveToNextQuestion])

end QuestionsModel

namespace TriviaGame

open QuestionsModel

variable {τ : Type}

abbrev History (τ : Type) := List (Step (TriviaGame τ) TriviaEvent TriviaOutput)

def start (allQuestions : List (Question τ)) : TriviaGame τ where
  questionsModel :=
    { allQuestions := allQuestions
      questions := []
      questionsMaxCount := 0
      questionsCount := 0
      questionIdIndex := 0
      maxQuestionsCount := 0
      currentQuestionIndex := 0 }
  pointsModel := PointsModel.start

section Source

def isDefined (q : Question τ) : String → Bool
  | "question" => q.question.isSome
  | "image" => q.image.isSome
  | "a" => q.a.isSome
  | "b" => q.b.isSome
  | "c" => q.c.isSome
  | "d" => q.d.isSome
  | "answer" => q.answer.isSome
  | "question_id" => q.question_id.isSome
  | key => JsValue.objectPrototype.contains key

def answerOf (q : Question τ) : JsValue := q.answer.elim .undefined .string

def questionIdOf (q : Question τ) : JsValue :=
  q.question_id.elim .undefined fun id => .number (toString id)

def answeredCorrectly (pid : Int) : Action (TriviaGame τ) TriviaOutput := fun g =>
  match PointsModel.scorePoint pid g.pointsModel with
  | .error e => (g, [.threw e])
  | .ok (pointsModel, signals) =>
      let moved := moveToNextQuestion g.questionsModel
      (⟨moved.1, pointsModel⟩, signals.map .points ++ moved.2 ++ [.returned true])

/-- The texts of the log show the id of another question, which may throw. -/
def answerSelected (pid : Int) (answerId questionId : JsValue) :
    Action (TriviaGame τ) TriviaOutput := fun g =>
  match currentQuestion g.questionsModel with
  | .error e => (g, [.threw e])
  | .ok (q, questionsModel) =>
      let asked := { g with questionsModel := questionsModel }
      if questionId.strictEquals (questionIdOf q) then
        match answerId.text with
        | .error e => (asked, [.threw e])
        | .ok key =>
            if isDefined q key && (answerOf q).strictEquals answerId then
              answeredCorrectly pid asked
            else (asked, [.returned false])
      else
        match questionId.text with
        | .error e => (asked, [.threw e])
        | .ok _ => (asked, [.returned false])

/-- What `initializeNewGame` sets up; the loops end before their fuel does. -/
def setupGame (players : List (Int × String)) (maxQuestionsCount : Nat)
    (random : Nat → Random) : Action (TriviaGame τ) TriviaOutput := fun g =>
  let questions := QuestionsModel.setupGame random (g.questionsModel.allQuestions.length + 5)
    maxQuestionsCount g.questionsModel
  let points := Fallible.uncaught .threw (PointsModel.setupGame players) g.pointsModel
  (⟨questions.getD g.questionsModel, points.1⟩, points.2.map .points)

def withPoints (call : Fallible PointsModel PointsSignal JsError) :
    Action (TriviaGame τ) TriviaOutput := fun g =>
  let points := Fallible.uncaught .threw call g.pointsModel
  ({ g with pointsModel := points.1 }, points.2.map .points)

def handle : TriviaEvent → Action (TriviaGame τ) TriviaOutput
  | .setupGame players maxQuestionsCount random => setupGame players maxQuestionsCount random
  | .answerSelected pid answerId questionId =>
      answerSelected pid answerId questionId
  | .playerJoined pid playerName => withPoints (PointsModel.playerJoined pid playerName)
  | .playerLeft pid _ => withPoints (PointsModel.playerLeft pid)

def machine (allQuestions : List (Question τ)) :
    Machine (TriviaGame τ) TriviaEvent TriviaOutput Empty :=
  Action.machine (start allQuestions) handle

def CarriesAnswer (g : TriviaGame τ) (answerId questionId : JsValue) : Prop :=
  ∃ q m', currentQuestion g.questionsModel = .ok (q, m') ∧
    questionId = .number (toString g.questionsModel.questionIdIndex) ∧
      ∃ label ∈ q.answer, answerId = .string label ∧ isDefined q label = true

/-- Such a message from a player; the pid 0 stands for the last one, if there is any. -/
def Answers (st : Step (TriviaGame τ) TriviaEvent TriviaOutput) : Prop :=
  ∃ pid answerId questionId, st.label = .answerSelected pid answerId questionId ∧
    CarriesAnswer st.pre answerId questionId ∧
      ¬ (pid = 0 ∧ st.pre.pointsModel.playerPoints = [])

end Source

def setsUp (st : Step (TriviaGame τ) TriviaEvent TriviaOutput) : Bool :=
  match st.label with
  | .setupGame _ _ _ => true
  | _ => false

def gameSteps (history : History τ) : History τ := history.takeWhile fun st => !setsUp st

def GameEnded (history : History τ) : Prop :=
  ∃ st ∈ gameSteps history, TriviaOutput.gameEnded ∈ st.out

def scored (pid : Int) (m : PointsModel) : PointsModel :=
  ⟨match PointsModel.scoredIndex m.playerPoints pid with
    | some i => m.playerPoints.modify i PlayerPoints.addPoint
    | none => m.playerPoints⟩

/-- No earlier message of the game answered the current question. -/
def FirstAnswer (older : History τ) (g : TriviaGame τ) : Prop :=
  ∀ st ∈ gameSteps older, Answers st →
    st.pre.questionsModel.questionsCount ≠ g.questionsModel.questionsCount

/--
A message scores a point for its player exactly if it is the first one to answer the
current question.  Once the game has ended nothing is scored and it does not end again.
-/
structure Fair (older : History τ)
    (st : Step (TriviaGame τ) TriviaEvent TriviaOutput) : Prop where
  scores : ∀ pid answerId questionId, st.label = .answerSelected pid answerId questionId →
    Answers st → FirstAnswer older st.pre →
    st.post.pointsModel = scored pid st.pre.pointsModel
  keeps : ∀ pid answerId questionId, st.label = .answerSelected pid answerId questionId →
    ¬ (Answers st ∧ FirstAnswer older st.pre) →
    st.post.pointsModel = st.pre.pointsModel
  ended : GameEnded older → TriviaOutput.gameEnded ∉ st.out ∧
    ∀ pid answerId questionId, st.label = .answerSelected pid answerId questionId →
      st.post.pointsModel = st.pre.pointsModel

/-- No message answers the last question once more after the game has ended. -/
def QuietAfterEnd (older : History τ)
    (st : Step (TriviaGame τ) TriviaEvent TriviaOutput) : Prop :=
  GameEnded older → ¬ Answers st

end TriviaGame

end GBerry.Games.Trivia
