import GBerry.Foundation.JavaScript
import GBerry.Foundation.Loop
import Mathlib.Algebra.Order.Ring.Rat
import Mathlib.Data.List.FinRange
import Mathlib.Data.List.Perm.Basic
import Mathlib.Data.Rat.Floor

/-!
# `QuestionsModel`

The questions of a trivia game are drawn at random from the list of all questions,
and so is the order of the answers of each.  The texts and the pictures of a question
are values of an arbitrary type; what is not defined is `none`.
-/

namespace GBerry.Games.Trivia

open GBerry.Foundation

structure Question (τ : Type) where
  question : Option τ
  image : Option τ
  a : Option τ
  b : Option τ
  c : Option τ
  d : Option τ
  /-- The label of the correct answer. -/
  answer : Option String
  question_id : Option Nat
  deriving DecidableEq

namespace Question

variable {τ : Type}

def label (q : Question τ) : String → Option τ
  | "a" => q.a
  | "b" => q.b
  | "c" => q.c
  | "d" => q.d
  | _ => none

def refAnswers : List String := ["a", "b", "c", "d"]

def answers (q : Question τ) : List τ := refAnswers.filterMap q.label

end Question

structure QuestionsModel (τ : Type) where
  allQuestions : List (Question τ)
  questions : List (Question τ)
  questionsMaxCount : Nat
  questionsCount : Nat
  questionIdIndex : Nat
  /-- `properties.maxQuestionsCount`. -/
  maxQuestionsCount : Nat
  /-- `properties.currentQuestionIndex`. -/
  currentQuestionIndex : Nat
  deriving DecidableEq

structure OrderLoop where
  all : List String
  newOrder : List String
  drawn : Nat
  deriving DecidableEq

structure QuestionsLoop (τ : Type) where
  tempQ : List (Question τ)
  questions : List (Question τ)
  drawn : Nat

namespace QuestionsModel

open Question

variable {τ : Type}

def getRandomInt (r : Random) (min max : Int) : Int :=
  ⌊r.val * ((max - min + 1 : Int) : Rat)⌋ + min

def randomIndex (r : Random) (length : Nat) : Nat :=
  (getRandomInt r 0 ((length : Int) - 1)).toNat

section Source

variable (random : Nat → Random)

def orderBody (s : OrderLoop) : Option OrderLoop :=
  let i := randomIndex (random s.drawn) s.all.length
  (s.all[i]?).map fun label =>
    { all := s.all.eraseIdx i, newOrder := s.newOrder ++ [label], drawn := s.drawn + 1 }

def randomAnswerOrder (fuel : Nat) (answersCount drawn : Nat) : Option OrderLoop :=
  whileLoop (fun s => decide (0 < s.all.length)) (orderBody random) fuel
    { all := refAnswers.take answersCount, newOrder := [], drawn := drawn }

def answersCount (q : Question τ) : Nat :=
  if q.d.isSome then 4
  else if q.c.isSome then 3
  else if q.b.isSome then 2
  else if q.a.isSome then 1
  else 0

/--
The tests of `answerShuffleList.length` are all of a value that is defined, so that
none of them fails; a label that is not in the list is not defined in the old question
either.
-/
def makeQuestion (questionOld : Question τ) (answerShuffleList : List String) :
    Question τ where
  question := questionOld.question
  image := questionOld.image
  a := answerShuffleList[0]?.bind questionOld.label
  b := answerShuffleList[1]?.bind questionOld.label
  c := answerShuffleList[2]?.bind questionOld.label
  d := answerShuffleList[3]?.bind questionOld.label
  answer := questionOld.answer.bind fun answer =>
    (answerShuffleList.idxOf? answer).bind fun answerIndex => refAnswers[answerIndex]?
  question_id := none

def questionsBody (fuel : Nat) (s : QuestionsLoop τ) : Option (QuestionsLoop τ) :=
  let i := randomIndex (random s.drawn) s.tempQ.length
  (s.tempQ[i]?).bind fun questionOld =>
    (randomAnswerOrder random fuel (answersCount questionOld) (s.drawn + 1)).map fun order =>
      { tempQ := s.tempQ.eraseIdx i
        questions := s.questions ++ [makeQuestion questionOld order.newOrder]
        drawn := order.drawn }

def newGame (m : QuestionsModel τ) (questions : List (Question τ)) : QuestionsModel τ :=
  { m with
    questions := questions
    questionsMaxCount := questions.length
    questionsCount := 0
    maxQuestionsCount := questions.length
    currentQuestionIndex := 1
    questionIdIndex := m.questionIdIndex + 1 }

/-- The list of all questions is copied, and only the copy loses its elements. -/
def setupGame (fuel : Nat) (maxQuestionsCount : Nat) (m : QuestionsModel τ) :
    Option (QuestionsModel τ) :=
  (whileLoop
    (fun s => decide (s.questions.length < m.allQuestions.length) &&
      decide (s.questions.length < maxQuestionsCount))
    (questionsBody random fuel) fuel
    { tempQ := m.allQuestions, questions := [], drawn := 0 }).map fun s =>
      newGame m s.questions

end Source

/-- The defined answers are the first ones, and the correct one is among them. -/
structure Contiguous (q : Question τ) : Prop where
  b : q.b.isSome = true → q.a.isSome = true
  c : q.c.isSome = true → q.b.isSome = true
  d : q.d.isSome = true → q.c.isSome = true
  answer : ∃ label ∈ q.answer, (q.label label).isSome = true

structure MadeFrom (old new : Question τ) : Prop where
  question : new.question = old.question
  image : new.image = old.image
  labels : ∀ label, (new.label label).isSome = true ↔ label ∈ refAnswers.take (answersCount old)
  answers : new.answers.Perm old.answers
  answer : ∃ label ∈ old.answer, ∃ label' ∈ new.answer, ∃ text ∈ old.label label,
    new.label label' = some text

structure Shuffled (maxQuestionsCount : Nat) (m m' : QuestionsModel τ) : Prop where
  length : m'.questions.length = min maxQuestionsCount m.allQuestions.length
  made : ∃ positions : List (Fin m.allQuestions.length), positions.Nodup ∧
    List.Forall₂ (fun i q => MadeFrom (m.allQuestions.get i) q) positions m'.questions
  allQuestions : m'.allQuestions = m.allQuestions

end QuestionsModel

end GBerry.Games.Trivia
