import GBerry.Foundation.JavaScript
import Mathlib.Data.List.Basic
import Mathlib.Data.Rat.Floor
import Mathlib.Logic.Function.Basic

/-!
# `ReactGameModel`

The players press the numbers that the game shows, in their order, and the first one
who has pressed all of them wins.  A player's queue of numbers is found through an
index map, which is not cleared when the queues of a new game are made.
-/

namespace GBerry.Games.React

open GBerry.Foundation

inductive GameState where
  | UNINITIALIZED
  | COUNTDOWN
  | STARTED
  | ENDED
  deriving DecidableEq

inductive AppBoxMessage where
  /-- `createCustomAppBoxMsg` of an object that has an action only. -/
  | customAppBoxMsg (action : String)
  | showAppBoxMsg
  deriving DecidableEq

inductive ReactOutput where
  | sendPlayerMessage (pid : Int) (msg : AppBoxMessage)
  | playerCorrectNumber (pid : Int)
  | playerInvalidNumber (pid : Int)
  | playerWon (pid : Int)
  /-- An exception left the call. -/
  | threw (error : JsError)
  deriving DecidableEq

structure ReactGameModel where
  playersIDs : List Int
  playerIndexes : Int → Option Nat
  playersNumberQueue : List (List Int)
  numbers : List Int
  gameState : GameState

inductive ReactEvent where
  /-- `playerIds` is what the players manager answers. -/
  | initializePlayers (playerIds : List Int) (random : Nat → Random)
  /-- The count-down calls `start`, if it has been set up. -/
  | countDownFinished
  | playerMessageReceived (pid : Int) (js : JsValue)

namespace ReactGameModel

abbrev History := List (Step ReactGameModel ReactEvent ReactOutput)

def uninitialized : ReactGameModel where
  playersIDs := []
  playerIndexes := fun _ => none
  playersNumberQueue := []
  numbers := []
  gameState := .UNINITIALIZED

def numberLength : Nat := 4

def randomNumber (r : Random) : Int := ⌊r.val * 9 + 1 / 2⌋

/-- The assignments `_playerIndexes[_playersIDs[p]] = p`, from the index `p` on. -/
def indexPlayers (indexes : Int → Option Nat) (p : Nat) : List Int → Int → Option Nat
  | [] => indexes
  | pid :: rest => indexPlayers (Function.update indexes pid (some p)) (p + 1) rest

def initializePlayers (playerIds : List Int) (random : Nat → Random) :
    Action ReactGameModel ReactOutput := fun m =>
  ({ playersIDs := playerIds
     playerIndexes := indexPlayers m.playerIndexes 0 playerIds
     playersNumberQueue := playerIds.map fun _ => []
     numbers := (List.range numberLength).map fun i => randomNumber (random i)
     gameState := .COUNTDOWN },
    playerIds.flatMap fun pid =>
      [.sendPlayerMessage pid (.customAppBoxMsg "DisableControls"),
        .sendPlayerMessage pid .showAppBoxMsg])

def start : Action ReactGameModel ReactOutput := fun m =>
  ({ m with gameState := .STARTED },
    m.playersIDs.map fun pid => .sendPlayerMessage pid (.customAppBoxMsg "EnableControls"))

def correctNumber (pid : Int) (playerIndex : Nat) (playerNumberQueue : List Int) (n : Int) :
    Action ReactGameModel ReactOutput := fun m =>
  let pushed := playerNumberQueue ++ [n]
  let m' := { m with playersNumberQueue := m.playersNumberQueue.set playerIndex pushed }
  let feedback := [.sendPlayerMessage pid (.customAppBoxMsg "CorrectNumberFeedback"),
    .playerCorrectNumber pid]
  if pushed.length = m.numbers.length then
    ({ m' with gameState := .ENDED }, feedback ++ [.playerWon pid])
  else (m', feedback)

/-- The statements after `n` was parsed, where `none` is `NaN`. -/
def numberPressed (pid : Int) (n : Option Int) : Fallible ReactGameModel ReactOutput JsError :=
  fun m =>
    match (m.playerIndexes pid).bind fun i => (m.playersNumberQueue[i]?).map (i, ·) with
    | none => .error .typeError
    | some (playerIndex, playerNumberQueue) =>
        match m.numbers[playerNumberQueue.length]? with
        | none => .error .typeError
        | some referenceNumber =>
            if n = some referenceNumber then
              .ok (correctNumber pid playerIndex playerNumberQueue referenceNumber m)
            else
              .ok (m, [.sendPlayerMessage pid (.customAppBoxMsg "InvalidNumberFeedback"),
                .playerInvalidNumber pid])

def playerMessageReceived (pid : Int) (js : JsValue) :
    Fallible ReactGameModel ReactOutput JsError := fun m =>
  if m.gameState ≠ .STARTED then .ok (m, [])
  else
    match js.hasOwnProperty "number" with
    | .error e => .error e
    | .ok false => .ok (m, [])
    | .ok true =>
        match (js.get "number").text with
        | .error e => .error e
        | .ok text => numberPressed pid (JsValue.parseInt text) m

def handle : ReactEvent → Action ReactGameModel ReactOutput
  | .initializePlayers playerIds random => initializePlayers playerIds random
  | .countDownFinished => fun m => if m.gameState = .COUNTDOWN then start m else (m, [])
  | .playerMessageReceived pid js => Fallible.uncaught .threw (playerMessageReceived pid js)

def machine : Machine ReactGameModel ReactEvent ReactOutput Empty :=
  Action.machine uninitialized handle

def isWon : ReactOutput → Bool
  | .playerWon _ => true
  | _ => false

def initializes (st : Step ReactGameModel ReactEvent ReactOutput) : Bool :=
  match st.label with
  | .initializePlayers _ _ => true
  | _ => false

def wins (history : History) : List ReactOutput := (since initializes history).filter isWon

/-- The queue of one of the player's positions is complete. -/
def Complete (m : ReactGameModel) (pid : Int) : Prop :=
  ∃ i : Nat, m.playersIDs[i]? = some pid ∧ m.playersNumberQueue[i]? = some m.numbers

/--
No call throws, the queues are prefixes of the numbers, a message changes the queues of
its sender only, and a game is won once, with a complete queue.
-/
structure Fair (older : History) (st : Step ReactGameModel ReactEvent ReactOutput) : Prop where
  noThrow : ∀ e, ReactOutput.threw e ∉ st.out
  queues : st.post.playersNumberQueue.length = st.post.playersIDs.length ∧
    ∀ queue ∈ st.post.playersNumberQueue, queue <+: st.post.numbers
  own : ∀ pid js, st.label = .playerMessageReceived pid js →
    ∀ i : Nat, st.pre.playersIDs[i]? ≠ some pid →
      st.post.playersNumberQueue[i]? = st.pre.playersNumberQueue[i]?
  stranger : ∀ pid js, st.label = .playerMessageReceived pid js → pid ∉ st.pre.playersIDs →
    st.post = st.pre
  once : (wins (st :: older)).length ≤ 1
  complete : ∀ pid, ReactOutput.playerWon pid ∈ st.out → Complete st.post pid

/--
A message to the running game can be read, and the number in it comes from a player of
the game, or else from one with an index of an earlier game that is still in range and
the number is not the next one at that index.
-/
def Expected (m : ReactGameModel) (pid : Int) (js : JsValue) : Prop :=
  ∃ hasNumber, js.hasOwnProperty "number" = .ok hasNumber ∧
    (hasNumber = true → ∃ text, (js.get "number").text = .ok text ∧
      (pid ∈ m.playersIDs ∨ ∃ i ∈ m.playerIndexes pid, ∃ queue ∈ m.playersNumberQueue[i]?,
        JsValue.parseInt text ≠ m.numbers[queue.length]?))

def ExpectedMessage (st : Step ReactGameModel ReactEvent ReactOutput) : Prop :=
  ∀ pid js, st.label = .playerMessageReceived pid js → st.pre.gameState = .STARTED →
    Expected st.pre pid js

end ReactGameModel

end GBerry.Games.React
