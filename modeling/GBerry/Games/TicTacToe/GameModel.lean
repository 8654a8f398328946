import GBerry.Foundation.JavaScript
import Mathlib.Data.Finset.Card
import Mathlib.Data.Fintype.Prod

/-!
# `GameModel`

The board of tic-tac-toe, whose cells are marked by messages of the players in turn.
The coordinates of a message are used as they come: as names of members when the cell is
looked up, and by strict comparison when the lines through it are checked.
-/

namespace GBerry.Games.TicTacToe

open GBerry.Foundation

inductive Mark where
  | unselected
  | x
  | o
  deriving DecidableEq

abbrev Board := Fin 3 → Fin 3 → Mark

structure Line where
  x1 : Fin 3
  y1 : Fin 3
  x2 : Fin 3
  y2 : Fin 3
  deriving DecidableEq

inductive AppBoxMessage where
  | markCell (x y : JsValue)
  | moveToState (state : String)

inductive GameOutput where
  | cellMarked (type : Mark) (x y : JsValue)
  | gameEnded (playerNumber : Nat) (line : Line)
  | gameEndedDraw
  | turnSwitched (playerNumber : Nat)
  | sendPlayerMessage (pid : Int) (msg : AppBoxMessage)
  | returned (handled : Bool)
  /-- An exception left the call. -/
  | threw (error : JsError)

structure GameModel where
  player1ID : Int
  player2ID : Int
  currentPlayer : Int
  columns : Board
  markedCells : Nat
  gameEnded : Bool
  enableTurns : Bool

structure PlayerMessage where
  pid : Int
  js : JsValue

namespace GameModel

abbrev GameStep := Step GameModel PlayerMessage GameOutput

def initGame (player1ID player2ID : Int) : GameModel where
  player1ID := player1ID
  player2ID := player2ID
  currentPlayer := player1ID
  columns := fun _ _ => .unselected
  markedCells := 0
  gameEnded := false
  enableTurns := false

def enableTurns' (m : GameModel) : GameModel := { m with enableTurns := true }

def playerNumber (m : GameModel) : Nat := if m.currentPlayer = m.player1ID then 1 else 2

def playerMark (m : GameModel) : Mark := if m.currentPlayer = m.player1ID then .x else .o

section Ending

def sendEndGameMessages (m : GameModel) : List GameOutput :=
  if m.playerNumber = 1 then
    [.sendPlayerMessage m.player1ID (.moveToState "END_GAME_WINNER"),
      .sendPlayerMessage m.player2ID (.moveToState "END_GAME_LOOSER")]
  else
    [.sendPlayerMessage m.player1ID (.moveToState "END_GAME_LOOSER"),
      .sendPlayerMessage m.player2ID (.moveToState "END_GAME_WINNER")]

def endGameProcedures : Action GameModel GameOutput := fun m =>
  ({ m with gameEnded := true, enableTurns := false }, m.sendEndGameMessages)

/-- The three checks look at the ends first, and at the middle cell then. -/
def checkCells (m : GameModel) (line : Line) (straight : Bool) (middle : Mark) : Bool :=
  m.columns line.x1 line.y1 = m.playerMark && m.columns line.x2 line.y2 = m.playerMark &&
    (straight && middle = m.playerMark)

def checkRow (m : GameModel) (line : Line) : Bool :=
  m.checkCells line (line.y1 = line.y2) (m.columns (line.x2 / 2) line.y1)

def checkColumn (m : GameModel) (line : Line) : Bool :=
  m.checkCells line (line.x1 = line.x2) (m.columns line.x1 (line.y2 / 2))

def checkDiagonal (m : GameModel) (line : Line) : Bool :=
  m.checkCells line true (m.columns (line.x2 / 2) (max line.y1 line.y2 / 2))

def endChecks (m : GameModel) (x y : JsValue) : List (Bool × Line) :=
  [(y.strictEquals (.number "0") && m.checkRow ⟨0, 0, 2, 0⟩, ⟨0, 0, 2, 0⟩),
    (y.strictEquals (.number "1") && m.checkRow ⟨0, 1, 2, 1⟩, ⟨0, 1, 2, 1⟩),
    (y.strictEquals (.number "2") && m.checkRow ⟨0, 2, 2, 2⟩, ⟨0, 2, 2, 2⟩),
    (x.strictEquals (.number "0") && m.checkColumn ⟨0, 0, 0, 2⟩, ⟨0, 0, 0, 2⟩),
    (x.strictEquals (.number "1") && m.checkColumn ⟨1, 0, 1, 2⟩, ⟨1, 0, 1, 2⟩),
    (x.strictEquals (.number "2") && m.checkColumn ⟨2, 0, 2, 2⟩, ⟨2, 0, 2, 2⟩),
    (x.strictEquals y && m.checkDiagonal ⟨0, 0, 2, 2⟩, ⟨0, 0, 2, 2⟩),
    (m.checkDiagonal ⟨0, 2, 2, 0⟩, ⟨0, 2, 2, 0⟩)]

def switchPlayerTurn : Action GameModel GameOutput := fun m =>
  if m.currentPlayer = m.player1ID then
    ({ m with currentPlayer := m.player2ID },
      [.turnSwitched 2,
        .sendPlayerMessage m.player1ID (.moveToState "PLAY_GAME_WAIT_TURN"),
        .sendPlayerMessage m.player2ID (.moveToState "PLAY_GAME_MY_TURN")])
  else
    ({ m with currentPlayer := m.player1ID },
      [.turnSwitched 1,
        .sendPlayerMessage m.player1ID (.moveToState "PLAY_GAME_MY_TURN"),
        .sendPlayerMessage m.player2ID (.moveToState "PLAY_GAME_WAIT_TURN")])

/-- `checkGameEndCondition`, and the turn of the other player if the game goes on. -/
def checkGameEndCondition (x y : JsValue) : Action GameModel GameOutput := fun m =>
  match (m.endChecks x y).find? Prod.fst with
  | some (_, line) =>
      endGameProcedures.andThen (fun m => (m, [.gameEnded m.playerNumber line])) m
  | none =>
      if m.markedCells = 9 then endGameProcedures.andThen (.emit .gameEndedDraw) m
      else switchPlayerTurn m

end Ending

section Marking

def index? : String → Option (Fin 3)
  | "0" => some 0
  | "1" => some 1
  | "2" => some 2
  | _ => none

/--
The cell that `_columns[x][y]` reads, or `none` for another member of an array, whose
value is not the text of a cell.  A column that is not defined has no members.
-/
def lookUp (x y : JsValue) : Except JsError (Option (Fin 3 × Fin 3)) :=
  match x.text with
  | .error e => .error e
  | .ok column =>
      match index? column with
      | some i =>
          match y.text with
          | .error e => .error e
          | .ok cell => .ok ((index? cell).map fun j => (i, j))
      | none =>
          if JsValue.arrayPrototype.contains column then
            match y.text with
            | .error e => .error e
            | .ok _ => .ok none
          else .error .typeError

def coordinates (x y : JsValue) : Except JsError String :=
  match x.callToString with
  | .error e => .error e
  | .ok xText =>
      match y.callToString with
      | .error e => .error e
      | .ok yText => .ok (xText ++ "," ++ yText)

def setCell (columns : Board) (i j : Fin 3) (type : Mark) : Board := fun i' j' =>
  if i' = i ∧ j' = j then type else columns i' j'

def mark (i j : Fin 3) (x y : JsValue) : Action GameModel GameOutput := fun m =>
  Action.andThen
    (fun m =>
      ({ m with
          columns := setCell m.columns i j m.playerMark
          markedCells := m.markedCells + 1 },
        [.cellMarked m.playerMark x y, .sendPlayerMessage m.player1ID (.markCell x y),
          .sendPlayerMessage m.player2ID (.markCell x y)]))
    (checkGameEndCondition x y) m

def alreadyMarked (x y : JsValue) : Fallible GameModel GameOutput JsError := fun m =>
  match coordinates x y with
  | .error e => .error e
  | .ok _ => .ok (m, [])

def markCell (x y : JsValue) : Fallible GameModel GameOutput JsError := fun m =>
  if m.gameEnded then .ok (m, [])
  else
    match lookUp x y with
    | .error e => .error e
    | .ok none => alreadyMarked x y m
    | .ok (some (i, j)) =>
        if m.columns i j = .unselected then .ok (mark i j x y m) else alreadyMarked x y m

end Marking

def returning (handled : Bool) : Fallible GameModel GameOutput JsError :=
  .emit [.returned handled]

/-- Everything that throws throws before anything has been changed. -/
def playerMessageReceived (pid : Int) (js : JsValue) :
    Fallible GameModel GameOutput JsError := fun m =>
  match js.hasOwnProperty "action" with
  | .error e => .error e
  | .ok false =>
      match js.callToString with
      | .error e => .error e
      | .ok _ => returning false m
  | .ok true =>
      if (js.get "action").strictEquals (.string "SelectCell") then
        if m.enableTurns && pid = m.currentPlayer then
          (markCell (js.get "x") (js.get "y")).andThen (returning true) m
        else returning true m
      else returning false m

def handle (message : PlayerMessage) : Action GameModel GameOutput :=
  Fallible.uncaught .threw (playerMessageReceived message.pid message.js)

def machine (player1ID player2ID : Int) : Machine GameModel PlayerMessage GameOutput Empty :=
  Action.machine (initGame player1ID player2ID).enableTurns' handle

end GameModel

end GBerry.Games.TicTacToe
