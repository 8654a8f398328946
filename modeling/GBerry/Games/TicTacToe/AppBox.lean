import GBerry.Games.TicTacToe.GameModel

/-!
# `AppBox`

What a phone shows of the game: the board, on which the player selects a cell when
it is the turn of the player, or a dialog with a button.  The cells that are marked are
forgotten when the board is shown again.
-/

namespace GBerry.Games.TicTacToe

open GBerry.Foundation

/-- The changes of the properties of `boardview`; a property is reset otherwise. -/
structure AppBoxState where
  name : String
  visible : Bool
  myturn : Bool
  endgame : Nat
  deriving DecidableEq

structure AppBox where
  state : String
  /-- The cells that are shown as marked. -/
  marked : Fin 3 → Fin 3 → Bool

namespace AppBox

def states : List AppBoxState :=
  [⟨"INITIAL", false, false, 0⟩,
    ⟨"WAITING_PLAYERS", false, false, 0⟩,
    ⟨"JOINED_WAITING", false, false, 0⟩,
    ⟨"PLAY_GAME_MY_TURN", true, true, 0⟩,
    ⟨"PLAY_GAME_WAIT_TURN", true, false, 0⟩,
    ⟨"WAIT_GAME", false, false, 0⟩,
    ⟨"END_GAME_WINNER", true, false, 1⟩,
    ⟨"END_GAME_LOOSER", true, false, 2⟩]

def boardview (state : String) : AppBoxState :=
  (states.find? fun s => s.name == state).getD ⟨state, false, false, 0⟩

def unmarked : Fin 3 → Fin 3 → Bool := fun _ _ => false

def created : AppBox := ⟨"INITIAL", unmarked⟩

/-- The board is reset when it becomes visible. -/
def moveToState (box : AppBox) (state : String) : AppBox where
  state := state
  marked :=
    if !(boardview box.state).visible && (boardview state).visible then unmarked
    else box.marked

def coordinate (i : Fin 3) : JsValue := .number (toString i.val)

def markCell (box : AppBox) (x y : JsValue) : AppBox :=
  { box with
    marked := fun i j =>
      box.marked i j || ((coordinate i).strictEquals x && (coordinate j).strictEquals y) }

def incomingMessage (box : AppBox) : AppBoxMessage → AppBox
  | .moveToState state => box.moveToState state
  | .markCell x y => box.markCell x y

def outgoing (action : String) : JsValue := .object [("action", .string action)]

def cellSelected (box : AppBox) (x y : Fin 3) : List JsValue :=
  if (boardview box.state).myturn then
    [.object [("action", .string "SelectCell"), ("x", coordinate x), ("y", coordinate y)]]
  else []

def buttonClicked (box : AppBox) : List JsValue :=
  if box.state = "WAITING_PLAYERS" then [outgoing "JoinGame"]
  else if box.state = "JOINED_WAITING" then [outgoing "CancelJoin"]
  else if box.state = "END_GAME_LOOSER" ∨ box.state = "END_GAME_WINNER" then
    [outgoing "NextGame"]
  else []

end AppBox

end GBerry.Games.TicTacToe
