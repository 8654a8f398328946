import GBerry.Games.TicTacToe.GameModel.Verdict
import GBerry.Games.TicTacToe.Party

/-!
# What the phones should show

The window decides which states the app box of a player may be in, and which cells it
shows as marked.  Every act of the window sends what brings the phones there.
-/

namespace GBerry.Games.TicTacToe.Window

open GBerry.Common
open GBerry.Foundation
open AppBox (boardview coordinate unmarked)
open Phone (receive)
open Party (sentTo)

section Definitions

def turnState (game : GameModel) (pid : Int) : String :=
  if pid = game.currentPlayer then "PLAY_GAME_MY_TURN" else "PLAY_GAME_WAIT_TURN"

def endState (game : GameModel) (pid : Int) : String :=
  if pid = game.currentPlayer then "END_GAME_WINNER" else "END_GAME_LOOSER"

/-- The states for the players that are not in the game. -/
def spectatorStates : List String := ["WAIT_GAME", "WAITING_PLAYERS"]

def waitingStates (joined : Players) (pid : Int) : List String :=
  match joined.player1, joined.player2 with
  | none, _ => ["WAITING_PLAYERS"]
  | some player1, none =>
      if pid = player1.id then ["JOINED_WAITING"] else ["WAITING_PLAYERS"]
  | some player1, some player2 =>
      if pid = player1.id ∨ pid = player2.id then ["PLAY_GAME_WAIT_TURN"] else spectatorStates

/-- A player may have come in again after the end of the game. -/
def gameStates (game : GameModel) (pid : Int) : List String :=
  if pid = game.player1ID ∨ pid = game.player2ID then
    if game.gameEnded then [endState game pid, "WAIT_GAME"] else [turnState game pid]
  else spectatorStates

def marks (game : GameModel) : Fin 3 → Fin 3 → Bool := fun i j => game.columns i j ≠ .unselected

/-- The app box is in one of the states, and shows these cells on its board. -/
structure ShowsOneOf (box : AppBox) (states : List String) (marked : Fin 3 → Fin 3 → Bool) :
    Prop where
  state : box.state ∈ states
  marked : (boardview box.state).visible = true → box.marked = marked

/-- What the app box of a player shows when nothing is under way. -/
def Shows (w : Window) (pid : Int) (box : AppBox) : Prop :=
  match w.mainarea, w.game with
  | .WAITING_PLAYERS, _ => ShowsOneOf box (waitingStates w.joined pid) unmarked
  | .GAME, some game => ShowsOneOf box (gameStates game pid) (marks game)
  | .GAME, none => False

structure Playing (w : Window) (game : GameModel) : Prop where
  distinct : game.player1ID ≠ game.player2ID
  currentPlayer : game.currentPlayer = game.player1ID ∨ game.currentPlayer = game.player2ID
  ended : game.gameEnded = true → game.enableTurns = false
  fading : w.fadingIn = true → game.enableTurns = false ∧ game.gameEnded = false
  players : game.gameEnded = false → ∀ pid, w.isPlaying pid = true ↔
    pid = game.player1ID ∨ pid = game.player2ID
  present : game.gameEnded = false → ∀ pid, w.isPlaying pid = true → pid ∈ w.playerNames

structure Good (w : Window) : Prop where
  second : w.joined.player2.isSome = true → w.joined.player1.isSome = true
  distinct : ∀ player1 player2, w.joined.player1 = some player1 →
    w.joined.player2 = some player2 → player1.id ≠ player2.id
  nameBox : w.firstPlayerBoxVisible = w.joined.player1.isSome
  ended : ∀ game, w.game = some game → game.gameEnded = true → w.players = .undefined
  present : w.mainarea = .WAITING_PLAYERS → ∀ pid,
    PlayerWaitingModel.hasJoined w.joined pid = true → pid ∈ w.playerNames
  waiting : w.mainarea = .WAITING_PLAYERS → w.fadingIn = false
  full : w.mainarea = .GAME → w.joined.player2.isSome = true ∧ w.secondPlayerSliding = false
  game : w.mainarea = .GAME → ∃ game, w.game = some game ∧ w.Playing game

/-- The outputs bring the app boxes from what they should show to what they should show. -/
def Follows (w w' : Window) (out : List WindowOutput) : Prop :=
  ∀ pid box, w.Shows pid box →
    ∃ box', (sentTo pid out).foldl receive (some box) = some box' ∧ w'.Shows pid box'

end Definitions

end GBerry.Games.TicTacToe.Window
