import GBerry.Common.QMap
import GBerry.Games.TicTacToe.AppBox
import GBerry.Games.TicTacToe.PlayerWaitingModel

/-!
# The window of the game

`main.qml`: players wait for the game, and play it.  The name box of the second player
slides in before the game starts, also when the waiting starts over in the meantime, and
turns are enabled when the view of the game has faded in.  A name box that is to be
visible is not while the view that it is in is hidden.
-/

namespace GBerry.Games.TicTacToe

open GBerry.Common
open GBerry.Foundation

inductive MainState where
  | WAITING_PLAYERS
  | GAME
  deriving DecidableEq

inductive PhoneMessage where
  | DefineAppBox
  | ShowAppBox
  | DefineGeneralActions (actionIds : List String)
  | FeedbackMessage (message : String)
  /-- `Messages.createCustomAppBoxMsg`. -/
  | AppBoxMessage (data : AppBoxMessage)

inductive PhoneReply where
  | GeneralAction (id : String)
  | AppBoxMessage (data : JsValue)

inductive WindowOutput where
  | sendPlayerMessage (pid : Int) (msg : PhoneMessage)
  | sendAllPlayersMessage (msg : PhoneMessage)
  | quit
  | threw (error : JsError)

structure JoinView where
  visible : Bool
  /-- `visible` before the players waited, which the state `GAME` restores. -/
  restored : Bool
  /-- `opacityAnimator` is running. -/
  fadingOut : Bool

structure Window where
  mainarea : MainState
  joinview : JoinView
  joined : Players
  /-- The players of the game model. -/
  players : Players
  /-- The rest of the game model, after the first `initGame`. -/
  game : Option GameModel
  firstPlayerBoxVisible : Bool
  /-- The animation of the name box of the second player has not finished. -/
  secondPlayerSliding : Bool
  /-- `opacityAnimator2` is running. -/
  fadingIn : Bool
  /-- The players of the players manager, with their names. -/
  playerNames : QMap Int String

namespace JoinView

/-- The view is shown first, and hidden when the animator is stopped then. -/
def enterWaitingPlayers (v : JoinView) : JoinView := ⟨!v.fadingOut, v.visible, false⟩

def enterGame (v : JoinView) : JoinView := ⟨v.restored, v.restored, true⟩

def fadeFinished (v : JoinView) : JoinView :=
  if v.fadingOut then { v with visible := false, fadingOut := false } else v

end JoinView

namespace Window

abbrev WindowAction := Action Window WindowOutput

def start : Window where
  mainarea := .WAITING_PLAYERS
  joinview := ⟨true, true, false⟩
  joined := .undefined
  players := .undefined
  game := none
  firstPlayerBoxVisible := false
  secondPlayerSliding := false
  fadingIn := false
  playerNames := ∅

section Sending

def sendPlayerMessage (pid : Int) (msg : PhoneMessage) : WindowAction :=
  .emit (.sendPlayerMessage pid msg)

def sendAllPlayersMessage (msg : PhoneMessage) : WindowAction :=
  .emit (.sendAllPlayersMessage msg)

def moveToState (state : String) : PhoneMessage := .AppBoxMessage (.moveToState state)

def exitAction : PhoneMessage := .DefineGeneralActions ["ExitGame"]

def abortAction : PhoneMessage := .DefineGeneralActions ["AbortGame"]

def playerName (w : Window) (pid : Int) : String := w.playerNames[pid]?.getD ""

end Sending

section States

def enableTurns (w : Window) : Window := { w with game := w.game.map GameModel.enableTurns' }

def resetWaitingPlayersState : WindowAction :=
  (Action.modify fun w => { w with joined := .undefined, firstPlayerBoxVisible := false }).andThen
    ((sendAllPlayersMessage (moveToState "WAITING_PLAYERS")).andThen
      (sendAllPlayersMessage exitAction))

/-- `mainarea.state = "WAITING_PLAYERS"`; an animator that is stopped enables turns. -/
def toWaitingPlayers : WindowAction := fun w =>
  if w.mainarea = .WAITING_PLAYERS then (w, [])
  else
    resetWaitingPlayersState
      { (if w.fadingIn then w.enableTurns else w) with
        mainarea := .WAITING_PLAYERS
        joinview := w.joinview.enterWaitingPlayers
        fadingIn := false }

def toGame : WindowAction := .modify fun w =>
  if w.mainarea = .GAME then w
  else
    { w with
      mainarea := .GAME
      joinview := w.joinview.enterGame
      players := w.joined
      game := some (.initGame (playerID w.joined.player1) (playerID w.joined.player2))
      fadingIn := true }

def isPlaying (w : Window) (pid : Int) : Bool :=
  isPlayer w.players.player1 pid || isPlayer w.players.player2 pid

end States

section Joining

def otherIds (w : Window) (player1 player2 : Int) : List Int :=
  w.playerNames.keys.filter fun pid => pid ≠ player1 && pid ≠ player2

def onSecondPlayerJoinedAnimationStarted : WindowAction := fun w =>
  let player1 := playerID w.joined.player1
  let player2 := playerID w.joined.player2
  let others := w.otherIds player1 player2
  ((sendPlayerMessage player1 (moveToState "PLAY_GAME_WAIT_TURN")).andThen
    ((sendPlayerMessage player2 (moveToState "PLAY_GAME_WAIT_TURN")).andThen
      ((Action.forEach (fun pid => sendPlayerMessage pid (moveToState "WAIT_GAME")) others).andThen
        (sendAllPlayersMessage abortAction)))) w

def joinFirstPlayer : WindowAction := .modify fun w => { w with firstPlayerBoxVisible := true }

def joinSecondPlayer : WindowAction :=
  (Action.modify fun w => { w with secondPlayerSliding := true }).andThen
    onSecondPlayerJoinedAnimationStarted

def onWaitingOutput : WaitingOutput → WindowAction
  | .player1Joined _ => joinFirstPlayer
  | .player2Joined _ => joinSecondPlayer
  | .sendPlayerMessage pid msg => sendPlayerMessage pid (.AppBoxMessage msg)

def join (joining : Action Players WaitingOutput) : WindowAction := fun w =>
  Action.forEach onWaitingOutput (joining w.joined).2 { w with joined := (joining w.joined).1 }

def onSecondPlayerJoinedAnimationFinished : WindowAction :=
  toGame.andThen fun w =>
    ((sendPlayerMessage (playerID w.joined.player1) (moveToState "PLAY_GAME_MY_TURN")).andThen
      (sendPlayerMessage (playerID w.joined.player2) (moveToState "PLAY_GAME_WAIT_TURN"))) w

def showsFirstPlayerBox (w : Window) : Bool := w.firstPlayerBoxVisible && w.joinview.visible

def slideFinished : WindowAction := fun w =>
  if w.secondPlayerSliding then
    if w.showsFirstPlayerBox then
      onSecondPlayerJoinedAnimationFinished { w with secondPlayerSliding := false }
    else ({ w with secondPlayerSliding := false }, [])
  else (w, [])

/-- `onStopped` of the animator, which has come to its end. -/
def fadeFinished : WindowAction := .modify fun w =>
  if w.fadingIn then { w.enableTurns with fadingIn := false } else w

def joinviewFaded : WindowAction := .modify fun w =>
  { w with joinview := w.joinview.fadeFinished }

end Joining

section Players

def onPlayerIn (pid : Int) (name : String) : WindowAction := fun w =>
  ((sendPlayerMessage pid .DefineAppBox).andThen
    ((sendPlayerMessage pid .ShowAppBox).andThen
      (if w.mainarea = .WAITING_PLAYERS then
        (sendPlayerMessage pid (moveToState "WAITING_PLAYERS")).andThen
          (sendPlayerMessage pid exitAction)
      else
        (sendPlayerMessage pid (moveToState "WAIT_GAME")).andThen
          (sendPlayerMessage pid abortAction))))
    { w with playerNames := w.playerNames.insert pid name }

def feedback (msg : String) : WindowAction := sendAllPlayersMessage (.FeedbackMessage msg)

def onPlayerOut (pid : Int) : WindowAction := fun w =>
  let w := { w with playerNames := w.playerNames.erase pid }
  if w.mainarea = .WAITING_PLAYERS ∧ PlayerWaitingModel.hasJoined w.joined pid = true then
    (resetWaitingPlayersState.andThen (feedback "Joined player left the game.")) w
  else if w.mainarea = .GAME ∧ w.isPlaying pid = true then
    (toWaitingPlayers.andThen (feedback "Game abort because player left the game.")) w
  else (w, [])

end Players

section Messages

def onGeneralAction (pid : Int) (id : String) : WindowAction := fun w =>
  if id = "AbortGame" then
    ((if w.mainarea = .WAITING_PLAYERS then resetWaitingPlayersState else toWaitingPlayers).andThen
      (feedback ("Player '" ++ w.playerName pid ++ "' aborted the game."))) w
  else if id = "ExitGame" then
    ((feedback ("Player '" ++ w.playerName pid ++ "' selected Exit Game.")).andThen
      (.emit .quit)) w
  else (w, [])

def windowOutput : GameOutput → Option WindowOutput
  | .sendPlayerMessage pid msg => some (.sendPlayerMessage pid (.AppBoxMessage msg))
  | _ => none

def isHandled : GameOutput → Bool
  | .returned handled => handled
  | _ => false

def gameMessageReceived (w : Window) (pid : Int) (js : JsValue) :
    Except JsError ((Window × List WindowOutput) × Bool) :=
  match w.game with
  | none =>
      -- without a game, turns are not enabled
      match js.hasOwnProperty "action" with
      | .error e => .error e
      | .ok hasAction =>
          .ok ((w, []), hasAction && (js.get "action").strictEquals (.string "SelectCell"))
  | some game =>
      match game.playerMessageReceived pid js with
      | .error e => .error e
      | .ok (game, out) =>
          .ok (({ w with
              game := some game
              players := if game.gameEnded then .undefined else w.players },
            out.filterMap windowOutput), out.any isHandled)

def onOtherMessage (pid : Int) (js : JsValue) : WindowAction := fun w =>
  if (js.get "action").strictEquals (.string "NextGame") then toWaitingPlayers w
  else if (js.get "action").strictEquals (.string "CancelJoin") ∧
      w.mainarea = .WAITING_PLAYERS then
    (resetWaitingPlayersState.andThen
      (feedback ("Player '" ++ w.playerName pid ++ "' cancelled joining."))) w
  else (w, [])

def onAppBoxMessage (pid : Int) (js : JsValue) : WindowAction := fun w =>
  match w.gameMessageReceived pid js with
  | .error e => (w, [.threw e])
  | .ok (result, true) => result
  | .ok (result, false) =>
      match PlayerWaitingModel.playerMessageReceived pid (result.1.playerName pid) js with
      | (joining, true) => (join joining result.1).map id (result.2 ++ ·)
      | (_, false) => (onOtherMessage pid js result.1).map id (result.2 ++ ·)

def onPlayerMessageReceived (pid : Int) : PhoneReply → WindowAction
  | .GeneralAction id => onGeneralAction pid id
  | .AppBoxMessage js => onAppBoxMessage pid js

end Messages

end Window

end GBerry.Games.TicTacToe
