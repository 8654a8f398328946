import GBerry.Games.TicTacToe.GameModel

/-!
# `PlayerWaitingModel`

The two players that have joined the next game, in the order in which they did.
-/

namespace GBerry.Games.TicTacToe

open GBerry.Foundation

structure Player where
  id : Int
  name : String
  deriving DecidableEq

def playerID : Option Player → Int
  | some player => player.id
  | none => 0

structure Players where
  player1 : Option Player
  player2 : Option Player
  deriving DecidableEq

def Players.undefined : Players := ⟨none, none⟩

def isPlayer (player : Option Player) (pid : Int) : Bool :=
  player.any fun player => player.id = pid

inductive WaitingOutput where
  | player1Joined (name : String)
  | player2Joined (name : String)
  | sendPlayerMessage (pid : Int) (msg : AppBoxMessage)

namespace PlayerWaitingModel

def joinPlayer (playerId : Int) (playerName : String) : Action Players WaitingOutput :=
  fun joined =>
    match joined.player1, joined.player2 with
    | none, _ =>
        ({ joined with player1 := some ⟨playerId, playerName⟩ },
          [.player1Joined playerName, .sendPlayerMessage playerId (.moveToState "JOINED_WAITING")])
    | some player1, none =>
        if playerId ≠ player1.id then
          ({ joined with player2 := some ⟨playerId, playerName⟩ }, [.player2Joined playerName])
        else (joined, [])
    | some _, some _ => (joined, [])

def hasJoined (joined : Players) (playerID : Int) : Bool :=
  isPlayer joined.player1 playerID || isPlayer joined.player2 playerID

/-- Whether the message is one for this model; the players that are waited for, then. -/
def playerMessageReceived (pid : Int) (playerName : String) (js : JsValue) :
    Action Players WaitingOutput × Bool :=
  if (js.get "action").strictEquals (.string "JoinGame") then (joinPlayer pid playerName, true)
  else (.skip, false)

end PlayerWaitingModel

end GBerry.Games.TicTacToe
