import GBerry.Protocol.Players
import GBerry.Foundation.Fallible
import GBerry.Server.WebsocketServer

/-!
# Players between the websocket server and the channel protocol

`PlayerConnectionManager` is connected to the signals of `WebsocketServer`, which are
handled while they are emitted.  It has the websocket server send what comes from the
south.
-/

namespace GBerry.Protocol

open GBerry.Common
open GBerry.Foundation
open GBerry.Server

structure PlayerConsole (β : Type) where
  websocket : WebsocketServer
  players : PlayerSystem β

inductive PlayerConsoleSignal (β : Type) where
  | websocket (signal : WebsocketSignal β)
  | players (signal : PlayerSignal β)

inductive PlayerConsoleEvent (β : Type) where
  /-- A new channel has a value that its constructor leaves open. -/
  | websocket (event : WebsocketEvent β) (uninitialised : PlayerChannelState)
  | protocol (ev : { ev : ProtocolEvent β // ev.ofPlayers = false })

variable {β : Type} [QByteArray β]

namespace PlayerConsole

def start : PlayerConsole β where
  websocket := .start
  players := .start

def react (uninitialised : PlayerChannelState) :
    WebsocketSignal β → Fallible (PlayerSystem β) (PlayerSignal β) Fault
  | .newPlayerConnection session => fun players =>
      players.onNewPlayerConnection ⟨session.playerId, session.playerName⟩ uninitialised
  | .playerConnectionClosed playerId => fun players =>
      players.onPlayerConnectionClosed playerId.toInt
  | .playerMessageReceived playerId message => fun players =>
      players.onPlayerMessageReceivedFromNorth playerId.toInt message
  | _ => Fallible.skip

def deliver (websocket : WebsocketServer) :
    PlayerSignal β → List (PlayerConsoleSignal β)
  | .sendPlayerMessage playerId message =>
      .players (.sendPlayerMessage playerId message) ::
        (websocket.sendPlayerMessage (Int32.ofInt playerId) message).map .websocket
  | signal => [.players signal]

def step (s : PlayerConsole β) :
    PlayerConsoleEvent β → Except Fault (PlayerConsole β × List (PlayerConsoleSignal β))
  | .websocket event uninitialised =>
      let (websocket, signals) := s.websocket.perform event
      match Fallible.forEach (react uninitialised) signals s.players with
      | .error fault => .error fault
      | .ok (players, out) =>
          .ok (⟨websocket, players⟩, signals.map .websocket ++ out.flatMap (deliver websocket))
  | .protocol ev =>
      match s.players.perform ev.1 with
      | .error fault => .error fault
      | .ok (players, out) =>
          .ok ({ s with players := players }, out.flatMap (deliver s.websocket))

def machine (β : Type) [QByteArray β] :
    Machine (PlayerConsole β) (PlayerConsoleEvent β) (PlayerConsoleSignal β) Fault where
  init := start
  step := step

abbrev History (β : Type) :=
  List (Step (PlayerConsole β) (PlayerConsoleEvent β) (PlayerConsoleSignal β))

end PlayerConsole

end GBerry.Protocol
