import GBerry.Protocol.System
import GBerry.Server.PlayerConnectionManager

/-!
# Players and the channel protocol

The system of servers and clients together with the manager that connects it to
the websocket server.  Player channels are opened, closed and written by the
manager alone.
-/

namespace GBerry.Protocol

open GBerry.Common
open GBerry.Foundation
open GBerry.Server
open GBerry.Client

structure PlayerSystem (β : Type) where
  system : System β
  players : PlayerConnectionManager

inductive PlayerSignal (β : Type) where
  | protocol (signal : ProtocolSignal β)
  /-- `WebsocketServer::sendPlayerMessage`. -/
  | sendPlayerMessage (playerId : Int) (message : String)

/-- The operations that `PlayerConnectionManager` performs itself. -/
def ProtocolEvent.ofPlayers {β : Type} : ProtocolEvent β → Bool
  | .serverOperation op =>
      match op.1 with
      | .openPlayerChannel _ _ => true
      | .attachNorthPartner _ => true
      | .closePlayerChannel _ => true
      | .receivePlayerMessageFromNorth _ _ => true
      | _ => false
  | _ => false

inductive PlayerEvent (β : Type) where
  | protocol (ev : { ev : ProtocolEvent β // ev.ofPlayers = false })
  | newPlayerConnection (session : PlayerMeta) (uninitialised : PlayerChannelState)
  | playerConnectionClosed (playerId : Int)
  | playerMessageReceived (playerId : Int) (message : String)

variable {β : Type} [QByteArray β]

namespace PlayerSystem

def start : PlayerSystem β where
  system := System.start
  players := PlayerConnectionManager.start

def forward (players : PlayerConnectionManager) :
    ProtocolSignal β → List (PlayerSignal β)
  | .server (.playerMessageFromSouth channelId msg) =>
      .protocol (.server (.playerMessageFromSouth channelId msg)) ::
        (players.playerMessageFromSouth channelId msg).map fun asked =>
          .sendPlayerMessage asked.1 asked.2
  | signal => [.protocol signal]

def perform (s : PlayerSystem β) (ev : ProtocolEvent β) :
    Except Fault (PlayerSystem β × List (PlayerSignal β)) :=
  match s.system.step ev with
  | .error fault => .error fault
  | .ok (system, out) => .ok ({ s with system := system }, out.flatMap (forward s.players))

def onNewPlayerConnection (s : PlayerSystem β) (session : PlayerMeta)
    (uninitialised : PlayerChannelState) :
    Except Fault (PlayerSystem β × List (PlayerSignal β)) :=
  let channelId := s.system.server.channelIdCount
  match s.perform (.serverOperation ⟨.openPlayerChannel session uninitialised, rfl⟩) with
  | .error fault => .error fault
  | .ok (s, opened) =>
      let s := { s with players := s.players.registerPlayer session.pid.toInt channelId }
      match s.perform (.serverOperation ⟨.attachNorthPartner channelId, rfl⟩) with
      | .error fault => .error fault
      | .ok (s, attached) => .ok (s, opened ++ attached)

def onPlayerConnectionClosed (s : PlayerSystem β) (playerId : Int) :
    Except Fault (PlayerSystem β × List (PlayerSignal β)) :=
  match s.players.channelByPlayerId[playerId]? with
  | some channelId =>
      { s with players := s.players.removePlayer playerId channelId }.perform
        (.serverOperation ⟨.closePlayerChannel channelId, rfl⟩)
  | none => .ok (s, [])

def onPlayerMessageReceivedFromNorth (s : PlayerSystem β) (playerId : Int)
    (message : String) : Except Fault (PlayerSystem β × List (PlayerSignal β)) :=
  match s.players.channelByPlayerId[playerId]? with
  | some channelId => s.perform (.serverOperation
      ⟨.receivePlayerMessageFromNorth channelId (QByteArray.toLatin1 message), rfl⟩)
  | none => .ok (s, [])

def step (s : PlayerSystem β) :
    PlayerEvent β → Except Fault (PlayerSystem β × List (PlayerSignal β))
  | .protocol ev => s.perform ev.1
  | .newPlayerConnection session uninitialised =>
      s.onNewPlayerConnection session uninitialised
  | .playerConnectionClosed playerId => s.onPlayerConnectionClosed playerId
  | .playerMessageReceived playerId message =>
      s.onPlayerMessageReceivedFromNorth playerId message

def machine (β : Type) [QByteArray β] :
    Machine (PlayerSystem β) (PlayerEvent β) (PlayerSignal β) Fault where
  init := start
  step := step

abbrev History (β : Type) :=
  List (Step (PlayerSystem β) (PlayerEvent β) (PlayerSignal β))

end PlayerSystem

end GBerry.Protocol
