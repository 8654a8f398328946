import GBerry.Client.ChannelManager
import GBerry.Foundation.Fallible

/-!
# The players of an application

`PlayersManager` keeps four maps of the players by hand: their channels, what is
known of them, and the ids of players and channels in both directions.  Debug
players have no channel.  A pointer is missing where `operator[]` would make a
null one.
-/

namespace GBerry.Client

open GBerry.Common
open GBerry.Foundation

/-- A `ClientSidePlayerChannel`, known by its address. -/
structure PlayerChannelPointer where
  address : Nat
  channelId : Int
  deriving DecidableEq

inductive PlayersSignal (β : Type) where
  | attachPlayerChannelPartner (channel : PlayerChannelPointer)
  | sendPlayerMessage (channel : PlayerChannelPointer) (msg : β)
  | playerIn (playerId : Int32) (playerName : String)
  | playerOut (playerId : Int32) (playerName : String)
  | numberOfPlayersChanged
  | playerMessageReceived (playerId : Int32) (msg : β)
  | debugPlayerMessageReceived (playerId : Int32) (msg : β)
  deriving DecidableEq

inductive PlayersFault where
  | nullChannel
  deriving DecidableEq

inductive PlayersEvent (β : Type) where
  | newPlayer (channel : PlayerChannelPointer) (metadata : PlayerMeta)
  | playerExit (channelId : Int)
  | playerMessage (channelId : Int) (msg : β)
  | sendPlayerMessage (playerId : Int32) (msg : β)
  | sendAllPlayersMessage (msg : β)
  | registerDebugPlayer (playerName : String)
  | sendDebugPlayerMessage (playerId : Int32) (msg : β)

structure PlayersManager where
  channelsByPlayerId : QMap Int32 PlayerChannelPointer
  metas : QMap Int32 PlayerMeta
  playerIdsByChannelId : QMap Int Int32
  channelIdsByPlayerIds : QMap Int32 Int
  debugPlayerNamesByPlayerId : QMap Int32 String

def unknownPlayer : PlayerMeta where
  pid := -1
  name := "UNKNOWN"

abbrev PlayersProgram (β : Type) := Fallible PlayersManager (PlayersSignal β) PlayersFault

namespace PlayersManager

variable {β : Type}

def start : PlayersManager where
  channelsByPlayerId := ∅
  metas := ∅
  playerIdsByChannelId := ∅
  channelIdsByPlayerIds := ∅
  debugPlayerNamesByPlayerId := ∅

def newPlayer (channel : PlayerChannelPointer) (metadata : PlayerMeta) :
    PlayersProgram β := fun m =>
  if channel.channelId ∈ m.playerIdsByChannelId then .ok (m, [])
  else .ok ({ m with
      metas := m.metas.insert metadata.pid metadata
      playerIdsByChannelId := m.playerIdsByChannelId.insert channel.channelId metadata.pid
      channelIdsByPlayerIds := m.channelIdsByPlayerIds.insert metadata.pid channel.channelId
      channelsByPlayerId := m.channelsByPlayerId.insert metadata.pid channel },
    [.attachPlayerChannelPartner channel, .playerIn metadata.pid metadata.name,
      .numberOfPlayersChanged])

def playerExit (channelId : Int) : PlayersProgram β := fun m =>
  match m.playerIdsByChannelId[channelId]? with
  | none => .ok (m, [])
  | some playerId =>
      .ok ({ m with
          playerIdsByChannelId := m.playerIdsByChannelId.erase channelId
          channelIdsByPlayerIds := m.channelIdsByPlayerIds.erase playerId
          channelsByPlayerId := m.channelsByPlayerId.erase playerId
          metas := m.metas.erase playerId },
        [.playerOut playerId ((m.metas[playerId]?).getD unknownPlayer).name,
          .numberOfPlayersChanged])

def sendToChannel (msg : β) (playerId : Int32) : PlayersProgram β := fun m =>
  match m.channelsByPlayerId[playerId]? with
  | none => .error .nullChannel
  | some channel => .ok (m, [.sendPlayerMessage channel msg])

def sendPlayerMessage (playerId : Int32) (msg : β) : PlayersProgram β := fun m =>
  if playerId ∈ m.channelsByPlayerId then sendToChannel msg playerId m
  else if playerId ∈ m.debugPlayerNamesByPlayerId then
    .ok (m, [.debugPlayerMessageReceived playerId msg])
  else .ok (m, [])

def sendAllPlayersMessage (msg : β) : PlayersProgram β := fun m =>
  (Fallible.forEach (sendToChannel msg) m.channelIdsByPlayerIds.keys).andThen
    (Fallible.emit (m.debugPlayerNamesByPlayerId.keys.map
      (.debugPlayerMessageReceived · msg))) m

def registerDebugPlayer (playerName : String) : PlayersProgram β := fun m =>
  let newPid := Int32.ofNat (100000 + m.debugPlayerNamesByPlayerId.size)
  .ok ({ m with
      debugPlayerNamesByPlayerId := m.debugPlayerNamesByPlayerId.insert newPid playerName },
    [.numberOfPlayersChanged, .playerIn newPid playerName])

def playerMessage (channelId : Int) (msg : β) : PlayersProgram β := fun m =>
  match m.playerIdsByChannelId[channelId]? with
  | none => .ok (m, [])
  | some playerId => .ok (m, [.playerMessageReceived playerId msg])

def handle : PlayersEvent β → PlayersProgram β
  | .newPlayer channel metadata => newPlayer channel metadata
  | .playerExit channelId => playerExit channelId
  | .playerMessage channelId msg => playerMessage channelId msg
  | .sendPlayerMessage playerId msg => sendPlayerMessage playerId msg
  | .sendAllPlayersMessage msg => sendAllPlayersMessage msg
  | .registerDebugPlayer playerName => registerDebugPlayer playerName
  | .sendDebugPlayerMessage playerId msg => Fallible.emit [.playerMessageReceived playerId msg]

variable (β) in
def machine : Machine PlayersManager (PlayersEvent β) (PlayersSignal β) PlayersFault :=
  Fallible.machine start handle

abbrev History (β : Type) := List (Step PlayersManager (PlayersEvent β) (PlayersSignal β))

end PlayersManager

end GBerry.Client
