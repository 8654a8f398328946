import GBerry.Foundation.Execution
import GBerry.Server.PlayerChannel

/-!
# `ServerChannelManager`

The registered channels and the active connection, with the operations of the
class in the order of the source.  An operation answers with the new state and
the signals that leave the manager.  It fails where the source has undefined
behaviour: when the channel counter overflows its `int`, and when an element is
removed from an empty list.
-/

namespace GBerry.Server

open GBerry.Common
open GBerry.Foundation

inductive Fault where
  | intOverflow
  | emptyList
  deriving DecidableEq

/--
The arguments of `outgoingMessageToSouth`.  `registered` and `active` are not
sent: they record, for the moment of the `emit`, whether the connection had a
control channel and which connection was active.
-/
structure Outgoing (β : Type) where
  connectionId : Int
  channelId : Int
  msg : β
  registered : Bool
  active : Int

inductive Signal (β : Type) where
  | outgoingMessageToSouth (message : Outgoing β)
  | playerMessageFromSouth (channelId : Int) (msg : β)
  | playerRequestedMainMenu (channelId : Int)

structure ServerChannelManager where
  channelIdCount : Int
  playerChannels : QMap Int ServerSidePlayerChannel
  controlChannels : QMap Int ServerSideControlChannel
  activeConnectionIdsStack : List Int
  activeConnectionId : Int

def removeFirst : List Int → Except Fault (List Int)
  | [] => .error .emptyList
  | _ :: rest => .ok rest

namespace ServerChannelManager

open ServerSideControlChannel (CHANNEL_ID)

def start : ServerChannelManager where
  channelIdCount := 1
  playerChannels := ∅
  controlChannels := ∅
  activeConnectionIdsStack := []
  activeConnectionId := -1

variable {β : Type} [QByteArray β]

def hasActiveConnection (m : ServerChannelManager) : Bool :=
  m.activeConnectionId ≠ -1

def emit (m : ServerChannelManager) (connectionId channelId : Int) (msg : β) :
    Signal β :=
  .outgoingMessageToSouth
    { connectionId := connectionId
      channelId := channelId
      msg := msg
      registered := m.controlChannels.contains connectionId
      active := m.activeConnectionId }

def emitCommand (m : ServerChannelManager) (connectionId : Int) (command : String) :
    Signal β :=
  m.emit connectionId CHANNEL_ID (MessageFactory.createSimpleCommand command)

/-- The partners of a player channel: the south one needs an active connection. -/
def playerCall (m : ServerChannelManager) : ChannelCall β → List (Signal β)
  | .channelSendMessageToSouth partner msg =>
      if m.hasActiveConnection then [m.emit m.activeConnectionId partner msg] else []
  | .playerMessageFromSouth partner msg => [.playerMessageFromSouth partner msg]
  | .playerRequestedMainMenu channelId => [.playerRequestedMainMenu channelId]

def controlCall (m : ServerChannelManager) : ChannelCall β → List (Signal β)
  | .channelSendMessageToSouth partner msg => [m.emit partner CHANNEL_ID msg]
  | _ => []

def reopenPlayerChannels (m : ServerChannelManager) :
    ServerChannelManager × List (Signal β) :=
  ({ m with
      playerChannels := m.playerChannels.map fun _ ch => (ch.open' (β := β)).1 },
    m.playerChannels.toList.flatMap fun entry =>
      entry.2.open'.2.flatMap m.playerCall)

def closePlayerChannels (m : ServerChannelManager) : ServerChannelManager :=
  { m with playerChannels := m.playerChannels.map fun _ ch => ch.close }

def sendCloseChannelMessageToSouth (m : ServerChannelManager)
    (connectionId channelId : Int) : List (Signal β) :=
  [m.emit connectionId channelId (MessageFactory.createSimpleCommand "CloseChannel")]

def nextFreeChannelId (m : ServerChannelManager) :
    Except Fault (Int × ServerChannelManager) :=
  if m.channelIdCount = 2 ^ 31 - 1 then .error .intOverflow
  else .ok (m.channelIdCount, { m with channelIdCount := m.channelIdCount + 1 })

def applicationClosed (m : ServerChannelManager) (connectionId : Int) :
    Except Fault (ServerChannelManager × List (Signal β)) :=
  if m.controlChannels.contains connectionId then
    let m := { m with controlChannels := m.controlChannels.erase connectionId }
    let m := m.closePlayerChannels
    if connectionId = m.activeConnectionId then
      match removeFirst m.activeConnectionIdsStack with
      | .error fault => .error fault
      | .ok [] =>
          .ok ({ m with activeConnectionIdsStack := [], activeConnectionId := -1 }, [])
      | .ok (front :: rest) =>
          .ok { m with
            activeConnectionIdsStack := front :: rest
            activeConnectionId := front }.reopenPlayerChannels
    else .ok (m, [])
  else .ok (m, [])

/-- `uninitialised` is what `_state` of the new channel happens to hold. -/
def openPlayerChannel (m : ServerChannelManager) (playerMeta : PlayerMeta)
    (uninitialised : PlayerChannelState) :
    Except Fault (ServerChannelManager × List (Signal β)) :=
  match m.nextFreeChannelId with
  | .error fault => .error fault
  | .ok (channelId, m) =>
      let channel := ServerSidePlayerChannel.create channelId playerMeta uninitialised
      let opened := (channel.attachSouthPartner channelId).open'
      .ok ({ m with playerChannels := m.playerChannels.insert channel.id opened.1 },
        opened.2.flatMap m.playerCall)

def openControlChannel (m : ServerChannelManager) (connectionId : Int)
    (commands : List ICommand) : ServerChannelManager :=
  let channel := ServerSideControlChannel.create commands
  { m with
    controlChannels := m.controlChannels.insert connectionId
      (channel.attachSouthPartner connectionId).open' }

def closePlayerChannel (m : ServerChannelManager) (channelId : Int) :
    ServerChannelManager × List (Signal β) :=
  match m.playerChannels[channelId]? with
  | some ch =>
      -- nothing is sent for a channel that is opening, nor is the address checked
      ({ m with playerChannels := m.playerChannels.erase channelId },
        if ch.isOpen then
          m.sendCloseChannelMessageToSouth m.activeConnectionId ch.id
        else [])
  | none => (m, [])

def closeControlChannel (m : ServerChannelManager) (connectionId : Int) :
    ServerChannelManager × List (Signal β) :=
  match m.controlChannels[connectionId]? with
  | some ch =>
      let stack := m.activeConnectionIdsStack.filter (· ≠ connectionId)
      ({ m with
          controlChannels := m.controlChannels.erase connectionId
          activeConnectionIdsStack := stack
          activeConnectionId :=
            if connectionId = m.activeConnectionId then stack.headD (-1)
            else m.activeConnectionId },
        if ch.isOpen then m.sendCloseChannelMessageToSouth connectionId CHANNEL_ID
        else [])
  | none => (m, [])

def processMessageFromSouth (m : ServerChannelManager)
    (connectionId channelId : Int) (msg : β) :
    ServerChannelManager × List (Signal β) :=
  if channelId = CHANNEL_ID then
    match m.controlChannels[connectionId]? with
    | some ch => (m, (ch.receiveMessageFromSouth msg).flatMap m.controlCall)
    | none => (m, [])
  else if connectionId = m.activeConnectionId then
    match m.playerChannels[channelId]? with
    | some ch =>
        let (ch', calls) := ch.receiveMessageFromSouth msg
        ({ m with playerChannels := m.playerChannels.insert channelId ch' },
          calls.flatMap m.playerCall)
    | none => (m, [])
  else (m, [])

def activateConnection (m : ServerChannelManager) (connectionId : Int) :
    Except Fault (ServerChannelManager × List (Signal β)) :=
  if m.controlChannels.contains connectionId then
    let displaced : Except Fault (ServerChannelManager × List (Signal β)) :=
      if m.activeConnectionId ≠ -1 then
        match removeFirst m.activeConnectionIdsStack with
        | .error fault => .error fault
        | .ok stack =>
            -- the displaced connection leaves the stack, so nothing returns to it
            let m := { m with activeConnectionIdsStack := stack }.closePlayerChannels
            .ok (m, [m.emitCommand m.activeConnectionId "Deactivate"])
      else .ok (m, [])
    match displaced with
    | .error fault => .error fault
    | .ok (m, deactivated) =>
        let m := { m with
          activeConnectionId := connectionId
          activeConnectionIdsStack := connectionId :: m.activeConnectionIdsStack }
        let activated := m.emitCommand m.activeConnectionId "Activate"
        let reopened := m.reopenPlayerChannels
        .ok (reopened.1, deactivated ++ activated :: reopened.2)
  else .ok (m, [])

def deactivateConnection (m : ServerChannelManager) (connectionId : Int) :
    Except Fault (ServerChannelManager × List (Signal β)) :=
  if m.controlChannels.contains connectionId then
    if m.activeConnectionId ≠ connectionId then .ok (m, [])
    else
      let deactivated := m.emitCommand m.activeConnectionId "Deactivate"
      match removeFirst m.activeConnectionIdsStack with
      | .error fault => .error fault
      | .ok stack =>
          let m := { m with activeConnectionIdsStack := stack }.closePlayerChannels
          let m := { m with activeConnectionId := -1 }
          match m.activeConnectionIdsStack with
          | [] => .ok (m, [deactivated])
          | first :: _ =>
              match m.activateConnection first with
              | .error fault => .error fault
              | .ok (m, activated) => .ok (m, deactivated :: activated)
  else .ok (m, [])

def receivePlayerMessageFromNorth (m : ServerChannelManager) (channelId : Int)
    (msg : β) : List (Signal β) :=
  match m.playerChannels[channelId]? with
  | some ch => (ch.receivePlayerMessageFromNorth msg).flatMap m.playerCall
  | none => []

def attachNorthPartner (m : ServerChannelManager) (channelId : Int) :
    ServerChannelManager :=
  match m.playerChannels[channelId]? with
  | some ch => { m with
      playerChannels := m.playerChannels.insert channelId
        (ch.attachNorthPartner channelId) }
  | none => m

def pingSouth (m : ServerChannelManager) (connectionId : Int) : List (Signal β) :=
  match m.controlChannels[connectionId]? with
  | some ch => ch.pingSouth.flatMap m.controlCall
  | none => []

def sendJsonMessageToSouth (m : ServerChannelManager) (connectionId : Int)
    (json : JsonObject) : List (Signal β) :=
  match m.controlChannels[connectionId]? with
  | some ch => (ch.sendJsonMessageToSouth json).flatMap m.controlCall
  | none => []

end ServerChannelManager

/--
The calls that reach the manager and its channels.  Connection ids come from
the counter of `CommTcpServer` and are never negative.
-/
inductive ServerOp (β : Type) where
  | nextFreeChannelId
  | openPlayerChannel (playerMeta : PlayerMeta) (uninitialised : PlayerChannelState)
  | attachNorthPartner (channelId : Int)
  | openControlChannel (connectionId : Nat) (commands : List ICommand)
  | closePlayerChannel (channelId : Int)
  | closeControlChannel (connectionId : Nat)
  | activateConnection (connectionId : Nat)
  | deactivateConnection (connectionId : Nat)
  | applicationClosed (connectionId : Nat)
  | processMessageFromSouth (connectionId : Nat) (channelId : Int) (msg : β)
  | receivePlayerMessageFromNorth (channelId : Int) (msg : β)
  | pingSouth (connectionId : Nat)
  | sendJsonMessageToSouth (connectionId : Nat) (json : JsonObject)

def ServerOp.spontaneous {β : Type} : ServerOp β → Bool
  | .openControlChannel _ _ => false
  | .processMessageFromSouth _ _ _ => false
  | _ => true

namespace ServerChannelManager

variable {β : Type} [QByteArray β]

def step (m : ServerChannelManager) :
    ServerOp β → Except Fault (ServerChannelManager × List (Signal β))
  | .nextFreeChannelId =>
      match m.nextFreeChannelId with
      | .error fault => .error fault
      | .ok (_, m) => .ok (m, [])
  | .openPlayerChannel playerMeta uninitialised =>
      m.openPlayerChannel playerMeta uninitialised
  | .attachNorthPartner channelId => .ok (m.attachNorthPartner channelId, [])
  | .openControlChannel connectionId commands =>
      .ok (m.openControlChannel connectionId commands, [])
  | .closePlayerChannel channelId => .ok (m.closePlayerChannel channelId)
  | .closeControlChannel connectionId => .ok (m.closeControlChannel connectionId)
  | .activateConnection connectionId => m.activateConnection connectionId
  | .deactivateConnection connectionId => m.deactivateConnection connectionId
  | .applicationClosed connectionId => m.applicationClosed connectionId
  | .processMessageFromSouth connectionId channelId msg =>
      .ok (m.processMessageFromSouth connectionId channelId msg)
  | .receivePlayerMessageFromNorth channelId msg =>
      .ok (m, m.receivePlayerMessageFromNorth channelId msg)
  | .pingSouth connectionId => .ok (m, m.pingSouth connectionId)
  | .sendJsonMessageToSouth connectionId json =>
      .ok (m, m.sendJsonMessageToSouth connectionId json)

def machine (β : Type) [QByteArray β] :
    Machine ServerChannelManager (ServerOp β) (Signal β) Fault where
  init := start
  step := step

end ServerChannelManager

end GBerry.Server
