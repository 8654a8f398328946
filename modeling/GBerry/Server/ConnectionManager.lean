import GBerry.Server.ApplicationRegistry
import GBerry.Server.CommTcpServer

/-!
# `ConnectionManager` and its gatekeepers

A new connection gets a gatekeeper that asks for a `PingReply`.  While the
gatekeeper is registered, messages of the connection go to it, on whatever
channel they come; afterwards they go to the channel manager.  The server, the
registry and the channel manager are parts of the state, because the manager
calls them in the middle of its own operations.
-/

namespace GBerry.Server

open GBerry.Common
open GBerry.Foundation
open ServerSideControlChannel (CHANNEL_ID)

structure ConnectionGateKeeper where
  connectionId : Int
  timerActive : Bool

inductive Verdict where
  | waiting
  | validated (applicationId : String)
  | discarded
  deriving DecidableEq

inductive ConnectionSignal (β : Type) where
  /-- A frame written to the socket of a connection. -/
  | write (connectionId channelId : Int) (msg : β)
  | applicationConnectionValidated (appId : String)
  | toNorth (signal : Signal β)

structure ConnectionManager where
  tcpServer : CommTcpServer
  applicationRegistry : ApplicationRegistry
  channelManager : ServerChannelManager
  gatekeepers : QMap Int ConnectionGateKeeper

namespace CommTcpServer

def write {β : Type} (s : CommTcpServer) (connectionId channelId : Int) (msg : β) :
    List (ConnectionSignal β) :=
  if s.connections.contains connectionId then [.write connectionId channelId msg]
  else []

end CommTcpServer

section

variable {β : Type} [QByteArray β]

/--
`incomingMessage` of a gatekeeper.  Matching a code may use it up, whatever the
verdict.
-/
def ConnectionGateKeeper.incomingMessage (gatekeeper : ConnectionGateKeeper)
    (appRegistry : ApplicationRegistry) (msg : β) : Verdict × ApplicationRegistry :=
  match QByteArray.fromJson msg with
  | none => (.waiting, appRegistry)
  | some json =>
      if gatekeeper.timerActive then
        if JsonObject.isCommand json "PingReply" then
          if JsonObject.contains json "application_code" then
            let matched := appRegistry.matchCodeToApplication
              (JsonObject.value json "application_code").toString
            if matched.1 = "" then (.discarded, matched.2)
            else (.validated matched.1, matched.2)
          else (.validated "", appRegistry)
        else (.waiting, appRegistry)
      else (.waiting, appRegistry)

end

/--
The events of the connection manager, and what else changes its parts: sockets
that disconnect, players and `comms` that use the channel manager, and launches
that register codes.
-/
inductive ConnectionEvent (β : Type) where
  | applicationConnected (connectionId : Nat)
  | applicationDisconnected (connectionId : Nat)
  | incomingMessage (connectionId : Nat) (channelId : Int) (msg : β)
  | waitTimeout (connectionId : Nat)
  | socketDisconnect (connectionId : Nat)
  | channelOperation (op : { op : ServerOp β // op.spontaneous })
  | insertFixedIdentificationCode (appId code : String)
  | createIdentificationCode (appId : String) (elapsed : Int)

namespace ConnectionManager

variable {β : Type} [QByteArray β]

def start : ConnectionManager where
  tcpServer := CommTcpServer.start
  applicationRegistry := ApplicationRegistry.start
  channelManager := ServerChannelManager.start
  gatekeepers := ∅

def forward (s : ConnectionManager) : Signal β → List (ConnectionSignal β)
  | .outgoingMessageToSouth message =>
      s.tcpServer.write message.connectionId message.channelId message.msg
  | signal => [.toNorth signal]

def withChannels (s : ConnectionManager)
    (answer : Except Fault (ServerChannelManager × List (Signal β))) :
    Except Fault (ConnectionManager × List (ConnectionSignal β)) :=
  match answer with
  | .error fault => .error fault
  | .ok (channelManager, signals) =>
      .ok ({ s with channelManager := channelManager }, signals.flatMap s.forward)

/-- The server has registered the connection when it emits `connected`. -/
def applicationConnected (s : ConnectionManager) (connectionId : Int) :
    ConnectionManager × List (ConnectionSignal β) :=
  let tcpServer := s.tcpServer.register connectionId
  let gatekeeper : ConnectionGateKeeper :=
    { connectionId := connectionId, timerActive := true }
  ({ s with
      tcpServer := tcpServer
      gatekeepers := s.gatekeepers.insert connectionId gatekeeper },
    tcpServer.write connectionId CHANNEL_ID
      (MessageFactory.createSimpleCommand "Ping"))

def forgetApplication (s : ConnectionManager) (connectionId : Int) :
    Except Fault (ConnectionManager × List (ConnectionSignal β)) :=
  match s.withChannels (s.channelManager.applicationClosed connectionId) with
  | .error fault => .error fault
  | .ok (s, signals) =>
      .ok ({ s with
        applicationRegistry := s.applicationRegistry.removeLink connectionId }, signals)

/--
`CommTcpServer::closeConnection`, whose signal `disconnected` comes back as
`applicationDisconnected` before the call returns.
-/
def closeConnection (s : ConnectionManager) (connectionId : Int) :
    Except Fault (ConnectionManager × List (ConnectionSignal β)) :=
  if s.tcpServer.connections.contains connectionId then
    let tcpServer := { s.tcpServer with
      connections := s.tcpServer.connections.erase connectionId }
    { s with tcpServer := tcpServer }.forgetApplication connectionId
  else .ok (s, [])

def applicationDisconnected (s : ConnectionManager) (connectionId : Int) :
    Except Fault (ConnectionManager × List (ConnectionSignal β)) :=
  match s.closeConnection connectionId with
  | .error fault => .error fault
  | .ok (s, signals) =>
      match s.forgetApplication connectionId with
      | .error fault => .error fault
      | .ok (s, signals') => .ok (s, signals ++ signals')

def onConnectionValidationOK (factory : Int → List ICommand) (s : ConnectionManager)
    (connectionId : Nat) (applicationId : String) :
    Except Fault (ConnectionManager × List (ConnectionSignal β)) :=
  let s := { s with
    gatekeepers := s.gatekeepers.erase connectionId
    applicationRegistry := s.applicationRegistry.createLink connectionId applicationId
    channelManager :=
      s.channelManager.openControlChannel connectionId (factory connectionId) }
  match s.withChannels (s.channelManager.activateConnection connectionId) with
  | .error fault => .error fault
  | .ok (s, signals) =>
      .ok (s, signals ++ [.applicationConnectionValidated applicationId])

def onConnectionValidationFailed (s : ConnectionManager) (connectionId : Int) :
    Except Fault (ConnectionManager × List (ConnectionSignal β)) :=
  { s with gatekeepers := s.gatekeepers.erase connectionId }.closeConnection connectionId

def incomingMessage (factory : Int → List ICommand) (s : ConnectionManager)
    (connectionId : Nat) (channelId : Int) (msg : β) :
    Except Fault (ConnectionManager × List (ConnectionSignal β)) :=
  match s.gatekeepers[(connectionId : Int)]? with
  | some gatekeeper =>
      let (verdict, registry) :=
        gatekeeper.incomingMessage s.applicationRegistry msg
      let s := { s with applicationRegistry := registry }
      match verdict with
      | .waiting => .ok (s, [])
      | .validated applicationId =>
          s.onConnectionValidationOK factory connectionId applicationId
      | .discarded => s.onConnectionValidationFailed connectionId
  | none => s.withChannels (.ok
      (s.channelManager.processMessageFromSouth connectionId channelId msg))

def waitTimeout (s : ConnectionManager) (connectionId : Int) :
    Except Fault (ConnectionManager × List (ConnectionSignal β)) :=
  match s.gatekeepers[connectionId]? with
  | some gatekeeper =>
      if gatekeeper.timerActive then s.onConnectionValidationFailed connectionId
      else .ok (s, [])
  | none => .ok (s, [])

def socketDisconnect (s : ConnectionManager) (connectionId : Int) :
    Except Fault (ConnectionManager × List (ConnectionSignal β)) :=
  if s.tcpServer.sockets.contains connectionId then
    match s.closeConnection connectionId with
    | .error fault => .error fault
    | .ok (s, signals) =>
        let tcpServer := { s.tcpServer with
          sockets := s.tcpServer.sockets.erase connectionId }
        .ok ({ s with tcpServer := tcpServer }, signals)
  else .ok (s, [])

def step (factory : Int → List ICommand) (s : ConnectionManager) :
    ConnectionEvent β → Except Fault (ConnectionManager × List (ConnectionSignal β))
  | .applicationConnected connectionId => .ok (s.applicationConnected connectionId)
  | .applicationDisconnected connectionId => s.applicationDisconnected connectionId
  | .incomingMessage connectionId channelId msg =>
      s.incomingMessage factory connectionId channelId msg
  | .waitTimeout connectionId => s.waitTimeout connectionId
  | .socketDisconnect connectionId => s.socketDisconnect connectionId
  | .channelOperation op => s.withChannels (s.channelManager.step op.1)
  | .insertFixedIdentificationCode appId code =>
      .ok ({ s with applicationRegistry :=
        s.applicationRegistry.insertFixedIdentificationCode appId code }, [])
  | .createIdentificationCode appId elapsed =>
      .ok ({ s with applicationRegistry :=
        (s.applicationRegistry.createIdentificationCode appId elapsed).1 }, [])

/--
The manager as a machine.  A connection id is given out once; a gatekeeper that
has left `gatekeepers` has stopped its timer.
-/
def machine (β : Type) [QByteArray β] (factory : Int → List ICommand) :
    Machine ConnectionManager (ConnectionEvent β) (ConnectionSignal β) Fault where
  init := start
  step := step factory

end ConnectionManager

end GBerry.Server
