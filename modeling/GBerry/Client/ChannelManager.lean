import GBerry.Server.Channel

/-!
# The channels of an application

`ClientChannelManager` with its player channels and its control channel.  As on
the server side, a channel answers with the calls that it makes on its partners
and the signals that it emits, in their order.
-/

namespace GBerry.Client

open GBerry.Common
open GBerry.Server (ICommand CommandTable registerCommand)

inductive ClientCall (β : Type) where
  | sendMessage (partner : Int) (msg : β)
  | closeChannel (partner : Int)
  | playerMessage (partner : Int) (msg : β)
  | playerExit (partner : Int)
  | pingReceived
  | isConnectedChanged
  | isActivatedChanged

inductive ClientSignal (β : Type) where
  | outgoingMessage (channelId : Int) (msg : β)
  | newPlayerChannel (channelId : Int) (playerMeta : PlayerMeta)
  | playerMessage (channelId : Int) (msg : β)
  | playerExit (channelId : Int)
  | pingReceived
  | isConnectedChanged
  | isActivatedChanged

structure ClientSidePlayerChannel where
  id : Int
  playerMeta : PlayerMeta
  channelPartner : Option Int
  playerPartner : Option Int
  deriving DecidableEq

structure ClientSideControlChannel where
  activated : Bool
  connected : Bool
  applicationCode : String
  partner : Option Int
  commands : CommandTable

variable {β : Type} [QByteArray β]

namespace ClientSidePlayerChannel

def create (channelId : Int) (playerMeta : PlayerMeta) : ClientSidePlayerChannel where
  id := channelId
  playerMeta := playerMeta
  channelPartner := none
  playerPartner := none

def attachChannelPartner (ch : ClientSidePlayerChannel) (channelId : Int) :
    ClientSidePlayerChannel :=
  { ch with channelPartner := some channelId }

def attachPlayerChannelPartner (ch : ClientSidePlayerChannel) (channelId : Int) :
    ClientSidePlayerChannel :=
  { ch with playerPartner := some channelId }

def sendPlayerMessage (ch : ClientSidePlayerChannel) (msg : β) : List (ClientCall β) :=
  match ch.channelPartner with
  | some partner => [.sendMessage partner
      (MessageFactory.createPlayerMessage (QByteArray.toQString msg))]
  | none => []

omit [QByteArray β] in
def closeChannel (ch : ClientSidePlayerChannel) : List (ClientCall β) :=
  (ch.playerPartner.map ClientCall.playerExit).toList ++
    (ch.channelPartner.map ClientCall.closeChannel).toList

def messageText (β : Type) [QByteArray β] (data : Json) : String :=
  if data.isObject then
    QByteArray.toQString (QByteArray.toJson data.toObject : β)
  else data.toString

def receiveMessage (ch : ClientSidePlayerChannel) (msg : β) : List (ClientCall β) :=
  match QByteArray.fromJson msg with
  | none => []
  | some json =>
      if JsonObject.isCommand json "CloseChannel" then ch.closeChannel
      else if JsonObject.isCommand json "PlayerMessage" then
        if JsonObject.contains json "data" then
          match ch.playerPartner with
          | some partner => [.playerMessage partner (QByteArray.toLatin1
              (messageText β (JsonObject.value json "data")))]
          | none => []
        else []
      else []

end ClientSidePlayerChannel

namespace ClientSideControlChannel

def CHANNEL_ID : Int := 0

def create (applicationCode : String) (commands : List ICommand) :
    ClientSideControlChannel where
  activated := false
  connected := false
  applicationCode := applicationCode
  partner := none
  commands := commands.foldl registerCommand ∅

def attachChannelPartner (ch : ClientSideControlChannel) (channelId : Int) :
    ClientSideControlChannel :=
  { ch with partner := some channelId }

omit [QByteArray β] in
def sendMessage (ch : ClientSideControlChannel) (msg : β) : List (ClientCall β) :=
  match ch.partner with
  | some partner => [.sendMessage partner msg]
  | none => []

def processJsonMessage (ch : ClientSideControlChannel) (json : JsonObject) :
    List (ClientCall β) :=
  match ch.commands[(JsonObject.value json "command").toString]? with
  | some cmd =>
      let (result, response) := cmd.process json
      if result && !response.isEmpty then ch.sendMessage (QByteArray.toJson response)
      else []
  | none => []

def receiveMessage (ch : ClientSideControlChannel) (msg : β) :
    ClientSideControlChannel × List (ClientCall β) :=
  match QByteArray.fromJson msg with
  | none => (ch, [])
  | some json =>
      if !JsonObject.contains json "command" then (ch, [])
      else if JsonObject.isCommand json "Ping" then
        let reply := ClientCall.pingReceived ::
          ch.sendMessage (MessageFactory.createPingReply ch.applicationCode)
        if ch.connected then (ch, reply)
        else ({ ch with connected := true }, reply ++ [.isConnectedChanged])
      else if JsonObject.isCommand json "PingReply" then (ch, [.pingReceived])
      else if JsonObject.isCommand json "Activate" then
        ({ ch with activated := true }, [.isActivatedChanged])
      else if JsonObject.isCommand json "Deactivate" then
        ({ ch with activated := false }, [.isActivatedChanged])
      else (ch, ch.processJsonMessage json)

omit [QByteArray β] in
/-- `activated` keeps its value. -/
def connectionBroken (ch : ClientSideControlChannel) :
    ClientSideControlChannel × List (ClientCall β) :=
  ({ ch with connected := false }, [.isConnectedChanged])

end ClientSideControlChannel

structure ClientChannelManager where
  playerChannels : QMap Int ClientSidePlayerChannel
  controlChannel : Option ClientSideControlChannel

namespace ClientChannelManager

def ROOT_CHANNEL : Int := 0

def start : ClientChannelManager where
  playerChannels := ∅
  controlChannel := none

def registerControlChannel (m : ClientChannelManager)
    (channel : ClientSideControlChannel) : ClientChannelManager :=
  { m with
    controlChannel :=
      some (channel.attachChannelPartner ClientSideControlChannel.CHANNEL_ID) }

def closePlayerChannel (m : ClientChannelManager) (channelId : Int) :
    ClientChannelManager :=
  { m with playerChannels := m.playerChannels.erase channelId }

omit [QByteArray β] in
/-- The partners call the manager back, or hand over to the players manager. -/
def perform (m : ClientChannelManager) :
    ClientCall β → ClientChannelManager × List (ClientSignal β)
  | .sendMessage partner msg => (m, [.outgoingMessage partner msg])
  | .closeChannel partner => (m.closePlayerChannel partner, [])
  | .playerMessage partner msg => (m, [.playerMessage partner msg])
  | .playerExit partner => (m, [.playerExit partner])
  | .pingReceived => (m, [.pingReceived])
  | .isConnectedChanged => (m, [.isConnectedChanged])
  | .isActivatedChanged => (m, [.isActivatedChanged])

omit [QByteArray β] in
def performAll (m : ClientChannelManager) :
    List (ClientCall β) → ClientChannelManager × List (ClientSignal β)
  | [] => (m, [])
  | call :: calls =>
      let first := m.perform call
      let others := first.1.performAll calls
      (others.1, first.2 ++ others.2)

/--
A message for a channel that the manager does not have.  The receiver of
`newPlayerChannel` attaches the player partner before the channel is accepted.
-/
def openPlayerChannel (m : ClientChannelManager) (channelId : Int) (msg : β) :
    ClientChannelManager × List (ClientSignal β) :=
  match QByteArray.fromJson msg with
  | none => (m, [])
  | some json =>
      if JsonObject.isCommand json "OpenChannel" then
        if JsonObject.contains json "player_metadata" then
          let playerMeta :=
            PlayerMeta.ofJson (JsonObject.value json "player_metadata").toObject
          let playerControl :=
            ((ClientSidePlayerChannel.create channelId playerMeta).attachChannelPartner
              channelId).attachPlayerChannelPartner channelId
          ({ m with playerChannels := m.playerChannels.insert channelId playerControl },
            [.newPlayerChannel channelId playerMeta,
              .outgoingMessage channelId
                (MessageFactory.createSimpleCommand "OpenChannelAccepted")])
        else (m, [])
      else (m, [])

def processMessage (m : ClientChannelManager) (channelId : Int) (msg : β) :
    ClientChannelManager × List (ClientSignal β) :=
  if channelId = ROOT_CHANNEL then
    match m.controlChannel with
    | some channel =>
        let (channel, calls) := channel.receiveMessage msg
        { m with controlChannel := some channel }.performAll calls
    | none => (m, [])
  else
    match m.playerChannels[channelId]? with
    | none => m.openPlayerChannel channelId msg
    -- a channel that is there knows no `OpenChannel`, and answers none
    | some channel => m.performAll (channel.receiveMessage msg)

def sendPlayerMessage (m : ClientChannelManager) (channelId : Int) (msg : β) :
    List (ClientSignal β) :=
  match m.playerChannels[channelId]? with
  | some channel => (m.performAll (channel.sendPlayerMessage msg)).2
  | none => []

omit [QByteArray β] in
def closeAllPlayerChannels (m : ClientChannelManager) :
    ClientChannelManager × List (ClientSignal β) :=
  m.performAll (m.playerChannels.toList.flatMap fun entry => entry.2.closeChannel)

omit [QByteArray β] in
/-- The receivers of `CommTcpClient::disconnected`, in the order of `ClientSetup`. -/
def connectionBroken (m : ClientChannelManager) :
    ClientChannelManager × List (ClientSignal β) :=
  let closed := m.closeAllPlayerChannels
  match closed.1.controlChannel with
  | some channel =>
      let (channel, calls) := channel.connectionBroken
      let broken := { closed.1 with controlChannel := some channel }.performAll calls
      (broken.1, closed.2 ++ broken.2)
  | none => closed

def isActivated (m : ClientChannelManager) : Bool :=
  match m.controlChannel with
  | some channel => channel.activated
  | none => false

omit [QByteArray β] in
def sendControlMessage (m : ClientChannelManager) (msg : β) : List (ClientSignal β) :=
  match m.controlChannel with
  | some channel => (m.performAll (channel.sendMessage msg)).2
  | none => []

end ClientChannelManager

end GBerry.Client
