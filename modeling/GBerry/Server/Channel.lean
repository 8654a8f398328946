import GBerry.Common.MessageFactory
import GBerry.Common.QMap

/-!
# Channels on the server side

The command dispatch that `Channel` gives to its subclasses, and the control
channel.  A channel method answers with the calls it makes on its partners;
the signal `channelClosed` has no receiver and is left out.
-/

namespace GBerry.Server

open GBerry.Common

/-- `process` tells whether the message was processed and the response, if any. -/
structure ICommand where
  id : String
  process : JsonObject → Bool × JsonObject

abbrev CommandTable := QMap String ICommand

def registerCommand (commands : CommandTable) (cmd : ICommand) : CommandTable :=
  commands.insert cmd.id cmd

def PingCommand : ICommand where
  id := "Ping"
  process json :=
    if JsonObject.isCommand json "Ping" then
      (true, MessageFactory.createPingReplyJson "")
    else (false, [])

def PingReply : ICommand where
  id := "PingReply"
  process json := (JsonObject.isCommand json "PingReply", [])

inductive ChannelCall (β : Type) where
  | channelSendMessageToSouth (partner : Int) (msg : β)
  | playerMessageFromSouth (partner : Int) (msg : β)
  | playerRequestedMainMenu (channelId : Int)

variable {β : Type} [QByteArray β]

/--
`Channel::processJsonMessage`: a registered command processes the message, and
its response, unless empty, goes to the south partner.
-/
def Channel.processJsonMessage (commands : CommandTable)
    (southPartner : Option Int) (json : JsonObject) : Bool × List (ChannelCall β) :=
  if JsonObject.contains json "command" then
    match commands[(JsonObject.value json "command").toString]?, southPartner with
    | some cmd, some partner =>
        let (result, response) := cmd.process json
        if result && !response.isEmpty then
          (result, [.channelSendMessageToSouth partner (QByteArray.toJson response)])
        else (result, [])
    | some cmd, none => ((cmd.process json).1, [])
    | none, _ => (false, [])
  else (false, [])

structure ServerSideControlChannel where
  isOpen : Bool
  /-- The connection id of its `ControlChannelSouthPartnerImpl`. -/
  southPartner : Option Int
  commands : CommandTable

namespace ServerSideControlChannel

def CHANNEL_ID : Int := 0

/--
`ChannelFactory::createControlChannel`, with the commands that a factory of the
application registers beyond `Ping` and `PingReply`.
-/
def create (commands : List ICommand) : ServerSideControlChannel where
  isOpen := false
  southPartner := none
  commands := commands.foldl registerCommand
    (registerCommand (registerCommand ∅ PingCommand) PingReply)

def attachSouthPartner (ch : ServerSideControlChannel) (connectionId : Int) :
    ServerSideControlChannel :=
  { ch with southPartner := some connectionId }

def open' (ch : ServerSideControlChannel) : ServerSideControlChannel :=
  { ch with isOpen := true }

def receiveMessageFromSouth (ch : ServerSideControlChannel) (msg : β) :
    List (ChannelCall β) :=
  match QByteArray.fromJson msg with
  | none => []
  | some json => (Channel.processJsonMessage ch.commands ch.southPartner json).2

def pingSouth (ch : ServerSideControlChannel) : List (ChannelCall β) :=
  match ch.southPartner with
  | some partner =>
      if ch.isOpen then
        [.channelSendMessageToSouth partner (MessageFactory.createSimpleCommand "Ping")]
      else []
  | none => []

def sendJsonMessageToSouth (ch : ServerSideControlChannel) (json : JsonObject) :
    List (ChannelCall β) :=
  match ch.southPartner with
  | some partner => [.channelSendMessageToSouth partner (QByteArray.toJson json)]
  | none => []

end ServerSideControlChannel

end GBerry.Server
