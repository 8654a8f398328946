import GBerry.Server.Channel

/-!
# The channel of one player

`ServerSidePlayerChannel` opens towards the active application with an
`OpenChannel` message and is open once that was accepted.  Its constructor
leaves `_state` uninitialised, so a new channel starts in an arbitrary state.
-/

namespace GBerry.Server

open GBerry.Common

inductive PlayerChannelState where
  | CHANNEL_CLOSED
  | CHANNEL_OPEN_ONGOING
  | CHANNEL_OPEN
  | CHANNEL_RESTRICTED_OPEN
  deriving DecidableEq

structure ServerSidePlayerChannel where
  id : Int
  playerMeta : PlayerMeta
  state : PlayerChannelState
  /-- The flag `_isOpen` of the base class; `isOpen` reads `_state` instead. -/
  isOpenFlag : Bool
  /-- The channel id of its `PlayerChannelSouthPartnerImpl`. -/
  southPartner : Option Int
  /-- The channel id of its north partner. -/
  northPartner : Option Int
  deriving DecidableEq

namespace ServerSidePlayerChannel

/-- The constructor; `uninitialised` is what `_state` happens to hold. -/
def create (channelId : Int) (playerMeta : PlayerMeta)
    (uninitialised : PlayerChannelState) : ServerSidePlayerChannel where
  id := channelId
  playerMeta := playerMeta
  state := uninitialised
  isOpenFlag := false
  southPartner := none
  northPartner := none

def attachSouthPartner (ch : ServerSidePlayerChannel) (channelId : Int) :
    ServerSidePlayerChannel :=
  { ch with southPartner := some channelId }

def attachNorthPartner (ch : ServerSidePlayerChannel) (channelId : Int) :
    ServerSidePlayerChannel :=
  { ch with northPartner := some channelId }

def isOpen (ch : ServerSidePlayerChannel) : Bool := ch.state = .CHANNEL_OPEN

def isOpening (ch : ServerSidePlayerChannel) : Bool :=
  ch.state = .CHANNEL_OPEN ∨ ch.state = .CHANNEL_OPEN_ONGOING

def close (ch : ServerSidePlayerChannel) : ServerSidePlayerChannel :=
  { ch with isOpenFlag := false, state := .CHANNEL_CLOSED }

variable {β : Type} [QByteArray β]

def open' (ch : ServerSidePlayerChannel) :
    ServerSidePlayerChannel × List (ChannelCall β) :=
  if ch.isOpening then (ch, [])
  else
    ({ ch with state := .CHANNEL_OPEN_ONGOING },
      match ch.southPartner with
      | some partner => [.channelSendMessageToSouth partner
          (MessageFactory.createOpenChannelCommand ch.playerMeta)]
      | none => [])

def playerText (β : Type) [QByteArray β] (data : Json) : String :=
  if data.isObject then
    QByteArray.toQString (QByteArray.toJson data.toObject : β)
  else data.toString

/--
`processJsonMessage`.  No command is registered on a player channel, so the
base class processes nothing.  `CloseChannel` resets the flag of the base class
and leaves `_state` alone.
-/
def processJsonMessage (ch : ServerSidePlayerChannel) (json : JsonObject) :
    ServerSidePlayerChannel × List (ChannelCall β) :=
  if JsonObject.isCommand json "CloseChannel" then
    ({ ch with isOpenFlag := false }, [])
  else if JsonObject.isCommand json "OpenChannelAccepted" then
    ({ ch with state := .CHANNEL_OPEN }, [])
  else if JsonObject.isCommand json "PlayerMessage" then
    if JsonObject.contains json "data" then
      match ch.northPartner with
      | some partner =>
          (ch, [.playerMessageFromSouth partner (QByteArray.toLatin1
            (playerText β (JsonObject.value json "data")))])
      | none => (ch, [])
    else (ch, [])
  else (ch, [])

def receiveMessageFromSouth (ch : ServerSidePlayerChannel) (msg : β) :
    ServerSidePlayerChannel × List (ChannelCall β) :=
  match QByteArray.fromJson msg with
  | none => (ch, [])
  | some json => ch.processJsonMessage json

def sendMessageToSouth (ch : ServerSidePlayerChannel) (msg : β) :
    List (ChannelCall β) :=
  match ch.southPartner with
  | some partner =>
      if ch.isOpen then [.channelSendMessageToSouth partner msg] else []
  | none => []

def isGoToMainMenu (msg : β) : Bool :=
  match QByteArray.fromJson msg with
  | none => false
  | some json => JsonObject.contains json "action" &&
      (JsonObject.value json "action").toString == "GoToMainMenu"

def receivePlayerMessageFromNorth (ch : ServerSidePlayerChannel) (msg : β) :
    List (ChannelCall β) :=
  if isGoToMainMenu msg then [.playerRequestedMainMenu ch.id]
  else ch.sendMessageToSouth
    (MessageFactory.createPlayerMessage (QByteArray.toQString msg))

theorem receiveMessageFromSouth_state (ch : ServerSidePlayerChannel) (msg : β) :
    (ch.receiveMessageFromSouth msg).1.state =
      if isCommand "OpenChannelAccepted" msg then .CHANNEL_OPEN else ch.state := by
  unfold receiveMessageFromSouth isCommand
  cases QByteArray.fromJson msg with
  | none => rfl
  | some json =>
      simp only [processJsonMessage]
      split
      · rename_i hclose
        have hother : JsonObject.isCommand json "OpenChannelAccepted" ≠ true := by
          intro haccept
          exact absurd (JsonObject.isCommand_unique hclose haccept) (by decide)
        rw [if_neg hother]
      split
      · rfl
      split
      · split
        · split <;> rfl
        · rfl
      · rfl

end ServerSidePlayerChannel

end GBerry.Server
