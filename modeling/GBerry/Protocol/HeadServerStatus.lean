import GBerry.Comms.HeadServerConnection.Status
import GBerry.Foundation.Fallible
import GBerry.Protocol.Steering
import GBerry.Server.ChannelManager.Foreign

/-!
# The status of the head server

Every control channel of the server has a `HeadServerStatusCommand`, which reports
the changes of the `HeadServerConnection` and answers queries.  The `Connection` of
every application asks when the application is activated or deactivated, and keeps
what it is told.
-/

namespace GBerry.Protocol

open GBerry.Common
open GBerry.Comms
open GBerry.Foundation
open GBerry.Server
open GBerry.Client
open ClientChannelManager (ROOT_CHANNEL)
open ServerSideControlChannel (CHANNEL_ID)

namespace HeadServerStatusCommand

def statusText (status : Bool) : String :=
  if status then "connected" else "disconnected"

def createResponse (currentStatus oldStatus : Bool) : JsonObject :=
  [("command", .string "HeadServerStatus"),
    ("old_status", .string (statusText oldStatus)),
    ("status", .string (statusText currentStatus))]

/-- The response depends on the connection, and is sent by `answerQuery` below. -/
def command : ICommand where
  id := "QueryHeadServerStatus"
  process _ := (true, [])

theorem normal_createResponse (currentStatus oldStatus : Bool) :
    JsonObject.Normal (createResponse currentStatus oldStatus) := by
  have hkeys : ["command", "old_status", "status"].Pairwise (· < ·) := by decide
  refine .object hkeys ?_
  intro field hfield
  simp only [createResponse, List.mem_cons, List.not_mem_nil, or_false] at hfield
  obtain rfl | rfl | rfl := hfield <;> exact .string _

theorem isCommand_createResponse {β : Type} [QByteArray β] (name : String)
    (currentStatus oldStatus : Bool) :
    isCommand name (QByteArray.toJson (createResponse currentStatus oldStatus) : β) =
      ("HeadServerStatus" == name) := by
  simp only [isCommand, QByteArray.fromJson_toJson _ (normal_createResponse _ _)]
  exact JsonObject.isCommand_cons_command _ _ _

theorem steers_createResponse {β : Type} [QByteArray β] (currentStatus oldStatus : Bool) :
    steers (QByteArray.toJson (createResponse currentStatus oldStatus) : β) = false := by
  simp [steers, isCommand_createResponse]

end HeadServerStatusCommand

/-- The command of `ConnectionCommunication`; `Connection` reads the message. -/
def ConnectionCommunication.HeadServerStatusCommand : ICommand where
  id := "HeadServerStatus"
  process _ := (true, [])

variable {β : Type} [QByteArray β]

def statusOf (frame : Frame β) : Option Bool :=
  if frame.1 = ROOT_CHANNEL ∧ isCommand "HeadServerStatus" frame.2 = true then
    (QByteArray.fromJson frame.2).map fun json =>
      (JsonObject.value json "status").toString == "connected"
  else none

def prompts (frame : Frame β) : Bool := frame.1 = ROOT_CHANNEL && steers frame.2

def asks (frame : Frame β) : Bool :=
  frame.1 = CHANNEL_ID && isCommand "QueryHeadServerStatus" frame.2

/--
What else happens in the network.  Other commands do not send the status, and
nothing closes a control channel whose connection is up.
-/
def NetworkEvent.Unconcerned : NetworkEvent β → Prop
  | .openControlChannel _ _ => False
  | .serverOperation op =>
      match op.1 with
      | .closeControlChannel _ => False
      | .sendJsonMessageToSouth _ json =>
          isCommand "HeadServerStatus" (QByteArray.toJson json : β) = false
      | _ => True
  | _ => True

abbrev OtherCommand (β : Type) [QByteArray β] :=
  { cmd : ICommand // SteadyCommand β cmd ∧ NeverAnswers β "HeadServerStatus" cmd }

inductive StatusEvent (β : Type) [QByteArray β] where
  | headServer (event : Option ConnectionEvent)
  | openControlChannel (application : Nat) (commands : List (OtherCommand β))
  | network (ev : { ev : NetworkEvent β // ev.Unconcerned })

inductive StatusSignal (β : Type) where
  | headServer (signal : Comms.ConnectionSignal)
  | network (signal : ProtocolSignal β)
  | isHeadServerConnectedChanged (application : Nat) (connected : Bool)

structure StatusNetwork (β : Type) where
  connection : HeadServerConnection
  network : Network β
  isHeadServerConnected : Nat → Bool

namespace StatusNetwork

abbrev Program (β : Type) [QByteArray β] :=
  Fallible (StatusNetwork β) (StatusSignal β) Fault

def start (applicationCode : Nat → String) (clientCommands : Nat → List ICommand) :
    StatusNetwork β where
  connection := .start
  network := .start applicationCode fun n =>
    clientCommands n ++ [ConnectionCommunication.HeadServerStatusCommand]
  isHeadServerConnected _ := false

def overNetwork (ev : NetworkEvent β) : Program β :=
  Fallible.within network (fun network s => { s with network := network }) .network
    fun network => network.step ev

section Server

def sendStatus (currentStatus oldStatus : Bool) (connectionId : Nat) : Program β :=
  overNetwork (.serverOperation
    ⟨.sendJsonMessageToSouth connectionId
      (HeadServerStatusCommand.createResponse currentStatus oldStatus),
    HeadServerStatusCommand.steers_createResponse currentStatus oldStatus⟩)

def sendStatusToAll (status : Bool) : Program β := fun s =>
  Fallible.forEach (sendStatus status (!status)) (List.range s.network.nextConnectionId) s

/-- The slots run while the signal is emitted. -/
def onHeadServer (obtains : Nat → Bool) (event : Option ConnectionEvent) : Program β :=
  fun s =>
    let (connection, signals) := HeadServerConnection.perform obtains event s.connection
    ((Fallible.emit (signals.map .headServer)).andThen
      (Fallible.forEach sendStatusToAll (HeadServerConnection.statuses signals)))
      { s with connection := connection }

def queried (s : StatusNetwork β) (n : Nat) : Option Nat :=
  match s.network.applications n with
  | ⟨_, some ⟨connectionId, _, frame :: _, false⟩⟩ =>
      if asks frame ∧ s.network.server.controlChannels.contains connectionId then
        some connectionId
      else none
  | _ => none

/-- `HeadServerStatusCommand::process`, when the message is a query. -/
def answerQuery (query : Option Nat) : Program β := fun s =>
  match query with
  | some connectionId =>
      sendStatus s.connection.isConnected s.connection.isConnected connectionId s
  | none => .ok (s, [])

end Server

section Application

def nextToClient (s : StatusNetwork β) (n : Nat) : Option (Frame β) :=
  match (s.network.applications n).link with
  | some l => l.toClient.head?
  | none => none

def activationSignals (signals : List (StatusSignal β)) : List Unit :=
  signals.filterMap fun
    | .network (.client _ .isActivatedChanged) => some ()
    | _ => none

def queryHeadServerStatus (n : Nat) : Program β :=
  overNetwork (.sendControlMessage n
    (MessageFactory.createSimpleCommand "QueryHeadServerStatus"))

def onMessageReceived (n : Nat) (currentConnected : Bool) : Program β := fun s =>
  if s.isHeadServerConnected n ≠ currentConnected then
    .ok ({ s with
        isHeadServerConnected :=
          Function.update s.isHeadServerConnected n currentConnected },
      [.isHeadServerConnectedChanged n currentConnected])
  else .ok (s, [])

def receiveStatus (n : Nat) (frame : Option (Frame β)) : Program β := fun s =>
  match frame.bind statusOf with
  | some currentConnected => onMessageReceived n currentConnected s
  | none => .ok (s, [])

end Application

def step (obtains : Nat → Bool) : StatusEvent β → Program β
  | .headServer event => onHeadServer obtains event
  | .openControlChannel n commands =>
      overNetwork (.openControlChannel n
        (commands.map (fun cmd => ⟨cmd.1, cmd.2.1⟩) ++
          [⟨HeadServerStatusCommand.command, fun _ => steers_empty⟩]))
  | .network ev => fun s =>
      match ev.1 with
      | .deliverToServer n =>
          ((overNetwork (.deliverToServer n)).andThen (answerQuery (s.queried n))) s
      | .deliverToClient n =>
          (((overNetwork (.deliverToClient n)).thenReact activationSignals
            fun _ => queryHeadServerStatus n).andThen
              (receiveStatus n (s.nextToClient n))) s
      | ev => overNetwork ev s

def machine (β : Type) [QByteArray β] (obtains : Nat → Bool)
    (applicationCode : Nat → String) (clientCommands : Nat → List ICommand) :
    Machine (StatusNetwork β) (StatusEvent β) (StatusSignal β) Fault where
  init := start applicationCode clientCommands
  step s event := step obtains event s

abbrev History (β : Type) [QByteArray β] :=
  List (Step (StatusNetwork β) (StatusEvent β) (StatusSignal β))

def addresses (connectionId : Nat) : StatusSignal β → Bool
  | .network (.server (.outgoingMessageToSouth message)) =>
      message.connectionId = connectionId && message.channelId = CHANNEL_ID &&
        (steers message.msg || isCommand "HeadServerStatus" message.msg)
  | _ => false

def Addressed (connectionId : Nat) (out : List (StatusSignal β)) : Prop :=
  ∃ signal ∈ out, addresses connectionId signal = true

def Told (history : History β) (connectionId : Nat) : Prop :=
  ∃ st ∈ history, Addressed connectionId st.out

end StatusNetwork

end GBerry.Protocol
