import GBerry.Comms.UIAppStateMachine
import GBerry.Server.ConnectionManager

/-!
# The console

The parts that `Comms::run` connects for launching applications: the connection
manager with its registry, the commands of the control channels, and the state
machine.  A control channel is created for the application id that its connection
was just linked with, and its exit command keeps that id.

Pausing and resuming the wait screen deactivates and activates its connection; these
are channel operations, which happen at any time.
-/

namespace GBerry.Comms

open GBerry.Common
open GBerry.Foundation
open GBerry.Server
open Fallible

/-- The commands that `CommsCommands` creates; two of them reach the state machine. -/
inductive CommsCommand where
  | launchApplication
  | exitApplication (applicationId : String)
  | other (id : String)
  deriving DecidableEq

namespace CommsCommand

def id : CommsCommand → String
  | .launchApplication => "LaunchApplication"
  | .exitApplication _ => "ExitApplication"
  | .other id => id

def toICommand (answer : String → JsonObject → Bool × JsonObject) (cmd : CommsCommand) :
    ICommand where
  id := cmd.id
  process json :=
    match cmd with
    | .launchApplication => (JsonObject.contains json "application_id", [])
    | .exitApplication _ => (true, [])
    | .other id => answer id json

def requested (cmd : CommsCommand) (json : JsonObject) : Option UIEvent :=
  match cmd with
  | .launchApplication =>
      if JsonObject.contains json "application_id" then
        some (.lauchApplication (JsonObject.value json "application_id").toString)
      else none
  | .exitApplication applicationId => some (.exitApplication applicationId)
  | .other _ => none

end CommsCommand

/-- The commands beyond `Ping` and `PingReply`. -/
def CommsChannelFactory.createControlChannel (registry : ApplicationRegistry)
    (connectionId : Int) : List CommsCommand :=
  let applicationId := registry.applicationIdByConnectionId connectionId
  (if applicationId = "mainui" then
    [.other "QueryLocalApplications", .other "QueryDownloadableApplications",
      .other "DownloadApplication", .launchApplication, .other "ExitConsole"]
  else [.exitApplication applicationId]) ++ [.other "QueryHeadServerStatus"]

structure Console where
  connectionManager : ConnectionManager
  /-- The commands of the control channels that were created, by their connections. -/
  controlCommands : QMap Int (List CommsCommand)
  stateMachine : UIAppStateMachine

inductive ConsoleFault where
  | server (fault : Fault)
  | controller (fault : ControllerFault)
  deriving DecidableEq

inductive ConsoleSignal (β : Type) where
  | connection (signal : Server.ConnectionSignal β)
  | ui (output : UIOutput)

/-- Messages go through the commands, and codes are made by launches. -/
def fromNetwork {β : Type} : Server.ConnectionEvent β → Bool
  | .incomingMessage _ _ _ => false
  | .createIdentificationCode _ _ => false
  | _ => true

/-- The commands and the connection manager make the other events. -/
def UIEvent.external : UIEvent → Bool
  | .lauchApplication _ => false
  | .exitApplication _ => false
  | .applicationConnectionValidated _ => false
  | _ => true

inductive ConsoleEvent (β : Type) where
  | connection (event : { event : Server.ConnectionEvent β // fromNetwork event })
  | incomingMessage (connectionId : Nat) (channelId : Int) (msg : β)
  | ui (event : { event : UIEvent // event.external })

namespace Console

variable {β : Type} [QByteArray β]

abbrev Program (β : Type) := Fallible Console (ConsoleSignal β) ConsoleFault

def start (stateMachine : UIAppStateMachine) : Console where
  connectionManager := .start
  controlCommands := ∅
  stateMachine := stateMachine

def identificationCode : ConsoleSignal β → Option (String × Int)
  | .ui (.controller _ (.prepared _ appId elapsed)) => some (appId, elapsed)
  | _ => none

def createIdentificationCode (code : String × Int) : Program β :=
  update fun s => { s with
    connectionManager.applicationRegistry :=
      (s.connectionManager.applicationRegistry.createIdentificationCode code.1 code.2).1 }

def onServer (program : Fallible ConnectionManager (Server.ConnectionSignal β) Fault) :
    Program β :=
  within (·.connectionManager) (fun manager s => { s with connectionManager := manager })
    .connection (withFault .server program)

def perform (attempts : LaunchAttempts) (event : UIEvent) : Program β :=
  (within (·.stateMachine) (fun machine s => { s with stateMachine := machine })
    .ui (withFault .controller (UIAppStateMachine.perform attempts event))).thenReact
      (·.filterMap identificationCode) createIdentificationCode

def accepted (s : ConnectionManager) (connectionId : Nat) (msg : β) : Option String :=
  match s.gatekeepers[(connectionId : Int)]? with
  | none => none
  | some gatekeeper =>
      match (gatekeeper.incomingMessage s.applicationRegistry msg).1 with
      | .validated applicationId => some applicationId
      | _ => none

/-- What a message on the control channel of an accepted connection asks for. -/
def request (s : Console) (connectionId : Nat) (channelId : Int) (msg : β) :
    Option UIEvent :=
  if s.connectionManager.gatekeepers.contains connectionId then none
  else if channelId = ServerSideControlChannel.CHANNEL_ID ∧
      s.connectionManager.channelManager.controlChannels.contains connectionId then
    match s.controlCommands[(connectionId : Int)]?, QByteArray.fromJson msg with
    | some commands, some json =>
        if JsonObject.contains json "command" then
          (commands.find? fun cmd =>
            cmd.id = (JsonObject.value json "command").toString).bind (·.requested json)
        else none
    | _, _ => none
  else none

def incomingMessage (answer : String → JsonObject → Bool × JsonObject)
    (attempts : LaunchAttempts) (connectionId : Nat) (channelId : Int) (msg : β) :
    Program β := fun s =>
  match accepted s.connectionManager connectionId msg with
  | some applicationId =>
      -- the factory asks for the link that the connection has just got
      let commands := CommsChannelFactory.createControlChannel
        (s.connectionManager.applicationRegistry.createLink connectionId applicationId)
        connectionId
      ((update fun s => { s with
          controlCommands := s.controlCommands.insert connectionId commands }).andThen
        ((onServer fun manager => manager.incomingMessage
            (fun _ => commands.map (·.toICommand answer)) connectionId channelId msg).andThen
          (perform attempts (.applicationConnectionValidated applicationId)))) s
  | none =>
      ((onServer fun manager =>
          manager.incomingMessage (fun _ => []) connectionId channelId msg).andThen
        (match s.request connectionId channelId msg with
        | some event => perform attempts event
        | none => skip)) s

def step (answer : String → JsonObject → Bool × JsonObject) :
    ConsoleEvent β × LaunchAttempts → Program β
  | (.connection event, _) => onServer fun manager => manager.step (fun _ => []) event.1
  | (.incomingMessage connectionId channelId msg, attempts) =>
      incomingMessage answer attempts connectionId channelId msg
  | (.ui event, attempts) => perform attempts event.1

def machine (β : Type) [QByteArray β] (answer : String → JsonObject → Bool × JsonObject)
    (stateMachine : UIAppStateMachine) :
    Machine Console (ConsoleEvent β × LaunchAttempts) (ConsoleSignal β) ConsoleFault :=
  Fallible.machine (start stateMachine) (step answer)

abbrev History (β : Type) :=
  List (Step Console (ConsoleEvent β × LaunchAttempts) (ConsoleSignal β))

end Console

end GBerry.Comms
