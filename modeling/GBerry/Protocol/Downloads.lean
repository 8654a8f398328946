import GBerry.Client.DownloadModel
import GBerry.Comms.DownloadApplicationCommand.Replies

/-!
# Downloads between the applications and the server

Every application keeps its `DownloadModel` over any number of connections.  The
control channel of a mainui has a `DownloadApplicationCommand` on the server, known
by its number, from the moment that its connection is validated until the server
closes the connection.  Messages are delivered one by one, in their order; a link
that breaks takes with it what was under way.
-/

namespace GBerry.Protocol

open GBerry.Client
open GBerry.Common
open GBerry.Comms
open GBerry.Foundation
open DownloadApplicationCommand (ReplyMessage)

/--
A connection, and the command of its control channel if it has one.  `closed` tells
that the server has closed the connection already.
-/
structure DownloadLink where
  command : Option Nat
  toServer : List JsonObject
  toClient : List JsonObject
  closed : Bool

structure DownloadPeer where
  model : DownloadModel
  link : Option DownloadLink

/-- `unnoticed` are the commands of broken connections that the server has not closed. -/
structure Downloads where
  server : DownloadSystem
  peers : Nat → DownloadPeer
  unnoticed : List Nat

inductive DownloadsEvent where
  | connect (application : Nat)
  | openControlChannel (application : Nat)
  | startDownload (application : Nat) (activePlayerModel : ActivePlayerModel)
      (applicationFullId : String)
  | cancelDownload (application : Nat) (applicationFullId : String)
  | deliverToServer (application : Nat) (cached created : Bool) (writing : Writing)
      (details : Json)
  | deliverToClient (application : Nat)
  | transfer (event : DownloadEvent) (details : Json) (percentages : List Int)
  /-- The application notices the break. -/
  | connectionBroken (application : Nat)
  /-- The server closes the connection, or notices the break before the application. -/
  | applicationClosed (application : Nat)
  /-- The server notices the break after the application. -/
  | brokenConnectionClosed (command : Nat)

inductive DownloadsSignal where
  | server (signal : DownloadSignal)
  | client (application : Nat) (signal : DownloadModelSignal)
  deriving DecidableEq

namespace DownloadLink

/-- Nothing is written to a closed connection. -/
def write (l : DownloadLink) (json : JsonObject) : DownloadLink :=
  if l.closed then l else { l with toServer := l.toServer ++ [json] }

def send (l : DownloadLink) (messages : List ReplyMessage) : DownloadLink :=
  { l with
    toClient := l.toClient ++
      (messages.filter fun message => l.command = some message.command).map (·.json) }

end DownloadLink

namespace Downloads

abbrev Result := Except DownloadFault (Downloads × List DownloadsSignal)

def start (storage : LocalApplicationsStorage) : Downloads where
  server := .start storage
  peers _ := ⟨⟨[]⟩, none⟩
  unnoticed := []

def setPeer (s : Downloads) (n : Nat) (peer : DownloadPeer) : Downloads :=
  { s with peers := Function.update s.peers n peer }

def send (s : Downloads) (messages : List ReplyMessage) : Downloads :=
  { s with
    peers := fun n => { s.peers n with link := (s.peers n).link.map (·.send messages) } }

def serve (s : Downloads) (details : Json) (percentages : List Int) :
    DownloadResult → Result
  | .error fault => .error fault
  | .ok (server, signals) =>
      .ok ({ s with server := server }.send
          (s.server.messages details percentages signals),
        signals.map .server)

def connect (s : Downloads) (n : Nat) : Downloads :=
  match s.peers n with
  | ⟨model, none⟩ => s.setPeer n ⟨model, some ⟨none, [], [], false⟩⟩
  | _ => s

def openControlChannel (s : Downloads) (n : Nat) : Downloads :=
  match s.peers n with
  | ⟨model, some ⟨none, toServer, toClient, false⟩⟩ =>
      { s.setPeer n ⟨model, some ⟨some s.server.nextCommand, toServer, toClient, false⟩⟩ with
        server := s.server.createCommand }
  | _ => s

/-- A message that cannot be sent is lost, but the download is listed. -/
def startDownload (s : Downloads) (n : Nat) (activePlayerModel : ActivePlayerModel)
    (applicationFullId : String) : Downloads × List DownloadsSignal :=
  let peer := s.peers n
  let (model, message, signals) :=
    peer.model.startDownload activePlayerModel applicationFullId
  (s.setPeer n ⟨model, peer.link.map (·.write message)⟩, signals.map (.client n))

def cancelDownload (s : Downloads) (n : Nat) (applicationFullId : String) : Downloads :=
  let peer := s.peers n
  s.setPeer n { peer with
    link := peer.link.map (·.write (DownloadModel.cancelMessage applicationFullId)) }

/-- The gatekeeper, or a control channel without the command, drops the message. -/
def deliverToServer (s : Downloads) (n : Nat) (cached created : Bool) (writing : Writing)
    (details : Json) : Result :=
  match s.peers n with
  | ⟨model, some ⟨command, json :: toServer, toClient, closed⟩⟩ =>
      let s := s.setPeer n ⟨model, some ⟨command, toServer, toClient, closed⟩⟩
      match command with
      | none => .ok (s, [])
      | some command =>
          if json.isCommand "DownloadApplication" then
            s.serve details [] (s.server.process command
              (json.value "application_id").toString cached created writing)
          else .ok (s, [])
  | _ => .ok (s, [])

def deliverToClient (s : Downloads) (n : Nat) : Downloads × List DownloadsSignal :=
  match s.peers n with
  | ⟨model, some ⟨command, toServer, json :: toClient, closed⟩⟩ =>
      let (model, signals) := model.onNotices (DownloadModelCommunication.processMessage json)
      (s.setPeer n ⟨model, some ⟨command, toServer, toClient, closed⟩⟩,
        signals.map (.client n))
  | _ => (s, [])

def transfer (s : Downloads) (event : DownloadEvent) (details : Json)
    (percentages : List Int) : Result :=
  if DownloadSystem.isTransfer event then
    s.serve details percentages (s.server.step event)
  else .ok (s, [])

def connectionBroken (s : Downloads) (n : Nat) : Downloads :=
  match s.peers n with
  | ⟨model, some l⟩ =>
      { s.setPeer n ⟨model, none⟩ with unnoticed := l.command.toList ++ s.unnoticed }
  | _ => s

def applicationClosed (s : Downloads) (n : Nat) : Result :=
  match s.peers n with
  | ⟨model, some ⟨command, _, toClient, _⟩⟩ =>
      let s := s.setPeer n ⟨model, some ⟨none, [], toClient, true⟩⟩
      match command with
      | none => .ok (s, [])
      | some command => s.serve .null [] (s.server.destroyCommand command)
  | _ => .ok (s, [])

def brokenConnectionClosed (s : Downloads) (command : Nat) : Result :=
  if command ∈ s.unnoticed then
    { s with unnoticed := s.unnoticed.erase command }.serve .null []
      (s.server.destroyCommand command)
  else .ok (s, [])

def step (s : Downloads) : DownloadsEvent → Result
  | .connect n => .ok (s.connect n, [])
  | .openControlChannel n => .ok (s.openControlChannel n, [])
  | .startDownload n activePlayerModel applicationFullId =>
      .ok (s.startDownload n activePlayerModel applicationFullId)
  | .cancelDownload n applicationFullId => .ok (s.cancelDownload n applicationFullId, [])
  | .deliverToServer n cached created writing details =>
      s.deliverToServer n cached created writing details
  | .deliverToClient n => .ok (s.deliverToClient n)
  | .transfer event details percentages => s.transfer event details percentages
  | .connectionBroken n => .ok (s.connectionBroken n, [])
  | .applicationClosed n => s.applicationClosed n
  | .brokenConnectionClosed command => s.brokenConnectionClosed command

def machine (storage : LocalApplicationsStorage) :
    Machine Downloads DownloadsEvent DownloadsSignal DownloadFault where
  init := start storage
  step := step

abbrev History := List (Step Downloads DownloadsEvent DownloadsSignal)

def command (s : Downloads) (n : Nat) : Option Nat := (s.peers n).link.bind (·.command)

def AbandonsDownload (s : Downloads) : DownloadsEvent → Prop
  | .applicationClosed n => ∃ command, s.command n = some command ∧
      s.server.AbandonsDownload (.destroyCommand command)
  | .brokenConnectionClosed command => command ∈ s.unnoticed ∧
      s.server.AbandonsDownload (.destroyCommand command)
  | _ => False

section Counting

def requests (applicationFullId : String) (json : JsonObject) : Bool :=
  json.isCommand "DownloadApplication" &&
    (json.value "application_id").toString == applicationFullId

def concludes (applicationFullId : String) : DownloadNotice → Bool
  | .downloadAborted a | .downloadFinished a => a == applicationFullId
  | _ => false

def answers (applicationFullId : String) (json : JsonObject) : Bool :=
  (DownloadModelCommunication.processMessage json).any (concludes applicationFullId)

/-- What is asked for, in progress or answered on a connection. -/
def pendingOn (server : DownloadSystem) (applicationFullId : String) (l : DownloadLink) : Nat :=
  l.toServer.countP (requests applicationFullId) +
    (l.command.elim 0 fun command => server.inProgress command applicationFullId) +
    l.toClient.countP (answers applicationFullId)

def pending (s : Downloads) (n : Nat) (applicationFullId : String) : Nat :=
  (s.peers n).link.elim 0 (pendingOn s.server applicationFullId)

/-- The downloads that an application never hears of again, after an event. -/
def lost (n : Nat) (applicationFullId : String) (s : Downloads) : DownloadsEvent → Nat
  | .startDownload m _ a =>
      if m = n ∧ a = applicationFullId ∧ (s.peers n).link.all (·.closed) then 1 else 0
  | .deliverToServer m _ _ _ _ =>
      match s.peers n with
      | ⟨_, some ⟨none, json :: _, _, _⟩⟩ =>
          if m = n ∧ requests applicationFullId json then 1 else 0
      | _ => 0
  | .connectionBroken m => if m = n then s.pending n applicationFullId else 0
  | .applicationClosed m =>
      if m = n then
        (s.peers n).link.elim 0 fun l => l.toServer.countP (requests applicationFullId)
      else 0
  | _ => 0

def lostIn (n : Nat) (applicationFullId : String) (history : History) : Nat :=
  (history.map fun st => lost n applicationFullId st.pre st.label).sum

def initiated (n : Nat) (applicationFullId : String) (signals : List DownloadsSignal) : Nat :=
  signals.count (.client n (.downloadInitiated applicationFullId))

def aborted (n : Nat) (applicationFullId : String) (signals : List DownloadsSignal) : Nat :=
  signals.count (.client n (.downloadAborted applicationFullId))

def finished (n : Nat) (applicationFullId : String) (signals : List DownloadsSignal) : Nat :=
  signals.count (.client n (.downloadFinished applicationFullId))

end Counting

end Downloads

end GBerry.Protocol
