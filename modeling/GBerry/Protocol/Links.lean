import GBerry.Client.ChannelTable
import GBerry.Protocol.System
import GBerry.Server.ChannelManager.PlayerMessages

/-!
# Applications whose links break

Every application keeps its channels over any number of connections.  A link
that breaks takes with it what was under way; the application and the server
notice the break at different times, in either order, and a reconnect gets the
next connection id of the server.
-/

namespace GBerry.Protocol

open GBerry.Common
open GBerry.Foundation
open GBerry.Server
open GBerry.Client

/--
A connection as its application sees it.  `closed` tells that the server has
closed it already.
-/
structure Link (β : Type) where
  connectionId : Nat
  toClient : List (Frame β)
  toServer : List (Frame β)
  closed : Bool

structure Application (β : Type) where
  client : ClientChannelManager
  link : Option (Link β)

/-- `unnoticed` are the broken connections that the server has not closed. -/
structure Network (β : Type) where
  server : ServerChannelManager
  nextConnectionId : Nat
  applications : Nat → Application β
  unnoticed : List Nat

def steers {β : Type} [QByteArray β] (msg : β) : Bool :=
  isCommand "Activate" msg || isCommand "Deactivate" msg

def SteadyCommand (β : Type) [QByteArray β] (cmd : ICommand) : Prop :=
  ∀ json, steers (QByteArray.toJson (cmd.process json).2 : β) = false

/--
The operations of the server apart from those that the network performs itself.
The commands of the server answer with replies only.
-/
def SteadyOperation {β : Type} [QByteArray β] : ServerOp β → Prop
  | .openControlChannel _ _ => False
  | .processMessageFromSouth _ _ _ => False
  | .applicationClosed _ => False
  | .sendJsonMessageToSouth _ json => steers (QByteArray.toJson json : β) = false
  | _ => True

inductive NetworkEvent (β : Type) [QByteArray β] where
  | reconnect (application : Nat)
  | openControlChannel (application : Nat)
      (commands : List { cmd : ICommand // SteadyCommand β cmd })
  | serverOperation (op : { op : ServerOp β // SteadyOperation op })
  | deliverToClient (application : Nat)
  | deliverToServer (application : Nat)
  | sendPlayerMessage (application : Nat) (channelId : Int) (msg : β)
  | sendControlMessage (application : Nat) (msg : β)
  /-- The application notices the break. -/
  | connectionBroken (application : Nat)
  /-- The server notices the break before the application. -/
  | applicationClosed (application : Nat)
  /-- The server notices the break after the application. -/
  | brokenConnectionClosed (connectionId : Nat)

variable {β : Type} [QByteArray β]

namespace Link

/-- What the server sends; nothing is written to a closed connection. -/
def send (l : Link β) (out : List (Signal β)) : Link β :=
  if l.closed then l
  else { l with toClient := l.toClient ++ framesTo l.connectionId out }

structure Drained (l : Link β) : Prop where
  up : l.closed = false
  to_client : l.toClient = []
  to_server : l.toServer = []

end Link

namespace Application

def start (applicationCode : String) (clientCommands : List ICommand) :
    Application β where
  client := ClientChannelManager.start.registerControlChannel
    (ClientSideControlChannel.create applicationCode clientCommands)
  link := none

def send (a : Application β) (out : List (Signal β)) : Application β :=
  { a with link := a.link.map (·.send out) }

def reply (a : Application β) (signals : List (ClientSignal β)) : Application β :=
  { a with
    link := a.link.map fun l =>
      { l with toServer := l.toServer ++ framesOf signals } }

end Application

namespace Network

def start (applicationCode : Nat → String) (clientCommands : Nat → List ICommand) :
    Network β where
  server := ServerChannelManager.start
  nextConnectionId := 0
  applications n := Application.start (applicationCode n) (clientCommands n)
  unnoticed := []

def setApplication (s : Network β) (n : Nat) (a : Application β) : Network β :=
  { s with applications := Function.update s.applications n a }

def serve (s : Network β) (op : ServerOp β) :
    Except Fault (Network β × List (ProtocolSignal β)) :=
  match s.server.step op with
  | .error fault => .error fault
  | .ok (server, out) =>
      .ok ({ s with
          server := server
          applications := fun n => (s.applications n).send out },
        out.map .server)

/-- What an application signals, on the connection it had before. -/
def signal (s : Network β) (n : Nat) (l : Link β) (a : Application β)
    (signals : List (ClientSignal β)) :
    Except Fault (Network β × List (ProtocolSignal β)) :=
  .ok (s.setApplication n (a.reply signals), signals.map (.client l.connectionId))

def step (s : Network β) :
    NetworkEvent β → Except Fault (Network β × List (ProtocolSignal β))
  | .reconnect n =>
      match s.applications n with
      | ⟨client, none⟩ =>
          .ok ({ s.setApplication n ⟨client, some ⟨s.nextConnectionId, [], [], false⟩⟩ with
              nextConnectionId := s.nextConnectionId + 1 },
            [])
      | _ => .ok (s, [])
  | .openControlChannel n commands =>
      match s.applications n with
      | ⟨_, some ⟨connectionId, _, _, false⟩⟩ =>
          s.serve (.openControlChannel connectionId (commands.map Subtype.val))
      | _ => .ok (s, [])
  | .serverOperation op => s.serve op.1
  | .deliverToClient n =>
      match s.applications n with
      | ⟨client, some ⟨connectionId, (channelId, msg) :: toClient, toServer, closed⟩⟩ =>
          let (client, signals) := client.processMessage channelId msg
          let l := ⟨connectionId, toClient, toServer, closed⟩
          s.signal n l ⟨client, some l⟩ signals
      | _ => .ok (s, [])
  | .deliverToServer n =>
      match s.applications n with
      | ⟨client, some ⟨connectionId, toClient, (channelId, msg) :: toServer, false⟩⟩ =>
          (s.setApplication n
            ⟨client, some ⟨connectionId, toClient, toServer, false⟩⟩).serve
            (.processMessageFromSouth connectionId channelId msg)
      | _ => .ok (s, [])
  | .sendPlayerMessage n channelId msg =>
      match s.applications n with
      | ⟨client, some l⟩ =>
          s.signal n l ⟨client, some l⟩ (client.sendPlayerMessage channelId msg)
      | _ => .ok (s, [])
  | .sendControlMessage n msg =>
      match s.applications n with
      | ⟨client, some l⟩ => s.signal n l ⟨client, some l⟩ (client.sendControlMessage msg)
      | _ => .ok (s, [])
  | .connectionBroken n =>
      match s.applications n with
      | ⟨client, some l⟩ =>
          let (client, signals) := client.connectionBroken
          { s with
            unnoticed := if l.closed then s.unnoticed else l.connectionId :: s.unnoticed
          }.signal n l ⟨client, none⟩ signals
      | _ => .ok (s, [])
  | .applicationClosed n =>
      match s.applications n with
      | ⟨client, some ⟨connectionId, toClient, toServer, false⟩⟩ =>
          (s.setApplication n
            ⟨client, some ⟨connectionId, toClient, toServer, true⟩⟩).serve
            (.applicationClosed connectionId)
      | _ => .ok (s, [])
  | .brokenConnectionClosed connectionId =>
      if connectionId ∈ s.unnoticed then
        { s with unnoticed := s.unnoticed.erase connectionId }.serve
          (.applicationClosed connectionId)
      else .ok (s, [])

def machine (β : Type) [QByteArray β] (applicationCode : Nat → String)
    (clientCommands : Nat → List ICommand) :
    Machine (Network β) (NetworkEvent β) (ProtocolSignal β) Fault where
  init := start applicationCode clientCommands
  step := step

abbrev History (β : Type) [QByteArray β] :=
  List (Step (Network β) (NetworkEvent β) (ProtocolSignal β))

end Network

end GBerry.Protocol
