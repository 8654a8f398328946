import GBerry.Client.ChannelManager
import GBerry.Server.ChannelManager.Announcement

/-!
# The channel protocol

One server, any number of clients, and a queue in each direction for every
connection.  What the server sends is appended to the queue of the addressed
connection; a delivery takes the head of a queue.  Every step of the system is
at most one operation of the server, so that executions of the system project
to executions of the server.
-/

namespace GBerry.Protocol

open GBerry.Common
open GBerry.Foundation
open GBerry.Server
open GBerry.Client

abbrev Frame (β : Type) := Int × β

/-- A client and the messages under way, the next to arrive first. -/
structure Peer (β : Type) where
  client : ClientChannelManager
  toClient : List (Frame β)
  toServer : List (Frame β)

structure System (β : Type) where
  server : ServerChannelManager
  peers : QMap Int (Peer β)

inductive ProtocolSignal (β : Type) where
  | server (signal : Signal β)
  | client (connectionId : Int) (signal : ClientSignal β)

/--
The steps of the system.  A connection is accepted once, with the commands of
its control channel on both sides.
-/
inductive ProtocolEvent (β : Type) where
  | connect (connectionId : Nat) (commands : List ICommand)
      (applicationCode : String) (clientCommands : List ICommand)
  | serverOperation (op : { op : ServerOp β // op.spontaneous })
  | deliverToClient (connectionId : Nat)
  | deliverToServer (connectionId : Nat)
  | sendPlayerMessage (connectionId : Nat) (channelId : Int) (msg : β)
  | sendControlMessage (connectionId : Nat) (msg : β)

variable {β : Type} [QByteArray β]

def framesTo (connectionId : Int) (out : List (Signal β)) : List (Frame β) :=
  out.filterMap fun
    | .outgoingMessageToSouth message =>
        if message.connectionId = connectionId then
          some (message.channelId, message.msg)
        else none
    | _ => none

def framesOf (signals : List (ClientSignal β)) : List (Frame β) :=
  signals.filterMap fun
    | .outgoingMessage channelId msg => some (channelId, msg)
    | _ => none

namespace Peer

def connected (applicationCode : String) (clientCommands : List ICommand) : Peer β where
  client := ClientChannelManager.start.registerControlChannel
    (ClientSideControlChannel.create applicationCode clientCommands)
  toClient := []
  toServer := []

def send (p : Peer β) (frames : List (Frame β)) : Peer β :=
  { p with toClient := p.toClient ++ frames }

def reply (p : Peer β) (signals : List (ClientSignal β)) : Peer β :=
  { p with toServer := p.toServer ++ framesOf signals }

end Peer

namespace System

def start : System β where
  server := ServerChannelManager.start
  peers := ∅

def serve (s : System β) (op : ServerOp β) :
    Except Fault (System β × List (ProtocolSignal β)) :=
  match s.server.step op with
  | .error fault => .error fault
  | .ok (server, out) =>
      .ok ({ server := server
             peers := s.peers.map fun connectionId p =>
               p.send (framesTo connectionId out) },
        out.map .server)

def connect (s : System β) (connectionId : Nat) (commands : List ICommand)
    (applicationCode : String) (clientCommands : List ICommand) :
    Except Fault (System β × List (ProtocolSignal β)) :=
  if s.peers.contains connectionId then .ok (s, [])
  else
    let peer := Peer.connected applicationCode clientCommands
    { s with peers := s.peers.insert connectionId peer }.serve
      (.openControlChannel connectionId commands)

def signal (s : System β) (connectionId : Int) (p : Peer β)
    (signals : List (ClientSignal β)) : System β × List (ProtocolSignal β) :=
  ({ s with peers := s.peers.insert connectionId (p.reply signals) },
    signals.map (.client connectionId))

def deliverToClient (s : System β) (connectionId : Int) :
    System β × List (ProtocolSignal β) :=
  match s.peers[connectionId]? with
  | some ⟨client, (channelId, msg) :: toClient, toServer⟩ =>
      let (client, signals) := client.processMessage channelId msg
      s.signal connectionId ⟨client, toClient, toServer⟩ signals
  | _ => (s, [])

def deliverToServer (s : System β) (connectionId : Nat) :
    Except Fault (System β × List (ProtocolSignal β)) :=
  match s.peers[(connectionId : Int)]? with
  | some ⟨client, toClient, (channelId, msg) :: toServer⟩ =>
      let peer : Peer β := ⟨client, toClient, toServer⟩
      { s with peers := s.peers.insert connectionId peer }.serve
        (.processMessageFromSouth connectionId channelId msg)
  | _ => .ok (s, [])

def step (s : System β) :
    ProtocolEvent β → Except Fault (System β × List (ProtocolSignal β))
  | .connect connectionId commands applicationCode clientCommands =>
      s.connect connectionId commands applicationCode clientCommands
  | .serverOperation op => s.serve op.1
  | .deliverToClient connectionId => .ok (s.deliverToClient connectionId)
  | .deliverToServer connectionId => s.deliverToServer connectionId
  | .sendPlayerMessage connectionId channelId msg =>
      match s.peers[(connectionId : Int)]? with
      | some p => .ok (s.signal connectionId p (p.client.sendPlayerMessage channelId msg))
      | none => .ok (s, [])
  | .sendControlMessage connectionId msg =>
      match s.peers[(connectionId : Int)]? with
      | some p => .ok (s.signal connectionId p (p.client.sendControlMessage msg))
      | none => .ok (s, [])

def machine (β : Type) [QByteArray β] :
    Machine (System β) (ProtocolEvent β) (ProtocolSignal β) Fault where
  init := start
  step := step

abbrev History (β : Type) :=
  List (Step (System β) (ProtocolEvent β) (ProtocolSignal β))

def serverOp (s : System β) : ProtocolEvent β → Option (ServerOp β)
  | .connect connectionId commands _ _ =>
      if s.peers.contains connectionId then none
      else some (.openControlChannel connectionId commands)
  | .serverOperation op => some op.1
  | .deliverToServer connectionId =>
      match s.peers[(connectionId : Int)]? with
      | some ⟨_, _, (channelId, msg) :: _⟩ =>
          some (.processMessageFromSouth connectionId channelId msg)
      | _ => none
  | _ => none

def serverSignals (out : List (ProtocolSignal β)) : List (Signal β) :=
  out.filterMap fun
    | .server signal => some signal
    | .client _ _ => none

def serverStep (st : Step (System β) (ProtocolEvent β) (ProtocolSignal β)) :
    Option (Step ServerChannelManager (ServerOp β) (Signal β)) :=
  (st.pre.serverOp st.label).map fun op =>
    ⟨st.pre.server, op, serverSignals st.out, st.post.server⟩

def serverHistory (history : History β) :
    List (Step ServerChannelManager (ServerOp β) (Signal β)) :=
  history.filterMap serverStep

end System

end GBerry.Protocol
