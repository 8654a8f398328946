import GBerry.Common.MessageReader
import GBerry.Foundation.Refinement
import GBerry.Foundation.StreamLink
import GBerry.Protocol.System

/-!
# The channel protocol on TCP connections

Every connection is a stream of bytes in each direction, with a `MessageReader`
at both ends.  Bytes arrive in chunks of any size; the messages that a chunk
completes are processed one after the other, before anything else happens.
-/

namespace GBerry.Protocol

open GBerry.Common
open GBerry.Foundation
open GBerry.Server
open GBerry.Client

/-- A `QByteArray` is the array of its bytes. -/
structure ByteCoding (β : Type) where
  bytes : β → Bytes
  ofBytes : Bytes → β

structure WirePeer (β : Type) where
  client : ClientChannelManager
  clientReader : MessageReader
  serverReader : MessageReader
  toClient : Bytes
  toServer : Bytes

structure WireSystem (β : Type) where
  server : ServerChannelManager
  peers : QMap Int (WirePeer β)

/-- The steps of the system; `count` bytes arrive, or all that are under way. -/
inductive WireEvent (β : Type) where
  | connect (connectionId : Nat) (commands : List ICommand)
      (applicationCode : String) (clientCommands : List ICommand)
  | serverOperation (op : { op : ServerOp β // op.spontaneous })
  | arriveAtClient (connectionId count : Nat)
  | arriveAtServer (connectionId count : Nat)
  | sendPlayerMessage (connectionId : Nat) (channelId : Int) (msg : β)
  | sendControlMessage (connectionId : Nat) (msg : β)

variable {β : Type}

namespace ByteCoding

variable (C : ByteCoding β)

def write (frame : Frame β) : Bytes :=
  MessageReader.write (Int32.ofInt frame.1) (C.bytes frame.2)

def writeAll (frames : List (Frame β)) : Bytes := frames.flatMap C.write

def read (received : Int32 × Bytes) : Frame β := (received.1.toInt, C.ofBytes received.2)

/-- The channel id is an `int`, and the length of the block a `quint32`. -/
structure Fits (frame : Frame β) : Prop where
  channelId_ge : -2 ^ 31 ≤ frame.1
  channelId_lt : frame.1 < 2 ^ 31
  length_lt : (C.bytes frame.2).length + 4 < 2 ^ 32
  ofBytes_bytes : C.ofBytes (C.bytes frame.2) = frame.2

def SignalFits : ProtocolSignal β → Prop
  | .server (.outgoingMessageToSouth message) => C.Fits (message.channelId, message.msg)
  | .client _ (.outgoingMessage channelId msg) => C.Fits (channelId, msg)
  | _ => True

end ByteCoding

namespace WirePeer

def connected (applicationCode : String) (clientCommands : List ICommand) : WirePeer β where
  client := ClientChannelManager.start.registerControlChannel
    (ClientSideControlChannel.create applicationCode clientCommands)
  clientReader := MessageReader.start
  serverReader := MessageReader.start
  toClient := []
  toServer := []

def send (C : ByteCoding β) (p : WirePeer β) (frames : List (Frame β)) : WirePeer β :=
  { p with toClient := p.toClient ++ C.writeAll frames }

def reply (C : ByteCoding β) (p : WirePeer β) (signals : List (ClientSignal β)) :
    WirePeer β :=
  { p with toServer := p.toServer ++ C.writeAll (framesOf signals) }

end WirePeer

variable [QByteArray β]

namespace WireSystem

def start : WireSystem β where
  server := ServerChannelManager.start
  peers := ∅

def setPeer (s : WireSystem β) (connectionId : Int) (p : WirePeer β) : WireSystem β :=
  { s with peers := s.peers.insert connectionId p }

variable (C : ByteCoding β)

def serve (s : WireSystem β) (op : ServerOp β) :
    Except Fault (WireSystem β × List (ProtocolSignal β)) :=
  match s.server.step op with
  | .error fault => .error fault
  | .ok (server, out) =>
      .ok ({ server := server
             peers := s.peers.map fun connectionId p =>
               p.send C (framesTo connectionId out) },
        out.map .server)

def connect (s : WireSystem β) (connectionId : Nat) (commands : List ICommand)
    (applicationCode : String) (clientCommands : List ICommand) :
    Except Fault (WireSystem β × List (ProtocolSignal β)) :=
  if s.peers.contains connectionId then .ok (s, [])
  else
    (s.setPeer connectionId (WirePeer.connected applicationCode clientCommands)).serve C
      (.openControlChannel connectionId commands)

def signal (s : WireSystem β) (connectionId : Int) (p : WirePeer β)
    (signals : List (ClientSignal β)) : WireSystem β × List (ProtocolSignal β) :=
  (s.setPeer connectionId (p.reply C signals), signals.map (.client connectionId))

def processAtClient (s : WireSystem β) (connectionId : Int) :
    List (Frame β) → WireSystem β × List (ProtocolSignal β)
  | [] => (s, [])
  | (channelId, msg) :: frames =>
      match s.peers[connectionId]? with
      | none => (s, [])
      | some p =>
          let (client, signals) := p.client.processMessage channelId msg
          let first := s.signal C connectionId { p with client := client } signals
          let others := first.1.processAtClient connectionId frames
          (others.1, first.2 ++ others.2)

def processAtServer (s : WireSystem β) (connectionId : Nat) :
    List (Frame β) → Except Fault (WireSystem β × List (ProtocolSignal β))
  | [] => .ok (s, [])
  | (channelId, msg) :: frames =>
      match s.serve C (.processMessageFromSouth connectionId channelId msg) with
      | .error fault => .error fault
      | .ok (s, first) =>
          match s.processAtServer connectionId frames with
          | .error fault => .error fault
          | .ok (s, others) => .ok (s, first ++ others)

def arriveAtClient (s : WireSystem β) (connectionId count : Nat) :
    WireSystem β × List (ProtocolSignal β) :=
  match s.peers[(connectionId : Int)]? with
  | none => (s, [])
  | some p =>
      let (reader, received) := p.clientReader.receive (p.toClient.take count)
      let p := { p with clientReader := reader, toClient := p.toClient.drop count }
      (s.setPeer connectionId p).processAtClient C connectionId (received.map C.read)

def arriveAtServer (s : WireSystem β) (connectionId count : Nat) :
    Except Fault (WireSystem β × List (ProtocolSignal β)) :=
  match s.peers[(connectionId : Int)]? with
  | none => .ok (s, [])
  | some p =>
      let (reader, received) := p.serverReader.receive (p.toServer.take count)
      let p := { p with serverReader := reader, toServer := p.toServer.drop count }
      (s.setPeer connectionId p).processAtServer C connectionId (received.map C.read)

def step (s : WireSystem β) :
    WireEvent β → Except Fault (WireSystem β × List (ProtocolSignal β))
  | .connect connectionId commands applicationCode clientCommands =>
      s.connect C connectionId commands applicationCode clientCommands
  | .serverOperation op => s.serve C op.1
  | .arriveAtClient connectionId count => .ok (s.arriveAtClient C connectionId count)
  | .arriveAtServer connectionId count => s.arriveAtServer C connectionId count
  | .sendPlayerMessage connectionId channelId msg =>
      match s.peers[(connectionId : Int)]? with
      | some p => .ok (s.signal C connectionId p (p.client.sendPlayerMessage channelId msg))
      | none => .ok (s, [])
  | .sendControlMessage connectionId msg =>
      match s.peers[(connectionId : Int)]? with
      | some p => .ok (s.signal C connectionId p (p.client.sendControlMessage msg))
      | none => .ok (s, [])

def machine (C : ByteCoding β) :
    Machine (WireSystem β) (WireEvent β) (ProtocolSignal β) Fault where
  init := start
  step := step C

abbrev History (β : Type) :=
  List (Step (WireSystem β) (WireEvent β) (ProtocolSignal β))

end WireSystem

end GBerry.Protocol
