import GBerry.Protocol.Wire

/-!
# The queues of the protocol are the streams of its connections

The system with streams is simulated by the one with queues: a queue has the
messages that were written and whose last byte has not arrived.  A chunk that
completes several messages takes as many deliveries.
-/

namespace GBerry.Protocol

open GBerry.Common
open GBerry.Common.MessageReader (framed)
open GBerry.Foundation
open GBerry.Server
open GBerry.Client

variable {β : Type}

namespace ByteCoding

variable (C : ByteCoding β)

def message (frame : Frame β) (h : C.Fits frame) : Message where
  channelId := Int32.ofInt frame.1
  payload := C.bytes frame.2
  fits := h.length_lt

def frameOf (m : Message) : Frame β := C.read (m.channelId, m.payload)

theorem frameOf_message {frame : Frame β} (h : C.Fits frame) :
    C.frameOf (C.message frame h) = frame := by
  have hid : (Int32.ofInt frame.1).toInt = frame.1 :=
    Int32.toInt_ofInt_of_le h.channelId_ge h.channelId_lt
  simp only [frameOf, message, read, hid, h.ofBytes_bytes]

/-- These frames have been written to a stream, and have not been received. -/
def Sends (frames : List (Frame β)) (stream : Bytes) (reader : MessageReader) : Prop :=
  ∃ msgs, frames = msgs.map C.frameOf ∧ framed.Carries msgs stream reader

namespace Sends

variable {C} {frames : List (Frame β)} {stream : Bytes} {reader : MessageReader}

theorem start : C.Sends [] [] MessageReader.start :=
  ⟨[], rfl, .empty (.inl ⟨by simp, rfl, rfl⟩)⟩

theorem write (h : C.Sends frames stream reader) {frame : Frame β} (hfits : C.Fits frame) :
    C.Sends (frames ++ [frame]) (stream ++ C.write frame) reader := by
  obtain ⟨msgs, rfl, hcarries⟩ := h
  refine ⟨msgs ++ [C.message frame hfits], ?_, hcarries.write _⟩
  rw [List.map_append, List.map_singleton, C.frameOf_message]

theorem writeAll (h : C.Sends frames stream reader) {written : List (Frame β)}
    (hfits : ∀ frame ∈ written, C.Fits frame) :
    C.Sends (frames ++ written) (stream ++ C.writeAll written) reader := by
  induction written generalizing frames stream with
  | nil => simpa [ByteCoding.writeAll] using h
  | cons frame written ih =>
      rw [List.forall_mem_cons] at hfits
      have hnext := ih (h.write hfits.1) hfits.2
      simpa only [List.append_assoc, List.singleton_append, ByteCoding.writeAll,
        List.flatMap_cons] using hnext

theorem receive {arriving rest : Bytes} (h : C.Sends frames (arriving ++ rest) reader) :
    ∃ todo, frames = (reader.receive arriving).2.map C.read ++ todo ∧
      C.Sends todo rest (reader.receive arriving).1 := by
  obtain ⟨msgs, rfl, hcarries⟩ := h
  obtain ⟨done, todo, rfl, hreceive, hrest⟩ := hcarries.receive
  have hdone : (reader.receive arriving).2 =
      done.map fun m => (m.channelId, m.payload) := hreceive
  refine ⟨todo.map C.frameOf, ?_, todo, rfl, hrest⟩
  rw [List.map_append, hdone, List.map_map]
  rfl

end Sends

end ByteCoding

section Peers

variable (C : ByteCoding β)

/--
The client is the same, and the frames that have been written are those of the
queues, except for what has been received and is still to be processed.
-/
structure PeerRepresents (p : WirePeer β) (q : Peer β) (atClient atServer : List (Frame β)) :
    Prop where
  client : q.client = p.client
  toClient : ∃ frames, q.toClient = atClient ++ frames ∧
    C.Sends frames p.toClient p.clientReader
  toServer : ∃ frames, q.toServer = atServer ++ frames ∧
    C.Sends frames p.toServer p.serverReader

variable {C} {p : WirePeer β} {q : Peer β} {atClient atServer : List (Frame β)}

theorem peerRepresents_connected (applicationCode : String)
    (clientCommands : List ICommand) :
    PeerRepresents (β := β) C (WirePeer.connected applicationCode clientCommands)
      (Peer.connected applicationCode clientCommands) [] [] :=
  ⟨rfl, ⟨[], rfl, .start⟩, ⟨[], rfl, .start⟩⟩

namespace PeerRepresents

theorem send (h : PeerRepresents C p q atClient atServer) {sent : List (Frame β)}
    (hfits : ∀ frame ∈ sent, C.Fits frame) :
    PeerRepresents C (p.send C sent) (q.send sent) atClient atServer := by
  obtain ⟨frames, hqueue, hsends⟩ := h.toClient
  refine ⟨h.client, ⟨frames ++ sent, ?_, hsends.writeAll hfits⟩, h.toServer⟩
  simp only [Peer.send, hqueue, List.append_assoc]

theorem reply (h : PeerRepresents C p q atClient atServer) {signals : List (ClientSignal β)}
    (hfits : ∀ frame ∈ framesOf signals, C.Fits frame) :
    PeerRepresents C (p.reply C signals) (q.reply signals) atClient atServer := by
  obtain ⟨frames, hqueue, hsends⟩ := h.toServer
  refine ⟨h.client, h.toClient, ⟨frames ++ framesOf signals, ?_, hsends.writeAll hfits⟩⟩
  simp only [Peer.reply, hqueue, List.append_assoc]

end PeerRepresents

end Peers

section Signals

variable {C : ByteCoding β}

theorem fits_framesTo {signals : List (Signal β)}
    (h : ∀ signal ∈ signals.map ProtocolSignal.server, C.SignalFits signal) (c : Int) :
    ∀ frame ∈ framesTo c signals, C.Fits frame := by
  intro frame hframe
  obtain ⟨signal, hmem, hsignal⟩ := List.mem_filterMap.mp hframe
  have hfits := h _ (List.mem_map_of_mem hmem)
  cases signal with
  | outgoingMessageToSouth message =>
      simp only [Option.ite_none_right_eq_some, Option.some.injEq] at hsignal
      rw [← hsignal.2]
      exact hfits
  | playerMessageFromSouth channelId msg => cases hsignal
  | playerRequestedMainMenu channelId => cases hsignal

theorem fits_framesOf {c : Int} {signals : List (ClientSignal β)}
    (h : ∀ signal ∈ signals.map (ProtocolSignal.client c), C.SignalFits signal) :
    ∀ frame ∈ framesOf signals, C.Fits frame := by
  intro frame hframe
  obtain ⟨signal, hmem, hsignal⟩ := List.mem_filterMap.mp hframe
  have hfits := h _ (List.mem_map_of_mem hmem)
  cases signal with
  | outgoingMessage channelId msg =>
      cases hsignal
      exact hfits
  | _ => cases hsignal

end Signals

def pending (connectionId : Int) (frames : List (Frame β)) : Int → List (Frame β) :=
  Function.update (fun _ => []) connectionId frames

theorem pending_ne {connectionId c : Int} (h : c ≠ connectionId)
    (frames : List (Frame β)) : pending connectionId frames c = [] :=
  Function.update_of_ne h _ _

theorem pending_self (connectionId : Int) (frames : List (Frame β)) :
    pending connectionId frames connectionId = frames :=
  Function.update_self _ _ _

theorem pending_nil (connectionId : Int) :
    pending connectionId ([] : List (Frame β)) = fun _ => [] :=
  Function.update_eq_self _ _

/--
The system with queues that a system with streams stands for, while some frames
have been received and are still to be processed.
-/
structure Represents (C : ByteCoding β) (w : WireSystem β) (s : System β)
    (atClient atServer : Int → List (Frame β)) : Prop where
  server : s.server = w.server
  peer : ∀ c : Int, Option.Rel (fun p q => PeerRepresents C p q (atClient c) (atServer c))
    w.peers[c]? s.peers[c]?

namespace Represents

variable {C : ByteCoding β} {w w' : WireSystem β} {s : System β}
  {atClient atServer atClient' atServer' : Int → List (Frame β)}
  {s' : System β} {p : WirePeer β} {q : Peer β} {c : Int} {out : List (ProtocolSignal β)}

theorem start : Represents C WireSystem.start System.start (fun _ => []) (fun _ => []) where
  server := rfl
  peer c := by
    have hwire : (WireSystem.start (β := β)).peers[c]? = none := by simp [WireSystem.start]
    have hsystem : (System.start (β := β)).peers[c]? = none := by simp [System.start]
    rw [hwire, hsystem]
    exact .none

theorem exists_peer (h : Represents C w s atClient atServer) (hp : w.peers[c]? = some p) :
    ∃ q, s.peers[c]? = some q ∧ PeerRepresents C p q (atClient c) (atServer c) := by
  have hpeer := h.peer c
  rw [hp] at hpeer
  generalize hq : s.peers[c]? = peer at hpeer
  cases hpeer with
  | some hrepresents => exact ⟨_, rfl, hrepresents⟩

theorem no_peer (h : Represents C w s atClient atServer) (hp : w.peers[c]? = none) :
    s.peers[c]? = none := by
  have hpeer := h.peer c
  rw [hp] at hpeer
  generalize hq : s.peers[c]? = peer at hpeer
  cases hpeer with
  | none => rfl

theorem update (h : Represents C w s atClient atServer) (hserver : w'.server = w.server)
    (hserver' : s'.server = s.server)
    (hpeers : ∀ d : Int, w'.peers[d]? = if d = c then some p else w.peers[d]?)
    (hpeers' : ∀ d : Int, s'.peers[d]? = if d = c then some q else s.peers[d]?)
    (hp : PeerRepresents C p q (atClient' c) (atServer' c))
    (hatClient : ∀ d ≠ c, atClient' d = atClient d)
    (hatServer : ∀ d ≠ c, atServer' d = atServer d) :
    Represents C w' s' atClient' atServer' where
  server := by rw [hserver, hserver', h.server]
  peer d := by
    rw [hpeers d, hpeers' d]
    split
    · rename_i heq
      rw [heq]
      exact .some hp
    · rename_i hne
      rw [hatClient d hne, hatServer d hne]
      exact h.peer d

theorem getElem?_same {α : Type} {peers : QMap Int α} {a : α} (ha : peers[c]? = some a)
    (d : Int) : peers[d]? = if d = c then some a else peers[d]? := by
  split
  · rename_i heq
    rw [heq, ha]
  · rfl

theorem setPeer (h : Represents C w s atClient atServer) (hq : s.peers[c]? = some q)
    (hp : PeerRepresents C p q (atClient' c) (atServer' c))
    (hatClient : ∀ d ≠ c, atClient' d = atClient d)
    (hatServer : ∀ d ≠ c, atServer' d = atServer d) :
    Represents C (w.setPeer c p) s atClient' atServer' :=
  h.update rfl rfl (QMap.getElem?_insert _ _ · _) (getElem?_same hq) hp hatClient hatServer

theorem signal (h : Represents C w s atClient atServer)
    (hp : PeerRepresents C p q (atClient' c) (atServer' c))
    (hatClient : ∀ d ≠ c, atClient' d = atClient d)
    (hatServer : ∀ d ≠ c, atServer' d = atServer d) {signals : List (ClientSignal β)}
    (hfits : ∀ signal ∈ signals.map (ProtocolSignal.client c), C.SignalFits signal) :
    Represents C (w.signal C c p signals).1 (s.signal c q signals).1 atClient' atServer' :=
  h.update rfl rfl (QMap.getElem?_insert _ _ · _) (QMap.getElem?_insert _ _ · _)
    (hp.reply (fits_framesOf hfits)) hatClient hatServer

theorem congr (h : Represents C w s atClient atServer)
    (hclient : ∀ d ∈ w.peers, atClient' d = atClient d)
    (hserver : ∀ d ∈ w.peers, atServer' d = atServer d) :
    Represents C w s atClient' atServer' where
  server := h.server
  peer d := by
    have hpeer := h.peer d
    generalize hp : w.peers[d]? = peer at hpeer ⊢
    generalize s.peers[d]? = peer' at hpeer ⊢
    cases hpeer with
    | some hrepresents =>
        have hmem := QMap.mem_of_getElem? hp
        rw [← hclient d hmem, ← hserver d hmem] at hrepresents
        exact .some hrepresents
    | none => exact .none

variable [QByteArray β]

theorem serve (h : Represents C w s atClient atServer) {op : ServerOp β}
    (hw : w.serve C op = .ok (w', out)) (hfits : ∀ signal ∈ out, C.SignalFits signal) :
    ∃ s', s.serve op = .ok (s', out) ∧ Represents C w' s' atClient atServer := by
  unfold WireSystem.serve at hw
  split at hw
  · cases hw
  rename_i server signals hstep
  cases hw
  refine ⟨_, by rw [System.serve, h.server, hstep], rfl, ?_⟩
  intro d
  simp only [Std.ExtTreeMap.getElem?_map]
  have hpeer := h.peer d
  generalize w.peers[d]? = peer at hpeer ⊢
  generalize s.peers[d]? = peer' at hpeer ⊢
  cases hpeer with
  | some hrepresents => exact .some (hrepresents.send (fits_framesTo hfits d))
  | none => exact .none

theorem processAtClient {c : Nat} {frames : List (Frame β)}
    (h : Represents C w s (pending c frames) fun _ => [])
    (hw : w.processAtClient C c frames = (w', out))
    (hfits : ∀ signal ∈ out, C.SignalFits signal) :
    ∃ s', (System.machine β).Runs s out s' ∧
      Represents C w' s' (fun _ => []) fun _ => [] := by
  induction frames generalizing w s out with
  | nil =>
      cases hw
      rw [pending_nil] at h
      exact ⟨s, .refl s, h⟩
  | cons frame frames ih =>
      obtain ⟨k, msg⟩ := frame
      cases hp : w.peers[(c : Int)]? with
      | none =>
          simp only [WireSystem.processAtClient, hp] at hw
          cases hw
          refine ⟨s, .refl s, h.congr ?_ fun _ _ => rfl⟩
          intro d hd
          have hne : d ≠ c := by
            rintro rfl
            exact (QMap.notMem_iff _ _).mpr hp hd
          exact (pending_ne hne _).symm
      | some p =>
          simp only [WireSystem.processAtClient, hp] at hw
          cases hw
          obtain ⟨q, hq, hrepresents⟩ := h.exists_peer hp
          rw [List.forall_mem_append] at hfits
          obtain ⟨⟨queue, hqueue, hsends⟩, htoServer⟩ :=
            And.intro hrepresents.toClient hrepresents.toServer
          rw [pending_self, List.cons_append] at hqueue
          have hdeliver : (System.machine β).step s (.deliverToClient c) = .ok
              (s.signal c ⟨(p.client.processMessage k msg).1, frames ++ queue, q.toServer⟩
                (p.client.processMessage k msg).2) := by
            obtain ⟨client, toClient, toServer⟩ := q
            obtain rfl : client = p.client := hrepresents.client
            obtain rfl : toClient = (k, msg) :: (frames ++ queue) := hqueue
            simp only [System.machine, System.step, System.deliverToClient, hq]
          have hprocessed : PeerRepresents C
              { p with client := (p.client.processMessage k msg).1 }
              ⟨(p.client.processMessage k msg).1, frames ++ queue, q.toServer⟩
              (pending c frames c) [] :=
            ⟨rfl, ⟨queue, by rw [pending_self], hsends⟩, htoServer⟩
          have hnext : Represents C
              (w.signal C c { p with client := (p.client.processMessage k msg).1 }
                (p.client.processMessage k msg).2).1
              (s.signal c ⟨(p.client.processMessage k msg).1, frames ++ queue, q.toServer⟩
                (p.client.processMessage k msg).2).1
              (pending c frames) (fun _ => []) :=
            h.signal hprocessed (fun d hd => by rw [pending_ne hd, pending_ne hd])
              (fun _ _ => rfl) hfits.1
          obtain ⟨s', hruns, hrest⟩ := ih hnext rfl hfits.2
          exact ⟨s', .next hdeliver hruns, hrest⟩

theorem mem_serve {op : ServerOp β} (hw : w.serve C op = .ok (w', out)) :
    c ∈ w'.peers ↔ c ∈ w.peers := by
  unfold WireSystem.serve at hw
  split at hw
  · cases hw
  · cases hw
    simp

theorem processAtServer {c : Nat} {frames : List (Frame β)}
    (h : Represents C w s (fun _ => []) (pending c frames)) (hc : (c : Int) ∈ w.peers)
    (hw : w.processAtServer C c frames = .ok (w', out))
    (hfits : ∀ signal ∈ out, C.SignalFits signal) :
    ∃ s', (System.machine β).Runs s out s' ∧
      Represents C w' s' (fun _ => []) fun _ => [] := by
  induction frames generalizing w s out with
  | nil =>
      cases hw
      rw [pending_nil] at h
      exact ⟨s, .refl s, h⟩
  | cons frame frames ih =>
      obtain ⟨k, msg⟩ := frame
      simp only [WireSystem.processAtServer] at hw
      split at hw
      · cases hw
      rename_i w₁ first hserve
      split at hw
      · cases hw
      rename_i w₂ others hothers
      cases hw
      rw [List.forall_mem_append] at hfits
      obtain ⟨p, hp⟩ := (QMap.mem_iff _ _).mp hc
      obtain ⟨q, hq, hrepresents⟩ := h.exists_peer hp
      obtain ⟨queue, hqueue, hsends⟩ := hrepresents.toServer
      rw [pending_self, List.cons_append] at hqueue
      have htaken : Represents C w
          { s with peers := s.peers.insert c ⟨q.client, q.toClient, frames ++ queue⟩ }
          (fun _ => []) (pending c frames) := by
        refine h.update rfl rfl (getElem?_same hp) (QMap.getElem?_insert _ _ · _)
          ⟨hrepresents.client, hrepresents.toClient, queue, ?_, hsends⟩
          (fun _ _ => rfl) (fun _ hd => by rw [pending_ne hd, pending_ne hd])
        rw [pending_self]
      obtain ⟨s₁, hs₁, hnext⟩ := htaken.serve hserve hfits.1
      have hdeliver : (System.machine β).step s (.deliverToServer c) = .ok (s₁, first) := by
        obtain ⟨client, toClient, toServer⟩ := q
        obtain rfl : toServer = (k, msg) :: (frames ++ queue) := hqueue
        simp only [System.machine, System.step, System.deliverToServer, hq]
        exact hs₁
      obtain ⟨s', hruns, hrest⟩ := ih hnext ((mem_serve hserve).mpr hc) hothers hfits.2
      exact ⟨s', .next hdeliver hruns, hrest⟩

end Represents

section Steps

variable {C : ByteCoding β} {w w' : WireSystem β} {s : System β} {p : WirePeer β}
  {q : Peer β} {ev : WireEvent β} {out : List (ProtocolSignal β)}

theorem PeerRepresents.arriveAtClient (h : PeerRepresents C p q [] []) (count : Nat) :
    PeerRepresents C
      { p with
        clientReader := (p.clientReader.receive (p.toClient.take count)).1
        toClient := p.toClient.drop count }
      q ((p.clientReader.receive (p.toClient.take count)).2.map C.read) [] := by
  obtain ⟨queue, hqueue, hsends⟩ := h.toClient
  rw [← List.take_append_drop count p.toClient] at hsends
  obtain ⟨todo, hdone, hrest⟩ := hsends.receive
  refine ⟨h.client, ⟨todo, ?_, hrest⟩, h.toServer⟩
  rw [hqueue, List.nil_append, hdone]

theorem PeerRepresents.arriveAtServer (h : PeerRepresents C p q [] []) (count : Nat) :
    PeerRepresents C
      { p with
        serverReader := (p.serverReader.receive (p.toServer.take count)).1
        toServer := p.toServer.drop count }
      q [] ((p.serverReader.receive (p.toServer.take count)).2.map C.read) := by
  obtain ⟨queue, hqueue, hsends⟩ := h.toServer
  rw [← List.take_append_drop count p.toServer] at hsends
  obtain ⟨todo, hdone, hrest⟩ := hsends.receive
  refine ⟨h.client, h.toClient, ⟨todo, ?_, hrest⟩⟩
  rw [hqueue, List.nil_append, hdone]

variable [QByteArray β]

/-- At a moment between two steps, nothing that was received is to be processed. -/
abbrev AtRest (C : ByteCoding β) (w : WireSystem β) (s : System β) : Prop :=
  Represents C w s (fun _ => []) fun _ => []

namespace AtRest

theorem connect (h : AtRest C w s) {c : Nat} {commands : List ICommand}
    {applicationCode : String} {clientCommands : List ICommand}
    (hw : w.connect C c commands applicationCode clientCommands = .ok (w', out))
    (hfits : ∀ signal ∈ out, C.SignalFits signal) :
    ∃ s', s.connect c commands applicationCode clientCommands = .ok (s', out) ∧
      AtRest C w' s' := by
  unfold WireSystem.connect at hw
  unfold System.connect
  cases hp : w.peers[(c : Int)]? with
  | some p =>
      obtain ⟨q, hq, -⟩ := h.exists_peer hp
      rw [if_pos (Std.ExtTreeMap.contains_iff_mem.mpr (QMap.mem_of_getElem? hp))] at hw
      rw [if_pos (Std.ExtTreeMap.contains_iff_mem.mpr (QMap.mem_of_getElem? hq))]
      cases hw
      exact ⟨s, rfl, h⟩
  | none =>
      have hwire : (w.peers.contains (c : Int)) = false := by
        simpa [← Std.ExtTreeMap.contains_iff_mem] using (QMap.notMem_iff _ _).mpr hp
      have hsystem : (s.peers.contains (c : Int)) = false := by
        simpa [← Std.ExtTreeMap.contains_iff_mem] using
          (QMap.notMem_iff _ _).mpr (h.no_peer hp)
      rw [hwire, if_neg Bool.false_ne_true] at hw
      rw [hsystem, if_neg Bool.false_ne_true]
      have hset : AtRest C (w.setPeer c (WirePeer.connected applicationCode clientCommands))
          { s with
            peers := s.peers.insert c (Peer.connected applicationCode clientCommands) } :=
        h.update rfl rfl (QMap.getElem?_insert _ _ · _) (QMap.getElem?_insert _ _ · _)
          (peerRepresents_connected applicationCode clientCommands)
          (fun _ _ => rfl) (fun _ _ => rfl)
      exact hset.serve hw hfits

theorem arriveAtClient (h : AtRest C w s) {c count : Nat}
    (hw : w.arriveAtClient C c count = (w', out))
    (hfits : ∀ signal ∈ out, C.SignalFits signal) :
    ∃ s', (System.machine β).Runs s out s' ∧ AtRest C w' s' := by
  unfold WireSystem.arriveAtClient at hw
  split at hw
  · cases hw
    exact ⟨s, .refl s, h⟩
  · rename_i p hp
    obtain ⟨q, hq, hrepresents⟩ := h.exists_peer hp
    have hreceived := hrepresents.arriveAtClient count
    rw [← pending_self (c : Int)
      ((p.clientReader.receive (p.toClient.take count)).2.map C.read)] at hreceived
    have hset := h.setPeer hq hreceived (fun _ hd => pending_ne hd _) (fun _ _ => rfl)
    exact hset.processAtClient hw hfits

theorem arriveAtServer (h : AtRest C w s) {c count : Nat}
    (hw : w.arriveAtServer C c count = .ok (w', out))
    (hfits : ∀ signal ∈ out, C.SignalFits signal) :
    ∃ s', (System.machine β).Runs s out s' ∧ AtRest C w' s' := by
  unfold WireSystem.arriveAtServer at hw
  split at hw
  · cases hw
    exact ⟨s, .refl s, h⟩
  · rename_i p hp
    obtain ⟨q, hq, hrepresents⟩ := h.exists_peer hp
    have hreceived := hrepresents.arriveAtServer count
    rw [← pending_self (c : Int)
      ((p.serverReader.receive (p.toServer.take count)).2.map C.read)] at hreceived
    have hset := h.setPeer hq hreceived (fun _ _ => rfl) (fun _ hd => pending_ne hd _)
    exact hset.processAtServer (by simp [WireSystem.setPeer]) hw hfits

omit [QByteArray β] in
theorem write (h : AtRest C w s) {c : Nat} (hrepresents : PeerRepresents C p q [] [])
    {signals : List (ClientSignal β)}
    (hfits : ∀ signal ∈ (w.signal C c p signals).2, C.SignalFits signal) :
    AtRest C (w.signal C c p signals).1 (s.signal c q signals).1 :=
  h.signal hrepresents (fun _ _ => rfl) (fun _ _ => rfl) hfits

theorem step (h : AtRest C w s) (hw : w.step C ev = .ok (w', out))
    (hfits : ∀ signal ∈ out, C.SignalFits signal) :
    ∃ s', (System.machine β).Runs s out s' ∧ AtRest C w' s' := by
  cases ev with
  | connect c commands applicationCode clientCommands =>
      obtain ⟨s', hs', hnext⟩ := h.connect hw hfits
      exact ⟨s', .single (l := .connect c commands applicationCode clientCommands) hs', hnext⟩
  | serverOperation op =>
      obtain ⟨s', hs', hnext⟩ := h.serve hw hfits
      exact ⟨s', .single (l := .serverOperation op) hs', hnext⟩
  | arriveAtClient c count => exact h.arriveAtClient (Except.ok.inj hw) hfits
  | arriveAtServer c count => exact h.arriveAtServer hw hfits
  | sendPlayerMessage c k msg =>
      simp only [WireSystem.step] at hw
      split at hw
      · rename_i p hp
        cases hw
        obtain ⟨q, hq, hrepresents⟩ := h.exists_peer hp
        refine ⟨_, .single (l := .sendPlayerMessage c k msg) ?_, h.write hrepresents hfits⟩
        simp only [System.machine, System.step, hq, hrepresents.client]
        rfl
      · cases hw
        exact ⟨s, .refl s, h⟩
  | sendControlMessage c msg =>
      simp only [WireSystem.step] at hw
      split at hw
      · rename_i p hp
        cases hw
        obtain ⟨q, hq, hrepresents⟩ := h.exists_peer hp
        refine ⟨_, .single (l := .sendControlMessage c msg) ?_, h.write hrepresents hfits⟩
        simp only [System.machine, System.step, hq, hrepresents.client]
        rfl
      · cases hw
        exact ⟨s, .refl s, h⟩

end AtRest

end Steps

namespace WireSystem

variable [QByteArray β] {C : ByteCoding β} {w : WireSystem β}

/--
As long as every message fits its frame, a run on streams, however they are cut,
is a run on queues with the same signals.
-/
theorem refines_system {history : History β} (h : Execution (machine C) history w)
    (hfits : ∀ st ∈ history, ∀ signal ∈ st.out, C.SignalFits signal) :
    ∃ (history' : System.History β) (s : System β),
      Execution (System.machine β) history' s ∧ AtRest C w s ∧
        outputs history' = outputs history := by
  refine h.simulate (R := AtRest C) (C := fun st => ∀ signal ∈ st.out, C.SignalFits signal)
    Represents.start ?_ hfits
  intro w w' ev out s hrest hstep hsignals
  exact hrest.step hstep hsignals

end WireSystem

section Activation

def commandText (name : String) : Bytes :=
  ("\x7b\"command\":\"" ++ name ++ "\"\x7d").toList.map fun c => UInt8.ofNat c.toNat

def commandCoding : ByteCoding Text where
  bytes
    | .document json => commandText (JsonObject.value json "command").toString
    | .plain s => commandText s
  ofBytes l :=
    let name := ((l.drop 12).dropLast.dropLast).map fun b => Char.ofNat b.toNat
    .document (MessageFactory.createSimpleCommandJson (String.ofList name))

def activateFrame : Frame Text := (0, MessageFactory.createSimpleCommand "Activate")

theorem fits_activateFrame : commandCoding.Fits activateFrame where
  channelId_ge := by decide
  channelId_lt := by decide
  length_lt := by decide +kernel
  ofBytes_bytes :=
    congrArg (fun name => Text.document (MessageFactory.createSimpleCommandJson name))
      (by decide +kernel)

theorem receive_activateFrame_start :
    MessageReader.start.receive ((commandCoding.write activateFrame).take 10) =
      (⟨26, 0, [], [0, 0]⟩, []) := by
  have hbytes : (commandCoding.write activateFrame).take 10 =
      [0, 0, 0, 26, 0, 0, 0, 0, 0, 0] := by decide +kernel
  rw [hbytes, MessageReader.receive, MessageReader.socketReadyRead]
  rfl

theorem receive_activateFrame_end :
    MessageReader.receive ⟨26, 0, [], [0, 0]⟩ ((commandCoding.write activateFrame).drop 10) =
      (⟨0, 0, commandText "Activate", []⟩, [(0, commandText "Activate")]) := by
  have hbytes : (commandCoding.write activateFrame).drop 10 =
      [0, 22] ++ commandText "Activate" := by decide +kernel
  have hbody : QDataStream.getByteArray ([0, 0] ++ ([0, 22] ++ commandText "Activate")) =
      (commandText "Activate", []) := by decide +kernel
  have hheader : MessageReader.readHeader
      ⟨26, 0, [], [0, 0] ++ ([0, 22] ++ commandText "Activate")⟩ =
      some ⟨26, 0, [], [0, 0] ++ ([0, 22] ++ commandText "Activate")⟩ := rfl
  rw [hbytes, MessageReader.receive, MessageReader.socketReadyRead, hheader]
  simp only [hbody]
  rfl

def activatedPeer : WirePeer Text :=
  (WirePeer.connected "" []).send commandCoding [activateFrame]

def halfwayPeer : WirePeer Text :=
  { activatedPeer with
    clientReader := ⟨26, 0, [], [0, 0]⟩
    toClient := activatedPeer.toClient.drop 10 }

def activatedSignal : ProtocolSignal Text :=
  .server (.outgoingMessageToSouth
    ⟨0, 0, MessageFactory.createSimpleCommand "Activate", true, 0⟩)

def activates : List (WireEvent Text) :=
  [.connect 0 [] "" [], .serverOperation ⟨.activateConnection 0, Eq.refl true⟩]

theorem arriveAtClient_activateFrame {w : WireSystem Text}
    (hp : w.peers[((0 : Nat) : Int)]? = some activatedPeer) :
    ∃ w₁ w₂ : WireSystem Text,
      (WireSystem.machine commandCoding).step w (.arriveAtClient 0 10) = .ok (w₁, []) ∧
      (WireSystem.machine commandCoding).step w₁ (.arriveAtClient 0 24) =
        .ok (w₂, [.client 0 .isActivatedChanged]) := by
  have hstart : activatedPeer.clientReader.receive (activatedPeer.toClient.take 10) =
      (⟨26, 0, [], [0, 0]⟩, []) := receive_activateFrame_start
  have hend : halfwayPeer.clientReader.receive (halfwayPeer.toClient.take 24) =
        (⟨0, 0, commandText "Activate", []⟩, [(0, commandText "Activate")]) :=
    receive_activateFrame_end
  have hread : commandCoding.read (0, commandText "Activate") = activateFrame := by
    have hframe := commandCoding.frameOf_message fits_activateFrame
    exact hframe
  refine ⟨w.setPeer (0 : Nat) halfwayPeer, (WireSystem.processAtClient commandCoding
    ((w.setPeer (0 : Nat) halfwayPeer).setPeer (0 : Nat)
      { halfwayPeer with
        clientReader := ⟨0, 0, commandText "Activate", []⟩
        toClient := halfwayPeer.toClient.drop 24 }) (0 : Nat) [activateFrame]).1, ?_, ?_⟩
  · simp only [WireSystem.machine, WireSystem.step, WireSystem.arriveAtClient, hp, hstart,
      List.map_nil, WireSystem.processAtClient, halfwayPeer]
  · simp only [WireSystem.machine, WireSystem.step, WireSystem.arriveAtClient,
      WireSystem.setPeer, QMap.getElem?_insert, if_true, hend, List.map_cons, List.map_nil,
      hread, WireSystem.processAtClient]
    rfl

/-- The frame of an `Activate` command arrives in two parts. -/
theorem refines_system_activation :
    ∃ (history : WireSystem.History Text) (w : WireSystem Text),
      Execution (WireSystem.machine commandCoding) history w ∧
      history.map Step.out =
        [[.client 0 .isActivatedChanged], [], [activatedSignal], []] ∧
      ∃ (history' : System.History Text) (s : System Text),
        Execution (System.machine Text) history' s ∧ AtRest commandCoding w s ∧
          outputs history' = outputs history := by
  have hactivated : ∃ history w,
      (WireSystem.machine commandCoding).run activates = .ok (history, w) ∧
        w.peers[((0 : Nat) : Int)]? = some activatedPeer ∧
        history.map Step.out = [[activatedSignal], []] := ⟨_, _, rfl, rfl, rfl⟩
  obtain ⟨history, w, hrun, hp, hout⟩ := hactivated
  obtain ⟨w₁, w₂, hstart, hend⟩ := arriveAtClient_activateFrame hp
  have hexec := ((Machine.run_execution hrun).next hstart).next hend
  refine ⟨_, _, hexec, by simp only [List.map_cons, hout],
    WireSystem.refines_system hexec ?_⟩
  intro st hst signal hsignal
  rcases List.mem_cons.mp hst with rfl | hst
  · obtain rfl := List.mem_singleton.mp hsignal
    trivial
  rcases List.mem_cons.mp hst with rfl | hst
  · cases hsignal
  have hmem : signal ∈ (history.map Step.out).flatten :=
    List.mem_flatten.mpr ⟨st.out, List.mem_map_of_mem hst, hsignal⟩
  rw [hout] at hmem
  obtain rfl : signal = activatedSignal := by simpa using hmem
  exact fits_activateFrame

end Activation

end GBerry.Protocol
