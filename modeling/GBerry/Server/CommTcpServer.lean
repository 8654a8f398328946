import GBerry.Common.QMap
import GBerry.Foundation.Lifecycle
import GBerry.Server.ChannelManager

/-!
# `CommTcpServer`

The server forgets a connection when it is closed, by its owner or by the
socket, but the `TcpConnection` and its reader live until the socket
disconnects.  An owner that closes a connection leaves the socket open, so data
that arrives later is still forwarded.
-/

namespace GBerry.Server

open GBerry.Common
open GBerry.Foundation

/-- A `TcpConnection` whose reader has not been deleted. -/
structure TcpConnection where
  id : Int

inductive TcpSignal (β : Type) where
  | connected (connectionId : Int)
  | disconnected (connectionId : Int)
  | received (connectionId channelId : Int) (msg : β)

/-- `sockets` are the `TcpConnection` objects that can still emit. -/
structure CommTcpServer where
  connectionIdCount : Int
  connections : QMap Int TcpConnection
  sockets : QMap Int TcpConnection

inductive TcpEvent (β : Type) where
  | newConnection
  | readerReceived (connectionId channelId : Int) (data : β)
  | closeConnection (connectionId : Int)
  | socketDisconnect (connectionId : Int)

namespace CommTcpServer

variable {β : Type}

def start : CommTcpServer where
  connectionIdCount := 0
  connections := ∅
  sockets := ∅

def register (s : CommTcpServer) (connectionId : Int) : CommTcpServer :=
  let connection : TcpConnection := { id := connectionId }
  { s with
    connections := s.connections.insert connectionId connection
    sockets := s.sockets.insert connectionId connection }

def newConnection (s : CommTcpServer) :
    Except Fault (CommTcpServer × List (TcpSignal β)) :=
  if s.connectionIdCount = 2 ^ 31 - 1 then .error .intOverflow
  else
    let id := s.connectionIdCount
    .ok ({ s with connectionIdCount := id + 1 }.register id, [.connected id])

def closeConnection (s : CommTcpServer) (connectionId : Int) :
    CommTcpServer × List (TcpSignal β) :=
  if s.connections.contains connectionId then
    ({ s with connections := s.connections.erase connectionId },
      [.disconnected connectionId])
  else (s, [])

def readerReceived (s : CommTcpServer) (connectionId channelId : Int) (data : β) :
    List (TcpSignal β) :=
  match s.sockets[connectionId]? with
  | some connection => [.received connection.id channelId data]
  | none => []

/-- `connectionClosed` reaches the server before the reader is deleted. -/
def socketDisconnect (s : CommTcpServer) (connectionId : Int) :
    CommTcpServer × List (TcpSignal β) :=
  match s.sockets[connectionId]? with
  | some connection =>
      let closed := s.closeConnection connection.id
      ({ closed.1 with sockets := closed.1.sockets.erase connectionId }, closed.2)
  | none => (s, [])

def step (s : CommTcpServer) :
    TcpEvent β → Except Fault (CommTcpServer × List (TcpSignal β))
  | .newConnection => s.newConnection
  | .readerReceived connectionId channelId data =>
      .ok (s, s.readerReceived connectionId channelId data)
  | .closeConnection connectionId => .ok (s.closeConnection connectionId)
  | .socketDisconnect connectionId => .ok (s.socketDisconnect connectionId)

def machine (β : Type) :
    Machine CommTcpServer (TcpEvent β) (TcpSignal β) Fault where
  init := start
  step := step

end CommTcpServer

def TcpSignal.event {β : Type} (connectionId : Int) :
    TcpSignal β → Option (SessionEvent (Int × β))
  | .connected id => if id = connectionId then some .connected else none
  | .disconnected id => if id = connectionId then some .disconnected else none
  | .received id channelId msg =>
      if id = connectionId then some (.received (channelId, msg)) else none

namespace CommTcpServer

variable {β : Type} {s s' : CommTcpServer} {l : TcpEvent β} {out : List (TcpSignal β)}
  {history : List (Step CommTcpServer (TcpEvent β) (TcpSignal β))}

def session (id : Int)
    (history : List (Step CommTcpServer (TcpEvent β) (TcpSignal β))) :
    List (SessionEvent (Int × β)) :=
  (outputs history).filterMap (TcpSignal.event id)

/-- Every id that was given out had one session, and no other id had any. -/
structure Orderly (history : List (Step CommTcpServer (TcpEvent β) (TcpSignal β)))
    (s : CommTcpServer) : Prop where
  wellFormed : ∀ id, SessionEvent.WellFormed (session id history)
  started_iff : ∀ id, session id history ≠ [] ↔ 0 ≤ id ∧ id < s.connectionIdCount

/-- A frame arrives on the socket of a connection that the server has closed. -/
def ReceivesClosed (s : CommTcpServer) : TcpEvent β → Prop
  | .readerReceived id _ _ => id ∈ s.sockets ∧ id ∉ s.connections
  | _ => False

structure Tracks (history : List (Step CommTcpServer (TcpEvent β) (TcpSignal β)))
    (s : CommTcpServer) : Prop where
  count_nonneg : 0 ≤ s.connectionIdCount
  socket_id : ∀ (id : Int) (c : TcpConnection), s.sockets[id]? = some c → c.id = id
  connection_socket : ∀ id ∈ s.connections, id ∈ s.sockets
  socket_started : ∀ id ∈ s.sockets, 0 ≤ id ∧ id < s.connectionIdCount
  started_iff : ∀ id, session id history ≠ [] ↔ 0 ≤ id ∧ id < s.connectionIdCount
  ended_iff : ∀ id, 0 ≤ id → id < s.connectionIdCount →
    (SessionEvent.Ended (session id history) ↔ id ∉ s.connections)

theorem session_cons (id : Int)
    (st : Step CommTcpServer (TcpEvent β) (TcpSignal β)) :
    session id (st :: history) =
      session id history ++ st.out.filterMap (TcpSignal.event id) :=
  List.filterMap_append

theorem session_quiet {id : Int} (hquiet : out.filterMap (TcpSignal.event id) = []) :
    session id (⟨s, l, out, s'⟩ :: history) = session id history := by
  rw [session_cons, hquiet, List.append_nil]

theorem tracks_start : Tracks ([] : List (Step CommTcpServer (TcpEvent β)
    (TcpSignal β))) start := by
  constructor
  · exact Int.le_refl 0
  · simp [start]
  · simp [start]
  · simp [start]
  · intro id
    simp only [session, outputs, start, List.filterMap_nil, ne_eq,
      not_true_eq_false, false_iff]
    omega
  · intro id hlow hhigh
    simp only [start] at hhigh
    omega

theorem Tracks.newConnection (h : Tracks history s) :
    let id := s.connectionIdCount
    let s' : CommTcpServer :=
      { connectionIdCount := id + 1
        connections := s.connections.insert id ⟨id⟩
        sockets := s.sockets.insert id ⟨id⟩ }
    Tracks (⟨s, .newConnection, [.connected id], s'⟩ :: history) s' := by
  intro id s'
  have hnonneg := h.count_nonneg
  have hother (id' : Int) (hne : id ≠ id') :
      session id' (⟨s, .newConnection, [TcpSignal.connected (β := β) id], s'⟩ ::
        history) = session id' history :=
    session_quiet (by simp [TcpSignal.event, hne])
  have hnew : session id (⟨s, .newConnection, [TcpSignal.connected (β := β) id], s'⟩ ::
      history) = session id history ++ [.connected] := by
    rw [session_cons]
    simp [TcpSignal.event]
  have hfresh : session id history = [] := by
    by_contra hstarted
    have hrange := (h.started_iff id).mp hstarted
    omega
  constructor
  · simp only [s']
    omega
  · intro id' c hc
    simp only [s', QMap.getElem?_insert] at hc
    split at hc
    · rename_i heq
      cases hc
      exact heq.symm
    · exact h.socket_id id' c hc
  · intro id' hid'
    rcases (QMap.mem_insert_iff _ _ _ _).mp hid' with rfl | hold
    · exact (QMap.mem_insert_iff _ _ _ _).mpr (.inl rfl)
    · exact (QMap.mem_insert_iff _ _ _ _).mpr (.inr (h.connection_socket id' hold))
  · intro id' hid'
    simp only [s']
    rcases (QMap.mem_insert_iff _ _ _ _).mp hid' with rfl | hold
    · omega
    · have hrange := h.socket_started id' hold
      omega
  · intro id'
    simp only [s']
    by_cases heq : id = id'
    · subst heq
      rw [hnew]
      simp only [ne_eq, List.append_eq_nil_iff, reduceCtorEq, and_false,
        not_false_eq_true, true_iff]
      omega
    · rw [hother id' heq, h.started_iff id']
      omega
  · intro id' hlow hhigh
    simp only [s'] at hhigh ⊢
    by_cases heq : id = id'
    · subst heq
      rw [hnew, hfresh]
      simp [SessionEvent.Ended]
    · rw [hother id' heq, h.ended_iff id' hlow (by omega), QMap.mem_insert_iff]
      simp [Ne.symm heq]

theorem Tracks.closeConnection (h : Tracks history s) {id : Int}
    (hid : id ∈ s.connections) :
    Tracks (⟨s, l, [.disconnected id], { s with connections := s.connections.erase id }⟩
      :: history) { s with connections := s.connections.erase id } := by
  have hsession (id' : Int) : session id' (⟨s, l, [TcpSignal.disconnected (β := β) id],
      { s with connections := s.connections.erase id }⟩ :: history) =
      session id' history ++ if id = id' then [.disconnected] else [] := by
    rw [session_cons]
    by_cases heq : id = id' <;> simp [TcpSignal.event, heq]
  constructor
  · exact h.count_nonneg
  · exact h.socket_id
  · intro id' hid'
    exact h.connection_socket id' ((QMap.mem_erase_iff _ _ _).mp hid').2
  · exact h.socket_started
  · intro id'
    rw [hsession, ← h.started_iff id']
    by_cases heq : id = id'
    · subst heq
      have hrange := h.socket_started id (h.connection_socket id hid)
      simp [(h.started_iff id).mpr hrange]
    · simp [heq]
  · intro id' hlow hhigh
    rw [hsession]
    by_cases heq : id = id'
    · subst heq
      simp [SessionEvent.Ended]
    · have hended := h.ended_iff id' hlow hhigh
      simpa [heq, Ne.symm heq] using hended

theorem Tracks.deleteReader (h : Tracks history s) {id : Int}
    (hid : id ∉ s.connections) :
    Tracks history { s with sockets := s.sockets.erase id } := by
  constructor
  · exact h.count_nonneg
  · intro id' c hc
    simp only [QMap.getElem?_erase] at hc
    split at hc
    · cases hc
    · exact h.socket_id id' c hc
  · intro id' hid'
    refine (QMap.mem_erase_iff _ _ _).mpr ⟨?_, h.connection_socket id' hid'⟩
    rintro rfl
    exact hid hid'
  · intro id' hid'
    exact h.socket_started id' ((QMap.mem_erase_iff _ _ _).mp hid').2
  · exact h.started_iff
  · exact h.ended_iff

theorem Tracks.congr {history' : List (Step CommTcpServer (TcpEvent β) (TcpSignal β))}
    (h : Tracks history s)
    (hsession : ∀ id, session id history' = session id history) :
    Tracks history' s := by
  constructor
  · exact h.count_nonneg
  · exact h.socket_id
  · exact h.connection_socket
  · exact h.socket_started
  · intro id
    rw [hsession]
    exact h.started_iff id
  · intro id
    rw [hsession]
    exact h.ended_iff id

theorem Tracks.quiet (h : Tracks history s) :
    Tracks (⟨s, l, [], s'⟩ :: history) s :=
  h.congr fun _ => session_quiet rfl

theorem session_received (id id' channelId : Int) (data : β) :
    session id' (⟨s, l, [.received id channelId data], s'⟩ :: history) =
      session id' history ++ if id = id' then [.received (channelId, data)] else [] := by
  rw [session_cons]
  by_cases heq : id = id' <;> simp [TcpSignal.event, heq]

theorem Tracks.received (h : Tracks history s) {id : Int} (hid : id ∈ s.sockets)
    (channelId : Int) (data : β) :
    Tracks (⟨s, l, [.received id channelId data], s'⟩ :: history) s := by
  constructor
  · exact h.count_nonneg
  · exact h.socket_id
  · exact h.connection_socket
  · exact h.socket_started
  · intro id'
    rw [session_received, ← h.started_iff id']
    by_cases heq : id = id'
    · subst heq
      have hstarted := (h.started_iff id).mpr (h.socket_started id hid)
      simp [hstarted]
    · simp [heq]
  · intro id' hlow hhigh
    rw [session_received, ← h.ended_iff id' hlow hhigh]
    by_cases heq : id = id' <;> simp [SessionEvent.Ended, heq]

inductive Effect (s : CommTcpServer) :
    TcpEvent β → CommTcpServer → List (TcpSignal β) → Prop
  | ignored {l : TcpEvent β} : ¬ s.ReceivesClosed l → Effect s l s []
  | accepted :
      Effect s .newConnection
        { connectionIdCount := s.connectionIdCount + 1
          connections := s.connections.insert s.connectionIdCount ⟨s.connectionIdCount⟩
          sockets := s.sockets.insert s.connectionIdCount ⟨s.connectionIdCount⟩ }
        [.connected s.connectionIdCount]
  | received {id : Int} (channelId : Int) (data : β) : id ∈ s.sockets →
      Effect s (.readerReceived id channelId data) s [.received id channelId data]
  | closed {id : Int} : id ∈ s.connections →
      Effect s (.closeConnection id)
        { s with connections := s.connections.erase id } [.disconnected id]
  | disconnected {id : Int} : id ∈ s.connections →
      Effect s (.socketDisconnect id)
        { s with
          connections := s.connections.erase id
          sockets := s.sockets.erase id }
        [.disconnected id]
  | deleted {id : Int} : id ∈ s.sockets → id ∉ s.connections →
      Effect s (.socketDisconnect id) { s with sockets := s.sockets.erase id } []

theorem Tracks.effect (h : Tracks history s) (hstep : s.step l = .ok (s', out)) :
    Effect s l s' out := by
  cases l with
  | newConnection =>
      simp only [step, CommTcpServer.newConnection] at hstep
      split at hstep
      · cases hstep
      · cases hstep
        exact .accepted
  | readerReceived id channelId data =>
      simp only [step, readerReceived, Except.ok.injEq, Prod.mk.injEq] at hstep
      obtain ⟨rfl, rfl⟩ := hstep
      cases hc : s.sockets[id]? with
      | none =>
          have hid := (QMap.notMem_iff _ _).mpr hc
          exact .ignored fun hreceives => hid hreceives.1
      | some c =>
          simp only [h.socket_id id c hc]
          exact .received channelId data (QMap.mem_of_getElem? hc)
  | closeConnection id =>
      simp only [step, CommTcpServer.closeConnection, Except.ok.injEq] at hstep
      split at hstep
      · rename_i hid
        cases hstep
        exact .closed (Std.ExtTreeMap.contains_iff_mem.mp hid)
      · cases hstep
        exact .ignored fun hreceives => hreceives
  | socketDisconnect id =>
      simp only [step, socketDisconnect, Except.ok.injEq] at hstep
      cases hc : s.sockets[id]? with
      | none =>
          simp only [hc] at hstep
          cases hstep
          exact .ignored fun hreceives => hreceives
      | some c =>
          have hid := QMap.mem_of_getElem? hc
          simp only [hc, h.socket_id id c hc, CommTcpServer.closeConnection] at hstep
          split at hstep
          · rename_i hconnection
            cases hstep
            exact .disconnected (Std.ExtTreeMap.contains_iff_mem.mp hconnection)
          · rename_i hconnection
            cases hstep
            exact .deleted hid
              (fun hmem => hconnection (Std.ExtTreeMap.contains_iff_mem.mpr hmem))

theorem Effect.tracks (h : Tracks history s) (heffect : Effect s l s' out) :
    Tracks (⟨s, l, out, s'⟩ :: history) s' := by
  cases heffect with
  | ignored _ => exact h.quiet
  | accepted => exact h.newConnection
  | received channelId data hid => exact h.received hid channelId data
  | closed hid => exact h.closeConnection hid
  | @disconnected id hid =>
      have hclosed := h.closeConnection (l := .socketDisconnect id) hid
      have hgone : id ∉ s.connections.erase id := by simp
      exact (hclosed.deleteReader hgone).congr fun _ => rfl
  | deleted _ hconnection => exact (h.quiet).deleteReader hconnection

theorem tracks_of_execution (h : Execution (machine β) history s) :
    Tracks history s :=
  h.invariant tracks_start fun _ htracks hstep =>
    (htracks.effect hstep).tracks htracks

theorem Orderly.step_iff (hP : Orderly history s) (h : Tracks history s)
    (heffect : Effect s l s' out) :
    Orderly (⟨s, l, out, s'⟩ :: history) s' ↔ ¬ s.ReceivesClosed l := by
  have hstarted := (heffect.tracks h).started_iff
  have hsame (hwell : ∀ id, SessionEvent.WellFormed
      (session id (⟨s, l, out, s'⟩ :: history))) :
      Orderly (⟨s, l, out, s'⟩ :: history) s' := ⟨hwell, hstarted⟩
  have hclose (id : Int) (hid : id ∈ s.connections) (hout : out = [.disconnected id]) :
      Orderly (⟨s, l, out, s'⟩ :: history) s' := by
    apply hsame
    intro id'
    rw [session_cons, hout]
    by_cases heq : id = id'
    · subst heq
      have hrange := h.socket_started id (h.connection_socket id hid)
      have hopen : ¬ SessionEvent.Ended (session id history) := fun hended =>
        (h.ended_iff id hrange.1 hrange.2).mp hended hid
      simpa [TcpSignal.event] using (hP.wellFormed id).disconnect
        ((h.started_iff id).mpr hrange) hopen
    · simpa [TcpSignal.event, heq] using hP.wellFormed id'
  cases heffect with
  | ignored hreceives =>
      refine iff_of_true (hsame ?_) hreceives
      intro id
      rw [session_quiet rfl]
      exact hP.wellFormed id
  | accepted =>
      refine iff_of_true (hsame ?_) id
      intro id
      rw [session_cons]
      by_cases heq : s.connectionIdCount = id
      · have hfresh : session id history = [] := by
          by_contra hold
          have hrange := (h.started_iff id).mp hold
          omega
        rw [hfresh]
        simpa [TcpSignal.event, heq] using SessionEvent.wellFormed_connected
      · simpa [TcpSignal.event, heq] using hP.wellFormed id
  | @received id channelId data hid =>
      have hrange := h.socket_started id hid
      have hiff := (hP.wellFormed id).received_iff ((h.started_iff id).mpr hrange)
        (channelId, data)
      rw [h.ended_iff id hrange.1 hrange.2, not_not] at hiff
      constructor
      · intro hP' hreceives
        have hwell := hP'.wellFormed id
        rw [session_received, if_pos rfl] at hwell
        exact hreceives.2 (hiff.mp hwell)
      · intro hreceives
        apply hsame
        intro id'
        rw [session_received]
        by_cases heq : id = id'
        · subst heq
          rw [if_pos rfl]
          apply hiff.mpr
          by_contra hconnection
          exact hreceives ⟨hid, hconnection⟩
        · rw [if_neg heq, List.append_nil]
          exact hP.wellFormed id'
  | closed hid => exact iff_of_true (hclose _ hid rfl) id
  | disconnected hid => exact iff_of_true (hclose _ hid rfl) id
  | deleted _ _ =>
      refine iff_of_true (hsame ?_) id
      intro id
      rw [session_quiet rfl]
      exact hP.wellFormed id

theorem orderly_iff (h : Execution (machine β) history s) :
    Execution.Always (machine β) Orderly history ↔
      ∀ st ∈ history, ¬ st.pre.ReceivesClosed st.label := by
  refine h.always_iff (C := fun st => ¬ st.pre.ReceivesClosed st.label) ?_ ?_
  · constructor
    · intro id
      exact SessionEvent.wellFormed_nil
    · exact tracks_start.started_iff
  · intro history s s' l out hexec hP hstep
    have htracks := tracks_of_execution hexec
    exact hP.step_iff htracks (htracks.effect hstep)

def receivesAfterClosing : List (TcpEvent String) :=
  [.newConnection, .closeConnection 0, .readerReceived 0 0 "late"]

theorem receivesAfterClosing_disorderly :
    ∃ history s, (machine String).run receivesAfterClosing = .ok (history, s) ∧
      ¬ Orderly history s := by
  refine ⟨_, _, rfl, ?_⟩
  intro hP
  have hwell := hP.wellFormed 0
  exact SessionEvent.not_wellFormed_received [] (0, "late") hwell

theorem orderly_iff_receivesAfterClosing :
    ∃ history s, (machine String).run receivesAfterClosing = .ok (history, s) ∧
      (Execution.Always (machine String) Orderly history ↔
        ∀ st ∈ history, ¬ st.pre.ReceivesClosed st.label) :=
  ⟨_, _, rfl, orderly_iff (Machine.run_execution
    (show (machine String).run receivesAfterClosing = .ok (_, _) from rfl))⟩

end CommTcpServer

end GBerry.Server
