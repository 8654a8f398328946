import GBerry.Foundation.Execution
import GBerry.Server.ConsoleRESTServer

/-!
# `WebsocketServer`

The connections of the players.  The connection of a player is looked up by the id of
the player, which is all that the signals of a `WebsocketConnection` tell.
-/

namespace GBerry.Server

open GBerry.Common
open GBerry.Foundation

/-- A connection lets go of its socket when the socket disconnects. -/
structure WebsocketConnection where
  playerId : Int32
  socket : Bool
  deriving DecidableEq

inductive WebsocketSignal (β : Type) where
  | response (resp : PostResponse β)
  | newPlayerConnection (session : PlayerSession)
  | playerConnectionClosed (playerId : Int32)
  | playerMessageReceived (playerId : Int32) (message : String)
  /-- A socket is closed for which there is no connection. -/
  | refused
  /-- The connection is deleted, which closes its socket. -/
  | deleted (connection : Nat)
  | sendTextMessage (connection : Nat) (message : String)

inductive WebsocketEvent (β : Type) where
  | post (req : PostRequest β)
  /-- A socket connects, for a path and with a token. -/
  | newConnection (path token : String)
  | closePlayerConnection (playerId : Int32)
  | sendPlayerMessage (playerId : Int32) (message : String)
  /-- The socket of the connection disconnects. -/
  | disconnected (connection : Nat)
  | textMessageReceived (connection : Nat) (message : String)

/-- The connections that exist are named by the order in which they were made. -/
structure WebsocketServer where
  console : ConsoleRESTServer
  connectionByPlayerId : QMap Int32 Nat
  connections : QMap Nat WebsocketConnection
  connectionCount : Nat

namespace WebsocketServer

def start : WebsocketServer where
  console := .start
  connectionByPlayerId := ∅
  connections := ∅
  connectionCount := 0

def sessionFor (s : WebsocketServer) (path token : String) : Option PlayerSession :=
  let session := s.console.sessionManager.sessionByToken token
  if path = "/open" ∧ session.isValid then some session else none

variable {β : Type}

def onNewConnection (s : WebsocketServer) (path token : String) :
    WebsocketServer × List (WebsocketSignal β) :=
  match s.sessionFor path token with
  | none => (s, [.refused])
  | some session =>
      ({ s with
          connections := s.connections.insert s.connectionCount ⟨session.playerId, true⟩
          connectionByPlayerId :=
            s.connectionByPlayerId.insert session.playerId s.connectionCount
          connectionCount := s.connectionCount + 1 },
        [.newPlayerConnection session])

def closePlayerConnection (s : WebsocketServer) (playerId : Int32) :
    WebsocketServer × List (WebsocketSignal β) :=
  match s.connectionByPlayerId[playerId]? with
  | none => (s, [])
  | some conn =>
      ({ s with
          connectionByPlayerId := s.connectionByPlayerId.erase playerId
          connections := s.connections.erase conn
          console := s.console.removeSession playerId },
        [.deleted conn, .playerConnectionClosed playerId])

def onSocketDisconnected (s : WebsocketServer) (conn : Nat) :
    WebsocketServer × List (WebsocketSignal β) :=
  match s.connections[conn]? with
  | some ⟨playerId, true⟩ =>
      { s with connections := s.connections.insert conn ⟨playerId, false⟩
        }.closePlayerConnection playerId
  | _ => (s, [])

def onTextMessageReceived (s : WebsocketServer) (conn : Nat) (message : String) :
    List (WebsocketSignal β) :=
  match s.connections[conn]? with
  | some ⟨playerId, true⟩ => [.playerMessageReceived playerId message]
  | _ => []

def sendPlayerMessage (s : WebsocketServer) (playerId : Int32) (message : String) :
    List (WebsocketSignal β) :=
  match s.connectionByPlayerId[playerId]? with
  | none => []
  | some conn =>
      match s.connections[conn]? with
      | some ⟨_, true⟩ => [.sendTextMessage conn message]
      | _ => []

variable [QByteArray β]

def perform (s : WebsocketServer) :
    WebsocketEvent β → WebsocketServer × List (WebsocketSignal β)
  | .post req =>
      ({ s with console := (s.console.handlePostRequest req).1 },
        [.response (s.console.handlePostRequest req).2])
  | .newConnection path token => s.onNewConnection path token
  | .closePlayerConnection playerId => s.closePlayerConnection playerId
  | .sendPlayerMessage playerId message => (s, s.sendPlayerMessage playerId message)
  | .disconnected conn => s.onSocketDisconnected conn
  | .textMessageReceived conn message => (s, s.onTextMessageReceived conn message)

def machine (β : Type) [QByteArray β] :
    Machine WebsocketServer (WebsocketEvent β) (WebsocketSignal β) Empty where
  init := start
  step s event := .ok (s.perform event)

abbrev History (β : Type) :=
  List (Step WebsocketServer (WebsocketEvent β) (WebsocketSignal β))

def Quiet : WebsocketSignal β → Prop
  | .newPlayerConnection _ => False
  | .playerConnectionClosed _ => False
  | _ => True

def NotAccepted (s : WebsocketServer) (event : WebsocketEvent β) : Prop :=
  ∀ path token, event = .newConnection path token → s.sessionFor path token = none

inductive Effect (s : WebsocketServer) :
    WebsocketEvent β → QMap Int32 Nat → List (WebsocketSignal β) → Prop
  | joined {path token : String} {session : PlayerSession} :
      s.sessionFor path token = some session →
      Effect s (.newConnection path token)
        (s.connectionByPlayerId.insert session.playerId s.connectionCount)
        [.newPlayerConnection session]
  | left {event : WebsocketEvent β} {playerId : Int32} {conn : Nat} :
      s.NotAccepted event → s.connectionByPlayerId[playerId]? = some conn →
      Effect s event (s.connectionByPlayerId.erase playerId)
        [.deleted conn, .playerConnectionClosed playerId]
  | quiet {event : WebsocketEvent β} {out : List (WebsocketSignal β)} :
      s.NotAccepted event → (∀ signal ∈ out, Quiet signal) →
      Effect s event s.connectionByPlayerId out

omit [QByteArray β] in
theorem closePlayerConnection_effect {s t : WebsocketServer} {event : WebsocketEvent β}
    (hevent : s.NotAccepted event) (ht : t.connectionByPlayerId = s.connectionByPlayerId)
    (playerId : Int32) :
    Effect s event (t.closePlayerConnection (β := β) playerId).1.connectionByPlayerId
      (t.closePlayerConnection playerId).2 := by
  unfold closePlayerConnection
  rw [ht]
  split
  · exact ht ▸ .quiet hevent nofun
  · rename_i conn hconn
    exact .left hevent hconn

theorem perform_effect (s : WebsocketServer) (event : WebsocketEvent β) :
    Effect s event (s.perform event).1.connectionByPlayerId (s.perform event).2 := by
  cases event with
  | post req =>
      refine .quiet nofun ?_
      intro signal hsignal
      rw [List.mem_singleton.mp hsignal]
      trivial
  | newConnection path token =>
      simp only [perform, onNewConnection]
      split
      · rename_i hrefused
        refine .quiet ?_ ?_
        · rintro _ _ ⟨⟩
          exact hrefused
        · intro signal hsignal
          rw [List.mem_singleton.mp hsignal]
          trivial
      · rename_i session hsession
        exact .joined hsession
  | closePlayerConnection playerId => exact closePlayerConnection_effect (by nofun) rfl playerId
  | sendPlayerMessage playerId message =>
      refine .quiet nofun ?_
      intro signal hsignal
      simp only [perform, sendPlayerMessage] at hsignal
      split at hsignal
      · cases hsignal
      split at hsignal
      · rw [List.mem_singleton.mp hsignal]
        trivial
      · cases hsignal
  | disconnected conn =>
      simp only [perform, onSocketDisconnected]
      split
      · exact closePlayerConnection_effect (by nofun) (by rfl) _
      · exact .quiet nofun nofun
  | textMessageReceived conn message =>
      refine .quiet nofun ?_
      intro signal hsignal
      simp only [perform, onTextMessageReceived] at hsignal
      split at hsignal
      · rw [List.mem_singleton.mp hsignal]
        trivial
      · cases hsignal

end WebsocketServer

end GBerry.Server
