import GBerry.Mobile.ConsoleSessionManager
import GBerry.Server.ConsoleRESTServer.Sessions
import GBerry.Server.WebsocketServer

/-!
# Opening sessions on the console

The phones post their requests to the console, and open websockets with the tokens
they are given.  Requests and responses travel independently.  A phone that asks once
more does not hear of its earlier requests, which may reach the console all the same.
-/

namespace GBerry.Protocol

open GBerry.Common
open GBerry.Foundation
open GBerry.Mobile
open GBerry.Server

/-- An invocation of a phone, which may not be waiting any more. -/
structure Call (β : Type) where
  phone : Nat
  loginMeta : UserLoginMeta
  waiting : Bool
  response : Option (PostResponse β)

/-- `ends` is the phone at the other end of each connection of the console. -/
structure ConsoleSessions (β : Type) where
  server : WebsocketServer
  phones : Nat → ConsoleSessionManager
  calls : QMap Nat (Call β)
  nextCall : Nat
  ends : QMap Nat Nat

inductive ConsoleSessionsEvent (β : Type) where
  | openSession (phone : Nat) (loginMeta : UserLoginMeta)
  | closeSession (phone : Nat)
  | requestArrives (call : Nat)
  /-- `formatted` is the message for the user when there is no response. -/
  | responseArrives (call : Nat) (formatted : String)
  | invocationFails (call : Nat) (formatted : String)
  | socketArrives (phone : Nat)
  | socketConnected (phone : Nat)
  | traffic (event : WebsocketEvent β)

inductive ConsoleSessionsSignal (β : Type) where
  | server (signal : WebsocketSignal β)
  | phone (phone : Nat) (signal : ConsoleSessionSignal)

namespace ConsoleSessions

variable {β : Type}

def isTraffic : WebsocketEvent β → Bool
  | .post _ | .newConnection _ _ => false
  | _ => true

def start : ConsoleSessions β where
  server := .start
  phones _ := .start
  calls := ∅
  nextCall := 0
  ends := ∅

abbrev Result (β : Type) := ConsoleSessions β × List (ConsoleSessionsSignal β)

/-- The new invocation factory of the phone takes the replies of the old one with it. -/
def openSession (s : ConsoleSessions β) (phone : Nat) (loginMeta : UserLoginMeta) :
    ConsoleSessions β :=
  let calls := s.calls.map fun _ call =>
    if call.phone = phone then { call with waiting := false } else call
  { s with
    calls := calls.insert s.nextCall ⟨phone, loginMeta, true, none⟩
    nextCall := s.nextCall + 1 }

def setPhone (s : ConsoleSessions β) (phone : Nat) (m : ConsoleSessionManager) :
    ConsoleSessions β :=
  { s with phones := Function.update s.phones phone m }

def closeSession (s : ConsoleSessions β) (phone : Nat) : ConsoleSessions β :=
  s.setPhone phone (s.phones phone).close

/-- The console sees the socket before the phone is told that it is connected. -/
def socketArrives (s : ConsoleSessions β) (phone : Nat) : Result β :=
  match (s.phones phone).websocket.socket with
  | .connecting token =>
      let (server, signals) := s.server.onNewConnection (β := β) "/open" token
      let ends :=
        if s.server.connectionCount < server.connectionCount then
          s.ends.insert s.server.connectionCount phone
        else s.ends
      ({ s.setPhone phone ((s.phones phone).setSocket .accepted) with
          server := server
          ends := ends },
        signals.map .server)
  | _ => (s, [])

def socketConnected (s : ConsoleSessions β) (phone : Nat) : Result β :=
  match (s.phones phone).websocket.socket with
  | .accepted =>
      let (m, signals) := (s.phones phone).onWebsocketConnected
      (s.setPhone phone m, signals.map (.phone phone))
  | _ => (s, [])

variable [QByteArray β]

def requestArrives (s : ConsoleSessions β) (call : Nat) : Result β :=
  match s.calls[call]? with
  | some ⟨phone, loginMeta, waiting, none⟩ =>
      let (console, response) := s.server.console.handlePostRequest
        (ConsoleSessionManager.openRequest β loginMeta)
      ({ s with
          server := { s.server with console := console }
          calls := s.calls.insert call ⟨phone, loginMeta, waiting, some response⟩ },
        [.server (.response response)])
  | _ => (s, [])

def document : ResponseBody β → JsonObject
  | .message _ => []
  | .json fields => fields
  | .echo body => (QByteArray.fromJson body).getD []

def responseString : ResponseBody β → String
  | .message msg => msg
  | .json fields => QByteArray.toQString (QByteArray.toJson fields : β)
  | .echo body => QByteArray.toQString body

/-- The network takes a status from 400 on for an error. -/
def responseArrives (s : ConsoleSessions β) (call : Nat) (formatted : String) : Result β :=
  match s.calls[call]? with
  | some ⟨phone, _, true, some response⟩ =>
      let s := { s with calls := s.calls.erase call }
      if response.status < 400 then
        let (m, signals) := (s.phones phone).onOpenConsoleSessionFinished response.status
          (document response.body)
        (s.setPhone phone m, signals.map (.phone phone))
      else
        (s, (ConsoleSessionManager.onOpenConsoleSessionError (responseString response.body)
          formatted).map (.phone phone))
  | _ => (s, [])

omit [QByteArray β] in
/-- The request may arrive at the console all the same. -/
def invocationFails (s : ConsoleSessions β) (call : Nat) (formatted : String) : Result β :=
  match s.calls[call]? with
  | some ⟨phone, loginMeta, true, response⟩ =>
      ({ s with calls := s.calls.insert call ⟨phone, loginMeta, false, response⟩ },
        (ConsoleSessionManager.onOpenConsoleSessionError "" formatted).map (.phone phone))
  | _ => (s, [])

def traffic (s : ConsoleSessions β) (event : WebsocketEvent β) : Result β :=
  if isTraffic event then
    let (server, signals) := s.server.perform event
    ({ s with server := server }, signals.map .server)
  else (s, [])

def perform (s : ConsoleSessions β) : ConsoleSessionsEvent β → Result β
  | .openSession phone loginMeta => (s.openSession phone loginMeta, [])
  | .closeSession phone => (s.closeSession phone, [])
  | .requestArrives call => s.requestArrives call
  | .responseArrives call formatted => s.responseArrives call formatted
  | .invocationFails call formatted => s.invocationFails call formatted
  | .socketArrives phone => s.socketArrives phone
  | .socketConnected phone => s.socketConnected phone
  | .traffic event => s.traffic event

def machine (β : Type) [QByteArray β] :
    Machine (ConsoleSessions β) (ConsoleSessionsEvent β) (ConsoleSessionsSignal β) Empty where
  init := start
  step s event := .ok (s.perform event)

abbrev History (β : Type) :=
  List (Step (ConsoleSessions β) (ConsoleSessionsEvent β) (ConsoleSessionsSignal β))

omit [QByteArray β] in
def Asked (history : History β) (phone : Nat) (session : PlayerSession) : Prop :=
  ∃ st ∈ history, ∃ loginMeta, st.label = .openSession phone loginMeta ∧
    session.playerName = loginMeta.userName ∧
    session.userToken =
      if loginMeta.isGuest ∨ loginMeta.userToken = "guest" then "" else loginMeta.userToken

omit [QByteArray β] in
/-- The session was announced when the connection was made, for a socket of the phone. -/
def Announced (history : History β) (conn phone : Nat) (session : PlayerSession) : Prop :=
  ∃ st ∈ history, st.label = .socketArrives phone ∧ st.pre.server.connectionCount = conn ∧
    .server (.newPlayerConnection session) ∈ st.out

omit [QByteArray β] in
def requests (history : History β) : Nat :=
  history.countP fun st =>
    match st.label with
    | .requestArrives _ => true
    | _ => false

omit [QByteArray β] in
/-- The console takes no phone for another one. -/
structure Identified (history : History β) (s : ConsoleSessions β) : Prop where
  joined : ∀ st ∈ history, ∀ session, .server (.newPlayerConnection session) ∈ st.out →
    ∃ phone, st.label = .socketArrives phone ∧ Asked history phone session
  connected : ∀ (playerId : Int32) (conn : Nat),
    s.server.connectionByPlayerId[playerId]? = some conn →
    ∃ phone session, s.ends[conn]? = some phone ∧ session.playerId = playerId ∧
      Announced history conn phone session ∧ Asked history phone session
  heard : ∀ (conn : Nat) (connection : WebsocketConnection),
    s.server.connections[conn]? = some connection →
    ∃ phone session, s.ends[conn]? = some phone ∧ session.playerId = connection.playerId ∧
      Announced history conn phone session ∧ Asked history phone session

end ConsoleSessions

end GBerry.Protocol
