import GBerry.Client.DownloadableGamesModel
import GBerry.Comms.QueryDownloadableApplicationsCommand
import GBerry.Foundation.Delivery
import GBerry.Foundation.Lifecycle

/-!
# The downloadable games between the applications and the server

Players sign in at the console, and an application asks for the games that can be
downloaded for the player that is active in it.  Every control channel that is
open has a `QueryDownloadableApplicationsCommand` on the server, known by its
number, and the `DownloadableGamesModel` of an application at its other end.  Each
control channel is that of a new application: a model is not kept when its
connection is lost and made again.
-/

namespace GBerry.Protocol

open GBerry.Client
open GBerry.Common
open GBerry.Comms
open GBerry.Foundation
open GBerry.Server (PlayerIdCounters PlayerSessionManager)

structure CataloguePeer where
  model : DownloadableGamesModel
  toServer : List JsonObject
  toClient : List JsonObject

structure Catalogue where
  server : QuerySystem
  playerSessions : PlayerSessionManager
  counters : PlayerIdCounters
  peers : QMap Nat CataloguePeer

inductive CatalogueEvent where
  | guestArrives (guestName sessionToken : String)
  | playerSignsIn (playerName sessionToken userToken : String)
  | playerLeaves (playerId : Int32)
  | openControlChannel
  | closeControlChannel (command : Nat)
  | activatePlayer (command : Nat) (playerId : Int)
  | requestGames (command : Nat)
  | deliverToServer (command : Nat)
  | deliverToClient (command : Nat)
  | executeRequest (request : Nat)
  | noConnection (request : Nat) (details : Json)
  | finishedOk (request : Nat) (headServerHost : String) (response : Option JsonObject)
      (details : Json)
  | finishedError (request : Nat) (details : Json)

inductive CatalogueSignal where
  | signedIn (playerId : Int32) (userToken : String)
  | server (signal : QuerySignal)
  /-- `onMessageReceived` of the model of an application. -/
  | received (command : Nat) (json : JsonObject)

namespace Catalogue

abbrev Result := Except QueryFault (Catalogue × List CatalogueSignal)

def start : Catalogue where
  server := .start
  playerSessions := .start
  counters := .start
  peers := ∅

def guestArrives (s : Catalogue) (guestName sessionToken : String) : Catalogue :=
  let (session, counters) := s.counters.guestPlayerSession guestName sessionToken
  { s with playerSessions := s.playerSessions.insertSession session, counters := counters }

def playerSignsIn (s : Catalogue) (playerName sessionToken userToken : String) :
    Catalogue × List CatalogueSignal :=
  let (session, counters) :=
    s.counters.signedInPlayerSession playerName sessionToken userToken
  ({ s with playerSessions := s.playerSessions.insertSession session, counters := counters },
    [.signedIn session.playerId userToken])

def openControlChannel (s : Catalogue) : Catalogue :=
  { s with
    server := s.server.createCommand
    peers := s.peers.insert s.server.nextCommand ⟨⟨∅, ⟨NO_ACTIVE_PLAYER⟩⟩, [], []⟩ }

def closeControlChannel (s : Catalogue) (command : Nat) : Result :=
  match s.server.destroyCommand command with
  | .error fault => .error fault
  | .ok server => .ok ({ s with server := server, peers := s.peers.erase command }, [])

def activatePlayer (s : Catalogue) (command : Nat) (playerId : Int) : Catalogue :=
  { s with
    peers := s.peers.modify command fun peer =>
      { peer with model := { peer.model with activePlayerModel := ⟨playerId⟩ } } }

def requestGames (s : Catalogue) (command : Nat) : Catalogue :=
  { s with
    peers := s.peers.modify command fun peer =>
      { peer with toServer := peer.toServer ++ [peer.model.requestGames.2] } }

/-- A message that no command of the control channel knows is dropped. -/
def deliverToServer (s : Catalogue) (command : Nat) : Catalogue × List CatalogueSignal :=
  match s.peers[command]? with
  | none | some ⟨_, [], _⟩ => (s, [])
  | some ⟨model, json :: toServer, toClient⟩ =>
      let s := { s with peers := s.peers.insert command ⟨model, toServer, toClient⟩ }
      if json.isCommand "QueryDownloadableApplications" then
        let (server, signals) := s.server.process s.playerSessions command json
        ({ s with server := server }, signals.map .server)
      else (s, [])

def deliverToClient (s : Catalogue) (command : Nat) : Catalogue × List CatalogueSignal :=
  match s.peers[command]? with
  | none | some ⟨_, _, []⟩ => (s, [])
  | some ⟨model, toServer, json :: toClient⟩ =>
      if json.isCommand "QueryDownloadableApplicationsReply" then
        ({ s with
            peers := s.peers.insert command
              ⟨(model.onMessageReceived json).1, toServer, toClient⟩ },
          [.received command json])
      else ({ s with peers := s.peers.insert command ⟨model, toServer, toClient⟩ }, [])

def send (peers : QMap Nat CataloguePeer) : List QuerySignal → QMap Nat CataloguePeer
  | [] => peers
  | .reply command json :: signals =>
      send (peers.modify command fun peer =>
        { peer with toClient := peer.toClient ++ [json] }) signals
  | _ :: signals => send peers signals

def work (s : Catalogue) (result : QuerySystem.Result) : Result :=
  match result with
  | .error fault => .error fault
  | .ok (server, signals) =>
      .ok ({ s with server := server, peers := send s.peers signals }, signals.map .server)

def step (s : Catalogue) : CatalogueEvent → Result
  | .guestArrives guestName sessionToken => .ok (s.guestArrives guestName sessionToken, [])
  | .playerSignsIn playerName sessionToken userToken =>
      .ok (s.playerSignsIn playerName sessionToken userToken)
  | .playerLeaves playerId =>
      .ok ({ s with playerSessions := s.playerSessions.removeSession playerId }, [])
  | .openControlChannel => .ok (s.openControlChannel, [])
  | .closeControlChannel command => s.closeControlChannel command
  | .activatePlayer command playerId => .ok (s.activatePlayer command playerId, [])
  | .requestGames command => .ok (s.requestGames command, [])
  | .deliverToServer command => .ok (s.deliverToServer command)
  | .deliverToClient command => .ok (s.deliverToClient command)
  | .executeRequest request => s.work (s.server.executeRequest request)
  | .noConnection request details => s.work (s.server.noConnection request details)
  | .finishedOk request headServerHost response details =>
      s.work (s.server.finishedOk request headServerHost response details)
  | .finishedError request details => s.work (s.server.finishedError request details)

def machine : Machine Catalogue CatalogueEvent CatalogueSignal QueryFault where
  init := start
  step := step

abbrev History := List (Step Catalogue CatalogueEvent CatalogueSignal)

/-- The counter of the players that sign in has not wrapped around. -/
def SignsInPositive (s : Catalogue) : CatalogueEvent → Prop
  | .playerSignsIn _ _ _ => 0 < s.counters.playerIdCounter
  | _ => True

section Past

def onServer (past : List CatalogueSignal) : List QuerySignal :=
  past.filterMap fun
    | .server signal => some signal
    | _ => none

def receivedBy (command : Nat) (past : List CatalogueSignal) : List JsonObject :=
  past.filterMap fun
    | .received other json => if other = command then some json else none
    | _ => none

/-- What is listed for the player, or else the free games. -/
def Permitted (past : List CatalogueSignal) (playerId : Int) (gameId : String) : Prop :=
  if 0 < playerId then
    ∃ userToken, .signedIn (Int32.ofInt playerId) userToken ∈ past ∧
      QuerySystem.Listed (onServer past) (.userToken userToken) gameId
  else QuerySystem.Listed (onServer past) .free gameId

end Past

end Catalogue

end GBerry.Protocol
