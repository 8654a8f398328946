import GBerry.Comms.Storage.ApplicationConfigReaderWriter
import GBerry.Foundation.Fallible
import GBerry.Server.PlayerSession

/-!
# `QueryDownloadableApplicationsCommand` and its requests

The commands of the control channels that have been open, the requests for the
downloadable applications that they made, and the cache of the applications that
the head server has listed.  The head server connection executes the requests of
its queue, or finishes them when a ping fails, at any time and in any order.

A step fails where the source uses a request or a command that was deleted.
-/

namespace GBerry.Comms

open GBerry.Common
open GBerry.Foundation
open GBerry.Server (PlayerSessionManager)

inductive QueryFault where
  | deletedRequest
  | deletedCommand
  deriving DecidableEq

inductive ListParameter where
  | free
  | userToken (userToken : String)
  deriving DecidableEq

structure DownloadableApplicationsRequest where
  command : Nat
  playerId : Int
  userToken : String
  active : Bool
  deriving DecidableEq

namespace DownloadableApplicationsRequest

def new (command : Nat) : DownloadableApplicationsRequest := ⟨command, -1, "", true⟩

def setUserToken (req : DownloadableApplicationsRequest) (playerId : Int) (userToken : String) :
    DownloadableApplicationsRequest :=
  { req with playerId := playerId, userToken := userToken }

def playerDefined (req : DownloadableApplicationsRequest) : Bool := req.playerId ≠ -1

def parameter (req : DownloadableApplicationsRequest) : ListParameter :=
  if req.userToken = "" then .free else .userToken req.userToken

def application (headServerHost : String) (jv : Json) : Storage.Application :=
  let j := jv.toObject
  { appMeta :=
      { applicationId := (j.value "id").toString
        name := (j.value "name").toString
        version := (j.value "version").toString
        description := (j.value "description").toString
        applicationDirPath := ""
        applicationExecutablePath := ""
        catalogImageFilePath := "http://" ++ headServerHost ++ (j.value "image_url").toString
        isSystemApp := false
        isFree := (j.value "is_free").toBool }
    state := .Valid }

def receivedApplications (headServerHost : String) (json : JsonObject) :
    List Storage.Application :=
  match json.value "applications" with
  | .array arr => arr.map (application headServerHost)
  | _ => []

end DownloadableApplicationsRequest

open DownloadableApplicationsRequest (receivedApplications)

namespace Storage

def ApplicationState.stateString : ApplicationState → String
  | .Valid => "valid"
  | .Invalid => "invalid"
  | .Downloading => "downloading"

def Application.toJson (app : Application) : JsonObject :=
  [("application_id", .string app.appMeta.applicationId),
    ("catalog_image", .string app.appMeta.catalogImageFilePath),
    ("description", .string app.appMeta.description),
    ("id", .string app.id),
    ("is_free", .bool app.appMeta.isFree),
    ("name", .string app.appMeta.name),
    ("status", .string app.state.stateString),
    ("version", .string app.appMeta.version)]

end Storage

abbrev DownloadableApplicationCache := QMap String Storage.Application

namespace DownloadableApplicationCache

def cacheApplication (cache : DownloadableApplicationCache) (app : Storage.Application) :
    DownloadableApplicationCache :=
  cache.insert app.id app

def hasApplication (cache : DownloadableApplicationCache) (applicationFullId : String) : Bool :=
  applicationFullId ∈ cache

end DownloadableApplicationCache

structure QuerySystem where
  cache : DownloadableApplicationCache
  /-- The commands that exist, with their `ongoingRequests`. -/
  commands : QMap Nat (List Nat)
  nextCommand : Nat
  requests : QMap Nat DownloadableApplicationsRequest
  nextRequest : Nat
  /-- The requests in the queue of the head server connection. -/
  requestQueue : List Nat
  /-- The requests whose invocation is in flight. -/
  invocations : List Nat

inductive QuerySignal where
  /-- `process` of a command. -/
  | processed (command : Nat)
  /-- The head server is asked for a list. -/
  | asked (request : Nat) (parameter : ListParameter)
  /-- The head server has listed applications. -/
  | listed (request : Nat) (apps : List Storage.Application)
  /-- `sendJsonMessageToSouth` of the control channel of a command. -/
  | reply (command : Nat) (json : JsonObject)

namespace QuerySystem

abbrev Result := Except QueryFault (QuerySystem × List QuerySignal)

def start : QuerySystem where
  cache := ∅
  commands := ∅
  nextCommand := 0
  requests := ∅
  nextRequest := 0
  requestQueue := []
  invocations := []

section Replies

def okReply (req : DownloadableApplicationsRequest) (apps : List Storage.Application) :
    JsonObject :=
  [("applications", .array (apps.map fun app => .object app.toJson)),
    ("command", .string "QueryDownloadableApplicationsReply")] ++
    (if req.playerDefined then [("player_id", .number req.playerId)] else []) ++
    [("result", .string "ok")]

def failureReply (details : Json) : JsonObject :=
  [("command", .string "QueryDownloadableApplicationsReply"),
    ("result", .string "failure"),
    ("result_details", details)]

end Replies

section Commands

def createCommand (s : QuerySystem) : QuerySystem :=
  { s with
    commands := s.commands.insert s.nextCommand []
    nextCommand := s.nextCommand + 1 }

def cancel (s : QuerySystem) (request : Nat) : Except QueryFault QuerySystem :=
  match s.requests[request]? with
  | none => .error .deletedRequest
  | some req =>
      -- the invocation is aborted, and finishes with an error later
      .ok { s with requests := s.requests.insert request { req with active := false } }

def cancelAll (s : QuerySystem) : List Nat → Except QueryFault QuerySystem
  | [] => .ok s
  | request :: rest =>
      match s.cancel request with
      | .error fault => .error fault
      | .ok s => s.cancelAll rest

def destroyCommand (s : QuerySystem) (command : Nat) : Except QueryFault QuerySystem :=
  match s.commands[command]? with
  | none => .ok s
  | some ongoingRequests =>
      { s with commands := s.commands.erase command }.cancelAll ongoingRequests

def newRequest (playerSessions : PlayerSessionManager) (command : Nat) (json : JsonObject) :
    DownloadableApplicationsRequest :=
  let req := DownloadableApplicationsRequest.new command
  if json.contains "player_id" then
    let playerId := (json.value "player_id").toInt
    let session := playerSessions.session (Int32.ofInt playerId)
    if session.isValid && !session.isGuest then req.setUserToken playerId session.userToken
    else req
  else req

def process (s : QuerySystem) (playerSessions : PlayerSessionManager) (command : Nat)
    (json : JsonObject) : QuerySystem × List QuerySignal :=
  match s.commands[command]? with
  | none => (s, [])
  | some ongoingRequests =>
      ({ s with
          commands := s.commands.insert command (ongoingRequests ++ [s.nextRequest])
          requests := s.requests.insert s.nextRequest (newRequest playerSessions command json)
          nextRequest := s.nextRequest + 1
          requestQueue := s.requestQueue ++ [s.nextRequest] },
        [.processed command])

/-- `removeOne` of the ongoing requests, on a command that may have been deleted. -/
def removeOngoing (s : QuerySystem) (request command : Nat) : Except QueryFault QuerySystem :=
  match s.commands[command]? with
  | none => .error .deletedCommand
  | some ongoingRequests =>
      .ok { s with commands := s.commands.insert command (ongoingRequests.erase request) }

def processRequestOkResponse (s : QuerySystem) (request : Nat)
    (req : DownloadableApplicationsRequest) (apps : List Storage.Application) : Result :=
  match s.removeOngoing request req.command with
  | .error fault => .error fault
  | .ok s =>
      .ok ({ s with
          cache := apps.foldl DownloadableApplicationCache.cacheApplication s.cache
          requests := s.requests.erase request },
        [.listed request apps, .reply req.command (okReply req apps)])

/-- The request is not deleted. -/
def processRequestErrorResponse (s : QuerySystem) (request : Nat)
    (req : DownloadableApplicationsRequest) (details : Json) : Result :=
  match s.removeOngoing request req.command with
  | .error fault => .error fault
  | .ok s =>
      .ok ({ s with requests := s.requests.insert request { req with active := false } },
        [.reply req.command (failureReply details)])

end Commands

section Requests

def executeRequest (s : QuerySystem) (request : Nat) : Result :=
  if request ∈ s.requestQueue then
    match s.requests[request]? with
    | none => .error .deletedRequest
    | some req =>
        .ok ({ s with
            requestQueue := s.requestQueue.erase request
            invocations := s.invocations ++ [request] },
          [.asked request req.parameter])
  else .ok (s, [])

/-- A request that is no longer active deletes itself. -/
def requestFinishedError (s : QuerySystem) (request : Nat) (details : Json) : Result :=
  match s.requests[request]? with
  | none => .error .deletedRequest
  | some req =>
      if req.active then s.processRequestErrorResponse request req details
      else .ok ({ s with requests := s.requests.erase request }, [])

def requestFinishedOk (s : QuerySystem) (request : Nat) (headServerHost : String)
    (response : Option JsonObject) (details : Json) : Result :=
  match s.requests[request]? with
  | none => .error .deletedRequest
  | some req =>
      if req.active then
        match response with
        | none => s.processRequestErrorResponse request req details
        | some json =>
            s.processRequestOkResponse request req (receivedApplications headServerHost json)
      else .ok ({ s with requests := s.requests.erase request }, [])

def noConnection (s : QuerySystem) (request : Nat) (details : Json) : Result :=
  if request ∈ s.requestQueue then s.requestFinishedError request details else .ok (s, [])

def finishedOk (s : QuerySystem) (request : Nat) (headServerHost : String)
    (response : Option JsonObject) (details : Json) : Result :=
  if request ∈ s.invocations then
    { s with invocations := s.invocations.erase request }.requestFinishedOk request
      headServerHost response details
  else .ok (s, [])

def finishedError (s : QuerySystem) (request : Nat) (details : Json) : Result :=
  if request ∈ s.invocations then
    { s with invocations := s.invocations.erase request }.requestFinishedError request details
  else .ok (s, [])

end Requests

section Past

def Listed (past : List QuerySignal) (parameter : ListParameter) (applicationFullId : String) :
    Prop :=
  ∃ request apps, .asked request parameter ∈ past ∧ .listed request apps ∈ past ∧
    ∃ app ∈ apps, app.id = applicationFullId

def isQuery (command : Nat) : QuerySignal → Bool
  | .processed other => other == command
  | _ => false

def isReply (command : Nat) : QuerySignal → Bool
  | .reply other _ => other == command
  | _ => false

end Past

end QuerySystem

end GBerry.Comms
