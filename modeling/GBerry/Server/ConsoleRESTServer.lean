import GBerry.Common.Json
import GBerry.Server.PlayerSession

/-!
# `ConsoleRESTServer`

The requests that are posted to the console.  A request that opens a session is
accepted when no session has the name of its player.
-/

namespace GBerry.Server

open GBerry.Common

structure PostRequest (β : Type) where
  path : String
  contentType : String
  body : β

inductive ResponseBody (β : Type) where
  /-- The text of an error in Latin-1. -/
  | message (msg : String)
  | json (fields : JsonObject)
  /-- The document of the request is written back. -/
  | echo (body : β)

structure PostResponse (β : Type) where
  status : Nat
  contentType : Option String
  body : ResponseBody β

structure ConsoleRESTServer where
  sessionManager : PlayerSessionManager
  tokenCounter : Int32
  idCounters : PlayerIdCounters

namespace ConsoleRESTServer

def start : ConsoleRESTServer where
  sessionManager := .start
  tokenCounter := 100
  idCounters := .start

def capturedName (path : String) : Option String :=
  let root := "/console/v1/".toList
  let name := path.toList.drop root.length
  if root.isPrefixOf path.toList ∧ name.all fun c => 'a' ≤ c ∧ c ≤ 'z' then
    some (String.ofList name)
  else none

variable {β : Type} [QByteArray β]

def openConsoleSession (body : β) : Option (String × String) :=
  let json := (QByteArray.fromJson body).getD []
  if JsonObject.contains json "action" ∧
      (JsonObject.value json "action").isString "open_console_session" then
    some ((JsonObject.value json "id").toString, (JsonObject.value json "name").toString)
  else none

omit [QByteArray β] in
def forbidden (msg : String) : PostResponse β := ⟨403, none, .message msg⟩

/-- `QString::number` writes the counter in decimal. -/
def createSession (s : ConsoleRESTServer) (id playerName : String) :
    PlayerSession × ConsoleRESTServer :=
  let sessionToken := "abc" ++ toString s.tokenCounter.toInt
  let s := { s with tokenCounter := s.tokenCounter + 1 }
  if id = "guest" then
    let (session, idCounters) := s.idCounters.guestPlayerSession playerName sessionToken
    (session, { s with idCounters := idCounters })
  else
    let (session, idCounters) := s.idCounters.signedInPlayerSession playerName sessionToken id
    (session, { s with idCounters := idCounters })

def handlePostRequest (s : ConsoleRESTServer) (req : PostRequest β) :
    ConsoleRESTServer × PostResponse β :=
  match capturedName req.path with
  | none => (s, forbidden "You aren't allowed here!")
  | some name =>
      if name = "ping" then
        if req.contentType ≠ "application/json" then
          (s, forbidden ("Unsupported content type: " ++ req.contentType))
        else (s, ⟨200, some "application/json", .echo req.body⟩)
      else if name = "session" then
        match openConsoleSession req.body with
        | none => (s, forbidden "Invalid json message")
        | some (id, playerName) =>
            if s.sessionManager.isPlayerNameReserved playerName then
              (s, forbidden ("Player nick name " ++ playerName ++
                " already used. Please provide other one."))
            else
              let (session, s) := s.createSession id playerName
              ({ s with sessionManager := s.sessionManager.insertSession session },
                ⟨200, some "application/json", .json [("response_type", .string "ok"),
                  ("token", .string session.sessionToken)]⟩)
      else (s, forbidden ("Not supported url: " ++ name))

def accepted (s : ConsoleRESTServer) (req : PostRequest β) : Option (String × String) :=
  if capturedName req.path = some "session" then
    match openConsoleSession req.body with
    | some (id, playerName) =>
        if s.sessionManager.isPlayerNameReserved playerName then none
        else some (id, playerName)
    | none => none
  else none

def removeSession (s : ConsoleRESTServer) (playerId : Int32) : ConsoleRESTServer :=
  { s with sessionManager := s.sessionManager.removeSession playerId }

theorem createSession_parts (s : ConsoleRESTServer) (id playerName : String) :
    (s.createSession id playerName).2.sessionManager = s.sessionManager ∧
      (s.createSession id playerName).2.tokenCounter = s.tokenCounter + 1 ∧
      (s.createSession id playerName).1.playerName = playerName ∧
      (s.createSession id playerName).1.sessionToken =
        "abc" ++ toString s.tokenCounter.toInt := by
  unfold createSession
  split <;> exact ⟨rfl, rfl, rfl, rfl⟩

variable {s : ConsoleRESTServer} {req : PostRequest β} {id playerName : String}

theorem handlePostRequest_refused (h : s.accepted req = none) :
    (s.handlePostRequest req).1 = s := by
  unfold handlePostRequest
  split
  · rfl
  rename_i name hname
  split
  · split <;> rfl
  split
  · rename_i hsession
    unfold accepted at h
    rw [if_pos (hsession ▸ hname)] at h
    split
    · rfl
    · rename_i id playerName hopen
      simp only [hopen] at h
      split
      · rfl
      · rename_i hreserved
        rw [if_neg hreserved] at h
        cases h
  · rfl

theorem handlePostRequest_accepted (h : s.accepted req = some (id, playerName)) :
    s.sessionManager.isPlayerNameReserved playerName = false ∧
      s.handlePostRequest req =
        ({ (s.createSession id playerName).2 with
            sessionManager := s.sessionManager.insertSession (s.createSession id playerName).1 },
          ⟨200, some "application/json", .json [("response_type", .string "ok"),
            ("token", .string (s.createSession id playerName).1.sessionToken)]⟩) := by
  unfold accepted at h
  split at h
  case isFalse => cases h
  rename_i hname
  split at h
  case h_2 => cases h
  rename_i id' playerName' hopen
  split at h
  · cases h
  · rename_i hreserved
    cases h
    refine ⟨Bool.eq_false_iff.mpr hreserved, ?_⟩
    have hkind : ("session" : String) ≠ "ping" := by decide
    simp only [handlePostRequest, hname, if_neg hkind, if_pos, hopen, if_neg hreserved,
      (s.createSession_parts id playerName).1]

end ConsoleRESTServer

end GBerry.Server
