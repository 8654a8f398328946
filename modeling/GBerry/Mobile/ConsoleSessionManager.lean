import GBerry.Server.ConsoleRESTServer

/-!
# `ConsoleSessionManager` and `WebsocketClient`

The part of a phone that opens a session on a console: the console is asked for a
token first, and a websocket is opened with the token then.  A manager has one
websocket, which forgets what it was connected to when it is opened again.
-/

namespace GBerry.Mobile

open GBerry.Common
open GBerry.Server

structure UserLoginMeta where
  userName : String
  userToken : String
  deriving DecidableEq

def UserLoginMeta.isGuest (loginMeta : UserLoginMeta) : Bool := loginMeta.userToken = ""

/-- The state of the `QWebSocket`; the console has seen the socket before the phone has. -/
inductive WebSocket where
  | unconnected
  | connecting (token : String)
  | accepted
  | connected
  deriving DecidableEq

structure WebsocketClient where
  socket : WebSocket

inductive ConsoleSessionSignal where
  | consoleSessionOpenFailed (errorMessage : String)
  | consoleSessionOpened
  deriving DecidableEq

structure ConsoleSessionManager where
  websocket : WebsocketClient

namespace ConsoleSessionManager

def start : ConsoleSessionManager := ⟨⟨.unconnected⟩⟩

def openMessage (loginMeta : UserLoginMeta) : JsonObject :=
  [("action", .string "open_console_session"),
    ("id", .string (if loginMeta.isGuest then "guest" else loginMeta.userToken)),
    ("name", .string loginMeta.userName)]

def openRequest (β : Type) [QByteArray β] (loginMeta : UserLoginMeta) : PostRequest β where
  path := "/console/v1/session"
  contentType := "application/json"
  body := QByteArray.toJson (openMessage loginMeta)

def setSocket (m : ConsoleSessionManager) (socket : WebSocket) : ConsoleSessionManager :=
  { m with websocket := { m.websocket with socket := socket } }

def openWebsocket (m : ConsoleSessionManager) (token : String) : ConsoleSessionManager :=
  m.setSocket (.connecting token)

def onOpenConsoleSessionFinished (m : ConsoleSessionManager) (httpStatusCode : Nat)
    (json : JsonObject) : ConsoleSessionManager × List ConsoleSessionSignal :=
  if httpStatusCode ≠ 200 then
    (m, [.consoleSessionOpenFailed
      ("HTTP Status Code:" ++ String.singleton (Char.ofNat httpStatusCode))])
  else
    let failed : List ConsoleSessionSignal :=
      if json.contains "response_type" ∧ (json.value "response_type").isString "error" then
        [.consoleSessionOpenFailed
          ("Console responded:" ++ (json.value "error_message").toString)]
      else []
    if json.contains "response_type" ∧ (json.value "response_type").isString "ok" then
      (m.openWebsocket (json.value "token").toString, failed)
    else (m, failed)

def onOpenConsoleSessionError (responseString formatted : String) :
    List ConsoleSessionSignal :=
  [.consoleSessionOpenFailed (if responseString ≠ "" then responseString else formatted)]

def onWebsocketConnected (m : ConsoleSessionManager) :
    ConsoleSessionManager × List ConsoleSessionSignal :=
  (m.setSocket .connected, [.consoleSessionOpened])

/-- `close`, or the other end has closed the socket. -/
def close (m : ConsoleSessionManager) : ConsoleSessionManager := m.setSocket .unconnected

theorem normal_openMessage (loginMeta : UserLoginMeta) :
    JsonObject.Normal (openMessage loginMeta) := by
  have hkeys : ["action", "id", "name"].Pairwise (· < ·) := by decide
  refine .object hkeys ?_
  intro field hfield
  simp only [openMessage, List.mem_cons, List.not_mem_nil, or_false] at hfield
  obtain rfl | rfl | rfl := hfield
  all_goals exact .string _

theorem openConsoleSession_openRequest {β : Type} [QByteArray β] (loginMeta : UserLoginMeta) :
    ConsoleRESTServer.openConsoleSession (openRequest β loginMeta).body =
      some (if loginMeta.isGuest then "guest" else loginMeta.userToken,
        loginMeta.userName) := by
  have hread := QByteArray.fromJson_toJson (β := β) _ (normal_openMessage loginMeta)
  simp only [ConsoleRESTServer.openConsoleSession, openRequest, hread, Option.getD_some]
  rfl

end ConsoleSessionManager

end GBerry.Mobile
