import GBerry.Lib.Result

/-!
# Invocations

What the invocations over HTTP share: the definition of the operation, the errors
and reasons that they report, and the reply of the network.  A redirection target is
set for the statuses of a redirection only.
-/

namespace GBerry.Lib

open GBerry.Common

inductive Operation where
  | NOT_DEFINED
  | GET
  | POST
  deriving DecidableEq

structure HTTPInvocationDefinition where
  httpOperation : Operation
  invocationPath : String

inductive HttpStatus where
  | UNDEFINED
  | OK_200
  | FORBIDDEN_403
  deriving DecidableEq

def resolveHttpStatus (code : Int) : HttpStatus :=
  if code = 200 then .OK_200
  else if code = 403 then .FORBIDDEN_403
  else .UNDEFINED

theorem resolveHttpStatus_ok (code : Int) : resolveHttpStatus code = .OK_200 ↔ code = 200 := by
  unfold resolveHttpStatus
  split
  · rename_i hcode
    exact iff_of_true rfl hcode
  · rename_i hcode
    refine iff_of_false ?_ hcode
    split
    · simp
    · simp

namespace InvocationErrors

def CONNECTION_FAILED : Error :=
  .make 1100 "CONNECTION_FAILED" "TXT_Invocation connection failed"

def INVOCATION_FAILED : Error := .make 1200 "INVOCATION_FAILED" "TXT_Invocation failed"

def INVOCATION_INVALID : Error :=
  .make 1201 "INVOCATION_INVALID" "TXT_Invocation parameters are invalid"

end InvocationErrors

inductive NetworkError where
  | ConnectionRefusedError
  | RemoteHostClosedError
  | HostNotFoundError
  | TimeoutError
  | OperationCanceledError
  | SslHandshakeFailedError
  | TemporaryNetworkFailureError
  | NetworkSessionFailedError
  | UnknownNetworkError
  /-- The errors that have no reason of their own. -/
  | other (code : Int)
  deriving DecidableEq

def networkErrorReason (error : NetworkError) (errorString : String) : Reason :=
  match error with
  | .ConnectionRefusedError =>
      Result.reasonFromCode "ConnectionRefused" "TXT_Connection refused to remote host"
  | .RemoteHostClosedError =>
      Result.reasonFromCode "RemoteHostClosedError"
        "TXT_Remote host closed connection before reply was received"
  | .HostNotFoundError =>
      Result.reasonFromCode "HostNotFoundError" "TXT_Remote host not found)"
  | .TimeoutError =>
      Result.reasonFromCode "TimeoutError" "TXT_Connection to remote host timed out"
  | .OperationCanceledError =>
      Result.reasonFromCode "OperationCanceledError"
        "TXT_Connection to remote host was cancelled locally before a reply was received"
  | .SslHandshakeFailedError =>
      Result.reasonFromCode "SslHandshakeFailedError"
        ("TXT_Connection could not be established because encrypted connection " ++
          "creation failed")
  | .TemporaryNetworkFailureError =>
      Result.reasonFromCode "TemporaryNetworkFailureError"
        "TXT_Connection was broken as network connectivity was lost"
  | .NetworkSessionFailedError =>
      Result.reasonFromCode "NetworkSessionFailedError"
        "TXT_Connection failed because no working network connection available"
  | .UnknownNetworkError =>
      if errorString = "Host unreachable" then
        Result.reasonFromCode "HostNotReachable" "TXT_Remote host not reachable"
      else Result.reasonFromCode "UnknownNetworkError" "TXT_Unknown network error"
  | .other _ =>
      Result.reasonFromCode "QNetworkReplyError"
        "TXT_Encountered undocumented network error"

/-- The statuses for which a reply has a redirection target. -/
def redirectCodes : List Int := [301, 302, 303, 305, 307, 308]

structure Headers where
  statusCode : Option Int
  redirectionTarget : Option String
  contentLength : Option Nat
  redirects : redirectionTarget.isSome = true → ∃ code ∈ redirectCodes, statusCode = some code

structure NetworkFailure where
  error : NetworkError
  errorString : String
  deriving DecidableEq

def operationCanceled : NetworkFailure := ⟨.OperationCanceledError, "Operation canceled"⟩

structure QNetworkReply where
  headers : Option Headers
  /-- The body, as far as it has arrived. -/
  received : List UInt8
  /-- How much of it has been read. -/
  position : Nat

namespace QNetworkReply

def requested : QNetworkReply := ⟨none, [], 0⟩

section Accessors

variable (reply : QNetworkReply)

def statusCode : Option Int := reply.headers.bind Headers.statusCode

def redirectionTarget : Option String := reply.headers.bind Headers.redirectionTarget

def contentLength : Option Nat := reply.headers.bind Headers.contentLength

def unread : List UInt8 := reply.received.drop reply.position

def read (maxSize : Nat) : List UInt8 × QNetworkReply :=
  (reply.unread.take maxSize,
    { reply with position := reply.position + (reply.unread.take maxSize).length })

theorem read_append_unread (maxSize : Nat) :
    (reply.read maxSize).1 ++ (reply.read maxSize).2.unread = reply.unread := by
  have hrest : (reply.read maxSize).2.unread =
      reply.unread.drop (reply.unread.take maxSize).length := by
    simp only [read, unread, List.drop_drop]
  rw [hrest, read, List.length_take]
  rcases Nat.le_total maxSize reply.unread.length with hle | hle
  · rw [Nat.min_eq_left hle, List.take_append_drop]
  · rw [Nat.min_eq_right hle, List.drop_length, List.append_nil, List.take_of_length_le hle]

theorem redirectionTarget_of_ok (h : reply.statusCode = some 200) :
    reply.redirectionTarget = none := by
  unfold statusCode redirectionTarget at *
  cases hheaders : reply.headers with
  | none => rfl
  | some headers =>
      rw [hheaders, Option.bind_some] at h
      rw [Option.bind_some]
      by_contra hsome
      obtain ⟨code, hcode, hstatus⟩ :=
        headers.redirects (Option.ne_none_iff_isSome.mp hsome)
      rw [h, Option.some.injEq] at hstatus
      subst hstatus
      revert hcode
      decide

end Accessors

end QNetworkReply

/-- What building and resolving URLs is left to. -/
structure UrlBuilder where
  /-- The property `URL_PREFIX_PROP`. -/
  baseUrl : String
  setQuery : String → List (String × String) → String
  resolved : String → String → String

def UrlBuilder.buildUrl (urls : UrlBuilder) (invocationPath : String)
    (params : QMap String String) : String :=
  urls.setQuery (urls.baseUrl ++ invocationPath) params.toList

end GBerry.Lib
