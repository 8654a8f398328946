import Mathlib.Algebra.Group.Int.Defs
import Mathlib.Algebra.GroupWithZero.Nat
import GBerry.Comms.HeadServerConnection
import GBerry.Lib.Invocation

/-!
# `DownloadStreamInvocationImpl`

An invocation that stores the body of its response in a file.  The data that has
arrived is read in `readyRead`, and the outcome is decided when the reply has finished.
The events are those of the reply in progress: its headers arrive once, before any
data, and `abort` lets it finish with an error at once.  The file is what the disk has
under the output path; opening it to write empties it.
-/

namespace GBerry.Lib

open GBerry.Common
open GBerry.Comms (InvocationStatus)
open GBerry.Foundation

def READ_BUFFER_SIZE : Nat := 10000

structure QFile where
  isOpen : Bool
  content : Option (List UInt8)
  deriving DecidableEq

namespace QFile

def opened : QFile := ⟨true, some []⟩

def close (file : QFile) : QFile := { file with isOpen := false }

def write (file : QFile) (bytes : List UInt8) : QFile :=
  { file with content := file.content.map (· ++ bytes) }

end QFile

structure DownloadStreamInvocationImpl where
  invocationStatus : InvocationStatus
  httpStatus : HttpStatus
  qreply : Option QNetworkReply
  totalReadBytes : Nat
  url : String
  params : QMap String String
  definition : HTTPInvocationDefinition
  result : Result
  postData : List UInt8
  outputFilePath : String
  outputFile : QFile
  bytesReceived : Int
  bytesTotal : Int

/--
What is defined before `execute`, with the disk under the output path, and with what
the members happen to hold that are not initialized.
-/
structure DownloadSetup where
  definition : HTTPInvocationDefinition
  params : QMap String String
  postData : List UInt8
  outputFilePath : String
  content : Option (List UInt8)
  bytesReceived : Int
  bytesTotal : Int

/-- The requests to the network, and the signals. -/
inductive DownloadOutput where
  | get (url : String)
  | post (url : String) (postData : List UInt8)
  | downloadStarted
  /-- With what `progressPercentage` returns while the signal is handled. -/
  | downloadProgress (percentage : Int)
  | finishedOK
  | finishedError
  deriving DecidableEq

inductive DownloadEvent where
  | headers (headers : Headers)
  /-- Data arrives; whether the output file can be opened is part of the event. -/
  | readyRead (data : List UInt8) (opens : Bool)
  | finished (error : Option NetworkFailure)
  | abort

abbrev DownloadAction := Action DownloadStreamInvocationImpl DownloadOutput

namespace DownloadStreamInvocationImpl

def created (setup : DownloadSetup) : DownloadStreamInvocationImpl where
  invocationStatus := .NOT_STARTED
  httpStatus := .UNDEFINED
  qreply := none
  totalReadBytes := 0
  url := ""
  params := setup.params
  definition := setup.definition
  result := .empty
  postData := setup.postData
  outputFilePath := setup.outputFilePath
  outputFile := ⟨false, setup.content⟩
  bytesReceived := setup.bytesReceived
  bytesTotal := setup.bytesTotal

section Source

variable (urls : UrlBuilder)

def get (url : String) : DownloadAction := fun d =>
  ({ d with url := url, qreply := some .requested, invocationStatus := .ONGOING },
    [.get url])

def post (url : String) : DownloadAction := fun d =>
  ({ d with url := url, qreply := some .requested, invocationStatus := .ONGOING },
    [.post url d.postData])

def addMeta (key value : String) : DownloadAction :=
  .modify fun d => { d with result := d.result.addMeta (.make key value) }

def addError (err : Error) (reason : Reason) : DownloadAction :=
  .modify fun d => { d with result := (d.result.addError err).addReason reason }

def doOperation (url : String) : DownloadAction := fun d =>
  match d.definition.httpOperation with
  | .GET =>
      ((addMeta "url" url).andThen ((addMeta "http_operation" "GET").andThen (get url))) d
  | .POST =>
      ((addMeta "url" url).andThen ((addMeta "http_operation" "POST").andThen (post url))) d
  | .NOT_DEFINED =>
      ((addMeta "url" url).andThen
        ((addError InvocationErrors.INVOCATION_INVALID
          (Result.reasonFromDesc "Http operation not defined")).andThen
            (.emit .finishedError))) d

def execute : DownloadAction := fun d =>
  if d.outputFilePath = "" then
    ((addError InvocationErrors.INVOCATION_INVALID
      (Result.reasonFromDesc "No output file path was defined")).andThen
        (.emit .finishedError)) { d with invocationStatus := .INVALID_INVOCATION }
  else doOperation (urls.buildUrl d.definition.invocationPath d.params) d

/-- The status that a reply with an error has, and what is said when it has none. -/
def failedStatus (statusCode : Option Int) (result : Result) : HttpStatus × Result :=
  match statusCode with
  | some code => (resolveHttpStatus code, result)
  | none =>
      (.UNDEFINED, result.addReason (Result.reasonFromDesc "Http response code is not valid"))

def onQNetworkReplyFinished (error : Option NetworkFailure) : DownloadAction := fun d =>
  match d.qreply with
  | none => (d, [])
  | some reply =>
      match reply.redirectionTarget, error with
      | some target, _ =>
          doOperation (urls.resolved d.url target) { d with qreply := none }
      | none, some failure =>
          let (httpStatus, result) := failedStatus reply.statusCode
            (d.result.addError InvocationErrors.INVOCATION_FAILED)
          let result := (result.addError InvocationErrors.CONNECTION_FAILED).addMeta
            (.make "qnetworkreply_error_string" failure.errorString)
          ({ d with
              httpStatus := httpStatus
              invocationStatus := .ERROR
              result := result.addReason
                (networkErrorReason failure.error failure.errorString)
              qreply := none }, [.finishedError])
      | none, none =>
          ({ d with
              outputFile := if d.outputFile.isOpen then d.outputFile.close else d.outputFile
              invocationStatus := .FINISHED
              qreply := none }, [.finishedOK])

/-- A reply that is aborted finishes before `QNetworkReply::abort` returns. -/
def abort : DownloadAction := fun d =>
  match d.qreply with
  | some _ => onQNetworkReplyFinished urls (some operationCanceled) d
  | none => (d, [])

/-- The product is one of 64 bits, and the percentage one of 32. -/
def percentage (bytesReceived bytesTotal : Int) : Int :=
  if bytesTotal = 0 then 0
  else if bytesTotal ≠ -1 then
    (((bytesReceived * 100).bmod (2 ^ 64)).tdiv bytesTotal).bmod (2 ^ 32)
  else 0

def progressPercentage (d : DownloadStreamInvocationImpl) : Int :=
  percentage d.bytesReceived d.bytesTotal

def onQNetworkReplyDownloadProgress (bytesReceived bytesTotal : Int) : DownloadAction :=
  fun d =>
    let d := { d with bytesReceived := bytesReceived, bytesTotal := bytesTotal }
    (d, [.downloadProgress (progressPercentage d)])

def onRead (bytes : List UInt8) (bytesTotal : Int) : DownloadAction := fun d =>
  let d := { d with
    totalReadBytes := d.totalReadBytes + bytes.length
    outputFile := d.outputFile.write bytes }
  onQNetworkReplyDownloadProgress d.totalReadBytes bytesTotal d

def readLoop (bytesTotal : Int) : Nat → DownloadAction
  | 0 => .skip
  | fuel + 1 => fun d =>
      match d.qreply with
      | none => (d, [])
      | some reply =>
          if (reply.read READ_BUFFER_SIZE).1 = [] then (d, [])
          else
            ((onRead (reply.read READ_BUFFER_SIZE).1 bytesTotal).andThen
              (readLoop bytesTotal fuel))
              { d with qreply := some (reply.read READ_BUFFER_SIZE).2 }

/-- The conversion of the header keeps the low 32 bits. -/
def totalOf (contentLength : Option Nat) : Int :=
  match contentLength with
  | some n => (n : Int).bmod (2 ^ 32)
  | none => -1

def readAll (firstRead : Bool) (reply : QNetworkReply) : DownloadAction :=
  (if firstRead then .emit .downloadStarted else .skip : DownloadAction).andThen
    (readLoop (totalOf reply.contentLength) (reply.unread.length + 1))

def onQNetworkReplyReadyRead (opens : Bool) : DownloadAction := fun d =>
  match d.qreply with
  | none => (d, [])
  | some reply =>
      let firstRead := d.invocationStatus ≠ .RESPONSE_RECEIVED
      match reply.statusCode with
      | none =>
          addError InvocationErrors.INVOCATION_FAILED
            (Result.reasonFromDesc "Http status code not valid")
            { d with invocationStatus := .ERROR }
      | some code =>
          if resolveHttpStatus code ≠ .OK_200 then
            ((addError InvocationErrors.INVOCATION_FAILED
              (Result.reasonFromDesc "Http error response code (not 200)")).andThen
                (addMeta "http_code" (toString code)))
              { d with invocationStatus := .ERROR, httpStatus := resolveHttpStatus code }
          else
            let d := { d with
              invocationStatus := .RESPONSE_RECEIVED
              httpStatus := resolveHttpStatus code }
            if d.outputFile.isOpen then readAll firstRead reply d
            else if opens then readAll firstRead reply { d with outputFile := .opened }
            else
              -- The reply that is aborted here reports its error before this does.
              ((abort urls).andThen ((addError InvocationErrors.INVOCATION_INVALID
                (Result.reasonFromDesc "Open output file failed")).andThen
                  ((addMeta "file_path" d.outputFilePath).andThen
                    ((Action.modify fun d =>
                      { d with invocationStatus := .INVALID_INVOCATION }).andThen
                        (.emit .finishedError))))) d

/-- Without a reply in progress nothing happens. -/
def handle : DownloadEvent → DownloadAction
  | .headers headers => fun d =>
      match d.qreply with
      | none => (d, [])
      | some reply =>
          if reply.headers.isNone = true ∧ reply.received = [] then
            ({ d with qreply := some { reply with headers := some headers } }, [])
          else (d, [])
  | .readyRead data opens => fun d =>
      match d.qreply with
      | none => (d, [])
      | some reply =>
          onQNetworkReplyReadyRead urls opens
            { d with qreply := some { reply with received := reply.received ++ data } }
  | .finished error => onQNetworkReplyFinished urls error
  | .abort => abort urls

def machine (d : DownloadStreamInvocationImpl) :
    Machine DownloadStreamInvocationImpl DownloadEvent DownloadOutput Empty :=
  Action.machine (execute urls d).1 (handle urls)

abbrev History := List (Step DownloadStreamInvocationImpl DownloadEvent DownloadOutput)

def trace (d : DownloadStreamInvocationImpl) (events : List DownloadEvent) :
    History × DownloadStreamInvocationImpl :=
  Action.trace (execute urls d).1 (handle urls) events

theorem trace_execution (d : DownloadStreamInvocationImpl) (events : List DownloadEvent) :
    Execution (machine urls d) (trace urls d events).1 (trace urls d events).2 :=
  Action.trace_execution (execute urls d).1 (handle urls) events

end Source

end DownloadStreamInvocationImpl

end GBerry.Lib
