import GBerry.Comms.HeadServerConnection
import GBerry.Comms.LocalApplicationsStorage
import GBerry.Common.QMap

/-!
# `DownloadApplicationCommand` and its requests

The commands of the control channels that have been open, the download requests
that they made, with their invocations, and the unzip operations that run.  A
request is known by the number of the download.  The head server connection
executes the requests of its queue, or finishes them when a ping fails, at any
time and in any order.

A step fails where the source dereferences a null pointer, or uses a request
that was deleted.
-/

namespace GBerry.Comms

open GBerry.Common
open GBerry.Foundation

inductive DownloadFault where
  | nullApplication
  | deletedRequest
  deriving DecidableEq

structure DownloadStreamInvocation where
  invocationStatus : InvocationStatus
  outputFileOpen : Bool
  /-- Whether the reply has a redirection target. -/
  redirectionTarget : Bool
  deriving DecidableEq

structure DownloadApplicationRequest where
  command : Nat
  applicationFullId : String
  active : Bool
  invocation : Option DownloadStreamInvocation
  deriving DecidableEq

/-- An `UnzipOperation`, with the command that its signal is connected to. -/
structure UnzipOperation where
  command : Nat
  applicationFullId : String
  deriving DecidableEq

structure DownloadSystem where
  storage : LocalApplicationsStorage
  /-- The commands that exist, with their `ongoingRequests`. -/
  commands : QMap Nat (List Nat)
  nextCommand : Nat
  requests : QMap Nat DownloadApplicationRequest
  nextRequest : Nat
  /-- The requests in the queue of the head server connection. -/
  requestQueue : List Nat
  unzips : QMap Nat UnzipOperation

inductive CommandCall where
  | downloadStarted
  | downloadProgress
  | processRequestOkResponse
  | processRequestErrorResponse
  deriving DecidableEq

inductive ReplyResult where
  | ok
  | failure
  deriving DecidableEq

inductive DownloadSignal where
  /-- `process` went past `addApplication`, for a command. -/
  | accepted (request command : Nat) (applicationFullId : String)
  /-- `process` responds with a failure. -/
  | refused (command : Nat) (applicationFullId : String)
  | called (request : Nat) (call : CommandCall)
  /-- `cancel` has returned. -/
  | cancelled (request : Nat)
  | reply (request : Nat) (applicationFullId : String) (result : ReplyResult)
  deriving DecidableEq

inductive HttpStatus where
  | invalid
  | OK_200
  | other
  deriving DecidableEq

/-- What an unzip operation leaves, and what becomes of the update after it. -/
structure UnzipOutcome where
  exitCode : Int
  read : Rereading
  writing : Writing

inductive DownloadEvent where
  | createCommand
  | destroyCommand (command : Nat)
  | process (command : Nat) (applicationFullId : String) (cached created : Bool)
      (writing : Writing)
  | executeRequest (request : Nat)
  | noConnection (request : Nat)
  | redirected (request : Nat)
  | readyRead (request : Nat) (httpStatus : HttpStatus) (opens : Bool) (chunks : Nat)
  | replyFinished (request : Nat) (failed fileExists : Bool)
  | unzipFinished (request : Nat) (outcome : UnzipOutcome)

abbrev DownloadResult := Except DownloadFault (DownloadSystem × List DownloadSignal)

namespace DownloadSystem

def start (storage : LocalApplicationsStorage) : DownloadSystem where
  storage := storage
  commands := ∅
  nextCommand := 0
  requests := ∅
  nextRequest := 0
  requestQueue := []
  unzips := ∅

section Commands

/-- The command has no application to delete when the storage does not know it. -/
def deleteApplicationFromFileSystem (s : DownloadSystem) (applicationFullId : String) :
    Except DownloadFault DownloadSystem :=
  if applicationFullId ∈ s.storage.apps then
    .ok { s with storage := s.storage.deleteApplication applicationFullId }
  else .error .nullApplication

def failDownload (s : DownloadSystem) (request : Nat) (applicationFullId : String)
    (signals : List DownloadSignal) : DownloadResult :=
  match s.deleteApplicationFromFileSystem applicationFullId with
  | .error fault => .error fault
  | .ok s => .ok (s, signals ++ [.reply request applicationFullId .failure])

def removeRequest (s : DownloadSystem) (request : Nat) (req : DownloadApplicationRequest) :
    DownloadSystem :=
  { s with
    commands := s.commands.modify req.command (·.erase request)
    requests := s.requests.erase request }

def processRequestOkResponse (s : DownloadSystem) (request : Nat)
    (req : DownloadApplicationRequest) (fileExists : Bool) : DownloadResult :=
  let s := s.removeRequest request req
  if fileExists then
    .ok ({ s with
        unzips := s.unzips.insert request ⟨req.command, req.applicationFullId⟩ },
      [.called request .processRequestOkResponse])
  else s.failDownload request req.applicationFullId
    [.called request .processRequestOkResponse]

def processRequestErrorResponse (s : DownloadSystem) (request : Nat)
    (req : DownloadApplicationRequest) : DownloadResult :=
  (s.removeRequest request req).failDownload request req.applicationFullId
    [.called request .processRequestErrorResponse]

def onUnzipFinished (s : DownloadSystem) (request : Nat) (unzipOp : UnzipOperation)
    (outcome : UnzipOutcome) : DownloadResult :=
  let applicationFullId := unzipOp.applicationFullId
  if outcome.exitCode ≠ 0 then s.failDownload request applicationFullId []
  -- `pruneApplication` uses the application that the storage knows
  else if applicationFullId ∉ s.storage.apps then .error .nullApplication
  else
    match s.storage.refreshApplication applicationFullId outcome.read with
    | .error _ => .error .nullApplication
    | .ok none => s.failDownload request applicationFullId []
    | .ok (some storage) =>
        -- the directory may describe another application by now
        if applicationFullId ∉ storage.apps then .error .nullApplication
        else
          match storage.updateApplication applicationFullId outcome.writing with
          | .error _ => .error .nullApplication
          | .ok none =>
              { s with storage := storage }.failDownload request applicationFullId []
          | .ok (some storage) =>
              .ok ({ s with storage := storage },
                [.reply request applicationFullId .ok])

end Commands

section Requests

/-- A request that is gone is about to be deleted, and not active. -/
def finishedOk (s : DownloadSystem) (request : Nat) (fileExists : Bool) :
    DownloadResult :=
  match s.requests[request]? with
  | none => .ok (s, [])
  | some req =>
      if req.active then s.processRequestOkResponse request req fileExists
      else .ok ({ s with requests := s.requests.erase request }, [])

def finishedError (s : DownloadSystem) (request : Nat) : DownloadResult :=
  match s.requests[request]? with
  | none => .ok (s, [])
  | some req =>
      if req.active then s.processRequestErrorResponse request req
      else .ok ({ s with requests := s.requests.erase request }, [])

def setInvocation (s : DownloadSystem) (request : Nat) (req : DownloadApplicationRequest)
    (invocation : DownloadStreamInvocation) : DownloadSystem :=
  { s with
    requests := s.requests.insert request { req with invocation := some invocation } }

/-- `onQNetworkReplyFinished`: a redirection is followed before errors are looked at. -/
def onQNetworkReplyFinished (s : DownloadSystem) (request : Nat)
    (req : DownloadApplicationRequest) (invocation : DownloadStreamInvocation)
    (failed fileExists : Bool) : DownloadResult :=
  if invocation.redirectionTarget then
    .ok (s.setInvocation request req { invocation with
      invocationStatus := .ONGOING
      redirectionTarget := false }, [])
  else if failed then s.finishedError request
  else s.finishedOk request fileExists

/-- `abort` makes the reply finish with an error. -/
def abort (s : DownloadSystem) (request : Nat) (req : DownloadApplicationRequest)
    (invocation : DownloadStreamInvocation) : DownloadResult :=
  s.onQNetworkReplyFinished request req invocation true false

def onQNetworkReplyReadyRead (s : DownloadSystem) (request : Nat)
    (req : DownloadApplicationRequest) (invocation : DownloadStreamInvocation)
    (httpStatus : HttpStatus) (opens : Bool) (chunks : Nat) : DownloadResult :=
  let firstRead := invocation.invocationStatus ≠ .RESPONSE_RECEIVED
  match httpStatus with
  | .OK_200 =>
      let invocation := { invocation with invocationStatus := .RESPONSE_RECEIVED }
      if !invocation.outputFileOpen && !opens then
        -- the invocation finishes with an error twice
        match s.abort request req invocation with
        | .error fault => .error fault
        | .ok (s, aborted) =>
            match s.finishedError request with
            | .error fault => .error fault
            | .ok (s, finished) => .ok (s, aborted ++ finished)
      else
        .ok (s.setInvocation request req { invocation with outputFileOpen := true },
          (if firstRead then [.called request .downloadStarted] else []) ++
            List.replicate chunks (.called request .downloadProgress))
  | _ => .ok (s.setInvocation request req { invocation with invocationStatus := .ERROR }, [])

def cancel (s : DownloadSystem) (request : Nat) : DownloadResult :=
  match s.requests[request]? with
  | none => .ok (s, [.cancelled request])
  | some req =>
      let req := { req with active := false }
      let s := { s with requests := s.requests.insert request req }
      match req.invocation with
      | none => .ok (s, [.cancelled request])
      | some invocation =>
          match s.abort request req invocation with
          | .error fault => .error fault
          | .ok (s, aborted) => .ok (s, aborted ++ [.cancelled request])

def cancelAll (s : DownloadSystem) : List Nat → DownloadResult
  | [] => .ok (s, [])
  | request :: rest =>
      match s.cancel request with
      | .error fault => .error fault
      | .ok (s, first) =>
          match s.cancelAll rest with
          | .error fault => .error fault
          | .ok (s, others) => .ok (s, first ++ others)

end Requests

section Events

def createCommand (s : DownloadSystem) : DownloadSystem :=
  { s with
    commands := s.commands.insert s.nextCommand []
    nextCommand := s.nextCommand + 1 }

def destroyCommand (s : DownloadSystem) (command : Nat) : DownloadResult :=
  match s.commands[command]? with
  | none => .ok (s, [])
  | some ongoingRequests =>
      { s with commands := s.commands.erase command }.cancelAll ongoingRequests

def process (s : DownloadSystem) (command : Nat) (applicationFullId : String)
    (cached created : Bool) (writing : Writing) : DownloadResult :=
  match s.commands[command]? with
  | none => .ok (s, [])
  | some ongoingRequests =>
      if !cached then .ok (s, [.refused command applicationFullId])
      else
        match s.storage.addApplication applicationFullId created writing with
        | .error _ => .error .nullApplication
        | .ok (false, storage) =>
            .ok ({ s with storage := storage }, [.refused command applicationFullId])
        | .ok (true, storage) =>
            .ok ({ s with
                storage := storage
                commands := s.commands.insert command (ongoingRequests ++ [s.nextRequest])
                requests := s.requests.insert s.nextRequest
                  ⟨command, applicationFullId, true, none⟩
                requestQueue := s.requestQueue ++ [s.nextRequest]
                nextRequest := s.nextRequest + 1 },
              [.accepted s.nextRequest command applicationFullId])

def executeRequest (s : DownloadSystem) (request : Nat) : DownloadResult :=
  if request ∈ s.requestQueue then
    match s.requests[request]? with
    | none => .error .deletedRequest
    | some req =>
        .ok ({ s with requestQueue := s.requestQueue.erase request }.setInvocation request req
          ⟨.ONGOING, false, false⟩, [])
  else .ok (s, [])

/-- A ping fails, and the request stays in the queue. -/
def noConnection (s : DownloadSystem) (request : Nat) : DownloadResult :=
  if request ∈ s.requestQueue then
    match s.requests[request]? with
    | none => .error .deletedRequest
    | some _ => s.finishedError request
  else .ok (s, [])

def withInvocation (s : DownloadSystem) (request : Nat)
    (next : DownloadApplicationRequest → DownloadStreamInvocation → DownloadResult) :
    DownloadResult :=
  match s.requests[request]? with
  | none => .ok (s, [])
  | some req =>
      match req.invocation with
      | none => .ok (s, [])
      | some invocation => next req invocation

/-- The signal of an unzip operation is lost when its command was destroyed. -/
def unzipFinished (s : DownloadSystem) (request : Nat) (outcome : UnzipOutcome) :
    DownloadResult :=
  match s.unzips[request]? with
  | none => .ok (s, [])
  | some unzipOp =>
      let s := { s with unzips := s.unzips.erase request }
      if s.commands.contains unzipOp.command then
        s.onUnzipFinished request unzipOp outcome
      else .ok (s, [])

def step (s : DownloadSystem) : DownloadEvent → DownloadResult
  | .createCommand => .ok (s.createCommand, [])
  | .destroyCommand command => s.destroyCommand command
  | .process command applicationFullId cached created writing =>
      s.process command applicationFullId cached created writing
  | .executeRequest request => s.executeRequest request
  | .noConnection request => s.noConnection request
  | .redirected request =>
      s.withInvocation request fun req invocation =>
        .ok (s.setInvocation request req { invocation with redirectionTarget := true }, [])
  | .readyRead request httpStatus opens chunks =>
      s.withInvocation request fun req invocation =>
        s.onQNetworkReplyReadyRead request req invocation httpStatus opens chunks
  | .replyFinished request failed fileExists =>
      s.withInvocation request fun req invocation =>
        s.onQNetworkReplyFinished request req invocation failed fileExists
  | .unzipFinished request outcome => s.unzipFinished request outcome

def machine (storage : LocalApplicationsStorage) :
    Machine DownloadSystem DownloadEvent DownloadSignal DownloadFault where
  init := start storage
  step := step

abbrev History := List (Step DownloadSystem DownloadEvent DownloadSignal)

end Events

section Results

variable {s s' : DownloadSystem} {out : List DownloadSignal} {request : Nat}
  {req : DownloadApplicationRequest}

theorem failDownload_ok {applicationFullId : String} {signals : List DownloadSignal}
    (h : s.failDownload request applicationFullId signals = .ok (s', out)) :
    s' = { s with storage := s.storage.deleteApplication applicationFullId } ∧
      out = signals ++ [.reply request applicationFullId .failure] := by
  unfold failDownload deleteApplicationFromFileSystem at h
  split at h
  · cases h
  · rename_i deleted hdeleted
    split at hdeleted
    · cases hdeleted
      cases h
      exact ⟨rfl, rfl⟩
    · cases hdeleted

theorem removeRequest_ongoing {command : Nat} {l' : List Nat}
    (h : (s.removeRequest request req).commands[command]? = some l') :
    ∃ l, s.commands[command]? = some l ∧ l' ⊆ l := by
  simp only [removeRequest] at h
  rw [Std.ExtTreeMap.getElem?_modify] at h
  split at h
  · rename_i heq
    rw [Std.compare_eq_iff_eq] at heq
    obtain ⟨l, hl, rfl⟩ := Option.map_eq_some_iff.mp h
    exact ⟨l, heq ▸ hl, List.erase_subset⟩
  · exact ⟨l', h, List.Subset.refl l'⟩

theorem withInvocation_ok
    {next : DownloadApplicationRequest → DownloadStreamInvocation → DownloadResult}
    (h : s.withInvocation request next = .ok (s', out)) :
    (s' = s ∧ out = []) ∨ ∃ req invocation, s.requests[request]? = some req ∧
      req.invocation = some invocation ∧ next req invocation = .ok (s', out) := by
  unfold withInvocation at h
  split at h
  · cases h
    exact .inl ⟨rfl, rfl⟩
  rename_i req hreq
  split at h
  · cases h
    exact .inl ⟨rfl, rfl⟩
  · rename_i invocation hinvocation
    exact .inr ⟨req, invocation, hreq, hinvocation, h⟩

theorem onQNetworkReplyReadyRead_ok {invocation : DownloadStreamInvocation}
    {httpStatus : HttpStatus} {opens : Bool} {chunks : Nat}
    (h : s.onQNetworkReplyReadyRead request req invocation httpStatus opens chunks =
      .ok (s', out)) :
    (∃ (invocation' : DownloadStreamInvocation) (s₁ : DownloadSystem)
        (aborted finished : List DownloadSignal),
      s.abort request req invocation' = .ok (s₁, aborted) ∧
        s₁.finishedError request = .ok (s', finished) ∧ out = aborted ++ finished) ∨
    ((∃ invocation', s' = s.setInvocation request req invocation') ∧
      ∀ signal ∈ out, ∃ call, signal = .called request call) := by
  unfold onQNetworkReplyReadyRead at h
  simp only at h
  split at h
  · split at h
    · split at h
      · cases h
      rename_i s₁ aborted habort
      split at h
      · cases h
      rename_i s₂ finished hfinished
      cases h
      exact .inl ⟨_, s₁, aborted, finished, habort, hfinished, rfl⟩
    · cases h
      refine .inr ⟨⟨_, rfl⟩, ?_⟩
      intro signal hmem
      rcases List.mem_append.mp hmem with hstarted | hprogress
      · split at hstarted
        · exact ⟨_, List.mem_singleton.mp hstarted⟩
        · cases hstarted
      · exact ⟨_, List.eq_of_mem_replicate hprogress⟩
  · cases h
    exact .inr ⟨⟨_, rfl⟩, by simp⟩

theorem onUnzipFinished_ok {unzipOp : UnzipOperation} {outcome : UnzipOutcome}
    (h : s.onUnzipFinished request unzipOp outcome = .ok (s', out)) :
    s.failDownload request unzipOp.applicationFullId [] = .ok (s', out) ∨
    ∃ storage,
      s.storage.refreshApplication unzipOp.applicationFullId outcome.read =
          .ok (some storage) ∧
      unzipOp.applicationFullId ∈ storage.apps ∧
      ({ s with storage := storage }.failDownload request unzipOp.applicationFullId [] =
          .ok (s', out) ∨
        ∃ updated,
          storage.updateApplication unzipOp.applicationFullId outcome.writing =
            .ok (some updated) ∧
          s' = { s with storage := updated } ∧
          out = [.reply request unzipOp.applicationFullId .ok]) := by
  unfold onUnzipFinished at h
  simp only at h
  split at h
  · exact .inl h
  split at h
  · cases h
  split at h
  · cases h
  · exact .inl h
  rename_i storage hrefresh
  split at h
  · cases h
  rename_i hmem
  refine .inr ⟨storage, hrefresh, not_not.mp hmem, ?_⟩
  split at h
  · cases h
  · exact .inl h
  · rename_i updated hupdate
    cases h
    exact .inr ⟨updated, hupdate, rfl, rfl⟩

theorem executeRequest_ok (h : s.executeRequest request = .ok (s', out)) :
    (s' = s ∧ out = []) ∨ ∃ req, request ∈ s.requestQueue ∧
      s.requests[request]? = some req ∧ out = [] ∧
      s' = { s with requestQueue := s.requestQueue.erase request }.setInvocation request
        req ⟨.ONGOING, false, false⟩ := by
  unfold executeRequest at h
  split at h
  · rename_i hmem
    split at h
    · cases h
    · rename_i req hreq
      cases h
      exact .inr ⟨req, hmem, hreq, rfl, rfl⟩
  · cases h
    exact .inl ⟨rfl, rfl⟩

theorem noConnection_ok (h : s.noConnection request = .ok (s', out)) :
    (s' = s ∧ out = []) ∨ s.finishedError request = .ok (s', out) := by
  unfold noConnection at h
  split at h
  · split at h
    · cases h
    · exact .inr h
  · cases h
    exact .inl ⟨rfl, rfl⟩

end Results

end DownloadSystem

end GBerry.Comms
