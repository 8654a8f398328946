import GBerry.Foundation.Action

/-!
# `HeadServerConnection`

The connection to the head server, with its queue of requests.  A request is
known by its number in the order of the calls of `makeRequest`.  What is pending
outside the object is part of the state: the pings and the requests whose
invocation is in flight, and the timers that run.

The receivers of the signals, and the requests themselves, may make new requests
while they are called; how many is part of the event.  Whether the n-th
invocation that is asked for is returned is a parameter of the model.
-/

namespace GBerry.Comms

open GBerry.Foundation

inductive ConnectionState where
  | NOT_CONNECTED
  | CONNECTED
  deriving DecidableEq

inductive PingState where
  | IDLE_WAITING
  | SENT_AND_WAITING
  deriving DecidableEq

inductive InvocationStatus where
  | NOT_STARTED
  | INVALID_INVOCATION
  | ONGOING
  | CONNECTION_FAILED
  | TIMEOUT_OCCURRED
  | ERROR
  | RESPONSE_RECEIVED
  | FINISHED
  deriving DecidableEq

inductive RequestError where
  | NO_CONNECTION
  | INVOCATION_FAILED
  deriving DecidableEq

inductive ConnectionSignal where
  | connected
  | disconnected
  | prepareInvocation (request : Nat)
  | finishedOk (request : Nat)
  | finishedError (request : Nat) (error : RequestError)
  deriving DecidableEq

structure HeadServerConnection where
  connectionState : ConnectionState
  pingState : PingState
  requestQueue : List Nat
  /-- The number of the next request. -/
  made : Nat
  /-- How many invocations have been asked for. -/
  asked : Nat
  /-- The pings in flight. -/
  pings : Nat
  /-- The ping-interval timers that run. -/
  timers : Nat
  /-- The requests whose invocation is in flight. -/
  invocations : List Nat
  deriving DecidableEq

/-- How many requests are made while a signal or a request is being handled. -/
structure Reactions where
  connected : Nat
  disconnected : Nat
  finished : Nat → Nat

inductive ConnectionEvent where
  | makeRequest
  | pingFinishedOK (reactions : Reactions)
  | pingFinishedError (reactions : Reactions)
  | timeout
  | requestFinishedOK (request : Nat) (reactions : Reactions)
  | requestFinishedError (request : Nat) (statusCode : InvocationStatus)
      (reactions : Reactions)

namespace HeadServerConnection

def start : HeadServerConnection where
  connectionState := .NOT_CONNECTED
  pingState := .IDLE_WAITING
  requestQueue := []
  made := 0
  asked := 0
  pings := 0
  timers := 0
  invocations := []

def isConnected (c : HeadServerConnection) : Bool :=
  c.connectionState = .CONNECTED

abbrev ConnectionAction := Action HeadServerConnection ConnectionSignal

section Source

variable (obtains : Nat → Bool)

def ping : ConnectionAction := fun c =>
  if obtains c.asked then
    ({ c with
        asked := c.asked + 1
        pings := c.pings + 1
        pingState := .SENT_AND_WAITING }, [])
  else ({ c with asked := c.asked + 1 }, [])

/-- Without an invocation the request is forgotten. -/
def executeRequest (request : Nat) : ConnectionAction := fun c =>
  if obtains c.asked then
    ({ c with asked := c.asked + 1, invocations := c.invocations ++ [request] },
      [.prepareInvocation request])
  else ({ c with asked := c.asked + 1 }, [.prepareInvocation request])

def singleshotTimer : ConnectionAction :=
  .modify fun c => { c with timers := c.timers + 1 }

def doMainStateLoop : ConnectionAction := fun c =>
  if c.pingState = .SENT_AND_WAITING then (c, [])
  else
    match c.connectionState, c.requestQueue with
    | .CONNECTED, request :: rest =>
        executeRequest obtains request { c with requestQueue := rest }
    | _, _ => singleshotTimer c

def enqueue (c : HeadServerConnection) : HeadServerConnection :=
  { c with requestQueue := c.requestQueue ++ [c.made], made := c.made + 1 }

def makeRequest : ConnectionAction := fun c =>
  if c.connectionState = .NOT_CONNECTED then ping obtains c.enqueue
  else doMainStateLoop obtains c.enqueue

def react (signal : ConnectionSignal) (requests : Nat) : ConnectionAction :=
  (Action.emit signal).andThen ((makeRequest obtains).times requests)

def onPingReady (reactions : Reactions) : ConnectionAction := fun c =>
  let established := { c with connectionState := .CONNECTED, pingState := .IDLE_WAITING }
  if c.connectionState = .NOT_CONNECTED then
    ((react obtains .connected reactions.connected).andThen
      (doMainStateLoop obtains)) established
  else doMainStateLoop obtains established

/-- `requestQueue.empty()` asks whether the queue is empty, and removes nothing. -/
def failWaitingRequests (reactions : Reactions) : ConnectionAction := fun c =>
  Action.forEach (fun request =>
    react obtains (.finishedError request .NO_CONNECTION) (reactions.finished request))
    c.requestQueue c

def onPingError (reactions : Reactions) : ConnectionAction := fun c =>
  let lost := { c with connectionState := .NOT_CONNECTED, pingState := .IDLE_WAITING }
  ((failWaitingRequests obtains reactions).andThen
    ((if c.connectionState = .CONNECTED then
        react obtains .disconnected reactions.disconnected
      else Action.skip).andThen
        (doMainStateLoop obtains))) lost

def pingIntervalCheck : ConnectionAction := fun c =>
  if c.pingState = .SENT_AND_WAITING then (c, []) else ping obtains c

def requestReady (request : Nat) (reactions : Reactions) : ConnectionAction :=
  (react obtains (.finishedOk request) (reactions.finished request)).andThen
    (onPingReady obtains reactions)

def losesConnection : InvocationStatus → Bool
  | .CONNECTION_FAILED => true
  | .TIMEOUT_OCCURRED => true
  | _ => false

def requestFailed (request : Nat) (statusCode : InvocationStatus)
    (reactions : Reactions) : ConnectionAction :=
  (react obtains (.finishedError request .INVOCATION_FAILED)
    (reactions.finished request)).andThen
      (if losesConnection statusCode then ping obtains else Action.skip)

/-- What is not pending does not happen. -/
def handle : ConnectionEvent → ConnectionAction
  | .makeRequest => makeRequest obtains
  | .pingFinishedOK reactions => fun c =>
      if c.pings = 0 then (c, [])
      else onPingReady obtains reactions { c with pings := c.pings - 1 }
  | .pingFinishedError reactions => fun c =>
      if c.pings = 0 then (c, [])
      else onPingError obtains reactions { c with pings := c.pings - 1 }
  | .timeout => fun c =>
      if c.timers = 0 then (c, [])
      else pingIntervalCheck obtains { c with timers := c.timers - 1 }
  | .requestFinishedOK request reactions => fun c =>
      if request ∈ c.invocations then
        requestReady obtains request reactions
          { c with invocations := c.invocations.erase request }
      else (c, [])
  | .requestFinishedError request statusCode reactions => fun c =>
      if request ∈ c.invocations then
        requestFailed obtains request statusCode reactions
          { c with invocations := c.invocations.erase request }
      else (c, [])

def opened : HeadServerConnection := (ping obtains start).1

def openedMachine :
    Machine HeadServerConnection ConnectionEvent ConnectionSignal Empty :=
  Action.machine (opened obtains) (handle obtains)

/-- `none` is a call of `open`. -/
def perform : Option ConnectionEvent → ConnectionAction
  | none => ping obtains
  | some event => handle obtains event

/-- The runs in which `open` is called at any time, any number of times. -/
def machine :
    Machine HeadServerConnection (Option ConnectionEvent) ConnectionSignal Empty :=
  Action.machine start (perform obtains)

end Source

end HeadServerConnection

end GBerry.Comms
