import GBerry.Comms.HeadServerConnection
import GBerry.Foundation.Alternation

/-!
# The status signals

Only a ping that finishes and a request that succeeds set the state of the
connection, and they report it when it changes.  The requests that are made in
the meantime leave it alone.
-/

namespace GBerry.Comms.HeadServerConnection

open GBerry.Foundation

def status : ConnectionSignal → Option Bool
  | .connected => some true
  | .disconnected => some false
  | _ => none

def statuses (signals : List ConnectionSignal) : List Bool := signals.filterMap status

def Tells (told : List Bool) (action : ConnectionAction) : Prop :=
  ∀ c, (action c).1.connectionState = c.connectionState ∧ statuses (action c).2 = told

namespace Tells

variable {told told' : List Bool} {first next action : ConnectionAction}

theorem skip : Tells [] Action.skip := fun _ => ⟨rfl, rfl⟩

theorem andThen (hfirst : Tells told first) (hnext : Tells told' next) :
    Tells (told ++ told') (first.andThen next) := by
  intro c
  obtain ⟨hstate, htold⟩ := hfirst c
  obtain ⟨hstate', htold'⟩ := hnext (first c).1
  refine ⟨hstate'.trans hstate, ?_⟩
  rw [Action.andThen_snd, statuses, List.filterMap_append]
  exact congrArg₂ (· ++ ·) htold htold'

theorem times (haction : Tells [] action) (n : Nat) : Tells [] (action.times n) :=
  Action.times_of (P := Tells []) skip haction.andThen n

theorem forEach {α : Type} {action : α → ConnectionAction}
    (haction : ∀ a, Tells [] (action a)) (l : List α) :
    Tells [] (Action.forEach action l) :=
  Action.forEach_of (P := Tells []) skip (fun a => (haction a).andThen) l

end Tells

variable {obtains : Nat → Bool}

section Silent

theorem ping_tells : Tells [] (ping obtains) := by
  intro c
  unfold ping
  split <;> exact ⟨rfl, rfl⟩

theorem executeRequest_tells (request : Nat) : Tells [] (executeRequest obtains request) := by
  intro c
  unfold executeRequest
  split <;> exact ⟨rfl, rfl⟩

theorem doMainStateLoop_tells : Tells [] (doMainStateLoop obtains) := by
  intro c
  unfold doMainStateLoop
  split
  · exact ⟨rfl, rfl⟩
  split
  · rename_i request rest _ _
    exact executeRequest_tells request { c with requestQueue := rest }
  · exact ⟨rfl, rfl⟩

theorem makeRequest_tells : Tells [] (makeRequest obtains) := by
  intro c
  unfold makeRequest
  split
  · exact ping_tells c.enqueue
  · exact doMainStateLoop_tells c.enqueue

theorem react_tells (signal : ConnectionSignal) (requests : Nat) :
    Tells (statuses [signal]) (react obtains signal requests) := by
  have hemit : Tells (statuses [signal]) (Action.emit signal) := fun c => ⟨rfl, rfl⟩
  have hmade : Tells [] (makeRequest obtains) := makeRequest_tells
  have hreact := hemit.andThen (hmade.times requests)
  rwa [List.append_nil] at hreact

theorem failWaitingRequests_tells (reactions : Reactions) :
    Tells [] (failWaitingRequests obtains reactions) :=
  fun c => Tells.forEach (fun request =>
    react_tells (.finishedError request .NO_CONNECTION) (reactions.finished request))
    c.requestQueue c

theorem pingIntervalCheck_tells : Tells [] (pingIntervalCheck obtains) := by
  intro c
  unfold pingIntervalCheck
  split
  · exact ⟨rfl, rfl⟩
  · exact ping_tells c

theorem requestFailed_tells (request : Nat) (statusCode : InvocationStatus)
    (reactions : Reactions) :
    Tells [] (requestFailed obtains request statusCode reactions) := by
  refine (react_tells (.finishedError request .INVOCATION_FAILED) _).andThen ?_
  split
  · exact ping_tells
  · exact .skip

end Silent

def Reports (action : ConnectionAction) : Prop :=
  ∀ c, statuses (action c).2 = report c.isConnected (action c).1.isConnected

theorem Tells.reports {action : ConnectionAction} (h : Tells [] action) :
    Reports action := by
  intro c
  obtain ⟨hstate, htold⟩ := h c
  rw [htold, isConnected, isConnected, hstate, report, if_pos rfl]

theorem Tells.andThen_reports {first next : ConnectionAction} (hfirst : Tells [] first)
    (hnext : Reports next) : Reports (first.andThen next) := by
  intro c
  obtain ⟨hstate, htold⟩ := hfirst c
  have hreports := hnext (first c).1
  rw [isConnected, hstate] at hreports
  rw [Action.andThen_snd, statuses, List.filterMap_append]
  exact congrArg₂ (· ++ ·) htold hreports

theorem onPingReady_reports (reactions : Reactions) :
    Reports (onPingReady obtains reactions) := by
  intro c
  unfold onPingReady
  simp only
  split
  · rename_i hstate
    have htells : Tells [true] ((react obtains .connected reactions.connected).andThen
        (doMainStateLoop obtains)) := (react_tells _ _).andThen doMainStateLoop_tells
    obtain ⟨hafter, htold⟩ :=
      htells { c with connectionState := .CONNECTED, pingState := .IDLE_WAITING }
    rw [htold, isConnected, isConnected, hafter, hstate]
    rfl
  · rename_i hstate
    have htells : Tells [] (doMainStateLoop obtains) := doMainStateLoop_tells
    obtain ⟨hafter, htold⟩ :=
      htells { c with connectionState := .CONNECTED, pingState := .IDLE_WAITING }
    cases hbefore : c.connectionState with
    | NOT_CONNECTED => exact absurd hbefore hstate
    | CONNECTED =>
        rw [htold, isConnected, isConnected, hafter, hbefore]
        rfl

theorem onPingError_reports (reactions : Reactions) :
    Reports (onPingError obtains reactions) := by
  intro c
  unfold onPingError
  simp only
  split
  · rename_i hstate
    have htells : Tells [false] ((failWaitingRequests obtains reactions).andThen
        ((react obtains .disconnected reactions.disconnected).andThen
          (doMainStateLoop obtains))) :=
      (failWaitingRequests_tells _).andThen ((react_tells _ _).andThen doMainStateLoop_tells)
    obtain ⟨hafter, htold⟩ :=
      htells { c with connectionState := .NOT_CONNECTED, pingState := .IDLE_WAITING }
    rw [htold, isConnected, isConnected, hafter, hstate]
    rfl
  · rename_i hstate
    have htells : Tells [] ((failWaitingRequests obtains reactions).andThen
        (Action.skip.andThen (doMainStateLoop obtains))) :=
      (failWaitingRequests_tells _).andThen (Tells.skip.andThen doMainStateLoop_tells)
    obtain ⟨hafter, htold⟩ :=
      htells { c with connectionState := .NOT_CONNECTED, pingState := .IDLE_WAITING }
    cases hbefore : c.connectionState with
    | CONNECTED => exact absurd hbefore hstate
    | NOT_CONNECTED =>
        rw [htold, isConnected, isConnected, hafter, hbefore]
        rfl

theorem handle_reports (event : ConnectionEvent) : Reports (handle obtains event) := by
  intro c
  cases event with
  | makeRequest => exact makeRequest_tells.reports c
  | pingFinishedOK reactions =>
      simp only [handle]
      split
      · exact Tells.skip.reports c
      · exact onPingReady_reports reactions { c with pings := c.pings - 1 }
  | pingFinishedError reactions =>
      simp only [handle]
      split
      · exact Tells.skip.reports c
      · exact onPingError_reports reactions { c with pings := c.pings - 1 }
  | timeout =>
      simp only [handle]
      split
      · exact Tells.skip.reports c
      · exact pingIntervalCheck_tells.reports { c with timers := c.timers - 1 }
  | requestFinishedOK request reactions =>
      simp only [handle]
      split
      · exact (react_tells (.finishedOk request) _).andThen_reports
          (onPingReady_reports reactions)
          { c with invocations := c.invocations.erase request }
      · exact Tells.skip.reports c
  | requestFinishedError request statusCode reactions =>
      simp only [handle]
      split
      · exact (requestFailed_tells request statusCode reactions).reports
          { c with invocations := c.invocations.erase request }
      · exact Tells.skip.reports c

theorem perform_reports (event : Option ConnectionEvent) :
    Reports (perform obtains event) := by
  cases event with
  | none => exact ping_tells.reports
  | some event => exact handle_reports event

variable {history : List (Step HeadServerConnection (Option ConnectionEvent)
  ConnectionSignal)} {c : HeadServerConnection}

/-- The signals alternate, and `isConnected` tells which one was the last. -/
theorem statuses_alternate (h : Execution (machine obtains) history c) :
    Alternates (statuses (outputs history)) ∧
      (c.isConnected = true ↔ (statuses (outputs history)).getLast? = some true) := by
  have hreports : Alternates (statuses (outputs history)) ∧
      reported (statuses (outputs history)) = c.isConnected := by
    refine execution_reports (M := machine obtains) rfl ?_ h
    intro c c' event out hstep
    obtain ⟨rfl, rfl⟩ := Action.machine_step hstep
    exact perform_reports event c
  refine ⟨hreports.1, ?_⟩
  have hlast := hreports.2
  rw [reported, List.getLastD_eq_getLast?] at hlast
  rw [← hlast]
  cases (statuses (outputs history)).getLast? with
  | none => simp
  | some last => simp

def establishAndLose : List (Option ConnectionEvent) :=
  [none, some (.pingFinishedOK ⟨1, 0, fun _ => 0⟩), some .makeRequest,
    some (.requestFinishedError 0 .TIMEOUT_OCCURRED ⟨0, 0, fun _ => 2⟩),
    some (.pingFinishedError ⟨0, 1, fun _ => 1⟩)]

theorem statuses_establishAndLose :
    let run := Action.trace start (perform fun _ => true) establishAndLose
    Alternates (statuses (outputs run.1)) ∧
      (run.2.isConnected = true ↔ (statuses (outputs run.1)).getLast? = some true) :=
  statuses_alternate (Action.trace_execution start (perform fun _ => true) _)

end GBerry.Comms.HeadServerConnection
