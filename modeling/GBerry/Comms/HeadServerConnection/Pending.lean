import GBerry.Comms.HeadServerConnection

/-!
# What keeps the connection going

The main loop is continued by timers, by pings and by invocations.  An invocation
that fails with an ordinary error continues nothing, so that it has to leave
something else behind.
-/

namespace GBerry.Comms.HeadServerConnection

open GBerry.Foundation

/-- Something is pending that will continue the main loop. -/
def Pending (c : HeadServerConnection) : Prop :=
  0 < c.timers ∨ 0 < c.pings ∨ c.invocations ≠ []

instance : DecidablePred Pending :=
  fun c => inferInstanceAs (Decidable (0 < c.timers ∨ 0 < c.pings ∨ c.invocations ≠ []))

/-- The object waits for a ping only while one is in flight. -/
def WaitsForPing (c : HeadServerConnection) : Prop :=
  c.pingState = .SENT_AND_WAITING → 0 < c.pings

abbrev always : Nat → Bool := fun _ => true

def Continues (action : ConnectionAction) : Prop :=
  ∀ c, WaitsForPing c → WaitsForPing (action c).1 ∧ (Pending c → Pending (action c).1)

def Starts (action : ConnectionAction) : Prop :=
  ∀ c, WaitsForPing c → Pending (action c).1

section Actions

variable {first next action : ConnectionAction}

theorem Continues.skip : Continues Action.skip := fun _ hc => ⟨hc, id⟩

theorem Continues.emit (signal : ConnectionSignal) : Continues (Action.emit signal) :=
  fun _ hc => ⟨hc, id⟩

theorem Continues.andThen (hfirst : Continues first) (hnext : Continues next) :
    Continues (first.andThen next) := by
  intro c hc
  obtain ⟨hmiddle, hkeeps⟩ := hfirst c hc
  obtain ⟨hlast, hkeeps'⟩ := hnext (first c).1 hmiddle
  exact ⟨hlast, fun hpending => hkeeps' (hkeeps hpending)⟩

theorem Continues.times (haction : Continues action) (n : Nat) :
    Continues (action.times n) :=
  Action.times_of (P := Continues) .skip haction.andThen n

theorem Continues.forEach {α : Type} {action : α → ConnectionAction}
    (haction : ∀ a, Continues (action a)) (l : List α) :
    Continues (Action.forEach action l) :=
  Action.forEach_of (P := Continues) .skip (fun a => (haction a).andThen) l

theorem Continues.andThen_starts (hfirst : Continues first) (hnext : Starts next) :
    Starts (first.andThen next) := by
  intro c hc
  exact hnext (first c).1 (hfirst c hc).1

theorem Starts.andThen (hfirst : Starts first) (hcontinues : Continues first)
    (hnext : Continues next) : Starts (first.andThen next) := by
  intro c hc
  obtain ⟨hmiddle, -⟩ := hcontinues c hc
  exact (hnext (first c).1 hmiddle).2 (hfirst c hc)

theorem Starts.times (haction : Starts action) (hcontinues : Continues action) {n : Nat}
    (hn : 0 < n) : Starts (action.times n) := by
  cases n with
  | zero => omega
  | succ n => exact haction.andThen hcontinues (hcontinues.times n)

end Actions

section Source

theorem ping_pending (c : HeadServerConnection) :
    WaitsForPing (ping always c).1 ∧ Pending (ping always c).1 :=
  ⟨fun _ => Nat.succ_pos _, .inr (.inl (Nat.succ_pos _))⟩

theorem doMainStateLoop_pending {c : HeadServerConnection} (hc : WaitsForPing c) :
    WaitsForPing (doMainStateLoop always c).1 ∧ Pending (doMainStateLoop always c).1 := by
  unfold doMainStateLoop
  split
  · rename_i hsent
    exact ⟨hc, .inr (.inl (hc hsent))⟩
  split
  · exact ⟨hc, .inr (.inr (by simp [executeRequest]))⟩
  · exact ⟨hc, .inl (Nat.succ_pos _)⟩

theorem makeRequest_pending {c : HeadServerConnection} (hc : WaitsForPing c) :
    WaitsForPing (makeRequest always c).1 ∧ Pending (makeRequest always c).1 := by
  unfold makeRequest
  split
  · exact ping_pending c.enqueue
  · exact doMainStateLoop_pending hc

theorem makeRequest_continues : Continues (makeRequest always) := by
  intro c hc
  obtain ⟨hwaits, hpending⟩ := makeRequest_pending hc
  exact ⟨hwaits, fun _ => hpending⟩

theorem react_continues (signal : ConnectionSignal) (requests : Nat) :
    Continues (react always signal requests) :=
  (Continues.emit signal).andThen (makeRequest_continues.times requests)

theorem react_starts (signal : ConnectionSignal) {requests : Nat} (h : 0 < requests) :
    Starts (react always signal requests) := by
  have hmakes : Starts (makeRequest always) := fun c hc => (makeRequest_pending hc).2
  exact (Continues.emit signal).andThen_starts (hmakes.times makeRequest_continues h)

theorem onPingReady_pending (reactions : Reactions) (c : HeadServerConnection) :
    WaitsForPing (onPingReady always reactions c).1 ∧
      Pending (onPingReady always reactions c).1 := by
  have hidle : WaitsForPing
      { c with connectionState := .CONNECTED, pingState := .IDLE_WAITING } := by
    rintro ⟨⟩
  unfold onPingReady
  simp only
  split
  · exact doMainStateLoop_pending
      (react_continues .connected reactions.connected _ hidle).1
  · exact doMainStateLoop_pending hidle

theorem onPingError_pending (reactions : Reactions) (c : HeadServerConnection) :
    WaitsForPing (onPingError always reactions c).1 ∧
      Pending (onPingError always reactions c).1 := by
  have hidle : WaitsForPing
      { c with connectionState := .NOT_CONNECTED, pingState := .IDLE_WAITING } := by
    rintro ⟨⟩
  have hfails : Continues (failWaitingRequests always reactions) := fun c hc =>
    Continues.forEach (fun request =>
      react_continues (.finishedError request .NO_CONNECTION) (reactions.finished request))
      c.requestQueue c hc
  have hfailed := (hfails _ hidle).1
  unfold onPingError
  simp only
  split
  · exact doMainStateLoop_pending
      (react_continues .disconnected reactions.disconnected _ hfailed).1
  · exact doMainStateLoop_pending hfailed

theorem requestFailed_pending {c : HeadServerConnection} (hc : WaitsForPing c)
    (request : Nat) (statusCode : InvocationStatus) (reactions : Reactions) :
    WaitsForPing (requestFailed always request statusCode reactions c).1 ∧
      (Pending (requestFailed always request statusCode reactions c).1 ↔
        losesConnection statusCode = true ∨ 0 < reactions.finished request ∨
          Pending c) := by
  have hreact := react_continues (.finishedError request .INVOCATION_FAILED)
    (reactions.finished request) c hc
  unfold requestFailed
  split
  · rename_i hloses
    obtain ⟨hwaits, hpending⟩ := ping_pending (react always
      (.finishedError request .INVOCATION_FAILED) (reactions.finished request) c).1
    exact ⟨hwaits, iff_of_true hpending (.inl hloses)⟩
  · rename_i hloses
    refine ⟨hreact.1, ?_⟩
    constructor
    · intro hpending
      cases hrequests : reactions.finished request with
      | zero =>
          rw [hrequests] at hpending
          exact .inr (.inr hpending)
      | succ n => exact .inr (.inl (Nat.succ_pos n))
    · rintro (h | h | h)
      · exact absurd h hloses
      · exact react_starts _ h c hc
      · exact hreact.2 h

end Source

/-- What the event leaves pending, if it is a request that fails in earnest. -/
def LeavesPending (c : HeadServerConnection) : ConnectionEvent → Prop
  | .requestFinishedError request statusCode reactions =>
      request ∈ c.invocations →
        losesConnection statusCode = true ∨ 0 < reactions.finished request ∨
          Pending { c with invocations := c.invocations.erase request }
  | _ => True

theorem handle_waitsForPing {c : HeadServerConnection} (hc : WaitsForPing c)
    (event : ConnectionEvent) : WaitsForPing (handle always event c).1 := by
  cases event with
  | makeRequest => exact (makeRequest_pending hc).1
  | pingFinishedOK reactions =>
      simp only [handle]
      split
      · exact hc
      · exact (onPingReady_pending reactions _).1
  | pingFinishedError reactions =>
      simp only [handle]
      split
      · exact hc
      · exact (onPingError_pending reactions _).1
  | timeout =>
      simp only [handle, pingIntervalCheck]
      split
      · exact hc
      split
      · exact hc
      · exact (ping_pending _).1
  | requestFinishedOK request reactions =>
      simp only [handle]
      split
      · exact (onPingReady_pending reactions _).1
      · exact hc
  | requestFinishedError request statusCode reactions =>
      simp only [handle]
      split
      · have herased : WaitsForPing
            { c with invocations := c.invocations.erase request } := hc
        exact (requestFailed_pending herased request statusCode reactions).1
      · exact hc

theorem handle_pending {c : HeadServerConnection} (hc : WaitsForPing c)
    (hpending : Pending c) (event : ConnectionEvent) :
    Pending (handle always event c).1 ↔ LeavesPending c event := by
  cases event with
  | makeRequest => exact iff_of_true (makeRequest_pending hc).2 trivial
  | pingFinishedOK reactions =>
      refine iff_of_true ?_ trivial
      simp only [handle]
      split
      · exact hpending
      · exact (onPingReady_pending reactions _).2
  | pingFinishedError reactions =>
      refine iff_of_true ?_ trivial
      simp only [handle]
      split
      · exact hpending
      · exact (onPingError_pending reactions _).2
  | timeout =>
      refine iff_of_true ?_ trivial
      simp only [handle, pingIntervalCheck]
      split
      · exact hpending
      split
      · rename_i hsent
        exact .inr (.inl (hc hsent))
      · exact (ping_pending _).2
  | requestFinishedOK request reactions =>
      refine iff_of_true ?_ trivial
      simp only [handle]
      split
      · exact (onPingReady_pending reactions _).2
      · exact hpending
  | requestFinishedError request statusCode reactions =>
      simp only [handle, LeavesPending]
      split
      · rename_i hmem
        have herased : WaitsForPing
            { c with invocations := c.invocations.erase request } := hc
        rw [(requestFailed_pending herased request statusCode reactions).2]
        exact ⟨fun h _ => h, fun h => h hmem⟩
      · rename_i hmem
        exact iff_of_true hpending fun h => absurd h hmem

variable {history : List (Step HeadServerConnection ConnectionEvent ConnectionSignal)}
  {c : HeadServerConnection}

theorem waitsForPing_of_execution (h : Execution (openedMachine always) history c) :
    WaitsForPing c := by
  refine h.state_invariant (ping_pending start).1 ?_
  intro c c' event out hc hstep
  obtain ⟨rfl, -⟩ := Action.machine_step hstep
  exact handle_waitsForPing hc event

/-- Something is pending throughout a run exactly when every step leaves it so. -/
theorem pending_iff_leavesPending (h : Execution (openedMachine always) history c) :
    Execution.Always (openedMachine always) (fun _ c => Pending c) history ↔
      ∀ st ∈ history, LeavesPending st.pre st.label := by
  refine h.always_iff (C := fun st => LeavesPending st.pre st.label)
    (ping_pending start).2 ?_
  intro history c c' event out hexec hpending hstep
  obtain ⟨rfl, -⟩ := Action.machine_step hstep
  exact handle_pending (waitsForPing_of_execution hexec) hpending event

def failsWithTimer : List ConnectionEvent :=
  [.pingFinishedOK ⟨0, 0, fun _ => 0⟩, .makeRequest,
    .requestFinishedError 0 .ERROR ⟨0, 0, fun _ => 0⟩]

theorem pending_failsWithTimer :
    let run := Action.trace (opened always) (handle always) failsWithTimer
    Execution.Always (openedMachine always) (fun _ c => Pending c) run.1 := by
  refine (pending_iff_leavesPending
    (Action.trace_execution (opened always) (handle always) failsWithTimer)).mpr ?_
  intro st hst
  simp only [Action.trace, failsWithTimer, Action.traceFrom, List.mem_cons,
    List.not_mem_nil, or_false] at hst
  rcases hst with rfl | rfl | rfl
  · intro _
    exact .inr (.inr (by decide))
  · trivial
  · trivial

/-- Two requests wait for a ping, and the first of them fails in earnest. -/
def failsAlone : List ConnectionEvent :=
  [.pingFinishedOK ⟨0, 0, fun _ => 0⟩, .timeout, .makeRequest, .makeRequest,
    .pingFinishedOK ⟨0, 0, fun _ => 0⟩,
    .requestFinishedError 0 .ERROR ⟨0, 0, fun _ => 0⟩]

theorem failsAlone_strands :
    ∃ history c, Execution (openedMachine always) history c ∧
      ¬ Pending c ∧ c.requestQueue = [1] := by
  refine ⟨_, _,
    Action.trace_execution (opened always) (handle always) failsAlone, ?_, ?_⟩
  · decide
  · decide

end GBerry.Comms.HeadServerConnection
