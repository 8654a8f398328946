import GBerry.Foundation.Action
import GBerry.Foundation.Alternation

/-!
# `ServerConnectionImpl`

The connection of the mobile client to a server is a loop of pings: each answer
starts a timer, and the timer sends the next ping.  The pings in flight and the
timers that run are part of the state.  Closing stops neither of them.
-/

namespace GBerry.Lib

open GBerry.Foundation

structure ServerConnectionImpl where
  connected : Bool
  enabled : Bool
  /-- The pings in flight. -/
  pings : Nat
  /-- The ping timers that run. -/
  timers : Nat
  deriving DecidableEq

inductive ServerConnectionEvent where
  | open'
  | close
  | pingReady
  | pingError
  | pingTimerTriggered
  deriving DecidableEq

inductive ServerConnectionOutput where
  | getOperation (path : String)
  | singleshotTimer (interval_ms : Nat)
  | pingOK
  | pingFailure
  | connected
  | disconnected
  deriving DecidableEq

namespace ServerConnectionImpl

abbrev ServerConnectionAction := Action ServerConnectionImpl ServerConnectionOutput

abbrev History :=
  List (Step ServerConnectionImpl ServerConnectionEvent ServerConnectionOutput)

def pingInterval_ms : Nat := 1000

def start : ServerConnectionImpl where
  connected := false
  enabled := false
  pings := 0
  timers := 0

def ping : ServerConnectionAction := fun c =>
  ({ c with pings := c.pings + 1 }, [.getOperation "/ping"])

def open' : ServerConnectionAction :=
  (Action.modify fun c => { c with enabled := true }).andThen ping

/-- The timer of the next ping is not stopped. -/
def close : ServerConnectionAction :=
  .modify fun c => { c with enabled := false, connected := false }

def singleshotTimer : ServerConnectionAction := fun c =>
  if c.enabled then ({ c with timers := c.timers + 1 }, [.singleshotTimer pingInterval_ms])
  else (c, [])

def pingReady : ServerConnectionAction :=
  (Action.emit .pingOK).andThen
    (Action.andThen
      (fun c =>
        if c.enabled && !c.connected then ({ c with connected := true }, [.connected])
        else (c, []))
      singleshotTimer)

def pingError : ServerConnectionAction :=
  (Action.emit .pingFailure).andThen
    (Action.andThen
      (fun c =>
        if c.enabled && c.connected then ({ c with connected := false }, [.disconnected])
        else (c, []))
      singleshotTimer)

def pingTimerTriggered : ServerConnectionAction := fun c =>
  if c.enabled then ping c else (c, [])

def handle : ServerConnectionEvent → ServerConnectionAction
  | .open' => open'
  | .close => close
  | .pingReady => fun c =>
      if c.pings = 0 then (c, []) else pingReady { c with pings := c.pings - 1 }
  | .pingError => fun c =>
      if c.pings = 0 then (c, []) else pingError { c with pings := c.pings - 1 }
  | .pingTimerTriggered => fun c =>
      if c.timers = 0 then (c, []) else pingTimerTriggered { c with timers := c.timers - 1 }

def machine :
    Machine ServerConnectionImpl ServerConnectionEvent ServerConnectionOutput Empty :=
  Action.machine start handle

def pending (c : ServerConnectionImpl) : Nat := c.pings + c.timers

def status : ServerConnectionOutput → Option Bool
  | .connected => some true
  | .disconnected => some false
  | _ => none

def enables (st : Step ServerConnectionImpl ServerConnectionEvent ServerConnectionOutput) :
    Bool :=
  st.label = .open' && !st.pre.enabled

/-- The signals `connected` and `disconnected` since the connection was enabled. -/
def statuses (history : History) : List Bool := (since enables history).filterMap status

/-- There is at most one ping or timer, exactly one while the connection is enabled. -/
structure OneLoop (history : History) (c : ServerConnectionImpl) : Prop where
  pending_le : c.pending ≤ 1
  pending_eq : c.enabled = true → c.pending = 1
  alternates : Alternates (statuses history)

/-- No ping is in flight and no timer runs when the connection is opened. -/
def OpensIdle (st : Step ServerConnectionImpl ServerConnectionEvent ServerConnectionOutput) :
    Prop :=
  st.label = .open' → st.pre.pending = 0

section Steps

variable {c : ServerConnectionImpl} {history : History}

inductive Change (c : ServerConnectionImpl) :
    ServerConnectionEvent → List Bool → ServerConnectionImpl → Prop
  | opened : Change c .open' []
      { c with enabled := true, pings := c.pings + 1 }
  | closed : Change c .close [] { c with enabled := false, connected := false }
  | ignored {event : ServerConnectionEvent} : event ≠ .open' → Change c event [] c
  | answered {event : ServerConnectionEvent} (connected : Bool) : event ≠ .open' →
      0 < c.pings → c.enabled = true →
      Change c event (report c.connected connected)
        { c with connected := connected, pings := c.pings - 1, timers := c.timers + 1 }
  | answeredLate {event : ServerConnectionEvent} : event ≠ .open' → 0 < c.pings →
      c.enabled = false → Change c event [] { c with pings := c.pings - 1 }
  | triggered : 0 < c.timers → c.enabled = true → Change c .pingTimerTriggered []
      { c with pings := c.pings + 1, timers := c.timers - 1 }
  | triggeredLate : 0 < c.timers → c.enabled = false → Change c .pingTimerTriggered []
      { c with timers := c.timers - 1 }

theorem pingReady_change (h : 0 < c.pings) :
    Change c .pingReady
      ((pingReady { c with pings := c.pings - 1 }).2.filterMap status)
      (pingReady { c with pings := c.pings - 1 }).1 := by
  obtain ⟨connected, enabled, pings, timers⟩ := c
  cases enabled with
  | false => exact .answeredLate (by decide) h rfl
  | true =>
      have hanswered : Change ⟨connected, true, pings, timers⟩ .pingReady (report connected true)
          ⟨true, true, pings - 1, timers + 1⟩ := .answered true (by decide) h rfl
      cases connected <;> exact hanswered

theorem pingError_change (h : 0 < c.pings) :
    Change c .pingError
      ((pingError { c with pings := c.pings - 1 }).2.filterMap status)
      (pingError { c with pings := c.pings - 1 }).1 := by
  obtain ⟨connected, enabled, pings, timers⟩ := c
  cases enabled with
  | false => cases connected <;> exact .answeredLate (by decide) h rfl
  | true =>
      have hanswered : Change ⟨connected, true, pings, timers⟩ .pingError (report connected false)
          ⟨false, true, pings - 1, timers + 1⟩ := .answered false (by decide) h rfl
      cases connected <;> exact hanswered

theorem handle_change (c : ServerConnectionImpl) (event : ServerConnectionEvent) :
    Change c event ((handle event c).2.filterMap status) (handle event c).1 := by
  cases event with
  | open' => exact .opened
  | close => exact .closed
  | pingReady =>
      by_cases h : c.pings = 0
      · simp only [handle, if_pos h]
        exact .ignored (by decide)
      · simp only [handle, if_neg h]
        exact pingReady_change (Nat.pos_of_ne_zero h)
  | pingError =>
      by_cases h : c.pings = 0
      · simp only [handle, if_pos h]
        exact .ignored (by decide)
      · simp only [handle, if_neg h]
        exact pingError_change (Nat.pos_of_ne_zero h)
  | pingTimerTriggered =>
      by_cases h : c.timers = 0
      · simp only [handle, if_pos h]
        exact .ignored (by decide)
      · simp only [handle, if_neg h]
        unfold pingTimerTriggered
        split
        · rename_i henabled
          exact .triggered (Nat.pos_of_ne_zero h) henabled
        · rename_i henabled
          exact .triggeredLate (Nat.pos_of_ne_zero h) (eq_false_of_ne_true henabled)

theorem statuses_cons
    (st : Step ServerConnectionImpl ServerConnectionEvent ServerConnectionOutput) :
    statuses (st :: history) =
      (if enables st then [] else statuses history) ++ st.out.filterMap status := by
  unfold statuses
  cases h : enables st with
  | false => simp [since_cons_unmarked h]
  | true => simp [since_cons_marked h]

end Steps

section Runs

variable {history : History} {c : ServerConnectionImpl}

structure Told (signals : List Bool) (c : ServerConnectionImpl) : Prop where
  alternates : Alternates signals
  enabled : c.enabled = true → reported signals = c.connected
  disabled : c.enabled = false → c.connected = false

theorem Told.change {signals told : List Bool} {event : ServerConnectionEvent}
    {c' : ServerConnectionImpl} (h : Told signals c) (hchange : Change c event told c') :
    Told ((if event = .open' && !c.enabled then [] else signals) ++ told) c' := by
  cases hchange with
  | opened =>
      cases henabled : c.enabled with
      | false => exact ⟨.singleton _, fun _ => (h.disabled henabled).symm, nofun⟩
      | true => simpa using ⟨h.alternates, fun _ => h.enabled henabled, nofun⟩
  | closed => simpa using ⟨h.alternates, nofun, fun _ => rfl⟩
  | ignored hevent => simpa [hevent] using h
  | answered connected hevent hpings henabled =>
      rw [← h.enabled henabled]
      simp only [hevent, decide_false, Bool.false_and, Bool.false_eq_true, if_false]
      exact ⟨h.alternates.append connected, fun _ => reported_append connected,
        fun hdisabled => absurd henabled (ne_true_of_eq_false hdisabled)⟩
  | answeredLate hevent => simpa [hevent] using ⟨h.alternates, h.enabled, h.disabled⟩
  | triggered => simpa using ⟨h.alternates, h.enabled, h.disabled⟩
  | triggeredLate => simpa using ⟨h.alternates, h.enabled, h.disabled⟩

theorem told_of_execution (h : Execution machine history c) : Told (statuses history) c := by
  refine h.invariant (I := fun history c => Told (statuses history) c) ?_ ?_
  · exact ⟨.singleton _, nofun, fun _ => rfl⟩
  · intro older c c' event out _ htold hstep
    obtain ⟨rfl, rfl⟩ := Action.machine_step hstep
    rw [statuses_cons]
    exact htold.change (handle_change c event)

theorem Change.pending_iff {told : List Bool} {event : ServerConnectionEvent}
    {c' : ServerConnectionImpl} (hchange : Change c event told c') (hle : c.pending ≤ 1)
    (heq : c.enabled = true → c.pending = 1) :
    (c'.pending ≤ 1 ∧ (c'.enabled = true → c'.pending = 1)) ↔
      (event = .open' → c.pending = 0) := by
  unfold pending at *
  cases hchange with
  | opened => simp; omega
  | closed => simp; omega
  | ignored hevent => simp [hevent, hle]; exact heq
  | answered connected hevent hpings henabled =>
      have hone := heq henabled
      simp [hevent]; omega
  | answeredLate hevent hpings henabled => simp [hevent, henabled]; omega
  | triggered htimers henabled =>
      have hone := heq henabled
      simp; omega
  | triggeredLate htimers henabled => simp [henabled]; omega

/-- There is one loop of pings as long as the connection is opened when there is none. -/
theorem oneLoop_iff (h : Execution machine history c) :
    Execution.Always machine OneLoop history ↔ ∀ st ∈ history, OpensIdle st := by
  refine Execution.always_iff ?_ ?_ h
  · exact ⟨by decide, nofun, .singleton _⟩
  · intro older c c' event out hexec hloop hstep
    have htold := (told_of_execution (hexec.next hstep)).alternates
    obtain ⟨rfl, rfl⟩ := Action.machine_step hstep
    rw [OpensIdle, ← (handle_change c event).pending_iff hloop.pending_le hloop.pending_eq]
    constructor
    · intro hafter
      exact ⟨hafter.pending_le, hafter.pending_eq⟩
    · rintro ⟨hle, heq⟩
      exact ⟨hle, heq, htold⟩

end Runs

/-- The connection is closed and opened again before its timer has fired. -/
def reopenEarly : List ServerConnectionEvent := [.open', .pingReady, .close, .open']

/-- Although it is opened only when it is closed, a ping and a timer are pending at once. -/
theorem two_loops_reopenEarly :
    let run := Action.trace start handle reopenEarly
    (∀ st ∈ run.1, st.label = .open' → st.pre.enabled = false) ∧
      run.2.pending = 2 ∧ ¬ Execution.Always machine OneLoop run.1 := by
  refine ⟨by decide, rfl, ?_⟩
  intro halways
  have hloop := halways _ _ List.suffix_rfl (Action.trace_execution start handle reopenEarly)
  exact absurd hloop.pending_le (by decide)

def reopenLate : List ServerConnectionEvent :=
  [.open', .pingReady, .close, .pingTimerTriggered, .open', .pingReady]

theorem oneLoop_iff_reopenLate :
    Execution.Always machine OneLoop (Action.trace start handle reopenLate).1 :=
  (oneLoop_iff (Action.trace_execution start handle reopenLate)).mpr (by
    unfold OpensIdle
    decide)

end ServerConnectionImpl

end GBerry.Lib
