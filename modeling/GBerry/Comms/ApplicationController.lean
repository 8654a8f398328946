import GBerry.Foundation.Fallible

/-!
# `ApplicationController`

The controller of the process of one application.  The process is a `QProcess`:
it is not running, starting, or running, tells its new state before it tells that
it finished, and ignores `start` unless it is not running.  The log messages of the
source use the application, so a controller without one fails there.
-/

namespace GBerry.Comms

open GBerry.Foundation

/-- What launching and exiting use of an `Application` and its `ApplicationMeta`. -/
structure Application where
  applicationId : String
  version : String
  deriving DecidableEq

def Application.id (app : Application) : String :=
  app.applicationId ++ "-" ++ app.version

inductive ProcessState where
  | NotRunning
  | Starting
  | Running
  deriving DecidableEq

inductive CurrentAction where
  | NONE
  | LAUNCHING
  | RESUMING
  | STOPPING
  deriving DecidableEq

inductive ControllerFault where
  | nullApplication
  deriving DecidableEq

inductive ControllerSignal where
  | launched
  | launchFailed
  | paused
  | resumed
  | stopped
  | died
  /-- `prepare` has a code made for an id, and gives it to the process. -/
  | prepared (app : Application) (appId : String) (elapsed : Int)
  /-- The program of the application is started. -/
  | started (app : Application)
  | killed
  deriving DecidableEq

structure ApplicationController where
  app : Option Application
  process : ProcessState
  currentAction : CurrentAction
  running : Bool
  simulated : Bool
  timerCalledCounterForWaitingProcessToStopRunning : Nat
  /-- The timers that will call `relaunchAfterDelay`. -/
  relaunchTimers : Nat
  deriving DecidableEq

/-- Whether `prepare` succeeds, and what the clock says when it makes the code. -/
structure LaunchAttempt where
  prepared : Bool
  elapsed : Int

/-- The changes of a `QProcess` that were not asked for in the same call. -/
inductive ProcessEvent where
  | running
  | failsToStart
  | finished
  deriving DecidableEq

abbrev ControllerProgram :=
  Fallible ApplicationController ControllerSignal ControllerFault

open Fallible

/-- `ApplicationExecutionSetup::prepare` makes the code for the id without version. -/
def ApplicationExecutionSetup.prepare (app : Application) (attempt : LaunchAttempt) :
    Option ControllerSignal :=
  if attempt.prepared then some (.prepared app app.applicationId attempt.elapsed)
  else none

namespace ApplicationController

def start (app : Option Application) (simulated : Bool) : ApplicationController where
  app := app
  process := .NotRunning
  currentAction := .NONE
  running := false
  simulated := simulated
  timerCalledCounterForWaitingProcessToStopRunning := 0
  relaunchTimers := 0

/-- The application is used, if only by a log message. -/
def withApplication (next : Application → ControllerProgram) : ControllerProgram :=
  fun c =>
    match c.app with
    | none => .error .nullApplication
    | some app => next app c

def onProcessStateChanged (processState : ProcessState) : ControllerProgram :=
  withApplication fun _ c =>
    if c.currentAction = .LAUNCHING then
      match processState with
      | .Running => .ok ({ c with currentAction := .NONE, running := true }, [.launched])
      | .Starting => .ok (c, [])
      | .NotRunning => .ok ({ c with currentAction := .NONE }, [.launchFailed])
    else .ok (c, [])

def onProcessFinished : ControllerProgram :=
  withApplication fun _ c =>
    .ok ({ c with
        currentAction := .NONE
        running := false
        timerCalledCounterForWaitingProcessToStopRunning := 0 },
      if c.running ∧ c.currentAction ≠ .STOPPING then [.died]
      else if c.currentAction = .STOPPING then [.stopped]
      else [])

def setProcessState (processState : ProcessState) : ControllerProgram :=
  (update fun c => { c with process := processState }).andThen
    (onProcessStateChanged processState)

def startProcess (app : Application) : ControllerProgram := fun c =>
  if c.process = .NotRunning then
    (emit [.started app]).andThen (setProcessState .Starting) c
  else .ok (c, [])

def stop : ControllerProgram := fun c =>
  if c.process = .Running then
    withApplication (fun _ c => .ok ({ c with currentAction := .STOPPING }, [.killed])) c
  else .ok (c, [])

def launch (attempt : LaunchAttempt) : ControllerProgram := fun c =>
  if c.simulated then .ok (c, [.launched])
  else if c.currentAction = .STOPPING then
    if c.timerCalledCounterForWaitingProcessToStopRunning = 3 then
      stop.andThen (emit [.launchFailed]) c
    else .ok ({ c with
        relaunchTimers := c.relaunchTimers + 1
        timerCalledCounterForWaitingProcessToStopRunning :=
          c.timerCalledCounterForWaitingProcessToStopRunning + 1 }, [])
  else
    match c.app with
    | none => .ok (c, [.launchFailed])
    | some app =>
        match ApplicationExecutionSetup.prepare app attempt with
        | none => .ok (c, [.launchFailed])
        | some prepared =>
            (emit [prepared]).andThen ((update fun c =>
              { c with currentAction := .LAUNCHING }).andThen (startProcess app)) c

def pause : ControllerProgram := fun c =>
  if c.process = .Running then withApplication (fun _ => emit [.paused]) c else .ok (c, [])

def resume : ControllerProgram := fun c =>
  if c.process = .Running then withApplication (fun _ => emit [.resumed]) c else .ok (c, [])

def setApplication (app : Option Application) : ControllerProgram :=
  update fun c => { c with app := app }

def fullApplicationId (c : ApplicationController) : Except ControllerFault String :=
  match c.app with
  | none => .error .nullApplication
  | some app => .ok app.id

def relaunchAfterDelay (attempt : LaunchAttempt) : ControllerProgram := fun c =>
  if 0 < c.relaunchTimers then
    launch attempt { c with relaunchTimers := c.relaunchTimers - 1 }
  else .ok (c, [])

def processEvent : ProcessEvent → ControllerProgram
  | .running => fun c =>
      if c.process = .Starting then setProcessState .Running c else .ok (c, [])
  | .failsToStart => fun c =>
      if c.process = .Starting then setProcessState .NotRunning c else .ok (c, [])
  | .finished => fun c =>
      if c.process = .Running then
        (setProcessState .NotRunning).andThen onProcessFinished c
      else .ok (c, [])

def KeepsApplication (c c' : ApplicationController) (out : List ControllerSignal) : Prop :=
  c'.app = c.app ∧ ∀ app appId elapsed, .prepared app appId elapsed ∈ out →
    c.app = some app ∧ appId = app.applicationId

theorem keepsApplication_composes : Composes KeepsApplication where
  refl c := ⟨rfl, nofun⟩
  trans := by
    rintro c c' c'' out out' ⟨happ, hprepared⟩ ⟨happ', hprepared'⟩
    refine ⟨happ'.trans happ, ?_⟩
    intro app appId elapsed hmem
    rcases List.mem_append.mp hmem with hfirst | hnext
    · exact hprepared app appId elapsed hfirst
    · exact happ ▸ hprepared' app appId elapsed hnext

section Specification

variable {attempt : LaunchAttempt}

theorem withApplication_ensures {R : ApplicationController → ApplicationController →
    List ControllerSignal → Prop} {next : Application → ControllerProgram}
    (hnext : ∀ app, Ensures R (next app)) : Ensures R (withApplication next) := by
  intro c c' out h
  unfold withApplication at h
  split at h
  · cases h
  · rename_i app _
    exact hnext app c c' out h

theorem onProcessStateChanged_keeps (processState : ProcessState) :
    Ensures KeepsApplication (onProcessStateChanged processState) := by
  refine withApplication_ensures ?_
  intro app c c' out h
  simp only at h
  split at h
  · cases processState with
    | NotRunning =>
        cases h
        exact ⟨rfl, by simp⟩
    | Starting =>
        cases h
        exact ⟨rfl, by simp⟩
    | Running =>
        cases h
        exact ⟨rfl, by simp⟩
  · cases h
    exact ⟨rfl, by simp⟩

theorem onProcessFinished_keeps : Ensures KeepsApplication onProcessFinished := by
  refine withApplication_ensures ?_
  intro app c c' out h
  cases h
  refine ⟨rfl, ?_⟩
  intro app appId elapsed hmem
  split at hmem
  · simp at hmem
  · split at hmem
    · simp at hmem
    · cases hmem

theorem setProcessState_keeps (processState : ProcessState) :
    Ensures KeepsApplication (setProcessState processState) := by
  refine .andThen keepsApplication_composes (.update fun c => ⟨rfl, nofun⟩) ?_
  exact onProcessStateChanged_keeps processState

theorem startProcess_keeps (app : Application) :
    Ensures KeepsApplication (startProcess app) := by
  intro c c' out h
  unfold startProcess at h
  split at h
  · have hstart : Ensures KeepsApplication
        ((emit [.started app]).andThen (setProcessState .Starting)) :=
      .andThen keepsApplication_composes (.emit fun c => ⟨rfl, by simp⟩)
        (setProcessState_keeps .Starting)
    exact hstart c c' out h
  · cases h
    exact ⟨rfl, nofun⟩

theorem stop_keeps : Ensures KeepsApplication stop := by
  intro c c' out h
  unfold stop at h
  split at h
  · refine withApplication_ensures ?_ c c' out h
    intro app c c' out h
    cases h
    exact ⟨rfl, by simp⟩
  · cases h
    exact ⟨rfl, nofun⟩

theorem launch_keeps : Ensures KeepsApplication (launch attempt) := by
  intro c c' out h
  unfold launch at h
  split at h
  · cases h
    exact ⟨rfl, by simp⟩
  split at h
  · split at h
    · have hstop : Ensures KeepsApplication (stop.andThen (emit [.launchFailed])) :=
        .andThen keepsApplication_composes stop_keeps (.emit fun c => ⟨rfl, by simp⟩)
      exact hstop c c' out h
    · cases h
      exact ⟨rfl, nofun⟩
  split at h
  · cases h
    exact ⟨rfl, by simp⟩
  rename_i app happ
  unfold ApplicationExecutionSetup.prepare at h
  split at h
  · cases h
    exact ⟨rfl, by simp⟩
  rename_i prepared hprepared
  split at hprepared
  · cases hprepared
    have hstart : Ensures KeepsApplication ((update fun c : ApplicationController =>
        { c with currentAction := .LAUNCHING }).andThen (startProcess app)) :=
      .andThen keepsApplication_composes (.update fun c => ⟨rfl, nofun⟩)
        (startProcess_keeps app)
    obtain ⟨c₁, out₁, out₂, hemit, hstarted, rfl⟩ := andThen_ok h
    cases hemit
    refine keepsApplication_composes.trans ⟨rfl, ?_⟩ (hstart c c' out₂ hstarted)
    intro other appId elapsed hmem
    cases List.mem_singleton.mp hmem
    exact ⟨happ, rfl⟩
  · cases hprepared

theorem pause_keeps : Ensures KeepsApplication pause := by
  intro c c' out h
  unfold pause at h
  split at h
  · exact withApplication_ensures (fun _ => .emit fun c => ⟨rfl, by simp⟩) c c' out h
  · cases h
    exact ⟨rfl, nofun⟩

theorem resume_keeps : Ensures KeepsApplication resume := by
  intro c c' out h
  unfold resume at h
  split at h
  · exact withApplication_ensures (fun _ => .emit fun c => ⟨rfl, by simp⟩) c c' out h
  · cases h
    exact ⟨rfl, nofun⟩

theorem relaunchAfterDelay_keeps : Ensures KeepsApplication (relaunchAfterDelay attempt) := by
  intro c c' out h
  unfold relaunchAfterDelay at h
  split at h
  · have hlaunched := launch_keeps _ c' out h
    exact hlaunched
  · cases h
    exact ⟨rfl, nofun⟩

theorem processEvent_keeps (event : ProcessEvent) :
    Ensures KeepsApplication (processEvent event) := by
  intro c c' out h
  cases event with
  | running =>
      simp only [processEvent] at h
      split at h
      · exact setProcessState_keeps .Running c c' out h
      · cases h
        exact ⟨rfl, nofun⟩
  | failsToStart =>
      simp only [processEvent] at h
      split at h
      · exact setProcessState_keeps .NotRunning c c' out h
      · cases h
        exact ⟨rfl, nofun⟩
  | finished =>
      simp only [processEvent] at h
      split at h
      · exact Ensures.andThen keepsApplication_composes (setProcessState_keeps .NotRunning)
          onProcessFinished_keeps c c' out h
      · cases h
        exact ⟨rfl, nofun⟩

end Specification

end ApplicationController

end GBerry.Comms
