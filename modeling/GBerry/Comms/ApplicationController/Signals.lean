import GBerry.Comms.ApplicationController
import GBerry.Foundation.Alternation

/-!
# The life of a process, as its controller tells it

The calls of a controller that keeps its application, and the events of its process.
The flag `running` is up exactly while the process runs, so that `launched` and the
signals of the end, `died` and `stopped`, take turns.
-/

namespace GBerry.Comms

open GBerry.Foundation
open Fallible

inductive ControllerCall where
  | launch (attempt : LaunchAttempt)
  | stop
  | pause
  | resume
  | relaunchAfterDelay (attempt : LaunchAttempt)
  | processEvent (event : ProcessEvent)

namespace ApplicationController

def perform : ControllerCall → ControllerProgram
  | .launch attempt => launch attempt
  | .stop => stop
  | .pause => pause
  | .resume => resume
  | .relaunchAfterDelay attempt => relaunchAfterDelay attempt
  | .processEvent event => processEvent event

/-- A controller that is not in simulated mode. -/
def machine (app : Option Application) :
    Machine ApplicationController ControllerCall ControllerSignal ControllerFault :=
  Fallible.machine (start app false) perform

abbrev History := List (Step ApplicationController ControllerCall ControllerSignal)

def tells : ControllerSignal → Option Bool
  | .launched => some true
  | .died => some false
  | .stopped => some false
  | _ => none

structure Sound (app : Option Application) (c : ApplicationController) : Prop where
  application : c.app = app
  real : c.simulated = false
  running : c.running = decide (c.process = .Running)
  launching : c.process = .Starting → c.currentAction = .LAUNCHING
  idle : c.process = .NotRunning → c.currentAction = .NONE
  started : c.process ≠ .NotRunning → app.isSome = true
  delayed : 0 < c.relaunchTimers → app.isSome = true

def Telling (app : Option Application) (c : ApplicationController)
    (program : ControllerProgram) : Prop :=
  ∃ c' out, program c = .ok (c', out) ∧ Sound app c' ∧
    out.filterMap tells = report c.running c'.running

section Programs

variable {app : Option Application} {c : ApplicationController} (attempt : LaunchAttempt)

theorem sound_start : Sound app (start app false) where
  application := rfl
  real := rfl
  running := rfl
  launching := by simp [start]
  idle _ := rfl
  started h := absurd rfl h
  delayed h := absurd h (Nat.lt_irrefl 0)

theorem Sound.telling_quiet {program : ControllerProgram} {c' : ApplicationController}
    {out : List ControllerSignal} (hsound : Sound app c') (hprogram : program c = .ok (c', out))
    (hrunning : c'.running = c.running) (hout : out.filterMap tells = []) :
    Telling app c program := by
  refine ⟨c', out, hprogram, hsound, ?_⟩
  rw [hrunning, report_self, hout]

theorem Sound.withApplication (hc : Sound app c) (happ : app.isSome = true)
    (next : Application → ControllerProgram) :
    ∃ a, app = some a ∧ ApplicationController.withApplication next c = next a c := by
  obtain ⟨a, ha⟩ := Option.isSome_iff_exists.mp happ
  refine ⟨a, ha, ?_⟩
  simp only [ApplicationController.withApplication, hc.application.trans ha]

theorem Sound.stopping (hc : Sound app c) (h : c.currentAction = .STOPPING) :
    c.process = .Running := by
  cases hprocess : c.process with
  | NotRunning => cases (hc.idle hprocess).symm.trans h
  | Starting => cases (hc.launching hprocess).symm.trans h
  | Running => rfl

theorem Sound.stop_running (hc : Sound app c) (h : c.process = .Running) :
    stop c = .ok ({ c with currentAction := .STOPPING }, [.killed]) := by
  obtain ⟨a, -, heq⟩ := hc.withApplication (hc.started (by simp [h])) fun _ c =>
    .ok ({ c with currentAction := .STOPPING }, [.killed])
  rw [stop, if_pos h, heq]

theorem stop_notRunning (h : c.process ≠ .Running) : stop c = .ok (c, []) := if_neg h

theorem Sound.kill (hc : Sound app c) (h : c.process = .Running) :
    Sound app { c with currentAction := .STOPPING } where
  application := hc.application
  real := hc.real
  running := hc.running
  launching := by simp [h]
  idle := by simp [h]
  started := hc.started
  delayed := hc.delayed

theorem stop_telling (hc : Sound app c) : Telling app c stop := by
  by_cases h : c.process = .Running
  · exact (hc.kill h).telling_quiet (hc.stop_running h) rfl rfl
  · exact hc.telling_quiet (stop_notRunning h) rfl rfl

theorem Sound.delay (hc : Sound app c) (h : c.currentAction = .STOPPING) (count : Nat) :
    Sound app { c with
      relaunchTimers := c.relaunchTimers + 1
      timerCalledCounterForWaitingProcessToStopRunning := count } where
  application := hc.application
  real := hc.real
  running := hc.running
  launching := hc.launching
  idle := hc.idle
  started := hc.started
  delayed _ := hc.started (by simp [hc.stopping h])

theorem Sound.launchAgain (hc : Sound app c) (h : c.process ≠ .NotRunning) :
    Sound app { c with currentAction := .LAUNCHING } where
  application := hc.application
  real := hc.real
  running := hc.running
  launching _ := rfl
  idle hidle := absurd hidle h
  started := hc.started
  delayed := hc.delayed

theorem Sound.launchNew (hc : Sound app c) (h : c.process = .NotRunning)
    (happ : app.isSome = true) :
    Sound app { c with currentAction := .LAUNCHING, process := .Starting } where
  application := hc.application
  real := hc.real
  running := by simp [hc.running, h]
  launching _ := rfl
  idle := by simp
  started _ := happ
  delayed := hc.delayed

theorem Sound.launch_stopping (hc : Sound app c) (h : c.currentAction = .STOPPING) :
    launch attempt c =
      if c.timerCalledCounterForWaitingProcessToStopRunning = 3 then
        .ok ({ c with currentAction := .STOPPING }, [.killed, .launchFailed])
      else .ok ({ c with
        relaunchTimers := c.relaunchTimers + 1
        timerCalledCounterForWaitingProcessToStopRunning :=
          c.timerCalledCounterForWaitingProcessToStopRunning + 1 }, []) := by
  rw [launch, if_neg (by simp [hc.real]), if_pos h]
  split
  · simp only [andThen, hc.stop_running (hc.stopping h), emit]
    rfl
  · rfl

theorem Sound.launch_failed (hc : Sound app c) (h : c.currentAction ≠ .STOPPING)
    (hfails : app = none ∨ attempt.prepared = false) :
    launch attempt c = .ok (c, [.launchFailed]) := by
  rw [launch, if_neg (by simp [hc.real]), if_neg h, hc.application]
  cases app with
  | none => rfl
  | some a =>
      have hprepare : ApplicationExecutionSetup.prepare a attempt = none :=
        if_neg (by simpa using hfails)
      simp only [hprepare]

theorem Sound.launch_prepared {a : Application} (hc : Sound (some a) c)
    (h : c.currentAction ≠ .STOPPING) (hprepared : attempt.prepared = true) :
    launch attempt c =
      if c.process = .NotRunning then
        .ok ({ c with currentAction := .LAUNCHING, process := .Starting },
          [.prepared a a.applicationId attempt.elapsed, .started a])
      else .ok ({ c with currentAction := .LAUNCHING },
        [.prepared a a.applicationId attempt.elapsed]) := by
  have hprepare : ApplicationExecutionSetup.prepare a attempt =
      some (.prepared a a.applicationId attempt.elapsed) := if_pos hprepared
  rw [launch, if_neg (by simp [hc.real]), if_neg h]
  by_cases hidle : c.process = .NotRunning
  · simp [hc.application, hprepare, hidle, startProcess, setProcessState,
      onProcessStateChanged, ApplicationController.withApplication, andThen, emit, update]
  · simp [hc.application, hprepare, hidle, startProcess, andThen, emit, update]

theorem launch_telling (hc : Sound app c) : Telling app c (launch attempt) := by
  by_cases h : c.currentAction = .STOPPING
  · have hlaunch := hc.launch_stopping attempt h
    split at hlaunch
    · exact (hc.kill (hc.stopping h)).telling_quiet hlaunch rfl rfl
    · exact (hc.delay h _).telling_quiet hlaunch rfl rfl
  by_cases hfails : app = none ∨ attempt.prepared = false
  · exact hc.telling_quiet (hc.launch_failed attempt h hfails) rfl rfl
  obtain ⟨hsome, hprepared⟩ := not_or.mp hfails
  obtain ⟨a, rfl⟩ := Option.ne_none_iff_exists'.mp hsome
  have hlaunch := hc.launch_prepared attempt h (Bool.not_eq_false _ ▸ hprepared)
  split at hlaunch
  · rename_i hidle
    exact (hc.launchNew hidle rfl).telling_quiet hlaunch rfl rfl
  · rename_i hstarted
    exact (hc.launchAgain hstarted).telling_quiet hlaunch rfl rfl

theorem pause_telling (hc : Sound app c) : Telling app c pause := by
  by_cases h : c.process = .Running
  · obtain ⟨a, -, heq⟩ := hc.withApplication (hc.started (by simp [h])) fun _ => emit [.paused]
    have hpause : pause c = .ok (c, [.paused]) := by
      rw [pause, if_pos h, heq]
      rfl
    exact hc.telling_quiet hpause rfl rfl
  · exact hc.telling_quiet (if_neg h) rfl rfl

theorem resume_telling (hc : Sound app c) : Telling app c resume := by
  by_cases h : c.process = .Running
  · obtain ⟨a, -, heq⟩ := hc.withApplication (hc.started (by simp [h])) fun _ => emit [.resumed]
    have hresume : resume c = .ok (c, [.resumed]) := by
      rw [resume, if_pos h, heq]
      rfl
    exact hc.telling_quiet hresume rfl rfl
  · exact hc.telling_quiet (if_neg h) rfl rfl

theorem Sound.expire (hc : Sound app c) :
    Sound app { c with relaunchTimers := c.relaunchTimers - 1 } where
  application := hc.application
  real := hc.real
  running := hc.running
  launching := hc.launching
  idle := hc.idle
  started := hc.started
  delayed h := hc.delayed (Nat.lt_of_lt_of_le h (Nat.sub_le _ 1))

theorem relaunchAfterDelay_telling (hc : Sound app c) :
    Telling app c (relaunchAfterDelay attempt) := by
  by_cases h : 0 < c.relaunchTimers
  · obtain ⟨c', out, hlaunch, hc', hout⟩ := launch_telling attempt hc.expire
    exact ⟨c', out, (if_pos h).trans hlaunch, hc', hout⟩
  · exact hc.telling_quiet (if_neg h) rfl rfl

theorem Sound.processRunning (hc : Sound app c) (h : c.process = .Starting) :
    processEvent .running c =
      .ok ({ c with process := .Running, currentAction := .NONE, running := true },
        [.launched]) := by
  obtain ⟨a, ha⟩ := Option.isSome_iff_exists.mp (hc.started (by simp [h]))
  simp [processEvent, h, setProcessState, onProcessStateChanged,
    ApplicationController.withApplication, andThen, update, hc.application.trans ha,
    hc.launching h]

theorem Sound.processFails (hc : Sound app c) (h : c.process = .Starting) :
    processEvent .failsToStart c =
      .ok ({ c with process := .NotRunning, currentAction := .NONE }, [.launchFailed]) := by
  obtain ⟨a, ha⟩ := Option.isSome_iff_exists.mp (hc.started (by simp [h]))
  simp [processEvent, h, setProcessState, onProcessStateChanged,
    ApplicationController.withApplication, andThen, update, hc.application.trans ha,
    hc.launching h]

theorem Sound.processFinished (hc : Sound app c) (h : c.process = .Running) :
    processEvent .finished c =
      .ok ({ c with
          process := .NotRunning
          currentAction := .NONE
          running := false
          timerCalledCounterForWaitingProcessToStopRunning := 0 },
        (if c.currentAction = .LAUNCHING then [.launchFailed] else []) ++
          if c.currentAction = .STOPPING then [.stopped] else [.died]) := by
  obtain ⟨a, ha⟩ := Option.isSome_iff_exists.mp (hc.started (by simp [h]))
  have hrunning : c.running = true := by simp [hc.running, h]
  cases haction : c.currentAction <;>
    simp [processEvent, h, setProcessState, onProcessStateChanged, onProcessFinished,
      ApplicationController.withApplication, andThen, update, hc.application.trans ha,
      haction, hrunning]

theorem processEvent_telling (hc : Sound app c) (event : ProcessEvent) :
    Telling app c (processEvent event) := by
  cases event with
  | running =>
      by_cases h : c.process = .Starting
      · refine ⟨_, _, hc.processRunning h, ⟨hc.application, hc.real, rfl, by simp, by simp,
          fun _ => hc.started (by simp [h]), hc.delayed⟩, ?_⟩
        simp [tells, report, hc.running, h]
      · exact hc.telling_quiet (if_neg h) rfl rfl
  | failsToStart =>
      by_cases h : c.process = .Starting
      · have hidle : c.running = false := by simp [hc.running, h]
        refine ⟨_, _, hc.processFails h, ⟨hc.application, hc.real, hidle, by simp, fun _ => rfl,
          by simp, hc.delayed⟩, ?_⟩
        rw [report_self]
        rfl
      · exact hc.telling_quiet (if_neg h) rfl rfl
  | finished =>
      by_cases h : c.process = .Running
      · refine ⟨_, _, hc.processFinished h, ⟨hc.application, hc.real, rfl, by simp, fun _ => rfl,
          by simp, hc.delayed⟩, ?_⟩
        cases haction : c.currentAction <;>
          simp [List.filterMap_cons, tells, report, hc.running, h]
      · exact hc.telling_quiet (if_neg h) rfl rfl

theorem perform_telling (hc : Sound app c) (call : ControllerCall) :
    Telling app c (perform call) := by
  cases call with
  | launch attempt => exact launch_telling attempt hc
  | stop => exact stop_telling hc
  | pause => exact pause_telling hc
  | resume => exact resume_telling hc
  | relaunchAfterDelay attempt => exact relaunchAfterDelay_telling attempt hc
  | processEvent event => exact processEvent_telling hc event

end Programs

section Runs

variable {app : Option Application} {history : History} {c : ApplicationController}

theorem step_sound {c' : ApplicationController} {out : List ControllerSignal}
    (hc : Sound app c) (call : ControllerCall)
    (h : (machine app).step c call = .ok (c', out)) :
    Sound app c' ∧ out.filterMap tells = report c.running c'.running := by
  obtain ⟨c'', out', hperform, hsound, hout⟩ := perform_telling hc call
  cases hperform.symm.trans h
  exact ⟨hsound, hout⟩

theorem sound_of_execution (h : Execution (machine app) history c) : Sound app c :=
  h.state_invariant sound_start fun hc hstep => (step_sound hc _ hstep).1

theorem runs (app : Option Application) (calls : List ControllerCall) :
    ∃ history c, (machine app).run calls = .ok (history, c) := by
  have hruns : ∃ result, (machine app).run calls = .ok result := by
    refine (Machine.run_ok_iff calls).mpr ?_
    intro before call after history c _ hrun
    obtain ⟨c', out, hperform, -⟩ :=
      perform_telling (sound_of_execution (Machine.run_execution hrun)) call
    exact ⟨(c', out), hperform⟩
  obtain ⟨⟨history, c⟩, hrun⟩ := hruns
  exact ⟨history, c, hrun⟩

theorem signals_alternate (app : Option Application) (calls : List ControllerCall) :
    ∃ history c, (machine app).run calls = .ok (history, c) ∧
      Alternates ((outputs history).filterMap tells) := by
  obtain ⟨history, c, hrun⟩ := runs app calls
  refine ⟨history, c, hrun, ?_⟩
  refine (execution_reports_of_execution ApplicationController.running rfl ?_
    (Machine.run_execution hrun)).1
  intro older c c' call out hexec hstep
  exact (step_sound (sound_of_execution hexec) call hstep).2

end Runs

end ApplicationController

end GBerry.Comms
