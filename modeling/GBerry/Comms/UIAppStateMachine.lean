import GBerry.Comms.ApplicationController
import GBerry.Common.QMap

/-!
# `UIAppStateMachine`

The states of the screen, with the controllers of the wait screen, of the main
user interface, and of the current application, which is a `LaunchController`.

The machine processes a signal while it is emitted, or right after the signal that
it is processing.  A signal that the current state has no transition for is dropped.
-/

namespace GBerry.Comms

open GBerry.Common
open GBerry.Foundation
open Fallible

inductive UIState where
  | startup
  | waitAppVisibleLaunchingMainUI
  | mainuiVisible
  | waitAppVisibleLaunchingApp
  | appVisible
  deriving DecidableEq

inductive UISignal where
  | waitappLaunchValidated
  | mainuiLaunchValidated
  | appLaunchRequested
  | appLaunchValidated
  | appExitRequested
  | launchFailed
  | died
  deriving DecidableEq

def UIState.transition : UIState → UISignal → Option UIState
  | .startup, .waitappLaunchValidated => some .waitAppVisibleLaunchingMainUI
  | .waitAppVisibleLaunchingMainUI, .mainuiLaunchValidated => some .mainuiVisible
  | .mainuiVisible, .appLaunchRequested => some .waitAppVisibleLaunchingApp
  | .waitAppVisibleLaunchingApp, .appLaunchValidated => some .appVisible
  | .waitAppVisibleLaunchingApp, .launchFailed => some .waitAppVisibleLaunchingMainUI
  | .appVisible, .appExitRequested => some .waitAppVisibleLaunchingMainUI
  | .appVisible, .died => some .waitAppVisibleLaunchingMainUI
  | _, _ => none

inductive ControllerName where
  | waitapp
  | mainui
  | currentApp
  deriving DecidableEq

structure UIAppStateMachine where
  /-- There is none before the machine was started. -/
  currentState : Option UIState
  waitapp : ApplicationController
  mainui : ApplicationController
  currentApp : ApplicationController
  /-- `LocalApplications`, by their full ids. -/
  applications : QMap String Application

inductive UIOutput where
  | controller (name : ControllerName) (signal : ControllerSignal)
  | enteredState (state : UIState)
  deriving DecidableEq

/-- What the launches that one event may make meet. -/
abbrev LaunchAttempts := ControllerName → LaunchAttempt

abbrev UIProgram := Fallible UIAppStateMachine UIOutput ControllerFault

inductive UIEvent where
  | start
  | lauchApplication (applicationId : String)
  | exitApplication (applicationId : String)
  | applicationConnectionValidated (applicationId : String)
  | processEvent (name : ControllerName) (event : ProcessEvent)
  | relaunchAfterDelay (name : ControllerName)
  | onApplicationsUpdated (applications : List Application)

namespace UIAppStateMachine

def start (waitapp mainui : Application) (simulated : Bool)
    (applications : List Application) : UIAppStateMachine where
  currentState := none
  waitapp := .start (some waitapp) simulated
  mainui := .start (some mainui) false
  currentApp := .start none false
  applications := applications.foldl (fun apps app => apps.insert app.id app) ∅

def controller (s : UIAppStateMachine) : ControllerName → ApplicationController
  | .waitapp => s.waitapp
  | .mainui => s.mainui
  | .currentApp => s.currentApp

def setController (s : UIAppStateMachine) (name : ControllerName)
    (c : ApplicationController) : UIAppStateMachine :=
  match name with
  | .waitapp => { s with waitapp := c }
  | .mainui => { s with mainui := c }
  | .currentApp => { s with currentApp := c }

def call (name : ControllerName) (program : ControllerProgram) : UIProgram :=
  within (fun s => s.controller name) (fun c s => s.setController name c)
    (.controller name) program

section States

variable (attempts : LaunchAttempts)

def entered : UIState → UIProgram
  | .startup => call .waitapp (ApplicationController.launch (attempts .waitapp))
  | .waitAppVisibleLaunchingMainUI =>
      call .mainui (ApplicationController.launch (attempts .mainui))
  | .mainuiVisible => call .waitapp ApplicationController.pause
  | .waitAppVisibleLaunchingApp =>
      (call .waitapp ApplicationController.resume).andThen
        ((call .mainui ApplicationController.stop).andThen
          (call .currentApp (ApplicationController.launch (attempts .currentApp))))
  | .appVisible => call .waitapp ApplicationController.pause

def exited : UIState → UIProgram
  | .appVisible =>
      (call .waitapp ApplicationController.resume).andThen
        (call .currentApp ApplicationController.stop)
  | _ => skip

def enter (state : UIState) : UIProgram :=
  (update fun s => { s with currentState := some state }).andThen
    ((entered attempts state).andThen (emit [.enteredState state]))

def microstep (signal : UISignal) : UIProgram := fun s =>
  match s.currentState with
  | none => .ok (s, [])
  | some state =>
      match state.transition signal with
      | none => .ok (s, [])
      | some target => (exited state).andThen (enter attempts target) s

/--
The signals of the controllers that the machine is connected to.  A wait screen
that is only simulated counts as validated when it is launched.
-/
def reaction (simulated : Bool) : UIOutput → Option UISignal
  | .controller .currentApp .launchFailed => some .launchFailed
  | .controller .currentApp .died => some .died
  | .controller .waitapp .launched =>
      if simulated then some .waitappLaunchValidated else none
  | _ => none

def reacting (program : UIProgram) (react : UISignal → UIProgram) : UIProgram :=
  fun s => program.thenReact (·.filterMap (reaction s.waitapp.simulated)) react s

def handle (signal : UISignal) : UIProgram :=
  reacting (microstep attempts signal) (microstep attempts)

/-- The controllers emit signals in a program that is no transition. -/
def dispatch (program : UIProgram) : UIProgram :=
  reacting program (handle attempts)

end States

section Events

variable (attempts : LaunchAttempts)

def startMachine : UIProgram := fun s =>
  match s.currentState with
  | none => dispatch attempts (enter attempts .startup) s
  | some _ => .ok (s, [])

def useApplication (appID : String) : UIProgram := fun s =>
  call .currentApp (ApplicationController.stop.andThen
    (ApplicationController.setApplication s.applications[appID]?)) s

def lauchApplication (applicationId : String) : UIProgram :=
  (useApplication applicationId).andThen (handle attempts .appLaunchRequested)

def exitApplication (applicationId : String) : UIProgram := fun s =>
  if applicationId = "" then handle attempts .appExitRequested s
  else
    match s.currentApp.fullApplicationId with
    | .error fault => .error fault
    | .ok fullApplicationId =>
        if applicationId = fullApplicationId then handle attempts .appExitRequested s
        else .ok (s, [])

def applicationConnectionValidated (applicationId : String) : UIProgram :=
  if applicationId = "waitapp" then handle attempts .waitappLaunchValidated
  else if applicationId = "mainui" then handle attempts .mainuiLaunchValidated
  else handle attempts .appLaunchValidated

def onApplicationsUpdated (applications : List Application) : UIProgram :=
  update fun s => { s with
    applications := applications.foldl (fun apps app => apps.insert app.id app) ∅ }

def perform : UIEvent → UIProgram
  | .start => startMachine attempts
  | .lauchApplication applicationId => lauchApplication attempts applicationId
  | .exitApplication applicationId => exitApplication attempts applicationId
  | .applicationConnectionValidated applicationId =>
      applicationConnectionValidated attempts applicationId
  | .processEvent name event =>
      dispatch attempts (call name (ApplicationController.processEvent event))
  | .relaunchAfterDelay name =>
      dispatch attempts
        (call name (ApplicationController.relaunchAfterDelay (attempts name)))
  | .onApplicationsUpdated applications => onApplicationsUpdated applications

end Events

def machine (init : UIAppStateMachine) :
    Machine UIAppStateMachine (UIEvent × LaunchAttempts) UIOutput ControllerFault :=
  Fallible.machine init fun label => perform label.2 label.1

abbrev History := List (Step UIAppStateMachine (UIEvent × LaunchAttempts) UIOutput)

section Controllers

variable {s s' : UIAppStateMachine} {out : List UIOutput}

@[simp] theorem controller_setController_self (s : UIAppStateMachine)
    (name : ControllerName) (c : ApplicationController) :
    (s.setController name c).controller name = c := by
  cases name <;> rfl

theorem controller_setController_ne {name other : ControllerName} (h : other ≠ name)
    (s : UIAppStateMachine) (c : ApplicationController) :
    (s.setController name c).controller other = s.controller other := by
  cases name <;> cases other <;> first | rfl | exact absurd rfl h

@[simp] theorem currentState_setController (s : UIAppStateMachine)
    (name : ControllerName) (c : ApplicationController) :
    (s.setController name c).currentState = s.currentState := by
  cases name <;> rfl

@[simp] theorem applications_setController (s : UIAppStateMachine)
    (name : ControllerName) (c : ApplicationController) :
    (s.setController name c).applications = s.applications := by
  cases name <;> rfl

structure KeepsApplications (s s' : UIAppStateMachine) (out : List UIOutput) : Prop where
  applications : s'.applications = s.applications
  app : ∀ name, (s'.controller name).app = (s.controller name).app
  prepared : ∀ name app appId elapsed,
    .controller name (.prepared app appId elapsed) ∈ out → appId = app.applicationId

theorem keepsApplications_composes : Composes KeepsApplications where
  refl s := ⟨rfl, fun _ => rfl, nofun⟩
  trans := by
    intro s s' s'' out out' h h'
    refine ⟨h'.applications.trans h.applications,
      fun name => (h'.app name).trans (h.app name), ?_⟩
    intro name app appId elapsed hmem
    rcases List.mem_append.mp hmem with hfirst | hnext
    · exact h.prepared name app appId elapsed hfirst
    · exact h'.prepared name app appId elapsed hnext

def Stays (s s' : UIAppStateMachine) (out : List UIOutput) : Prop :=
  s'.currentState = s.currentState ∧ ∀ state, .enteredState state ∉ out

theorem stays_composes : Composes Stays where
  refl s := ⟨rfl, nofun⟩
  trans := by
    rintro s s' s'' out out' ⟨hstate, hentered⟩ ⟨hstate', hentered'⟩
    refine ⟨hstate'.trans hstate, ?_⟩
    intro state hmem
    rcases List.mem_append.mp hmem with hfirst | hnext
    · exact hentered state hfirst
    · exact hentered' state hnext

theorem call_stays (name : ControllerName) (program : ControllerProgram) :
    Ensures Stays (call name program) := by
  intro s s' out h
  obtain ⟨c, signals, -, rfl, rfl⟩ := within_ok h
  refine ⟨currentState_setController s name c, ?_⟩
  intro state hmem
  obtain ⟨signal, -, heq⟩ := List.mem_map.mp hmem
  cases heq

theorem call_keeps {name : ControllerName} {program : ControllerProgram}
    (h : Ensures ApplicationController.KeepsApplication program) :
    Ensures KeepsApplications (call name program) := by
  refine h.within ?_
  rintro s c signals ⟨happ, hprepared⟩
  refine ⟨applications_setController s name c, ?_, ?_⟩
  · intro other
    by_cases heq : other = name
    · subst heq
      rw [controller_setController_self, happ]
    · rw [controller_setController_ne heq]
  · intro other app appId elapsed hmem
    obtain ⟨signal, hsignal, heq⟩ := List.mem_map.mp hmem
    cases heq
    exact (hprepared app appId elapsed hsignal).2

end Controllers

section Transitions

variable {attempts : LaunchAttempts} {s s' : UIAppStateMachine} {out : List UIOutput}
  {signal : UISignal} {program : UIProgram} {react : UISignal → UIProgram}

theorem entered_stays (state : UIState) : Ensures Stays (entered attempts state) := by
  cases state with
  | startup => exact call_stays _ _
  | waitAppVisibleLaunchingMainUI => exact call_stays _ _
  | mainuiVisible => exact call_stays _ _
  | waitAppVisibleLaunchingApp =>
      exact .andThen stays_composes (call_stays _ _)
        (.andThen stays_composes (call_stays _ _) (call_stays _ _))
  | appVisible => exact call_stays _ _

theorem entered_keeps (state : UIState) :
    Ensures KeepsApplications (entered attempts state) := by
  cases state with
  | startup => exact call_keeps ApplicationController.launch_keeps
  | waitAppVisibleLaunchingMainUI => exact call_keeps ApplicationController.launch_keeps
  | mainuiVisible => exact call_keeps ApplicationController.pause_keeps
  | waitAppVisibleLaunchingApp =>
      exact .andThen keepsApplications_composes
        (call_keeps ApplicationController.resume_keeps)
        (.andThen keepsApplications_composes (call_keeps ApplicationController.stop_keeps)
          (call_keeps ApplicationController.launch_keeps))
  | appVisible => exact call_keeps ApplicationController.pause_keeps

theorem exited_stays (state : UIState) : Ensures Stays (exited state) := by
  cases state with
  | appVisible => exact .andThen stays_composes (call_stays _ _) (call_stays _ _)
  | _ => exact .skip stays_composes

theorem exited_keeps (state : UIState) : Ensures KeepsApplications (exited state) := by
  cases state with
  | appVisible =>
      exact .andThen keepsApplications_composes
        (call_keeps ApplicationController.resume_keeps)
        (call_keeps ApplicationController.stop_keeps)
  | _ => exact .skip keepsApplications_composes

theorem enter_ok {target : UIState} (h : enter attempts target s = .ok (s', out)) :
    s'.currentState = some target ∧
      ∀ state, .enteredState state ∈ out ↔ state = target := by
  obtain ⟨s₁, _, out₂, hupdate, hrest, rfl⟩ := andThen_ok h
  cases hupdate
  obtain ⟨s₂, out₃, _, hentered, hemit, rfl⟩ := andThen_ok hrest
  cases hemit
  obtain ⟨hstate, hquiet⟩ := entered_stays target _ _ _ hentered
  refine ⟨hstate, ?_⟩
  intro state
  simp only [List.nil_append, List.mem_append, List.mem_singleton, UIOutput.enteredState.injEq]
  exact or_iff_right (hquiet state)

theorem enter_keeps (target : UIState) :
    Ensures KeepsApplications (enter attempts target) := by
  refine .andThen keepsApplications_composes ?_ ?_
  · apply Ensures.update
    intro s
    exact ⟨rfl, fun name => by cases name <;> rfl, nofun⟩
  · refine .andThen keepsApplications_composes (entered_keeps target) ?_
    apply Ensures.emit
    intro s
    exact ⟨rfl, fun _ => rfl, by simp⟩

theorem microstep_ok (h : microstep attempts signal s = .ok (s', out)) :
    (s' = s ∧ out = [] ∧ ∀ state, s.currentState = some state →
      state.transition signal = none) ∨
    ∃ state target, s.currentState = some state ∧
      state.transition signal = some target ∧ s'.currentState = some target ∧
      ∀ state, .enteredState state ∈ out ↔ state = target := by
  unfold microstep at h
  split at h
  · rename_i hnone
    cases h
    exact .inl ⟨rfl, rfl, by simp [hnone]⟩
  rename_i state hstate
  split at h
  · rename_i htransition
    cases h
    refine .inl ⟨rfl, rfl, ?_⟩
    intro state' hstate'
    obtain rfl := Option.some.inj (hstate.symm.trans hstate')
    exact htransition
  · rename_i target htransition
    obtain ⟨s₁, out₁, out₂, hexited, henter, rfl⟩ := andThen_ok h
    obtain ⟨-, hquiet⟩ := exited_stays state s s₁ out₁ hexited
    obtain ⟨htarget, hentered⟩ := enter_ok henter
    refine .inr ⟨state, target, hstate, htransition, htarget, ?_⟩
    intro other
    rw [List.mem_append]
    exact (or_iff_right (hquiet other)).trans (hentered other)

theorem microstep_keeps : Ensures KeepsApplications (microstep attempts signal) := by
  intro s s' out h
  unfold microstep at h
  split at h
  · cases h
    exact keepsApplications_composes.refl s
  rename_i state _
  split at h
  · cases h
    exact keepsApplications_composes.refl s
  · rename_i target _
    exact Ensures.andThen keepsApplications_composes (exited_keeps state)
      (enter_keeps target) s s' out h

theorem mem_reactions {simulated : Bool}
    (h : signal ∈ out.filterMap (reaction simulated)) :
    signal ∈ [UISignal.launchFailed, .died, .waitappLaunchValidated] := by
  obtain ⟨output, -, hreaction⟩ := List.mem_filterMap.mp h
  unfold reaction at hreaction
  split at hreaction
  · cases hreaction
    decide
  · cases hreaction
    decide
  · split at hreaction
    · cases hreaction
      decide
    · cases hreaction
  · cases hreaction

theorem reacting_ensures {R : UIAppStateMachine → UIAppStateMachine → List UIOutput → Prop}
    (hR : Composes R) (hprogram : Ensures R program)
    (hreact : ∀ signal ∈ [UISignal.launchFailed, .died, .waitappLaunchValidated],
      Ensures R (react signal)) : Ensures R (reacting program react) := by
  intro s s'' out h
  obtain ⟨s', out₁, out₂, hs', hs'', rfl⟩ := thenReact_ok h
  refine hR.trans (hprogram s s' out₁ hs') (Ensures.forEach hR ?_ s' s'' out₂ hs'')
  intro signal hmem
  exact hreact signal (mem_reactions hmem)

theorem handle_keeps : Ensures KeepsApplications (handle attempts signal) :=
  reacting_ensures keepsApplications_composes microstep_keeps fun _ _ => microstep_keeps

theorem dispatch_keeps (h : Ensures KeepsApplications program) :
    Ensures KeepsApplications (dispatch attempts program) :=
  reacting_ensures keepsApplications_composes h fun _ _ => handle_keeps

end Transitions

section Performance

variable {attempts : LaunchAttempts} {s s' : UIAppStateMachine} {out : List UIOutput}
  {event : UIEvent}

theorem useApplication_ok {appID : String} (h : useApplication appID s = .ok (s', out)) :
    s'.currentApp.app = s.applications[appID]? ∧
      ∀ name app code elapsed, .controller name (.prepared app code elapsed) ∉ out := by
  unfold useApplication call at h
  obtain ⟨c, signals, hprogram, rfl, rfl⟩ := within_ok h
  obtain ⟨c₁, signals₁, _, hstop, hset, rfl⟩ := andThen_ok hprogram
  cases hset
  refine ⟨rfl, ?_⟩
  intro name app code elapsed hmem
  rw [List.append_nil] at hmem
  obtain ⟨signal, hsignal, heq⟩ := List.mem_map.mp hmem
  cases heq
  unfold ApplicationController.stop at hstop
  split at hstop
  · unfold ApplicationController.withApplication at hstop
    split at hstop
    · cases hstop
    · cases hstop
      simp at hsignal
  · cases hstop
    cases hsignal

/-- The event neither selects an application nor brings others. -/
def SelectsNone : UIEvent → Prop
  | .lauchApplication _ => False
  | .onApplicationsUpdated _ => False
  | _ => True

theorem perform_keeps (h : perform attempts event s = .ok (s', out))
    (hevent : SelectsNone event) : KeepsApplications s s' out := by
  cases event with
  | start =>
      simp only [perform, startMachine] at h
      split at h
      · exact dispatch_keeps (enter_keeps .startup) s s' out h
      · cases h
        exact keepsApplications_composes.refl s
  | lauchApplication applicationId => exact absurd hevent id
  | exitApplication applicationId =>
      simp only [perform, exitApplication] at h
      split at h
      · exact handle_keeps s s' out h
      split at h
      · cases h
      split at h
      · exact handle_keeps s s' out h
      · cases h
        exact keepsApplications_composes.refl s
  | applicationConnectionValidated applicationId =>
      simp only [perform, applicationConnectionValidated] at h
      split at h
      · exact handle_keeps s s' out h
      split at h
      · exact handle_keeps s s' out h
      · exact handle_keeps s s' out h
  | processEvent name event =>
      exact dispatch_keeps (call_keeps (ApplicationController.processEvent_keeps event))
        s s' out h
  | relaunchAfterDelay name =>
      exact dispatch_keeps (call_keeps ApplicationController.relaunchAfterDelay_keeps)
        s s' out h
  | onApplicationsUpdated applications => exact absurd hevent id

def selection (s : UIAppStateMachine) : UIEvent → Option Application
  | .lauchApplication applicationId => s.applications[applicationId]?
  | _ => s.currentApp.app

theorem perform_currentApp (h : perform attempts event s = .ok (s', out)) :
    s'.currentApp.app = s.selection event := by
  cases event with
  | lauchApplication applicationId =>
      obtain ⟨s₁, out₁, out₂, huse, hhandle, rfl⟩ := andThen_ok h
      have hkept := (handle_keeps s₁ s' out₂ hhandle).app .currentApp
      exact hkept.trans (useApplication_ok huse).1
  | onApplicationsUpdated applications =>
      cases h
      rfl
  | _ => exact (perform_keeps h trivial).app .currentApp

theorem perform_prepared {name : ControllerName} {app : Application} {appId : String}
    {elapsed : Int} (h : perform attempts event s = .ok (s', out))
    (hmem : .controller name (.prepared app appId elapsed) ∈ out) :
    appId = app.applicationId := by
  cases event with
  | lauchApplication applicationId =>
      obtain ⟨s₁, out₁, out₂, huse, hhandle, rfl⟩ := andThen_ok h
      rcases List.mem_append.mp hmem with hstop | hlaunch
      · exact absurd hstop ((useApplication_ok huse).2 name app appId elapsed)
      · exact (handle_keeps s₁ s' out₂ hhandle).prepared name app appId elapsed hlaunch
  | onApplicationsUpdated applications =>
      cases h
      cases hmem
  | _ => exact (perform_keeps h trivial).prepared name app appId elapsed hmem

end Performance

end UIAppStateMachine

end GBerry.Comms
