import GBerry.Comms.UIAppStateMachine.Visible

/-!
# The current application that is missing

There is no current application before the first launch request, nor after a request
for an application that the storage does not know.  The wait screen and the main user
interface always have theirs, so that only the `LaunchController` can miss one.
-/

namespace GBerry.Comms

open GBerry.Common
open GBerry.Foundation
open Fallible

def ProcessEvent.source : ProcessEvent → ProcessState
  | .running => .Starting
  | .failsToStart => .Starting
  | .finished => .Running

namespace ApplicationController

variable {attempt : LaunchAttempt} {c c' : ApplicationController}
  {out : List ControllerSignal}

/-- `launch` gives up on a process that it could not stop, and kills it once more. -/
def AbortsLaunch (c : ApplicationController) : Prop :=
  c.simulated = false ∧ c.currentAction = .STOPPING ∧
    c.timerCalledCounterForWaitingProcessToStopRunning = 3

instance : DecidablePred AbortsLaunch := fun _ => inferInstanceAs (Decidable (_ ∧ _ ∧ _))

theorem runs_withApplication {next : Application → ControllerProgram} :
    Runs (withApplication next) c ↔ ∃ app, c.app = some app ∧ Runs (next app) c := by
  unfold Runs withApplication
  cases c.app with
  | none => simp
  | some app => simp

theorem runs_onProcessStateChanged {processState : ProcessState} :
    Runs (onProcessStateChanged processState) c ↔ c.app ≠ none := by
  rw [onProcessStateChanged, runs_withApplication]
  constructor
  · rintro ⟨app, happ, -⟩
    simp [happ]
  · intro happ
    obtain ⟨app, happ⟩ := Option.ne_none_iff_exists'.mp happ
    refine ⟨app, happ, ?_⟩
    by_cases hlaunching : c.currentAction = .LAUNCHING
    · cases processState <;> simp [Runs, hlaunching]
    · simp [Runs, hlaunching]

theorem runs_setProcessState {processState : ProcessState} :
    Runs (setProcessState processState) c ↔ c.app ≠ none := by
  rw [setProcessState, runs_andThen]
  constructor
  · rintro ⟨c', out, hupdate, hchanged⟩
    cases hupdate
    have happ := runs_onProcessStateChanged.mp hchanged
    exact happ
  · intro happ
    exact ⟨_, _, rfl, runs_onProcessStateChanged.mpr happ⟩

theorem runs_stop : Runs stop c ↔ (c.process = .Running → c.app ≠ none) := by
  by_cases hprocess : c.process = .Running
  · have hstop : Runs stop c ↔ ∃ app, c.app = some app := by
      have hwith : Runs (withApplication fun _ c =>
          .ok ({ c with currentAction := .STOPPING }, [.killed])) c ↔ _ :=
        runs_withApplication
      simpa [Runs, stop, hprocess] using hwith
    rw [hstop, ← Option.ne_none_iff_exists']
    simp [hprocess]
  · simp [Runs, stop, hprocess]

theorem stop_ok (h : stop c = .ok (c', out)) :
    c' = { c with currentAction :=
      if c.process = .Running then .STOPPING else c.currentAction } := by
  unfold stop at h
  split at h
  · rename_i hprocess
    unfold withApplication at h
    split at h
    · cases h
    · cases h
      rw [if_pos hprocess]
  · rename_i hprocess
    cases h
    rw [if_neg hprocess]

theorem runs_signal {signal : ControllerSignal} {program : ControllerProgram}
    (hprogram : program = fun c =>
      if c.process = .Running then withApplication (fun _ => emit [signal]) c else .ok (c, []))
    (happ : c.app ≠ none) : Runs program c := by
  subst hprogram
  by_cases hprocess : c.process = .Running
  · obtain ⟨app, happ⟩ := Option.ne_none_iff_exists'.mp happ
    exact ⟨(c, [signal]), by simp [hprocess, withApplication, happ, emit]⟩
  · exact ⟨(c, []), if_neg hprocess⟩

theorem runs_startProcess (app : Application) (happ : c.app ≠ none) :
    Runs (startProcess app) c := by
  unfold Runs startProcess
  split
  · exact runs_andThen.mpr ⟨c, _, rfl, runs_setProcessState.mpr happ⟩
  · exact ⟨_, rfl⟩

/-- Without an application, `launch` fails only where it stops the old process. -/
theorem runs_launch : Runs (launch attempt) c ↔
    (c.AbortsLaunch → c.process = .Running → c.app ≠ none) := by
  by_cases habort : c.AbortsLaunch
  · have hstop : Runs (launch attempt) c ↔ Runs (stop.andThen (emit [.launchFailed])) c := by
      obtain ⟨hsimulated, haction, hcounter⟩ := habort
      simp [Runs, launch, hsimulated, haction, hcounter]
    rw [hstop, runs_andThen]
    constructor
    · rintro ⟨c', out, hstop, -⟩ -
      exact runs_stop.mp (runs_ok hstop)
    · intro happ
      obtain ⟨⟨c', out⟩, hstop⟩ := runs_stop.mpr (happ habort)
      exact ⟨c', out, hstop, _, rfl⟩
  · refine iff_of_true ?_ fun h => absurd h habort
    unfold Runs launch
    split
    · exact ⟨_, rfl⟩
    rename_i hsimulated
    split
    · rename_i haction
      split
      · rename_i hcounter
        exact absurd ⟨Bool.eq_false_iff.mpr hsimulated, haction, hcounter⟩ habort
      · exact ⟨_, rfl⟩
    split
    · exact ⟨_, rfl⟩
    rename_i app happ
    split
    · exact ⟨_, rfl⟩
    · refine runs_andThen.mpr ⟨c, _, rfl, runs_andThen.mpr ⟨_, _, rfl, ?_⟩⟩
      exact runs_startProcess app (by simp [happ])

theorem runs_relaunchAfterDelay : Runs (relaunchAfterDelay attempt) c ↔
    (0 < c.relaunchTimers → c.AbortsLaunch → c.process = .Running → c.app ≠ none) := by
  by_cases htimers : 0 < c.relaunchTimers
  · have hlaunch : Runs (launch attempt) { c with relaunchTimers := c.relaunchTimers - 1 } ↔
        _ := runs_launch
    simpa [Runs, relaunchAfterDelay, htimers, AbortsLaunch] using hlaunch
  · simp [Runs, relaunchAfterDelay, htimers]

theorem processEvent_ignored {event : ProcessEvent} (h : c.process ≠ event.source) :
    processEvent event c = .ok (c, []) := by
  cases event <;> exact if_neg h

theorem runs_processEvent {event : ProcessEvent} : Runs (processEvent event) c ↔
    (c.process = event.source → c.app ≠ none) := by
  by_cases hprocess : c.process = event.source
  · have hset (processState : ProcessState) :
        (∃ result, setProcessState processState c = .ok result) ↔ c.app ≠ none :=
      runs_setProcessState
    cases event with
    | running => simpa [Runs, processEvent, ProcessEvent.source, hprocess] using hset .Running
    | failsToStart =>
        simpa [Runs, processEvent, ProcessEvent.source, hprocess] using hset .NotRunning
    | finished =>
        have hfinish : Runs (processEvent .finished) c ↔
            Runs ((setProcessState .NotRunning).andThen onProcessFinished) c := by
          have hrunning : c.process = .Running := hprocess
          simp [Runs, processEvent, hrunning]
        rw [hfinish, runs_andThen]
        constructor
        · rintro ⟨c', out, hstate, -⟩ -
          exact runs_setProcessState.mp (runs_ok hstate)
        · intro happ
          obtain ⟨⟨c', out⟩, hstate⟩ := runs_setProcessState.mpr (happ hprocess)
          have hkept := (setProcessState_keeps .NotRunning c c' out hstate).1
          obtain ⟨app, happ'⟩ := Option.ne_none_iff_exists'.mp (happ hprocess)
          refine ⟨c', out, hstate, runs_withApplication.mpr ⟨app, ?_, _, rfl⟩⟩
          rw [hkept, happ']
  · exact iff_of_true ⟨_, processEvent_ignored hprocess⟩ fun h => absurd h hprocess

def Quiet (_ _ : ApplicationController) (out : List ControllerSignal) : Prop :=
  .died ∉ out

theorem quiet_composes : Composes Quiet where
  refl _ := List.not_mem_nil
  trans h h' hmem := (List.mem_append.mp hmem).elim h h'

theorem stop_quiet : Ensures Quiet stop := by
  intro c c' out h
  unfold stop at h
  split at h
  · refine withApplication_ensures (R := Quiet) ?_ c c' out h
    intro app c c' out h
    cases h
    simp [Quiet]
  · cases h
    exact List.not_mem_nil

theorem startProcess_quiet (app : Application) : Ensures Quiet (startProcess app) := by
  intro c c' out h
  unfold startProcess at h
  split at h
  · obtain ⟨c₁, _, out₁, hemit, hstate, rfl⟩ := andThen_ok h
    cases hemit
    obtain ⟨c₂, _, out₂, hupdate, hchanged, rfl⟩ := andThen_ok hstate
    cases hupdate
    unfold onProcessStateChanged withApplication at hchanged
    split at hchanged
    · cases hchanged
    simp only at hchanged
    split at hchanged <;> cases hchanged <;> simp [Quiet]
  · cases h
    exact List.not_mem_nil

theorem launch_quiet : Ensures Quiet (launch attempt) := by
  intro c c' out h
  unfold launch at h
  split at h
  · cases h
    simp [Quiet]
  split at h
  · split at h
    · exact Ensures.andThen quiet_composes stop_quiet (.emit fun _ => by simp [Quiet])
        c c' out h
    · cases h
      exact List.not_mem_nil
  split at h
  · cases h
    simp [Quiet]
  rename_i app _
  unfold ApplicationExecutionSetup.prepare at h
  split at h
  · cases h
    simp [Quiet]
  rename_i prepared hprepared
  split at hprepared
  · cases hprepared
    refine Ensures.andThen quiet_composes (.emit fun _ => by simp [Quiet]) ?_ c c' out h
    exact .andThen quiet_composes (.update fun _ => List.not_mem_nil)
      (startProcess_quiet app)
  · cases hprepared

theorem relaunchAfterDelay_quiet : Ensures Quiet (relaunchAfterDelay attempt) := by
  intro c c' out h
  unfold relaunchAfterDelay at h
  split at h
  · have hquiet := launch_quiet _ c' out h
    exact hquiet
  · cases h
    exact List.not_mem_nil

end ApplicationController

namespace UIAppStateMachine

/-- The wait screen and the main user interface have their applications. -/
structure Available (s : UIAppStateMachine) : Prop where
  waitapp : s.waitapp.app ≠ none
  mainui : s.mainui.app ≠ none

/-- The event makes the controller of the current application use one that is missing. -/
def UsesMissing (s : UIAppStateMachine) : UIEvent → Prop
  | .lauchApplication applicationId =>
      s.currentApp.process = .Running ∧ (s.currentApp.app = none ∨
        s.currentState = some .mainuiVisible ∧ s.applications[applicationId]? = none ∧
          s.currentApp.simulated = false ∧
          s.currentApp.timerCalledCounterForWaitingProcessToStopRunning = 3)
  | .exitApplication applicationId =>
      s.currentApp.app = none ∧ (applicationId ≠ "" ∨
        s.currentState = some .appVisible ∧ s.currentApp.process = .Running)
  | .processEvent .currentApp event =>
      s.currentApp.app = none ∧ s.currentApp.process = event.source
  | .relaunchAfterDelay .currentApp =>
      s.currentApp.app = none ∧ 0 < s.currentApp.relaunchTimers ∧
        s.currentApp.AbortsLaunch ∧ s.currentApp.process = .Running
  | _ => False

section Available

variable {attempts : LaunchAttempts} {s s' : UIAppStateMachine} {out : List UIOutput}
  {signal : UISignal} {program next : UIProgram} {name : ControllerName}

theorem Available.of_keeps (hs : Available s) (h : KeepsApplications s s' out) :
    Available s' := by
  constructor
  · have hwaitapp := h.app .waitapp
    simp only [controller] at hwaitapp
    rw [hwaitapp]
    exact hs.waitapp
  · have hmainui := h.app .mainui
    simp only [controller] at hmainui
    rw [hmainui]
    exact hs.mainui

theorem Available.controller (hs : Available s) (hname : name ≠ .currentApp) :
    (s.controller name).app ≠ none := by
  cases name with
  | waitapp => exact hs.waitapp
  | mainui => exact hs.mainui
  | currentApp => exact absurd rfl hname

theorem call_other {program : ControllerProgram} (hs : Available s)
    (hname : name ≠ .currentApp)
    (hprogram : ∀ c, c.app ≠ none → Runs program c)
    (hkeeps : Ensures ApplicationController.KeepsApplication program) :
    ∃ s' out, call name program s = .ok (s', out) ∧ Available s' ∧
      s'.currentApp = s.currentApp ∧ s'.currentState = s.currentState := by
  obtain ⟨⟨s', out⟩, h⟩ : Runs (call name program) s :=
    runs_within.mpr (hprogram _ (hs.controller hname))
  refine ⟨s', out, h, hs.of_keeps (call_keeps hkeeps s s' out h), ?_,
    (call_stays name program s s' out h).1⟩
  obtain ⟨c, signals, -, rfl, -⟩ := within_ok h
  exact controller_setController_ne (Ne.symm hname) s c

theorem runs_call_other {program : ControllerProgram} {P : Prop} (hs : Available s)
    (hname : name ≠ .currentApp) (hprogram : ∀ c, c.app ≠ none → Runs program c)
    (hkeeps : Ensures ApplicationController.KeepsApplication program)
    (hnext : ∀ s', Available s' → s'.currentApp = s.currentApp → (Runs next s' ↔ P)) :
    Runs ((call name program).andThen next) s ↔ P := by
  obtain ⟨s', out, h, hs', hcurrent, -⟩ := call_other hs hname hprogram hkeeps
  rw [← hnext s' hs' hcurrent, runs_andThen]
  constructor
  · rintro ⟨s'', out', h', hruns⟩
    cases h.symm.trans h'
    exact hruns
  · intro hruns
    exact ⟨s', out, h, hruns⟩

theorem runs_pause (c : ApplicationController) (happ : c.app ≠ none) :
    Runs ApplicationController.pause c :=
  ApplicationController.runs_signal rfl happ

theorem runs_resume (c : ApplicationController) (happ : c.app ≠ none) :
    Runs ApplicationController.resume c :=
  ApplicationController.runs_signal rfl happ

theorem runs_stop (c : ApplicationController) (happ : c.app ≠ none) :
    Runs ApplicationController.stop c :=
  ApplicationController.runs_stop.mpr fun _ => happ

theorem runs_launch {attempt : LaunchAttempt} (c : ApplicationController)
    (happ : c.app ≠ none) : Runs (ApplicationController.launch attempt) c :=
  ApplicationController.runs_launch.mpr fun _ _ => happ

theorem runs_enter_iff {target : UIState} :
    Runs (enter attempts target) s ↔
      Runs (entered attempts target) { s with currentState := some target } := by
  rw [enter, runs_andThen]
  constructor
  · rintro ⟨s', out, hupdate, hrest⟩
    cases hupdate
    obtain ⟨s'', out', hentered, -⟩ := runs_andThen.mp hrest
    exact runs_ok hentered
  · rintro ⟨⟨s', out⟩, hentered⟩
    exact ⟨_, _, rfl, runs_andThen.mpr ⟨s', out, hentered, _, rfl⟩⟩

theorem runs_enter {target : UIState} (hs : Available s) :
    Runs (enter attempts target) s ↔ (target = .waitAppVisibleLaunchingApp →
      Runs (ApplicationController.launch (attempts .currentApp)) s.currentApp) := by
  rw [runs_enter_iff]
  have hs' : Available { s with currentState := some target } := ⟨hs.waitapp, hs.mainui⟩
  have hother {name : ControllerName} {program : ControllerProgram}
      (hname : name ≠ .currentApp) (hprogram : ∀ c, c.app ≠ none → Runs program c) :
      Runs (call name program) { s with currentState := some target } :=
    runs_within.mpr (hprogram _ (hs'.controller hname))
  cases target with
  | startup => exact iff_of_true (hother (by decide) runs_launch) nofun
  | waitAppVisibleLaunchingMainUI =>
      exact iff_of_true (hother (by decide) runs_launch) nofun
  | mainuiVisible => exact iff_of_true (hother (by decide) runs_pause) nofun
  | appVisible => exact iff_of_true (hother (by decide) runs_pause) nofun
  | waitAppVisibleLaunchingApp =>
      rw [imp_iff_right rfl]
      refine runs_call_other hs' (by decide) runs_resume ApplicationController.resume_keeps ?_
      intro s₁ hs₁ hcurrent₁
      refine runs_call_other hs₁ (by decide) runs_stop ApplicationController.stop_keeps ?_
      intro s₂ _ hcurrent₂
      rw [call, runs_within, controller, hcurrent₂, hcurrent₁]

theorem runs_exited {state : UIState} (hs : Available s) :
    Runs (exited state) s ↔
      (state = .appVisible → Runs ApplicationController.stop s.currentApp) := by
  cases state with
  | appVisible =>
      rw [imp_iff_right rfl]
      refine runs_call_other hs (by decide) runs_resume ApplicationController.resume_keeps ?_
      intro s₁ _ hcurrent₁
      rw [call, runs_within, controller, hcurrent₁]
  | _ => exact iff_of_true ⟨_, rfl⟩ nofun

theorem transition_waitAppVisibleLaunchingApp {state : UIState} :
    state.transition signal = some .waitAppVisibleLaunchingApp ↔
      state = .mainuiVisible ∧ signal = .appLaunchRequested := by
  cases state <;> cases signal <;> simp [UIState.transition]

theorem transition_of_appVisible :
    UIState.appVisible.transition signal ≠ none ↔
      signal = .appExitRequested ∨ signal = .died := by
  cases signal <;> simp [UIState.transition]

theorem runs_microstep (hs : Available s) : Runs (microstep attempts signal) s ↔
    (s.currentState = some .mainuiVisible → signal = .appLaunchRequested →
      Runs (ApplicationController.launch (attempts .currentApp)) s.currentApp) ∧
    (s.currentState = some .appVisible → signal = .appExitRequested ∨ signal = .died →
      Runs ApplicationController.stop s.currentApp) := by
  cases hstate : s.currentState with
  | none =>
      refine iff_of_true ⟨(s, []), ?_⟩ ⟨nofun, nofun⟩
      simp only [microstep, hstate]
  | some state =>
  cases htransition : state.transition signal with
  | none =>
      refine iff_of_true ⟨(s, []), by simp only [microstep, hstate, htransition]⟩ ⟨?_, ?_⟩
      · rintro hmainui rfl
        cases Option.some.inj hmainui
        cases htransition
      · intro hvisible hsignal
        cases Option.some.inj hvisible
        exact absurd htransition (transition_of_appVisible.mpr hsignal)
  | some target =>
      have hmicrostep : Runs (microstep attempts signal) s ↔
          Runs ((exited state).andThen (enter attempts target)) s := by
        simp only [Runs, microstep, hstate, htransition]
      rw [hmicrostep]
      simp only [Option.some.injEq]
      have hsignal : target = .waitAppVisibleLaunchingApp ↔
          state = .mainuiVisible ∧ signal = .appLaunchRequested := by
        rw [← transition_waitAppVisibleLaunchingApp, htransition, Option.some.injEq]
      by_cases hvisible : state = .appVisible
      · subst hvisible
        have hleaves := transition_of_appVisible.mp
          (Option.ne_none_iff_exists'.mpr ⟨target, htransition⟩)
        have hstop : Runs (exited .appVisible) s ↔
            Runs ApplicationController.stop s.currentApp :=
          (runs_exited hs).trans (imp_iff_right rfl)
        rw [imp_iff_right rfl, imp_iff_right hleaves, and_iff_right nofun, ← hstop]
        constructor
        · intro hruns
          obtain ⟨s', out, hexited, -⟩ := runs_andThen.mp hruns
          exact runs_ok hexited
        · rintro ⟨⟨s', out⟩, hexited⟩
          have hs' := hs.of_keeps (exited_keeps _ s s' out hexited)
          refine runs_andThen.mpr ⟨s', out, hexited, (runs_enter hs').mpr ?_⟩
          intro htarget
          cases (hsignal.mp htarget).1
      · have hskip : exited state = skip := by
          cases state with
          | appVisible => exact absurd rfl hvisible
          | _ => rfl
        rw [hskip, runs_skip_andThen, runs_enter hs, hsignal, and_imp,
          and_iff_left fun h => absurd h hvisible]

def NoDeath (_ _ : UIAppStateMachine) (out : List UIOutput) : Prop :=
  .controller .currentApp .died ∉ out

theorem noDeath_composes : Composes NoDeath where
  refl _ := List.not_mem_nil
  trans h h' hmem := (List.mem_append.mp hmem).elim h h'

theorem call_noDeath {program : ControllerProgram}
    (hprogram : Ensures ApplicationController.Quiet program) :
    Ensures NoDeath (call name program) := by
  refine hprogram.within ?_
  intro s c out hquiet hmem
  obtain ⟨signal, hsignal, heq⟩ := List.mem_map.mp hmem
  cases heq
  exact hquiet hsignal

theorem call_other_noDeath {program : ControllerProgram} (hname : name ≠ .currentApp) :
    Ensures NoDeath (call name program) := by
  intro s s' out h hmem
  obtain ⟨c, signals, -, -, rfl⟩ := within_ok h
  obtain ⟨signal, -, heq⟩ := List.mem_map.mp hmem
  cases heq
  exact hname rfl

theorem entered_noDeath (state : UIState) : Ensures NoDeath (entered attempts state) := by
  cases state with
  | waitAppVisibleLaunchingApp =>
      exact .andThen noDeath_composes (call_other_noDeath (by decide))
        (.andThen noDeath_composes (call_other_noDeath (by decide))
          (call_noDeath ApplicationController.launch_quiet))
  | _ => exact call_other_noDeath (by decide)

theorem exited_noDeath (state : UIState) : Ensures NoDeath (exited state) := by
  cases state with
  | appVisible =>
      exact .andThen noDeath_composes (call_other_noDeath (by decide))
        (call_noDeath ApplicationController.stop_quiet)
  | _ => exact .skip noDeath_composes

theorem enter_noDeath (target : UIState) : Ensures NoDeath (enter attempts target) :=
  .andThen noDeath_composes (.update fun _ => List.not_mem_nil)
    (.andThen noDeath_composes (entered_noDeath target) (.emit fun _ => by simp [NoDeath]))

theorem microstep_noDeath : Ensures NoDeath (microstep attempts signal) := by
  intro s s' out h
  unfold microstep at h
  split at h
  · cases h
    exact List.not_mem_nil
  rename_i state _
  split at h
  · cases h
    exact List.not_mem_nil
  · rename_i target _
    exact Ensures.andThen noDeath_composes (exited_noDeath state) (enter_noDeath target)
      s s' out h

theorem mem_reactions_died {simulated : Bool}
    (h : UISignal.died ∈ out.filterMap (reaction simulated)) :
    .controller .currentApp .died ∈ out := by
  obtain ⟨output, hmem, hreaction⟩ := List.mem_filterMap.mp h
  unfold reaction at hreaction
  split at hreaction
  · cases hreaction
  · exact hmem
  · split at hreaction <;> cases hreaction
  · cases hreaction

theorem runs_reaction (hs : Available s)
    (hsignal : signal ∈ [UISignal.launchFailed, .died, .waitappLaunchValidated])
    (hdied : signal = .died → s.currentApp.app ≠ none) :
    Runs (microstep attempts signal) s := by
  rw [runs_microstep hs]
  constructor
  · rintro - rfl
    simp at hsignal
  · rintro - (rfl | rfl)
    · simp at hsignal
    · exact runs_stop _ (hdied rfl)

theorem runs_handle (hs : Available s) :
    Runs (handle attempts signal) s ↔ Runs (microstep attempts signal) s := by
  refine runs_thenReact.trans ⟨?_, ?_⟩
  · rintro ⟨s', out, hmicrostep, -⟩
    exact runs_ok hmicrostep
  · rintro ⟨⟨s', out⟩, hmicrostep⟩
    refine ⟨s', out, hmicrostep, runs_forEach (I := Available) ?_
      (hs.of_keeps (microstep_keeps s s' out hmicrostep))⟩
    intro reaction hmem s₁ hs₁
    obtain ⟨⟨s₂, out₂⟩, hreaction⟩ : Runs (microstep attempts reaction) s₁ := by
      refine runs_reaction hs₁ (mem_reactions hmem) ?_
      rintro rfl
      exact absurd (mem_reactions_died hmem) (microstep_noDeath s s' out hmicrostep)
    exact ⟨s₂, out₂, hreaction, hs₁.of_keeps (microstep_keeps s₁ s₂ out₂ hreaction)⟩

theorem runs_dispatch (hs : Available s) (hkeeps : Ensures KeepsApplications program)
    (hdied : ∀ s' out, program s = .ok (s', out) →
      .controller .currentApp .died ∈ out → s.currentApp.app ≠ none) :
    Runs (dispatch attempts program) s ↔ Runs program s := by
  refine runs_thenReact.trans ⟨?_, ?_⟩
  · rintro ⟨s', out, hprogram, -⟩
    exact runs_ok hprogram
  · rintro ⟨⟨s', out⟩, hprogram⟩
    have hkept := hkeeps s s' out hprogram
    refine ⟨s', out, hprogram, runs_forEach
      (I := fun t => Available t ∧ t.currentApp.app = s.currentApp.app) ?_
      ⟨hs.of_keeps hkept, hkept.app .currentApp⟩⟩
    rintro reaction hmem s₁ ⟨hs₁, happ₁⟩
    obtain ⟨⟨s₂, out₂⟩, hreaction⟩ : Runs (handle attempts reaction) s₁ := by
      refine (runs_handle hs₁).mpr (runs_reaction hs₁ (mem_reactions hmem) ?_)
      rintro rfl
      rw [happ₁]
      exact hdied s' out hprogram (mem_reactions_died hmem)
    have hkept₁ := handle_keeps s₁ s₂ out₂ hreaction
    exact ⟨s₂, out₂, hreaction, hs₁.of_keeps hkept₁, (hkept₁.app .currentApp).trans happ₁⟩

end Available

section Events

variable {attempts : LaunchAttempts} {s s' : UIAppStateMachine} {out : List UIOutput}
  {event : UIEvent} {applicationId : String}

theorem runs_useApplication : Runs (useApplication applicationId) s ↔
    (s.currentApp.process = .Running → s.currentApp.app ≠ none) := by
  have hcall : Runs (useApplication applicationId) s ↔
      Runs (ApplicationController.stop.andThen
        (ApplicationController.setApplication s.applications[applicationId]?))
          s.currentApp := by
    have hwithin (program : ControllerProgram) :
        Runs (call .currentApp program) s ↔ Runs program s.currentApp := runs_within
    exact hwithin _
  rw [hcall, ← ApplicationController.runs_stop, runs_andThen]
  constructor
  · rintro ⟨c, out, hstop, -⟩
    exact runs_ok hstop
  · rintro ⟨⟨c, out⟩, hstop⟩
    exact ⟨c, out, hstop, _, rfl⟩

/-- What the requested launch finds: the process, if it ran, is being stopped. -/
theorem useApplication_currentApp (h : useApplication applicationId s = .ok (s', out)) :
    s'.currentState = s.currentState ∧ s'.waitapp = s.waitapp ∧ s'.mainui = s.mainui ∧
      s'.currentApp = { s.currentApp with
        app := s.applications[applicationId]?
        currentAction :=
          if s.currentApp.process = .Running then .STOPPING
          else s.currentApp.currentAction } := by
  unfold useApplication call at h
  obtain ⟨c, signals, hprogram, rfl, -⟩ := within_ok h
  obtain ⟨c₁, _, _, hstop, hset, -⟩ := andThen_ok hprogram
  cases hset
  refine ⟨rfl, rfl, rfl, ?_⟩
  simp only [setController]
  obtain rfl := ApplicationController.stop_ok hstop
  rfl

theorem runs_lauchApplication (hs : Available s) :
    Runs (perform attempts (.lauchApplication applicationId)) s ↔
      ¬ UsesMissing s (.lauchApplication applicationId) := by
  have hparts : Runs (perform attempts (.lauchApplication applicationId)) s ↔
      ∃ s' out, useApplication applicationId s = .ok (s', out) ∧
        Runs (handle attempts .appLaunchRequested) s' := runs_andThen
  have hlaunch {s' : UIAppStateMachine} {out : List UIOutput}
      (huse : useApplication applicationId s = .ok (s', out)) :
      Runs (handle attempts .appLaunchRequested) s' ↔
        (s.currentState = some .mainuiVisible → s.currentApp.process = .Running →
          s.currentApp.simulated = false →
          s.currentApp.timerCalledCounterForWaitingProcessToStopRunning = 3 →
          s.applications[applicationId]? ≠ none) := by
    obtain ⟨hstate, hwaitapp, hmainui, hcurrent⟩ := useApplication_currentApp huse
    have hs' : Available s' := ⟨hwaitapp ▸ hs.waitapp, hmainui ▸ hs.mainui⟩
    rw [runs_handle hs', runs_microstep hs', and_iff_left (by rintro - (h | h) <;> cases h),
      imp_iff_right rfl, ApplicationController.runs_launch, hstate, hcurrent]
    refine imp_congr_right fun _ => ⟨?_, ?_⟩
    · intro h hrunning hsimulated hcounter
      exact h ⟨hsimulated, if_pos hrunning, hcounter⟩ hrunning
    · rintro h ⟨hsimulated, -, hcounter⟩ hrunning
      exact h hrunning hsimulated hcounter
  rw [hparts]
  constructor
  · rintro ⟨s', out, huse, hhandle⟩ ⟨hrunning, hmissing | hmissing⟩
    · exact runs_useApplication.mp (runs_ok huse) hrunning hmissing
    · obtain ⟨hmainui, hunknown, hsimulated, hcounter⟩ := hmissing
      exact (hlaunch huse).mp hhandle hmainui hrunning hsimulated hcounter hunknown
  · intro hnot
    obtain ⟨⟨s', out⟩, huse⟩ := runs_useApplication.mpr fun hrunning hmissing =>
      hnot ⟨hrunning, .inl hmissing⟩
    refine ⟨s', out, huse, (hlaunch huse).mpr ?_⟩
    intro hmainui hrunning hsimulated hcounter hunknown
    exact hnot ⟨hrunning, .inr ⟨hmainui, hunknown, hsimulated, hcounter⟩⟩

theorem runs_handle_exit (hs : Available s) :
    Runs (handle attempts .appExitRequested) s ↔
      (s.currentState = some .appVisible → s.currentApp.process = .Running →
        s.currentApp.app ≠ none) := by
  have hexit : UISignal.appExitRequested = .appExitRequested ∨
      UISignal.appExitRequested = .died := .inl rfl
  rw [runs_handle hs, runs_microstep hs, and_iff_right (by rintro - h; cases h),
    imp_iff_right hexit, ApplicationController.runs_stop]

theorem runs_exitApplication (hs : Available s) :
    Runs (perform attempts (.exitApplication applicationId)) s ↔
      ¬ UsesMissing s (.exitApplication applicationId) := by
  by_cases hidentified : applicationId = ""
  · have hhandle : Runs (perform attempts (.exitApplication applicationId)) s ↔
        Runs (handle attempts .appExitRequested) s := by
      simp only [Runs, perform, exitApplication, if_pos hidentified]
    rw [hhandle, runs_handle_exit hs]
    simp only [UsesMissing, hidentified]
    tauto
  · cases happ : s.currentApp.app with
    | none =>
        refine iff_of_false ?_ (not_not.mpr ⟨happ, .inl hidentified⟩)
        rintro ⟨result, h⟩
        simp [perform, exitApplication, hidentified,
          ApplicationController.fullApplicationId, happ] at h
    | some app =>
        refine iff_of_true ?_ (by simp [UsesMissing, happ])
        by_cases hid : applicationId = app.id
        · obtain ⟨result, h⟩ : Runs (handle attempts .appExitRequested) s :=
            (runs_handle_exit hs).mpr (by simp [happ])
          exact ⟨result, by simpa [perform, exitApplication, hidentified,
            ApplicationController.fullApplicationId, happ, hid] using h⟩
        · exact ⟨(s, []), by simp [perform, exitApplication, hidentified,
            ApplicationController.fullApplicationId, happ, hid]⟩

theorem runs_perform (hs : Available s) :
    Runs (perform attempts event) s ↔ ¬ UsesMissing s event := by
  cases event with
  | start =>
      refine iff_of_true ?_ not_false
      cases hstate : s.currentState with
      | none =>
          have hdispatch : Runs (dispatch attempts (enter attempts .startup)) s := by
            refine (runs_dispatch hs (enter_keeps .startup) ?_).mpr ((runs_enter hs).mpr nofun)
            intro s' out h hmem
            exact absurd hmem (enter_noDeath .startup s s' out h)
          simpa only [Runs, perform, startMachine, hstate] using hdispatch
      | some state => exact ⟨(s, []), by simp only [perform, startMachine, hstate]⟩
  | lauchApplication applicationId => exact runs_lauchApplication hs
  | exitApplication applicationId => exact runs_exitApplication hs
  | applicationConnectionValidated applicationId =>
      refine iff_of_true ?_ not_false
      have hvalidated (signal : UISignal)
          (hsignal : signal ∈ [UISignal.waitappLaunchValidated, .mainuiLaunchValidated,
            .appLaunchValidated]) : Runs (handle attempts signal) s := by
        rw [runs_handle hs, runs_microstep hs]
        constructor
        · rintro - rfl
          simp at hsignal
        · rintro - (rfl | rfl) <;> simp at hsignal
      simp only [perform, applicationConnectionValidated]
      split
      · exact hvalidated _ (by simp)
      split
      · exact hvalidated _ (by simp)
      · exact hvalidated _ (by simp)
  | processEvent name event =>
      have hdispatch : Runs (perform attempts (.processEvent name event)) s ↔
          Runs (ApplicationController.processEvent event) (s.controller name) := by
        refine (runs_dispatch hs
          (call_keeps (ApplicationController.processEvent_keeps event)) ?_).trans runs_within
        intro s' out h hmem
        by_cases hname : name = .currentApp
        · subst hname
          obtain ⟨c, signals, hprogram, -, rfl⟩ := within_ok h
          refine ApplicationController.runs_processEvent.mp (runs_ok hprogram) ?_
          by_contra hprocess
          cases (ApplicationController.processEvent_ignored hprocess).symm.trans hprogram
          cases hmem
        · exact absurd hmem (call_other_noDeath hname s s' out h)
      rw [hdispatch, ApplicationController.runs_processEvent]
      cases name with
      | currentApp => simp only [UsesMissing, controller]; tauto
      | waitapp => exact iff_of_true (fun _ => hs.waitapp) not_false
      | mainui => exact iff_of_true (fun _ => hs.mainui) not_false
  | relaunchAfterDelay name =>
      have hdispatch : Runs (perform attempts (.relaunchAfterDelay name)) s ↔
          Runs (ApplicationController.relaunchAfterDelay (attempts name))
            (s.controller name) := by
        refine (runs_dispatch hs
          (call_keeps ApplicationController.relaunchAfterDelay_keeps) ?_).trans runs_within
        intro s' out h hmem
        exact absurd hmem
          (call_noDeath ApplicationController.relaunchAfterDelay_quiet s s' out h)
      rw [hdispatch, ApplicationController.runs_relaunchAfterDelay]
      cases name with
      | currentApp => simp only [UsesMissing, controller]; tauto
      | waitapp => exact iff_of_true (fun _ _ _ => hs.waitapp) not_false
      | mainui => exact iff_of_true (fun _ _ _ => hs.mainui) not_false
  | onApplicationsUpdated applications => exact iff_of_true ⟨_, rfl⟩ not_false

theorem perform_available (hs : Available s) (h : perform attempts event s = .ok (s', out)) :
    Available s' := by
  cases event with
  | lauchApplication applicationId =>
      obtain ⟨s₁, out₁, out₂, huse, hhandle, rfl⟩ := andThen_ok h
      obtain ⟨-, hwaitapp, hmainui, -⟩ := useApplication_currentApp huse
      have hs₁ : Available s₁ := ⟨hwaitapp ▸ hs.waitapp, hmainui ▸ hs.mainui⟩
      exact hs₁.of_keeps (handle_keeps s₁ s' out₂ hhandle)
  | onApplicationsUpdated applications =>
      cases h
      exact ⟨hs.waitapp, hs.mainui⟩
  | _ => exact hs.of_keeps (perform_keeps h trivial)

end Events

theorem run_ok_iff_neverMissing (waitapp mainui : Application) (simulated : Bool)
    (applications : List Application) (labels : List (UIEvent × LaunchAttempts)) :
    (∃ result, (machine (start waitapp mainui simulated applications)).run labels =
        .ok result) ↔
      (machine (start waitapp mainui simulated applications)).AtEach
        (fun _ s label => ¬ UsesMissing s label.1) labels := by
  rw [Machine.run_ok_iff]
  refine Machine.atEach_congr labels ?_
  intro history s label h
  have hs : Available s :=
    h.state_invariant ⟨Option.some_ne_none _, Option.some_ne_none _⟩
      fun hs hstep => perform_available hs hstep
  exact runs_perform hs

theorem exitBeforeLaunch_fails :
    (machine console).run [(.start, prepares), (.exitApplication "waitapp", prepares)] =
      .error .nullApplication :=
  rfl

end UIAppStateMachine

end GBerry.Comms
