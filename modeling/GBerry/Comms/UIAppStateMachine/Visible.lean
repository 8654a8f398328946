import GBerry.Comms.UIAppStateMachine

/-!
# The application that becomes visible

The application that `useApplication` selected last is the one of the controller.
The machine does not compare it with the id that was validated: every id but those
of the wait screen and of the main user interface makes it visible.
-/

namespace GBerry.Comms.UIAppStateMachine

open GBerry.Common
open GBerry.Foundation
open Fallible

/-- What the last `useApplication` found. -/
def selected : History → Option Application
  | [] => none
  | st :: older =>
      match st.label.1 with
      | .lauchApplication applicationId => st.pre.applications[applicationId]?
      | _ => selected older

/-- The step makes no application visible but the selected one, validated by its id. -/
def VisibleIsSelected (older : History)
    (st : Step UIAppStateMachine (UIEvent × LaunchAttempts) UIOutput) : Prop :=
  .enteredState .appVisible ∈ st.out →
    ∃ applicationId app, st.label.1 = .applicationConnectionValidated applicationId ∧
      applicationId ≠ "" ∧ selected older = some app ∧ app.applicationId = applicationId

/-- While an application is launched, no connection of another one is validated. -/
def ValidatesCurrent (s : UIAppStateMachine) : UIEvent → Prop
  | .applicationConnectionValidated applicationId =>
      s.currentState = some .waitAppVisibleLaunchingApp →
      applicationId ≠ "waitapp" → applicationId ≠ "mainui" →
      applicationId ≠ "" ∧
        ∃ app, s.currentApp.app = some app ∧ app.applicationId = applicationId
  | _ => True

section Steps

variable {attempts : LaunchAttempts} {s s' : UIAppStateMachine} {out : List UIOutput}
  {signal : UISignal} {program : UIProgram} {event : UIEvent}

theorem transition_appVisible {state : UIState} :
    state.transition signal = some .appVisible ↔
      state = .waitAppVisibleLaunchingApp ∧ signal = .appLaunchValidated := by
  cases state <;> cases signal <;> simp [UIState.transition]

theorem microstep_visible (h : microstep attempts signal s = .ok (s', out)) :
    .enteredState .appVisible ∈ out ↔
      s.currentState = some .waitAppVisibleLaunchingApp ∧ signal = .appLaunchValidated := by
  rcases microstep_ok h with ⟨-, rfl, hdropped⟩ |
    ⟨state, target, hstate, htransition, -, hentered⟩
  · constructor
    · intro hmem
      cases hmem
    · rintro ⟨hstate, rfl⟩
      cases hdropped _ hstate
  · rw [hentered, eq_comm, hstate, Option.some.injEq]
    constructor
    · rintro rfl
      exact transition_appVisible.mp htransition
    · intro hvalidated
      exact Option.some.inj (htransition.symm.trans (transition_appVisible.mpr hvalidated))

def NotVisible (_ _ : UIAppStateMachine) (out : List UIOutput) : Prop :=
  .enteredState .appVisible ∉ out

theorem notVisible_composes : Composes NotVisible where
  refl _ := List.not_mem_nil
  trans h h' hmem := (List.mem_append.mp hmem).elim h h'

theorem notVisible_of_stays (h : Ensures Stays program) : Ensures NotVisible program :=
  fun s s' out hs' => (h s s' out hs').2 .appVisible

theorem microstep_notVisible (hsignal : signal ≠ .appLaunchValidated) :
    Ensures NotVisible (microstep attempts signal) := by
  intro s s' out h hmem
  exact hsignal ((microstep_visible h).mp hmem).2

theorem reactions_notVisible (signal : UISignal)
    (h : signal ∈ [UISignal.launchFailed, .died, .waitappLaunchValidated]) :
    Ensures NotVisible (microstep attempts signal) := by
  refine microstep_notVisible ?_
  rintro rfl
  simp at h

theorem handle_notVisible (hsignal : signal ≠ .appLaunchValidated) :
    Ensures NotVisible (handle attempts signal) :=
  reacting_ensures notVisible_composes (microstep_notVisible hsignal) reactions_notVisible

theorem dispatch_notVisible (h : Ensures NotVisible program) :
    Ensures NotVisible (dispatch attempts program) := by
  refine reacting_ensures notVisible_composes h ?_
  intro reaction hreaction
  refine handle_notVisible ?_
  rintro rfl
  simp at hreaction

theorem handle_visible (h : handle attempts signal s = .ok (s', out)) :
    .enteredState .appVisible ∈ out ↔
      s.currentState = some .waitAppVisibleLaunchingApp ∧ signal = .appLaunchValidated := by
  obtain ⟨s₁, out₁, out₂, hs₁, hreact, rfl⟩ := thenReact_ok h
  have hquiet : .enteredState .appVisible ∉ out₂ := by
    refine Ensures.forEach notVisible_composes ?_ s₁ s' out₂ hreact
    intro reaction hreaction
    exact reactions_notVisible reaction (mem_reactions hreaction)
  rw [List.mem_append, or_iff_left hquiet]
  exact microstep_visible hs₁

theorem perform_visible (h : perform attempts event s = .ok (s', out)) :
    .enteredState .appVisible ∈ out ↔
      s.currentState = some .waitAppVisibleLaunchingApp ∧
        ∃ applicationId, event = .applicationConnectionValidated applicationId ∧
          applicationId ≠ "waitapp" ∧ applicationId ≠ "mainui" := by
  have hother (hquiet : .enteredState .appVisible ∉ out)
      (hevent : ∀ applicationId, event ≠ .applicationConnectionValidated applicationId) :
      .enteredState .appVisible ∈ out ↔
        s.currentState = some .waitAppVisibleLaunchingApp ∧
          ∃ applicationId, event = .applicationConnectionValidated applicationId ∧
            applicationId ≠ "waitapp" ∧ applicationId ≠ "mainui" := by
    refine iff_of_false hquiet ?_
    rintro ⟨-, applicationId, rfl, -⟩
    exact hevent applicationId rfl
  cases event with
  | start =>
      refine hother ?_ (by rintro _ ⟨⟩)
      simp only [perform, startMachine] at h
      split at h
      · refine dispatch_notVisible ?_ s s' out h
        intro s s' out henter hmem
        cases ((enter_ok henter).2 .appVisible).mp hmem
      · cases h
        exact List.not_mem_nil
  | lauchApplication applicationId =>
      refine hother ?_ (by rintro _ ⟨⟩)
      refine Ensures.andThen notVisible_composes ?_ (handle_notVisible (by decide)) s s' out h
      intro s s' out hcall
      exact notVisible_of_stays (call_stays _ _) s s' out hcall
  | exitApplication applicationId =>
      refine hother ?_ (by rintro _ ⟨⟩)
      simp only [perform, exitApplication] at h
      split at h
      · exact handle_notVisible (by decide) s s' out h
      split at h
      · cases h
      split at h
      · exact handle_notVisible (by decide) s s' out h
      · cases h
        exact List.not_mem_nil
  | applicationConnectionValidated applicationId =>
      simp only [perform, applicationConnectionValidated] at h
      split at h
      · rename_i hwaitapp
        rw [handle_visible h]
        simp [hwaitapp]
      split at h
      · rename_i hmainui
        rw [handle_visible h]
        simp [hmainui]
      · rename_i hwaitapp hmainui
        rw [handle_visible h]
        simp [hwaitapp, hmainui]
  | processEvent name event =>
      exact hother (dispatch_notVisible (notVisible_of_stays (call_stays _ _)) s s' out h)
        (by rintro _ ⟨⟩)
  | relaunchAfterDelay name =>
      exact hother (dispatch_notVisible (notVisible_of_stays (call_stays _ _)) s s' out h)
        (by rintro _ ⟨⟩)
  | onApplicationsUpdated applications =>
      refine hother ?_ (by rintro _ ⟨⟩)
      cases h
      exact List.not_mem_nil

end Steps

variable {waitapp mainui : Application} {simulated : Bool} {applications : List Application}
  {history : History} {s : UIAppStateMachine}

theorem currentApp_selected
    (h : Execution (machine (start waitapp mainui simulated applications)) history s) :
    s.currentApp.app = selected history := by
  refine h.invariant (I := fun history s => s.currentApp.app = selected history) rfl ?_
  intro history s s' label out _ hselected hstep
  rw [perform_currentApp hstep]
  obtain ⟨event, attempts⟩ := label
  cases event with
  | lauchApplication applicationId => rfl
  | _ => exact hselected

theorem visibleIsSelected_iff
    (h : Execution (machine (start waitapp mainui simulated applications)) history s) :
    Execution.EachStep VisibleIsSelected history ↔
      Execution.EachStep (fun _ st => ValidatesCurrent st.pre st.label.1) history := by
  refine h.eachStep_iff ?_
  intro older s s' label out hbefore hstep
  have hvisible := perform_visible hstep
  have hselected := currentApp_selected hbefore
  constructor
  · intro hproperty
    unfold ValidatesCurrent
    split
    · rename_i applicationId hevent
      intro hstate hwaitapp hmainui
      obtain ⟨other, app, hother, hidentified, happ, hid⟩ :=
        hproperty (hvisible.mpr ⟨hstate, applicationId, hevent, hwaitapp, hmainui⟩)
      obtain rfl := UIEvent.applicationConnectionValidated.inj (hevent.symm.trans hother)
      exact ⟨hidentified, app, hselected.trans happ, hid⟩
    · trivial
  · intro hvalidates hmem
    obtain ⟨hstate, applicationId, hevent, hwaitapp, hmainui⟩ := hvisible.mp hmem
    have hevent' : label.1 = .applicationConnectionValidated applicationId := hevent
    simp only [hevent', ValidatesCurrent] at hvalidates
    obtain ⟨hidentified, app, happ, hid⟩ := hvalidates hstate hwaitapp hmainui
    exact ⟨applicationId, app, hevent, hidentified, hselected.symm.trans happ, hid⟩

def prepares : LaunchAttempts := fun _ => ⟨true, 0⟩

/-- The console starts, an application is launched, and a connection is validated. -/
def launches (validated : String) : List (UIEvent × LaunchAttempts) :=
  [(.start, prepares), (.applicationConnectionValidated "waitapp", prepares),
    (.applicationConnectionValidated "mainui", prepares),
    (.lauchApplication "chess-1", prepares),
    (.applicationConnectionValidated validated, prepares)]

def console : UIAppStateMachine :=
  start ⟨"waitapp", "1"⟩ ⟨"mainui", "1"⟩ false [⟨"chess", "1"⟩]

theorem launches_selected :
    ∃ history s, (machine console).run (launches "chess") = .ok (history, s) ∧
      s.currentState = some .appVisible ∧
      Execution.EachStep VisibleIsSelected history := by
  refine ⟨_, _, rfl, rfl, (visibleIsSelected_iff (Machine.run_execution
    (show (machine console).run (launches "chess") = .ok (_, _) from rfl))).mpr ?_⟩
  refine ⟨?_, trivial, ?_, ?_, trivial, trivial⟩
  · intro _ _ _
    exact ⟨by decide, ⟨"chess", "1"⟩, rfl, rfl⟩
  · intro _ _ hmainui
    exact absurd rfl hmainui
  · intro _ hwaitapp
    exact absurd rfl hwaitapp

theorem launches_anonymous :
    ∃ history s, (machine console).run (launches "") = .ok (history, s) ∧
      s.currentState = some .appVisible ∧
      ¬ Execution.EachStep VisibleIsSelected history := by
  refine ⟨_, _, rfl, rfl, ?_⟩
  intro hall
  have hentered : UIOutput.enteredState .appVisible ∈
      [.enteredState .appVisible] := by decide
  obtain ⟨applicationId, app, hevent, hidentified, -⟩ := hall.1 hentered
  cases hevent
  exact hidentified rfl

end GBerry.Comms.UIAppStateMachine
