import GBerry.Comms.UIAppStateMachine.Visible

/-!
# Launch requests outside the main user interface

`lauchApplication` stops the process and selects the application, and only then
emits the signal, which every state but `mainuiVisible` drops.  What was stopped and
selected stays so.
-/

namespace GBerry.Comms.UIAppStateMachine

open GBerry.Common
open GBerry.Foundation
open Fallible

/-- The request leaves the current application alone, and the later run is the same. -/
def LaunchIgnored (attempts : LaunchAttempts) (s : UIAppStateMachine)
    (applicationId : String) : Prop :=
  ∃ s' out, perform attempts (.lauchApplication applicationId) s = .ok (s', out) ∧
    s'.currentState = s.currentState ∧ s'.currentApp.app = s.currentApp.app ∧
    s'.currentApp.process = s.currentApp.process ∧ .controller .currentApp .killed ∉ out ∧
    ∀ labels, (machine s').run labels = (machine s).run labels

/-- Nothing is running, and the application is the one that was selected last. -/
def RepeatsSelected (history : History) (s : UIAppStateMachine)
    (applicationId : String) : Prop :=
  s.currentApp.process ≠ .Running ∧ s.applications[applicationId]? = selected history

section Steps

variable {attempts : LaunchAttempts} {s s' : UIAppStateMachine} {out : List UIOutput}
  {signal : UISignal} {applicationId : String}

theorem handle_dropped
    (h : ∀ state, s.currentState = some state → state.transition signal = none) :
    handle attempts signal s = .ok (s, []) := by
  have hmicrostep : microstep attempts signal s = .ok (s, []) := by
    unfold microstep
    cases hstate : s.currentState with
    | none => rfl
    | some state => simp only [h state hstate]
  simp only [handle, reacting, thenReact, hmicrostep]
  rfl

theorem transition_appLaunchRequested {state : UIState} (h : state ≠ .mainuiVisible) :
    state.transition .appLaunchRequested = none := by
  cases state with
  | mainuiVisible => exact absurd rfl h
  | _ => rfl

theorem lauchApplication_outside (hstate : s.currentState ≠ some .mainuiVisible)
    (h : useApplication applicationId s = .ok (s', out)) :
    perform attempts (.lauchApplication applicationId) s = .ok (s', out) := by
  have hkept : s'.currentState = s.currentState := (call_stays _ _ s s' out h).1
  have hdropped : handle attempts .appLaunchRequested s' = .ok (s', []) := by
    refine handle_dropped ?_
    intro state hcurrent
    refine transition_appLaunchRequested ?_
    rintro rfl
    exact hstate (hkept.symm.trans hcurrent)
  simp only [perform, lauchApplication, andThen, h, hdropped, List.append_nil]

theorem useApplication_notRunning (applicationId : String)
    (hprocess : s.currentApp.process ≠ .Running) :
    useApplication applicationId s =
      .ok ({ s with currentApp :=
        { s.currentApp with app := s.applications[applicationId]? } }, []) := by
  simp [useApplication, call, within, controller, setController, andThen, update,
    ApplicationController.stop, ApplicationController.setApplication, hprocess]

theorem useApplication_running (hprocess : s.currentApp.process = .Running)
    (h : useApplication applicationId s = .ok (s', out)) :
    .controller .currentApp .killed ∈ out := by
  unfold useApplication call at h
  obtain ⟨c, signals, hprogram, -, rfl⟩ := within_ok h
  obtain ⟨c₁, signals₁, signals₂, hstop, -, rfl⟩ := andThen_ok hprogram
  have hprocess' : (s.controller .currentApp).process = .Running := hprocess
  simp only [ApplicationController.stop, if_pos hprocess',
    ApplicationController.withApplication] at hstop
  split at hstop
  · cases hstop
  · cases hstop
    exact List.mem_map_of_mem (List.mem_append_left _ List.mem_cons_self)

theorem launchIgnored_iff (hstate : s.currentState ≠ some .mainuiVisible) :
    LaunchIgnored attempts s applicationId ↔
      s.currentApp.process ≠ .Running ∧
        s.applications[applicationId]? = s.currentApp.app := by
  constructor
  · rintro ⟨s', out, hperform, -, happ, -, hkilled, -⟩
    obtain ⟨s₁, out₁, out₂, huse, hhandle, rfl⟩ := andThen_ok hperform
    refine ⟨?_, ?_⟩
    · intro hprocess
      exact hkilled (List.mem_append_left _ (useApplication_running hprocess huse))
    · rw [← happ]
      exact (perform_currentApp hperform).symm
  · rintro ⟨hprocess, happ⟩
    have huse := useApplication_notRunning applicationId hprocess
    rw [happ] at huse
    exact ⟨s, [], lauchApplication_outside hstate huse, rfl, rfl, rfl, List.not_mem_nil,
      fun _ => rfl⟩

end Steps

def AtRequestsOutside (init : UIAppStateMachine)
    (P : History → LaunchAttempts → UIAppStateMachine → String → Prop)
    (labels : List (UIEvent × LaunchAttempts)) : Prop :=
  (machine init).AtEach (fun history s label => ∀ applicationId,
    label.1 = .lauchApplication applicationId → s.currentState ≠ some .mainuiVisible →
      P history label.2 s applicationId) labels

theorem launchesIgnored_iff (waitapp mainui : Application) (simulated : Bool)
    (applications : List Application) (labels : List (UIEvent × LaunchAttempts)) :
    AtRequestsOutside (start waitapp mainui simulated applications)
        (fun _ => LaunchIgnored) labels ↔
      AtRequestsOutside (start waitapp mainui simulated applications)
        (fun history _ => RepeatsSelected history) labels := by
  refine Machine.atEach_congr labels ?_
  intro history s label h
  refine forall_congr' fun applicationId => imp_congr_right fun _ => ?_
  refine imp_congr_right fun hstate => (launchIgnored_iff hstate).trans ?_
  rw [currentApp_selected h]
  exact Iff.rfl

theorem secondLaunch_selects :
    ∃ history s, (machine (start ⟨"waitapp", "1"⟩ ⟨"mainui", "1"⟩ false
        [⟨"chess", "1"⟩, ⟨"go", "1"⟩])).run
      [(.start, prepares), (.applicationConnectionValidated "waitapp", prepares),
        (.applicationConnectionValidated "mainui", prepares),
        (.lauchApplication "chess-1", prepares)] = .ok (history, s) ∧
      s.currentState = some .waitAppVisibleLaunchingApp ∧
      ¬ LaunchIgnored prepares s "go-1" := by
  refine ⟨_, _, rfl, rfl, ?_⟩
  rw [launchIgnored_iff (by decide)]
  rintro ⟨-, happ⟩
  revert happ
  decide

end GBerry.Comms.UIAppStateMachine
