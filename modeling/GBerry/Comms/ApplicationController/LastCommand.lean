import GBerry.Comms.ApplicationController.Signals

/-!
# The last command

What becomes of a process when `stop` was the last command: the timers and the
events of the process go on until nothing is pending.  A stop does nothing while the
process starts, and a launch that was delayed is not forgotten.
-/

namespace GBerry.Comms

open GBerry.Foundation
open Fallible

def ControllerCall.IsCommand : ControllerCall → Prop
  | .launch _ => True
  | .stop => True
  | _ => False

namespace ApplicationController

def onward (c : ApplicationController) :
    Machine ApplicationController ControllerCall ControllerSignal ControllerFault :=
  Fallible.machine c perform

/-- No timer is pending, and the process neither starts nor has it been killed. -/
structure Quiescent (c : ApplicationController) : Prop where
  timers : c.relaunchTimers = 0
  starting : c.process ≠ .Starting
  killed : c.process = .Running → c.currentAction ≠ .STOPPING

/-- However it goes on after a `stop` without another command. -/
def StopWins (c : ApplicationController) : Prop :=
  ∀ c₁ out, stop c = .ok (c₁, out) →
    ∀ history c', Execution (onward c₁) history c' →
      (∀ st ∈ history, ¬ st.label.IsCommand) → Quiescent c' →
      c'.process = .NotRunning ∧ ∀ app, .started app ∉ outputs history

section Winding

variable {app : Option Application} {c c' : ApplicationController}
  {out : List ControllerSignal}

structure Winding (app : Option Application) (c : ApplicationController) : Prop where
  sound : Sound app c
  timers : c.relaunchTimers = 0
  process : c.process = .NotRunning ∨ c.currentAction = .STOPPING

theorem Winding.starting (h : Winding app c) : c.process ≠ .Starting := by
  intro hstarting
  cases h.process with
  | inl hidle => cases hidle.symm.trans hstarting
  | inr hstopping => cases (h.sound.stopping hstopping).symm.trans hstarting

theorem Winding.step {call : ControllerCall} (h : Winding app c) (hcall : ¬ call.IsCommand)
    (hstep : perform call c = .ok (c', out)) :
    Winding app c' ∧ ∀ a, .started a ∉ out := by
  have hsound : Sound app c' := (step_sound h.sound call hstep).1
  cases call with
  | launch attempt => exact absurd trivial hcall
  | stop => exact absurd trivial hcall
  | pause =>
      simp only [perform, pause] at hstep
      split at hstep
      · obtain ⟨a, -, heq⟩ := h.sound.withApplication (h.sound.started (by simp [*]))
          fun _ => emit [.paused]
        cases heq.symm.trans hstep
        exact ⟨h, by simp⟩
      · cases hstep
        exact ⟨h, by simp⟩
  | resume =>
      simp only [perform, resume] at hstep
      split at hstep
      · obtain ⟨a, -, heq⟩ := h.sound.withApplication (h.sound.started (by simp [*]))
          fun _ => emit [.resumed]
        cases heq.symm.trans hstep
        exact ⟨h, by simp⟩
      · cases hstep
        exact ⟨h, by simp⟩
  | relaunchAfterDelay attempt =>
      simp only [perform, relaunchAfterDelay, h.timers, Nat.lt_irrefl, if_false] at hstep
      cases hstep
      exact ⟨h, by simp⟩
  | processEvent event =>
      cases event with
      | running =>
          cases (if_neg h.starting : processEvent .running c = _).symm.trans hstep
          exact ⟨h, by simp⟩
      | failsToStart =>
          cases (if_neg h.starting : processEvent .failsToStart c = _).symm.trans hstep
          exact ⟨h, by simp⟩
      | finished =>
          by_cases hrunning : c.process = .Running
          · cases (h.sound.processFinished hrunning).symm.trans hstep
            refine ⟨⟨hsound, h.timers, .inl rfl⟩, ?_⟩
            intro a hmem
            rcases List.mem_append.mp hmem with hfirst | hlast
            · split at hfirst <;> simp at hfirst
            · split at hlast <;> simp at hlast
          · cases (if_neg hrunning : processEvent .finished c = _).symm.trans hstep
            exact ⟨h, by simp⟩

theorem Winding.execution {history : History} (h : Winding app c)
    (hexec : Execution (onward c) history c') (hcalls : ∀ st ∈ history, ¬ st.label.IsCommand) :
    Winding app c' ∧ ∀ a, .started a ∉ outputs history := by
  refine hexec.invariant (I := fun history c' => (∀ st ∈ history, ¬ st.label.IsCommand) →
    Winding app c' ∧ ∀ a, .started a ∉ outputs history) ?_ ?_ hcalls
  · intro _
    exact ⟨h, by simp [outputs]⟩
  · intro older c₁ c₂ call out _ ih hstep hcalls
    obtain ⟨hwinding, hnone⟩ := ih fun st hst => hcalls st (List.mem_cons_of_mem _ hst)
    obtain ⟨hwinding', hnone'⟩ := hwinding.step (hcalls _ List.mem_cons_self) hstep
    refine ⟨hwinding', ?_⟩
    intro a hmem
    rcases List.mem_append.mp hmem with hold | hnew
    · exact hnone a hold
    · exact hnone' a hnew

theorem stopWins_of_settled (hc : Sound app c) (hstarting : c.process ≠ .Starting)
    (htimers : c.relaunchTimers = 0) : StopWins c := by
  intro c₁ out hstop history c' hexec hcalls hquiescent
  have hwinding : Winding app c₁ := by
    by_cases hrunning : c.process = .Running
    · cases (hc.stop_running hrunning).symm.trans hstop
      exact ⟨hc.kill hrunning, htimers, .inr rfl⟩
    · cases (stop_notRunning hrunning).symm.trans hstop
      refine ⟨hc, htimers, .inl ?_⟩
      cases hprocess : c.process with
      | NotRunning => rfl
      | Starting => exact absurd hprocess hstarting
      | Running => exact absurd hprocess hrunning
  obtain ⟨hlast, hnone⟩ := hwinding.execution hexec hcalls
  refine ⟨?_, hnone⟩
  rcases hlast.process with hidle | hstopping
  · exact hidle
  · exact absurd hstopping (hquiescent.killed (hlast.sound.stopping hstopping))

end Winding

section Continuations

variable {app : Option Application} {c₀ c c' : ApplicationController}

def Reaches (c₀ : ApplicationController) (history : History) (c : ApplicationController) :
    Prop :=
  Execution (onward c₀) history c ∧ ∀ st ∈ history, ¬ st.label.IsCommand

theorem reaches_start : Reaches c₀ [] c₀ := ⟨.start, by simp⟩

theorem Reaches.step {history : History} {out : List ControllerSignal}
    (h : Reaches c₀ history c) (call : ControllerCall) (hcall : ¬ call.IsCommand)
    (hstep : perform call c = .ok (c', out)) :
    Reaches c₀ (⟨c, call, out, c'⟩ :: history) c' := by
  refine ⟨h.1.next hstep, ?_⟩
  intro st hst
  rcases List.mem_cons.mp hst with rfl | hold
  · exact hcall
  · exact h.2 st hold

def prepares : LaunchAttempt := ⟨true, 0⟩
def prepareFails : LaunchAttempt := ⟨false, 0⟩

theorem Reaches.drain {history : History} (h : Reaches c₀ history c) (hc : Sound app c)
    (haction : c.currentAction ≠ .STOPPING) :
    ∃ newer, Reaches c₀ (newer ++ history) { c with relaunchTimers := 0 } := by
  generalize htimers : c.relaunchTimers = timers
  induction timers generalizing history c with
  | zero =>
      refine ⟨[], ?_⟩
      rw [← htimers]
      exact h
  | succ timers ih =>
      have hfails : perform (.relaunchAfterDelay prepareFails) c =
          .ok ({ c with relaunchTimers := timers }, [.launchFailed]) := by
        have hlaunch := hc.expire.launch_failed prepareFails haction (.inr rfl)
        rw [perform, relaunchAfterDelay, if_pos (by omega), hlaunch, htimers]
        rfl
      have hc' : Sound app { c with relaunchTimers := timers } := by
        have hexpired := hc.expire
        rw [htimers] at hexpired
        exact hexpired
      obtain ⟨newer, hreaches⟩ := ih (h.step _ id hfails) hc' haction rfl
      refine ⟨newer ++ [⟨c, .relaunchAfterDelay prepareFails, [.launchFailed],
        { c with relaunchTimers := timers }⟩], ?_⟩
      rw [List.append_assoc]
      exact hreaches

theorem outputs_append (newer older : History) :
    outputs (newer ++ older) = outputs older ++ outputs newer := by
  induction newer with
  | nil => simp [outputs]
  | cons st newer ih => simp [outputs, ih]

theorem not_stopWins_of_starting (hc : Sound app c) (h : c.process = .Starting) :
    ¬ StopWins c := by
  intro hwins
  have hstop : stop c = .ok (c, []) := stop_notRunning (by simp [h])
  have hruns := hc.processRunning h
  have hc' := (step_sound hc (.processEvent .running) hruns).1
  obtain ⟨newer, hreaches⟩ :=
    (reaches_start.step (.processEvent .running) id hruns).drain hc' (by simp)
  have hend := (hwins c [] hstop _ _ hreaches.1 hreaches.2
    ⟨rfl, by simp, fun _ => by simp⟩).1
  cases hend

/-- The process is gone while a timer is pending, whose launch then starts it. -/
theorem relaunches {history : History} (h : Reaches c₀ history c) (hc : Sound app c)
    (hidle : c.process = .NotRunning) (htimers : 0 < c.relaunchTimers) :
    ∃ history' c', Reaches c₀ history' c' ∧ Quiescent c' ∧
      ∃ a, .started a ∈ outputs history' := by
  obtain ⟨a, rfl⟩ := Option.isSome_iff_exists.mp (hc.delayed htimers)
  have hexpired := hc.expire
  have hlaunch := hexpired.launch_prepared prepares
    (by simp [hc.idle hidle]) rfl
  rw [if_pos hidle] at hlaunch
  have hstep : perform (.relaunchAfterDelay prepares) c = _ := (if_pos htimers).trans hlaunch
  have hc₁ := (step_sound hc (.relaunchAfterDelay prepares) hstep).1
  have hfails := hc₁.processFails rfl
  have hc₂ := (step_sound hc₁ (.processEvent .failsToStart) hfails).1
  obtain ⟨newer, hreaches⟩ := ((h.step _ id hstep).step
    (.processEvent .failsToStart) id hfails).drain hc₂ (by simp)
  refine ⟨_, _, hreaches, ⟨rfl, by simp, fun _ => by simp⟩, a, ?_⟩
  rw [outputs_append]
  simp [outputs]

theorem not_stopWins_of_timers (hc : Sound app c) (hstarting : c.process ≠ .Starting)
    (htimers : 0 < c.relaunchTimers) : ¬ StopWins c := by
  intro hwins
  by_cases hrunning : c.process = .Running
  · have hstop := hc.stop_running hrunning
    have hc₁ := hc.kill hrunning
    have hfinished := hc₁.processFinished hrunning
    have hc₂ := (step_sound hc₁ (.processEvent .finished) hfinished).1
    obtain ⟨history, c', hreaches, hquiescent, a, ha⟩ :=
      relaunches (reaches_start.step (.processEvent .finished) id hfinished) hc₂ rfl htimers
    exact (hwins _ _ hstop history c' hreaches.1 hreaches.2 hquiescent).2 a ha
  · have hidle : c.process = .NotRunning := by
      cases hprocess : c.process with
      | NotRunning => rfl
      | Starting => exact absurd hprocess hstarting
      | Running => exact absurd hprocess hrunning
    obtain ⟨history, c', hreaches, hquiescent, a, ha⟩ :=
      relaunches reaches_start hc hidle htimers
    exact (hwins c [] (stop_notRunning hrunning) history c' hreaches.1 hreaches.2
      hquiescent).2 a ha

end Continuations

theorem stopWins_iff (app : Option Application) (calls : List ControllerCall) :
    ∃ history c, (machine app).run calls = .ok (history, c) ∧
      (StopWins c ↔ c.process ≠ .Starting ∧ c.relaunchTimers = 0) := by
  obtain ⟨history, c, hrun⟩ := runs app calls
  have hc := sound_of_execution (Machine.run_execution hrun)
  refine ⟨history, c, hrun, ?_, fun ⟨hstarting, htimers⟩ =>
    stopWins_of_settled hc hstarting htimers⟩
  intro hwins
  have hstarting : c.process ≠ .Starting := fun h => not_stopWins_of_starting hc h hwins
  refine ⟨hstarting, ?_⟩
  by_contra htimers
  exact not_stopWins_of_timers hc hstarting (by omega) hwins

def chess : Application := ⟨"chess", "1"⟩

/-- A stop that comes while the process starts, which then runs on. -/
theorem stopsWhileStarting_runsOn :
    ¬ ∀ calls later history c, (∀ call ∈ later, ¬ call.IsCommand) →
      (machine (some chess)).run (calls ++ .stop :: later) = .ok (history, c) →
      Quiescent c → c.process = .NotRunning := by
  intro h
  have hend := h [.launch prepares] [.processEvent .running] _ _ ?_ rfl
    ⟨rfl, by decide, by decide⟩
  · cases hend
  · intro call hcall
    obtain rfl := List.mem_singleton.mp hcall
    exact id

end ApplicationController

end GBerry.Comms
