import GBerry.Foundation.Execution

/-!
# Lifecycles of sessions

The events of one session, as an observer of a machine sees them: the session
starts, messages are received, and it may end, after which nothing follows.
-/

namespace GBerry.Foundation

inductive SessionEvent (μ : Type) where
  | connected
  | received (message : μ)
  | disconnected

namespace SessionEvent

variable {μ : Type} {events : List (SessionEvent μ)}

def ending (ended : Bool) : List (SessionEvent μ) :=
  if ended then [disconnected] else []

def session (messages : List μ) (ended : Bool) : List (SessionEvent μ) :=
  connected :: messages.map received ++ ending ended

/-- Nothing has happened yet, or the events are those of one session. -/
def WellFormed (events : List (SessionEvent μ)) : Prop :=
  events = [] ∨ ∃ messages ended, events = session messages ended

def Ended (events : List (SessionEvent μ)) : Prop := disconnected ∈ events

theorem ended_session (messages : List μ) (ended : Bool) :
    Ended (session messages ended) ↔ ended = true := by
  cases ended <;> simp [Ended, session, ending]

theorem wellFormed_nil : WellFormed ([] : List (SessionEvent μ)) := .inl rfl

theorem wellFormed_connected : WellFormed ([connected] : List (SessionEvent μ)) :=
  .inr ⟨[], false, rfl⟩

theorem session_received (messages : List μ) (message : μ) :
    session messages false ++ [received message] =
      session (messages ++ [message]) false := by
  simp [session, ending]

theorem session_disconnected (messages : List μ) :
    session messages false ++ [disconnected] = session messages true := by
  simp [session, ending]

theorem not_wellFormed_received (messages : List μ) (message : μ) :
    ¬ WellFormed (session messages true ++ [received message]) := by
  intro h
  cases h with
  | inl hnil => simp [session] at hnil
  | inr hsession =>
      obtain ⟨messages', ended, heq⟩ := hsession
      have hended : Ended (session messages' ended) := by
        rw [← heq]
        simp [Ended, session, ending]
      rw [(ended_session messages' ended).mp hended, ← session_disconnected messages']
        at heq
      have hlast := (List.append_inj' heq rfl).2
      cases hlast

theorem WellFormed.received_iff (h : WellFormed events) (hstarted : events ≠ [])
    (message : μ) : WellFormed (events ++ [received message]) ↔ ¬ Ended events := by
  obtain ⟨messages, ended, rfl⟩ := h.resolve_left hstarted
  cases ended with
  | true =>
      have hended := (ended_session messages true).mpr rfl
      exact iff_of_false (not_wellFormed_received messages message)
        (fun h => h hended)
  | false =>
      have hopen : ¬ Ended (session messages false) := by
        simp [ended_session]
      rw [session_received]
      exact iff_of_true (.inr ⟨_, false, rfl⟩) hopen

theorem WellFormed.disconnect (h : WellFormed events) (hstarted : events ≠ [])
    (hopen : ¬ Ended events) : WellFormed (events ++ [disconnected]) := by
  obtain ⟨messages, ended, rfl⟩ := h.resolve_left hstarted
  rw [ended_session, Bool.not_eq_true] at hopen
  rw [hopen, session_disconnected]
  exact .inr ⟨messages, true, rfl⟩

end SessionEvent

/-- All outputs of an execution, in the order in which they were made. -/
def outputs {σ ℓ ω : Type*} : List (Step σ ℓ ω) → List ω
  | [] => []
  | st :: older => outputs older ++ st.out

end GBerry.Foundation
