import GBerry.Foundation.Execution

/-!
# What queues deliver

A queue that may lose what it carries delivers a part of what it was given, in
the same order and each element at most once.
-/

namespace GBerry.Foundation

variable {σ ℓ ω ε α : Type*}

def gather (part : Step σ ℓ ω → List α) : List (Step σ ℓ ω) → List α
  | [] => []
  | st :: older => gather part older ++ part st

theorem gather_map {β : Type*} (f : α → β) (part : Step σ ℓ ω → List α)
    (history : List (Step σ ℓ ω)) :
    gather (fun st => (part st).map f) history = (gather part history).map f := by
  induction history with
  | nil => rfl
  | cons st older ih => rw [gather, gather, ih, List.map_append]

/--
A step takes from the front of a queue what is delivered, and appends to the queue
no more than it is given; anything may get lost.
-/
def Delivers (queue queue' given taken : List α) : Prop :=
  List.Sublist (taken ++ queue') (queue ++ given)

namespace Delivers

variable {queue queue' queue'' given given' taken taken' : List α}

theorem refl (queue given : List α) : Delivers queue queue given [] :=
  List.sublist_append_left queue given

theorem give (h : List.Sublist queue' given) :
    Delivers queue (queue ++ queue') given [] :=
  (List.Sublist.refl queue).append h

theorem take (h : List.Sublist taken queue') : Delivers (queue' ++ queue) queue given taken :=
  (h.append (List.Sublist.refl queue)).trans (List.sublist_append_left _ _)

theorem trans (h : Delivers queue queue' given taken)
    (h' : Delivers queue' queue'' given' taken') :
    Delivers queue queue'' (given ++ given') (taken ++ taken') := by
  have hlater : List.Sublist (taken ++ (taken' ++ queue'')) (taken ++ (queue' ++ given')) :=
    (List.Sublist.refl taken).append h'
  have hfirst : List.Sublist (taken ++ queue' ++ given') (queue ++ given ++ given') :=
    List.Sublist.append h (List.Sublist.refl given')
  rw [← List.append_assoc, ← List.append_assoc] at hlater
  rw [Delivers, ← List.append_assoc]
  exact hlater.trans hfirst

theorem mono (h : Delivers queue queue' given taken) (hgiven : List.Sublist given given') :
    Delivers queue queue' given' taken :=
  List.Sublist.trans h ((List.Sublist.refl queue).append hgiven)

theorem map {β : Type*} (f : α → β) (h : Delivers queue queue' given taken) :
    Delivers (queue.map f) (queue'.map f) (given.map f) (taken.map f) := by
  unfold Delivers at h ⊢
  rw [← List.map_append, ← List.map_append]
  exact h.map f

theorem mono_taken (h : Delivers queue queue' given taken) (htaken : List.Sublist taken' taken) :
    Delivers queue queue' given taken' :=
  (htaken.append (List.Sublist.refl queue')).trans h

end Delivers

theorem Execution.delivers {M : Machine σ ℓ ω ε} (queue : σ → List α)
    (given taken : Step σ ℓ ω → List α) {history : List (Step σ ℓ ω)} {s : σ}
    (hinit : queue M.init = [])
    (hstep : ∀ {older : List (Step σ ℓ ω)} {s s' : σ} {l : ℓ} {out : List ω},
      Execution M older s → M.step s l = .ok (s', out) →
      Delivers (queue s) (queue s') (given ⟨s, l, out, s'⟩) (taken ⟨s, l, out, s'⟩))
    (h : Execution M history s) :
    List.Sublist (gather taken history ++ queue s) (gather given history) := by
  induction h with
  | start =>
      rw [hinit]
      exact List.nil_sublist _
  | @next history s s' l out hbefore hs ih =>
      have hnow := hstep hbefore hs
      have hmiddle : List.Sublist
          (gather taken history ++ (taken ⟨s, l, out, s'⟩ ++ queue s'))
          (gather taken history ++ (queue s ++ given ⟨s, l, out, s'⟩)) :=
        (List.Sublist.refl _).append hnow
      have hthen : List.Sublist
          (gather taken history ++ queue s ++ given ⟨s, l, out, s'⟩)
          (gather given history ++ given ⟨s, l, out, s'⟩) :=
        ih.append (List.Sublist.refl _)
      rw [← List.append_assoc, ← List.append_assoc] at hmiddle
      exact hmiddle.trans hthen

end GBerry.Foundation
