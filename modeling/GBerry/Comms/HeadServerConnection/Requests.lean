import GBerry.Comms.HeadServerConnection

/-!
# The requests of the connection

A request leaves the queue when it is executed, and is finished by its invocation.
A ping that fails finishes the requests of the queue as well, and leaves them
where they are.
-/

namespace GBerry.Comms.HeadServerConnection

open GBerry.Foundation

def executes : ConnectionSignal → Option Nat
  | .prepareInvocation request => some request
  | _ => none

def finishes : ConnectionSignal → Option Nat
  | .finishedOk request => some request
  | .finishedError request _ => some request
  | _ => none

def executed (signals : List ConnectionSignal) : List Nat := signals.filterMap executes

def finished (signals : List ConnectionSignal) : List Nat := signals.filterMap finishes

/--
The requests are executed once at most and in the order in which they were made,
each is finished once at most, and none is executed after it was finished.
-/
structure EachOnce (signals : List ConnectionSignal) : Prop where
  executed : (executed signals).Pairwise (· < ·)
  finished : (finished signals).Nodup
  afterwards : signals.Pairwise fun earlier later =>
    ∀ request, finishes earlier = some request → executes later ≠ some request

structure Orderly (c : HeadServerConnection) (past : List ConnectionSignal) : Prop where
  once : EachOnce past
  queued : (executed past ++ c.requestQueue).Pairwise (· < ·)
  made : ∀ request ∈ executed past ++ c.requestQueue, request < c.made
  accounted : (finished past ++ c.invocations).Nodup
  started : ∀ request ∈ finished past ++ c.invocations, request ∈ executed past

section Signals

variable {past : List ConnectionSignal} {signal : ConnectionSignal} {request : Nat}

theorem executed_append_other (h : executes signal = none) :
    executed (past ++ [signal]) = executed past := by
  simp [executed, h]

theorem executed_append (h : executes signal = some request) :
    executed (past ++ [signal]) = executed past ++ [request] := by
  simp [executed, h]

theorem finished_append_other (h : finishes signal = none) :
    finished (past ++ [signal]) = finished past := by
  simp [finished, h]

theorem finished_append (h : finishes signal = some request) :
    finished (past ++ [signal]) = finished past ++ [request] := by
  simp [finished, h]

theorem mem_finished {earlier : ConnectionSignal} (hmem : earlier ∈ past)
    (h : finishes earlier = some request) : request ∈ finished past :=
  List.mem_filterMap.mpr ⟨earlier, hmem, h⟩

theorem afterwards_append
    (hpast : past.Pairwise fun earlier later =>
      ∀ request, finishes earlier = some request → executes later ≠ some request)
    (hnew : ∀ request ∈ finished past, executes signal ≠ some request) :
    (past ++ [signal]).Pairwise fun earlier later =>
      ∀ request, finishes earlier = some request → executes later ≠ some request := by
  refine List.pairwise_append.mpr ⟨hpast, List.pairwise_singleton _ _, ?_⟩
  intro earlier hmem later hlater request hfinishes
  obtain rfl := List.mem_singleton.mp hlater
  exact hnew request (mem_finished hmem hfinishes)

end Signals

section Actions

variable {obtains : Nat → Bool} {c : HeadServerConnection}
  {past : List ConnectionSignal}

theorem Orderly.congr {c' : HeadServerConnection} (h : Orderly c past)
    (hqueue : c'.requestQueue = c.requestQueue) (hmade : c'.made = c.made)
    (hinvocations : c'.invocations = c.invocations) : Orderly c' past := by
  refine ⟨h.once, ?_, ?_, ?_, ?_⟩
  · rw [hqueue]
    exact h.queued
  · rw [hqueue, hmade]
    exact h.made
  · rw [hinvocations]
    exact h.accounted
  · rw [hinvocations]
    exact h.started

theorem Orderly.enqueue (h : Orderly c past) : Orderly c.enqueue past := by
  refine ⟨h.once, ?_, ?_, h.accounted, h.started⟩
  · simp only [HeadServerConnection.enqueue]
    rw [← List.append_assoc]
    refine List.pairwise_append.mpr ⟨h.queued, List.pairwise_singleton _ _, ?_⟩
    intro earlier hmem later hlater
    obtain rfl := List.mem_singleton.mp hlater
    exact h.made earlier hmem
  · intro request hmem
    simp only [HeadServerConnection.enqueue] at hmem ⊢
    rw [← List.append_assoc] at hmem
    rcases List.mem_append.mp hmem with hold | hnew
    · have hlt := h.made request hold
      omega
    · obtain rfl := List.mem_singleton.mp hnew
      omega

theorem Orderly.emit (h : Orderly c past) {signal : ConnectionSignal}
    (hexecutes : executes signal = none) (hfinishes : finishes signal = none) :
    Orderly c (past ++ [signal]) := by
  have hexecuted : executed (past ++ [signal]) = executed past :=
    executed_append_other hexecutes
  have hfinished : finished (past ++ [signal]) = finished past :=
    finished_append_other hfinishes
  refine ⟨⟨?_, ?_, ?_⟩, ?_, ?_, ?_, ?_⟩
  · rw [hexecuted]
    exact h.once.executed
  · rw [hfinished]
    exact h.once.finished
  · exact afterwards_append h.once.afterwards (by simp [hexecutes])
  · rw [hexecuted]
    exact h.queued
  · rw [hexecuted]
    exact h.made
  · rw [hfinished]
    exact h.accounted
  · rw [hfinished, hexecuted]
    exact h.started

theorem Orderly.execute {request : Nat} {rest : List Nat} (h : Orderly c past)
    (hqueue : c.requestQueue = request :: rest) {c' : HeadServerConnection}
    (hrest : c'.requestQueue = rest) (hmade : c'.made = c.made)
    (hinvocations : c'.invocations = c.invocations ++ [request] ∨
      c'.invocations = c.invocations) :
    Orderly c' (past ++ [.prepareInvocation request]) := by
  have hexecuted : executed (past ++ [.prepareInvocation request]) =
      executed past ++ [request] := executed_append rfl
  have hfinished : finished (past ++ [.prepareInvocation request]) = finished past :=
    finished_append_other rfl
  have hqueued : (executed past ++ [request] ++ rest).Pairwise (· < ·) := by
    have hold := h.queued
    rwa [hqueue, List.append_cons] at hold
  have hfresh : request ∉ executed past := by
    intro hmem
    have hlt := (List.pairwise_append.mp (List.pairwise_append.mp hqueued).1).2.2
      request hmem request (List.mem_singleton.mpr rfl)
    omega
  refine ⟨⟨?_, ?_, ?_⟩, ?_, ?_, ?_, ?_⟩
  · rw [hexecuted]
    exact (List.pairwise_append.mp hqueued).1
  · rw [hfinished]
    exact h.once.finished
  · refine afterwards_append h.once.afterwards ?_
    intro other hmem heq
    obtain rfl := Option.some.inj heq
    exact hfresh (h.started request (List.mem_append_left _ hmem))
  · rw [hexecuted, hrest]
    exact hqueued
  · rw [hexecuted, hrest, hmade]
    intro other hmem
    refine h.made other ?_
    rwa [hqueue, List.append_cons]
  · rw [hfinished]
    rcases hinvocations with hmore | hsame
    · rw [hmore, ← List.append_assoc]
      refine List.nodup_append.mpr ⟨h.accounted, List.pairwise_singleton _ _, ?_⟩
      intro other hmem request' hrequest' heq
      obtain rfl := List.mem_singleton.mp hrequest'
      exact hfresh (h.started _ (heq ▸ hmem))
    · rw [hsame]
      exact h.accounted
  · rw [hfinished, hexecuted]
    intro other hmem
    rcases hinvocations with hmore | hsame
    · rw [hmore, ← List.append_assoc] at hmem
      rcases List.mem_append.mp hmem with hold | hnew
      · exact List.mem_append_left _ (h.started other hold)
      · exact List.mem_append_right _ hnew
    · rw [hsame] at hmem
      exact List.mem_append_left _ (h.started other hmem)

theorem Orderly.finish {request : Nat} (h : Orderly c past)
    (hmem : request ∈ c.invocations) (signal : ConnectionSignal)
    (hfinishes : finishes signal = some request) (hexecutes : executes signal = none) :
    Orderly { c with invocations := c.invocations.erase request } (past ++ [signal]) := by
  have hexecuted : executed (past ++ [signal]) = executed past :=
    executed_append_other hexecutes
  have hfinished : finished (past ++ [signal]) = finished past ++ [request] :=
    finished_append hfinishes
  have hperm : (finished past ++ [request] ++ c.invocations.erase request).Perm
      (finished past ++ c.invocations) := by
    rw [List.append_assoc]
    exact (List.perm_cons_erase hmem).symm.append_left _
  refine ⟨⟨?_, ?_, ?_⟩, ?_, ?_, ?_, ?_⟩
  · rw [hexecuted]
    exact h.once.executed
  · rw [hfinished]
    exact (List.nodup_append.mp (hperm.nodup_iff.mpr h.accounted)).1
  · exact afterwards_append h.once.afterwards (by simp [hexecutes])
  · rw [hexecuted]
    exact h.queued
  · rw [hexecuted]
    exact h.made
  · rw [hfinished]
    exact hperm.nodup_iff.mpr h.accounted
  · rw [hfinished, hexecuted]
    intro other hother
    exact h.started other (hperm.mem_iff.mp hother)

end Actions

variable {obtains : Nat → Bool} {c : HeadServerConnection}

variable {history : List (Step HeadServerConnection (Option ConnectionEvent)
  ConnectionSignal)}

end GBerry.Comms.HeadServerConnection
