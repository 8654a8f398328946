import GBerry.Comms.DownloadApplicationCommand
import GBerry.Foundation.Lifecycle

/-!
# Cancelled requests

A request that was cancelled calls its command again only when it is executed
afterwards, or when its reply was being redirected.  All other cancelled requests
are gone, or wait in the queue without an invocation.
-/

namespace GBerry.Comms.DownloadSystem

open GBerry.Common
open GBerry.Foundation

/-- A request calls its command no more after it was cancelled. -/
def CancellationFinal (signals : List DownloadSignal) : Prop :=
  signals.Pairwise fun earlier later =>
    ∀ request, earlier = .cancelled request → ∀ call, later ≠ .called request call

/-- The request is gone, or it is not active and was not executed. -/
def Silenced (s : DownloadSystem) (request : Nat) : Prop :=
  ∀ req, s.requests[request]? = some req → req.active = false ∧ req.invocation = none

/-- The step executes a cancelled request, or cancels one that is being redirected. -/
def RevivesCancelled (s : DownloadSystem) : DownloadEvent → Prop
  | .executeRequest request => request ∈ s.requestQueue ∧
      ∃ req, s.requests[request]? = some req ∧ req.active = false
  | .destroyCommand command => ∃ ongoingRequests, s.commands[command]? = some ongoingRequests ∧
      ∃ request ∈ ongoingRequests, ∃ req invocation,
        s.requests[request]? = some req ∧ req.invocation = some invocation ∧
          invocation.redirectionTarget = true
  | _ => False

structure Spares (s s' : DownloadSystem) (out : List DownloadSignal) : Prop where
  nextRequest : s'.nextRequest = s.nextRequest
  ongoing : ∀ (command : Nat) (l' : List Nat), s'.commands[command]? = some l' →
    ∀ request ∈ l', request < s.nextRequest ∨
      ∃ l, s.commands[command]? = some l ∧ request ∈ l
  silenced : ∀ request, s.Silenced request → s'.Silenced request
  called : ∀ request call, .called request call ∈ out → ¬ s.Silenced request
  cancelled : ∀ request, .cancelled request ∉ out

variable {s s' s'' : DownloadSystem} {out out' : List DownloadSignal} {request : Nat}
  {req : DownloadApplicationRequest} {invocation : DownloadStreamInvocation}

section Steps

theorem Spares.quiet (hnext : s'.nextRequest = s.nextRequest)
    (hcommands : s'.commands = s.commands) (hrequests : s'.requests = s.requests)
    (hcalled : ∀ request call, .called request call ∉ out)
    (hcancelled : ∀ request, .cancelled request ∉ out) : Spares s s' out where
  nextRequest := hnext
  ongoing _ l' hl' _ hmem := .inr ⟨l', hcommands ▸ hl', hmem⟩
  silenced _ h req hreq := h req (hrequests ▸ hreq)
  called request call hmem := absurd hmem (hcalled request call)
  cancelled := hcancelled

theorem Spares.refl (s : DownloadSystem) : Spares s s [] :=
  .quiet rfl rfl rfl (by simp) (by simp)

theorem Spares.trans (h : Spares s s' out) (h' : Spares s' s'' out') :
    Spares s s'' (out ++ out') where
  nextRequest := h'.nextRequest.trans h.nextRequest
  ongoing command l' hl' request hmem := by
    rcases h'.ongoing command l' hl' request hmem with hlt | ⟨l, hl, hmem'⟩
    · exact .inl (h.nextRequest ▸ hlt)
    · exact h.ongoing command l hl request hmem'
  silenced request hsilenced := h'.silenced request (h.silenced request hsilenced)
  called request call hmem hsilenced := by
    rcases List.mem_append.mp hmem with hfirst | hnext
    · exact h.called request call hfirst hsilenced
    · exact h'.called request call hnext (h.silenced request hsilenced)
  cancelled request hmem := by
    rcases List.mem_append.mp hmem with hfirst | hnext
    · exact h.cancelled request hfirst
    · exact h'.cancelled request hnext

theorem not_silenced_active (h : s.requests[request]? = some req)
    (hactive : req.active = true) : ¬ s.Silenced request := by
  intro hsilenced
  rw [(hsilenced req h).1] at hactive
  cases hactive

theorem not_silenced_invocation (h : s.requests[request]? = some req)
    (hinvocation : req.invocation = some invocation) : ¬ s.Silenced request := by
  intro hsilenced
  rw [(hsilenced req h).2] at hinvocation
  cases hinvocation

theorem silenced_erase {other : Nat} (hrequests : s'.requests = s.requests.erase other)
    (h : s.Silenced request) : s'.Silenced request := by
  intro req hreq
  rw [hrequests, QMap.getElem?_erase] at hreq
  split at hreq
  · cases hreq
  · exact h req hreq

theorem setInvocation_spares (h : ¬ s.Silenced request) :
    Spares s (s.setInvocation request req invocation) [] where
  nextRequest := rfl
  ongoing command l' hl' other hmem := .inr ⟨l', hl', hmem⟩
  silenced other hother req' hreq' := by
    simp only [setInvocation, QMap.getElem?_insert] at hreq'
    split at hreq'
    · rename_i heq
      exact absurd (heq ▸ hother) h
    · exact hother req' hreq'
  called other call hmem := by cases hmem
  cancelled other hmem := by cases hmem

theorem removeRequest_spares {call : CommandCall} (h : ¬ s.Silenced request) :
    Spares s (s.removeRequest request req) [.called request call] where
  nextRequest := rfl
  ongoing command l' hl' other hmem := by
    obtain ⟨l, hl, hsubset⟩ := removeRequest_ongoing hl'
    exact .inr ⟨l, hl, hsubset hmem⟩
  silenced other hother := silenced_erase rfl hother
  called other call hmem := by
    obtain ⟨rfl, -⟩ := DownloadSignal.called.inj (List.mem_singleton.mp hmem)
    exact h
  cancelled other hmem := by cases List.mem_singleton.mp hmem

theorem failDownload_spares {applicationFullId : String} {signals : List DownloadSignal}
    (hspares : Spares s s' signals)
    (h : s'.failDownload request applicationFullId signals = .ok (s'', out)) :
    Spares s s'' out := by
  obtain ⟨rfl, rfl⟩ := failDownload_ok h
  exact hspares.trans (.quiet rfl rfl rfl (by simp) (by simp))

theorem finishedError_spares (h : s.finishedError request = .ok (s', out)) :
    Spares s s' out := by
  unfold finishedError at h
  split at h
  · cases h
    exact .refl s
  rename_i req hreq
  split at h
  · rename_i hactive
    exact failDownload_spares (removeRequest_spares (not_silenced_active hreq hactive)) h
  · cases h
    exact ⟨rfl, fun _ l' hl' _ hmem => .inr ⟨l', hl', hmem⟩,
      fun _ hother => silenced_erase rfl hother, by simp, by simp⟩

theorem finishedOk_spares {fileExists : Bool}
    (h : s.finishedOk request fileExists = .ok (s', out)) : Spares s s' out := by
  unfold finishedOk at h
  split at h
  · cases h
    exact .refl s
  rename_i req hreq
  split at h
  · rename_i hactive
    have hremoved : Spares s (s.removeRequest request req)
        [.called request .processRequestOkResponse] :=
      removeRequest_spares (not_silenced_active hreq hactive)
    unfold processRequestOkResponse at h
    simp only at h
    split at h
    · cases h
      exact hremoved.trans (.quiet rfl rfl rfl (by simp) (by simp))
    · exact failDownload_spares hremoved h
  · cases h
    exact ⟨rfl, fun _ l' hl' _ hmem => .inr ⟨l', hl', hmem⟩,
      fun _ hother => silenced_erase rfl hother, by simp, by simp⟩

theorem onQNetworkReplyFinished_spares {failed fileExists : Bool}
    (hsilenced : ¬ s.Silenced request)
    (h : s.onQNetworkReplyFinished request req invocation failed fileExists =
      .ok (s', out)) : Spares s s' out := by
  unfold onQNetworkReplyFinished at h
  split at h
  · cases h
    exact setInvocation_spares hsilenced
  split at h
  · exact finishedError_spares h
  · exact finishedOk_spares h

theorem onQNetworkReplyReadyRead_spares {httpStatus : HttpStatus} {opens : Bool}
    {chunks : Nat} (hsilenced : ¬ s.Silenced request)
    (h : s.onQNetworkReplyReadyRead request req invocation httpStatus opens chunks =
      .ok (s', out)) : Spares s s' out := by
  rcases onQNetworkReplyReadyRead_ok h with
    ⟨invocation', s₁, aborted, finished, habort, hfinished, rfl⟩ | ⟨⟨invocation', rfl⟩, hcalled⟩
  · exact (onQNetworkReplyFinished_spares hsilenced habort).trans
      (finishedError_spares hfinished)
  · have hset : Spares s (s.setInvocation request req invocation') [] :=
      setInvocation_spares hsilenced
    refine ⟨hset.nextRequest, hset.ongoing, hset.silenced, ?_, ?_⟩
    · intro other call hmem
      obtain ⟨call', heq⟩ := hcalled _ hmem
      exact (DownloadSignal.called.inj heq).1 ▸ hsilenced
    · intro other hmem
      obtain ⟨call, heq⟩ := hcalled _ hmem
      cases heq

theorem withInvocation_spares
    {next : DownloadApplicationRequest → DownloadStreamInvocation → DownloadResult}
    (hnext : ∀ req invocation, ¬ s.Silenced request →
      next req invocation = .ok (s', out) → Spares s s' out)
    (h : s.withInvocation request next = .ok (s', out)) : Spares s s' out := by
  rcases withInvocation_ok h with ⟨rfl, rfl⟩ | ⟨req, invocation, hreq, hinvocation, hcalled⟩
  · exact .refl s'
  · exact hnext req invocation (not_silenced_invocation hreq hinvocation) hcalled

theorem unzipFinished_spares {outcome : UnzipOutcome}
    (h : s.unzipFinished request outcome = .ok (s', out)) : Spares s s' out := by
  unfold unzipFinished at h
  split at h
  · cases h
    exact .refl s
  rename_i unzipOp _
  have herased : Spares s { s with unzips := s.unzips.erase request } [] :=
    .quiet rfl rfl rfl (by simp) (by simp)
  simp only at h
  split at h
  · rcases onUnzipFinished_ok h with hfails | ⟨storage, -, -, hfails | ⟨updated, -, rfl, rfl⟩⟩
    · exact failDownload_spares herased hfails
    · have hrefreshed : Spares s { s with
          unzips := s.unzips.erase request
          storage := storage } [] := .quiet rfl rfl rfl (by simp) (by simp)
      exact failDownload_spares hrefreshed hfails
    · exact .quiet rfl rfl rfl (by simp) (by simp)
  · cases h
    exact herased

theorem executeRequest_spares
    (hactive : ¬ s.RevivesCancelled (.executeRequest request))
    (h : s.executeRequest request = .ok (s', out)) : Spares s s' out := by
  rcases executeRequest_ok h with ⟨rfl, rfl⟩ | ⟨req, hmem, hreq, rfl, rfl⟩
  · exact .refl s'
  · have hactive : req.active = true := by
      by_contra hinactive
      exact hactive ⟨hmem, req, hreq, by simpa using hinactive⟩
    have hdequeued : Spares s
        { s with requestQueue := s.requestQueue.erase request } [] :=
      .quiet rfl rfl rfl (by simp) (by simp)
    exact hdequeued.trans (setInvocation_spares (not_silenced_active hreq hactive))

theorem noConnection_spares (h : s.noConnection request = .ok (s', out)) :
    Spares s s' out := by
  rcases noConnection_ok h with ⟨rfl, rfl⟩ | hfinished
  · exact .refl s'
  · exact finishedError_spares hfinished

end Steps

section Destruction

theorem cancel_ok (h : ∀ req invocation, s.requests[request]? = some req →
      req.invocation = some invocation → invocation.redirectionTarget = false) :
    ∃ s', s.cancel request = .ok (s', [.cancelled request]) ∧
      s'.nextRequest = s.nextRequest ∧ s'.commands = s.commands ∧
      s'.Silenced request ∧
      ∀ other, other ≠ request → s'.requests[other]? = s.requests[other]? := by
  unfold cancel
  split
  · rename_i hnone
    refine ⟨s, rfl, rfl, rfl, ?_, fun _ _ => rfl⟩
    intro req hreq
    rw [hnone] at hreq
    cases hreq
  rename_i req hreq
  simp only
  split
  · rename_i hnone
    refine ⟨_, rfl, rfl, rfl, ?_, ?_⟩
    · intro req' hreq'
      simp only [QMap.getElem?_insert, if_true, Option.some.injEq] at hreq'
      subst hreq'
      exact ⟨rfl, hnone⟩
    · intro other hne
      simp only [QMap.getElem?_insert, if_neg hne]
  · rename_i invocation hinvocation
    have hdirect := h req invocation hreq hinvocation
    simp only [abort, onQNetworkReplyFinished, hdirect, Bool.false_eq_true, if_false,
      if_true, finishedError, QMap.getElem?_insert, List.nil_append]
    refine ⟨_, rfl, rfl, rfl, ?_, ?_⟩
    · intro req' hreq'
      simp at hreq'
    · intro other hne
      simp only [QMap.getElem?_erase, if_neg hne, QMap.getElem?_insert]

theorem cancelAll_ok {l : List Nat}
    (h : ∀ request ∈ l, ∀ req invocation, s.requests[request]? = some req →
      req.invocation = some invocation → invocation.redirectionTarget = false) :
    ∃ s', s.cancelAll l = .ok (s', l.map .cancelled) ∧
      s'.nextRequest = s.nextRequest ∧ s'.commands = s.commands ∧
      ∀ request, request ∈ l ∨ s.Silenced request → s'.Silenced request := by
  induction l generalizing s with
  | nil =>
      refine ⟨s, rfl, rfl, rfl, ?_⟩
      rintro request (hmem | hsilenced)
      · cases hmem
      · exact hsilenced
  | cons request rest ih =>
      obtain ⟨s₁, hcancel, hnext, hcommands, hsilenced, hothers⟩ :=
        cancel_ok (h request List.mem_cons_self)
      have hrest : ∀ other ∈ rest, ∀ req invocation, s₁.requests[other]? = some req →
          req.invocation = some invocation → invocation.redirectionTarget = false := by
        intro other hmem req invocation hreq hinvocation
        by_cases heq : other = request
        · have hnone := (hsilenced req (heq ▸ hreq)).2
          rw [hnone] at hinvocation
          cases hinvocation
        · rw [hothers other heq] at hreq
          exact h other (List.mem_cons_of_mem _ hmem) req invocation hreq hinvocation
      obtain ⟨s₂, hcancelAll, hnext', hcommands', hsilenced'⟩ := ih hrest
      refine ⟨s₂, ?_, hnext'.trans hnext, hcommands'.trans hcommands, ?_⟩
      · simp only [cancelAll, hcancel, hcancelAll]
        rfl
      · rintro other (hmem | hother)
        · rcases List.mem_cons.mp hmem with rfl | hmem
          · exact hsilenced' other (.inr hsilenced)
          · exact hsilenced' other (.inl hmem)
        · refine hsilenced' other (.inr ?_)
          by_cases heq : other = request
          · exact heq ▸ hsilenced
          · intro req hreq
            exact hother req (hothers other heq ▸ hreq)

end Destruction

structure Settled (past : List DownloadSignal) (s : DownloadSystem) : Prop where
  final : CancellationFinal past
  silent : ∀ request, .cancelled request ∈ past →
    request < s.nextRequest ∧ s.Silenced request
  ongoing : ∀ (command : Nat) (l : List Nat), s.commands[command]? = some l →
    ∀ request ∈ l, request < s.nextRequest

section Preservation

variable {past : List DownloadSignal}

theorem Settled.spares (h : Settled past s) (hspares : Spares s s' out) :
    Settled (past ++ out) s' := by
  constructor
  · refine List.pairwise_append.mpr ⟨h.final, ?_, ?_⟩
    · refine List.pairwise_of_forall_mem_list ?_
      intro earlier hearlier later _ request heq
      exact absurd (heq ▸ hearlier) (hspares.cancelled request)
    · intro earlier hearlier later hlater request heq call hcall
      exact hspares.called request call (hcall ▸ hlater)
        (h.silent request (heq ▸ hearlier)).2
  · intro request hmem
    rcases List.mem_append.mp hmem with hpast | hout
    · obtain ⟨hlt, hsilenced⟩ := h.silent request hpast
      exact ⟨hspares.nextRequest ▸ hlt, hspares.silenced request hsilenced⟩
    · exact absurd hout (hspares.cancelled request)
  · intro command l' hl' request hmem
    rw [hspares.nextRequest]
    rcases hspares.ongoing command l' hl' request hmem with hlt | ⟨l, hl, hmem'⟩
    · exact hlt
    · exact h.ongoing command l hl request hmem'

theorem Settled.createCommand (h : Settled past s) : Settled past s.createCommand := by
  refine ⟨h.final, h.silent, ?_⟩
  intro command l hl request hmem
  simp only [DownloadSystem.createCommand, QMap.getElem?_insert] at hl
  split at hl
  · cases hl
    cases hmem
  · exact h.ongoing command l hl request hmem

theorem Settled.destroyCommand (h : Settled past s) {command : Nat}
    (hdirect : ¬ s.RevivesCancelled (.destroyCommand command))
    (hstep : s.destroyCommand command = .ok (s', out)) : Settled (past ++ out) s' := by
  unfold DownloadSystem.destroyCommand at hstep
  split at hstep
  · cases hstep
    exact h.spares (.refl s)
  rename_i ongoingRequests hongoing
  obtain ⟨s₁, hcancelAll, hnext, hcommands, hsilenced⟩ := cancelAll_ok
    (s := { s with commands := s.commands.erase command }) (l := ongoingRequests) (by
      intro request hmem req invocation hreq hinvocation
      by_contra hredirected
      exact hdirect ⟨ongoingRequests, hongoing, request, hmem, req, invocation, hreq,
        hinvocation, by simpa using hredirected⟩)
  rw [hcancelAll] at hstep
  cases hstep
  constructor
  · refine List.pairwise_append.mpr ⟨h.final, ?_, ?_⟩
    · refine List.pairwise_of_forall_mem_list ?_
      intro earlier _ later hlater request _ call hcall
      obtain ⟨other, -, rfl⟩ := List.mem_map.mp hlater
      cases hcall
    · intro earlier _ later hlater request _ call hcall
      obtain ⟨other, -, rfl⟩ := List.mem_map.mp hlater
      cases hcall
  · intro request hmem
    rw [hnext]
    rcases List.mem_append.mp hmem with hpast | hout
    · obtain ⟨hlt, hsilent⟩ := h.silent request hpast
      exact ⟨hlt, hsilenced request (.inr hsilent)⟩
    · obtain ⟨other, hother, heq⟩ := List.mem_map.mp hout
      obtain rfl := DownloadSignal.cancelled.inj heq
      exact ⟨h.ongoing command ongoingRequests hongoing other hother,
        hsilenced other (.inl hother)⟩
  · intro other l hl request hmem
    rw [hcommands, QMap.getElem?_erase] at hl
    rw [hnext]
    split at hl
    · cases hl
    · exact h.ongoing other l hl request hmem

theorem Settled.process (h : Settled past s) (command : Nat) (applicationFullId : String)
    (cached created : Bool) (writing : Writing)
    (hprocess : s.process command applicationFullId cached created writing =
      .ok (s', out)) : Settled (past ++ out) s' := by
  unfold DownloadSystem.process at hprocess
  split at hprocess
  · cases hprocess
    exact h.spares (.refl s)
  rename_i ongoingRequests hongoing
  split at hprocess
  · cases hprocess
    exact h.spares (.quiet rfl rfl rfl (by simp) (by simp))
  split at hprocess
  · cases hprocess
  · cases hprocess
    exact h.spares (.quiet rfl rfl rfl (by simp) (by simp))
  · cases hprocess
    constructor
    · refine List.pairwise_append.mpr ⟨h.final, List.pairwise_singleton _ _, ?_⟩
      intro earlier _ later hlater request _ call hcall
      rw [List.mem_singleton.mp hlater] at hcall
      cases hcall
    · intro request hmem
      rcases List.mem_append.mp hmem with hpast | hout
      · obtain ⟨hlt, hsilenced⟩ := h.silent request hpast
        refine ⟨Nat.lt_succ_of_lt hlt, ?_⟩
        intro req hreq
        simp only [QMap.getElem?_insert, if_neg (Nat.ne_of_lt hlt)] at hreq
        exact hsilenced req hreq
      · cases List.mem_singleton.mp hout
    · intro other l hl request hmem
      simp only [QMap.getElem?_insert] at hl
      split at hl
      · cases hl
        rcases List.mem_append.mp hmem with hold | hnew
        · exact Nat.lt_succ_of_lt (h.ongoing command ongoingRequests hongoing request hold)
        · rw [List.mem_singleton.mp hnew]
          exact Nat.lt_succ_self _
      · exact Nat.lt_succ_of_lt (h.ongoing other l hl request hmem)

theorem Settled.step (h : Settled past s) {event : DownloadEvent}
    (hstep : s.step event = .ok (s', out)) (hevent : ¬ s.RevivesCancelled event) :
    Settled (past ++ out) s' := by
  cases event with
  | createCommand =>
      cases hstep
      rw [List.append_nil]
      exact h.createCommand
  | destroyCommand command => exact h.destroyCommand hevent hstep
  | process command applicationFullId cached created writing =>
      exact h.process command applicationFullId cached created writing hstep
  | executeRequest request => exact h.spares (executeRequest_spares hevent hstep)
  | noConnection request => exact h.spares (noConnection_spares hstep)
  | redirected request =>
      refine h.spares (withInvocation_spares ?_ hstep)
      intro req invocation hsilenced hset
      cases hset
      exact setInvocation_spares hsilenced
  | readyRead request httpStatus opens chunks =>
      refine h.spares (withInvocation_spares ?_ hstep)
      intro req invocation hsilenced hread
      exact onQNetworkReplyReadyRead_spares hsilenced hread
  | replyFinished request failed fileExists =>
      refine h.spares (withInvocation_spares ?_ hstep)
      intro req invocation hsilenced hfinished
      exact onQNetworkReplyFinished_spares hsilenced hfinished
  | unzipFinished request outcome => exact h.spares (unzipFinished_spares hstep)

end Preservation

variable {storage : LocalApplicationsStorage} {history : History}

theorem cancellationFinal_of_neverRevives (h : Execution (machine storage) history s)
    (hnever : Execution.EachStep (fun _ st => ¬ st.pre.RevivesCancelled st.label) history) :
    Execution.Always (machine storage)
      (fun history _ => CancellationFinal (outputs history)) history := by
  have hsettled : Execution.Always (machine storage)
      (fun history s => Settled (outputs history) s) history := by
    refine h.always_of_eachStep (P := fun history s => Settled (outputs history) s)
      ?_ ?_ hnever
    · refine ⟨.nil, by simp [outputs], ?_⟩
      intro command l hl
      simp [machine, start] at hl
    · intro history s s' event out _ hsettled hstep hevent
      exact hsettled.step hstep hevent
  intro older t hsuffix hexec
  exact (hsettled older t hsuffix hexec).final

/-- The command is destroyed while the reply of its only request is read. -/
def cancelsReading : List DownloadEvent :=
  [.createCommand, .process 0 "chess-1" true true .written, .executeRequest 0,
    .readyRead 0 .OK_200 true 1, .destroyCommand 0]

theorem cancelsReading_final :
    ∃ history s, (machine ⟨[], []⟩).run cancelsReading = .ok (history, s) ∧
      .cancelled 0 ∈ outputs history ∧
      Execution.Always (machine ⟨[], []⟩)
        (fun history _ => CancellationFinal (outputs history)) history := by
  refine ⟨_, _, rfl, by decide, cancellationFinal_of_neverRevives
    (Machine.run_execution
      (show (machine ⟨[], []⟩).run cancelsReading = .ok (_, _) from rfl)) ?_⟩
  refine ⟨?_, id, ?_, id, id, trivial⟩
  · rintro ⟨l, hl, request, hmem, req, invocation, hreq, hinvocation, hredirected⟩
    cases (show some [0] = some l from hl)
    obtain rfl := List.mem_singleton.mp hmem
    cases (show some ⟨0, "chess-1", true, some ⟨.RESPONSE_RECEIVED, true, false⟩⟩ =
      some req from hreq)
    cases hinvocation
    cases hredirected
  · rintro ⟨-, req, hreq, hinactive⟩
    cases (show some ⟨0, "chess-1", true, none⟩ = some req from hreq)
    cases hinactive

def cancelsQueued : List DownloadEvent :=
  [.createCommand, .process 0 "chess-1" true true .written, .destroyCommand 0,
    .executeRequest 0, .readyRead 0 .OK_200 true 1]

theorem cancelsQueued_calls :
    ∃ history s, (machine ⟨[], []⟩).run cancelsQueued = .ok (history, s) ∧
      outputs history = [.accepted 0 0 "chess-1", .cancelled 0,
        .called 0 .downloadStarted, .called 0 .downloadProgress] ∧
      ¬ CancellationFinal (outputs history) := by
  refine ⟨_, _, rfl, rfl, ?_⟩
  intro hfinal
  have hafter := (List.pairwise_cons.mp (List.pairwise_cons.mp hfinal).2).1
  exact hafter (.called 0 .downloadStarted) (by decide) 0 rfl .downloadStarted rfl

end GBerry.Comms.DownloadSystem
