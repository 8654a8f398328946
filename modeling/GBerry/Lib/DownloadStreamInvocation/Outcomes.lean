import GBerry.Lib.DownloadStreamInvocation.Steps

/-!
# One outcome for each download

While a reply is in progress nothing has been reported, and then one outcome has.  A
file that cannot be opened is reported twice: by the handler of the reply that is
aborted for it, and once more after that.
-/

namespace GBerry.Lib

open GBerry.Common
open GBerry.Foundation

namespace DownloadStreamInvocationImpl

/-- The outcomes of an execution and of what followed it: one, once no reply is in progress. -/
def OneOutcome (urls : UrlBuilder) (d₀ : DownloadStreamInvocationImpl) (history : History)
    (d : DownloadStreamInvocationImpl) : Prop :=
  ((execute urls d₀).2 ++ outputs history).countP isOutcome =
    if d.qreply.isSome then 0 else 1

/-- The output file can be opened when there is something to store in it. -/
def OpensFile (st : Step DownloadStreamInvocationImpl DownloadEvent DownloadOutput) : Prop :=
  ∀ data reply, st.label = .readyRead data false → st.pre.outputFile.isOpen = false →
    st.pre.qreply = some reply → reply.statusCode ≠ some 200

section Steps

variable {urls : UrlBuilder} {d₀ d d' : DownloadStreamInvocationImpl} {history : History}
  {event : DownloadEvent} {out : List DownloadOutput}

theorem oneOutcome_start (hidle : d₀.qreply = none) :
    OneOutcome urls d₀ [] (execute urls d₀).1 := by
  unfold OneOutcome outputs
  rw [List.append_nil]
  obtain ⟨-, ⟨hreply, request, hout, hrequest⟩ | ⟨hreply, hout⟩⟩ := execute_cases urls d₀
  · rw [hreply, hout, List.countP_singleton, hrequest]
    rfl
  · rw [hreply, hout, hidle]
    rfl

theorem opensFile_of_ends (hends : endsReply event = true) :
    OpensFile ⟨d, event, out, d'⟩ := by
  intro data reply hlabel
  cases hlabel
  cases hends

theorem Change.outcome_iff (h : Change d event d' out) :
    ((if d.qreply.isSome then 0 else 1) + out.countP isOutcome =
      if d'.qreply.isSome then 0 else 1) ↔ OpensFile ⟨d, event, out, d'⟩ := by
  cases h with
  | idle hnone =>
      refine iff_of_true rfl fun data reply _ _ hreply => ?_
      cases hnone.symm.trans hreply
  | lateHeaders _ _ => exact iff_of_true rfl fun _ _ hlabel => by cases hlabel
  | headers hreply _ _ _ hreply' =>
      rw [hreply, hreply']
      exact iff_of_true rfl fun _ _ hlabel => by cases hlabel
  | refused hreply hstatus _ hreply' =>
      rw [hreply, hreply']
      refine iff_of_true rfl fun _ reply' _ _ hother => ?_
      cases hreply.symm.trans hother
      exact hstatus
  | stored hreply _ hopen hstored =>
      rw [hreply, hstored.qreply, hstored.outcomes]
      refine iff_of_true rfl fun _ _ hlabel hclosed => ?_
      cases hlabel
      cases hopen with
      | inl hopen => cases hclosed.symm.trans hopen
      | inr hopens => cases hopens
  | @notOpened data _ reply d' hreply hstatus hopen _ hreply' =>
      obtain ⟨hclosed, rfl⟩ := hopen
      rw [hreply, hreply']
      have htwice : [DownloadOutput.finishedError, .finishedError].countP isOutcome = 2 := rfl
      rw [htwice]
      refine iff_of_false (by simp) fun hopens => ?_
      exact hopens data reply rfl hclosed hreply hstatus
  | redirected hends hreply _ _ hreply' hrequest =>
      rw [hreply, hreply', List.countP_singleton, (request_quiet hrequest).1]
      exact iff_of_true rfl (opensFile_of_ends hends)
  | undefinedRedirect hends hreply _ _ _ hreply' =>
      rw [hreply, hreply']
      exact iff_of_true rfl (opensFile_of_ends hends)
  | failed hreply _ hevent _ hreply' =>
      rw [hreply, hreply']
      refine iff_of_true rfl (opensFile_of_ends ?_)
      rcases hevent with rfl | ⟨failure, rfl⟩
      · rfl
      · rfl
  | completed hreply _ _ _ _ hreply' =>
      rw [hreply, hreply']
      exact iff_of_true rfl (opensFile_of_ends rfl)

end Steps

theorem oneOutcome_iff (urls : UrlBuilder) (d₀ : DownloadStreamInvocationImpl)
    (hidle : d₀.qreply = none) (events : List DownloadEvent) :
    Execution.Always (machine urls d₀) (OneOutcome urls d₀) (trace urls d₀ events).1 ↔
      ∀ st ∈ (trace urls d₀ events).1, OpensFile st := by
  refine Execution.always_iff (oneOutcome_start hidle) ?_ (trace_execution urls d₀ events)
  intro history d d' event out _ hone hstep
  have hcount : ((execute urls d₀).2 ++ outputs history ++ out).countP isOutcome =
      ((execute urls d₀).2 ++ outputs history).countP isOutcome + out.countP isOutcome :=
    List.countP_append
  rw [← (step_change hstep).outcome_iff, ← hone, OneOutcome, outputs, ← List.append_assoc,
    hcount]

def plainUrls : UrlBuilder := ⟨"http://localhost", fun url _ => url, fun _ target => target⟩

def getSetup : DownloadSetup := ⟨⟨.GET, "/download"⟩, ∅, [], "/tmp/file", none, 0, 0⟩

def okHeaders (contentLength : Nat) : Headers :=
  ⟨some 200, none, some contentLength, by simp⟩

def firstData (opens : Bool) : List DownloadEvent :=
  [.headers (okHeaders 1), .readyRead [0] opens]

theorem firstData_oneOutcome :
    Execution.Always (machine plainUrls (created getSetup))
        (OneOutcome plainUrls (created getSetup))
        (trace plainUrls (created getSetup) (firstData true)).1 ↔
      ∀ st ∈ (trace plainUrls (created getSetup) (firstData true)).1, OpensFile st :=
  oneOutcome_iff plainUrls (created getSetup) rfl (firstData true)

theorem firstData_twoOutcomes :
    ¬ Execution.Always (machine plainUrls (created getSetup))
      (OneOutcome plainUrls (created getSetup))
      (trace plainUrls (created getSetup) (firstData false)).1 := by
  intro halways
  have hone := halways _ _ List.suffix_rfl
    (trace_execution plainUrls (created getSetup) (firstData false))
  revert hone
  unfold OneOutcome
  decide

end DownloadStreamInvocationImpl

end GBerry.Lib
