import GBerry.Lib.DownloadStreamInvocation.Outcomes

/-!
# Whether a finished download is complete

The file holds what has arrived of the body, from the first time that data arrives for
a status 200.  The handler of the finished reply asks neither for the status nor for
the file.
-/

namespace GBerry.Lib

open GBerry.Common
open GBerry.Foundation

namespace DownloadStreamInvocationImpl

/-- A step reports success for a body that is stored only, and an error for other statuses. -/
structure Complete (st : Step DownloadStreamInvocationImpl DownloadEvent DownloadOutput) :
    Prop where
  ok : .finishedOK ∈ st.out → ∃ reply, st.pre.qreply = some reply ∧
    reply.statusCode = some 200 ∧ st.post.outputFile.content = some reply.received
  other : ∀ reply, st.pre.qreply = some reply → reply.statusCode ≠ some 200 →
    st.post.qreply = none → .finishedError ∈ st.out

/--
A reply that finishes without an error, and without a redirection, has the status 200,
and the file was opened for its data, or is there and empty.
-/
def StoresResponse (st : Step DownloadStreamInvocationImpl DownloadEvent DownloadOutput) :
    Prop :=
  ∀ reply, st.label = .finished none → st.pre.qreply = some reply →
    reply.redirectionTarget = none → reply.statusCode = some 200 ∧
      (st.pre.outputFile.isOpen = true ∨ st.pre.outputFile.content = some [])

structure Storing (d : DownloadStreamInvocationImpl) (reply : QNetworkReply) : Prop where
  status : d.outputFile.isOpen = true → reply.statusCode = some 200
  content : d.outputFile.isOpen = true → d.outputFile.content = some reply.received
  position : reply.position = if d.outputFile.isOpen then reply.received.length else 0
  nothing : d.outputFile.isOpen = false → reply.statusCode = some 200 → reply.received = []

section Steps

variable {urls : UrlBuilder} {d d' : DownloadStreamInvocationImpl} {history : History}
  {event : DownloadEvent} {out : List DownloadOutput} {reply : QNetworkReply}

theorem storing_requested (h : d.outputFile.isOpen = false) : Storing d .requested := by
  refine ⟨?_, ?_, ?_, fun _ _ => rfl⟩
  · rw [h]
    exact fun hopen => by cases hopen
  · rw [h]
    exact fun hopen => by cases hopen
  · rw [h]
    rfl

theorem Storing.closed (h : Storing d reply) (hstatus : reply.statusCode ≠ some 200) :
    d.outputFile.isOpen = false :=
  Bool.eq_false_iff.mpr fun hopen => hstatus (h.status hopen)

theorem Storing.stored {data : List UInt8} (h : Storing d reply)
    (hstatus : reply.statusCode = some 200)
    (hstored : Stored d { reply with received := reply.received ++ data } d' out) :
    ∀ reply', d'.qreply = some reply' → Storing d' reply' := by
  intro reply' hreply'
  cases hstored.qreply.symm.trans hreply'
  have hopen : (openedFile d).isOpen = true := by
    unfold openedFile
    split
    · assumption
    · rfl
  have hopen' : d'.outputFile.isOpen = true := by
    rw [hstored.outputFile]
    exact hopen
  have hposition := h.position
  refine ⟨fun _ => hstatus, fun _ => ?_, ?_, fun hclosed => ?_⟩
  · rw [hstored.outputFile]
    simp only [QFile.write, openedFile, QNetworkReply.unread]
    split
    · rename_i hbefore
      rw [if_pos hbefore] at hposition
      rw [h.content hbefore, hposition, List.drop_left]
      rfl
    · rename_i hbefore
      rw [if_neg hbefore] at hposition
      rw [hposition]
      rfl
  · rw [if_pos hopen']
    simp only [QNetworkReply.unread, List.length_drop, List.length_append]
    split at hposition
    · omega
    · omega
  · cases hopen'.symm.trans hclosed

theorem Change.storing (h : Change d event d' out)
    (hstoring : ∀ reply, d.qreply = some reply → Storing d reply) :
    ∀ reply, d'.qreply = some reply → Storing d' reply := by
  cases h with
  | idle _ => exact hstoring
  | lateHeaders _ _ => exact hstoring
  | @headers headers reply d' hreply hnone hempty hsame hreply' =>
      intro reply' hafter
      cases hreply'.symm.trans hafter
      obtain ⟨hstatus, -, hposition, -⟩ := hstoring reply hreply
      have hclosed : d.outputFile.isOpen = false := by
        refine (hstoring reply hreply).closed ?_
        rw [QNetworkReply.statusCode, hnone]
        simp
      rw [hclosed] at hposition
      have hclosed' : d'.outputFile.isOpen = false := by
        rw [hsame.outputFile]
        exact hclosed
      refine ⟨fun hopen => ?_, fun hopen => ?_, ?_, fun _ _ => hempty⟩
      · cases hclosed'.symm.trans hopen
      · cases hclosed'.symm.trans hopen
      · rw [hclosed']
        exact hposition
  | @refused data opens reply d' hreply hstatus hsame hreply' =>
      intro reply' hafter
      cases hreply'.symm.trans hafter
      have hclosed := (hstoring reply hreply).closed hstatus
      have hposition := (hstoring reply hreply).position
      rw [hclosed] at hposition
      have hclosed' : d'.outputFile.isOpen = false := by
        rw [hsame.outputFile]
        exact hclosed
      refine ⟨fun hopen => ?_, fun hopen => ?_, ?_, fun _ hok => absurd hok hstatus⟩
      · cases hclosed'.symm.trans hopen
      · cases hclosed'.symm.trans hopen
      · rw [hclosed']
        exact hposition
  | stored hreply hstatus _ hstored => exact (hstoring _ hreply).stored hstatus hstored
  | notOpened _ _ _ _ hreply' =>
      intro reply hafter
      cases hreply'.symm.trans hafter
  | redirected _ hreply htarget hsame hreply' _ =>
      intro reply' hafter
      cases hreply'.symm.trans hafter
      refine storing_requested ?_
      rw [hsame.outputFile]
      refine (hstoring _ hreply).closed fun hok => ?_
      cases (QNetworkReply.redirectionTarget_of_ok _ hok).symm.trans htarget
  | undefinedRedirect _ _ _ _ _ hreply' =>
      intro reply hafter
      cases hreply'.symm.trans hafter
  | failed _ _ _ _ hreply' =>
      intro reply hafter
      cases hreply'.symm.trans hafter
  | completed _ _ _ _ _ hreply' =>
      intro reply hafter
      cases hreply'.symm.trans hafter

theorem storing_of_execution {setup : DownloadSetup}
    (h : Execution (machine urls (created setup)) history d) :
    ∀ reply, d.qreply = some reply → Storing d reply := by
  refine h.state_invariant (I := fun d => ∀ reply, d.qreply = some reply → Storing d reply)
    ?_ fun hstoring hstep => (step_change hstep).storing hstoring
  intro reply hreply
  obtain ⟨hsame, ⟨hrequested, -⟩ | ⟨hnone, -⟩⟩ := execute_cases urls (created setup)
  · cases hrequested.symm.trans hreply
    exact storing_requested (congrArg QFile.isOpen hsame.outputFile)
  · cases hnone.symm.trans hreply

theorem Change.complete_of_other (h : Change d event d' out)
    (hother : event ≠ .finished none ∨
      ∀ reply, d.qreply = some reply → reply.redirectionTarget ≠ none) :
    Complete ⟨d, event, out, d'⟩ := by
  cases h with
  | idle hnone =>
      refine ⟨by simp, fun reply hreply => ?_⟩
      cases hnone.symm.trans hreply
  | lateHeaders hreply _ =>
      refine ⟨by simp, fun _ _ _ hnone => ?_⟩
      cases hreply.symm.trans hnone
  | headers _ _ _ _ hreply' =>
      refine ⟨by simp, fun _ _ _ hnone => ?_⟩
      cases hreply'.symm.trans hnone
  | refused _ _ _ hreply' =>
      refine ⟨by simp, fun _ _ _ hnone => ?_⟩
      cases hreply'.symm.trans hnone
  | stored _ _ _ hstored =>
      refine ⟨fun hok => ?_, fun _ _ _ hnone => ?_⟩
      · exact absurd rfl (List.countP_eq_zero.mp hstored.outcomes _ hok)
      · cases hstored.qreply.symm.trans hnone
  | notOpened _ _ _ _ _ => exact ⟨by simp, fun _ _ _ _ => by simp⟩
  | redirected _ _ _ _ hreply' hrequest =>
      refine ⟨fun hok => ?_, fun _ _ _ hnone => ?_⟩
      · have hquiet := (request_quiet hrequest).1
        rw [← List.mem_singleton.mp hok] at hquiet
        cases hquiet
      · cases hreply'.symm.trans hnone
  | undefinedRedirect _ _ _ _ _ _ => exact ⟨by simp, fun _ _ _ _ => by simp⟩
  | failed _ _ _ _ _ => exact ⟨by simp, fun _ _ _ _ => by simp⟩
  | completed hreply htarget _ _ _ _ =>
      rcases hother with hevent | htargets
      · exact absurd rfl hevent
      · exact absurd htarget (htargets _ hreply)

theorem Change.complete_iff_written (h : Change d event d' out)
    (hstoring : ∀ reply, d.qreply = some reply → Storing d reply) :
    Complete ⟨d, event, out, d'⟩ ↔ StoresResponse ⟨d, event, out, d'⟩ := by
  by_cases hother : event ≠ .finished none ∨
      ∀ reply, d.qreply = some reply → reply.redirectionTarget ≠ none
  · refine iff_of_true (h.complete_of_other hother) ?_
    intro reply hlabel hreply htarget
    rcases hother with hevent | htargets
    · exact absurd hlabel hevent
    · exact absurd htarget (htargets reply hreply)
  · push Not at hother
    obtain ⟨rfl, reply, hreply, htarget⟩ := hother
    have hfile := hstoring reply hreply
    cases h with
    | idle hnone => cases hnone.symm.trans hreply
    | redirected _ hreply₁ htarget₁ _ _ _ =>
        cases hreply.symm.trans hreply₁
        cases htarget.symm.trans htarget₁
    | undefinedRedirect _ hreply₁ htarget₁ _ _ _ =>
        cases hreply.symm.trans hreply₁
        cases htarget.symm.trans htarget₁
    | failed _ _ hevent _ _ => simp at hevent
    | completed hreply₁ _ hcontent _ _ _ =>
        cases hreply.symm.trans hreply₁
        constructor
        · rintro ⟨hok, -⟩ reply' - hreply' -
          obtain ⟨reply₂, hreply₂, hstatus, hbody⟩ := hok List.mem_cons_self
          cases hreply.symm.trans hreply'
          cases hreply.symm.trans hreply₂
          refine ⟨hstatus, ?_⟩
          cases hopen : d.outputFile.isOpen with
          | true => exact .inl rfl
          | false =>
              rw [← hfile.nothing hopen hstatus, ← hcontent]
              exact .inr hbody
        · intro hstores
          obtain ⟨hstatus, hstored⟩ := hstores reply rfl hreply htarget
          refine ⟨fun _ => ⟨reply, hreply, hstatus, ?_⟩, fun reply' hreply' hother => ?_⟩
          · rw [hcontent]
            cases hopen : d.outputFile.isOpen with
            | true => exact hfile.content hopen
            | false =>
                rw [hfile.nothing hopen hstatus]
                exact hstored.resolve_left (by simp [hopen])
          · cases hreply.symm.trans hreply'
            exact absurd hstatus hother

end Steps

theorem complete_iff (urls : UrlBuilder) (setup : DownloadSetup) (events : List DownloadEvent) :
    (∀ st ∈ (trace urls (created setup) events).1, Complete st) ↔
      ∀ st ∈ (trace urls (created setup) events).1, StoresResponse st := by
  refine forall₂_congr fun st hst => ?_
  obtain ⟨older, hbefore, hstep⟩ := (trace_execution urls (created setup) events).of_mem hst
  exact (step_change hstep).complete_iff_written (storing_of_execution hbefore)

def noContent : List DownloadEvent :=
  [.headers ⟨some 204, none, none, by simp⟩, .finished none]

theorem noContent_finishedOK :
    ¬ ∀ st ∈ (trace plainUrls (created getSetup) noContent).1, Complete st := by
  intro hall
  obtain ⟨reply, hreply, hstatus, -⟩ :=
    (hall _ List.mem_cons_self).ok (by decide)
  cases hreply
  revert hstatus
  decide

end DownloadStreamInvocationImpl

end GBerry.Lib
