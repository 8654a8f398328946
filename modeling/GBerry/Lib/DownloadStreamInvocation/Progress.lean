import GBerry.Lib.DownloadStreamInvocation.Completeness
import GBerry.Lib.DownloadStreamInvocation.Percentage

/-!
# The progress of a download

What the receivers of `downloadProgress` see: a percentage after each read, of the
bytes that have been read so far, with the total of the reply.
-/

namespace GBerry.Lib

open GBerry.Common
open GBerry.Foundation

namespace DownloadStreamInvocationImpl

def percentages (history : History) : List Int := (outputs history).filterMap progress?

/-- The percentages are in range, never decrease, and reach 100 with the last byte. -/
structure Progresses (history : History) (d : DownloadStreamInvocationImpl) : Prop where
  range : ∀ p ∈ percentages history, 0 ≤ p ∧ p ≤ 100
  sorted : (percentages history).Pairwise (· ≤ ·)
  complete : ∀ reply n, d.qreply = some reply → reply.statusCode = some 200 →
    reply.contentLength = some n → 0 < n → reply.received.length = n →
    (percentages history).getLast? = some 100

/-- A response is no longer than was announced, and not longer than can be. -/
def Announced (d : DownloadStreamInvocationImpl) : Prop :=
  ∀ reply n, d.qreply = some reply → reply.statusCode = some 200 →
    reply.contentLength = some n → n < 2 ^ 56 ∧ reply.received.length ≤ n

/-- What has arrived of a response can be measured by the length that was announced. -/
def Measurable (d : DownloadStreamInvocationImpl) : Prop :=
  ∀ reply n, d.qreply = some reply → reply.statusCode = some 200 →
    reply.contentLength = some n → Measures n reply.received.length

structure Measured (history : History) (d : DownloadStreamInvocationImpl)
    (values : List Nat) (total : Int) : Prop where
  climb : Climb READ_BUFFER_SIZE 0 values d.totalReadBytes
  observed : percentages history = values.map fun k : Nat => percentage k total
  opened : ∀ reply, d.qreply = some reply → d.outputFile.isOpen = true →
    total = totalOf reply.contentLength ∧ d.totalReadBytes = reply.received.length
  closed : ∀ reply, d.qreply = some reply → d.outputFile.isOpen = false →
    d.totalReadBytes = 0

section Steps

variable {urls : UrlBuilder} {setup : DownloadSetup} {d d' : DownloadStreamInvocationImpl}
  {history : History} {event : DownloadEvent} {out : List DownloadOutput}
  {reply : QNetworkReply} {values : List Nat} {total : Int}

theorem percentages_cons : percentages (⟨d, event, out, d'⟩ :: history) =
    percentages history ++ out.filterMap progress? := by
  simp only [percentages, outputs, List.filterMap_append]

theorem values_nil (h : Climb READ_BUFFER_SIZE 0 values 0) : values = [] := by
  refine List.eq_nil_iff_forall_not_mem.mpr fun r hr => ?_
  have hrange := h.mem_range hr
  omega

theorem Measured.quiet (h : Measured history d values total)
    (hout : out.filterMap progress? = []) (htotal : d'.totalReadBytes = d.totalReadBytes)
    (hopened : ∀ reply, d'.qreply = some reply → d'.outputFile.isOpen = true →
      total = totalOf reply.contentLength ∧ d'.totalReadBytes = reply.received.length)
    (hclosed : ∀ reply, d'.qreply = some reply → d'.outputFile.isOpen = false →
      d'.totalReadBytes = 0) :
    Measured (⟨d, event, out, d'⟩ :: history) d' values total := by
  refine ⟨?_, ?_, hopened, hclosed⟩
  · rw [htotal]
    exact h.climb
  · rw [percentages_cons, hout, List.append_nil]
    exact h.observed

theorem Measured.waiting (h : Measured history d values total)
    (hout : out.filterMap progress? = []) (hsame : Untouched d d')
    (hreply : d.qreply = some reply) (hclosed : d.outputFile.isOpen = false) :
    Measured (⟨d, event, out, d'⟩ :: history) d' values total := by
  have hclosed' : d'.outputFile.isOpen = false := by
    rw [hsame.outputFile]
    exact hclosed
  refine h.quiet hout hsame.totalReadBytes (fun _ _ hopen => ?_) fun _ _ _ => ?_
  · cases hclosed'.symm.trans hopen
  · rw [hsame.totalReadBytes]
    exact h.closed reply hreply hclosed

theorem Measured.finished (h : Measured history d values total)
    (hout : out.filterMap progress? = []) (htotal : d'.totalReadBytes = d.totalReadBytes)
    (hreply' : d'.qreply = none) :
    Measured (⟨d, event, out, d'⟩ :: history) d' values total := by
  refine h.quiet hout htotal (fun _ hafter => ?_) fun _ hafter => ?_
  · cases hreply'.symm.trans hafter
  · cases hreply'.symm.trans hafter

theorem Measured.stored {data : List UInt8} (h : Measured history d values total)
    (hstoring : Storing d reply) (hreply : d.qreply = some reply)
    (hstored : Stored d { reply with received := reply.received ++ data } d' out) :
    ∃ values total, Measured (⟨d, event, out, d'⟩ :: history) d' values total := by
  obtain ⟨more, hclimb, hout⟩ := hstored.progress
  have hlength : ({ reply with received := reply.received ++ data } :
      QNetworkReply).contentLength = reply.contentLength := rfl
  rw [hlength] at hout
  have hopen' : d'.outputFile.isOpen = true := by
    rw [hstored.outputFile, openedFile]
    split
    · assumption
    · rfl
  have hposition := hstoring.position
  have hcount : d'.totalReadBytes = reply.received.length + data.length := by
    have hbytes := hstored.totalReadBytes
    simp only [QNetworkReply.unread, List.length_drop, List.length_append] at hbytes
    cases hopen : d.outputFile.isOpen with
    | true =>
        have hread := (h.opened reply hreply hopen).2
        rw [hopen] at hposition
        simp only [if_true] at hposition
        omega
    | false =>
        have hread := h.closed reply hreply hopen
        rw [hopen] at hposition
        simp only [Bool.false_eq_true, if_false] at hposition
        omega
  refine ⟨values ++ more, totalOf reply.contentLength, h.climb.trans hclimb, ?_, ?_, ?_⟩
  · rw [percentages_cons, hout, List.map_append]
    refine congrArg₂ _ ?_ rfl
    cases hopen : d.outputFile.isOpen with
    | true => rw [h.observed, (h.opened reply hreply hopen).1]
    | false =>
        have hstart := h.climb
        rw [h.closed reply hreply hopen] at hstart
        rw [h.observed, values_nil hstart, List.map_nil, List.map_nil]
  · intro reply' hafter _
    have hreply' := Option.some.inj (hafter.symm.trans hstored.qreply)
    have hlength' : reply'.contentLength = reply.contentLength := by
      rw [hreply']
      rfl
    rw [hlength', hcount, hreply', List.length_append]
    exact ⟨rfl, rfl⟩
  · intro _ _ hclosed
    cases hopen'.symm.trans hclosed

theorem Change.measured (h : Change d event d' out)
    (hstoring : ∀ reply, d.qreply = some reply → Storing d reply)
    (hmeasured : ∃ values total, Measured history d values total) :
    ∃ values total, Measured (⟨d, event, out, d'⟩ :: history) d' values total := by
  obtain ⟨values, total, hmeasured⟩ := hmeasured
  cases h with
  | idle _ => exact ⟨values, total, hmeasured.quiet rfl rfl hmeasured.opened hmeasured.closed⟩
  | lateHeaders _ _ =>
      exact ⟨values, total, hmeasured.quiet rfl rfl hmeasured.opened hmeasured.closed⟩
  | headers hreply hnone _ hsame _ =>
      refine ⟨values, total, hmeasured.waiting rfl hsame hreply ?_⟩
      refine (hstoring _ hreply).closed ?_
      rw [QNetworkReply.statusCode, hnone]
      simp
  | refused hreply hstatus hsame _ =>
      exact ⟨values, total,
        hmeasured.waiting rfl hsame hreply ((hstoring _ hreply).closed hstatus)⟩
  | stored hreply _ _ hstored => exact hmeasured.stored (hstoring _ hreply) hreply hstored
  | notOpened _ _ _ hsame hreply' =>
      exact ⟨values, total, hmeasured.finished rfl hsame.totalReadBytes hreply'⟩
  | redirected _ hreply htarget hsame _ hrequest =>
      refine ⟨values, total, hmeasured.waiting ?_ hsame hreply ?_⟩
      · exact List.filterMap_cons_none (request_quiet hrequest).2
      · refine (hstoring _ hreply).closed fun hok => ?_
        cases (QNetworkReply.redirectionTarget_of_ok _ hok).symm.trans htarget
  | undefinedRedirect _ _ _ _ hsame hreply' =>
      exact ⟨values, total, hmeasured.finished rfl hsame.totalReadBytes hreply'⟩
  | failed _ _ _ hsame hreply' =>
      exact ⟨values, total, hmeasured.finished rfl hsame.totalReadBytes hreply'⟩
  | completed _ _ _ _ htotal hreply' =>
      exact ⟨values, total, hmeasured.finished rfl htotal hreply'⟩

theorem measured_of_execution (h : Execution (machine urls (created setup)) history d) :
    ∃ values total, Measured history d values total := by
  refine h.invariant (I := fun history d => ∃ values total, Measured history d values total)
    ?_ fun hbefore hmeasured hstep =>
      (step_change hstep).measured (storing_of_execution hbefore) hmeasured
  obtain ⟨hsame, -⟩ := execute_cases urls (created setup)
  have hnothing : (execute urls (created setup)).1.totalReadBytes = 0 := hsame.totalReadBytes
  have hclosed : (execute urls (created setup)).1.outputFile.isOpen = false :=
    congrArg QFile.isOpen hsame.outputFile
  refine ⟨[], 0, ?_, rfl, fun _ _ hopen => ?_, fun _ _ _ => hnothing⟩
  · change Climb READ_BUFFER_SIZE 0 [] (execute urls (created setup)).1.totalReadBytes
    rw [hnothing]
    exact .stay
  · cases hclosed.symm.trans hopen

theorem Change.quiet_of_none (h : Change d event d' out) (hnone : d'.qreply = none) :
    out.filterMap progress? = [] := by
  cases h with
  | redirected _ _ _ _ hreply' _ => cases hreply'.symm.trans hnone
  | stored _ _ _ hstored => cases hstored.qreply.symm.trans hnone
  | _ => rfl

theorem Measured.progresses_iff_measurable (h : Measured history d values total)
    (hreply : d.qreply = some reply) (hopen : d.outputFile.isOpen = true)
    (hstatus : reply.statusCode = some 200) (hannounced : Announced d) :
    Progresses history d ↔ Measurable d := by
  obtain ⟨rfl, hcount⟩ := h.opened reply hreply hopen
  have hclimb := h.climb
  rw [hcount] at hclimb
  cases hlength : reply.contentLength with
  | none =>
      have hspecial : percentages history = values.map fun _ : Nat => 0 := by
        rw [h.observed, hlength]
        exact List.map_congr_left fun r _ => percentage_special (.inr rfl)
      refine iff_of_true ⟨?_, ?_, fun reply' n hreply' _ hlength' => ?_⟩
        fun reply' n hreply' _ hlength' => ?_
      · rw [hspecial]
        intro p hp
        obtain ⟨_, -, rfl⟩ := List.mem_map.mp hp
        decide
      · rw [hspecial, List.pairwise_map]
        exact hclimb.pairwise_le.imp fun _ => Int.le_refl 0
      · cases hreply.symm.trans hreply'
        cases hlength.symm.trans hlength'
      · cases hreply.symm.trans hreply'
        cases hlength.symm.trans hlength'
  | some n =>
      obtain ⟨hn, hr⟩ := hannounced reply n hreply hstatus hlength
      obtain ⟨hlow, hhigh⟩ := totalOf_range n
      have hsteady := steady_iff hclimb (by omega) hlow hhigh
      have hpercentages := h.observed
      rw [hlength] at hpercentages
      rw [← hpercentages] at hsteady
      have hmeasures : Measurable d ↔ Measures n reply.received.length := by
        constructor
        · intro hall
          exact hall reply n hreply hstatus hlength
        · intro hthis reply' n' hreply' _ hlength'
          cases hreply.symm.trans hreply'
          cases hlength.symm.trans hlength'
          exact hthis
      rw [hmeasures, measures_iff hn hr]
      have hlast : 0 < reply.received.length → (percentages history).getLast? =
          some (percentage reply.received.length (totalOf (some n))) := by
        intro hpos
        rw [hpercentages]
        exact last_observed hclimb hpos
      constructor
      · rintro ⟨hrange, hsorted, hcomplete⟩
        refine ⟨hsteady.mp ⟨hrange, hsorted⟩, fun hpos hall => ?_⟩
        have hhundred := hcomplete reply n hreply hstatus hlength hpos hall
        rw [hlast (by omega), Option.some.injEq] at hhundred
        exact hhundred
      · rintro ⟨hsteadily, hcomplete⟩
        obtain ⟨hrange, hsorted⟩ := hsteady.mpr hsteadily
        refine ⟨hrange, hsorted, fun reply' n' hreply' _ hlength' hpos hall => ?_⟩
        cases hreply.symm.trans hreply'
        cases hlength.symm.trans hlength'
        rw [hlast (by omega), hcomplete hpos hall]

theorem Measured.progresses_closed (h : Measured history d values total)
    (hstoring : Storing d reply) (hreply : d.qreply = some reply)
    (hclosed : d.outputFile.isOpen = false) : Progresses history d ∧ Measurable d := by
  have hnothing := h.climb
  rw [h.closed reply hreply hclosed] at hnothing
  have hnone : percentages history = [] := by
    rw [h.observed, values_nil hnothing]
    rfl
  have hempty : reply.statusCode = some 200 → reply.received.length = 0 := fun hstatus =>
    congrArg List.length (hstoring.nothing hclosed hstatus)
  refine ⟨⟨?_, ?_, fun reply' n hreply' hstatus _ hpos hall => ?_⟩,
    fun reply' n hreply' hstatus _ => ?_⟩
  · rw [hnone]
    exact fun p hp => by cases hp
  · rw [hnone]
    exact .nil
  · cases hreply.symm.trans hreply'
    have hzero := hempty hstatus
    omega
  · cases hreply.symm.trans hreply'
    rw [hempty hstatus]
    exact measures_zero n

theorem progresses_iff_of_reply (h : Execution (machine urls (created setup)) history d)
    (hannounced : Announced d) (hreply : d.qreply = some reply) :
    Progresses history d ↔ Measurable d := by
  obtain ⟨values, total, hmeasured⟩ := measured_of_execution h
  have hstoring := storing_of_execution h reply hreply
  cases hopen : d.outputFile.isOpen with
  | true =>
      have hstatus := hstoring.status hopen
      exact hmeasured.progresses_iff_measurable hreply hopen hstatus hannounced
  | false =>
      have hboth := hmeasured.progresses_closed hstoring hreply hopen
      exact iff_of_true hboth.1 hboth.2

theorem Change.progresses_of_none (h : Change d event d' out) (hnone : d'.qreply = none)
    (hbefore : Progresses history d) : Progresses (⟨d, event, out, d'⟩ :: history) d' := by
  have hsame : percentages (⟨d, event, out, d'⟩ :: history) = percentages history := by
    rw [percentages_cons, h.quiet_of_none hnone, List.append_nil]
  refine ⟨?_, ?_, fun reply _ hreply => ?_⟩
  · rw [hsame]
    exact hbefore.range
  · rw [hsame]
    exact hbefore.sorted
  · cases hnone.symm.trans hreply

theorem progresses_of_measurable (h : Execution (machine urls (created setup)) history d)
    (hannounced : Execution.Always (machine urls (created setup)) (fun _ d => Announced d)
      history)
    (hmeasurable : Execution.Always (machine urls (created setup)) (fun _ d => Measurable d)
      history) : Execution.Always (machine urls (created setup)) Progresses history := by
  induction h with
  | start =>
      rw [Execution.always_nil] at *
      cases hreply : (machine urls (created setup)).init.qreply with
      | none =>
          refine ⟨fun p hp => ?_, .nil, fun reply _ hreply' => ?_⟩
          · cases hp
          · cases hreply.symm.trans hreply'
      | some reply => exact (progresses_iff_of_reply .start hannounced hreply).mpr hmeasurable
  | @next older d d' event out hbefore hstep ih =>
      have hnow := hbefore.next hstep
      rw [Execution.always_cons hnow] at *
      have hold := ih hannounced.2 hmeasurable.2
      refine ⟨?_, hold⟩
      cases hreply : d'.qreply with
      | some reply => exact (progresses_iff_of_reply hnow hannounced.1 hreply).mpr hmeasurable.1
      | none =>
          have hthen := hold older d List.suffix_rfl hbefore
          exact (step_change hstep).progresses_of_none hreply hthen

end Steps

theorem progresses_iff (urls : UrlBuilder) (setup : DownloadSetup) (events : List DownloadEvent)
    (hannounced : Execution.Always (machine urls (created setup)) (fun _ d => Announced d)
      (trace urls (created setup) events).1) :
    Execution.Always (machine urls (created setup)) Progresses
        (trace urls (created setup) events).1 ↔
      Execution.Always (machine urls (created setup)) (fun _ d => Measurable d)
        (trace urls (created setup) events).1 := by
  constructor
  · intro hprogresses older d hsuffix hexec reply n hreply
    have hmoment := (progresses_iff_of_reply hexec (hannounced older d hsuffix hexec)
      hreply).mp (hprogresses older d hsuffix hexec)
    exact hmoment reply n hreply
  · intro hmeasurable
    exact progresses_of_measurable (trace_execution urls (created setup) events) hannounced
      hmeasurable

def twoBytesOf (n : Nat) : List DownloadEvent :=
  [.headers (okHeaders n), .readyRead [0, 0] true]

theorem twoBytesOf_announced {n : Nat} (hlow : 2 ≤ n) (hhigh : n < 2 ^ 56) :
    Execution.Always (machine plainUrls (created getSetup)) (fun _ d => Announced d)
      (trace plainUrls (created getSetup) (twoBytesOf n)).1 := by
  have hexec := trace_execution plainUrls (created getSetup) (twoBytesOf n)
  have hexec₁ := trace_execution plainUrls (created getSetup) ((twoBytesOf n).take 1)
  refine (Execution.always_cons hexec).mpr ⟨fun reply k hreply _ hlength => ?_,
    (Execution.always_cons hexec₁).mpr ⟨fun reply k hreply _ hlength => ?_,
      Execution.always_nil.mpr fun reply k hreply _ hlength => ?_⟩⟩
  · cases hreply
    cases hlength
    exact ⟨hhigh, hlow⟩
  · cases hreply
    cases hlength
    exact ⟨hhigh, Nat.zero_le n⟩
  · cases hreply
    cases hlength

theorem twoBytes_progress :
    Execution.Always (machine plainUrls (created getSetup)) Progresses
        (trace plainUrls (created getSetup) (twoBytesOf 2)).1 ↔
      Execution.Always (machine plainUrls (created getSetup)) (fun _ d => Measurable d)
        (trace plainUrls (created getSetup) (twoBytesOf 2)).1 :=
  progresses_iff plainUrls getSetup (twoBytesOf 2)
    (twoBytesOf_announced (by decide) (by decide))

/-- The 32 bits that are kept of the length are those of the number 1. -/
theorem longDownload_outOfRange :
    Execution.Always (machine plainUrls (created getSetup)) (fun _ d => Announced d)
        (trace plainUrls (created getSetup) (twoBytesOf (2 ^ 32 + 1))).1 ∧
      ¬ Execution.Always (machine plainUrls (created getSetup)) Progresses
        (trace plainUrls (created getSetup) (twoBytesOf (2 ^ 32 + 1))).1 := by
  refine ⟨twoBytesOf_announced (by decide) (by decide), fun halways => ?_⟩
  have hprogresses := halways _ _ List.suffix_rfl
    (trace_execution plainUrls (created getSetup) (twoBytesOf (2 ^ 32 + 1)))
  have hobserved : (200 : Int) ∈ percentages
      (trace plainUrls (created getSetup) (twoBytesOf (2 ^ 32 + 1))).1 := by
    decide +kernel
  have hrange := (hprogresses.range 200 hobserved).2
  omega

end DownloadStreamInvocationImpl

end GBerry.Lib
