import GBerry.Foundation.Climb
import GBerry.Lib.DownloadStreamInvocation

/-!
# The steps of a download

What an event does to the reply, the file and the count of the bytes, and what it
reports.  Data is read and stored only for a reply with the status 200.
-/

namespace GBerry.Lib

open GBerry.Foundation

namespace DownloadStreamInvocationImpl

def isOutcome : DownloadOutput → Bool
  | .finishedOK => true
  | .finishedError => true
  | _ => false

def progress? : DownloadOutput → Option Int
  | .downloadProgress percentage => some percentage
  | _ => none

def endsReply : DownloadEvent → Bool
  | .finished _ => true
  | .abort => true
  | _ => false

structure Untouched (d d' : DownloadStreamInvocationImpl) : Prop where
  outputFile : d'.outputFile = d.outputFile
  totalReadBytes : d'.totalReadBytes = d.totalReadBytes
  definition : d'.definition = d.definition

def openedFile (d : DownloadStreamInvocationImpl) : QFile :=
  if d.outputFile.isOpen then d.outputFile else .opened

structure Stored (d : DownloadStreamInvocationImpl) (reply : QNetworkReply)
    (d' : DownloadStreamInvocationImpl) (out : List DownloadOutput) : Prop where
  qreply : d'.qreply =
    some { reply with position := reply.position + reply.unread.length }
  outputFile : d'.outputFile = (openedFile d).write reply.unread
  definition : d'.definition = d.definition
  outcomes : out.countP isOutcome = 0
  progress : ∃ values, Climb READ_BUFFER_SIZE d.totalReadBytes values d'.totalReadBytes ∧
    out.filterMap progress? =
      values.map fun r : Nat => percentage r (totalOf reply.contentLength)
  totalReadBytes : d'.totalReadBytes = d.totalReadBytes + reply.unread.length

inductive Change (d : DownloadStreamInvocationImpl) : DownloadEvent →
    DownloadStreamInvocationImpl → List DownloadOutput → Prop
  | idle {event : DownloadEvent} (hnone : d.qreply = none) : Change d event d []
  | lateHeaders {headers : Headers} {reply : QNetworkReply} (hreply : d.qreply = some reply)
      (hlate : reply.headers.isNone = true → reply.received ≠ []) :
      Change d (.headers headers) d []
  | headers {headers : Headers} {reply : QNetworkReply} {d' : DownloadStreamInvocationImpl}
      (hreply : d.qreply = some reply) (hnone : reply.headers = none)
      (hempty : reply.received = []) (hsame : Untouched d d')
      (hreply' : d'.qreply = some { reply with headers := some headers }) :
      Change d (.headers headers) d' []
  | refused {data : List UInt8} {opens : Bool} {reply : QNetworkReply}
      {d' : DownloadStreamInvocationImpl} (hreply : d.qreply = some reply)
      (hstatus : reply.statusCode ≠ some 200) (hsame : Untouched d d')
      (hreply' : d'.qreply = some { reply with received := reply.received ++ data }) :
      Change d (.readyRead data opens) d' []
  | stored {data : List UInt8} {opens : Bool} {reply : QNetworkReply}
      {d' : DownloadStreamInvocationImpl} {out : List DownloadOutput}
      (hreply : d.qreply = some reply) (hstatus : reply.statusCode = some 200)
      (hopen : d.outputFile.isOpen = true ∨ opens = true)
      (hstored : Stored d { reply with received := reply.received ++ data } d' out) :
      Change d (.readyRead data opens) d' out
  | notOpened {data : List UInt8} {opens : Bool} {reply : QNetworkReply}
      {d' : DownloadStreamInvocationImpl} (hreply : d.qreply = some reply)
      (hstatus : reply.statusCode = some 200)
      (hopen : d.outputFile.isOpen = false ∧ opens = false) (hsame : Untouched d d')
      (hreply' : d'.qreply = none) :
      Change d (.readyRead data opens) d' [.finishedError, .finishedError]
  | redirected {event : DownloadEvent} {reply : QNetworkReply} {target url : String}
      {request : DownloadOutput} {d' : DownloadStreamInvocationImpl}
      (hends : endsReply event = true) (hreply : d.qreply = some reply)
      (htarget : reply.redirectionTarget = some target) (hsame : Untouched d d')
      (hreply' : d'.qreply = some .requested)
      (hrequest : request = .get url ∨ request = .post url d.postData) :
      Change d event d' [request]
  | undefinedRedirect {event : DownloadEvent} {reply : QNetworkReply} {target : String}
      {d' : DownloadStreamInvocationImpl} (hends : endsReply event = true)
      (hreply : d.qreply = some reply) (htarget : reply.redirectionTarget = some target)
      (hundefined : d.definition.httpOperation = .NOT_DEFINED) (hsame : Untouched d d')
      (hreply' : d'.qreply = none) : Change d event d' [.finishedError]
  | failed {event : DownloadEvent} {reply : QNetworkReply} {d' : DownloadStreamInvocationImpl}
      (hreply : d.qreply = some reply) (htarget : reply.redirectionTarget = none)
      (hevent : event = .abort ∨ ∃ failure, event = .finished (some failure))
      (hsame : Untouched d d') (hreply' : d'.qreply = none) : Change d event d' [.finishedError]
  | completed {reply : QNetworkReply} {d' : DownloadStreamInvocationImpl}
      (hreply : d.qreply = some reply) (htarget : reply.redirectionTarget = none)
      (hcontent : d'.outputFile.content = d.outputFile.content)
      (hclosed : d'.outputFile.isOpen = false)
      (htotal : d'.totalReadBytes = d.totalReadBytes) (hreply' : d'.qreply = none) :
      Change d (.finished none) d' [.finishedOK]

section Source

variable {urls : UrlBuilder} {d : DownloadStreamInvocationImpl}

theorem doOperation_cases (url : String) (d : DownloadStreamInvocationImpl) :
    Untouched d (doOperation url d).1 ∧
      (((doOperation url d).1.qreply = some .requested ∧
          ∃ request, (doOperation url d).2 = [request] ∧
            (request = .get url ∨ request = .post url d.postData)) ∨
        (d.definition.httpOperation = .NOT_DEFINED ∧
          (doOperation url d).1.qreply = d.qreply ∧
          (doOperation url d).2 = [.finishedError])) := by
  unfold doOperation
  cases hoperation : d.definition.httpOperation with
  | GET => exact ⟨⟨rfl, rfl, rfl⟩, .inl ⟨rfl, .get url, rfl, .inl rfl⟩⟩
  | POST => exact ⟨⟨rfl, rfl, rfl⟩, .inl ⟨rfl, .post url d.postData, rfl, .inr rfl⟩⟩
  | NOT_DEFINED => exact ⟨⟨rfl, rfl, rfl⟩, .inr ⟨rfl, rfl, rfl⟩⟩

theorem request_quiet {request : DownloadOutput} {url : String} {postData : List UInt8}
    (h : request = .get url ∨ request = .post url postData) :
    isOutcome request = false ∧ progress? request = none := by
  rcases h with rfl | rfl
  · exact ⟨rfl, rfl⟩
  · exact ⟨rfl, rfl⟩

theorem execute_cases (urls : UrlBuilder) (d : DownloadStreamInvocationImpl) :
    Untouched d (execute urls d).1 ∧
      (((execute urls d).1.qreply = some .requested ∧ ∃ request, (execute urls d).2 = [request] ∧
          isOutcome request = false) ∨
        ((execute urls d).1.qreply = d.qreply ∧ (execute urls d).2 = [.finishedError])) := by
  unfold execute
  split
  · exact ⟨⟨rfl, rfl, rfl⟩, .inr ⟨rfl, rfl⟩⟩
  · obtain ⟨hsame, ⟨hreply, request, hout, hrequest⟩ | ⟨-, hreply, hout⟩⟩ :=
      doOperation_cases (urls.buildUrl d.definition.invocationPath d.params) d
    · exact ⟨hsame, .inl ⟨hreply, request, hout, (request_quiet hrequest).1⟩⟩
    · exact ⟨hsame, .inr ⟨hreply, hout⟩⟩

theorem finished_change (event : DownloadEvent) (error : Option NetworkFailure)
    (hevent : event = .finished error ∨ (event = .abort ∧ error.isSome = true)) :
    Change d event (onQNetworkReplyFinished urls error d).1
      (onQNetworkReplyFinished urls error d).2 := by
  have hends : endsReply event = true := by
    rcases hevent with rfl | ⟨rfl, -⟩
    · rfl
    · rfl
  unfold onQNetworkReplyFinished
  cases hreply : d.qreply with
  | none => exact .idle hreply
  | some reply =>
      cases htarget : reply.redirectionTarget with
      | some target =>
          obtain ⟨⟨hfile, htotal, hdefinition⟩,
            ⟨hreply', request, hout, hrequest⟩ | ⟨hundefined, hreply', hout⟩⟩ :=
            doOperation_cases (urls.resolved d.url target) { d with qreply := none }
          · simp only [htarget]
            rw [hout]
            exact .redirected hends hreply htarget ⟨hfile, htotal, hdefinition⟩ hreply' hrequest
          · simp only [htarget]
            rw [hout]
            exact .undefinedRedirect hends hreply htarget hundefined
              ⟨hfile, htotal, hdefinition⟩ hreply'
      | none =>
          cases error with
          | some failure =>
              simp only [htarget]
              refine .failed hreply htarget ?_ ⟨rfl, rfl, rfl⟩ rfl
              rcases hevent with rfl | ⟨rfl, -⟩
              · exact .inr ⟨failure, rfl⟩
              · exact .inl rfl
          | none =>
              have hfinished : event = .finished none := by
                rcases hevent with rfl | ⟨-, hsome⟩
                · rfl
                · cases hsome
              subst hfinished
              simp only [htarget]
              refine .completed hreply htarget ?_ ?_ rfl rfl
              · split
                · rfl
                · rfl
              · simp only
                split
                · rfl
                · rename_i hclosed
                  exact Bool.eq_false_iff.mpr hclosed

theorem abort_change : Change d .abort (abort urls d).1 (abort urls d).2 := by
  unfold abort
  cases hreply : d.qreply with
  | none => exact .idle hreply
  | some reply => exact finished_change .abort (some operationCanceled) (.inr ⟨rfl, rfl⟩)

theorem write_write (file : QFile) (bytes more : List UInt8) :
    (file.write bytes).write more = file.write (bytes ++ more) := by
  simp only [QFile.write, Option.map_map]
  congr 2
  funext content
  exact List.append_assoc content bytes more

theorem write_nil (file : QFile) : file.write [] = file := by
  simp [QFile.write]

theorem readLoop_stored (total : Int) {fuel : Nat} {reply : QNetworkReply}
    (hreply : d.qreply = some reply) (hfuel : reply.unread.length < fuel) :
    (readLoop total fuel d).1.qreply =
        some { reply with position := reply.position + reply.unread.length } ∧
      (readLoop total fuel d).1.outputFile = d.outputFile.write reply.unread ∧
      (readLoop total fuel d).1.definition = d.definition ∧
      (readLoop total fuel d).1.totalReadBytes = d.totalReadBytes + reply.unread.length ∧
      ∃ values, Climb READ_BUFFER_SIZE d.totalReadBytes values
          (readLoop total fuel d).1.totalReadBytes ∧
        (readLoop total fuel d).2 = values.map fun r : Nat =>
          .downloadProgress (percentage r total) := by
  induction fuel generalizing d reply with
  | zero => omega
  | succ fuel ih =>
      have hlength : ((reply.read READ_BUFFER_SIZE).1).length =
          min READ_BUFFER_SIZE reply.unread.length := List.length_take
      have hsize : 0 < READ_BUFFER_SIZE := by decide
      simp only [readLoop, hreply]
      split
      · rename_i hnothing
        have hunread : reply.unread = [] := by
          rw [List.eq_nil_iff_length_eq_zero] at hnothing ⊢
          omega
        rw [hunread, List.length_nil, Nat.add_zero, Nat.add_zero, write_nil]
        exact ⟨hreply, rfl, rfl, rfl, [], .stay, rfl⟩
      · rename_i hsome
        have hpos : 0 < ((reply.read READ_BUFFER_SIZE).1).length :=
          List.length_pos_iff.mpr hsome
        have hunread := reply.read_append_unread READ_BUFFER_SIZE
        have hsum := congrArg List.length hunread
        rw [List.length_append] at hsum
        simp only [Action.andThen_fst, Action.andThen_snd]
        have hnext := @ih (onRead (reply.read READ_BUFFER_SIZE).1 total
          { d with qreply := some (reply.read READ_BUFFER_SIZE).2 }).1
          (reply.read READ_BUFFER_SIZE).2 rfl (by omega)
        obtain ⟨hreply', hfile, hdefinition, htotal, values, hclimb, hout⟩ := hnext
        refine ⟨?_, ?_, hdefinition, ?_, _ :: values, .step ?_ ?_ hclimb, ?_⟩
        · rw [hreply']
          simp only [QNetworkReply.read, Option.some.injEq, QNetworkReply.mk.injEq, true_and]
          simp only [QNetworkReply.read] at hsum
          omega
        · rw [hfile]
          exact (write_write ..).trans (congrArg _ hunread)
        · rw [htotal]
          simp only [onRead, onQNetworkReplyDownloadProgress]
          omega
        · simp only [onRead, onQNetworkReplyDownloadProgress]
          omega
        · simp only [onRead, onQNetworkReplyDownloadProgress]
          omega
        · rw [hout]
          rfl

theorem readAll_stored {firstRead : Bool} {reply : QNetworkReply}
    {d' : DownloadStreamInvocationImpl} (hreply : d'.qreply = some reply)
    (hfile : d'.outputFile = openedFile d) (htotal : d'.totalReadBytes = d.totalReadBytes)
    (hdefinition : d'.definition = d.definition) :
    Stored d reply (readAll firstRead reply d').1 (readAll firstRead reply d').2 := by
  obtain ⟨hreply', hfile', hdefinition', htotal', values, hclimb, hout⟩ :=
    readLoop_stored (totalOf reply.contentLength) hreply (Nat.lt_succ_self _)
  have hstart : ∀ s : DownloadStreamInvocationImpl,
      ((if firstRead then .emit .downloadStarted else .skip : DownloadAction) s).1 = s ∧
        ((if firstRead then .emit .downloadStarted else .skip : DownloadAction) s).2.countP
          isOutcome = 0 ∧
        ((if firstRead then .emit .downloadStarted else .skip : DownloadAction) s).2.filterMap
          progress? = [] := by
    intro s
    cases firstRead with
    | true => exact ⟨rfl, rfl, rfl⟩
    | false => exact ⟨rfl, rfl, rfl⟩
  obtain ⟨hsame, hnoOutcome, hnoProgress⟩ := hstart d'
  unfold readAll
  simp only [Action.andThen_fst, Action.andThen_snd, hsame]
  refine ⟨hreply', ?_, hdefinition'.trans hdefinition, ?_, ⟨values, ?_, ?_⟩, ?_⟩
  · rw [hfile', hfile]
  · rw [List.countP_append, hnoOutcome, hout, Nat.zero_add, List.countP_eq_zero]
    intro output houtput
    obtain ⟨r, -, rfl⟩ := List.mem_map.mp houtput
    simp [isOutcome]
  · rw [← htotal]
    exact hclimb
  · rw [List.filterMap_append, hnoProgress, hout, List.nil_append, List.filterMap_map]
    exact congrFun List.filterMap_eq_map' values
  · rw [htotal', htotal]

theorem abort_finishes {reply : QNetworkReply} (hreply : d.qreply = some reply)
    (htarget : reply.redirectionTarget = none) :
    Untouched d (abort urls d).1 ∧ (abort urls d).1.qreply = none ∧
      (abort urls d).2 = [.finishedError] := by
  unfold abort onQNetworkReplyFinished
  simp only [hreply, htarget, and_true]
  exact ⟨rfl, rfl, rfl⟩

theorem readyRead_change {data : List UInt8} {opens : Bool} {reply : QNetworkReply}
    (hreply : d.qreply = some reply) :
    Change d (.readyRead data opens)
      (onQNetworkReplyReadyRead urls opens
        { d with qreply := some { reply with received := reply.received ++ data } }).1
      (onQNetworkReplyReadyRead urls opens
        { d with qreply := some { reply with received := reply.received ++ data } }).2 := by
  have hcode : ({ reply with received := reply.received ++ data } : QNetworkReply).statusCode =
      reply.statusCode := rfl
  unfold onQNetworkReplyReadyRead
  simp only [hcode]
  cases hstatus : reply.statusCode with
  | none => exact .refused hreply (by simp [hstatus]) ⟨rfl, rfl, rfl⟩ rfl
  | some code =>
      simp only
      split
      · rename_i hrefused
        refine .refused hreply ?_ ⟨rfl, rfl, rfl⟩ rfl
        rw [hstatus, Ne, Option.some.injEq, ← resolveHttpStatus_ok]
        exact hrefused
      · rename_i hok
        rw [not_not, resolveHttpStatus_ok] at hok
        subst hok
        split
        · rename_i hopen
          exact .stored hreply hstatus (.inl hopen)
            (readAll_stored rfl (if_pos hopen).symm rfl rfl)
        · rename_i hclosed
          split
          · rename_i hopens
            exact .stored hreply hstatus (.inr hopens)
              (readAll_stored rfl (if_neg hclosed).symm rfl rfl)
          · rename_i hfails
            have htarget := ({ reply with received := reply.received ++ data } :
              QNetworkReply).redirectionTarget_of_ok hstatus
            obtain ⟨⟨hfile, htotal, hdefinition⟩, hnone, hout⟩ := @abort_finishes urls
              { d with
                qreply := some { reply with received := reply.received ++ data }
                invocationStatus := .RESPONSE_RECEIVED
                httpStatus := resolveHttpStatus 200 } _ rfl htarget
            simp only [Action.andThen_snd, hout]
            exact .notOpened hreply hstatus
              ⟨Bool.eq_false_iff.mpr hclosed, Bool.eq_false_iff.mpr hfails⟩
              ⟨hfile, htotal, hdefinition⟩ hnone

theorem handle_change (urls : UrlBuilder) (event : DownloadEvent)
    (d : DownloadStreamInvocationImpl) :
    Change d event (handle urls event d).1 (handle urls event d).2 := by
  cases event with
  | headers headers =>
      simp only [handle]
      cases hreply : d.qreply with
      | none => exact .idle hreply
      | some reply =>
          simp only
          split
          · rename_i hfirst
            exact .headers hreply (Option.isNone_iff_eq_none.mp hfirst.1) hfirst.2
              ⟨rfl, rfl, rfl⟩ rfl
          · rename_i hlate
            exact .lateHeaders hreply fun hnone hempty => hlate ⟨hnone, hempty⟩
  | readyRead data opens =>
      simp only [handle]
      cases hreply : d.qreply with
      | none => exact .idle hreply
      | some reply => exact readyRead_change hreply
  | finished error => exact finished_change (.finished error) error (.inl rfl)
  | abort => exact abort_change

theorem step_change {d₀ d' : DownloadStreamInvocationImpl} {event : DownloadEvent}
    {out : List DownloadOutput} (h : (machine urls d₀).step d event = .ok (d', out)) :
    Change d event d' out := by
  obtain ⟨rfl, rfl⟩ := Action.machine_step h
  exact handle_change urls event d

end Source

end DownloadStreamInvocationImpl

end GBerry.Lib
