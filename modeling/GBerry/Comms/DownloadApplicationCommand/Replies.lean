import GBerry.Comms.DownloadApplicationCommand.AllOrNothing
import GBerry.Common.Json
import Mathlib.Data.Nat.Count

/-!
# The messages of `DownloadApplicationCommand`

A message names an application, and goes to the control channel of the command
that a download belongs to.  The details of a failure and the percentages are
given, as they come from the storage and from the stream of the download.
-/

namespace GBerry.Comms

open GBerry.Common
open GBerry.Foundation

namespace DownloadApplicationCommand

def okReply (applicationFullId : String) : JsonObject :=
  [("application_id", .string applicationFullId),
    ("command", .string "DownloadApplicationReply"),
    ("result", .string "ok")]

def failureReply (applicationFullId : String) (details : Json) : JsonObject :=
  [("application_id", .string applicationFullId),
    ("command", .string "DownloadApplicationReply"),
    ("result", .string "failure"),
    ("result_details", details)]

def downloadStarted (applicationFullId : String) : JsonObject :=
  [("application_id", .string applicationFullId),
    ("command", .string "DownloadApplicationReply"),
    ("result", .string "status"),
    ("status", .string "started")]

def downloadProgress (applicationFullId : String) (progressPercentage : Int) : JsonObject :=
  [("application_id", .string applicationFullId),
    ("command", .string "DownloadApplicationReply"),
    ("progress_percentage", .number progressPercentage),
    ("result", .string "status"),
    ("status", .string "progress")]

structure ReplyMessage where
  command : Nat
  json : JsonObject

end DownloadApplicationCommand

namespace DownloadSystem

open DownloadApplicationCommand

def message (s : DownloadSystem) (details : Json) (percentage : Int) :
    DownloadSignal → Option ReplyMessage
  | .refused command applicationFullId =>
      some ⟨command, failureReply applicationFullId details⟩
  | .called request .downloadStarted =>
      (s.download request).map fun d =>
        ⟨d.command, DownloadApplicationCommand.downloadStarted d.applicationFullId⟩
  | .called request .downloadProgress =>
      (s.download request).map fun d =>
        ⟨d.command, DownloadApplicationCommand.downloadProgress d.applicationFullId percentage⟩
  | .reply request applicationFullId .ok =>
      (s.download request).map fun d => ⟨d.command, okReply applicationFullId⟩
  | .reply request applicationFullId .failure =>
      (s.download request).map fun d => ⟨d.command, failureReply applicationFullId details⟩
  | _ => none

def messages (s : DownloadSystem) (details : Json) (percentages : List Int)
    (signals : List DownloadSignal) : List ReplyMessage :=
  signals.zipIdx.filterMap fun (signal, i) => s.message details (percentages.getD i 0) signal

def isTransfer : DownloadEvent → Bool
  | .createCommand | .destroyCommand _ | .process _ _ _ _ _ => false
  | _ => true

section Routing

variable {s s' s₁ : DownloadSystem} {out signals : List DownloadSignal} {request : Nat}
  {req : DownloadApplicationRequest} {d : Download}

def Concerns (s : DownloadSystem) : DownloadSignal → Prop
  | .accepted _ _ _ | .refused _ _ => False
  | .reply request applicationFullId _ =>
      ∃ command, s.download request = some ⟨command, applicationFullId⟩
  | _ => True

structure Routed (s s' : DownloadSystem) (out : List DownloadSignal) : Prop where
  commands : ∀ command, command ∈ s'.commands ↔ command ∈ s.commands
  nextCommand : s'.nextCommand = s.nextCommand
  concerns : ∀ signal ∈ out, s.Concerns signal

theorem Routed.refl (s : DownloadSystem) : Routed s s [] :=
  ⟨fun _ => Iff.rfl, rfl, by simp⟩

theorem Routed.quiet (hcommands : s'.commands = s.commands)
    (hnext : s'.nextCommand = s.nextCommand) (hout : ∀ signal ∈ out, s.Concerns signal) :
    Routed s s' out :=
  ⟨fun command => by rw [hcommands], hnext, hout⟩

theorem removeRequest_commands (command : Nat) :
    command ∈ (s.removeRequest request req).commands ↔ command ∈ s.commands := by
  rw [removeRequest, Std.ExtTreeMap.mem_modify]

theorem failDownload_routed
    (hcommands : ∀ command, command ∈ s₁.commands ↔ command ∈ s.commands)
    (hnext : s₁.nextCommand = s.nextCommand) (hd : s.download request = some d)
    (hsignals : ∀ signal ∈ signals, s.Concerns signal)
    (hfail : s₁.failDownload request d.applicationFullId signals = .ok (s', out)) :
    Routed s s' out := by
  obtain ⟨rfl, rfl⟩ := failDownload_ok hfail
  refine ⟨hcommands, hnext, ?_⟩
  intro signal hmem
  rcases List.mem_append.mp hmem with hmem | hmem
  · exact hsignals signal hmem
  · rw [List.mem_singleton.mp hmem]
    exact ⟨d.command, hd⟩

theorem finishedError_routed (h : s.finishedError request = .ok (s', out)) :
    Routed s s' out := by
  unfold finishedError at h
  split at h
  · cases h
    exact .refl s
  rename_i req hreq
  split at h
  · apply failDownload_routed removeRequest_commands rfl (download_request hreq) _ h
    simp [Concerns]
  · cases h
    exact .quiet rfl rfl (by simp)

theorem finishedOk_routed {fileExists : Bool}
    (h : s.finishedOk request fileExists = .ok (s', out)) : Routed s s' out := by
  unfold finishedOk at h
  split at h
  · cases h
    exact .refl s
  rename_i req hreq
  split at h
  · have hsignals : ∀ signal ∈ [DownloadSignal.called request .processRequestOkResponse],
        s.Concerns signal := by
      simp [Concerns]
    simp only [processRequestOkResponse] at h
    split at h
    · cases h
      exact ⟨removeRequest_commands, rfl, hsignals⟩
    · exact failDownload_routed removeRequest_commands rfl (download_request hreq) hsignals h
  · cases h
    exact .quiet rfl rfl (by simp)

theorem onQNetworkReplyFinished_routed {invocation : DownloadStreamInvocation}
    {failed fileExists : Bool}
    (h : s.onQNetworkReplyFinished request req invocation failed fileExists =
      .ok (s', out)) : Routed s s' out := by
  unfold onQNetworkReplyFinished at h
  split at h
  · cases h
    exact .quiet rfl rfl (by simp)
  split at h
  · exact finishedError_routed h
  · exact finishedOk_routed h

theorem Routed.congr (hdownload : ∀ request, s₁.download request = s.download request)
    (hcommands : s₁.commands = s.commands) (hnext : s₁.nextCommand = s.nextCommand)
    (h : Routed s₁ s' out) : Routed s s' out := by
  constructor
  · intro command
    rw [h.commands, hcommands]
  · exact h.nextCommand.trans hnext
  · intro signal hmem
    have hconcerns := h.concerns signal hmem
    cases signal with
    | reply request applicationFullId result =>
        obtain ⟨command, hd⟩ := hconcerns
        exact ⟨command, (hdownload request).symm.trans hd⟩
    | accepted _ _ _ => exact hconcerns
    | refused _ _ => exact hconcerns
    | called _ _ => trivial
    | cancelled _ => trivial

theorem abortedTwice_routed {invocation : DownloadStreamInvocation}
    {aborted finished : List DownloadSignal} (hreq : s.requests[request]? = some req)
    (habort : s.abort request req invocation = .ok (s₁, aborted))
    (hfinished : s₁.finishedError request = .ok (s', finished)) :
    Routed s s' (aborted ++ finished) := by
  unfold abort onQNetworkReplyFinished at habort
  split at habort
  · cases habort
    exact (finishedError_routed hfinished).congr (setInvocation_download hreq) rfl rfl
  · simp only [if_true] at habort
    simp only [finishedError, finishedError_gone habort] at hfinished
    cases hfinished
    rw [List.append_nil]
    exact finishedError_routed habort

theorem onUnzipFinished_routed {unzipOp : UnzipOperation} {outcome : UnzipOutcome}
    (hcommands : s₁.commands = s.commands) (hnext : s₁.nextCommand = s.nextCommand)
    (hd : s.download request = some ⟨unzipOp.command, unzipOp.applicationFullId⟩)
    (h : s₁.onUnzipFinished request unzipOp outcome = .ok (s', out)) : Routed s s' out := by
  have hsame (storage : LocalApplicationsStorage) (command : Nat) :
      command ∈ { s₁ with storage := storage }.commands ↔ command ∈ s.commands := by
    rw [← hcommands]
  rcases onUnzipFinished_ok h with hfails | ⟨storage, -, -, hfails | ⟨updated, -, rfl, rfl⟩⟩
  · exact failDownload_routed (hsame s₁.storage) hnext hd (by simp) hfails
  · exact failDownload_routed (hsame storage) hnext hd (by simp) hfails
  · refine ⟨hsame updated, hnext, ?_⟩
    intro signal hmem
    rw [List.mem_singleton.mp hmem]
    exact ⟨unzipOp.command, hd⟩

theorem unzipFinished_routed {outcome : UnzipOutcome} (hs : Consistent s)
    (h : s.unzipFinished request outcome = .ok (s', out)) : Routed s s' out := by
  unfold unzipFinished at h
  split at h
  · cases h
    exact .refl s
  rename_i unzipOp hunzip
  have hd : s.download request = some ⟨unzipOp.command, unzipOp.applicationFullId⟩ := by
    simp [download, hs.unzipping hunzip, hunzip]
  simp only at h
  split at h
  · apply onUnzipFinished_routed _ _ hd h
    all_goals rfl
  · cases h
    exact .quiet rfl rfl (by simp)

theorem not_abandonsDownload {event : DownloadEvent} (h : isTransfer event = true) :
    ¬ s.AbandonsDownload event := by
  cases event with
  | destroyCommand command => cases h
  | _ => exact id

theorem transfer_routed (hs : Consistent s) {event : DownloadEvent}
    (hevent : isTransfer event = true) (h : s.step event = .ok (s', out)) :
    Routed s s' out := by
  cases event with
  | createCommand => cases hevent
  | destroyCommand command => cases hevent
  | process command applicationFullId cached created writing => cases hevent
  | executeRequest request =>
      rcases executeRequest_ok h with ⟨rfl, rfl⟩ | ⟨req, -, -, rfl, rfl⟩
      · exact .refl s'
      · exact .quiet rfl rfl (by simp)
  | noConnection request =>
      rcases noConnection_ok h with ⟨rfl, rfl⟩ | hfinished
      · exact .refl s'
      · exact finishedError_routed hfinished
  | redirected request =>
      rcases withInvocation_ok h with ⟨rfl, rfl⟩ | ⟨req, invocation, -, -, hset⟩
      · exact .refl s'
      · cases hset
        exact .quiet rfl rfl (by simp)
  | readyRead request httpStatus opens chunks =>
      rcases withInvocation_ok h with ⟨rfl, rfl⟩ | ⟨req, invocation, hreq, -, hread⟩
      · exact .refl s'
      rcases onQNetworkReplyReadyRead_ok hread with
        ⟨_, s₁, aborted, finished, habort, hfinished, rfl⟩ | ⟨⟨_, rfl⟩, hcalled⟩
      · exact abortedTwice_routed hreq habort hfinished
      · refine .quiet rfl rfl ?_
        intro signal hmem
        obtain ⟨call, rfl⟩ := hcalled signal hmem
        trivial
  | replyFinished request failed fileExists =>
      rcases withInvocation_ok h with ⟨rfl, rfl⟩ | ⟨req, invocation, -, -, hfinished⟩
      · exact .refl s'
      · exact onQNetworkReplyFinished_routed hfinished
  | unzipFinished request outcome => exact unzipFinished_routed hs h

theorem destroyCommand_kept {command : Nat} (h : Consistent s)
    (hfinished : ¬ s.AbandonsDownload (.destroyCommand command))
    (hstep : s.destroyCommand command = .ok (s', out)) :
    (∀ other, other ∈ s'.commands ↔ other ≠ command ∧ other ∈ s.commands) ∧
      s'.nextCommand = s.nextCommand ∧ s'.nextRequest = s.nextRequest ∧
      (∀ request, s'.download request = s.download request) ∧
      ∀ signal ∈ out, ∃ request, signal = .cancelled request := by
  unfold destroyCommand at hstep
  split at hstep
  · rename_i hmissing
    cases hstep
    refine ⟨?_, rfl, rfl, fun _ => rfl, by simp⟩
    intro other
    refine (and_iff_right_of_imp ?_).symm
    rintro hmem rfl
    exact (QMap.notMem_iff _ _).mpr hmissing hmem
  rename_i ongoingRequests hongoing
  have hgone := h.gone_of_not_abandons hongoing hfinished
  rw [cancelAll_gone (s := { s with commands := s.commands.erase command }) hgone] at hstep
  cases hstep
  refine ⟨fun other => QMap.mem_erase_iff _ _ _, rfl, rfl, fun _ => rfl, ?_⟩
  intro signal hmem
  obtain ⟨request, -, rfl⟩ := List.mem_map.mp hmem
  exact ⟨request, rfl⟩

end Routing

section Counting

variable {s s' : DownloadSystem} {out : List DownloadSignal} {command : Nat} {a : String}

def inProgress (s : DownloadSystem) (command : Nat) (applicationFullId : String) : Nat :=
  Nat.count (fun request => s.download request = some ⟨command, applicationFullId⟩)
    s.nextRequest

def concludes (s : DownloadSystem) (command : Nat) (applicationFullId : String) :
    DownloadSignal → Bool
  | .refused other a => other == command && a == applicationFullId
  | .reply request _ _ => s.download request = some ⟨command, applicationFullId⟩
  | _ => false

def concluded (s : DownloadSystem) (command : Nat) (applicationFullId : String)
    (signals : List DownloadSignal) : Nat :=
  signals.countP (s.concludes command applicationFullId)

theorem count_congr {p q : Nat → Prop} [DecidablePred p] [DecidablePred q] {n : Nat}
    (h : ∀ k < n, p k ↔ q k) : Nat.count p n = Nat.count q n :=
  Nat.le_antisymm (Nat.count_mono_left fun k hk => (h k hk).mp)
    (Nat.count_mono_left fun k hk => (h k hk).mpr)

theorem count_clear {p q : Nat → Prop} [DecidablePred p] [DecidablePred q] {n r : Nat}
    (hp : p r) (hr : r < n) (hq : ∀ k, q k ↔ k ≠ r ∧ p k) :
    Nat.count q n + 1 = Nat.count p n := by
  induction n with
  | zero => omega
  | succ n ih =>
      rw [Nat.count_succ, Nat.count_succ]
      by_cases heq : n = r
      · subst heq
        have hbefore : Nat.count q n = Nat.count p n := by
          apply count_congr
          intro k hk
          rw [hq, and_iff_right (Nat.ne_of_lt hk)]
        have hnot : ¬ q n := fun hqn => ((hq n).mp hqn).1 rfl
        rw [hbefore, if_neg hnot, if_pos hp]
      · have hsame : q n ↔ p n := by rw [hq, and_iff_right heq]
        have hcount := ih (by omega)
        simp only [hsame]
        omega

theorem inProgress_congr (hdownload : ∀ request, s'.download request = s.download request)
    (hnext : s'.nextRequest = s.nextRequest) :
    s'.inProgress command a = s.inProgress command a := by
  simp only [inProgress, hdownload, hnext]

theorem inProgress_eq_zero (h : ∀ request d, s.download request = some d → d.command ≠ command) :
    s.inProgress command a = 0 := by
  apply Nat.count_iff_forall_not.mpr
  intro request _ hd
  exact h request _ hd rfl

theorem inProgress_starts {d : Download}
    (hdownload : ∀ request, s'.download request =
      if request = s.nextRequest then some d else s.download request)
    (hnext : s'.nextRequest = s.nextRequest + 1) :
    s'.inProgress command a =
      s.inProgress command a + if d = ⟨command, a⟩ then 1 else 0 := by
  have hbefore : Nat.count (fun request => s'.download request = some ⟨command, a⟩)
      s.nextRequest = s.inProgress command a := by
    apply count_congr
    intro request hlt
    rw [hdownload, if_neg (Nat.ne_of_lt hlt)]
  rw [inProgress, hnext, Nat.count_succ, hbefore]
  simp [hdownload]

theorem inProgress_finishes {request : Nat} {d : Download}
    (hd : s.download request = some d) (hlt : request < s.nextRequest)
    (hdownload : ∀ other, s'.download other =
      if other = request then none else s.download other)
    (hnext : s'.nextRequest = s.nextRequest) :
    s'.inProgress command a + (if d = ⟨command, a⟩ then 1 else 0) =
      s.inProgress command a := by
  rw [inProgress, inProgress, hnext]
  have hleft : ∀ other, s'.download other = some ⟨command, a⟩ ↔
      other ≠ request ∧ s.download other = some ⟨command, a⟩ := by
    intro other
    rw [hdownload]
    by_cases heq : other = request
    · simp [heq]
    · simp [heq]
  by_cases heq : d = ⟨command, a⟩
  · rw [if_pos heq]
    apply count_clear _ hlt hleft
    rw [hd, heq]
  · rw [if_neg heq]
    apply count_congr
    intro other _
    rw [hleft]
    refine and_iff_right_of_imp ?_
    rintro hother rfl
    exact heq (Option.some.inj (hd.symm.trans hother))

theorem concludes_iff {signal : DownloadSignal} (h : s.Concerns signal) :
    s.concludes command a signal = true ↔ ∃ request applicationFullId result,
      signal = .reply request applicationFullId result ∧
        s.download request = some ⟨command, a⟩ := by
  cases signal with
  | reply request applicationFullId result => simp [concludes]
  | accepted _ _ _ => exact h.elim
  | refused _ _ => exact h.elim
  | called _ _ => simp [concludes]
  | cancelled _ => simp [concludes]

theorem mem_replies {request : Nat} {applicationFullId : String} {result : ReplyResult}
    (h : .reply request applicationFullId result ∈ out) : result ∈ replies request out :=
  List.mem_filterMap.mpr ⟨_, h, if_pos rfl⟩

theorem concluded_quiet (hconcerns : ∀ signal ∈ out, s.Concerns signal)
    (hreplies : ∀ request, replies request out = []) : s.concluded command a out = 0 := by
  apply List.countP_eq_zero.mpr
  intro signal hmem hconcludes
  obtain ⟨request, _, result, rfl, -⟩ := (concludes_iff (hconcerns signal hmem)).mp hconcludes
  have hreply := mem_replies hmem
  rw [hreplies] at hreply
  cases hreply

theorem concluded_reply {request : Nat} {d : Download} {result : ReplyResult}
    (hconcerns : ∀ signal ∈ out, s.Concerns signal) (hd : s.download request = some d)
    (hreplies : ∀ other, replies other out = if other = request then [result] else []) :
    s.concluded command a out = if d = ⟨command, a⟩ then 1 else 0 := by
  have hsingle : ∀ other applicationFullId result',
      .reply other applicationFullId result' ∈ out → other = request := by
    intro other applicationFullId result' hmem
    have hreply := mem_replies hmem
    by_contra hne
    rw [hreplies, if_neg hne] at hreply
    cases hreply
  by_cases heq : d = ⟨command, a⟩
  · have hlength : (replies request out).length = 1 := by
      rw [hreplies, if_pos rfl]
      rfl
    rw [if_pos heq, concluded, ← hlength, replies, List.length_filterMap_eq_countP]
    apply List.countP_congr
    intro signal hmem
    rw [concludes_iff (hconcerns signal hmem)]
    cases signal with
    | reply other applicationFullId result' =>
        obtain rfl := hsingle _ _ _ hmem
        simp [hd, heq]
    | accepted _ _ _ => simp
    | refused _ _ => simp
    | called _ _ => simp
    | cancelled _ => simp
  · rw [if_neg heq]
    apply List.countP_eq_zero.mpr
    intro signal hmem hconcludes
    obtain ⟨other, _, _, rfl, hother⟩ := (concludes_iff (hconcerns signal hmem)).mp hconcludes
    obtain rfl := hsingle _ _ _ hmem
    exact heq (Option.some.inj (hd.symm.trans hother))

theorem transfer_inProgress (hs : Consistent s) (heffect : Effect s s' out)
    (hconcerns : ∀ signal ∈ out, s.Concerns signal) :
    s'.inProgress command a + s.concluded command a out = s.inProgress command a := by
  cases heffect with
  | idle hdownload hnext happs hreplies haccepted =>
      rw [concluded_quiet hconcerns hreplies, inProgress_congr hdownload hnext]
      rfl
  | starts d hdownload hnext hnew happs hout =>
      subst hout
      exact (hconcerns _ (List.mem_singleton_self _)).elim
  | finishes request d result hd hdownload hnext hcount hresult hreplies haccepted =>
      rw [concluded_reply hconcerns hd hreplies]
      exact inProgress_finishes hd (hs.made request d hd) hdownload hnext

/-- A request for a download starts one, or is refused. -/
theorem process_inProgress (hs : Consistent s) {b : String} {cached created : Bool}
    {writing : Writing} {other : Nat} (halive : other ∈ s.commands)
    (hprocess : s.process other b cached created writing = .ok (s', out)) :
    s'.inProgress command a + s.concluded command a out =
      s.inProgress command a + if other = command ∧ b = a then 1 else 0 := by
  have hrefused : s.concluded command a [.refused other b] =
      if other = command ∧ b = a then 1 else 0 := by
    simp [concluded, concludes, List.countP_singleton]
  obtain ⟨ongoingRequests, hongoing⟩ := (QMap.mem_iff _ _).mp halive
  obtain ⟨heffect, -⟩ := process_effect hs other b cached created writing hprocess
  simp only [process, hongoing] at hprocess
  split at hprocess
  · cases hprocess
    rw [hrefused]
  split at hprocess
  · cases hprocess
  · cases hprocess
    rw [hrefused]
    rfl
  · cases hprocess
    cases heffect with
    | idle hdownload hnext happs hreplies haccepted =>
        exact absurd List.mem_cons_self (haccepted _ _ _)
    | starts d hdownload hnext hnew happs hout =>
        cases hout
        rw [inProgress_starts hdownload hnext]
        have hnone : s.concluded command a
            [.accepted s.nextRequest d.command d.applicationFullId] = 0 := rfl
        rw [hnone, Nat.add_zero]
        obtain ⟨owner, applicationFullId⟩ := d
        simp only [Download.mk.injEq]
    | finishes request d result hd hdownload hnext hcount hresult hreplies haccepted =>
        exact absurd List.mem_cons_self (haccepted _ _ _)

theorem process_kept {b : String} {cached created : Bool} {writing : Writing} {other : Nat}
    (hprocess : s.process other b cached created writing = .ok (s', out)) :
    (∀ command, command ∈ s'.commands ↔ command ∈ s.commands) ∧
      s'.nextCommand = s.nextCommand ∧
      ∀ request a result, .reply request a result ∉ out := by
  unfold process at hprocess
  split at hprocess
  · cases hprocess
    exact ⟨fun _ => Iff.rfl, rfl, by simp⟩
  rename_i ongoingRequests hongoing
  split at hprocess
  · cases hprocess
    exact ⟨fun _ => Iff.rfl, rfl, by simp⟩
  split at hprocess
  · cases hprocess
  · cases hprocess
    exact ⟨fun _ => Iff.rfl, rfl, by simp⟩
  · cases hprocess
    refine ⟨?_, rfl, by simp⟩
    intro command
    rw [QMap.mem_insert_iff]
    refine or_iff_right_of_imp ?_
    rintro rfl
    exact QMap.mem_of_getElem? hongoing

end Counting

end DownloadSystem

end GBerry.Comms
