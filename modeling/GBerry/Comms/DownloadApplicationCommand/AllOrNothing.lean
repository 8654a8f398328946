import GBerry.Comms.DownloadApplicationCommand
import GBerry.Foundation.Lifecycle

/-!
# Downloads are all or nothing

A download is in progress while its request exists, or its unzip operation runs.
It is finished by one reply, unless its command is destroyed before that.
-/

namespace GBerry.Comms.DownloadSystem

open GBerry.Common
open GBerry.Foundation

structure Download where
  command : Nat
  applicationFullId : String
  deriving DecidableEq

def download (s : DownloadSystem) (request : Nat) : Option Download :=
  match s.requests[request]? with
  | some req => some ⟨req.command, req.applicationFullId⟩
  | none => s.unzips[request]?.map fun unzipOp =>
      ⟨unzipOp.command, unzipOp.applicationFullId⟩

def replies (request : Nat) (signals : List DownloadSignal) : List ReplyResult :=
  signals.filterMap fun
    | .reply other _ result => if other = request then some result else none
    | _ => none

/-- The step destroys a command while a download of it is in progress. -/
def AbandonsDownload (s : DownloadSystem) : DownloadEvent → Prop
  | .destroyCommand command =>
      ∃ request d, s.download request = some d ∧ d.command = command
  | _ => False

inductive Effect (s s' : DownloadSystem) (out : List DownloadSignal) : Prop where
  | idle (hdownload : ∀ request, s'.download request = s.download request)
      (hnext : s'.nextRequest = s.nextRequest) (happs : s'.storage.apps = s.storage.apps)
      (hreplies : ∀ request, replies request out = [])
      (haccepted : ∀ request command a, .accepted request command a ∉ out)
  | starts (d : Download)
      (hdownload : ∀ request, s'.download request =
        if request = s.nextRequest then some d else s.download request)
      (hnext : s'.nextRequest = s.nextRequest + 1)
      (hnew : d.applicationFullId ∉ s.storage.apps)
      (happs : s'.storage.apps = s.storage.apps ++ [d.applicationFullId])
      (hout : out = [.accepted s.nextRequest d.command d.applicationFullId])
  | finishes (request : Nat) (d : Download) (result : ReplyResult)
      (hd : s.download request = some d)
      (hdownload : ∀ other, s'.download other =
        if other = request then none else s.download other)
      (hnext : s'.nextRequest = s.nextRequest)
      (hcount : ∀ a, a ≠ d.applicationFullId →
        s'.storage.apps.count a = s.storage.apps.count a)
      (hresult : result = .ok ∨ (d.applicationFullId ∉ s'.storage.apps ∧
        d.applicationFullId ∉ s'.storage.directories))
      (hreplies : ∀ other, replies other out = if other = request then [result] else [])
      (haccepted : ∀ request command a, .accepted request command a ∉ out)

structure Consistent (s : DownloadSystem) : Prop where
  active : ∀ (request : Nat) (req : DownloadApplicationRequest),
    s.requests[request]? = some req → req.active = true
  alive : ∀ request d, s.download request = some d → d.command ∈ s.commands
  ongoing : ∀ (command : Nat) (l : List Nat), s.commands[command]? = some l →
    ∀ request ∈ l, request < s.nextRequest ∧
      ∀ req, s.requests[request]? = some req → req.command = command
  disjoint : ∀ request ∈ s.requests, request ∉ s.unzips
  made : ∀ request d, s.download request = some d → request < s.nextRequest
  known : ∀ request d, s.download request = some d →
    s.storage.apps.count d.applicationFullId = 1
  distinct : ∀ request other d d', s.download request = some d →
    s.download other = some d' → d.applicationFullId = d'.applicationFullId →
    request = other

structure Removed (s s' : DownloadSystem) (request : Nat) : Prop where
  download : ∀ other, s'.download other =
    if other = request then none else s.download other
  apps : s'.storage.apps = s.storage.apps
  nextRequest : s'.nextRequest = s.nextRequest
  commands : ∀ command ∈ s.commands, command ∈ s'.commands
  ongoing : ∀ (command : Nat) (l' : List Nat), s'.commands[command]? = some l' →
    ∃ l, s.commands[command]? = some l ∧ l' ⊆ l
  requests : ∀ (other : Nat) (req : DownloadApplicationRequest),
    s'.requests[other]? = some req → s.requests[other]? = some req
  unzips : ∀ other ∈ s'.unzips, other ∈ s.unzips

variable {s s' s₁ : DownloadSystem} {out signals : List DownloadSignal} {request : Nat}
  {req : DownloadApplicationRequest} {d : Download}

section Downloads

theorem download_request (h : s.requests[request]? = some req) :
    s.download request = some ⟨req.command, req.applicationFullId⟩ := by
  simp only [download, h]

theorem download_eq_none :
    s.download request = none ↔ request ∉ s.requests ∧ request ∉ s.unzips := by
  rw [QMap.notMem_iff, QMap.notMem_iff, download]
  cases s.requests[request]? with
  | none => simp
  | some req => simp

theorem download_congr (hrequests : s'.requests[request]? = s.requests[request]?)
    (hunzips : s'.unzips[request]? = s.unzips[request]?) :
    s'.download request = s.download request := by
  simp only [download, hrequests, hunzips]

@[simp] theorem replies_nil : replies request [] = [] := rfl

theorem replies_append (signals others : List DownloadSignal) :
    replies request (signals ++ others) = replies request signals ++ replies request others :=
  List.filterMap_append

theorem replies_reply (applicationFullId : String) (result : ReplyResult) (other : Nat) :
    replies other [.reply request applicationFullId result] =
      if other = request then [result] else [] := by
  by_cases heq : other = request
  · subst heq
    simp [replies]
  · simp [replies, heq, Ne.symm heq]

theorem Consistent.shrink (h : Consistent s)
    (hdownload : ∀ request d, s'.download request = some d → s.download request = some d)
    (halive : ∀ request d, s'.download request = some d → d.command ∈ s'.commands)
    (hongoing : ∀ (command : Nat) (l' : List Nat), s'.commands[command]? = some l' →
      l' = [] ∨ ∃ l, s.commands[command]? = some l ∧ l' ⊆ l)
    (hnext : s'.nextRequest = s.nextRequest)
    (hcount : ∀ request d, s'.download request = some d →
      s'.storage.apps.count d.applicationFullId = s.storage.apps.count d.applicationFullId)
    (hrequests : ∀ (request : Nat) (req' : DownloadApplicationRequest),
      s'.requests[request]? = some req' → ∃ req, s.requests[request]? = some req ∧
        req'.active = req.active ∧ req'.command = req.command)
    (hdisjoint : ∀ request ∈ s'.requests, request ∉ s'.unzips) : Consistent s' where
  active request req' hreq' := by
    obtain ⟨req, hreq, hactive, -⟩ := hrequests request req' hreq'
    exact hactive.trans (h.active request req hreq)
  alive := halive
  ongoing command l' hl' request hmem := by
    rcases hongoing command l' hl' with rfl | ⟨l, hl, hsubset⟩
    · cases hmem
    obtain ⟨hlt, hcommand⟩ := h.ongoing command l hl request (hsubset hmem)
    refine ⟨hnext ▸ hlt, ?_⟩
    intro req' hreq'
    obtain ⟨req, hreq, -, heq⟩ := hrequests request req' hreq'
    exact heq.trans (hcommand req hreq)
  disjoint := hdisjoint
  made request d hd := hnext ▸ h.made request d (hdownload request d hd)
  known request d hd := (hcount request d hd).trans (h.known request d (hdownload request d hd))
  distinct request other d d' hd hd' :=
    h.distinct request other d d' (hdownload request d hd) (hdownload other d' hd')

theorem removeRequest_removed (h : Consistent s) (hreq : s.requests[request]? = some req) :
    Removed s (s.removeRequest request req) request where
  download other := by
    by_cases heq : other = request
    · subst heq
      have hnot : s.unzips[other]? = none :=
        (QMap.notMem_iff _ _).mp (h.disjoint other (QMap.mem_of_getElem? hreq))
      simp [download, removeRequest, hnot]
    · rw [if_neg heq]
      refine download_congr ?_ rfl
      simp only [removeRequest, QMap.getElem?_erase, if_neg heq]
  apps := rfl
  nextRequest := rfl
  commands command hmem := by
    simpa only [removeRequest, Std.ExtTreeMap.mem_modify] using hmem
  ongoing _ _ hl' := removeRequest_ongoing hl'
  requests other req' hreq' := by
    simp only [removeRequest, QMap.getElem?_erase] at hreq'
    split at hreq'
    · cases hreq'
    · exact hreq'
  unzips _ hmem := hmem

theorem Consistent.unzipping {unzipOp : UnzipOperation} (h : Consistent s)
    (hunzip : s.unzips[request]? = some unzipOp) : s.requests[request]? = none := by
  rw [← QMap.notMem_iff]
  intro hmem
  exact h.disjoint request hmem (QMap.mem_of_getElem? hunzip)

theorem eraseUnzip_removed {unzipOp : UnzipOperation} (h : Consistent s)
    (hunzip : s.unzips[request]? = some unzipOp) :
    Removed s { s with unzips := s.unzips.erase request } request where
  download other := by
    by_cases heq : other = request
    · subst heq
      simp [download, h.unzipping hunzip]
    · rw [if_neg heq]
      refine download_congr rfl ?_
      simp only [QMap.getElem?_erase, if_neg heq]
  apps := rfl
  nextRequest := rfl
  commands _ hmem := hmem
  ongoing _ l' hl' := ⟨l', hl', List.Subset.refl l'⟩
  requests _ _ hreq := hreq
  unzips other hmem := ((QMap.mem_erase_iff _ _ _).mp hmem).2

theorem Removed.consistent (h : Consistent s) (hremoved : Removed s s₁ request)
    (hd : s.download request = some d) {storage : LocalApplicationsStorage}
    (hcount : ∀ a, a ≠ d.applicationFullId →
      storage.apps.count a = s.storage.apps.count a) :
    Consistent { s₁ with storage := storage } := by
  have hdownload : ∀ other d', s₁.download other = some d' →
      other ≠ request ∧ s.download other = some d' := by
    intro other d' hd'
    rw [hremoved.download] at hd'
    split at hd'
    · cases hd'
    · exact ⟨‹_›, hd'⟩
  refine h.shrink (fun other d' hd' => (hdownload other d' hd').2) ?_ ?_
    hremoved.nextRequest ?_ ?_ ?_
  · intro other d' hd'
    exact hremoved.commands _ (h.alive other d' (hdownload other d' hd').2)
  · intro command l' hl'
    exact .inr (hremoved.ongoing command l' hl')
  · intro other d' hd'
    obtain ⟨hne, hbefore⟩ := hdownload other d' hd'
    refine hcount _ ?_
    intro heq
    exact hne (h.distinct other request d' d hbefore hd heq)
  · intro other req hreq
    exact ⟨req, hremoved.requests other req hreq, rfl, rfl⟩
  · intro other hmem hunzip
    obtain ⟨req, hreq⟩ := (QMap.mem_iff _ _).mp hmem
    exact h.disjoint other (QMap.mem_of_getElem? (hremoved.requests other req hreq))
      (hremoved.unzips other hunzip)

end Downloads

section Operations

theorem failDownload_effect (h : Consistent s) (hremoved : Removed s s₁ request)
    (hd : s.download request = some d)
    (hreplies : ∀ other, replies other signals = [])
    (haccepted : ∀ request command a, .accepted request command a ∉ signals)
    (hfail : s₁.failDownload request d.applicationFullId signals = .ok (s', out)) :
    Effect s s' out ∧ Consistent s' := by
  obtain ⟨rfl, rfl⟩ := failDownload_ok hfail
  have hcount : ∀ a, a ≠ d.applicationFullId →
      (s₁.storage.deleteApplication d.applicationFullId).apps.count a =
        s.storage.apps.count a := by
    intro a hne
    rw [LocalApplicationsStorage.deleteApplication_count hne, hremoved.apps]
  have hgone := LocalApplicationsStorage.deleteApplication_gone
    (s := s₁.storage) (a := d.applicationFullId)
    (hremoved.apps ▸ Nat.le_of_eq (h.known request d hd))
  refine ⟨.finishes request d .failure hd hremoved.download hremoved.nextRequest hcount
    (.inr hgone) ?_ ?_, hremoved.consistent h hd hcount⟩
  · intro other
    rw [replies_append, hreplies, List.nil_append, replies_reply]
  · intro other command a hmem
    rcases List.mem_append.mp hmem with hsignal | hreply
    · exact haccepted other command a hsignal
    · cases List.mem_singleton.mp hreply

theorem Effect.congr (hdownload : ∀ request, s₁.download request = s.download request)
    (happs : s₁.storage.apps = s.storage.apps) (hnext : s₁.nextRequest = s.nextRequest)
    (h : Effect s₁ s' out) : Effect s s' out := by
  cases h with
  | idle hdownload' hnext' happs' hreplies haccepted =>
      exact .idle (fun request => (hdownload' request).trans (hdownload request))
        (hnext'.trans hnext) (happs'.trans happs) hreplies haccepted
  | starts d hdownload' hnext' hnew happs' hout =>
      refine .starts d ?_ (hnext ▸ hnext') (happs ▸ hnew) (happs ▸ happs') (hnext ▸ hout)
      intro request
      rw [hdownload', hdownload, hnext]
  | finishes request d result hd hdownload' hnext' hcount hresult hreplies haccepted =>
      refine .finishes request d result (hdownload request ▸ hd) ?_ (hnext'.trans hnext) ?_
        hresult hreplies haccepted
      · intro other
        rw [hdownload', hdownload]
      · intro a hne
        rw [hcount a hne, happs]

theorem Effect.refl (s : DownloadSystem) : Effect s s [] :=
  .idle (fun _ => rfl) rfl rfl (fun _ => rfl) (by simp)

theorem finishedError_effect (h : Consistent s)
    (hfinished : s.finishedError request = .ok (s', out)) :
    Effect s s' out ∧ Consistent s' := by
  unfold finishedError at hfinished
  split at hfinished
  · cases hfinished
    exact ⟨.refl s, h⟩
  rename_i req hreq
  rw [if_pos (h.active request req hreq)] at hfinished
  exact failDownload_effect h (removeRequest_removed h hreq) (download_request hreq)
    (fun _ => rfl) (by simp) hfinished

theorem finishedError_gone (hfinished : s.finishedError request = .ok (s', out)) :
    s'.requests[request]? = none := by
  unfold finishedError at hfinished
  split at hfinished
  · cases hfinished
    assumption
  split at hfinished
  · obtain ⟨rfl, -⟩ := failDownload_ok hfinished
    simp [removeRequest]
  · cases hfinished
    simp

theorem setInvocation_download {invocation : DownloadStreamInvocation}
    (hreq : s.requests[request]? = some req) (other : Nat) :
    (s.setInvocation request req invocation).download other = s.download other := by
  by_cases heq : other = request
  · subst heq
    have hset : (s.setInvocation other req invocation).requests[other]? =
        some { req with invocation := some invocation } := by
      simp only [setInvocation, QMap.getElem?_insert, if_true]
    rw [download_request hreq, download_request hset]
  · refine download_congr ?_ rfl
    simp only [setInvocation, QMap.getElem?_insert, if_neg heq]

theorem setInvocation_consistent {invocation : DownloadStreamInvocation} (h : Consistent s)
    (hreq : s.requests[request]? = some req) :
    Consistent (s.setInvocation request req invocation) := by
  have hdownload : ∀ other, (s.setInvocation request req invocation).download other =
      s.download other := setInvocation_download hreq
  refine h.shrink ?_ ?_ ?_ rfl (fun _ _ _ => rfl) ?_ ?_
  · intro other d hd
    exact hdownload other ▸ hd
  · intro other d hd
    exact h.alive other d (hdownload other ▸ hd)
  · intro command l' hl'
    exact .inr ⟨l', hl', List.Subset.refl l'⟩
  · intro other req' hreq'
    simp only [setInvocation, QMap.getElem?_insert] at hreq'
    split at hreq'
    · rename_i heq
      cases hreq'
      exact ⟨req, heq ▸ hreq, rfl, rfl⟩
    · exact ⟨req', hreq', rfl, rfl⟩
  · intro other hmem
    refine h.disjoint other ?_
    simp only [setInvocation, QMap.mem_insert_iff] at hmem
    rcases hmem with rfl | hmem
    · exact QMap.mem_of_getElem? hreq
    · exact hmem

theorem setInvocation_effect {invocation : DownloadStreamInvocation}
    (hreq : s.requests[request]? = some req)
    (hreplies : ∀ other, replies other out = [])
    (haccepted : ∀ request command a, .accepted request command a ∉ out) :
    Effect s (s.setInvocation request req invocation) out :=
  .idle (setInvocation_download hreq) rfl rfl hreplies haccepted

theorem finishedOk_effect {fileExists : Bool} (h : Consistent s)
    (hfinished : s.finishedOk request fileExists = .ok (s', out)) :
    Effect s s' out ∧ Consistent s' := by
  unfold finishedOk at hfinished
  split at hfinished
  · cases hfinished
    exact ⟨.refl s, h⟩
  rename_i req hreq
  rw [if_pos (h.active request req hreq)] at hfinished
  have hremoved := removeRequest_removed h hreq
  unfold processRequestOkResponse at hfinished
  simp only at hfinished
  split at hfinished
  · cases hfinished
    have hdownload : ∀ other, { s.removeRequest request req with
        unzips := s.unzips.insert request ⟨req.command, req.applicationFullId⟩
        }.download other = s.download other := by
      intro other
      by_cases heq : other = request
      · subst heq
        rw [download_request hreq]
        simp [download, removeRequest]
      · rw [← (hremoved.download other).trans (if_neg heq)]
        refine download_congr rfl ?_
        simp only [QMap.getElem?_insert, if_neg heq]
        rfl
    refine ⟨.idle hdownload rfl rfl (fun _ => rfl) (by simp), ?_⟩
    refine h.shrink ?_ ?_ ?_ rfl (fun _ _ _ => rfl) ?_ ?_
    · intro other d hd
      exact hdownload other ▸ hd
    · intro other d hd
      exact hremoved.commands _ (h.alive other d (hdownload other ▸ hd))
    · intro command l' hl'
      exact .inr (hremoved.ongoing command l' hl')
    · intro other req' hreq'
      exact ⟨req', hremoved.requests other req' hreq', rfl, rfl⟩
    · intro other hmem hunzip
      obtain ⟨hne, hmem⟩ := (QMap.mem_erase_iff _ _ _).mp hmem
      rcases (QMap.mem_insert_iff _ _ _ _).mp hunzip with heq | hunzip
      · exact hne heq
      · exact h.disjoint other hmem hunzip
  · exact failDownload_effect h hremoved (download_request hreq) (fun _ => rfl) (by simp)
      hfinished

theorem onQNetworkReplyFinished_effect {invocation : DownloadStreamInvocation}
    {failed fileExists : Bool} (h : Consistent s) (hreq : s.requests[request]? = some req)
    (hfinished : s.onQNetworkReplyFinished request req invocation failed fileExists =
      .ok (s', out)) : Effect s s' out ∧ Consistent s' := by
  unfold onQNetworkReplyFinished at hfinished
  split at hfinished
  · cases hfinished
    exact ⟨setInvocation_effect hreq (fun _ => rfl) (by simp),
      setInvocation_consistent h hreq⟩
  split at hfinished
  · exact finishedError_effect h hfinished
  · exact finishedOk_effect h hfinished

theorem abortedTwice_effect {invocation : DownloadStreamInvocation}
    {aborted finished : List DownloadSignal} (h : Consistent s)
    (hreq : s.requests[request]? = some req)
    (habort : s.abort request req invocation = .ok (s₁, aborted))
    (hfinished : s₁.finishedError request = .ok (s', finished)) :
    Effect s s' (aborted ++ finished) ∧ Consistent s' := by
  unfold abort onQNetworkReplyFinished at habort
  split at habort
  · cases habort
    obtain ⟨heffect, hs'⟩ := finishedError_effect (setInvocation_consistent h hreq) hfinished
    exact ⟨heffect.congr (setInvocation_download hreq) rfl rfl, hs'⟩
  · simp only [if_true] at habort
    have hgone := finishedError_gone habort
    simp only [finishedError, hgone] at hfinished
    cases hfinished
    rw [List.append_nil]
    exact finishedError_effect h habort

theorem onQNetworkReplyReadyRead_effect {invocation : DownloadStreamInvocation}
    {httpStatus : HttpStatus} {opens : Bool} {chunks : Nat} (h : Consistent s)
    (hreq : s.requests[request]? = some req)
    (hread : s.onQNetworkReplyReadyRead request req invocation httpStatus opens chunks =
      .ok (s', out)) : Effect s s' out ∧ Consistent s' := by
  rcases onQNetworkReplyReadyRead_ok hread with
    ⟨invocation', s₁, aborted, finished, habort, hfinished, rfl⟩ | ⟨⟨invocation', rfl⟩, hcalled⟩
  · exact abortedTwice_effect h hreq habort hfinished
  · refine ⟨setInvocation_effect hreq ?_ ?_, setInvocation_consistent h hreq⟩
    · intro other
      refine List.filterMap_eq_nil_iff.mpr fun signal hmem => ?_
      obtain ⟨call, rfl⟩ := hcalled signal hmem
      rfl
    · intro other command a hmem
      obtain ⟨call, heq⟩ := hcalled _ hmem
      cases heq

theorem onUnzipFinished_effect {unzipOp : UnzipOperation} {outcome : UnzipOutcome}
    (h : Consistent s) (hunzip : s.unzips[request]? = some unzipOp)
    (hd : s.download request = some d)
    (heq : unzipOp.applicationFullId = d.applicationFullId)
    (hfinished : { s with unzips := s.unzips.erase request }.onUnzipFinished request unzipOp
      outcome = .ok (s', out)) : Effect s s' out ∧ Consistent s' := by
  have hremoved := eraseUnzip_removed h hunzip
  have hcases := onUnzipFinished_ok hfinished
  rw [heq] at hcases
  rcases hcases with hfails | ⟨storage, hrefresh, hmem, hcases⟩
  · exact failDownload_effect h hremoved hd (fun _ => rfl) (by simp) hfails
  have happs := LocalApplicationsStorage.refreshApplication_apps (h.known request d hd)
    hrefresh hmem
  rcases hcases with hfails | ⟨updated, hupdate, rfl, rfl⟩
  · have hremoved' : Removed s { s with
        unzips := s.unzips.erase request
        storage := storage } request :=
      { hremoved with apps := happs }
    exact failDownload_effect h hremoved' hd (fun _ => rfl) (by simp) hfails
  · have hcount : ∀ a, updated.apps.count a = s.storage.apps.count a := by
      intro a
      rw [LocalApplicationsStorage.updateApplication_count hupdate, happs]
    exact ⟨.finishes request d .ok hd hremoved.download rfl (fun a _ => hcount a)
      (.inl rfl) (replies_reply _ _) (by simp), hremoved.consistent h hd (fun a _ => hcount a)⟩

end Operations

section Events

theorem unzipFinished_effect {outcome : UnzipOutcome} (h : Consistent s)
    (hfinished : s.unzipFinished request outcome = .ok (s', out)) :
    Effect s s' out ∧ Consistent s' := by
  unfold unzipFinished at hfinished
  split at hfinished
  · cases hfinished
    exact ⟨.refl s, h⟩
  rename_i unzipOp hunzip
  have hd : s.download request =
      some ⟨unzipOp.command, unzipOp.applicationFullId⟩ := by
    simp [download, h.unzipping hunzip, hunzip]
  have halive : s.commands.contains unzipOp.command = true :=
    Std.ExtTreeMap.contains_iff_mem.mpr (h.alive request _ hd)
  simp only [halive, if_true] at hfinished
  exact onUnzipFinished_effect h hunzip hd rfl hfinished

theorem withInvocation_effect
    {next : DownloadApplicationRequest → DownloadStreamInvocation → DownloadResult}
    (h : Consistent s)
    (hnext : ∀ req invocation, s.requests[request]? = some req →
      next req invocation = .ok (s', out) → Effect s s' out ∧ Consistent s')
    (hstep : s.withInvocation request next = .ok (s', out)) :
    Effect s s' out ∧ Consistent s' := by
  rcases withInvocation_ok hstep with ⟨rfl, rfl⟩ | ⟨req, invocation, hreq, -, hcalled⟩
  · exact ⟨.refl s', h⟩
  · exact hnext req invocation hreq hcalled

theorem executeRequest_effect (h : Consistent s)
    (hstep : s.executeRequest request = .ok (s', out)) :
    Effect s s' out ∧ Consistent s' := by
  rcases executeRequest_ok hstep with ⟨rfl, rfl⟩ | ⟨req, -, hreq, rfl, rfl⟩
  · exact ⟨.refl s', h⟩
  · have hdequeued : Consistent { s with requestQueue := s.requestQueue.erase request } :=
      ⟨h.active, h.alive, h.ongoing, h.disjoint, h.made, h.known, h.distinct⟩
    refine ⟨.idle ?_ rfl rfl (fun _ => rfl) (by simp), setInvocation_consistent hdequeued hreq⟩
    exact setInvocation_download (s := { s with
      requestQueue := s.requestQueue.erase request }) hreq

theorem noConnection_effect (h : Consistent s)
    (hstep : s.noConnection request = .ok (s', out)) : Effect s s' out ∧ Consistent s' := by
  rcases noConnection_ok hstep with ⟨rfl, rfl⟩ | hfinished
  · exact ⟨.refl s', h⟩
  · exact finishedError_effect h hfinished

theorem createCommand_effect (h : Consistent s) :
    Effect s s.createCommand [] ∧ Consistent s.createCommand := by
  refine ⟨.idle (fun _ => rfl) rfl rfl (fun _ => rfl) (by simp), ?_⟩
  refine h.shrink (fun _ _ hd => hd) ?_ ?_ rfl (fun _ _ _ => rfl) ?_ h.disjoint
  · intro request d hd
    exact (QMap.mem_insert_iff _ _ _ _).mpr (.inr (h.alive request d hd))
  · intro command l' hl'
    simp only [createCommand, QMap.getElem?_insert] at hl'
    split at hl'
    · cases hl'
      exact .inl rfl
    · exact .inr ⟨l', hl', List.Subset.refl l'⟩
  · intro request req hreq
    exact ⟨req, hreq, rfl, rfl⟩

theorem cancelAll_gone {l : List Nat} (h : ∀ request ∈ l, s.requests[request]? = none) :
    s.cancelAll l = .ok (s, l.map .cancelled) := by
  induction l with
  | nil => rfl
  | cons request rest ih =>
      have hcancel : s.cancel request = .ok (s, [.cancelled request]) := by
        simp only [cancel, h request List.mem_cons_self]
      simp only [cancelAll, hcancel,
        ih fun other hmem => h other (List.mem_cons_of_mem _ hmem)]
      rfl

theorem Consistent.gone_of_not_abandons {command : Nat} {ongoingRequests : List Nat}
    (h : Consistent s) (hongoing : s.commands[command]? = some ongoingRequests)
    (hfinished : ¬ s.AbandonsDownload (.destroyCommand command)) :
    ∀ request ∈ ongoingRequests, s.requests[request]? = none := by
  intro request hmem
  cases hreq : s.requests[request]? with
  | none => rfl
  | some req =>
      exact absurd ⟨request, _, download_request hreq,
        (h.ongoing command ongoingRequests hongoing request hmem).2 req hreq⟩ hfinished

theorem destroyCommand_effect {command : Nat} (h : Consistent s)
    (hfinished : ¬ s.AbandonsDownload (.destroyCommand command))
    (hstep : s.destroyCommand command = .ok (s', out)) :
    Effect s s' out ∧ Consistent s' := by
  unfold destroyCommand at hstep
  split at hstep
  · cases hstep
    exact ⟨.refl s, h⟩
  rename_i ongoingRequests hongoing
  have hgone := h.gone_of_not_abandons hongoing hfinished
  rw [cancelAll_gone (s := { s with commands := s.commands.erase command }) hgone] at hstep
  cases hstep
  refine ⟨.idle (fun _ => rfl) rfl rfl ?_ ?_, ?_⟩
  · intro request
    simp [replies, List.filterMap_map]
  · intro request other a hmem
    obtain ⟨_, -, heq⟩ := List.mem_map.mp hmem
    cases heq
  · refine h.shrink (fun _ _ hd => hd) ?_ ?_ rfl (fun _ _ _ => rfl) ?_ h.disjoint
    · intro request d hd
      refine (QMap.mem_erase_iff _ _ _).mpr ⟨?_, h.alive request d hd⟩
      intro heq
      exact hfinished ⟨request, d, hd, heq⟩
    · intro other l' hl'
      rw [QMap.getElem?_erase] at hl'
      split at hl'
      · cases hl'
      · exact .inr ⟨l', hl', List.Subset.refl l'⟩
    · intro request req hreq
      exact ⟨req, hreq, rfl, rfl⟩

theorem Consistent.unused (h : Consistent s) : s.download s.nextRequest = none := by
  cases hd : s.download s.nextRequest with
  | none => rfl
  | some d => exact absurd (h.made s.nextRequest d hd) (Nat.lt_irrefl _)

theorem Consistent.ongoing_starts (h : Consistent s) {command : Nat}
    {ongoingRequests : List Nat} {a : String}
    (hongoing : s.commands[command]? = some ongoingRequests)
    (hcommands : s'.commands =
      s.commands.insert command (ongoingRequests ++ [s.nextRequest]))
    (hrequests : s'.requests = s.requests.insert s.nextRequest ⟨command, a, true, none⟩)
    (hnext : s'.nextRequest = s.nextRequest + 1) {other : Nat} {l : List Nat}
    (hl : s'.commands[other]? = some l) (hmem : request ∈ l) :
    request < s'.nextRequest ∧
      ∀ req, s'.requests[request]? = some req → req.command = other := by
  have hcommand : (other = command ∧ l = ongoingRequests ++ [s.nextRequest]) ∨
      s.commands[other]? = some l := by
    rw [hcommands, QMap.getElem?_insert] at hl
    split at hl
    · cases hl
      exact .inl ⟨‹_›, rfl⟩
    · exact .inr hl
  have hlisted : request = s.nextRequest ∧ other = command ∨
      request < s.nextRequest ∧
        ∀ req, s.requests[request]? = some req → req.command = other := by
    rcases hcommand with ⟨rfl, rfl⟩ | hl
    · rcases List.mem_append.mp hmem with hmem | hmem
      · exact .inr (h.ongoing other ongoingRequests hongoing request hmem)
      · exact .inl ⟨List.mem_singleton.mp hmem, rfl⟩
    · exact .inr (h.ongoing other l hl request hmem)
  rw [hnext, hrequests]
  simp only [QMap.getElem?_insert]
  rcases hlisted with ⟨rfl, rfl⟩ | ⟨hlt, hreq⟩
  · refine ⟨Nat.lt_succ_self _, ?_⟩
    intro req hreq
    rw [if_pos rfl] at hreq
    cases hreq
    rfl
  · refine ⟨Nat.lt_succ_of_lt hlt, ?_⟩
    rw [if_neg (Nat.ne_of_lt hlt)]
    exact hreq

theorem Consistent.starts (h : Consistent s) {command : Nat} {ongoingRequests : List Nat}
    {a : String} (hongoing : s.commands[command]? = some ongoingRequests)
    (hnew : a ∉ s.storage.apps)
    (hdownload : ∀ request, s'.download request =
      if request = s.nextRequest then some ⟨command, a⟩ else s.download request)
    (hcommands : s'.commands =
      s.commands.insert command (ongoingRequests ++ [s.nextRequest]))
    (hrequests : s'.requests = s.requests.insert s.nextRequest ⟨command, a, true, none⟩)
    (hunzips : s'.unzips = s.unzips) (hnext : s'.nextRequest = s.nextRequest + 1)
    (happs : s'.storage.apps = s.storage.apps ++ [a]) : Consistent s' := by
  have hold : ∀ request d, s'.download request = some d →
      (request = s.nextRequest ∧ d = ⟨command, a⟩) ∨
        (request ≠ s.nextRequest ∧ s.download request = some d ∧
          d.applicationFullId ≠ a) := by
    intro request d hd
    rw [hdownload] at hd
    split at hd
    · cases hd
      exact .inl ⟨‹_›, rfl⟩
    · refine .inr ⟨‹_›, hd, ?_⟩
      intro heq
      have hcount := h.known request d hd
      rw [heq, List.count_eq_zero.mpr hnew] at hcount
      cases hcount
  constructor
  · intro request req hreq
    rw [hrequests, QMap.getElem?_insert] at hreq
    split at hreq
    · cases hreq
      rfl
    · exact h.active request req hreq
  · intro request d hd
    rw [hcommands, QMap.mem_insert_iff]
    rcases hold request d hd with ⟨-, rfl⟩ | ⟨-, hbefore, -⟩
    · exact .inl rfl
    · exact .inr (h.alive request d hbefore)
  · intro other l hl request hmem
    exact h.ongoing_starts hongoing hcommands hrequests hnext hl hmem
  · intro request hmem hunzip
    rw [hunzips] at hunzip
    rw [hrequests, QMap.mem_insert_iff] at hmem
    rcases hmem with rfl | hmem
    · exact (download_eq_none.mp h.unused).2 hunzip
    · exact h.disjoint request hmem hunzip
  · intro request d hd
    rw [hnext]
    rcases hold request d hd with ⟨rfl, -⟩ | ⟨-, hbefore, -⟩
    · exact Nat.lt_succ_self _
    · exact Nat.lt_succ_of_lt (h.made request d hbefore)
  · intro request d hd
    rw [happs, List.count_append]
    rcases hold request d hd with ⟨-, rfl⟩ | ⟨-, hbefore, hne⟩
    · rw [List.count_eq_zero.mpr hnew, List.count_singleton_self]
    · rw [h.known request d hbefore, List.count_singleton, beq_false_of_ne hne.symm]
      rfl
  · intro request other d d' hd hd' heq
    rcases hold request d hd with ⟨rfl, rfl⟩ | ⟨-, hbefore, hne⟩
    · rcases hold other d' hd' with ⟨rfl, -⟩ | ⟨-, -, hne'⟩
      · rfl
      · exact absurd heq.symm hne'
    · rcases hold other d' hd' with ⟨-, rfl⟩ | ⟨-, hbefore', -⟩
      · exact absurd heq hne
      · exact h.distinct request other d d' hbefore hbefore' heq

theorem process_effect (h : Consistent s) (command : Nat) (applicationFullId : String)
    (cached created : Bool) (writing : Writing)
    (hprocess : s.process command applicationFullId cached created writing =
      .ok (s', out)) : Effect s s' out ∧ Consistent s' := by
  unfold process at hprocess
  split at hprocess
  · cases hprocess
    exact ⟨.refl s, h⟩
  rename_i ongoingRequests hongoing
  split at hprocess
  · cases hprocess
    exact ⟨.idle (fun _ => rfl) rfl rfl (fun _ => rfl) (by simp), h⟩
  split at hprocess
  · cases hprocess
  · rename_i storage hrefused
    cases hprocess
    have happs := LocalApplicationsStorage.addApplication_refused hrefused
    refine ⟨.idle (fun _ => rfl) rfl happs (fun _ => rfl) (by simp), ?_⟩
    refine h.shrink (fun _ _ hd => hd) h.alive ?_ rfl ?_ ?_ h.disjoint
    · intro other l' hl'
      exact .inr ⟨l', hl', List.Subset.refl l'⟩
    · intro request d _
      rw [happs]
    · intro request req hreq
      exact ⟨req, hreq, rfl, rfl⟩
  · rename_i storage hadded
    cases hprocess
    obtain ⟨hnew, -, happs⟩ := LocalApplicationsStorage.addApplication_ok hadded
    have hdownload : ∀ request, ({ s with
        storage := storage
        commands := s.commands.insert command (ongoingRequests ++ [s.nextRequest])
        requests := s.requests.insert s.nextRequest ⟨command, applicationFullId, true, none⟩
        requestQueue := s.requestQueue ++ [s.nextRequest]
        nextRequest := s.nextRequest + 1 } : DownloadSystem).download request =
          if request = s.nextRequest then some ⟨command, applicationFullId⟩
          else s.download request := by
      intro request
      by_cases heq : request = s.nextRequest
      · simp [download, heq]
      · rw [if_neg heq]
        refine download_congr ?_ rfl
        simp only [QMap.getElem?_insert, if_neg heq]
    exact ⟨.starts ⟨command, applicationFullId⟩ hdownload rfl hnew happs rfl,
      h.starts hongoing hnew hdownload rfl rfl rfl rfl happs⟩

theorem step_effect (h : Consistent s) {event : DownloadEvent}
    (hstep : s.step event = .ok (s', out)) (hevent : ¬ s.AbandonsDownload event) :
    Effect s s' out ∧ Consistent s' := by
  cases event with
  | createCommand =>
      cases hstep
      exact createCommand_effect h
  | destroyCommand command => exact destroyCommand_effect h hevent hstep
  | process command applicationFullId cached created writing =>
      exact process_effect h command applicationFullId cached created writing hstep
  | executeRequest request => exact executeRequest_effect h hstep
  | noConnection request => exact noConnection_effect h hstep
  | redirected request =>
      refine withInvocation_effect h ?_ hstep
      intro req invocation hreq hset
      cases hset
      exact ⟨setInvocation_effect hreq (fun _ => rfl) (by simp),
        setInvocation_consistent h hreq⟩
  | readyRead request httpStatus opens chunks =>
      refine withInvocation_effect h ?_ hstep
      intro req invocation hreq hread
      exact onQNetworkReplyReadyRead_effect h hreq hread
  | replyFinished request failed fileExists =>
      refine withInvocation_effect h ?_ hstep
      intro req invocation hreq hfinished
      exact onQNetworkReplyFinished_effect h hreq hfinished
  | unzipFinished request outcome => exact unzipFinished_effect h hstep

end Events

section Faults

variable {fault : DownloadFault} {invocation : DownloadStreamInvocation}

end Faults

structure Answered (past : List DownloadSignal) (s : DownloadSystem) : Prop where
  atMostOnce : ∀ request, (replies request past).length ≤ 1
  unanswered : ∀ request d, s.download request = some d → replies request past = []
  accepted : ∀ request command a, .accepted request command a ∈ past →
    request < s.nextRequest ∧
      (s.download request = none → (replies request past).length = 1)
  fresh : ∀ request, s.nextRequest ≤ request → replies request past = []

section Runs

variable {past : List DownloadSignal}

theorem Answered.idle (h : Answered past s)
    (hdownload : ∀ request, s'.download request = s.download request)
    (hnext : s'.nextRequest = s.nextRequest) (hreplies : ∀ request, replies request out = [])
    (haccepted : ∀ request command a, .accepted request command a ∉ out) :
    Answered (past ++ out) s' := by
  have hpast : ∀ request, replies request (past ++ out) = replies request past := by
    intro request
    rw [replies_append, hreplies, List.append_nil]
  constructor
  · intro request
    exact hpast request ▸ h.atMostOnce request
  · intro request d hd
    exact (hpast request).trans (h.unanswered request d (hdownload request ▸ hd))
  · intro request command a hmem
    rw [hpast, hdownload, hnext]
    exact h.accepted request command a
      ((List.mem_append.mp hmem).resolve_right (haccepted request command a))
  · intro request hle
    exact (hpast request).trans (h.fresh request (hnext ▸ hle))

theorem Answered.starts {d : Download} (h : Answered past s)
    (hdownload : ∀ request, s'.download request =
      if request = s.nextRequest then some d else s.download request)
    (hnext : s'.nextRequest = s.nextRequest + 1) :
    Answered (past ++ [.accepted s.nextRequest d.command d.applicationFullId]) s' := by
  have hpast : ∀ request, replies request
      (past ++ [.accepted s.nextRequest d.command d.applicationFullId]) =
        replies request past := by
    intro request
    rw [replies_append]
    exact List.append_nil _
  constructor
  · intro request
    exact hpast request ▸ h.atMostOnce request
  · intro request d' hd'
    rw [hpast]
    rw [hdownload] at hd'
    split at hd'
    · exact h.fresh request (Nat.le_of_eq (Eq.symm ‹_›))
    · exact h.unanswered request d' hd'
  · intro request command a hmem
    rw [hpast, hdownload, hnext]
    rcases List.mem_append.mp hmem with hbefore | hnow
    · obtain ⟨hlt, hanswered⟩ := h.accepted request command a hbefore
      rw [if_neg (Nat.ne_of_lt hlt)]
      exact ⟨Nat.lt_succ_of_lt hlt, hanswered⟩
    · cases List.mem_singleton.mp hnow
      rw [if_pos rfl]
      exact ⟨Nat.lt_succ_self _, nofun⟩
  · intro request hle
    rw [hpast]
    exact h.fresh request (by omega)

theorem Answered.finishes {request : Nat} {d : Download} {result : ReplyResult}
    (h : Answered past s) (hs : Consistent s) (hd : s.download request = some d)
    (hdownload : ∀ other, s'.download other =
      if other = request then none else s.download other)
    (hnext : s'.nextRequest = s.nextRequest)
    (hreplies : ∀ other, replies other out = if other = request then [result] else [])
    (haccepted : ∀ request command a, .accepted request command a ∉ out) :
    Answered (past ++ out) s' := by
  have hother : ∀ other, other ≠ request →
      replies other (past ++ out) = replies other past := by
    intro other hne
    rw [replies_append, hreplies, if_neg hne, List.append_nil]
  have hself : replies request (past ++ out) = [result] := by
    rw [replies_append, hreplies, if_pos rfl, h.unanswered request d hd]
    rfl
  constructor
  · intro other
    by_cases heq : other = request
    · subst heq
      rw [hself]
      exact Nat.le_refl 1
    · exact hother other heq ▸ h.atMostOnce other
  · intro other d' hd'
    rw [hdownload] at hd'
    split at hd'
    · cases hd'
    · rename_i hne
      exact (hother other hne).trans (h.unanswered other d' hd')
  · intro other command a hmem
    rw [hnext]
    obtain ⟨hlt, hanswered⟩ := h.accepted other command a
      ((List.mem_append.mp hmem).resolve_right (haccepted other command a))
    refine ⟨hlt, ?_⟩
    by_cases heq : other = request
    · subst heq
      intro _
      rw [hself]
      rfl
    · rw [hother other heq, hdownload, if_neg heq]
      exact hanswered
  · intro other hle
    rw [hnext] at hle
    by_cases heq : other = request
    · subst heq
      exact absurd (hs.made other d hd) (Nat.not_lt.mpr hle)
    · exact (hother other heq).trans (h.fresh other hle)

theorem Answered.step (h : Answered past s) (hs : Consistent s) (heffect : Effect s s' out) :
    Answered (past ++ out) s' := by
  cases heffect with
  | idle hdownload hnext happs hreplies haccepted =>
      exact h.idle hdownload hnext hreplies haccepted
  | starts d hdownload hnext hnew happs hout =>
      subst hout
      exact h.starts hdownload hnext
  | finishes request d result hd hdownload hnext hcount hresult hreplies haccepted =>
      exact h.finishes hs hd hdownload hnext hreplies haccepted

/-- A download that ends without an ok reply is no longer in the storage. -/
theorem Effect.cleared (heffect : Effect s s' out) (hd : s.download request = some d)
    (hgone : s'.download request = none) (hreply : .ok ∉ replies request out) :
    d.applicationFullId ∉ s'.storage.apps ∧ d.applicationFullId ∉ s'.storage.directories := by
  cases heffect with
  | idle hdownload hnext happs hreplies haccepted =>
      rw [hdownload, hd] at hgone
      cases hgone
  | starts d' hdownload hnext hnew happs hout =>
      rw [hdownload, hd] at hgone
      split at hgone
      · cases hgone
      · cases hgone
  | finishes other d' result hd' hdownload hnext hcount hresult hreplies haccepted =>
      by_cases heq : request = other
      · subst heq
        obtain rfl := Option.some.inj (hd.symm.trans hd')
        rw [hreplies, if_pos rfl] at hreply
        exact hresult.resolve_left fun hok => hreply (hok ▸ List.mem_singleton_self _)
      · rw [hdownload, if_neg heq, hd] at hgone
        cases hgone

variable {storage : LocalApplicationsStorage} {history : History}

theorem start_consistent (storage : LocalApplicationsStorage) :
    Consistent (start storage) := by
  constructor <;> simp [start, download]

def downloads : List DownloadEvent :=
  [.createCommand, .process 0 "chess-1" true true .written, .executeRequest 0,
    .readyRead 0 .OK_200 true 1, .replyFinished 0 false true,
    .unzipFinished 0 ⟨0, .application "chess-1", .written⟩, .destroyCommand 0]

end Runs

end GBerry.Comms.DownloadSystem
