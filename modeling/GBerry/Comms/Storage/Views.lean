import GBerry.Comms.Storage.Failures

/-!
# The list and its indices

The full ids in the list are to be distinct, and every `LocalApplications` is to hold
what is in the list.  Directories whose configurations have one id, a configuration that
has another id when it is read again, and a directory that cannot be deleted break this.
-/

namespace GBerry.Comms.Storage.LocalApplicationsStorage

open GBerry.Common
open GBerry.Foundation

/-- What the storage is relied on for. -/
structure Consistent (s : LocalApplicationsStorage) : Prop where
  nonnull : none ∉ s.apps
  distinct : (s.apps.filterMap fun entry => entry.map Application.id).Nodup
  views : ∀ view ∈ s.views, ∀ id app,
    view[id]? = some app ↔ some app ∈ s.apps ∧ app.id = id

def rereads : StorageEvent → Option String
  | .updateApplication _ application => some application.id
  | .refreshApplication _ applicationFullId => some applicationFullId
  | _ => none

def reads : StorageEvent → Option Attempt
  | .applications attempt => some attempt
  | .localApplications attempt => some attempt
  | .updateApplication attempt _ => some attempt
  | .deleteApplication attempt _ => some attempt
  | .addApplication attempt _ => some attempt
  | _ => none

def leaves : StorageEvent → List Application → List Application
  | .deleteApplication _ application, l => without l application.id
  | _, l => l

section Definitions

variable [QDir] (appsDir : String)
  (st : Step LocalApplicationsStorage StorageEvent StorageAnswer)

/-- An application that was read again is found by its id. -/
def StillFound : Prop :=
  ∀ id, rereads st.label = some id → st.out = [.result none] →
    ∀ failures indices s, st.post.localApplications appsDir failures = .ok (indices, s) →
      id ∈ indices

/-- What the disk must be like for the list and its indices to stay in order. -/
structure KeepsOrder : Prop where
  /-- The configurations that are first read describe different applications. -/
  firstReading : ∀ attempt l, reads st.label = some attempt →
    st.pre.appsReadFirstTime = false →
    readApplications appsDir attempt.firstReading st.pre.disk = .ok l →
    (ids (leaves st.label l)).Nodup
  /-- A configuration that is read again describes the same application as before. -/
  refreshed : ∀ attempt app newApp, st.label = .refreshApplication attempt app.id →
    some app ∈ st.pre.apps →
    readApplication attempt.failures app.appMeta.applicationDirPath
      ((st.pre.disk[app.appMeta.applicationDirPath]?).getD ∅) = .ok (some newApp) →
    newApp.id = app.id
  /-- A directory can be deleted, at least while something is connected. -/
  deleted : ∀ attempt application l, st.label = .deleteApplication attempt application →
    st.pre.Lists appsDir attempt.firstReading l → application.id ∈ ids l →
    st.pre.views ≠ [] →
    (removeRecursively attempt.failures (QDir.filePath appsDir application.id)
      st.pre.disk).1 = true

end Definitions

section Steps

variable [QDir] {appsDir : String} {failures : Failures} {attempt : Attempt}
  {s s' : LocalApplicationsStorage} {l l' : List Application} {application : Application}
  {event : StorageEvent} {out : List StorageAnswer} {result : Result StorageError}

omit [QDir] in
theorem Consistent.nodup (hs : s.Consistent) (happs : s.apps = l.map some) :
    (ids l).Nodup := by
  have hdistinct := hs.distinct
  rw [happs, List.filterMap_map] at hdistinct
  simpa [ids, Function.comp_def] using hdistinct

omit [QDir] in
theorem consistent_of_nodup (happs : s.apps = l.map some) (hnodup : (ids l).Nodup)
    (hviews : ∀ view ∈ s.views, ∀ id app, view[id]? = some app ↔ app ∈ l ∧ app.id = id) :
    s.Consistent where
  nonnull := by simp [happs]
  distinct := by
    rw [happs, List.filterMap_map]
    simpa [ids, Function.comp_def] using hnodup
  views view hview id app := by
    rw [hviews view hview, happs]
    simp

omit [QDir] in
theorem Consistent.view (hs : s.Consistent) (happs : s.apps = l.map some)
    {view : LocalApplications} (hview : view ∈ s.views) (id : String) (app : Application) :
    view[id]? = some app ↔ app ∈ l ∧ app.id = id := by
  rw [hs.views view hview, happs]
  simp

theorem kept_consistent_iff (hs : s.Sound) (hc : s.Consistent)
    (hl : s.Lists appsDir failures l) (happs : s'.apps = l.map some)
    (hviews : s'.views = s.views) : s'.Consistent ↔ (ids l).Nodup := by
  refine ⟨fun hc' => hc'.nodup happs, fun hnodup => consistent_of_nodup happs hnodup ?_⟩
  intro view hview
  rw [hviews] at hview
  exact hc.view (hs.apps_eq hl (List.ne_nil_of_mem hview)) hview

omit [QDir] in
theorem told_consistent_iff (happs : s.apps = l.map some) :
    (s.told l).Consistent ↔ (ids l).Nodup := by
  refine ⟨fun hc => hc.nodup happs, fun hnodup => consistent_of_nodup happs hnodup ?_⟩
  intro view hview id app
  obtain ⟨_, -, rfl⟩ := List.mem_map.mp hview
  exact getElem?_indexed hnodup app

theorem found_iff {id : String} (hread : s.appsReadFirstTime = true)
    (happs : s.apps = l.map some) :
    (∀ failures indices t, s.localApplications appsDir failures = .ok (indices, t) →
      id ∈ indices) ↔ id ∈ ids l := by
  have hopened (failures : Failures) : s.localApplications appsDir failures =
      .ok (indexed l, { s with views := s.views ++ [indexed l] }) := by
    simp only [localApplications, LocalApplicationsStorage.applications, hread, if_true, happs,
      index_map_some]
    rw [← happs]
    rfl
  constructor
  · intro hfound
    exact mem_indexed.mp (hfound (fun _ => false) _ _ (hopened _))
  · intro hmem failures indices t hlocal
    rw [hopened] at hlocal
    cases hlocal
    exact mem_indexed.mpr hmem

theorem keepsOrder_of_reads (hs : s.Sound) (hc : s.Consistent)
    (hreads : reads event = some attempt) (hl : s.Lists appsDir attempt.firstReading l)
    (hleaves : leaves event l = l') (hfewer : (ids l).Nodup → (ids l').Nodup)
    (hdelete : ∀ attempt application, event = .deleteApplication attempt application →
      application.id ∈ ids l → s.views ≠ [] →
      (removeRecursively attempt.failures (QDir.filePath appsDir application.id) s.disk).1 =
        true) :
    KeepsOrder appsDir ⟨s, event, out, s'⟩ ↔ (ids l').Nodup := by
  subst hleaves
  constructor
  · intro hkeeps
    cases hread : s.appsReadFirstTime with
    | true => exact hfewer (hc.nodup ((lists_of_read hread).mp hl))
    | false =>
        exact hkeeps.firstReading attempt l hreads hread
          (lists_of_unread hread (hs.unread hread).1 hl)
  · intro hnodup
    refine ⟨?_, ?_, ?_⟩
    · intro attempt' l' hreads' hread hread'
      cases hreads.symm.trans hreads'
      have hsame := (lists_of_unread hread (hs.unread hread).1 hl).symm.trans hread'
      rw [← Except.ok.inj hsame]
      exact hnodup
    · rintro attempt' app newApp rfl
      cases hreads
    · rintro attempt' application l' rfl hl' hmem hviews
      cases hreads
      rw [← hl.unique hl'] at hmem
      exact hdelete _ _ rfl hmem hviews

end Steps

section Events

variable [QDir] {appsDir : String} {attempt : Attempt} {s s' : LocalApplicationsStorage}
  {l : List Application} {application : Application} {out : List StorageAnswer}
  {result : Result StorageError}

omit [QDir] in
theorem nodup_append_iff {app : Application} (hid : app.id = application.id)
    (hnew : application.id ∉ ids l) : (ids (l ++ [app])).Nodup ↔ (ids l).Nodup := by
  rw [ids, List.map_append, List.nodup_append_comm, List.map_cons, List.map_nil,
    List.singleton_append, List.nodup_cons, hid]
  exact and_iff_right hnew

omit [QDir] in
theorem perm_replaced {app : Application} (hid : app.id = application.id)
    (hmem : application.id ∈ ids l) : (ids (without l application.id ++ [app])).Perm (ids l) := by
  have hids : ids (without l application.id ++ [app]) =
      (ids l).erase application.id ++ [application.id] := by
    rw [← ids_without, ← hid, ids, List.map_append]
    rfl
  rw [hids]
  exact List.perm_append_comm.trans (List.perm_cons_erase hmem).symm

theorem update_keepsOrder_iff (hs : s.Sound) (hc : s.Consistent)
    (h : s.updateApplication appsDir attempt application = .ok (result, s')) :
    s'.Consistent ∧ StillFound appsDir
        ⟨s, .updateApplication attempt application, [.result result], s'⟩ ↔
      KeepsOrder appsDir
        ⟨s, .updateApplication attempt application, [.result result], s'⟩ := by
  obtain ⟨l, hl, heffect⟩ := updateApplication_effect h
  have hleaves : leaves (.updateApplication attempt application) l = l := rfl
  rw [keepsOrder_of_reads hs hc rfl hl hleaves id (by rintro _ _ ⟨⟩)]
  cases heffect with
  | refused _ _ hs' =>
      rw [kept_consistent_iff hs hc hl (by rw [hs']; rfl) (by rw [hs']; rfl)]
      exact and_iff_left nofun
  | unwritten _ _ _ _ hs' =>
      rw [kept_consistent_iff hs hc hl (by rw [hs']; rfl) (by rw [hs']; rfl)]
      exact and_iff_left nofun
  | unread disk hmem _ hs' =>
      subst hs'
      rw [told_consistent_iff rfl]
      refine and_iff_left ?_
      rintro _ ⟨⟩ -
      exact (found_iff rfl rfl).mpr hmem
  | @updated app disk hmem _ hid hs' =>
      subst hs'
      rw [told_consistent_iff rfl, (perm_replaced hid hmem).nodup_iff]
      refine and_iff_left ?_
      rintro _ ⟨⟩ -
      exact (found_iff rfl rfl).mpr ((perm_replaced hid hmem).mem_iff.mpr hmem)

theorem add_keepsOrder_iff (hs : s.Sound) (hc : s.Consistent)
    (h : s.addApplication appsDir attempt application = .ok (result, s')) :
    s'.Consistent ↔
      KeepsOrder appsDir ⟨s, .addApplication attempt application, out, s'⟩ := by
  obtain ⟨l, hl, heffect⟩ := addApplication_effect h
  have hleaves : leaves (.addApplication attempt application) l = l := rfl
  rw [keepsOrder_of_reads hs hc rfl hl hleaves id (by rintro _ _ ⟨⟩)]
  cases heffect with
  | added _ hnew _ _ _ _ hid hs' =>
      subst hs'
      rw [told_consistent_iff rfl, nodup_append_iff hid hnew]
  | refused _ _ hs' =>
      exact kept_consistent_iff hs hc hl (by rw [hs']; rfl) (by rw [hs']; rfl)
  | uncreated _ _ _ _ hs' =>
      exact kept_consistent_iff hs hc hl (by rw [hs']; rfl) (by rw [hs']; rfl)
  | unwritten _ _ _ _ _ _ _ hs' =>
      exact kept_consistent_iff hs hc hl (by rw [hs']; rfl) (by rw [hs']; rfl)

omit [QDir] in
/-- Where something is connected, what is forgotten without a signal is still found. -/
theorem not_consistent_of_forgotten (hc : s.Consistent) (happs : s.apps = l.map some)
    (hmem : application.id ∈ ids l) (hviews : s.views ≠ [])
    (happs' : s'.apps = (without l application.id).map some) (hviews' : s'.views = s.views) :
    ¬ s'.Consistent := by
  intro hc'
  obtain ⟨view, hview⟩ := List.exists_mem_of_ne_nil _ hviews
  obtain ⟨app, happ, hid⟩ := List.mem_map.mp hmem
  have hfound := (hc.view happs hview application.id app).mpr ⟨happ, hid⟩
  have hleft := ((hc'.view happs' (hviews' ▸ hview) application.id app).mp hfound).1
  have hgone : application.id ∉ ids (without l application.id) := by
    rw [ids_without]
    exact (hc.nodup happs).not_mem_erase
  rw [← hid] at hgone hleft
  exact hgone (List.mem_map_of_mem hleft)

theorem delete_keepsOrder_iff (hs : s.Sound) (hc : s.Consistent)
    (h : s.deleteApplication appsDir attempt application = .ok (result, s')) :
    s'.Consistent ↔
      KeepsOrder appsDir ⟨s, .deleteApplication attempt application, out, s'⟩ := by
  obtain ⟨l, hl, heffect⟩ := deleteApplication_effect h
  have hleaves : leaves (.deleteApplication attempt application) l =
      without l application.id := rfl
  have hfewer (hnodup : (ids l).Nodup) : (ids (without l application.id)).Nodup := by
    rw [ids_without]
    exact hnodup.erase _
  cases heffect with
  | refused _ hunknown hs' =>
      have hsame : without l application.id = l := by
        refine List.eraseP_of_forall_not fun app happ hid => hunknown ?_
        rw [← of_decide_eq_true hid]
        exact List.mem_map_of_mem happ
      rw [keepsOrder_of_reads hs hc rfl hl hleaves hfewer, hsame]
      · exact kept_consistent_iff hs hc hl (by rw [hs']; rfl) (by rw [hs']; rfl)
      · rintro _ _ ⟨⟩ hmem
        exact absurd hmem hunknown
  | @undeleted _ disk hmem hremove hs' =>
      by_cases hviews : s.views = []
      · rw [keepsOrder_of_reads hs hc rfl hl hleaves hfewer
          fun _ _ _ _ hsome => absurd hviews hsome]
        refine ⟨fun hc' => hc'.nodup (by rw [hs']; rfl), fun hnodup => ?_⟩
        refine consistent_of_nodup (by rw [hs']; rfl) hnodup ?_
        intro view hview
        rw [hs'] at hview
        simp [reading, hviews] at hview
      · refine iff_of_false ?_ ?_
        · exact not_consistent_of_forgotten hc (hs.apps_eq hl hviews) hmem hviews
            (by rw [hs']; rfl) (by rw [hs']; rfl)
        · intro hkeeps
          have hremoved := hkeeps.deleted attempt application l rfl hl hmem hviews
          rw [hremove] at hremoved
          cases hremoved
  | deleted hmem hremove hs' =>
      subst hs'
      rw [told_consistent_iff rfl, keepsOrder_of_reads hs hc rfl hl hleaves hfewer]
      rintro _ _ ⟨⟩ _ _
      rw [hremove]

omit [QDir] in
theorem mem_replaced_iff {before after : List Application} {app newApp : Application}
    (hnodup : (ids (before ++ app :: after)).Nodup) :
    app.id ∈ ids (before ++ newApp :: after) ↔ newApp.id = app.id := by
  rw [ids, List.map_append, List.map_cons] at hnodup ⊢
  have hothers := (List.nodup_cons.mp (List.perm_middle.nodup_iff.mp hnodup)).1
  rw [List.mem_append, not_or] at hothers
  rw [List.mem_append, List.mem_cons, or_iff_right hothers.1, or_iff_left hothers.2]
  exact eq_comm

theorem refresh_keepsOrder_iff {applicationFullId : String} (hs : s.Sound)
    (hc : s.Consistent)
    (h : s.refreshApplication appsDir attempt applicationFullId = .ok (result, s')) :
    s'.Consistent ∧ StillFound appsDir
        ⟨s, .refreshApplication attempt applicationFullId, [.result result], s'⟩ ↔
      KeepsOrder appsDir
        ⟨s, .refreshApplication attempt applicationFullId, [.result result], s'⟩ := by
  obtain ⟨l, happs⟩ := hs.nonnull
  have hnodup := hc.nodup happs
  have hlisted {app : Application} (hmem : some app ∈ s.apps) : app ∈ l := by
    simpa [happs] using hmem
  have honly {app app' : Application} (happ : app ∈ l) (happ' : app' ∈ l)
      (hid : app.id = app'.id) : app = app' := List.inj_on_of_nodup_map hnodup happ happ' hid
  cases refreshApplication_effect happs (fun hnever => (hs.unread hnever).1) h with
  | refused _ hunknown hs' =>
      refine iff_of_true ⟨hs' ▸ hc, nofun⟩ ⟨nofun, ?_, nofun⟩
      rintro attempt' app newApp ⟨⟩ hmem _
      exact absurd (List.mem_map_of_mem (hlisted hmem)) hunknown
  | @unread _ before after app hl hid hread hs' =>
      refine iff_of_true ⟨hs' ▸ hc, nofun⟩ ⟨nofun, ?_, nofun⟩
      rintro attempt' app' newApp ⟨⟩ hmem hread'
      have hsame := honly (hl ▸ List.mem_append_right _ List.mem_cons_self) (hlisted hmem) hid
      subst hsame
      cases hread.symm.trans hread'
  | @refreshed before after app newApp hl hid _ hread hs' =>
      have happ : app ∈ l := hl ▸ List.mem_append_right _ List.mem_cons_self
      have hreads : s.appsReadFirstTime = true := by
        by_contra hnever
        have hempty := (hs.unread (Bool.eq_false_of_not_eq_true hnever)).1
        rw [happs, List.map_eq_nil_iff] at hempty
        rw [hempty] at happ
        cases happ
      have hfound : (∀ failures indices t, s'.localApplications appsDir failures =
          .ok (indices, t) → applicationFullId ∈ indices) ↔ newApp.id = applicationFullId := by
        rw [← hid, ← mem_replaced_iff (hl ▸ hnodup)]
        exact found_iff (by rw [hs']; exact hreads) (by rw [hs']; rfl)
      constructor
      · rintro ⟨-, hstill⟩
        refine ⟨nofun, ?_, nofun⟩
        rintro attempt' app' newApp' ⟨⟩ hmem hread'
        have hsame := honly happ (hlisted hmem) hid
        subst hsame
        cases hread.symm.trans hread'
        exact hfound.mp (hstill _ rfl rfl)
      · intro hkeeps
        have hsame := hkeeps.refreshed attempt app newApp (by rw [hid]) (by simp [happs, happ])
          hread
        have hids : ids (before ++ newApp :: after) = ids l := by
          rw [hl, ids, ids, List.map_append, List.map_append, List.map_cons, List.map_cons,
            hsame]
        refine ⟨?_, ?_⟩
        · rw [hs', told_consistent_iff rfl, hids]
          exact hnodup
        · rintro _ ⟨⟩ -
          exact hfound.mpr (hsame.trans hid)

theorem applications_keepsOrder_iff (hs : s.Sound) (hc : s.Consistent)
    (h : s.applications appsDir attempt.firstReading = .ok s') :
    s'.Consistent ↔ KeepsOrder appsDir ⟨s, .applications attempt, out, s'⟩ := by
  obtain ⟨l, hl, rfl⟩ := hs.applications h
  have hleaves : leaves (.applications attempt) l = l := rfl
  rw [keepsOrder_of_reads hs hc rfl hl hleaves id (by rintro _ _ ⟨⟩)]
  exact kept_consistent_iff hs hc hl rfl rfl

theorem localApplications_keepsOrder_iff {indices : LocalApplications} (hs : s.Sound)
    (hc : s.Consistent)
    (h : s.localApplications appsDir attempt.firstReading = .ok (indices, s')) :
    s'.Consistent ↔ KeepsOrder appsDir ⟨s, .localApplications attempt, out, s'⟩ := by
  obtain ⟨l, hl, -, rfl⟩ := localApplications_ok h
  have hleaves : leaves (.localApplications attempt) l = l := rfl
  rw [keepsOrder_of_reads hs hc rfl hl hleaves id (by rintro _ _ ⟨⟩)]
  refine ⟨fun hc' => hc'.nodup rfl, fun hnodup => consistent_of_nodup rfl hnodup ?_⟩
  intro view hview id app
  rcases List.mem_append.mp hview with hview | hview
  · exact hc.view (hs.apps_eq hl (List.ne_nil_of_mem hview)) hview id app
  · obtain rfl := List.mem_singleton.mp hview
    exact getElem?_indexed hnodup app

theorem prune_consistent {deleted : Bool} (hs : s.Sound) (hc : s.Consistent)
    (h : s.pruneApplication appsDir attempt application = .ok (deleted, s')) :
    s'.Consistent := by
  obtain ⟨l, happs⟩ := hs.nonnull
  obtain ⟨disk, rfl | rfl⟩ := pruneApplication_ok (fun hnever => (hs.unread hnever).2) happs h
  · exact ⟨hc.nonnull, hc.distinct, hc.views⟩
  · have hdisk : ({ s with disk := disk } : LocalApplicationsStorage).apps = l.map some := happs
    exact (told_consistent_iff hdisk).mpr (hc.nodup happs)

theorem stillFound_quiet {event : StorageEvent} (hrereads : rereads event = none) :
    StillFound appsDir ⟨s, event, out, s'⟩ := by
  intro id hid
  rw [hrereads] at hid
  cases hid

theorem keepsOrder_quiet {event : StorageEvent} (hreads : reads event = none)
    (hrefresh : ∀ attempt id, event ≠ .refreshApplication attempt id) :
    KeepsOrder appsDir ⟨s, event, out, s'⟩ := by
  refine ⟨?_, ?_, ?_⟩
  · intro attempt l hlabel
    rw [hreads] at hlabel
    cases hlabel
  · intro attempt app newApp hlabel
    exact absurd hlabel (hrefresh attempt app.id)
  · rintro attempt application l rfl
    cases hreads

theorem step_keepsOrder_iff {event : StorageEvent} (hs : s.Sound) (hc : s.Consistent)
    (h : s.step appsDir event = .ok (s', out)) :
    s'.Consistent ∧ StillFound appsDir ⟨s, event, out, s'⟩ ↔
      KeepsOrder appsDir ⟨s, event, out, s'⟩ := by
  cases event with
  | applications attempt =>
      rw [and_iff_left (stillFound_quiet rfl)]
      simp only [step] at h
      split at h
      · cases h
      · rename_i t hread
        cases h
        exact applications_keepsOrder_iff hs hc hread
  | localApplications attempt =>
      rw [and_iff_left (stillFound_quiet rfl)]
      simp only [step] at h
      split at h
      · cases h
      · rename_i indices t hopened
        cases h
        exact localApplications_keepsOrder_iff hs hc hopened
  | disconnected view =>
      cases h
      refine iff_of_true ⟨⟨hc.nonnull, hc.distinct, ?_⟩, stillFound_quiet rfl⟩ ?_
      · intro left hleft
        exact hc.views left (List.mem_of_mem_eraseIdx hleft)
      · exact keepsOrder_quiet rfl (by rintro _ _ ⟨⟩)
  | updateApplication attempt application =>
      obtain ⟨result, hresult, rfl⟩ := answered_ok h
      exact update_keepsOrder_iff hs hc hresult
  | refreshApplication attempt applicationFullId =>
      obtain ⟨result, hresult, rfl⟩ := answered_ok h
      exact refresh_keepsOrder_iff hs hc hresult
  | pruneApplication attempt application =>
      simp only [step] at h
      split at h
      · cases h
      · rename_i deleted t hpruned
        cases h
        exact iff_of_true ⟨prune_consistent hs hc hpruned, stillFound_quiet rfl⟩
          (keepsOrder_quiet rfl (by rintro _ _ ⟨⟩))
  | deleteApplication attempt application =>
      rw [and_iff_left (stillFound_quiet rfl)]
      obtain ⟨result, hresult, -⟩ := answered_ok h
      exact delete_keepsOrder_iff hs hc hresult
  | addApplication attempt application =>
      rw [and_iff_left (stillFound_quiet rfl)]
      obtain ⟨result, hresult, -⟩ := answered_ok h
      exact add_keepsOrder_iff hs hc hresult
  | changed dirPath dir =>
      cases h
      exact iff_of_true ⟨⟨hc.nonnull, hc.distinct, hc.views⟩, stillFound_quiet rfl⟩
        (keepsOrder_quiet rfl (by rintro _ _ ⟨⟩))

end Events

theorem indices_consistent_iff [QDir] {appsDir : String} {disk : Disk} {history : History}
    {s : LocalApplicationsStorage} (h : Execution (machine appsDir disk) history s) :
    Execution.EachStep (fun _ st => st.post.Consistent ∧ StillFound appsDir st) history ↔
      Execution.EachStep (fun _ st => KeepsOrder appsDir st) history := by
  refine Execution.eachStep_iff_of_invariant (I := fun _ s => s.Sound ∧ s.Consistent)
    ⟨sound_start, ?_⟩ ?_ ?_ h
  · exact consistent_of_nodup (l := []) rfl List.nodup_nil nofun
  · rintro _ s s' event out ⟨hs, hc⟩ hstep
    exact step_keepsOrder_iff hs hc hstep
  · rintro _ s s' event out ⟨hs, -⟩ hstep ⟨hc, -⟩
    exact ⟨hs.step hstep, hc⟩

def downloads : List StorageEvent :=
  [.localApplications never, .addApplication never chess, .refreshApplication never "chess-1"]

def added : Application where
  appMeta := ⟨"chess", "Chess", "1", "a game", "/apps/chess-1", "/apps/chess-1/chess",
    "/apps/chess-1", false, true⟩
  state := .Valid

theorem downloads_consistent :
    ∃ history s, (machine "/apps" ∅).run downloads = .ok (history, s) ∧
      Execution.EachStep (fun _ st => st.post.Consistent ∧ StillFound "/apps" st) history := by
  refine ⟨_, _, rfl, (indices_consistent_iff (Machine.run_execution
    (show (machine "/apps" ∅).run downloads = .ok (_, _) from rfl))).mpr
      ⟨⟨nofun, ?_, nofun⟩, ⟨nofun, nofun, nofun⟩, ⟨?_, nofun, nofun⟩, trivial⟩⟩
  · intro attempt app newApp heq hmem hread
    have hattempt : attempt = never := by
      injection heq with hsame
      exact hsame.symm
    subst hattempt
    have hone : app = added := by simpa using (show some app ∈ [some added] from hmem)
    subst hone
    cases hread.symm.trans (show _ = Except.ok (some added) from rfl)
    rfl
  · rintro _ l ⟨⟩ - hread
    cases hread
    exact List.nodup_nil

/-- Its files are now those of the next version. -/
def renewed : Directory := (∅ : Directory).insert "appcfg.json"
  (configJson { chess.appMeta with version := "2" })

def renews : List StorageEvent :=
  [.addApplication never chess, .changed "/apps/chess-1" (some renewed),
    .refreshApplication never "chess-1"]

/-- The application is read again with success, and not found afterwards. -/
theorem renews_notFound :
    ∃ history s, (machine "/apps" ∅).run renews = .ok (history, s) ∧
      ¬ Execution.EachStep (fun _ st => st.post.Consistent ∧ StillFound "/apps" st) history := by
  refine ⟨_, _, rfl, ?_⟩
  rintro ⟨⟨-, hfound⟩, -⟩
  have hmem := hfound "chess-1" rfl rfl (fun _ => false) _ _ rfl
  exact absurd hmem (by decide)

end GBerry.Comms.Storage.LocalApplicationsStorage
