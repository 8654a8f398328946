import GBerry.Foundation.Refinement
import GBerry.Comms.LocalApplicationsStorage
import GBerry.Comms.Storage.Deletion

/-!
# The storage of the downloads

A download knows the storage as ids and directories.  Once the storage has read its
list, a run of it is a run on these for someone who sees what was asked for and whether
it succeeded: for each operation there is an outcome of what it reads and writes.  The
storage breaks down only where the operation does for some outcome.
-/

namespace GBerry.Comms.Storage

open GBerry.Common
open GBerry.Foundation

inductive DownloadRequest where
  | addApplication (applicationFullId : String)
  | deleteApplication (applicationFullId : String)
  | refreshApplication (applicationFullId : String)
  | updateApplication (applicationFullId : String)
  deriving DecidableEq

def DownloadRequest.applicationFullId : DownloadRequest → String
  | .addApplication id => id
  | .deleteApplication id => id
  | .refreshApplication id => id
  | .updateApplication id => id

inductive DownloadOperation where
  | addApplication (applicationFullId : String) (created : Bool) (writing : Writing)
  | deleteApplication (applicationFullId : String)
  | refreshApplication (applicationFullId : String) (read : Rereading)
  | updateApplication (applicationFullId : String) (writing : Writing)

def DownloadOperation.request : DownloadOperation → DownloadRequest
  | .addApplication id _ _ => .addApplication id
  | .deleteApplication id => .deleteApplication id
  | .refreshApplication id _ => .refreshApplication id
  | .updateApplication id _ => .updateApplication id

def operate (a : Comms.LocalApplicationsStorage) : DownloadOperation →
    Except StorageFault (Comms.LocalApplicationsStorage × List (DownloadRequest × Bool))
  | .addApplication id created writing =>
      match a.addApplication id created writing with
      | .error fault => .error fault
      | .ok (added, a) => .ok (a, [(.addApplication id, added)])
  -- a download asks only for the deletion of what is listed
  | .deleteApplication id =>
      if id ∈ a.apps then .ok (a.deleteApplication id, [(.deleteApplication id, true)])
      else .ok (a, [(.deleteApplication id, false)])
  | .refreshApplication id read =>
      match a.refreshApplication id read with
      | .error fault => .error fault
      | .ok refreshed => .ok (refreshed.getD a, [(.refreshApplication id, refreshed.isSome)])
  | .updateApplication id writing =>
      match a.updateApplication id writing with
      | .error fault => .error fault
      | .ok updated => .ok (updated.getD a, [(.updateApplication id, updated.isSome)])

def downloadStorage (a : Comms.LocalApplicationsStorage) :
    Machine Comms.LocalApplicationsStorage DownloadOperation (DownloadRequest × Bool)
      StorageFault where
  init := a
  step := operate

/-- The other events change nothing that a download knows of. -/
def requested : StorageEvent → Option DownloadRequest
  | .addApplication _ application => some (.addApplication application.id)
  | .deleteApplication _ application => some (.deleteApplication application.id)
  | .refreshApplication _ id => some (.refreshApplication id)
  | .updateApplication _ application => some (.updateApplication application.id)
  | _ => none

def succeeds : StorageAnswer → Option Bool
  | .result result => some result.isNone
  | .pruned _ => none

def seen (event : StorageEvent) (out : List StorageAnswer) : List (DownloadRequest × Bool) :=
  (requested event).toList.flatMap fun request =>
    (out.filterMap succeeds).map fun ok => (request, ok)

theorem perm_replace_of_mem {l : List String} {a : String} (b : String) (h : a ∈ l) :
    (l.replace a b).Perm (b :: l.erase a) := by
  induction l with
  | nil => cases h
  | cons c l ih =>
      by_cases hc : c = a
      · subst hc
        rw [List.replace_cons_self, List.erase_cons_head]
      · have hmem := (List.mem_cons.mp h).resolve_left (Ne.symm hc)
        have hreplace : (c :: l).replace a b = c :: l.replace a b := by
          rw [List.replace_cons, beq_false_of_ne (Ne.symm hc)]
        rw [hreplace, List.erase_cons_tail (by simpa using hc)]
        exact ((ih hmem).cons c).trans (List.Perm.swap b c _)

namespace LocalApplicationsStorage

section Representation

variable [QDir] {appsDir : String} {names : Set String} {failures : Failures}
  {attempt : Attempt} {s s' : LocalApplicationsStorage} {a a₀ : Comms.LocalApplicationsStorage}
  {l l' : List Application} {application : Application} {result : Result StorageError}
  {fault : Fault}

/--
What a download knows of the storage; the order of the list does not matter to it.  The
ids in `names` are those that may become the names of directories.
-/
structure Represents (appsDir : String) (names : Set String) (s : LocalApplicationsStorage)
    (a : Comms.LocalApplicationsStorage) : Prop where
  read : s.appsReadFirstTime = true
  apps : ∃ l, s.apps = l.map some ∧ (ids l).Perm a.apps
  directories : ∀ id ∈ names, id ∈ a.directories ↔ QDir.filePath appsDir id ∈ s.disk

/-- The directories of the applications are left to the storage, which can delete them. -/
structure KeepsDirectories (appsDir : String) (names : Set String)
    (s : LocalApplicationsStorage) (event : StorageEvent) : Prop where
  named : ∀ request ∈ requested event, request.applicationFullId ∈ names
  deleted : ∀ attempt application, event = .deleteApplication attempt application →
    (removeRecursively attempt.failures (QDir.filePath appsDir application.id) s.disk).1 = true
  updated : ∀ attempt application, event = .updateApplication attempt application →
    ∀ app, some app ∈ s.apps → app.appMeta.applicationDirPath ∈ s.disk
  changed : ∀ dirPath dir, event = .changed dirPath dir → (dir.isSome ↔ dirPath ∈ s.disk)

open Classical in
noncomputable def namesOf (appsDir : String) (names : Set String) (disk : Disk) : List String :=
  disk.keys.filterMap fun dirPath =>
    if hname : ∃ id ∈ names, QDir.filePath appsDir id = dirPath then some hname.choose else none

theorem mem_namesOf {disk : Disk} {id : String}
    (hinj : Set.InjOn (QDir.filePath appsDir) names) (hid : id ∈ names) :
    id ∈ namesOf appsDir names disk ↔ QDir.filePath appsDir id ∈ disk := by
  rw [namesOf, List.mem_filterMap]
  constructor
  · rintro ⟨dirPath, hkey, hchosen⟩
    split at hchosen
    · rename_i hname
      obtain ⟨-, hpath⟩ := hname.choose_spec
      rw [← Option.some.inj hchosen, hpath]
      exact Std.ExtTreeMap.mem_keys.mp hkey
    · cases hchosen
  · intro hdisk
    have hname : ∃ id' ∈ names, QDir.filePath appsDir id' = QDir.filePath appsDir id :=
      ⟨id, hid, rfl⟩
    obtain ⟨hnames, hpath⟩ := hname.choose_spec
    refine ⟨_, Std.ExtTreeMap.mem_keys.mpr hdisk, ?_⟩
    rw [dif_pos hname, hinj hnames hid hpath]

/-- Whatever was done before, a storage that has read its list is one for the downloads. -/
theorem exists_represents {disk : Disk} {history : History}
    (hinj : Set.InjOn (QDir.filePath appsDir) names)
    (h : Execution (machine appsDir disk) history s) (hread : s.appsReadFirstTime = true) :
    ∃ a, s.Represents appsDir names a := by
  obtain ⟨l, happs⟩ := (sound_of_execution h).nonnull
  exact ⟨⟨ids l, namesOf appsDir names s.disk⟩, hread, ⟨l, happs, List.Perm.refl _⟩,
    fun id hid => mem_namesOf hinj hid⟩

theorem Represents.perm (hr : s.Represents appsDir names a)
    (hl : s.Lists appsDir failures l) : (ids l).Perm a.apps := by
  obtain ⟨l', happs, hperm⟩ := hr.apps
  rwa [hl.unique ((lists_of_read hr.read).mpr happs)]

theorem Represents.kept (hr : s.Represents appsDir names a) (hperm : (ids l).Perm a.apps)
    (hread : s'.appsReadFirstTime = true) (happs : s'.apps = l.map some)
    (hdisk : ∀ path, path ∈ s'.disk ↔ path ∈ s.disk) : s'.Represents appsDir names a where
  read := hread
  apps := ⟨l, happs, hperm⟩
  directories id hid := (hr.directories id hid).trans (hdisk _).symm

theorem addApplication_represents (hinj : Set.InjOn (QDir.filePath appsDir) names)
    (hr : s.Represents appsDir names a) (hname : application.id ∈ names)
    (h : s.addApplication appsDir attempt application = .ok (result, s')) :
    ∃ created writing a',
      a.addApplication application.id created writing = .ok (result.isNone, a') ∧
        s'.Represents appsDir names a' := by
  obtain ⟨l, hl, heffect⟩ := addApplication_effect h
  have hmem : application.id ∈ ids l ↔ application.id ∈ a.apps := (hr.perm hl).mem_iff
  have hdirectories {disk : Disk}
      (hdisk : ∀ path, path ∈ disk ↔
        path = QDir.filePath appsDir application.id ∨ path ∈ s.disk) (id : String)
      (hid : id ∈ names) :
      id ∈ a.directories ++ [application.id] ↔ QDir.filePath appsDir id ∈ disk := by
    rw [List.mem_append, List.mem_singleton, hdisk, hr.directories id hid, or_comm]
    refine or_congr_left ⟨fun hsame => hsame ▸ rfl, fun hpath => hinj hid hname hpath⟩
  cases heffect with
  | refused _ hrefused hs' =>
      refine ⟨true, .written, a, ?_, hr.kept (hr.perm hl) (by rw [hs']; rfl)
        (by rw [hs']; rfl) (by rw [hs']; exact fun _ => Iff.rfl)⟩
      rw [hmem, ← hr.directories _ hname] at hrefused
      unfold Comms.LocalApplicationsStorage.addApplication
      split
      · rfl
      · rename_i hnew
        rw [if_pos (hrefused.resolve_left hnew)]
        rfl
  | uncreated _ hnew hfree _ hs' =>
      refine ⟨false, .written, a, ?_, hr.kept (hr.perm hl) (by rw [hs']; rfl)
        (by rw [hs']; rfl) (by rw [hs']; exact fun _ => Iff.rfl)⟩
      rw [hmem] at hnew
      rw [← hr.directories _ hname] at hfree
      simp [Comms.LocalApplicationsStorage.addApplication, hnew, hfree]
  | unwritten _ disk hnew hfree _ _ hdisk hs' =>
      rw [hmem] at hnew
      rw [← hr.directories _ hname] at hfree
      refine ⟨true, .failed, ⟨a.apps, a.directories ++ [application.id]⟩, ?_, ?_⟩
      · simp [Comms.LocalApplicationsStorage.addApplication, hnew, hfree]
      · subst hs'
        exact ⟨rfl, ⟨l, rfl, hr.perm hl⟩, hdirectories hdisk⟩
  | @added app disk hnew hfree _ _ hdisk hid hs' =>
      rw [hmem] at hnew
      rw [← hr.directories _ hname] at hfree
      refine ⟨true, .written, ⟨a.apps ++ [application.id], a.directories ++ [application.id]⟩,
        ?_, ?_⟩
      · simp [Comms.LocalApplicationsStorage.addApplication, hnew, hfree]
      · subst hs'
        refine ⟨rfl, ⟨l ++ [app], rfl, ?_⟩, hdirectories hdisk⟩
        rw [ids, List.map_append, ← hid]
        exact (hr.perm hl).append_right _

theorem deleteApplication_represents (hinj : Set.InjOn (QDir.filePath appsDir) names)
    (hr : s.Represents appsDir names a) (hname : application.id ∈ names)
    (hremoves : (removeRecursively attempt.failures (QDir.filePath appsDir application.id)
      s.disk).1 = true)
    (h : s.deleteApplication appsDir attempt application = .ok (result, s')) :
    (result.isNone ↔ application.id ∈ a.apps) ∧
      s'.Represents appsDir names
        (if result.isNone then a.deleteApplication application.id else a) := by
  obtain ⟨l, hl, heffect⟩ := deleteApplication_effect h
  have hmem : application.id ∈ ids l ↔ application.id ∈ a.apps := (hr.perm hl).mem_iff
  cases heffect with
  | refused _ hunknown hs' =>
      rw [hmem] at hunknown
      refine ⟨by simp [hunknown], hr.kept (hr.perm hl) (by rw [hs']; rfl) (by rw [hs']; rfl)
        (by rw [hs']; exact fun _ => Iff.rfl)⟩
  | undeleted _ _ hkept _ =>
      rw [hkept] at hremoves
      cases hremoves
  | deleted hknown _ hs' =>
      have hdisk := deleted_disk h
      have hgone (id : String) (hid : id ∈ names) :
          id ∈ (a.deleteApplication application.id).directories ↔
            QDir.filePath appsDir id ∈ s'.disk := by
        rw [QMap.mem_iff, hdisk, Comms.LocalApplicationsStorage.deleteApplication,
          List.mem_filter, hr.directories id hid, QMap.mem_iff]
        by_cases hsame : id = application.id
        · simp [hsame]
        · have hpath : QDir.filePath appsDir id ≠ QDir.filePath appsDir application.id :=
            fun heq => hsame (hinj hid hname heq)
          simp [hsame, hpath]
      refine ⟨by simp [← hmem, hknown], by rw [hs']; rfl,
        ⟨without l application.id, by rw [hs']; rfl, ?_⟩, hgone⟩
      rw [ids_without]
      exact (hr.perm hl).erase _

theorem refreshApplication_represents {applicationFullId : String}
    (hr : s.Represents appsDir names a)
    (h : s.refreshApplication appsDir attempt applicationFullId = .ok (result, s')) :
    ∃ read refreshed, a.refreshApplication applicationFullId read = .ok refreshed ∧
      refreshed.isSome = result.isNone ∧ s'.Represents appsDir names (refreshed.getD a) := by
  obtain ⟨l, happs, hperm⟩ := hr.apps
  have hunread : s.appsReadFirstTime = false → s.apps = [] := by simp [hr.read]
  cases refreshApplication_effect happs hunread h with
  | refused _ hunknown hs' =>
      rw [hperm.mem_iff] at hunknown
      refine ⟨.nothing, none, ?_, rfl, by rw [hs']; exact hr⟩
      simp [Comms.LocalApplicationsStorage.refreshApplication, hunknown]
  | unread _ hl hid _ hs' =>
      refine ⟨.nothing, none, ?_, rfl, by rw [hs']; exact hr⟩
      simp [Comms.LocalApplicationsStorage.refreshApplication]
  | @refreshed before after app newApp hl hid hbefore _ hs' =>
      have hmem : applicationFullId ∈ ids l := by
        rw [hl, ← hid]
        exact List.mem_map_of_mem (List.mem_append_right _ List.mem_cons_self)
      have hids : (ids (before ++ newApp :: after)).Perm
          (newApp.id :: (ids l).erase applicationFullId) := by
        rw [ids] at hbefore
        rw [hl, ids, ids, List.map_append, List.map_append, List.map_cons, List.map_cons, hid,
          List.erase_append_right _ hbefore, List.erase_cons_head]
        exact List.perm_middle
      have hknown := hperm.mem_iff.mp hmem
      refine ⟨.application newApp.id,
        some { a with apps := a.apps.replace applicationFullId newApp.id }, ?_, rfl, ?_⟩
      · simp [Comms.LocalApplicationsStorage.refreshApplication, hknown]
      · subst hs'
        refine ⟨hr.read, ⟨before ++ newApp :: after, rfl, ?_⟩, hr.directories⟩
        calc
          (ids (before ++ newApp :: after)).Perm
              (newApp.id :: (ids l).erase applicationFullId) := hids
          List.Perm _ (newApp.id :: a.apps.erase applicationFullId) :=
            (hperm.erase _).cons _
          List.Perm _ (a.apps.replace applicationFullId newApp.id) :=
            (perm_replace_of_mem newApp.id hknown).symm

theorem updateApplication_represents (hr : s.Represents appsDir names a)
    (hstored : ∀ app, some app ∈ s.apps → app.appMeta.applicationDirPath ∈ s.disk)
    (h : s.updateApplication appsDir attempt application = .ok (result, s')) :
    ∃ writing updated, a.updateApplication application.id writing = .ok updated ∧
      updated.isSome = result.isNone ∧ s'.Represents appsDir names (updated.getD a) := by
  obtain ⟨l, hl, heffect⟩ := updateApplication_effect h
  have hperm := hr.perm hl
  have happs := (lists_of_read hr.read).mp hl
  have hsame {disk : Disk} (hdisk : SameDirectories l s.disk disk) :
      ∀ path, path ∈ disk ↔ path ∈ s.disk :=
    hdisk fun app happ => hstored app (by simp [happs, happ])
  have hupdates (hknown : application.id ∈ a.apps) :
      a.updateApplication application.id .written =
        .ok (some { a with apps := a.apps.erase application.id ++ [application.id] }) :=
    if_pos hknown
  cases heffect with
  | refused _ hunknown hs' =>
      rw [hperm.mem_iff] at hunknown
      refine ⟨.written, none, if_neg hunknown, rfl, hr.kept hperm (by rw [hs']; rfl)
        (by rw [hs']; rfl) (by rw [hs']; exact fun _ => Iff.rfl)⟩
  | unwritten _ disk hmem hdisk hs' =>
      refine ⟨.failed, none, if_pos (hperm.mem_iff.mp hmem), rfl, hr.kept hperm
        (by rw [hs']; rfl) (by rw [hs']; rfl) (by rw [hs']; exact hsame hdisk)⟩
  | unread disk hmem hdisk hs' =>
      have hknown := hperm.mem_iff.mp hmem
      refine ⟨.written, _, hupdates hknown, rfl, ?_⟩
      subst hs'
      refine ⟨rfl, ⟨l, rfl, ?_⟩,
        fun id hid => (hr.directories id hid).trans (hsame hdisk _).symm⟩
      exact hperm.trans ((List.perm_cons_erase hknown).trans
        (List.perm_append_singleton _ _).symm)
  | @updated app disk hmem hdisk hid hs' =>
      refine ⟨.written, _, hupdates (hperm.mem_iff.mp hmem), rfl, ?_⟩
      subst hs'
      refine ⟨rfl, ⟨without l application.id ++ [app], rfl, ?_⟩,
        fun id hid => (hr.directories id hid).trans (hsame hdisk _).symm⟩
      rw [ids, List.map_append, List.map_cons, List.map_nil, hid]
      refine List.Perm.append_right _ ?_
      have hleft := hperm.erase application.id
      rwa [← ids_without] at hleft

section Faults

theorem withLocalApplications_error_iff (hread : s.appsReadFirstTime = true)
    (happs : s.apps = l.map some)
    {operation : LocalApplications → LocalApplicationsStorage →
      Except Fault (Result StorageError × LocalApplicationsStorage)} :
    s.withLocalApplications appsDir failures operation = .error fault ↔
      operation (indexed l) { s with views := s.views ++ [indexed l] } = .error fault := by
  have happlications : s.applications appsDir failures = .ok s := if_pos hread
  have hindex : index s.apps ∅ = .ok (indexed l) := by
    rw [happs, index_map_some]
    rfl
  simp only [withLocalApplications, localApplications, happlications, hindex]
  split
  · rename_i hoperation
    rw [hoperation]
  · rename_i hoperation
    simp [hoperation]

theorem applicationsUpdated_runs (hread : s.appsReadFirstTime = true)
    (happs : s.apps = l.map some) : s.applicationsUpdated appsDir failures ≠ .error fault := by
  unfold applicationsUpdated applications
  cases s.views with
  | nil => simp
  | cons view views => simp [hread, happs, index_map_some]

theorem succeeded_runs (hread : s.appsReadFirstTime = true) (happs : s.apps = l.map some) :
    s.succeeded appsDir failures ≠ .error fault := by
  unfold succeeded
  split
  · rename_i hfails
    exact absurd hfails (applicationsUpdated_runs hread happs)
  · nofun

theorem pruneApplication_runs (hread : s.appsReadFirstTime = true)
    (happs : s.apps = l.map some) :
    s.pruneApplication appsDir attempt application ≠ .error fault := by
  unfold pruneApplication
  simp only
  split
  · nofun
  split
  · split
    · rename_i hfails
      exact absurd hfails (applicationsUpdated_runs (by exact hread) (by exact happs))
    · nofun
  · nofun

theorem addApplication_fault (hr : s.Represents appsDir names a)
    (hname : application.id ∈ names)
    (h : s.addApplication appsDir attempt application = .error fault) :
    a.addApplication application.id true .lost = .error .nullApplication := by
  obtain ⟨l, happs, hperm⟩ := hr.apps
  rw [addApplication, withLocalApplications_error_iff hr.read happs] at h
  simp only [mem_indexed] at h
  rw [Comms.LocalApplicationsStorage.addApplication_error_iff, ← hperm.mem_iff,
    hr.directories _ hname]
  by_cases hknown : application.id ∈ ids l
  · simp [hknown] at h
  by_cases hexists : QDir.filePath appsDir application.id ∈ s.disk
  · simp [hknown, hexists] at h
  · exact ⟨hknown, hexists, rfl, rfl⟩

theorem updateApplication_fault (hr : s.Represents appsDir names a)
    (h : s.updateApplication appsDir attempt application = .error fault) :
    a.updateApplication application.id .lost = .error .nullApplication := by
  obtain ⟨l, happs, hperm⟩ := hr.apps
  rw [updateApplication, withLocalApplications_error_iff hr.read happs] at h
  have hknown : application.id ∈ ids l := by
    by_contra hunknown
    rw [← mem_indexed, QMap.notMem_iff] at hunknown
    simp [hunknown] at h
  exact if_pos (hperm.mem_iff.mp hknown)

theorem refreshApplication_fault {applicationFullId : String}
    (hr : s.Represents appsDir names a)
    (h : s.refreshApplication appsDir attempt applicationFullId = .error fault) :
    a.refreshApplication applicationFullId .broken = .error .nullApplication := by
  obtain ⟨l, happs, hperm⟩ := hr.apps
  have hknown : applicationFullId ∈ ids l := by
    by_contra hunknown
    rw [refreshApplication, happs, findEntry_of_notMem hunknown] at h
    cases h
  exact if_pos (hperm.mem_iff.mp hknown)

theorem deleteApplication_runs (hr : s.Represents appsDir names a) :
    s.deleteApplication appsDir attempt application ≠ .error fault := by
  obtain ⟨l, happs, -⟩ := hr.apps
  rw [deleteApplication, Ne, withLocalApplications_error_iff hr.read happs]
  simp only [happs, removeEntry_map_some]
  split
  · nofun
  split
  · nofun
  · exact succeeded_runs (by exact hr.read) rfl

end Faults

section Runs

variable {event : StorageEvent} {out : List StorageAnswer}

theorem pruneApplication_directories {deleted : Bool} (happs : s.apps = l.map some)
    (hread : s.appsReadFirstTime = true)
    (h : s.pruneApplication appsDir attempt application = .ok (deleted, s')) (path : String) :
    path ∈ s'.disk ↔ path ∈ s.disk := by
  unfold pruneApplication at h
  simp only at h
  split at h
  · cases h
    exact Iff.rfl
  split at h
  · rename_i hprunes
    split at h
    · cases h
    rename_i t hupdated
    cases h
    have hdir : application.appMeta.applicationDirPath ∈ s.disk := by
      by_contra hnone
      rw [QMap.notMem_iff] at hnone
      have hmem := (mem_entryList.mp hprunes.1).1
      rw [hnone] at hmem
      exact Std.ExtTreeMap.not_mem_empty (Std.ExtTreeMap.mem_keys.mp hmem)
    rw [applicationsUpdated_ok (.inr (by exact hread)) (by exact happs) hupdated]
    exact (QMap.mem_insert_iff _ _ _ _).trans (or_iff_right_of_imp fun hpath => hpath ▸ hdir)
  · cases h
    exact Iff.rfl

theorem Represents.quiet (hr : s.Represents appsDir names a) (happs : s'.apps = s.apps)
    (hread : s'.appsReadFirstTime = s.appsReadFirstTime)
    (hdisk : ∀ path, path ∈ s'.disk ↔ path ∈ s.disk) : s'.Represents appsDir names a := by
  obtain ⟨l, hl, hperm⟩ := hr.apps
  exact hr.kept hperm (hread.trans hr.read) (happs.trans hl) hdisk

theorem Represents.unrequested (hr : s.Represents appsDir names a)
    (hkeeps : KeepsDirectories appsDir names s event)
    (hevent : requested event = none) (h : s.step appsDir event = .ok (s', out)) :
    s'.Represents appsDir names a := by
  obtain ⟨l, happs, -⟩ := hr.apps
  have hread (failures : Failures) : s.applications appsDir failures = .ok s := if_pos hr.read
  cases event with
  | applications attempt =>
      simp only [step, hread] at h
      cases h
      exact hr
  | localApplications attempt =>
      simp only [step, localApplications, hread, happs, index_map_some] at h
      cases h
      exact hr.quiet happs.symm rfl fun _ => Iff.rfl
  | disconnected view =>
      cases h
      exact hr.quiet rfl rfl fun _ => Iff.rfl
  | pruneApplication attempt application =>
      simp only [step] at h
      split at h
      · cases h
      · rename_i deleted t hpruned
        cases h
        have hdisk := pruneApplication_directories happs hr.read hpruned
        obtain ⟨disk, rfl | rfl⟩ :=
          pruneApplication_ok (fun hnever => absurd hr.read (by simp [hnever])) happs hpruned
        · exact hr.quiet rfl rfl hdisk
        · exact hr.quiet rfl rfl hdisk
  | changed dirPath dir =>
      have hdir := hkeeps.changed dirPath dir rfl
      cases h
      refine hr.quiet rfl rfl fun path => ?_
      cases dir with
      | some dir =>
          exact (QMap.mem_insert_iff _ _ _ _).trans
            (or_iff_right_of_imp fun hpath => hpath ▸ hdir.mp rfl)
      | none =>
          have hnone : dirPath ∉ s.disk := fun hmem => Bool.false_ne_true (hdir.mpr hmem)
          exact (QMap.mem_erase_iff _ _ _).trans
            (and_iff_right_of_imp fun hmem hpath => hnone (hpath ▸ hmem))
  | _ => cases hevent

/-- A step of the storage is at most one operation of a download. -/
theorem Represents.step (hinj : Set.InjOn (QDir.filePath appsDir) names)
    (hr : s.Represents appsDir names a)
    (hkeeps : KeepsDirectories appsDir names s event)
    (h : s.step appsDir event = .ok (s', out)) :
    ∃ a', (downloadStorage a₀).Runs a (seen event out) a' ∧
      s'.Represents appsDir names a' := by
  have hruns {operation : DownloadOperation} {a' : Comms.LocalApplicationsStorage}
      {ok : Bool} (hoperates : operate a operation = .ok (a', [(operation.request, ok)])) :
      (downloadStorage a₀).Runs a [(operation.request, ok)] a' :=
    .single (l := operation) hoperates
  cases event with
  | addApplication attempt application =>
      obtain ⟨result, hresult, rfl⟩ := answered_ok h
      obtain ⟨created, writing, a', hadds, hr'⟩ :=
        addApplication_represents hinj hr (hkeeps.named _ rfl) hresult
      have hoperates : operate a (.addApplication application.id created writing) =
          .ok (a', [(.addApplication application.id, result.isNone)]) := by
        rw [operate, hadds]
      exact ⟨a', hruns hoperates, hr'⟩
  | deleteApplication attempt application =>
      obtain ⟨result, hresult, rfl⟩ := answered_ok h
      obtain ⟨hlisted, hr'⟩ := deleteApplication_represents hinj hr (hkeeps.named _ rfl)
        (hkeeps.deleted attempt application rfl) hresult
      have hoperates : operate a (.deleteApplication application.id) =
          .ok (if result.isNone then a.deleteApplication application.id else a,
            [(.deleteApplication application.id, result.isNone)]) := by
        cases hnone : result.isNone with
        | true => exact if_pos (hlisted.mp hnone)
        | false =>
            exact if_neg fun hmem => Bool.false_ne_true (hnone.symm.trans (hlisted.mpr hmem))
      exact ⟨_, hruns hoperates, hr'⟩
  | refreshApplication attempt applicationFullId =>
      obtain ⟨result, hresult, rfl⟩ := answered_ok h
      obtain ⟨read, refreshed, hrefreshes, hok, hr'⟩ := refreshApplication_represents hr hresult
      have hoperates : operate a (.refreshApplication applicationFullId read) =
          .ok (refreshed.getD a, [(.refreshApplication applicationFullId, result.isNone)]) := by
        simp only [operate, hrefreshes, hok]
      exact ⟨_, hruns hoperates, hr'⟩
  | updateApplication attempt application =>
      obtain ⟨result, hresult, rfl⟩ := answered_ok h
      obtain ⟨writing, updated, hupdates, hok, hr'⟩ :=
        updateApplication_represents hr (hkeeps.updated attempt application rfl) hresult
      have hoperates : operate a (.updateApplication application.id writing) =
          .ok (updated.getD a, [(.updateApplication application.id, result.isNone)]) := by
        simp only [operate, hupdates, hok]
      exact ⟨_, hruns hoperates, hr'⟩
  | _ => exact ⟨a, .refl a, hr.unrequested hkeeps rfl h⟩

omit [QDir] in
theorem answered_error {answer : Except Fault (Result StorageError × LocalApplicationsStorage)}
    (h : answered answer = .error fault) : answer = .error fault := by
  unfold answered at h
  split at h
  · cases h
    rfl
  · cases h

/-- The storage breaks down in an operation of a download, and for an outcome of it. -/
theorem Represents.breaksDown (hr : s.Represents appsDir names a)
    (hnamed : ∀ request ∈ requested event, request.applicationFullId ∈ names)
    (h : s.step appsDir event = .error fault) :
    ∃ operation, requested event = some (DownloadOperation.request operation) ∧
      operate a operation = .error .nullApplication := by
  obtain ⟨l, happs, -⟩ := hr.apps
  have hread (failures : Failures) : s.applications appsDir failures = .ok s := if_pos hr.read
  cases event with
  | addApplication attempt application =>
      have hfault := addApplication_fault hr (hnamed _ rfl) (answered_error h)
      exact ⟨.addApplication application.id true .lost, rfl, by rw [operate, hfault]⟩
  | deleteApplication attempt application =>
      exact absurd (answered_error h) (deleteApplication_runs hr)
  | refreshApplication attempt applicationFullId =>
      have hfault := refreshApplication_fault hr (answered_error h)
      exact ⟨.refreshApplication applicationFullId .broken, rfl, by rw [operate, hfault]⟩
  | updateApplication attempt application =>
      have hfault := updateApplication_fault hr (answered_error h)
      exact ⟨.updateApplication application.id .lost, rfl, by rw [operate, hfault]⟩
  | applications attempt =>
      simp only [LocalApplicationsStorage.step, hread, reduceCtorEq] at h
  | localApplications attempt =>
      simp only [LocalApplicationsStorage.step, localApplications, hread, happs, index_map_some,
        reduceCtorEq] at h
  | disconnected view => cases h
  | changed dirPath dir => cases h
  | pruneApplication attempt application =>
      simp only [LocalApplicationsStorage.step] at h
      split at h
      · rename_i hfails
        exact absurd hfails (pruneApplication_runs hr.read happs)
      · cases h

/--
A run of the storage that has read its list is a run on ids and directories, with the
same answers to what downloads ask for.  It breaks down only where that one may.
-/
theorem storage_refines {s₀ : LocalApplicationsStorage} {history : History}
    (hinj : Set.InjOn (QDir.filePath appsDir) names)
    (hinit : s₀.Represents appsDir names a₀)
    (h : Execution ⟨s₀, LocalApplicationsStorage.step appsDir⟩ history s)
    (hkeeps : ∀ st ∈ history, KeepsDirectories appsDir names st.pre st.label) :
    ∃ history' a, Execution (downloadStorage a₀) history' a ∧
      s.Represents appsDir names a ∧
      outputs history' = outputs (history.map (Step.observe seen)) ∧
      ∀ event fault, (∀ request ∈ requested event, request.applicationFullId ∈ names) →
        s.step appsDir event = .error fault →
        ∃ operation, requested event = some (DownloadOperation.request operation) ∧
          operate a operation = .error .nullApplication := by
  have hobserved : ∀ st ∈ history.map (Step.observe seen),
      KeepsDirectories appsDir names st.pre st.label := List.forall_mem_map.mpr hkeeps
  have hseen : Execution
      (Machine.observe seen ⟨s₀, LocalApplicationsStorage.step appsDir⟩)
      (history.map (Step.observe seen)) s := h.observe
  obtain ⟨history', a, hexec, hr, hout⟩ :=
    hseen.simulate (N := downloadStorage a₀)
      (R := fun s a => s.Represents appsDir names a)
      (C := fun st => KeepsDirectories appsDir names st.pre st.label) hinit
      (by
        intro s s' event out a hr hstep hkeeps
        obtain ⟨out', hstep', rfl⟩ := Machine.observe_ok hstep
        exact hr.step hinj hkeeps hstep')
      hobserved
  exact ⟨history', a, hexec, hr, hout, fun event fault hnamed hfault =>
    hr.breaksDown hnamed hfault⟩

end Runs

end Representation

def opened : LocalApplicationsStorage := { start ∅ with appsReadFirstTime := true }

def installs : List StorageEvent :=
  [.addApplication never chess, .localApplications never, .deleteApplication never chess,
    .addApplication unwritable chess, .addApplication never chess]

theorem opened_represents : opened.Represents "/apps" Path.entryNames ⟨[], []⟩ where
  read := rfl
  apps := ⟨[], rfl, List.Perm.nil⟩
  directories _ _ := by simp [opened, start]

theorem removeRecursively_never (dirPath : String) (disk : Disk) :
    (removeRecursively never.failures dirPath disk).1 = true := by
  unfold removeRecursively
  cases disk[dirPath]? with
  | none => rfl
  | some dir =>
      have hempty : dir.filter (fun _ _ => false) = ∅ :=
        Std.ExtTreeMap.filter_eq_empty_iff.mpr fun _ _ => rfl
      simp [never, hempty]

theorem installs_keepsDirectories {event : StorageEvent} (h : event ∈ installs)
    (s : LocalApplicationsStorage) : KeepsDirectories "/apps" Path.entryNames s event where
  named request hrequest := by
    have hname : ∀ event ∈ installs, ∀ request ∈ requested event,
        request.applicationFullId = "chess-1" := by
      decide
    rw [hname event h request hrequest]
    exact ⟨by decide, by decide⟩
  deleted attempt application heq := by
    subst heq
    obtain ⟨rfl, -⟩ : attempt = never ∧ application = chess := by simpa [installs] using h
    exact removeRecursively_never _ _
  updated attempt application heq := by
    subst heq
    simp [installs] at h
  changed dirPath dir heq := by
    subst heq
    simp [installs] at h

theorem storage_refines_installs :
    ∃ history s, Machine.run ⟨opened, step "/apps"⟩ installs = .ok (history, s) ∧
      ∃ history' a, Execution (downloadStorage ⟨[], []⟩) history' a ∧
        s.Represents "/apps" Path.entryNames a ∧
        outputs history' =
          [(.addApplication "chess-1", true), (.deleteApplication "chess-1", true),
            (.addApplication "chess-1", false), (.addApplication "chess-1", false)] := by
  have hinstalls : ∃ history s,
      Machine.run ⟨opened, step "/apps"⟩ installs = .ok (history, s) ∧
        decide (outputs (history.map (Step.observe seen)) =
          [(.addApplication "chess-1", true), (.deleteApplication "chess-1", true),
            (.addApplication "chess-1", false), (.addApplication "chess-1", false)]) = true :=
    Machine.exists_run (by decide +kernel)
  obtain ⟨history, s, hrun, hseen⟩ := hinstalls
  obtain ⟨history', a, hexec, hr, hout, -⟩ := storage_refines (Path.filePath_injOn "/apps")
    opened_represents (Machine.run_execution hrun) (by
      intro st hst
      have hlabel := List.mem_map_of_mem (f := Step.label) hst
      rw [Machine.run_labels hrun, List.mem_reverse] at hlabel
      exact installs_keepsDirectories hlabel st.pre)
  exact ⟨history, s, hrun, history', a, hexec, hr, hout.trans (of_decide_eq_true hseen)⟩

end LocalApplicationsStorage

end GBerry.Comms.Storage
