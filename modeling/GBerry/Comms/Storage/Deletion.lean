import GBerry.Comms.Storage.Failures

/-!
# What is left after a deletion

Applications are found by what their directories hold, and deleted by the name that
`addApplication` gives to a directory.  A deleted application is gone for a new storage
unless a directory with another name describes it too.
-/

namespace GBerry.Comms.Storage

open GBerry.Common

section Directories

variable [QDir] {appsDir dirPath : String} {failures : Failures} {disk disk' : Disk}
  {dirs : List String} {apps : List Application} {app : Application}

theorem mem_readDirectories (h : readDirectories failures disk dirs = .ok apps) :
    app ∈ apps ↔ ∃ dirPath ∈ dirs,
      readApplication failures dirPath ((disk[dirPath]?).getD ∅) = .ok (some app) := by
  induction dirs generalizing apps with
  | nil =>
      cases h
      simp
  | cons dirPath dirs ih =>
      simp only [readDirectories] at h
      split at h
      · cases h
      rename_i entry hread
      split at h
      · cases h
      rename_i rest hrest
      cases h
      simp only [List.mem_append, ih hrest, List.mem_cons, or_and_right, exists_or,
        exists_eq_left, hread, Except.ok.injEq, Option.mem_toList]

theorem mem_readApplications (h : readApplications appsDir failures disk = .ok apps) :
    app ∈ apps ↔ ∃ dirPath dir, disk[dirPath]? = some dir ∧
      QDir.isEntry appsDir dirPath = true ∧
      readApplication failures dirPath dir = .ok (some app) := by
  rw [mem_readDirectories h]
  constructor
  · rintro ⟨dirPath, hmem, hread⟩
    obtain ⟨hkey, hentry⟩ := mem_entryList.mp hmem
    obtain ⟨dir, hdir⟩ := (QMap.mem_iff _ _).mp (Std.ExtTreeMap.mem_keys.mp hkey)
    rw [hdir] at hread
    exact ⟨dirPath, dir, hdir, hentry, hread⟩
  · rintro ⟨dirPath, dir, hdir, hentry, hread⟩
    have hkey := Std.ExtTreeMap.mem_keys.mpr (QMap.mem_of_getElem? hdir)
    refine ⟨dirPath, mem_entryList.mpr ⟨hkey, hentry⟩, ?_⟩
    rw [hdir]
    exact hread

omit [QDir] in
theorem getElem?_removed (h : removeRecursively failures dirPath disk = (true, disk'))
    (path : String) : disk'[path]? = if path = dirPath then none else disk[path]? := by
  unfold removeRecursively at h
  split at h
  · rename_i hnone
    cases h
    split
    · rename_i hpath
      rw [hpath, hnone]
    · rfl
  · simp only at h
    split at h
    · cases h
      exact QMap.getElem?_erase ..
    · cases h

end Directories

namespace LocalApplicationsStorage

section Deletion

variable [QDir] {appsDir : String} {failures : Failures} {attempt : Attempt}
  {s s' t : LocalApplicationsStorage} {application : Application}

/-- A directory that describes the application has the name that it would get. -/
def SoleDirectory (appsDir : String) (failures : Failures) (disk : Disk)
    (applicationFullId : String) : Prop :=
  ∀ dirPath dir app, disk[dirPath]? = some dir → QDir.isEntry appsDir dirPath = true →
    readApplication failures dirPath dir = .ok (some app) → app.id = applicationFullId →
    dirPath = QDir.filePath appsDir applicationFullId

theorem start_applications {disk : Disk}
    (h : (start disk).applications appsDir failures = .ok t) :
    ∃ apps, readApplications appsDir failures disk = .ok apps ∧ t.apps = apps.map some := by
  have hread : (start disk).appsReadFirstTime = false := rfl
  rw [applications, hread, if_neg Bool.false_ne_true] at h
  split at h
  · cases h
  · rename_i apps hfound
    cases h
    exact ⟨apps, hfound, rfl⟩

theorem deleted_disk (h : s.deleteApplication appsDir attempt application = .ok (none, s'))
    (path : String) : s'.disk[path]? =
      if path = QDir.filePath appsDir application.id then none else s.disk[path]? := by
  obtain ⟨l, -, heffect⟩ := deleteApplication_effect h
  cases heffect with
  | deleted _ hremove hs' =>
      rw [hs']
      exact getElem?_removed hremove path

end Deletion

theorem deletion_durable_iff [QDir] {appsDir : String} {failures : Failures}
    {attempt : Attempt} {s s' t : LocalApplicationsStorage} {application : Application}
    (h : s.deleteApplication appsDir attempt application = .ok (none, s'))
    (hnew : (start s'.disk).applications appsDir failures = .ok t) :
    (∀ app, some app ∈ t.apps → app.id ≠ application.id) ↔
      SoleDirectory appsDir failures s.disk application.id := by
  obtain ⟨apps, hread, happs⟩ := start_applications hnew
  have hlisted (app : Application) : some app ∈ t.apps ↔ ∃ dirPath dir,
      (dirPath ≠ QDir.filePath appsDir application.id ∧ s.disk[dirPath]? = some dir) ∧
        QDir.isEntry appsDir dirPath = true ∧
        readApplication failures dirPath dir = .ok (some app) := by
    have hmem : some app ∈ t.apps ↔ app ∈ apps := by simp [happs]
    simp only [hmem, mem_readApplications hread, deleted_disk h, ite_eq_iff, reduceCtorEq,
      and_false, false_or]
  constructor
  · intro hgone dirPath dir app hdir hentry happ hid
    by_contra hother
    exact hgone app ((hlisted app).mpr ⟨dirPath, dir, ⟨hother, hdir⟩, hentry, happ⟩) hid
  · intro hsole app hmem hid
    obtain ⟨dirPath, dir, ⟨hother, hdir⟩, hentry, happ⟩ := (hlisted app).mp hmem
    exact hother (hsole dirPath dir app hdir hentry happ hid)

/-- One directory, with the configuration that was written for the application. -/
def unpacked (dirPath : String) : Disk :=
  (∅ : Disk).insert dirPath ((∅ : Directory).insert "appcfg.json" (configJson chess.appMeta))

theorem unpacked_deleted : ∃ s' t,
    (start (unpacked "/apps/chess-1")).deleteApplication "/apps" never chess = .ok (none, s') ∧
      (start s'.disk).applications "/apps" never.firstReading = .ok t ∧
      ∀ app, some app ∈ t.apps → app.id ≠ chess.id := by
  have hdeletes : (match (start (unpacked "/apps/chess-1")).deleteApplication "/apps" never
        chess with
      | .ok (none, s') => ((start s'.disk).applications "/apps" never.firstReading).isOk
      | _ => false) = true := by decide +kernel
  split at hdeletes
  · rename_i s' h
    cases hnew : (start s'.disk).applications "/apps" never.firstReading with
    | error fault =>
        rw [hnew] at hdeletes
        cases hdeletes
    | ok t =>
        refine ⟨s', t, h, hnew, (deletion_durable_iff h hnew).mpr ?_⟩
        intro dirPath dir app hdir _ _ _
        exact ((QMap.mem_insert_iff _ _ _ _).mp (QMap.mem_of_getElem? hdir)).resolve_right
          Std.ExtTreeMap.not_mem_empty
  · cases hdeletes

theorem unpacked_notDeleted : ∃ s' t,
    (start (unpacked "/apps/games")).deleteApplication "/apps" never chess = .ok (none, s') ∧
      (start s'.disk).applications "/apps" never.firstReading = .ok t ∧
      ¬ ∀ app, some app ∈ t.apps → app.id ≠ chess.id := by
  refine ⟨_, _, rfl, rfl, ?_⟩
  intro hgone
  exact hgone _ List.mem_cons_self rfl

end LocalApplicationsStorage

end GBerry.Comms.Storage
