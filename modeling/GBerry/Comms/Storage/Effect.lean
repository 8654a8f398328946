import GBerry.Comms.Storage.LocalApplicationsStorage

/-!
# What the operations of the storage do

An operation that ends found no null pointer in the list: the `LocalApplications` that
it works with would have used it.  Its effect is that on the applications that are
listed, on the `LocalApplications` that are connected, and on the disk.
-/

namespace GBerry.Comms.Storage

open GBerry.Common
open GBerry.Foundation

def ids (l : List Application) : List String := l.map Application.id

/-- The list indexed by id; of two applications with one id, the later one counts. -/
def indexed (l : List Application) : LocalApplications :=
  l.foldl (fun indexed app => indexed.insert app.id app) ∅

def without (l : List Application) (id : String) : List Application :=
  l.eraseP fun app => app.id = id

section Entries

variable {l : List Application} {apps : List (Option Application)} {id : String}

theorem index_map_some (l : List Application) (v : LocalApplications) :
    index (l.map some) v =
      .ok (l.foldl (fun indexed app => indexed.insert app.id app) v) := by
  induction l generalizing v with
  | nil => rfl
  | cons app l ih => exact ih (v.insert app.id app)

theorem index_ok {v v' : LocalApplications} (h : index apps v = .ok v') :
    ∃ l : List Application, apps = l.map some := by
  induction apps generalizing v with
  | nil => exact ⟨[], rfl⟩
  | cons entry apps ih =>
      cases entry with
      | none => cases h
      | some app =>
          obtain ⟨l, rfl⟩ := ih h
          exact ⟨app :: l, rfl⟩

theorem mem_foldl_insert (v : LocalApplications) :
    id ∈ l.foldl (fun indexed app => indexed.insert app.id app) v ↔ id ∈ ids l ∨ id ∈ v := by
  induction l generalizing v with
  | nil => simp [ids]
  | cons app l ih =>
      rw [List.foldl_cons, ih, QMap.mem_insert_iff, ids, ids, List.map_cons, List.mem_cons]
      tauto

theorem mem_indexed : id ∈ indexed l ↔ id ∈ ids l := by
  rw [indexed, mem_foldl_insert]
  simp

theorem mem_of_foldl_insert {v : LocalApplications} {app : Application}
    (h : (l.foldl (fun indexed app => indexed.insert app.id app) v)[id]? = some app) :
    app ∈ l ∨ v[id]? = some app := by
  induction l generalizing v with
  | nil => exact .inr h
  | cons first l ih =>
      rcases ih h with hmem | hfirst
      · exact .inl (List.mem_cons_of_mem _ hmem)
      rw [QMap.getElem?_insert] at hfirst
      split at hfirst
      · cases hfirst
        exact .inl List.mem_cons_self
      · exact .inr hfirst

theorem mem_of_indexed {app : Application} (h : (indexed l)[id]? = some app) : app ∈ l := by
  refine (mem_of_foldl_insert h).resolve_right ?_
  simp

theorem getElem?_foldl_insert (hnodup : (ids l).Nodup) (v : LocalApplications)
    (app : Application) :
    (l.foldl (fun indexed app => indexed.insert app.id app) v)[id]? = some app ↔
      (app ∈ l ∧ app.id = id) ∨ (id ∉ ids l ∧ v[id]? = some app) := by
  induction l generalizing v with
  | nil => simp [ids]
  | cons first l ih =>
      obtain ⟨hfirst, hrest⟩ := List.nodup_cons.mp hnodup
      rw [List.foldl_cons, ih hrest, QMap.getElem?_insert]
      by_cases heq : id = first.id
      · subst heq
        have hother : ∀ other ∈ l, other.id ≠ first.id := fun other hother hsame =>
          hfirst (hsame ▸ List.mem_map_of_mem hother)
        simp only [if_pos, Option.some.injEq, List.mem_cons, ids, List.map_cons, true_or,
          not_true_eq_false, false_and, or_false]
        constructor
        · rintro (⟨hmem, hsame⟩ | ⟨-, rfl⟩)
          · exact absurd hsame (hother app hmem)
          · exact ⟨.inl rfl, rfl⟩
        · rintro ⟨rfl | hmem, hsame⟩
          · exact .inr ⟨hfirst, rfl⟩
          · exact absurd hsame (hother app hmem)
      · have hne : ∀ app : Application, app = first → app.id ≠ id := by
          rintro _ rfl hsame
          exact heq hsame.symm
        simp only [ids, List.map_cons, List.mem_cons, not_or, heq, not_false_eq_true, true_and]
        refine or_congr_left (and_congr_left fun hid => ?_)
        exact (or_iff_right fun hsame => hne app hsame hid).symm

theorem getElem?_indexed (hnodup : (ids l).Nodup) (app : Application) :
    (indexed l)[id]? = some app ↔ app ∈ l ∧ app.id = id := by
  rw [indexed, getElem?_foldl_insert hnodup]
  simp

theorem removeEntry_map_some (id : String) (l : List Application) :
    removeEntry id (l.map some) = .ok ((without l id).map some) := by
  unfold without
  induction l with
  | nil => rfl
  | cons app l ih =>
      by_cases heq : app.id = id
      · simp [removeEntry, heq]
      · simp [removeEntry, heq, ih]

theorem ids_without (l : List Application) (id : String) :
    ids (without l id) = (ids l).erase id := by
  induction l with
  | nil => rfl
  | cons app l ih =>
      by_cases heq : app.id = id
      · simp [ids, without, heq]
      · simpa [ids, without, heq] using ih

theorem findEntry_of_notMem {i : Nat} (h : id ∉ ids l) :
    findEntry id i (l.map some) = .ok none := by
  induction l generalizing i with
  | nil => rfl
  | cons app l ih =>
      rw [ids, List.map_cons, List.mem_cons, not_or] at h
      rw [List.map_cons, findEntry, if_neg (Ne.symm h.1)]
      exact ih h.2

theorem findEntry_none {i : Nat} (h : findEntry id i (l.map some) = .ok none) :
    id ∉ ids l := by
  induction l generalizing i with
  | nil => exact List.not_mem_nil
  | cons app l ih =>
      simp only [List.map_cons, findEntry] at h
      split at h
      · cases h
      · rename_i hne
        rw [ids, List.map_cons, List.mem_cons, not_or]
        exact ⟨Ne.symm hne, ih h⟩

theorem findEntry_some {i j : Nat} {app : Application}
    (h : findEntry id i (l.map some) = .ok (some (j, app))) :
    ∃ before after, l = before ++ app :: after ∧ j = i + before.length ∧ app.id = id ∧
      id ∉ ids before := by
  induction l generalizing i with
  | nil => cases h
  | cons first l ih =>
      simp only [List.map_cons, findEntry] at h
      split at h
      · rename_i heq
        cases h
        exact ⟨[], l, rfl, rfl, heq, List.not_mem_nil⟩
      · rename_i hne
        obtain ⟨before, after, rfl, rfl, hid, hbefore⟩ := ih h
        refine ⟨first :: before, after, rfl, ?_, hid, ?_⟩
        · rw [List.length_cons]
          omega
        · rw [ids, List.map_cons, List.mem_cons, not_or]
          exact ⟨Ne.symm hne, hbefore⟩

theorem map_set_some {before after : List Application} {app : Application} (newApp : Application) :
    ((before ++ app :: after).map some).set before.length (some newApp) =
      (before ++ newApp :: after).map some := by
  simp

end Entries

namespace LocalApplicationsStorage

variable [QDir] {appsDir : String} {failures : Failures} {attempt : Attempt}
  {s s' : LocalApplicationsStorage} {l l' : List Application} {result : Result StorageError}

def reading (s : LocalApplicationsStorage) (l : List Application) : LocalApplicationsStorage :=
  { s with apps := l.map some, appsReadFirstTime := true }

/-- The storage lists the applications, and reads them first when it must. -/
def Lists (appsDir : String) (failures : Failures) (s : LocalApplicationsStorage)
    (l : List Application) : Prop :=
  s.applications appsDir failures = .ok (s.reading l)

def told (s : LocalApplicationsStorage) (l : List Application) : LocalApplicationsStorage :=
  { s with views := s.views.map fun _ => indexed l }

theorem applications_ok (h : s.applications appsDir failures = .ok s') :
    s' = { s with apps := s'.apps, appsReadFirstTime := true } := by
  unfold applications at h
  split at h
  · rename_i hread
    cases h
    rw [← hread]
  · split at h
    · cases h
    · cases h
      rfl

theorem localApplications_ok {indices : LocalApplications}
    (h : s.localApplications appsDir failures = .ok (indices, s')) :
    ∃ l, s.Lists appsDir failures l ∧ indices = indexed l ∧
      s' = { s.reading l with views := s.views ++ [indexed l] } := by
  unfold localApplications at h
  split at h
  · cases h
  rename_i t happs
  split at h
  · cases h
  rename_i found hindex
  cases h
  obtain ⟨l, hl⟩ := index_ok hindex
  have hfound : indices = indexed l := by
    rw [hl, index_map_some] at hindex
    exact (Except.ok.inj hindex).symm
  have ht := applications_ok happs
  rw [hl] at ht
  refine ⟨l, ?_, hfound, ?_⟩
  · rw [Lists, happs, ht]
    rfl
  · rw [hfound, ht]
    rfl

theorem withLocalApplications_ok
    {operation : LocalApplications → LocalApplicationsStorage →
      Except Fault (Result StorageError × LocalApplicationsStorage)}
    (h : s.withLocalApplications appsDir failures operation = .ok (result, s')) :
    ∃ l t, s.Lists appsDir failures l ∧
      operation (indexed l) { s.reading l with views := s.views ++ [indexed l] } =
        .ok (result, t) ∧ s' = t.done := by
  unfold withLocalApplications at h
  split at h
  · cases h
  rename_i indices opened hopened
  obtain ⟨l, hl, rfl, rfl⟩ := localApplications_ok hopened
  split at h
  · cases h
  · rename_i t hoperation
    cases h
    exact ⟨l, t, hl, hoperation, rfl⟩

/-- What is emitted while a `LocalApplications` is connected finds no null pointer. -/
theorem succeeded_nonnull (hread : s.appsReadFirstTime = true) (hviews : s.views ≠ [])
    (h : s.succeeded appsDir failures = .ok (result, s')) :
    ∃ l : List Application, s.apps = l.map some := by
  unfold succeeded applicationsUpdated applications at h
  cases hconnected : s.views with
  | nil => exact absurd hconnected hviews
  | cons view views =>
      simp only [hconnected, hread, if_true] at h
      cases hindex : index s.apps ∅ with
      | error fault => simp only [hindex, reduceCtorEq] at h
      | ok indices => exact index_ok hindex

theorem applicationsUpdated_ok (hread : s.views = [] ∨ s.appsReadFirstTime = true)
    (happs : s.apps = l.map some) (h : s.applicationsUpdated appsDir failures = .ok s') :
    s' = s.told l := by
  unfold applicationsUpdated applications at h
  cases hconnected : s.views with
  | nil =>
      simp only [hconnected, Except.ok.injEq] at h
      rw [← h, told, hconnected, List.map_nil, ← hconnected]
  | cons view views =>
      have hread := hread.resolve_left (by simp [hconnected])
      simp only [hconnected, hread, if_true, happs, index_map_some, Except.ok.injEq] at h
      rw [← h, told, hconnected, happs, hread]
      rfl

theorem succeeded_ok (hread : s.views = [] ∨ s.appsReadFirstTime = true)
    (happs : s.apps = l.map some) (h : s.succeeded appsDir failures = .ok (result, s')) :
    result = none ∧ s' = s.told l := by
  unfold succeeded at h
  split at h
  · cases h
  · rename_i t hupdated
    cases h
    exact ⟨rfl, applicationsUpdated_ok hread happs hupdated⟩

/-- Where every application has its directory, no directory is made. -/
def SameDirectories (l : List Application) (disk disk' : Disk) : Prop :=
  (∀ app ∈ l, app.appMeta.applicationDirPath ∈ disk) → ∀ path, path ∈ disk' ↔ path ∈ disk

inductive UpdateEffect (s s' : LocalApplicationsStorage) (l : List Application)
    (application : Application) : Result StorageError → Prop
  | refused (error : StorageError × String) : application.id ∉ ids l → s' = s.reading l →
      UpdateEffect s s' l application (some error)
  | unwritten (error : StorageError × String) (disk : Disk) : application.id ∈ ids l →
      SameDirectories l s.disk disk →
      s' = { s.reading l with disk := disk } → UpdateEffect s s' l application (some error)
  | unread (disk : Disk) : application.id ∈ ids l → SameDirectories l s.disk disk →
      s' = told { s.reading l with disk := disk } l → UpdateEffect s s' l application none
  | updated {app : Application} (disk : Disk) : application.id ∈ ids l →
      SameDirectories l s.disk disk → app.id = application.id →
      s' = told { s.reading (without l application.id ++ [app]) with disk := disk }
        (without l application.id ++ [app]) →
      UpdateEffect s s' l application none

inductive AddEffect (appsDir : String) (failures : Failures) (s s' : LocalApplicationsStorage)
    (l : List Application) (application : Application) : Result StorageError → Prop
  | refused (error : StorageError × String) :
      application.id ∈ ids l ∨ QDir.filePath appsDir application.id ∈ s.disk →
      s' = s.reading l → AddEffect appsDir failures s s' l application (some error)
  | uncreated (error : StorageError × String) : application.id ∉ ids l →
      QDir.filePath appsDir application.id ∉ s.disk →
      failures (.mkpath (QDir.filePath appsDir application.id)) = true →
      s' = s.reading l → AddEffect appsDir failures s s' l application (some error)
  | unwritten (error : StorageError × String) (disk : Disk) : application.id ∉ ids l →
      QDir.filePath appsDir application.id ∉ s.disk →
      failures (.mkpath (QDir.filePath appsDir application.id)) = false →
      ¬ (∀ file ∈ newFiles application,
        CanWrite failures (QDir.filePath appsDir application.id) file.1 file.2) →
      (∀ path, path ∈ disk ↔ path = QDir.filePath appsDir application.id ∨ path ∈ s.disk) →
      s' = { s.reading l with disk := disk } →
      AddEffect appsDir failures s s' l application (some error)
  | added {app : Application} (disk : Disk) : application.id ∉ ids l →
      QDir.filePath appsDir application.id ∉ s.disk →
      failures (.mkpath (QDir.filePath appsDir application.id)) = false →
      (∀ file ∈ newFiles application,
        CanWrite failures (QDir.filePath appsDir application.id) file.1 file.2) →
      (∀ path, path ∈ disk ↔ path = QDir.filePath appsDir application.id ∨ path ∈ s.disk) →
      app.id = application.id →
      s' = told { s.reading (l ++ [app]) with disk := disk } (l ++ [app]) →
      AddEffect appsDir failures s s' l application none

inductive DeleteEffect (appsDir : String) (failures : Failures)
    (s s' : LocalApplicationsStorage) (l : List Application) (application : Application) :
    Result StorageError → Prop
  | refused (error : StorageError × String) : application.id ∉ ids l → s' = s.reading l →
      DeleteEffect appsDir failures s s' l application (some error)
  | undeleted (error : StorageError × String) {disk : Disk} : application.id ∈ ids l →
      removeRecursively failures (QDir.filePath appsDir application.id) s.disk =
        (false, disk) →
      s' = { s.reading (without l application.id) with disk := disk } →
      DeleteEffect appsDir failures s s' l application (some error)
  | deleted {disk : Disk} : application.id ∈ ids l →
      removeRecursively failures (QDir.filePath appsDir application.id) s.disk =
        (true, disk) →
      s' = told { s.reading (without l application.id) with disk := disk }
        (without l application.id) →
      DeleteEffect appsDir failures s s' l application none

inductive RefreshEffect (failures : Failures) (s s' : LocalApplicationsStorage)
    (l : List Application) (id : String) : Result StorageError → Prop
  | refused (error : StorageError × String) : id ∉ ids l → s' = s →
      RefreshEffect failures s s' l id (some error)
  | unread (error : StorageError × String) {before after : List Application}
      {app : Application} :
      l = before ++ app :: after → app.id = id →
      readApplication failures app.appMeta.applicationDirPath
        ((s.disk[app.appMeta.applicationDirPath]?).getD ∅) = .ok none →
      s' = s → RefreshEffect failures s s' l id (some error)
  | refreshed {before after : List Application} {app newApp : Application} :
      l = before ++ app :: after → app.id = id → id ∉ ids before →
      readApplication failures app.appMeta.applicationDirPath
        ((s.disk[app.appMeta.applicationDirPath]?).getD ∅) = .ok (some newApp) →
      s' = told { s with apps := (before ++ newApp :: after).map some }
        (before ++ newApp :: after) →
      RefreshEffect failures s s' l id none

section Effects

variable {application : Application} {id : String}

theorem updateApplication_effect
    (h : s.updateApplication appsDir attempt application = .ok (result, s')) :
    ∃ l, s.Lists appsDir attempt.firstReading l ∧ UpdateEffect s s' l application result := by
  obtain ⟨l, t, hl, hoperation, hdone⟩ := withLocalApplications_ok h
  refine ⟨l, hl, ?_⟩
  simp only at hoperation
  split at hoperation
  · rename_i hnone
    cases hoperation
    exact .refused _ (mem_indexed.not.mp ((QMap.notMem_iff _ _).mpr hnone))
      (by simp [hdone, done, reading])
  rename_i existingApp hexisting
  have hmem := mem_indexed.mp (QMap.mem_of_getElem? hexisting)
  have hsame {result : Result WriteError} {disk : Disk}
      (hwrite : writeApplication attempt.failures existingApp.appMeta.applicationDirPath
        application s.disk = (result, disk)) : SameDirectories l s.disk disk := by
    intro hstored path
    rw [← mem_writeApplication (hstored existingApp (mem_of_indexed hexisting)) path,
      congrArg Prod.snd hwrite]
  split at hoperation
  · rename_i disk hwrite
    cases hoperation
    exact .unwritten _ disk hmem (hsame hwrite) (by simp [hdone, done, reading])
  rename_i disk hwrite
  have hdirectories := hsame hwrite
  rw [writeApplication_ok hwrite] at hdirectories
  rw [writeApplication_ok hwrite, QMap.getElem?_insert, if_pos rfl, Option.getD_some]
    at hoperation
  split at hoperation
  · cases hoperation
  · obtain ⟨rfl, rfl⟩ := succeeded_ok (.inr rfl) rfl hoperation
    exact .unread _ hmem hdirectories (by simp [hdone, done, reading, told])
  · rename_i app hread
    have hid := (readApplication_written hread).1
    simp only [reading, removeEntry_map_some, hid] at hoperation
    obtain ⟨rfl, rfl⟩ := succeeded_ok (l := without l application.id ++ [app]) (.inr rfl)
      (by simp) hoperation
    exact .updated _ hmem hdirectories hid (by simp [hdone, done, reading, told])

theorem addApplication_effect
    (h : s.addApplication appsDir attempt application = .ok (result, s')) :
    ∃ l, s.Lists appsDir attempt.firstReading l ∧
      AddEffect appsDir attempt.failures s s' l application result := by
  obtain ⟨l, t, hl, hoperation, hdone⟩ := withLocalApplications_ok h
  refine ⟨l, hl, ?_⟩
  simp only [mem_indexed] at hoperation
  split at hoperation
  · rename_i hknown
    cases hoperation
    exact .refused _ (.inl hknown) (by simp [hdone, done, reading])
  rename_i hnew
  split at hoperation
  · rename_i hexists
    cases hoperation
    exact .refused _ (.inr hexists) (by simp [hdone, done, reading])
  rename_i hfree
  split at hoperation
  · rename_i hfails
    cases hoperation
    exact .uncreated _ hnew hfree hfails (by simp [hdone, done, reading])
  rename_i hcreated
  have hcreated := Bool.eq_false_of_not_eq_true hcreated
  have hmade {result : Result WriteError} {disk : Disk}
      (hwrite : writeApplication attempt.failures (QDir.filePath appsDir application.id)
        application (s.disk.insert (QDir.filePath appsDir application.id) ∅) =
          (result, disk)) (path : String) :
      path ∈ disk ↔ path = QDir.filePath appsDir application.id ∨ path ∈ s.disk := by
    have hdirPath : QDir.filePath appsDir application.id ∈
        s.disk.insert (QDir.filePath appsDir application.id) ∅ :=
      (QMap.mem_insert_iff _ _ _ _).mpr (.inl rfl)
    obtain rfl : _ = disk := congrArg Prod.snd hwrite
    rw [mem_writeApplication hdirPath, QMap.mem_insert_iff]
  split at hoperation
  · rename_i disk hwrite
    cases hoperation
    refine .unwritten _ disk hnew hfree hcreated ?_ (hmade hwrite)
      (by simp [hdone, done, reading])
    rw [← writeApplication_new_none_iff, congrArg Prod.fst hwrite]
    nofun
  rename_i disk hwrite
  have hwrites := writeApplication_new_none_iff.mp (congrArg Prod.fst hwrite)
  have hdirectories := hmade hwrite
  rw [writeApplication_ok hwrite] at hdirectories
  rw [writeApplication_ok hwrite, QMap.getElem?_insert, if_pos rfl, Option.getD_some]
    at hoperation
  split at hoperation
  · cases hoperation
  · rename_i entry hread
    obtain ⟨l', hl'⟩ := succeeded_nonnull rfl (by simp) hoperation
    cases entry with
    | none =>
        have hnull : none ∈ l'.map some := hl' ▸ List.mem_append_right _ List.mem_cons_self
        simp at hnull
    | some app =>
        have hid := (readApplication_written hread).1
        obtain ⟨rfl, rfl⟩ := succeeded_ok (l := l ++ [app]) (.inr rfl) (by simp [reading])
          hoperation
        exact .added _ hnew hfree hcreated hwrites hdirectories hid
          (by simp [hdone, done, reading, told])

theorem deleteApplication_effect
    (h : s.deleteApplication appsDir attempt application = .ok (result, s')) :
    ∃ l, s.Lists appsDir attempt.firstReading l ∧
      DeleteEffect appsDir attempt.failures s s' l application result := by
  obtain ⟨l, t, hl, hoperation, hdone⟩ := withLocalApplications_ok h
  refine ⟨l, hl, ?_⟩
  simp only [mem_indexed] at hoperation
  split at hoperation
  · rename_i hunknown
    cases hoperation
    exact .refused _ hunknown (by simp [hdone, done, reading])
  rename_i hmem
  simp only [reading, removeEntry_map_some] at hoperation
  split at hoperation
  · rename_i disk hremove
    cases hoperation
    exact .undeleted _ (not_not.mp hmem) hremove (by simp [hdone, done, reading])
  · rename_i disk hremove
    obtain ⟨rfl, rfl⟩ := succeeded_ok (l := without l application.id) (.inr rfl) rfl hoperation
    exact .deleted (not_not.mp hmem) hremove (by simp [hdone, done, reading, told])

theorem refreshApplication_effect (happs : s.apps = l.map some)
    (hunread : s.appsReadFirstTime = false → s.apps = [])
    (h : s.refreshApplication appsDir attempt id = .ok (result, s')) :
    RefreshEffect attempt.failures s s' l id result := by
  unfold refreshApplication at h
  rw [happs] at h
  split at h
  · cases h
  · rename_i hnone
    cases h
    exact .refused _ (findEntry_none hnone) rfl
  rename_i i app hfind
  obtain ⟨before, after, hl, rfl, hid, hbefore⟩ := findEntry_some hfind
  simp only at h
  split at h
  · cases h
  · rename_i hread
    cases h
    exact .unread _ hl hid hread rfl
  · rename_i newApp hread
    have hreads : s.appsReadFirstTime = true := by
      by_contra hnever
      have hempty := happs.symm.trans (hunread (Bool.eq_false_of_not_eq_true hnever))
      rw [hl] at hempty
      simp at hempty
    have hset : (l.map some).set (0 + before.length) (some newApp) =
        (before ++ newApp :: after).map some := by
      rw [hl, Nat.zero_add, map_set_some]
    rw [hset] at h
    obtain ⟨rfl, rfl⟩ := succeeded_ok
      (s := { s with apps := (before ++ newApp :: after).map some }) (.inr hreads) rfl h
    exact .refreshed hl hid hbefore hread rfl

theorem pruneApplication_ok {deleted : Bool}
    (hunread : s.appsReadFirstTime = false → s.views = []) (happs : s.apps = l.map some)
    (h : s.pruneApplication appsDir attempt application = .ok (deleted, s')) :
    ∃ disk, s' = { s with disk := disk } ∨ s' = told { s with disk := disk } l := by
  unfold pruneApplication at h
  simp only at h
  split at h
  · cases h
    exact ⟨s.disk, .inl rfl⟩
  split at h
  · split at h
    · cases h
    rename_i t hupdated
    cases h
    have hread : s.views = [] ∨ s.appsReadFirstTime = true := by
      cases hreads : s.appsReadFirstTime with
      | true => exact .inr rfl
      | false => exact .inl (hunread hreads)
    exact ⟨_, .inr (applicationsUpdated_ok (by exact hread) (by exact happs) hupdated)⟩
  · cases h
    exact ⟨s.disk, .inl rfl⟩

end Effects

/-- No entry is a null pointer, and nothing was done with directories that were not read. -/
structure Sound (s : LocalApplicationsStorage) : Prop where
  nonnull : ∃ l : List Application, s.apps = l.map some
  unread : s.appsReadFirstTime = false → s.apps = [] ∧ s.views = []

section Runs

variable {event : StorageEvent} {out : List StorageAnswer} {disk : Disk}

theorem lists_of_read (hread : s.appsReadFirstTime = true) :
    s.Lists appsDir failures l ↔ s.apps = l.map some := by
  rw [Lists, applications, if_pos hread, Except.ok.injEq]
  constructor
  · intro heq
    exact congrArg LocalApplicationsStorage.apps heq
  · intro happs
    rw [reading, ← happs, ← hread]

theorem lists_of_unread (hread : s.appsReadFirstTime = false) (happs : s.apps = [])
    (h : s.Lists appsDir failures l) : readApplications appsDir failures s.disk = .ok l := by
  rw [Lists, applications, hread, if_neg Bool.false_ne_true] at h
  split at h
  · cases h
  · rename_i apps hfound
    have hsame := congrArg LocalApplicationsStorage.apps (Except.ok.inj h)
    simp only [happs, reading, List.nil_append] at hsame
    rw [hfound, List.map_injective_iff.mpr (Option.some_injective _) hsame]

theorem Lists.unique (h : s.Lists appsDir failures l) (h' : s.Lists appsDir failures l') :
    l = l' := by
  have hsame := congrArg LocalApplicationsStorage.apps (Except.ok.inj (h.symm.trans h'))
  exact List.map_injective_iff.mpr (Option.some_injective _) hsame

theorem Lists.forall_iff (hl : s.Lists appsDir failures l) {P : List Application → Prop} :
    (∀ l', s.Lists appsDir failures l' → P l') ↔ P l := by
  constructor
  · intro hall
    exact hall l hl
  · intro hone l' hl'
    rwa [← hl.unique hl']

theorem Sound.apps_eq (hs : s.Sound) (hl : s.Lists appsDir failures l)
    (hviews : s.views ≠ []) : s.apps = l.map some := by
  cases hread : s.appsReadFirstTime with
  | true => exact (lists_of_read hread).mp hl
  | false => exact absurd (hs.unread hread).2 hviews

omit [QDir] in
theorem sound_start : (start disk).Sound where
  nonnull := ⟨[], rfl⟩
  unread _ := ⟨rfl, rfl⟩

omit [QDir] in
theorem sound_of_read (hread : s.appsReadFirstTime = true) (happs : s.apps = l.map some) :
    s.Sound where
  nonnull := ⟨l, happs⟩
  unread hnever := absurd hread (by simp [hnever])

omit [QDir] in
theorem Sound.told (hs : s.Sound) (l : List Application) : (s.told l).Sound where
  nonnull := hs.nonnull
  unread hnever := by
    obtain ⟨hnone, hviews⟩ := hs.unread hnever
    exact ⟨hnone, by rw [LocalApplicationsStorage.told, hviews, List.map_nil]⟩

theorem Sound.applications (hs : s.Sound) (h : s.applications appsDir failures = .ok s') :
    ∃ l, s.Lists appsDir failures l ∧ s' = s.reading l := by
  suffices hlist : ∃ l, s' = s.reading l by
    obtain ⟨l, rfl⟩ := hlist
    exact ⟨l, h, rfl⟩
  obtain ⟨l, happs⟩ := hs.nonnull
  unfold LocalApplicationsStorage.applications at h
  split at h
  · rename_i hread
    cases h
    exact ⟨l, by rw [reading, ← happs, ← hread]⟩
  · split at h
    · cases h
    · rename_i apps hfound
      cases h
      exact ⟨l ++ apps, by rw [reading, happs, List.map_append]⟩

omit [QDir] in
theorem answered_ok {answer : Except Fault (Result StorageError × LocalApplicationsStorage)}
    (h : answered answer = .ok (s', out)) :
    ∃ result, answer = .ok (result, s') ∧ out = [.result result] := by
  unfold answered at h
  split at h
  · cases h
  · rename_i result t
    cases h
    exact ⟨result, rfl, rfl⟩

theorem Sound.step (hs : s.Sound) (h : s.step appsDir event = .ok (s', out)) : s'.Sound := by
  obtain ⟨l, happs⟩ := hs.nonnull
  cases event with
  | applications attempt =>
      simp only [LocalApplicationsStorage.step] at h
      split at h
      · cases h
      · rename_i t hread
        cases h
        obtain ⟨l, -, rfl⟩ := hs.applications hread
        exact sound_of_read rfl rfl
  | localApplications attempt =>
      simp only [LocalApplicationsStorage.step] at h
      split at h
      · cases h
      · rename_i indices t hopened
        cases h
        obtain ⟨l, -, -, rfl⟩ := localApplications_ok hopened
        exact sound_of_read rfl rfl
  | disconnected view =>
      cases h
      refine ⟨hs.nonnull, fun hnever => ?_⟩
      obtain ⟨hnone, hviews⟩ := hs.unread hnever
      exact ⟨hnone, by simp [hviews]⟩
  | updateApplication attempt application =>
      obtain ⟨result, hresult, -⟩ := answered_ok h
      obtain ⟨l, -, heffect⟩ := updateApplication_effect hresult
      cases heffect with
      | updated _ _ _ _ hs' => exact hs' ▸ sound_of_read rfl rfl
      | _ => subst_vars; exact sound_of_read rfl rfl
  | refreshApplication attempt applicationFullId =>
      obtain ⟨result, hresult, -⟩ := answered_ok h
      cases refreshApplication_effect happs (fun hnever => (hs.unread hnever).1) hresult with
      | refreshed hl _ _ _ hs' =>
          rw [hs']
          refine Sound.told ⟨⟨_, rfl⟩, fun hnever => ?_⟩ _
          have hempty := happs.symm.trans (hs.unread hnever).1
          rw [hl] at hempty
          simp at hempty
      | _ => subst_vars; exact hs
  | pruneApplication attempt application =>
      simp only [LocalApplicationsStorage.step] at h
      split at h
      · cases h
      · rename_i deleted t hpruned
        cases h
        obtain ⟨disk, rfl | rfl⟩ :=
          pruneApplication_ok (fun hnever => (hs.unread hnever).2) happs hpruned
        · exact ⟨hs.nonnull, hs.unread⟩
        · exact Sound.told (s := { s with disk := disk }) ⟨hs.nonnull, hs.unread⟩ l
  | deleteApplication attempt application =>
      obtain ⟨result, hresult, -⟩ := answered_ok h
      obtain ⟨l, -, heffect⟩ := deleteApplication_effect hresult
      cases heffect with
      | _ => subst_vars; exact sound_of_read rfl rfl
  | addApplication attempt application =>
      obtain ⟨result, hresult, -⟩ := answered_ok h
      obtain ⟨l, -, heffect⟩ := addApplication_effect hresult
      cases heffect with
      | _ => subst_vars; exact sound_of_read rfl rfl
  | changed dirPath dir =>
      cases h
      exact ⟨hs.nonnull, hs.unread⟩

theorem sound_of_execution {history : History} (h : Execution (machine appsDir disk) history s) :
    s.Sound :=
  h.state_invariant sound_start Sound.step

end Runs

end LocalApplicationsStorage

end GBerry.Comms.Storage
