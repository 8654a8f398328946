import Mathlib.Data.List.Basic

/-!
# `LocalApplicationsStorage`

The applications that the storage knows, by their full ids and in the order of
its list, and the directories that there are for them.  Deleting a directory
succeeds; what becomes of the other operations on files is an argument.
-/

namespace GBerry.Comms

structure LocalApplicationsStorage where
  apps : List String
  directories : List String
  deriving DecidableEq

inductive StorageFault where
  | nullApplication
  deriving DecidableEq

inductive Writing where
  | written
  /-- The storage notices that a file cannot be written. -/
  | failed
  /-- The configuration does not reach the disk, and is not valid when it is read back. -/
  | lost
  deriving DecidableEq

inductive Rereading where
  | application (applicationFullId : String)
  /-- There is no configuration file, or no file can be opened. -/
  | nothing
  /-- The configuration file cannot be opened, or is not valid, but other files are read. -/
  | broken
  deriving DecidableEq

namespace LocalApplicationsStorage

/-- Whether the application was added.  A directory that was created stays. -/
def addApplication (s : LocalApplicationsStorage) (applicationFullId : String)
    (created : Bool) (writing : Writing) :
    Except StorageFault (Bool × LocalApplicationsStorage) :=
  if applicationFullId ∈ s.apps then .ok (false, s)
  else if applicationFullId ∈ s.directories then .ok (false, s)
  else if !created then .ok (false, s)
  else
    let s := { s with directories := s.directories ++ [applicationFullId] }
    match writing with
    | .written => .ok (true, { s with apps := s.apps ++ [applicationFullId] })
    | .failed => .ok (false, s)
    | .lost => .error .nullApplication

def deleteApplication (s : LocalApplicationsStorage) (applicationFullId : String) :
    LocalApplicationsStorage where
  apps := s.apps.erase applicationFullId
  directories := s.directories.filter (· ≠ applicationFullId)

def refreshApplication (s : LocalApplicationsStorage) (applicationFullId : String)
    (read : Rereading) : Except StorageFault (Option LocalApplicationsStorage) :=
  if applicationFullId ∈ s.apps then
    match read with
    | .application newId =>
        .ok (some { s with apps := s.apps.replace applicationFullId newId })
    | .nothing => .ok none
    | .broken => .error .nullApplication
  else .ok none

def updateApplication (s : LocalApplicationsStorage) (applicationFullId : String)
    (writing : Writing) : Except StorageFault (Option LocalApplicationsStorage) :=
  if applicationFullId ∈ s.apps then
    match writing with
    | .written =>
        .ok (some { s with apps := s.apps.erase applicationFullId ++ [applicationFullId] })
    | .failed => .ok none
    | .lost => .error .nullApplication
  else .ok none

variable {s s' : LocalApplicationsStorage} {a b : String} {writing : Writing}

theorem addApplication_ok {created : Bool}
    (h : s.addApplication a created writing = .ok (true, s')) :
    a ∉ s.apps ∧ a ∉ s.directories ∧ s'.apps = s.apps ++ [a] := by
  unfold addApplication at h
  split at h
  · cases h
  split at h
  · cases h
  split at h
  · cases h
  cases writing with
  | written =>
      cases h
      exact ⟨‹_›, ‹_›, rfl⟩
  | failed => cases h
  | lost => cases h

theorem addApplication_refused {created : Bool}
    (h : s.addApplication a created writing = .ok (false, s')) : s'.apps = s.apps := by
  unfold addApplication at h
  split at h
  · cases h
    rfl
  split at h
  · cases h
    rfl
  split at h
  · cases h
    rfl
  cases writing with
  | written => cases h
  | failed =>
      cases h
      rfl
  | lost => cases h

theorem addApplication_error_iff {created : Bool} :
    s.addApplication a created writing = .error .nullApplication ↔
      a ∉ s.apps ∧ a ∉ s.directories ∧ created = true ∧ writing = .lost := by
  unfold addApplication
  by_cases hknown : a ∈ s.apps
  · simp [hknown]
  by_cases hdirectory : a ∈ s.directories
  · simp [hknown, hdirectory]
  cases created with
  | false => simp [hknown, hdirectory]
  | true => cases writing <;> simp [hknown, hdirectory]

theorem deleteApplication_gone (h : s.apps.count a ≤ 1) :
    a ∉ (s.deleteApplication a).apps ∧ a ∉ (s.deleteApplication a).directories := by
  constructor
  · rw [← List.count_eq_zero, deleteApplication, List.count_erase_self]
    omega
  · simp [deleteApplication]

theorem deleteApplication_count (hne : b ≠ a) :
    (s.deleteApplication a).apps.count b = s.apps.count b :=
  List.count_erase_of_ne hne

theorem replace_self_of_mem {l : List String} (hcount : l.count a = 1)
    (hmem : a ∈ l.replace a b) : l.replace a b = l := by
  induction l with
  | nil => rfl
  | cons c l ih =>
      by_cases hc : c = a
      · subst hc
        rw [List.count_cons_self, Nat.add_eq_right, List.count_eq_zero] at hcount
        rw [List.replace_cons_self] at hmem ⊢
        rcases List.mem_cons.mp hmem with rfl | hmem
        · rfl
        · exact absurd hmem hcount
      · have hreplace : (c :: l).replace a b = c :: l.replace a b := by
          rw [List.replace_cons, beq_false_of_ne (Ne.symm hc)]
        rw [List.count_cons_of_ne hc] at hcount
        rw [hreplace] at hmem ⊢
        rw [ih hcount ((List.mem_cons.mp hmem).resolve_left (Ne.symm hc))]

theorem refreshApplication_ok {read : Rereading}
    (h : s.refreshApplication a read = .ok (some s')) :
    a ∈ s.apps ∧ ∃ newId, read = .application newId ∧
      s' = { s with apps := s.apps.replace a newId } := by
  unfold refreshApplication at h
  split at h
  · rename_i hmem
    cases read with
    | application newId =>
        cases h
        exact ⟨hmem, newId, rfl, rfl⟩
    | nothing => cases h
    | broken => cases h
  · cases h

theorem refreshApplication_apps {read : Rereading} (hcount : s.apps.count a = 1)
    (h : s.refreshApplication a read = .ok (some s')) (hmem : a ∈ s'.apps) :
    s'.apps = s.apps := by
  obtain ⟨-, newId, -, rfl⟩ := refreshApplication_ok h
  exact replace_self_of_mem hcount hmem

theorem updateApplication_count
    (h : s.updateApplication a writing = .ok (some s')) :
    s'.apps.count b = s.apps.count b := by
  unfold updateApplication at h
  split at h
  · rename_i hmem
    cases writing with
    | written =>
        cases h
        have hperm : (s.apps.erase a ++ [a]).Perm s.apps :=
          List.perm_append_comm.trans (List.perm_cons_erase hmem).symm
        exact hperm.count_eq b
    | failed => cases h
    | lost => cases h
  · cases h

end LocalApplicationsStorage

end GBerry.Comms
