import GBerry.Comms.Storage.Effect

/-!
# Operations that fail

An operation that reports a failure should have changed neither the list nor what is
connected to it, and be possible once more.  Adding leaves its directory behind when it
notices that a file cannot be written, and deleting forgets the application before its
directory is gone.
-/

namespace GBerry.Comms.Storage.LocalApplicationsStorage

open GBerry.Common
open GBerry.Foundation

abbrev StorageStep := Step LocalApplicationsStorage StorageEvent StorageAnswer

def Indexed (s : LocalApplicationsStorage) : Prop :=
  ∀ view ∈ s.views, index s.apps ∅ = .ok view

def attemptOf : StorageEvent → Option Attempt
  | .updateApplication attempt _ => some attempt
  | .refreshApplication attempt _ => some attempt
  | .deleteApplication attempt _ => some attempt
  | .addApplication attempt _ => some attempt
  | _ => none

section Definitions

variable [QDir] (appsDir : String)

/-- The operation is refused, whatever steps on the disk would fail. -/
def Refuses (s : LocalApplicationsStorage) : StorageEvent → Prop
  | .updateApplication attempt application =>
      ∀ l, s.Lists appsDir attempt.firstReading l → application.id ∉ ids l
  | .refreshApplication _ applicationFullId =>
      ∀ app, some app ∈ s.apps → app.id ≠ applicationFullId
  | .deleteApplication attempt application =>
      ∀ l, s.Lists appsDir attempt.firstReading l → application.id ∉ ids l
  | .addApplication attempt application =>
      ∀ l, s.Lists appsDir attempt.firstReading l →
        application.id ∈ ids l ∨ QDir.filePath appsDir application.id ∈ s.disk
  | _ => False

/-- Nothing shows that the operation was tried. -/
structure NoTrace (st : StorageStep) (attempt : Attempt) : Prop where
  list : ∀ l, st.pre.Lists appsDir attempt.firstReading l →
    st.post.Lists appsDir attempt.firstReading l
  views : st.pre.Indexed → st.post.Indexed
  directories : ∀ application, st.label = .addApplication attempt application →
    ∀ dirPath ∈ st.post.disk, dirPath ∈ st.pre.disk
  repeatable : Refuses appsDir st.post st.label → Refuses appsDir st.pre st.label

def FailsCleanly (st : StorageStep) : Prop :=
  ∀ attempt error, attemptOf st.label = some attempt → st.out = [.result (some error)] →
    NoTrace appsDir st attempt

/--
A new directory gets all its files, and a directory that is to be deleted can be.
-/
def Clean (st : StorageStep) : Prop :=
  match st.label with
  | .addApplication attempt application =>
      ∀ l, st.pre.Lists appsDir attempt.firstReading l → application.id ∉ ids l →
        QDir.filePath appsDir application.id ∉ st.pre.disk →
        attempt.failures (.mkpath (QDir.filePath appsDir application.id)) = false →
        ∀ file ∈ newFiles application,
          CanWrite attempt.failures (QDir.filePath appsDir application.id) file.1 file.2
  | .deleteApplication attempt application =>
      ∀ l, st.pre.Lists appsDir attempt.firstReading l → application.id ∈ ids l →
        (removeRecursively attempt.failures (QDir.filePath appsDir application.id)
          st.pre.disk).1 = true
  | _ => True

end Definitions

section Steps

variable [QDir] {appsDir : String} {failures : Failures} {attempt : Attempt}
  {s s' : LocalApplicationsStorage} {l l' : List Application} {application : Application}
  {event : StorageEvent} {out : List StorageAnswer} {error : StorageError × String}

theorem Sound.keeps (hs : s.Sound) (hl : s.Lists appsDir failures l)
    (hread : s'.appsReadFirstTime = true) (happs : s'.apps = l.map some)
    (hviews : s'.views = s.views) :
    s'.Lists appsDir failures l ∧ (s.Indexed → s'.Indexed) := by
  refine ⟨(lists_of_read hread).mpr happs, ?_⟩
  intro hindexed view hview
  rw [hviews] at hview
  rw [happs, ← hs.apps_eq hl (List.ne_nil_of_mem hview)]
  exact hindexed view hview

theorem refuses_update (hl : s.Lists appsDir attempt.firstReading l) :
    s.Refuses appsDir (.updateApplication attempt application) ↔ application.id ∉ ids l :=
  hl.forall_iff

theorem refuses_delete (hl : s.Lists appsDir attempt.firstReading l) :
    s.Refuses appsDir (.deleteApplication attempt application) ↔ application.id ∉ ids l :=
  hl.forall_iff

theorem refuses_add (hl : s.Lists appsDir attempt.firstReading l) :
    s.Refuses appsDir (.addApplication attempt application) ↔
      application.id ∈ ids l ∨ QDir.filePath appsDir application.id ∈ s.disk :=
  hl.forall_iff

theorem update_failsCleanly (hs : s.Sound)
    (h : s.updateApplication appsDir attempt application = .ok (some error, s')) :
    NoTrace appsDir ⟨s, .updateApplication attempt application, out, s'⟩ attempt := by
  obtain ⟨l, hl, heffect⟩ := updateApplication_effect h
  have hkeeps : s'.Lists appsDir attempt.firstReading l ∧ (s.Indexed → s'.Indexed) := by
    cases heffect with
    | refused _ _ hs' => exact hs' ▸ hs.keeps hl rfl rfl rfl
    | unwritten _ _ _ _ hs' => exact hs' ▸ hs.keeps hl rfl rfl rfl
  refine ⟨hl.forall_iff.mpr hkeeps.1, hkeeps.2, nofun, ?_⟩
  rw [refuses_update hkeeps.1, refuses_update hl]
  exact id

theorem refresh_failsCleanly {applicationFullId : String} (hs : s.Sound)
    (h : s.refreshApplication appsDir attempt applicationFullId = .ok (some error, s')) :
    NoTrace appsDir ⟨s, .refreshApplication attempt applicationFullId, out, s'⟩ attempt := by
  obtain ⟨l, happs⟩ := hs.nonnull
  have hsame : s' = s := by
    cases refreshApplication_effect happs (fun hnever => (hs.unread hnever).1) h with
    | refused _ _ hs' => exact hs'
    | unread _ _ _ _ hs' => exact hs'
  rw [hsame]
  exact ⟨fun _ hl => hl, id, nofun, id⟩

omit [QDir] in
theorem length_without {id : String} (h : id ∈ ids l) : (without l id).length < l.length := by
  obtain ⟨app, hmem, hid⟩ := List.mem_map.mp h
  rw [without, List.length_eraseP_of_mem hmem (by simp [hid])]
  exact Nat.sub_one_lt_of_lt (List.length_pos_of_mem hmem)

theorem delete_failsCleanly_iff (hs : s.Sound)
    (h : s.deleteApplication appsDir attempt application = .ok (some error, s')) :
    NoTrace appsDir ⟨s, .deleteApplication attempt application, out, s'⟩ attempt ↔
      Clean appsDir ⟨s, .deleteApplication attempt application, out, s'⟩ := by
  obtain ⟨l, hl, heffect⟩ := deleteApplication_effect h
  cases heffect with
  | refused _ hunknown hs' =>
      have hkeeps : s'.Lists appsDir attempt.firstReading l ∧ (s.Indexed → s'.Indexed) :=
        hs.keeps hl (by rw [hs']; rfl) (by rw [hs']; rfl) (by rw [hs']; rfl)
      refine iff_of_true ⟨hl.forall_iff.mpr hkeeps.1, hkeeps.2, nofun, ?_⟩
        (hl.forall_iff.mpr fun hmem => absurd hmem hunknown)
      rw [refuses_delete hkeeps.1, refuses_delete hl]
      exact id
  | undeleted _ hmem hremove hs' =>
      refine iff_of_false ?_ ?_
      · intro htrace
        have hsame := (lists_of_read (by rw [hs']; rfl)).mp (htrace.list l hl)
        have hlength := congrArg List.length hsame
        rw [hs'] at hlength
        simp only [reading, List.length_map] at hlength
        exact Nat.ne_of_lt (length_without hmem) hlength
      · intro hclean
        have hremoved := hclean l hl hmem
        rw [hremove] at hremoved
        cases hremoved

theorem add_failsCleanly_iff (hs : s.Sound)
    (h : s.addApplication appsDir attempt application = .ok (some error, s')) :
    NoTrace appsDir ⟨s, .addApplication attempt application, out, s'⟩ attempt ↔
      Clean appsDir ⟨s, .addApplication attempt application, out, s'⟩ := by
  obtain ⟨l, hl, heffect⟩ := addApplication_effect h
  have hclean (hread : s' = s.reading l) :
      NoTrace appsDir ⟨s, .addApplication attempt application, out, s'⟩ attempt := by
    have hkeeps : s'.Lists appsDir attempt.firstReading l ∧ (s.Indexed → s'.Indexed) :=
      hs.keeps hl (by rw [hread]; rfl) (by rw [hread]; rfl) (by rw [hread]; rfl)
    have hdisk : s'.disk = s.disk := by rw [hread]; rfl
    refine ⟨hl.forall_iff.mpr hkeeps.1, hkeeps.2, ?_, ?_⟩
    · intro _ _ dirPath hmem
      rwa [hdisk] at hmem
    · rw [refuses_add hkeeps.1, refuses_add hl, hdisk]
      exact id
  cases heffect with
  | refused _ hrefused hs' =>
      refine iff_of_true (hclean hs') (hl.forall_iff.mpr fun hnew hfree => ?_)
      exact absurd hrefused (not_or.mpr ⟨hnew, hfree⟩)
  | uncreated _ _ _ hfails hs' =>
      refine iff_of_true (hclean hs') ?_
      intro l' _ _ _ hcreated
      rw [hfails] at hcreated
      cases hcreated
  | unwritten _ disk hnew hfree hcreated hwrites hdirectories hs' =>
      refine iff_of_false ?_ ?_
      · intro htrace
        refine hfree (htrace.directories application rfl _ ?_)
        rw [hs']
        exact (hdirectories _).mpr (.inl rfl)
      · intro hcan
        exact hwrites (hcan l hl hnew hfree hcreated)

theorem delete_clean (h : s.deleteApplication appsDir attempt application = .ok (none, s')) :
    Clean appsDir ⟨s, .deleteApplication attempt application, out, s'⟩ := by
  obtain ⟨l, hl, heffect⟩ := deleteApplication_effect h
  cases heffect with
  | deleted _ hremove _ =>
      intro _ _ _
      rw [hremove]

theorem add_clean (h : s.addApplication appsDir attempt application = .ok (none, s')) :
    Clean appsDir ⟨s, .addApplication attempt application, out, s'⟩ := by
  obtain ⟨l, hl, heffect⟩ := addApplication_effect h
  cases heffect with
  | added _ _ _ _ hwrites _ _ _ =>
      intro _ _ _ _ _
      exact hwrites

theorem failsCleanly_iff {result : Result StorageError}
    (hattempt : attemptOf event = some attempt)
    (hfails : ∀ error, result = some error →
      (NoTrace appsDir ⟨s, event, [.result result], s'⟩ attempt ↔
        Clean appsDir ⟨s, event, [.result result], s'⟩))
    (hsucceeds : result = none → Clean appsDir ⟨s, event, [.result result], s'⟩) :
    FailsCleanly appsDir ⟨s, event, [.result result], s'⟩ ↔
      Clean appsDir ⟨s, event, [.result result], s'⟩ := by
  cases result with
  | none => exact iff_of_true nofun (hsucceeds rfl)
  | some error =>
      rw [← hfails error rfl]
      constructor
      · intro hclean
        exact hclean attempt error hattempt rfl
      · intro htrace attempt' error' hattempt' _
        cases hattempt.symm.trans hattempt'
        exact htrace

theorem step_failsCleanly_iff (hs : s.Sound) (h : s.step appsDir event = .ok (s', out)) :
    FailsCleanly appsDir ⟨s, event, out, s'⟩ ↔ Clean appsDir ⟨s, event, out, s'⟩ := by
  cases event with
  | updateApplication attempt application =>
      obtain ⟨result, hresult, rfl⟩ := answered_ok h
      refine failsCleanly_iff rfl ?_ fun _ => trivial
      rintro error rfl
      exact iff_of_true (update_failsCleanly hs hresult) trivial
  | refreshApplication attempt applicationFullId =>
      obtain ⟨result, hresult, rfl⟩ := answered_ok h
      refine failsCleanly_iff rfl ?_ fun _ => trivial
      rintro error rfl
      exact iff_of_true (refresh_failsCleanly hs hresult) trivial
  | deleteApplication attempt application =>
      obtain ⟨result, hresult, rfl⟩ := answered_ok h
      refine failsCleanly_iff rfl ?_ ?_
      · rintro error rfl
        exact delete_failsCleanly_iff hs hresult
      · rintro rfl
        exact delete_clean hresult
  | addApplication attempt application =>
      obtain ⟨result, hresult, rfl⟩ := answered_ok h
      refine failsCleanly_iff rfl ?_ ?_
      · rintro error rfl
        exact add_failsCleanly_iff hs hresult
      · rintro rfl
        exact add_clean hresult
  | _ => exact iff_of_true nofun trivial

end Steps

theorem failures_clean_iff [QDir] {appsDir : String} {disk : Disk} {history : History}
    {s : LocalApplicationsStorage} (h : Execution (machine appsDir disk) history s) :
    Execution.EachStep (fun _ st => FailsCleanly appsDir st) history ↔
      Execution.EachStep (fun _ st => Clean appsDir st) history := by
  refine h.eachStep_iff ?_
  intro older s s' event out hexec hstep
  exact step_failsCleanly_iff (sound_of_execution hexec) hstep

def never : Attempt := ⟨fun _ => false, fun _ => false⟩

def chess : Application where
  appMeta := ⟨"chess", "Chess", "1", "a game", "", "chess", "", false, true⟩
  state := .Valid

def addsTwice : List StorageEvent :=
  [.addApplication never chess, .addApplication never chess]

theorem addsTwice_clean :
    ∃ history s, (machine "/apps" ∅).run addsTwice = .ok (history, s) ∧
      Execution.EachStep (fun _ st => FailsCleanly "/apps" st) history := by
  refine ⟨_, _, rfl, (failures_clean_iff (Machine.run_execution
    (show (machine "/apps" ∅).run addsTwice = .ok (_, _) from rfl))).mpr ⟨?_, ?_, trivial⟩⟩
  · intro _ _ _ _ _ _ _
    exact ⟨rfl, fun _ => rfl⟩
  · intro _ _ _ _ _ _ _
    exact ⟨rfl, fun _ => rfl⟩

def unwritable : Attempt :=
  ⟨fun _ => false, fun
    | .openToWrite _ fileName => fileName = "appcfg.json"
    | _ => false⟩

theorem unwritable_leavesDirectory :
    ∃ history s, (machine "/apps" ∅).run [.addApplication unwritable chess] =
        .ok (history, s) ∧
      ¬ Execution.EachStep (fun _ st => FailsCleanly "/apps" st) history := by
  refine ⟨_, _, rfl, ?_⟩
  rintro ⟨hclean, -⟩
  have htrace := hclean unwritable _ rfl rfl
  exact absurd (htrace.directories chess rfl "/apps/chess-1" (by decide))
    Std.ExtTreeMap.not_mem_empty

end GBerry.Comms.Storage.LocalApplicationsStorage
