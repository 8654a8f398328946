import GBerry.Comms.Storage.LocalApplicationsStorage
import Mathlib.Data.List.Forall2

/-!
# Loading bad applications

A directory whose configuration file is not valid has no application, and yet
`readApplication` goes on to its state and its meta data.  Loading is safe as long as
neither of these is looked at.
-/

namespace GBerry.Comms.Storage

open GBerry.Common

section Directory

variable [QDir] (failures : Failures) (dirPath : String) (dir : Directory)

def selectedConfig : Option JsonObject :=
  (findApplicationConfigFile dir).map fun fileName => (dir[fileName]?).getD []

def HasValidConfig : Prop :=
  ∃ fileName, findApplicationConfigFile dir = some fileName ∧
    failures (.openToRead dirPath fileName) = false ∧
    applicationConfigDefinition.validate ((dir[fileName]?).getD []) = []

instance : Decidable (HasValidConfig failures dirPath dir) :=
  match h : findApplicationConfigFile dir with
  | none => isFalse (by rintro ⟨fileName, hfind, -⟩; simp [h] at hfind)
  | some fileName =>
      decidable_of_iff (failures (.openToRead dirPath fileName) = false ∧
          applicationConfigDefinition.validate ((dir[fileName]?).getD []) = [])
        (by simp [HasValidConfig, h])

/-- The file is there and cannot be opened, so it is passed over. -/
def PassedOver (fileName : String) : Prop :=
  fileName ∈ dir ∧ failures (.openToRead dirPath fileName) = true

/-- Nothing is asked of an application that is not there. -/
def Harmless : Prop :=
  findApplicationConfigFile dir = none ∨ HasValidConfig failures dirPath dir ∨
    PassedOver failures dirPath dir "state.json" ∧ PassedOver failures dirPath dir "meta.json"

end Directory

section Loading

variable [QDir] {failures : Failures} {dirPath fileName : String} {dir : Directory}
  {app : Application} {disk : Disk} {dirs : List String}

def DescribedIn (dirPath : String) (dir : Directory) (app : Application) : Prop :=
  ∃ json ∈ selectedConfig dir, app.id = configId json ∧ app.appMeta.applicationDirPath = dirPath

theorem readApplicationConfig_isSome (json : JsonObject) :
    (readApplicationConfig failures dirPath fileName json).isSome = true ↔
      failures (.openToRead dirPath fileName) = false ∧
        applicationConfigDefinition.validate json = [] := by
  unfold readApplicationConfig
  by_cases hopen : failures (.openToRead dirPath fileName) = true
  · simp [hopen]
  · by_cases hvalid : applicationConfigDefinition.validate json = []
    · simp [hopen, hvalid]
    · simp [hopen, hvalid]

omit [QDir] in
theorem passedOver_iff : PassedOver failures dirPath dir fileName ↔
    (∃ json, dir[fileName]? = some json) ∧ failures (.openToRead dirPath fileName) = true := by
  rw [PassedOver, QMap.mem_iff]

omit [QDir] in
theorem readApplicationState_null :
    readApplicationState failures dirPath dir none = .ok none ∧
        PassedOver failures dirPath dir "state.json" ∨
      readApplicationState failures dirPath dir none = .error .nullApplication ∧
        ¬ PassedOver failures dirPath dir "state.json" := by
  rw [passedOver_iff]
  unfold readApplicationState
  cases dir["state.json"]? with
  | none => exact .inr ⟨rfl, by simp⟩
  | some json =>
      cases hopen : failures (.openToRead dirPath "state.json") with
      | true => exact .inl ⟨rfl, ⟨json, rfl⟩, rfl⟩
      | false => exact .inr ⟨rfl, by simp⟩

omit [QDir] in
theorem readApplicationMeta_null :
    readApplicationMeta failures dirPath dir none = .ok none ∧
        PassedOver failures dirPath dir "meta.json" ∨
      readApplicationMeta failures dirPath dir none = .error .nullApplication ∧
        ¬ PassedOver failures dirPath dir "meta.json" := by
  rw [passedOver_iff]
  unfold readApplicationMeta
  cases dir["meta.json"]? with
  | none => exact .inr ⟨rfl, by simp⟩
  | some json =>
      cases hopen : failures (.openToRead dirPath "meta.json") with
      | true => exact .inl ⟨rfl, ⟨json, rfl⟩, rfl⟩
      | false => exact .inr ⟨rfl, by simp⟩

omit [QDir] in
theorem readApplicationState_isSome (failures : Failures) (dirPath : String) (dir : Directory)
    (app : Application) :
    ∃ app', readApplicationState failures dirPath dir (some app) = .ok (some app') := by
  unfold readApplicationState
  cases dir["state.json"]? with
  | none => exact ⟨_, rfl⟩
  | some json => cases failures (.openToRead dirPath "state.json") <;> exact ⟨_, rfl⟩

omit [QDir] in
theorem readApplicationMeta_isSome (failures : Failures) (dirPath : String) (dir : Directory)
    (app : Application) :
    ∃ app', readApplicationMeta failures dirPath dir (some app) = .ok (some app') := by
  unfold readApplicationMeta
  cases dir["meta.json"]? with
  | none => exact ⟨_, rfl⟩
  | some json => cases failures (.openToRead dirPath "meta.json") <;> exact ⟨_, rfl⟩

/-- A valid configuration gives an application, whatever the other files are. -/
theorem readApplication_valid (h : HasValidConfig failures dirPath dir) :
    ∃ app, readApplication failures dirPath dir = .ok (some app) ∧
      DescribedIn dirPath dir app := by
  obtain ⟨fileName, hfind, hvalid⟩ := h
  obtain ⟨config, hconfig⟩ :=
    Option.isSome_iff_exists.mp ((readApplicationConfig_isSome _).mpr hvalid)
  obtain ⟨stated, hstate⟩ := readApplicationState_isSome failures dirPath dir config
  obtain ⟨app, hmeta⟩ := readApplicationMeta_isSome failures dirPath dir stated
  have hread : readApplication failures dirPath dir = .ok (some app) := by
    simp only [readApplication, hfind, hconfig, hstate, hmeta]
  obtain ⟨fileName', hfind', -, hid, hpath⟩ := readApplication_some hread
  refine ⟨app, hread, _, ?_, hid, hpath⟩
  rw [selectedConfig, hfind']
  rfl

theorem readApplication_invalid (h : ¬ HasValidConfig failures dirPath dir) :
    readApplication failures dirPath dir = .ok none ∧ Harmless failures dirPath dir ∨
      readApplication failures dirPath dir = .error .nullApplication ∧
        ¬ Harmless failures dirPath dir := by
  cases hfind : findApplicationConfigFile dir with
  | none => exact .inl ⟨by simp only [readApplication, hfind], .inl hfind⟩
  | some fileName =>
      have hconfig :
          readApplicationConfig failures dirPath fileName ((dir[fileName]?).getD []) = none := by
        rw [Option.eq_none_iff_forall_ne_some]
        intro app happ
        have hvalid := (readApplicationConfig_isSome _).mp (Option.isSome_iff_exists.mpr ⟨_, happ⟩)
        exact h ⟨fileName, hfind, hvalid⟩
      have hharmless : Harmless failures dirPath dir ↔
          PassedOver failures dirPath dir "state.json" ∧
            PassedOver failures dirPath dir "meta.json" := by
        simp [Harmless, hfind, h]
      simp only [hharmless, readApplication, hfind, hconfig]
      rcases readApplicationState_null with ⟨hstate, hpassed⟩ | ⟨hstate, hread⟩
      · rw [hstate]
        rcases readApplicationMeta_null with ⟨hmeta, hpassed'⟩ | ⟨hmeta, hread⟩
        · exact .inl ⟨hmeta, hpassed, hpassed'⟩
        · exact .inr ⟨hmeta, fun hboth => hread hboth.2⟩
      · rw [hstate]
        exact .inr ⟨rfl, fun hboth => hread hboth.1⟩

theorem readDirectories_cons {entry : Option Application} {apps : List Application}
    (hread : readApplication failures dirPath ((disk[dirPath]?).getD ∅) = .ok entry)
    (h : readDirectories failures disk (dirPath :: dirs) = .ok apps) :
    ∃ rest, readDirectories failures disk dirs = .ok rest ∧ apps = entry.toList ++ rest := by
  simp only [readDirectories, hread] at h
  split at h
  · cases h
  · rename_i rest hrest
    cases h
    exact ⟨rest, hrest, rfl⟩

theorem readDirectories_iff :
    (∃ apps, readDirectories failures disk dirs = .ok apps ∧
      List.Forall₂ (fun dirPath app => DescribedIn dirPath ((disk[dirPath]?).getD ∅) app)
        (dirs.filter fun dirPath => HasValidConfig failures dirPath ((disk[dirPath]?).getD ∅))
        apps) ↔
      ∀ dirPath ∈ dirs, Harmless failures dirPath ((disk[dirPath]?).getD ∅) := by
  induction dirs with
  | nil => simp [readDirectories]
  | cons dirPath dirs ih =>
      rw [List.forall_mem_cons, ← ih]
      by_cases hvalid : HasValidConfig failures dirPath ((disk[dirPath]?).getD ∅)
      · have hharmless : Harmless failures dirPath ((disk[dirPath]?).getD ∅) := .inr (.inl hvalid)
        obtain ⟨app, hread, hdescribed⟩ := readApplication_valid hvalid
        rw [and_iff_right hharmless, List.filter_cons_of_pos (by simpa using hvalid)]
        constructor
        · rintro ⟨apps, happs, hall⟩
          obtain ⟨rest, hrest, rfl⟩ := readDirectories_cons hread happs
          exact ⟨rest, hrest, (List.forall₂_cons.mp hall).2⟩
        · rintro ⟨rest, hrest, hall⟩
          refine ⟨app :: rest, ?_, .cons hdescribed hall⟩
          simp only [readDirectories, hread, hrest]
          rfl
      · rw [List.filter_cons_of_neg (by simpa using hvalid)]
        rcases readApplication_invalid hvalid with ⟨hread, hharmless⟩ | ⟨hread, hharmful⟩
        · rw [and_iff_right hharmless]
          constructor
          · rintro ⟨apps, happs, hall⟩
            obtain ⟨rest, hrest, heq⟩ := readDirectories_cons hread happs
            rw [heq] at hall
            exact ⟨rest, hrest, hall⟩
          · rintro ⟨rest, hrest, hall⟩
            refine ⟨rest, ?_, hall⟩
            simp only [readDirectories, hread, hrest]
            rfl
        · refine iff_of_false ?_ fun h => hharmful h.1
          simp [readDirectories, hread]

/--
Every directory with a valid configuration has its application in the list, and the
others are skipped, as long as no directory with another configuration gets further.
-/
theorem loadsValid_iff (appsDir : String) (failures : Failures) (disk : Disk) :
    (∃ apps, readApplications appsDir failures disk = .ok apps ∧
      List.Forall₂ (fun dirPath app => DescribedIn dirPath ((disk[dirPath]?).getD ∅) app)
        ((entryList (QDir.isEntry appsDir) disk.keys).filter fun dirPath =>
          HasValidConfig failures dirPath ((disk[dirPath]?).getD ∅)) apps) ↔
      ∀ dirPath dir, disk[dirPath]? = some dir → QDir.isEntry appsDir dirPath = true →
        Harmless failures dirPath dir := by
  rw [readApplications, readDirectories_iff]
  constructor
  · intro hall dirPath dir hdir hentry
    have hmem := Std.ExtTreeMap.mem_keys.mpr (QMap.mem_of_getElem? hdir)
    have hharmless := hall dirPath (mem_entryList.mpr ⟨hmem, hentry⟩)
    rwa [hdir] at hharmless
  · intro hall dirPath hmem
    obtain ⟨hkey, hentry⟩ := mem_entryList.mp hmem
    obtain ⟨dir, hdir⟩ := (QMap.mem_iff _ _).mp (Std.ExtTreeMap.mem_keys.mp hkey)
    rw [hdir]
    exact hall dirPath dir hdir hentry

end Loading

/-- One directory, with a configuration file that is no document. -/
def brokenConfig : Disk := (∅ : Disk).insert "/apps/broken" ((∅ : Directory).insert "appcfg.json" [])

theorem brokenConfig_faults :
    ¬ ∀ (appsDir : String) (failures : Failures) (disk : Disk),
      ∃ apps, readApplications appsDir failures disk = .ok apps ∧
        List.Forall₂ (fun dirPath app => DescribedIn dirPath ((disk[dirPath]?).getD ∅) app)
          ((entryList (QDir.isEntry appsDir) disk.keys).filter fun dirPath =>
            HasValidConfig failures dirPath ((disk[dirPath]?).getD ∅)) apps := by
  intro h
  obtain ⟨apps, happs, -⟩ := h "/apps" (fun _ => false) brokenConfig
  have hfaults : (match readApplications "/apps" (fun _ => false) brokenConfig with
      | .error .nullApplication => true
      | .ok _ => false) = true := by decide +kernel
  rw [happs] at hfaults
  cases hfaults

end GBerry.Comms.Storage
