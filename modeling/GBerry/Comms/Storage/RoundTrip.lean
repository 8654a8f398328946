import GBerry.Comms.Storage.Loading

/-!
# Writing an application and reading it back

All members are stored as they are, and two of them are read as paths relative to the
directory of the application.  Only absolute paths stay what they were, and only what
has reached the disk can be read.
-/

namespace GBerry.Comms.Storage

open GBerry.Common

def Application.inDirectory (app : Application) (dirPath : String) : Application :=
  { app with appMeta.applicationDirPath := dirPath }

section Reading

variable [QDir] (writing reading : Failures) (dirPath : String) (app : Application)

def unknown (fileName : String) : Bool :=
  reading (.openToRead dirPath fileName) || writing (.flush dirPath fileName)

def reread : Application where
  appMeta := { app.appMeta with
    applicationDirPath := dirPath
    applicationExecutablePath :=
      QDir.absoluteFilePath dirPath app.appMeta.applicationExecutablePath
    catalogImageFilePath := QDir.absoluteFilePath dirPath app.appMeta.catalogImageFilePath
    isFree :=
      if reading (.openToRead dirPath "meta.json") then false
      else if writing (.flush dirPath "meta.json") then false
      else app.appMeta.isFree }
  state :=
    if reading (.openToRead dirPath "state.json") then .Valid
    else if writing (.flush dirPath "state.json") then .Invalid
    else app.state

variable {writing reading dirPath app} {dir : Directory}

theorem readApplicationConfig_configJson {fileName : String}
    (hopen : reading (.openToRead dirPath fileName) = false) :
    readApplicationConfig reading dirPath fileName (configJson app.appMeta) =
      some ⟨{ app.appMeta with
        applicationDirPath := dirPath
        applicationExecutablePath :=
          QDir.absoluteFilePath dirPath app.appMeta.applicationExecutablePath
        catalogImageFilePath := QDir.absoluteFilePath dirPath app.appMeta.catalogImageFilePath
        isFree := false }, .Valid⟩ := by
  rw [readApplicationConfig, if_neg (by simp [hopen]),
    if_neg (by simp [validate_configJson])]
  rfl

theorem written_state : (written writing dirPath app dir)["state.json"]? =
    some (kept writing dirPath "state.json" (stateJson app.state)) := by
  rw [written, QMap.getElem?_insert, if_neg (by decide), QMap.getElem?_insert, if_pos rfl]

theorem written_meta : (written writing dirPath app dir)["meta.json"]? =
    some (kept writing dirPath "meta.json" [("is_free", .bool app.appMeta.isFree)]) := by
  rw [written, QMap.getElem?_insert, if_pos rfl]

theorem readApplicationState_written (app' : Application) :
    readApplicationState reading dirPath (written writing dirPath app dir) (some app') =
      .ok (some { app' with
        state :=
          if reading (.openToRead dirPath "state.json") then app'.state
          else if writing (.flush dirPath "state.json") then .Invalid
          else app.state }) := by
  simp only [readApplicationState, written_state, kept]
  cases reading (.openToRead dirPath "state.json") with
  | true => rfl
  | false =>
      cases writing (.flush dirPath "state.json") with
      | true => rfl
      | false => simp [changed, stateOf_stateJson]

theorem readApplicationMeta_written (app' : Application) :
    readApplicationMeta reading dirPath (written writing dirPath app dir) (some app') =
      .ok (some { app' with
        appMeta.isFree :=
          if reading (.openToRead dirPath "meta.json") then app'.appMeta.isFree
          else if writing (.flush dirPath "meta.json") then false
          else app.appMeta.isFree }) := by
  simp only [readApplicationMeta, written_meta, kept]
  cases reading (.openToRead dirPath "meta.json") with
  | true => rfl
  | false => cases writing (.flush dirPath "meta.json") <;> rfl

theorem readApplication_reread
    (hopen : unknown writing reading dirPath
      ((findApplicationConfigFile dir).getD "appcfg.json") = false) :
    readApplication reading dirPath (written writing dirPath app dir) =
      .ok (some (reread writing reading dirPath app)) := by
  obtain ⟨hfind, hjson⟩ := written_config writing dirPath app dir
  obtain ⟨hopen, hlost⟩ := Bool.or_eq_false_iff.mp hopen
  rw [kept, if_neg (by simp [hlost])] at hjson
  simp only [readApplication, hfind, hjson, Option.getD_some,
    readApplicationConfig_configJson hopen, readApplicationState_written,
    readApplicationMeta_written, reread]

end Reading

section Cycles

variable [QDir] (writing reading : Failures) (dirPath : String)

/-- The application is written, as `updateApplication` does, and read again. -/
def cycle (disk : Disk) (app : Application) : Option (Disk × Application) :=
  match writeApplication writing dirPath app disk with
  | (some _, _) => none
  | (none, disk) =>
      match readApplication reading dirPath ((disk[dirPath]?).getD ∅) with
      | .ok (some app) => some (disk, app)
      | _ => none

def cycles : Nat → Disk → Application → Option (Disk × Application)
  | 0, disk, app => some (disk, app)
  | n + 1, disk, app =>
      match cycle writing reading dirPath disk app with
      | none => none
      | some (disk, app) => cycles n disk app

def configFileName (disk : Disk) : String :=
  (findApplicationConfigFile ((disk[dirPath]?).getD ∅)).getD "appcfg.json"

/-- What reading needs has reached the disk and can be opened, or would be the default. -/
structure Readable (disk : Disk) (app : Application) : Prop where
  config : unknown writing reading dirPath (configFileName dirPath disk) = false
  state : reading (.openToRead dirPath "state.json") = true → app.state = .Valid
  stateLost : reading (.openToRead dirPath "state.json") = false →
    writing (.flush dirPath "state.json") = true → app.state = .Invalid
  isFree : unknown writing reading dirPath "meta.json" = true → app.appMeta.isFree = false

variable {writing reading dirPath} {disk : Disk} {app : Application}

theorem cycle_of_accepts (haccepts : (writeApplication writing dirPath app disk).1 = none) :
    cycle writing reading dirPath disk app =
      match readApplication reading dirPath
        (written writing dirPath app ((disk[dirPath]?).getD ∅)) with
      | .ok (some app') => some (disk.insert dirPath
          (written writing dirPath app ((disk[dirPath]?).getD ∅)), app')
      | _ => none := by
  obtain ⟨result, disk', hwrite⟩ :
      ∃ result disk', writeApplication writing dirPath app disk = (result, disk') := ⟨_, _, rfl⟩
  rw [hwrite] at haccepts
  cases haccepts
  have hdisk := writeApplication_ok hwrite
  rw [cycle, hwrite]
  simp only [hdisk, QMap.getElem?_insert, if_true, Option.getD_some]

theorem cycle_eq (haccepts : (writeApplication writing dirPath app disk).1 = none)
    (hopen : unknown writing reading dirPath (configFileName dirPath disk) = false) :
    cycle writing reading dirPath disk app =
      some (disk.insert dirPath (written writing dirPath app ((disk[dirPath]?).getD ∅)),
        reread writing reading dirPath app) := by
  have hread : readApplication reading dirPath
      (written writing dirPath app ((disk[dirPath]?).getD ∅)) =
        .ok (some (reread writing reading dirPath app)) := readApplication_reread hopen
  rw [cycle_of_accepts haccepts, hread]

theorem cycle_unreadable (haccepts : (writeApplication writing dirPath app disk).1 = none)
    (hunknown : unknown writing reading dirPath (configFileName dirPath disk) = true) :
    cycle writing reading dirPath disk app = none := by
  have hinvalid : ¬ HasValidConfig reading dirPath
      (written writing dirPath app ((disk[dirPath]?).getD ∅)) := by
    rintro ⟨fileName, hfind, hopened, hvalid⟩
    obtain ⟨hfound, hjson⟩ := written_config writing dirPath app ((disk[dirPath]?).getD ∅)
    cases hfind.symm.trans hfound
    rw [hjson, Option.getD_some] at hvalid
    have hlost : writing (.flush dirPath (configFileName dirPath disk)) = true :=
      (Bool.or_eq_true_iff.mp hunknown).resolve_left (by simp [configFileName, hopened])
    have hempty : kept writing dirPath (configFileName dirPath disk) (configJson app.appMeta) =
        [] := if_pos hlost
    cases hempty.symm.trans (kept_valid hvalid)
  rw [cycle_of_accepts haccepts]
  rcases readApplication_invalid hinvalid with ⟨hread, -⟩ | ⟨hread, -⟩
  · rw [hread]
  · rw [hread]

theorem writeFiles_of_accepts
    (haccepts : (writeApplication writing dirPath app disk).1 = none) :
    (writeFiles writing dirPath app ((disk[dirPath]?).getD ∅)).1 = none := by
  unfold writeApplication at haccepts
  split at haccepts
  · rename_i dir hdir
    rw [hdir]
    exact haccepts
  · rename_i hdir
    rw [hdir]
    split at haccepts
    · cases haccepts
    · exact haccepts

/-- The same texts are written to the same files. -/
theorem writeApplication_again
    (haccepts : (writeApplication writing dirPath app disk).1 = none) :
    (writeApplication writing dirPath (app.inDirectory dirPath)
      (disk.insert dirPath (written writing dirPath app ((disk[dirPath]?).getD ∅)))).1 = none ∧
      configFileName dirPath
          (disk.insert dirPath (written writing dirPath app ((disk[dirPath]?).getD ∅))) =
        configFileName dirPath disk := by
  have hwrites := writeFiles_none_iff.mp (writeFiles_of_accepts haccepts)
  have hfind := (written_config writing dirPath app ((disk[dirPath]?).getD ∅)).1
  constructor
  · rw [writeApplication, QMap.getElem?_insert, if_pos rfl]
    simp only [writeFiles_none_iff, hfind, Option.getD_some]
    exact hwrites
  · rw [configFileName, QMap.getElem?_insert, if_pos rfl, Option.getD_some, hfind]
    rfl

end Cycles

section RoundTrip

variable [AbsoluteQDir] {writing reading : Failures} {dirPath : String} {disk : Disk}
  {app : Application}

def Application.AbsolutePaths (app : Application) : Prop :=
  AbsoluteQDir.isAbsolute app.appMeta.applicationExecutablePath = true ∧
    AbsoluteQDir.isAbsolute app.appMeta.catalogImageFilePath = true

theorem absoluteFilePath_eq_iff (dirPath path : String) :
    QDir.absoluteFilePath dirPath path = path ↔ AbsoluteQDir.isAbsolute path = true := by
  constructor
  · intro heq
    rw [← heq]
    exact AbsoluteQDir.isAbsolute_absoluteFilePath dirPath path
  · exact AbsoluteQDir.absoluteFilePath_absolute dirPath path

theorem reread_state_iff :
    (reread writing reading dirPath app).state = app.state ↔
      (reading (.openToRead dirPath "state.json") = true → app.state = .Valid) ∧
        (reading (.openToRead dirPath "state.json") = false →
          writing (.flush dirPath "state.json") = true → app.state = .Invalid) := by
  unfold reread
  cases reading (.openToRead dirPath "state.json") with
  | true => simpa using eq_comm
  | false =>
      cases writing (.flush dirPath "state.json") with
      | true => simpa using eq_comm
      | false => simp

theorem reread_isFree_iff :
    (reread writing reading dirPath app).appMeta.isFree = app.appMeta.isFree ↔
      (unknown writing reading dirPath "meta.json" = true → app.appMeta.isFree = false) := by
  unfold reread unknown
  cases reading (.openToRead dirPath "meta.json") with
  | true => simp
  | false =>
      cases writing (.flush dirPath "meta.json") with
      | true => simp
      | false => simp

theorem reread_iff
    (hopen : unknown writing reading dirPath (configFileName dirPath disk) = false) :
    (reread writing reading dirPath app).inDirectory dirPath = app.inDirectory dirPath ↔
      Readable writing reading dirPath disk app ∧ app.AbsolutePaths := by
  have hdefaults :
      ((reread writing reading dirPath app).appMeta.isFree = app.appMeta.isFree ∧
          (reread writing reading dirPath app).state = app.state) ↔
        Readable writing reading dirPath disk app := by
    rw [reread_isFree_iff, reread_state_iff]
    constructor
    · rintro ⟨hmeta, hstate, hlost⟩
      exact ⟨hopen, hstate, hlost, hmeta⟩
    · rintro ⟨-, hstate, hlost, hmeta⟩
      exact ⟨hmeta, hstate, hlost⟩
  rw [← hdefaults]
  simp only [reread, Application.inDirectory, Application.mk.injEq, ApplicationMeta.mk.injEq,
    absoluteFilePath_eq_iff, true_and, Application.AbsolutePaths]
  tauto

theorem cycles_keep {n : Nat} (haccepts : (writeApplication writing dirPath app disk).1 = none)
    (hreadable : Readable writing reading dirPath disk app) (habsolute : app.AbsolutePaths) :
    ∃ disk' app', cycles writing reading dirPath n disk app = some (disk', app') ∧
      app'.inDirectory dirPath = app.inDirectory dirPath := by
  induction n generalizing disk app with
  | zero => exact ⟨disk, app, rfl, rfl⟩
  | succ n ih =>
      have hread := (reread_iff hreadable.config).mpr ⟨hreadable, habsolute⟩
      have hsame : reread writing reading dirPath app = app.inDirectory dirPath := hread
      obtain ⟨haccepts', hname⟩ := writeApplication_again haccepts
      rw [cycles, cycle_eq haccepts hreadable.config, hsame]
      refine ih haccepts' ⟨?_, hreadable.state, hreadable.stateLost, hreadable.isFree⟩ habsolute
      rw [hname]
      exact hreadable.config

/--
However often an application is written and read again, it stays what it was, when
both of its paths are absolute and its files can be read.
-/
theorem cycles_keep_iff (haccepts : (writeApplication writing dirPath app disk).1 = none) :
    (∀ n, ∃ disk' app', cycles writing reading dirPath n disk app = some (disk', app') ∧
        app'.inDirectory dirPath = app.inDirectory dirPath) ↔
      Readable writing reading dirPath disk app ∧ app.AbsolutePaths := by
  constructor
  · intro hcycles
    obtain ⟨disk', app', hcycle, hsame⟩ := hcycles 1
    cases hopen : unknown writing reading dirPath (configFileName dirPath disk) with
    | true =>
        rw [cycles, cycle_unreadable haccepts hopen] at hcycle
        cases hcycle
    | false =>
        rw [cycles, cycle_eq haccepts hopen] at hcycle
        cases hcycle
        exact (reread_iff hopen).mp hsame
  · rintro ⟨hreadable, habsolute⟩ n
    exact cycles_keep haccepts hreadable habsolute

end RoundTrip

def installed : Application where
  appMeta := ⟨"chess", "Chess", "1", "a game", "", "/apps/chess-1/chess",
    "/apps/chess-1/chess.png", false, true⟩
  state := .Valid

theorem cycles_keep_installed :
    installed.AbsolutePaths ∧ ∀ n, ∃ disk' app',
      cycles (fun _ => false) (fun _ => false) "/apps/chess-1" n ∅ installed =
          some (disk', app') ∧
        app'.inDirectory "/apps/chess-1" = installed.inDirectory "/apps/chess-1" := by
  have habsolute : installed.AbsolutePaths := ⟨by decide +kernel, by decide +kernel⟩
  exact ⟨habsolute, (cycles_keep_iff (by decide +kernel)).mpr
    ⟨⟨rfl, nofun, fun _ => nofun, nofun⟩, habsolute⟩⟩

def downloadable : Application :=
  { installed with
    appMeta.catalogImageFilePath := "http://server/chess.png"
    state := .Downloading }

theorem downloadable_changed :
    ¬ ∀ (writing reading : Failures) (dirPath : String) (disk : Disk) (app : Application),
      (writeApplication writing dirPath app disk).1 = none →
      (∀ step, writing step = false ∧ reading step = false) →
      ∀ n, ∃ disk' app', cycles writing reading dirPath n disk app = some (disk', app') ∧
        app'.inDirectory dirPath = app.inDirectory dirPath := by
  intro h
  obtain ⟨disk', app', hcycle, hsame⟩ := h (fun _ => false) (fun _ => false) "/apps/chess-1" ∅
    downloadable (by decide +kernel) (fun _ => ⟨rfl, rfl⟩) 1
  have hchanged : (match cycles (fun _ => false) (fun _ => false) "/apps/chess-1" 1 ∅
      downloadable with
      | some (_, app) => app.appMeta.catalogImageFilePath ≠ "http://server/chess.png"
      | none => true) = true := by decide +kernel
  rw [hcycle] at hchanged
  have himage : app'.appMeta.catalogImageFilePath = "http://server/chess.png" :=
    congrArg (fun app => app.appMeta.catalogImageFilePath) hsame
  simp [himage] at hchanged

end GBerry.Comms.Storage
