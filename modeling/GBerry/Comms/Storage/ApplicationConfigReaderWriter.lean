import Mathlib.Data.List.Sort
import GBerry.Common.Json
import GBerry.Common.Paths
import GBerry.Common.QMap

/-!
# `ApplicationConfigReaderWriter`

The files of an application directory.  A disk maps the paths of directories to their
files, and a file to the object of its document, which is empty when it has none.  Each
step on the disk may fail; what fails is given to every operation.
-/

namespace GBerry.Comms.Storage

open GBerry.Common

/-- What Qt decides about paths, entries and texts. -/
class QDir where
  filePath : String → String → String
  absoluteFilePath : String → String → String
  /-- Whether `entryList` lists the path among the directories of the directory. -/
  isEntry : String → String → Bool
  before : String → String → Bool
  /-- The number of bytes of `QJsonDocument::toJson`. -/
  textSize : JsonObject → Nat

/-- `absoluteFilePath` makes a path absolute, and leaves one that is absolute as it is. -/
class AbsoluteQDir extends QDir where
  isAbsolute : String → Bool
  absoluteFilePath_absolute : ∀ dirPath name, isAbsolute name = true →
    absoluteFilePath dirPath name = name
  isAbsolute_absoluteFilePath : ∀ dirPath name,
    isAbsolute (absoluteFilePath dirPath name) = true

/-- The entry is not hidden, and there is nothing between it and the directory. -/
def isListed (dirPath path : String) : Bool :=
  let name := path.toList.drop (dirPath.length + 1)
  (dirPath ++ "/").toList.isPrefixOf path.toList && !name.isEmpty && !name.contains '/' &&
    name.head? ≠ some '.'

/-- The text of a flat object, whose members stand in lines of their own. -/
def flatTextSize (json : JsonObject) : Nat :=
  3 + (json.map fun (key, value) => key.utf8ByteSize + 10 +
    match value with
    | .string text => text.utf8ByteSize + 2
    | .bool true => 4
    | .bool false => 5
    | _ => 0).sum

/-- Relative paths are looked for from the top. -/
instance : AbsoluteQDir where
  filePath := Path.filePath
  absoluteFilePath dirPath name :=
    Path.filePath (if Path.isAbsolutePath dirPath then dirPath else "/" ++ dirPath) name
  isEntry := isListed
  before a b := a < b
  textSize := flatTextSize
  isAbsolute := Path.isAbsolutePath
  absoluteFilePath_absolute _ _ h := Path.filePath_absolute h
  isAbsolute_absoluteFilePath dirPath name := by
    refine Path.isAbsolutePath_filePath ?_ name
    split
    · assumption
    · exact Path.isAbsolutePath_append rfl dirPath

abbrev Directory := QMap String JsonObject

abbrev Disk := QMap String Directory

inductive DiskStep where
  | mkpath (dirPath : String)
  | rmdir (dirPath : String)
  | openToRead (dirPath fileName : String)
  | openToWrite (dirPath fileName : String)
  | write (dirPath fileName : String)
  /-- The text that was written reaches the disk, at the latest when the file is closed. -/
  | flush (dirPath fileName : String)
  | remove (dirPath fileName : String)

abbrev Failures := DiskStep → Bool

inductive ApplicationState where
  | Valid
  | Invalid
  | Downloading
  deriving DecidableEq

structure ApplicationMeta where
  applicationId : String
  name : String
  version : String
  description : String
  applicationDirPath : String
  applicationExecutablePath : String
  catalogImageFilePath : String
  isSystemApp : Bool
  isFree : Bool
  deriving DecidableEq

structure Application where
  appMeta : ApplicationMeta
  state : ApplicationState
  deriving DecidableEq

def Application.id (app : Application) : String :=
  app.appMeta.applicationId ++ "-" ++ app.appMeta.version

inductive Fault where
  | nullApplication
  deriving DecidableEq

inductive MemberType where
  | string
  | boolean

def MemberType.describes : MemberType → Json → Bool
  | .string, .string _ => true
  | .boolean, .bool _ => true
  | _, _ => false

def MemberType.text : MemberType → String
  | .string => "string"
  | .boolean => "boolean"

/-- `JsonStringMemberValidator` and `JsonBooleanMemberValidator`. -/
structure JsonMemberValidator where
  memberType : MemberType
  name : String
  optional : Bool

def JsonMemberValidator.validate (validator : JsonMemberValidator) (json : JsonObject) :
    List String :=
  if !validator.optional && !JsonObject.contains json validator.name then
    ["Json object doesn't have member '" ++ validator.name ++ "'"]
  else if JsonObject.contains json validator.name &&
      !validator.memberType.describes (JsonObject.value json validator.name) then
    ["Json object member '" ++ validator.name ++ "' is not " ++ validator.memberType.text ++
      " type"]
  else []

abbrev JsonDefinition := List JsonMemberValidator

def JsonDefinition.validate (definition : JsonDefinition) (json : JsonObject) : List String :=
  definition.flatMap fun validator => validator.validate json

def applicationConfigDefinition : JsonDefinition :=
  [⟨.string, "id", false⟩, ⟨.string, "description", false⟩, ⟨.string, "name", false⟩,
    ⟨.string, "catalog_image", true⟩, ⟨.string, "application_exe", true⟩,
    ⟨.string, "developer_comments", true⟩, ⟨.boolean, "system_app", true⟩]

def applicationStateDefinition : JsonDefinition := [⟨.string, "state", false⟩]

/--
The name filter `*appcfg.json`, which does not look at case.  Files whose names start
with a dot are hidden, and not listed.
-/
def isConfigFile (fileName : String) : Bool :=
  "appcfg.json".toList.isSuffixOf (fileName.toList.map Char.toLower) &&
    fileName.toList.head? ≠ some '.'

section Reading

variable [QDir] (failures : Failures) (dirPath : String)

def entryList (filter : String → Bool) (entries : List String) : List String :=
  (entries.filter filter).insertionSort fun a b => QDir.before a b = true

def findApplicationConfigFile (dir : Directory) : Option String :=
  (entryList isConfigFile dir.keys).head?

def readApplicationConfig (fileName : String) (json : JsonObject) : Option Application :=
  if failures (.openToRead dirPath fileName) then none
  else if applicationConfigDefinition.validate json ≠ [] then none
  else
    let readStr key := (JsonObject.value json key).toString
    some {
      appMeta := {
        applicationId := readStr "id"
        name := readStr "name"
        version := readStr "version"
        description := readStr "description"
        applicationDirPath := dirPath
        applicationExecutablePath :=
          QDir.absoluteFilePath dirPath
            (readStr (if JsonObject.contains json "application_exe" then "application_exe"
              else "id"))
        catalogImageFilePath :=
          if JsonObject.contains json "catalog_image" then
            QDir.absoluteFilePath dirPath (readStr "catalog_image")
          else ""
        isSystemApp := (JsonObject.value json "system_app").toBool
        isFree := false }
      state := .Valid }

/-- The application is used without asking whether there is one. -/
def changed (change : Application → Application) :
    Option Application → Except Fault (Option Application)
  | some app => .ok (some (change app))
  | none => .error .nullApplication

def stateOf (json : JsonObject) : ApplicationState :=
  if applicationStateDefinition.validate json ≠ [] then .Invalid
  else
    match (JsonObject.value json "state").toString with
    | "valid" => .Valid
    | "downloading" => .Downloading
    -- so is a state that is unknown
    | _ => .Invalid

def readApplicationState (dir : Directory) (app : Option Application) :
    Except Fault (Option Application) :=
  match dir["state.json"]? with
  | none => changed (fun app => { app with state := .Valid }) app
  | some json =>
      if failures (.openToRead dirPath "state.json") then .ok app
      else changed (fun app => { app with state := stateOf json }) app

def readApplicationMeta (dir : Directory) (app : Option Application) :
    Except Fault (Option Application) :=
  match dir["meta.json"]? with
  | none => changed (fun app => { app with appMeta.isFree := true }) app
  | some json =>
      if failures (.openToRead dirPath "meta.json") then .ok app
      else
        changed (fun app => { app with
          appMeta.isFree := (JsonObject.value json "is_free").toBool }) app

def readApplication (dir : Directory) : Except Fault (Option Application) :=
  match findApplicationConfigFile dir with
  | none => .ok none
  | some fileName =>
      match readApplicationState failures dirPath dir
          (readApplicationConfig failures dirPath fileName ((dir[fileName]?).getD [])) with
      | .error fault => .error fault
      | .ok app => readApplicationMeta failures dirPath dir app

end Reading

/-- What `Result::record` keeps: an error and its text, or none. -/
abbrev Result (ε : Type) := Option (ε × String)

inductive WriteError where
  | FileNotWritable
  | FileWriteFailed
  | InvalidJsonContent
  | ApplicationDirCreationFailed
  deriving DecidableEq

section Writing

variable [QDir] (failures : Failures) (dirPath : String)

def QFILE_WRITEBUFFER_SIZE : Nat := 16384

/-- A file that is opened for writing is empty until something is written. -/
def writeJson (definition : JsonDefinition) (invalidText fileName : String)
    (json : JsonObject) (dir : Directory) : Result WriteError × Directory :=
  if failures (.openToWrite dirPath fileName) then
    (some (.FileNotWritable, "Failed to open " ++ QDir.filePath dirPath fileName), dir)
  else if definition.validate json ≠ [] then
    (some (.InvalidJsonContent,
      invalidText ++ String.intercalate ", " (definition.validate json)),
      dir.insert fileName [])
  -- a text that fits into the buffer of the file is not written before the file is closed
  else if QFILE_WRITEBUFFER_SIZE < QDir.textSize json ∧ failures (.write dirPath fileName) then
    (some (.FileWriteFailed,
      "Writing to file " ++ QDir.filePath dirPath fileName ++ " failed"),
      dir.insert fileName [])
  -- and nobody asks whether all of it has reached the disk then
  else if failures (.flush dirPath fileName) then (none, dir.insert fileName [])
  else (none, dir.insert fileName json)

def configJson (appMeta : ApplicationMeta) : JsonObject :=
  [("application_exe", .string appMeta.applicationExecutablePath),
    ("catalog_image", .string appMeta.catalogImageFilePath),
    ("description", .string appMeta.description), ("id", .string appMeta.applicationId),
    ("name", .string appMeta.name), ("system_app", .bool appMeta.isSystemApp),
    ("version", .string appMeta.version)]

def stateJson (state : ApplicationState) : JsonObject :=
  [("state", .string (match state with
    | .Valid => "valid"
    | .Invalid => "invalid"
    | .Downloading => "downloading"))]

def writeApplicationConfig (fileName : String) (app : Application) :
    Directory → Result WriteError × Directory :=
  writeJson failures dirPath applicationConfigDefinition
    "Created configuration is not valid. Aborted writing. Validation errors: "
    fileName (configJson app.appMeta)

def writeApplicationState (app : Application) :
    Directory → Result WriteError × Directory :=
  writeJson failures dirPath applicationStateDefinition
    "Created state configuration is not valid. Aborted writing. Validation errors: "
    "state.json" (stateJson app.state)

def writeApplicationMeta (app : Application) : Directory → Result WriteError × Directory :=
  writeJson failures dirPath [] "" "meta.json" [("is_free", .bool app.appMeta.isFree)]

def writeFiles (app : Application) (dir : Directory) : Result WriteError × Directory :=
  let fileName := (findApplicationConfigFile dir).getD "appcfg.json"
  match writeApplicationConfig failures dirPath fileName app dir with
  | (some error, dir) => (some error, dir)
  | (none, dir) =>
      let (stateResult, dir) := writeApplicationState failures dirPath app dir
      let (metaResult, dir) := writeApplicationMeta failures dirPath app dir
      -- the error that is recorded last stays
      (metaResult <|> stateResult, dir)

def writeApplication (app : Application) (disk : Disk) : Result WriteError × Disk :=
  match disk[dirPath]? with
  | some dir =>
      let (result, dir) := writeFiles failures dirPath app dir
      (result, disk.insert dirPath dir)
  | none =>
      if failures (.mkpath dirPath) then
        (some (.ApplicationDirCreationFailed, "Failed to create " ++ dirPath), disk)
      else
        let (result, dir) := writeFiles failures dirPath app ∅
        (result, disk.insert dirPath dir)

end Writing

section Configuration

variable {app' : Application} {entry : Option Application}

def configId (json : JsonObject) : String :=
  (JsonObject.value json "id").toString ++ "-" ++ (JsonObject.value json "version").toString

theorem validate_configJson (appMeta : ApplicationMeta) :
    applicationConfigDefinition.validate (configJson appMeta) = [] := rfl

theorem validate_stateJson (state : ApplicationState) :
    applicationStateDefinition.validate (stateJson state) = [] := rfl

theorem stateOf_stateJson (state : ApplicationState) : stateOf (stateJson state) = state := by
  cases state <;> rfl

theorem changed_ok {change : Application → Application}
    (h : changed change entry = .ok (some app')) (hid : ∀ app, (change app).id = app.id)
    (hpath : ∀ app,
      (change app).appMeta.applicationDirPath = app.appMeta.applicationDirPath) :
    ∃ app, entry = some app ∧ app'.id = app.id ∧
      app'.appMeta.applicationDirPath = app.appMeta.applicationDirPath := by
  cases entry with
  | none => cases h
  | some app =>
      cases h
      exact ⟨app, rfl, hid app, hpath app⟩

end Configuration

section RoundTrip

variable [QDir] {failures : Failures} {dirPath fileName : String} {dir dir' : Directory}
  {json : JsonObject} {app app' : Application} {entry : Option Application}

theorem readApplicationConfig_some
    (h : readApplicationConfig failures dirPath fileName json = some app) :
    applicationConfigDefinition.validate json = [] ∧ app.id = configId json ∧
      app.appMeta.applicationDirPath = dirPath := by
  unfold readApplicationConfig at h
  split at h
  · cases h
  split at h
  · cases h
  · rename_i hvalid
    cases h
    exact ⟨not_not.mp hvalid, rfl, rfl⟩

omit [QDir] in
theorem readApplicationState_ok
    (h : readApplicationState failures dirPath dir entry = .ok (some app')) :
    ∃ app, entry = some app ∧ app'.id = app.id ∧
      app'.appMeta.applicationDirPath = app.appMeta.applicationDirPath := by
  unfold readApplicationState at h
  split at h
  · exact changed_ok h (fun _ => rfl) (fun _ => rfl)
  split at h
  · cases h
    exact ⟨app', rfl, rfl, rfl⟩
  · exact changed_ok h (fun _ => rfl) (fun _ => rfl)

omit [QDir] in
theorem readApplicationMeta_ok
    (h : readApplicationMeta failures dirPath dir entry = .ok (some app')) :
    ∃ app, entry = some app ∧ app'.id = app.id ∧
      app'.appMeta.applicationDirPath = app.appMeta.applicationDirPath := by
  unfold readApplicationMeta at h
  split at h
  · exact changed_ok h (fun _ => rfl) (fun _ => rfl)
  split at h
  · cases h
    exact ⟨app', rfl, rfl, rfl⟩
  · exact changed_ok h (fun _ => rfl) (fun _ => rfl)

/-- An application is the one that the configuration file of its directory describes. -/
theorem readApplication_some (h : readApplication failures dirPath dir = .ok (some app)) :
    ∃ fileName, findApplicationConfigFile dir = some fileName ∧
      applicationConfigDefinition.validate ((dir[fileName]?).getD []) = [] ∧
      app.id = configId ((dir[fileName]?).getD []) ∧
      app.appMeta.applicationDirPath = dirPath := by
  unfold readApplication at h
  split at h
  · cases h
  rename_i fileName hfind
  split at h
  · cases h
  rename_i entry hstate
  obtain ⟨read, rfl, hid, hpath⟩ := readApplicationMeta_ok h
  obtain ⟨config, hconfig, hid', hpath'⟩ := readApplicationState_ok hstate
  obtain ⟨hvalid, hid'', hpath''⟩ := readApplicationConfig_some hconfig
  exact ⟨fileName, hfind, hvalid, hid.trans (hid'.trans hid''),
    hpath.trans (hpath'.trans hpath'')⟩

omit [QDir] in
def kept (failures : Failures) (dirPath fileName : String) (json : JsonObject) : JsonObject :=
  if failures (.flush dirPath fileName) then [] else json

theorem writeJson_ok {definition : JsonDefinition} {invalidText : String}
    (h : (writeJson failures dirPath definition invalidText fileName json dir).1 = none) :
    (writeJson failures dirPath definition invalidText fileName json dir).2 =
      dir.insert fileName (kept failures dirPath fileName json) := by
  unfold writeJson at h ⊢
  split at h
  · cases h
  split at h
  · cases h
  split at h
  · cases h
  · rename_i hopen hvalid hwrite
    rw [if_neg hopen, if_neg hvalid, if_neg hwrite, kept]
    split <;> rfl

/-- Nothing that is seen goes wrong when the text is written. -/
def CanWrite (failures : Failures) (dirPath fileName : String) (json : JsonObject) : Prop :=
  failures (.openToWrite dirPath fileName) = false ∧
    (QFILE_WRITEBUFFER_SIZE < QDir.textSize json →
      failures (.write dirPath fileName) = false)

theorem writeJson_none_iff {definition : JsonDefinition} {invalidText : String}
    (hvalid : definition.validate json = []) :
    (writeJson failures dirPath definition invalidText fileName json dir).1 = none ↔
      CanWrite failures dirPath fileName json := by
  have hwritten : (if failures (.flush dirPath fileName) then
      ((none, dir.insert fileName []) : Result WriteError × Directory)
      else (none, dir.insert fileName json)).1 = none := by
    split <;> rfl
  unfold writeJson CanWrite
  by_cases hopen : failures (.openToWrite dirPath fileName) = true
  · simp [hopen]
  rw [if_neg hopen, if_neg (not_not.mpr hvalid), and_iff_right (Bool.eq_false_of_not_eq_true hopen)]
  split
  · rename_i hwrite
    simp [hwrite]
  · rename_i hwrite
    rw [not_and, Bool.not_eq_true] at hwrite
    exact iff_of_true hwritten hwrite

theorem mem_entryList {filter : String → Bool} {entries : List String} {name : String} :
    name ∈ entryList filter entries ↔ name ∈ entries ∧ filter name = true := by
  rw [entryList, List.mem_insertionSort, List.mem_filter]

theorem findApplicationConfigFile_some (h : findApplicationConfigFile dir = some fileName) :
    fileName ∈ dir ∧ isConfigFile fileName = true := by
  have hmem := mem_entryList.mp (List.mem_of_mem_head? h)
  exact ⟨Std.ExtTreeMap.mem_keys.mp hmem.1, hmem.2⟩

theorem findApplicationConfigFile_none (h : findApplicationConfigFile dir = none)
    (hconfig : isConfigFile fileName = true) : fileName ∉ dir := by
  intro hmem
  have hlisted := mem_entryList.mpr ⟨Std.ExtTreeMap.mem_keys.mpr hmem, hconfig⟩
  rw [List.head?_eq_none_iff.mp h] at hlisted
  cases hlisted

theorem findApplicationConfigFile_congr
    (h : ∀ name, isConfigFile name = true → (name ∈ dir' ↔ name ∈ dir)) :
    findApplicationConfigFile dir' = findApplicationConfigFile dir := by
  simp only [findApplicationConfigFile, entryList, QMap.keys_filter_congr h]

theorem findApplicationConfigFile_written (h : ∀ name, isConfigFile name = true →
      (name ∈ dir' ↔ name = (findApplicationConfigFile dir).getD "appcfg.json" ∨ name ∈ dir)) :
    findApplicationConfigFile dir' =
      some ((findApplicationConfigFile dir).getD "appcfg.json") := by
  cases hfind : findApplicationConfigFile dir with
  | some fileName =>
      have hmem := (findApplicationConfigFile_some hfind).1
      simp only [hfind, Option.getD_some] at h ⊢
      rw [← hfind]
      refine findApplicationConfigFile_congr fun name hconfig => (h name hconfig).trans ?_
      constructor
      · rintro (rfl | hold)
        · exact hmem
        · exact hold
      · exact .inr
  | none =>
      simp only [hfind, Option.getD_none] at h ⊢
      have hnew : "appcfg.json" ∈ dir' := (h _ (by decide)).mpr (.inl rfl)
      cases hfind' : findApplicationConfigFile dir' with
      | none => exact absurd hnew (findApplicationConfigFile_none hfind' (by decide))
      | some fileName =>
          obtain ⟨hmem, hconfig⟩ := findApplicationConfigFile_some hfind'
          rcases (h fileName hconfig).mp hmem with rfl | hold
          · rfl
          · exact absurd hold (findApplicationConfigFile_none hfind hconfig)

def written (failures : Failures) (dirPath : String) (app : Application) (dir : Directory) :
    Directory :=
  let fileName := (findApplicationConfigFile dir).getD "appcfg.json"
  ((dir.insert fileName (kept failures dirPath fileName (configJson app.appMeta))).insert
      "state.json" (kept failures dirPath "state.json" (stateJson app.state))).insert
    "meta.json" (kept failures dirPath "meta.json" [("is_free", .bool app.appMeta.isFree)])

theorem configFile_isConfigFile (dir : Directory) :
    isConfigFile ((findApplicationConfigFile dir).getD "appcfg.json") = true := by
  cases hfind : findApplicationConfigFile dir with
  | none => decide
  | some fileName => exact (findApplicationConfigFile_some hfind).2

theorem written_config (failures : Failures) (dirPath : String) (app : Application)
    (dir : Directory) :
    findApplicationConfigFile (written failures dirPath app dir) =
        some ((findApplicationConfigFile dir).getD "appcfg.json") ∧
      (written failures dirPath app dir)[(findApplicationConfigFile dir).getD "appcfg.json"]? =
        some (kept failures dirPath ((findApplicationConfigFile dir).getD "appcfg.json")
          (configJson app.appMeta)) := by
  have hne (name : String) (hconfig : isConfigFile name = true) :
      name ≠ "state.json" ∧ name ≠ "meta.json" := by
    constructor <;> (rintro rfl; exact absurd hconfig (by decide))
  constructor
  · refine findApplicationConfigFile_written fun name hconfig => ?_
    obtain ⟨hstate, hmeta⟩ := hne name hconfig
    rw [written, QMap.mem_insert_iff, QMap.mem_insert_iff, QMap.mem_insert_iff]
    exact (or_iff_right hmeta).trans (or_iff_right hstate)
  · obtain ⟨hstate, hmeta⟩ := hne _ (configFile_isConfigFile dir)
    rw [written, QMap.getElem?_insert, if_neg hmeta, QMap.getElem?_insert, if_neg hstate,
      QMap.getElem?_insert, if_pos rfl]

theorem writeFiles_ok (h : (writeFiles failures dirPath app dir).1 = none) :
    (writeFiles failures dirPath app dir).2 = written failures dirPath app dir := by
  unfold writeFiles at h ⊢
  simp only at h ⊢
  split at h
  · cases h
  rename_i configured hconfig
  simp only [Option.orElse_eq_none] at h
  obtain ⟨hmeta, hstate⟩ := h
  have hconfigured : configured =
      dir.insert ((findApplicationConfigFile dir).getD "appcfg.json")
        (kept failures dirPath ((findApplicationConfigFile dir).getD "appcfg.json")
          (configJson app.appMeta)) := by
    have hwritten := writeJson_ok (congrArg Prod.fst hconfig)
    exact (congrArg Prod.snd hconfig).symm.trans hwritten
  rw [writeApplicationMeta, writeJson_ok hmeta, writeApplicationState, writeJson_ok hstate,
    hconfigured]
  rfl

theorem writeApplicationConfig_none_iff :
    (writeApplicationConfig failures dirPath fileName app dir).1 = none ↔
      CanWrite failures dirPath fileName (configJson app.appMeta) :=
  writeJson_none_iff (validate_configJson app.appMeta)

theorem writeFiles_none_iff : (writeFiles failures dirPath app dir).1 = none ↔
    CanWrite failures dirPath ((findApplicationConfigFile dir).getD "appcfg.json")
        (configJson app.appMeta) ∧
      CanWrite failures dirPath "state.json" (stateJson app.state) ∧
      CanWrite failures dirPath "meta.json" [("is_free", .bool app.appMeta.isFree)] := by
  unfold writeFiles
  simp only
  split
  · rename_i error configured hconfig
    refine iff_of_false (by simp) ?_
    rintro ⟨hwrites, -⟩
    have hfails := congrArg Prod.fst hconfig
    rw [writeApplicationConfig_none_iff.mpr hwrites] at hfails
    cases hfails
  · rename_i configured hconfig
    have hwrites := writeApplicationConfig_none_iff.mp (congrArg Prod.fst hconfig)
    simp only [Option.orElse_eq_none]
    rw [and_comm, and_iff_right hwrites]
    exact and_congr (writeJson_none_iff (validate_stateJson app.state))
      (writeJson_none_iff rfl)

theorem writeApplication_ok {disk disk' : Disk}
    (h : writeApplication failures dirPath app disk = (none, disk')) :
    disk' = disk.insert dirPath (written failures dirPath app ((disk[dirPath]?).getD ∅)) := by
  unfold writeApplication at h
  split at h
  · rename_i dir hdir
    simp only [Prod.mk.injEq] at h
    rw [← h.2, hdir, Option.getD_some, writeFiles_ok h.1]
  · rename_i hdir
    split at h
    · cases h
    · simp only [Prod.mk.injEq] at h
      rw [← h.2, hdir, Option.getD_none, writeFiles_ok h.1]

def newFiles (app : Application) : List (String × JsonObject) :=
  [("appcfg.json", configJson app.appMeta), ("state.json", stateJson app.state),
    ("meta.json", [("is_free", .bool app.appMeta.isFree)])]

theorem writeApplication_new_none_iff {disk : Disk} :
    (writeApplication failures dirPath app (disk.insert dirPath ∅)).1 = none ↔
      ∀ file ∈ newFiles app, CanWrite failures dirPath file.1 file.2 := by
  have hdefault : findApplicationConfigFile (∅ : Directory) = none := by
    cases hfind : findApplicationConfigFile (∅ : Directory) with
    | none => rfl
    | some fileName =>
        exact absurd (findApplicationConfigFile_some hfind).1 Std.ExtTreeMap.not_mem_empty
  unfold writeApplication
  rw [QMap.getElem?_insert, if_pos rfl]
  simp only
  rw [writeFiles_none_iff, hdefault]
  simp [newFiles]

theorem mem_writeApplication {disk : Disk} (h : dirPath ∈ disk) (path : String) :
    path ∈ (writeApplication failures dirPath app disk).2 ↔ path ∈ disk := by
  obtain ⟨dir, hdir⟩ := (QMap.mem_iff _ _).mp h
  simp only [writeApplication, hdir]
  rw [QMap.mem_insert_iff]
  refine or_iff_right_of_imp ?_
  rintro rfl
  exact h

omit [QDir] in
theorem kept_valid
    (h : applicationConfigDefinition.validate
      (kept failures dirPath fileName (configJson app.appMeta)) = []) :
    kept failures dirPath fileName (configJson app.appMeta) = configJson app.appMeta := by
  unfold kept at h ⊢
  split
  · rename_i hlost
    rw [if_pos hlost] at h
    cases h
  · rfl

theorem readApplication_written {reading : Failures}
    (h : readApplication reading dirPath (written failures dirPath app dir) =
      .ok (some app')) :
    app'.id = app.id ∧ app'.appMeta.applicationDirPath = dirPath := by
  obtain ⟨fileName, hfind, hvalid, hid, hpath⟩ := readApplication_some h
  obtain ⟨hfound, hjson⟩ := written_config failures dirPath app dir
  cases hfind.symm.trans hfound
  rw [hjson, Option.getD_some] at hvalid
  rw [hjson, Option.getD_some, kept_valid hvalid] at hid
  exact ⟨hid, hpath⟩

end RoundTrip

end GBerry.Comms.Storage
