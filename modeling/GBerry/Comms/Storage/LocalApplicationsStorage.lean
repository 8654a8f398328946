import GBerry.Foundation.Execution
import GBerry.Comms.Storage.ApplicationConfigReaderWriter

/-!
# `LocalApplicationsStorage`

The storage keeps its list of applications, the directories of the applications, and
the `LocalApplications` that are connected to it in step.  Every operation that looks an
application up does so in a `LocalApplications` of its own, which reads the directories
when nothing did before, and is connected as long as the operation takes.
-/

namespace GBerry.Comms.Storage

open GBerry.Common
open GBerry.Foundation

/-- The steps that fail, when the directories are first read and afterwards. -/
structure Attempt where
  firstReading : Failures
  failures : Failures

abbrev LocalApplications := QMap String Application

inductive StorageError where
  | ApplicationExists
  | ApplicationNotExists
  | ApplicationDirExists
  | ApplicationDeletionFailed
  | ApplicationRefreshFailed
  | FailedToCreateApplicationDirectory
  | ApplicationConfigurationWritingFailed
  | UpdateErrorApplicationNotExists
  deriving DecidableEq

structure LocalApplicationsStorage where
  /-- An entry may be a null pointer. -/
  apps : List (Option Application)
  appsReadFirstTime : Bool
  /-- Those that are connected to `applicationsUpdated`. -/
  views : List LocalApplications
  disk : Disk

section Entries

def index : List (Option Application) → LocalApplications → Except Fault LocalApplications
  | [], indexed => .ok indexed
  | none :: _, _ => .error .nullApplication
  | some app :: rest, indexed => index rest (indexed.insert app.id app)

def removeEntry (id : String) :
    List (Option Application) → Except Fault (List (Option Application))
  | [] => .ok []
  | none :: _ => .error .nullApplication
  | some app :: rest =>
      if app.id = id then .ok rest
      else
        match removeEntry id rest with
        | .error fault => .error fault
        | .ok left => .ok (some app :: left)

def findEntry (id : String) :
    Nat → List (Option Application) → Except Fault (Option (Nat × Application))
  | _, [] => .ok none
  | _, none :: _ => .error .nullApplication
  | i, some app :: rest =>
      if app.id = id then .ok (some (i, app)) else findEntry id (i + 1) rest

end Entries

section Disk

variable [QDir]

def readDirectories (failures : Failures) (disk : Disk) :
    List String → Except Fault (List Application)
  | [] => .ok []
  | dirPath :: rest =>
      match readApplication failures dirPath ((disk[dirPath]?).getD ∅) with
      | .error fault => .error fault
      | .ok app =>
          match readDirectories failures disk rest with
          | .error fault => .error fault
          | .ok apps => .ok (app.toList ++ apps)

def readApplications (appsDir : String) (failures : Failures) (disk : Disk) :
    Except Fault (List Application) :=
  readDirectories failures disk (entryList (QDir.isEntry appsDir) disk.keys)

omit [QDir] in
/-- `QDir::removeRecursively`, which has nothing to do when there is no directory. -/
def removeRecursively (failures : Failures) (dirPath : String) (disk : Disk) : Bool × Disk :=
  match disk[dirPath]? with
  | none => (true, disk)
  | some dir =>
      let left := dir.filter fun fileName _ => failures (.remove dirPath fileName)
      if left.isEmpty && !failures (.rmdir dirPath) then (true, disk.erase dirPath)
      else (false, disk.insert dirPath left)

end Disk

namespace LocalApplicationsStorage

def start (disk : Disk) : LocalApplicationsStorage where
  apps := []
  appsReadFirstTime := false
  views := []
  disk := disk

variable [QDir] (appsDir : String)

def applications (failures : Failures) (s : LocalApplicationsStorage) :
    Except Fault LocalApplicationsStorage :=
  if s.appsReadFirstTime then .ok s
  else
    match readApplications appsDir failures s.disk with
    | .error fault => .error fault
    | .ok apps => .ok { s with apps := s.apps ++ apps.map some, appsReadFirstTime := true }

/-- The new `LocalApplications` is the last one that is connected. -/
def localApplications (failures : Failures) (s : LocalApplicationsStorage) :
    Except Fault (LocalApplications × LocalApplicationsStorage) :=
  match s.applications appsDir failures with
  | .error fault => .error fault
  | .ok s =>
      match index s.apps ∅ with
      | .error fault => .error fault
      | .ok indexed => .ok (indexed, { s with views := s.views ++ [indexed] })

/-- An operation is over, and the `LocalApplications` that it made is gone. -/
def done (s : LocalApplicationsStorage) : LocalApplicationsStorage :=
  { s with views := s.views.dropLast }

def applicationsUpdated (failures : Failures) (s : LocalApplicationsStorage) :
    Except Fault LocalApplicationsStorage :=
  match s.views with
  | [] => .ok s
  | _ :: _ =>
      match s.applications appsDir failures with
      | .error fault => .error fault
      | .ok s =>
          match index s.apps ∅ with
          | .error fault => .error fault
          | .ok indexed => .ok { s with views := s.views.map fun _ => indexed }

def succeeded (failures : Failures) (s : LocalApplicationsStorage) :
    Except Fault (Result StorageError × LocalApplicationsStorage) :=
  match s.applicationsUpdated appsDir failures with
  | .error fault => .error fault
  | .ok s => .ok (none, s)

def withLocalApplications (failures : Failures)
    (operation : LocalApplications → LocalApplicationsStorage →
      Except Fault (Result StorageError × LocalApplicationsStorage))
    (s : LocalApplicationsStorage) :
    Except Fault (Result StorageError × LocalApplicationsStorage) :=
  match s.localApplications appsDir failures with
  | .error fault => .error fault
  | .ok (applications, s) =>
      match operation applications s with
      | .error fault => .error fault
      | .ok (result, s) => .ok (result, s.done)

variable (attempt : Attempt)

def updateApplication (application : Application) :
    LocalApplicationsStorage → Except Fault (Result StorageError × LocalApplicationsStorage) :=
  withLocalApplications appsDir attempt.firstReading fun applications s =>
    match applications[application.id]? with
    | none =>
        .ok (some (.UpdateErrorApplicationNotExists,
          "Can't add update because application with id " ++ application.id ++
            " does not exists."), s)
    | some existingApp =>
        let dirPath := existingApp.appMeta.applicationDirPath
        match writeApplication attempt.failures dirPath application s.disk with
        | (some (_, errorString), disk) =>
            .ok (some (.ApplicationConfigurationWritingFailed,
              "Failed to write application configuration to disk: " ++ errorString),
              { s with disk := disk })
        | (none, disk) =>
            match readApplication attempt.failures dirPath ((disk[dirPath]?).getD ∅) with
            | .error fault => .error fault
            | .ok none => succeeded appsDir attempt.firstReading { s with disk := disk }
            | .ok (some app) =>
                match removeEntry app.id s.apps with
                | .error fault => .error fault
                | .ok apps =>
                    succeeded appsDir attempt.firstReading
                      { s with disk := disk, apps := apps ++ [some app] }

def refreshApplication (applicationFullId : String) (s : LocalApplicationsStorage) :
    Except Fault (Result StorageError × LocalApplicationsStorage) :=
  match findEntry applicationFullId 0 s.apps with
  | .error fault => .error fault
  | .ok none =>
      .ok (some (.ApplicationRefreshFailed,
        "Refresh failed as application not found: id = " ++ applicationFullId), s)
  | .ok (some (i, app)) =>
      let dirPath := app.appMeta.applicationDirPath
      match readApplication attempt.failures dirPath ((s.disk[dirPath]?).getD ∅) with
      | .error fault => .error fault
      | .ok none =>
          .ok (some (.ApplicationRefreshFailed,
            "Failed to reread application from " ++ dirPath), s)
      | .ok (some newApp) =>
          succeeded appsDir attempt.firstReading { s with apps := s.apps.set i (some newApp) }

/-- Whether the default configuration was deleted. -/
def pruneApplication (application : Application) (s : LocalApplicationsStorage) :
    Except Fault (Bool × LocalApplicationsStorage) :=
  let dirPath := application.appMeta.applicationDirPath
  let dir := (s.disk[dirPath]?).getD ∅
  let cfgFiles := entryList isConfigFile dir.keys
  if cfgFiles.length ≤ 1 then .ok (false, s)
  else if "appcfg.json" ∈ cfgFiles ∧ ¬ attempt.failures (.remove dirPath "appcfg.json") then
    match applicationsUpdated appsDir attempt.firstReading
        { s with disk := s.disk.insert dirPath (dir.erase "appcfg.json") } with
    | .error fault => .error fault
    | .ok s => .ok (true, s)
  else .ok (false, s)

def deleteApplication (application : Application) :
    LocalApplicationsStorage → Except Fault (Result StorageError × LocalApplicationsStorage) :=
  withLocalApplications appsDir attempt.firstReading fun applications s =>
    if application.id ∉ applications then
      .ok (some (.ApplicationNotExists,
        "Can't delete applicaiton " ++ application.id ++ " as it does not exist."), s)
    else
      match removeEntry application.id s.apps with
      | .error fault => .error fault
      | .ok apps =>
          let dirPath := QDir.filePath appsDir application.id
          match removeRecursively attempt.failures dirPath s.disk with
          | (false, disk) =>
              .ok (some (.ApplicationDeletionFailed,
                "Failed to delete diretory " ++ dirPath ++ "."),
                { s with apps := apps, disk := disk })
          | (true, disk) =>
              succeeded appsDir attempt.firstReading { s with apps := apps, disk := disk }

def addApplication (application : Application) :
    LocalApplicationsStorage → Except Fault (Result StorageError × LocalApplicationsStorage) :=
  withLocalApplications appsDir attempt.firstReading fun applications s =>
    if application.id ∈ applications then
      .ok (some (.ApplicationExists,
        "Can't add application because application with id " ++ application.id ++
          " already exists."), s)
    else
      let dirPath := QDir.filePath appsDir application.id
      if dirPath ∈ s.disk then
        .ok (some (.ApplicationDirExists,
          "Application directory " ++ dirPath ++ " already exists"), s)
      else if attempt.failures (.mkpath dirPath) then
        .ok (some (.FailedToCreateApplicationDirectory,
          "Failed to create application directory " ++ dirPath), s)
      else
        match writeApplication attempt.failures dirPath application
            (s.disk.insert dirPath ∅) with
        | (some (_, errorString), disk) =>
            .ok (some (.ApplicationConfigurationWritingFailed,
              "Failed to write application configuration to disk: " ++ errorString),
              { s with disk := disk })
        | (none, disk) =>
            match readApplication attempt.failures dirPath ((disk[dirPath]?).getD ∅) with
            | .error fault => .error fault
            | .ok app =>
                succeeded appsDir attempt.firstReading
                  { s with disk := disk, apps := s.apps ++ [app] }

end LocalApplicationsStorage

/-- What is done with the storage, or to the disk behind its back. -/
inductive StorageEvent where
  | applications (attempt : Attempt)
  | localApplications (attempt : Attempt)
  /-- A `LocalApplications` is gone. -/
  | disconnected (view : Nat)
  | updateApplication (attempt : Attempt) (application : Application)
  | refreshApplication (attempt : Attempt) (applicationFullId : String)
  | pruneApplication (attempt : Attempt) (application : Application)
  | deleteApplication (attempt : Attempt) (application : Application)
  | addApplication (attempt : Attempt) (application : Application)
  | changed (dirPath : String) (dir : Option Directory)

inductive StorageAnswer where
  | result (result : Result StorageError)
  | pruned (deleted : Bool)

namespace LocalApplicationsStorage

variable [QDir] (appsDir : String)

def answered : Except Fault (Result StorageError × LocalApplicationsStorage) →
    Except Fault (LocalApplicationsStorage × List StorageAnswer)
  | .error fault => .error fault
  | .ok (result, s) => .ok (s, [.result result])

def step (s : LocalApplicationsStorage) :
    StorageEvent → Except Fault (LocalApplicationsStorage × List StorageAnswer)
  | .applications attempt =>
      match s.applications appsDir attempt.firstReading with
      | .error fault => .error fault
      | .ok s => .ok (s, [])
  | .localApplications attempt =>
      match s.localApplications appsDir attempt.firstReading with
      | .error fault => .error fault
      | .ok (_, s) => .ok (s, [])
  | .disconnected view => .ok ({ s with views := s.views.eraseIdx view }, [])
  | .updateApplication attempt application =>
      answered (s.updateApplication appsDir attempt application)
  | .refreshApplication attempt applicationFullId =>
      answered (s.refreshApplication appsDir attempt applicationFullId)
  | .pruneApplication attempt application =>
      match s.pruneApplication appsDir attempt application with
      | .error fault => .error fault
      | .ok (deleted, s) => .ok (s, [.pruned deleted])
  | .deleteApplication attempt application =>
      answered (s.deleteApplication appsDir attempt application)
  | .addApplication attempt application =>
      answered (s.addApplication appsDir attempt application)
  | .changed dirPath dir =>
      .ok ({ s with disk :=
        match dir with
        | some dir => s.disk.insert dirPath dir
        | none => s.disk.erase dirPath }, [])

def machine (disk : Disk) :
    Machine LocalApplicationsStorage StorageEvent StorageAnswer Fault where
  init := start disk
  step := step appsDir

abbrev History := List (Step LocalApplicationsStorage StorageEvent StorageAnswer)

end LocalApplicationsStorage

end GBerry.Comms.Storage
