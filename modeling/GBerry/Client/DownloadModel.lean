import GBerry.Client.DownloadableGamesModel

/-!
# `DownloadModel` and its communication

The model keeps the applications whose downloads were started, once for every
call, until a reply of the server ends a download.
-/

namespace GBerry.Client

open GBerry.Common

inductive DownloadNotice where
  | downloadStarted (applicationFullId : String)
  | downloadAborted (applicationFullId : String)
  | downloadFinished (applicationFullId : String)
  | downloadProgress (applicationFullId : String) (progressPercentage : Int)
  deriving DecidableEq

namespace DownloadApplicationReply

def COMMAND : String := "DownloadApplicationReply"

def process (json : JsonObject) : Bool × List DownloadNotice :=
  let applicationFullId := (json.value "application_id").toString
  let result := (json.value "result").toString
  if result = "ok" then (true, [.downloadFinished applicationFullId])
  else if result = "failure" then (true, [.downloadAborted applicationFullId])
  else if result = "status" then
    let status := (json.value "status").toString
    if status = "started" then (true, [.downloadStarted applicationFullId])
    else if status = "progress" then
      (true, [.downloadProgress applicationFullId (json.value "progress_percentage").toInt])
    else (false, [])
  else (false, [])

end DownloadApplicationReply

def DownloadModelCommunication.processMessage (json : JsonObject) : List DownloadNotice :=
  if json.isCommand DownloadApplicationReply.COMMAND then
    (DownloadApplicationReply.process json).2
  else []

theorem DownloadModelCommunication.processMessage_cases (json : JsonObject) :
    processMessage json = [] ∨ ∃ notice, processMessage json = [notice] := by
  unfold processMessage
  split
  · simp only [DownloadApplicationReply.process]
    repeat' split
    all_goals simp
  · exact .inl rfl

inductive DownloadModelSignal where
  | downloadInitiated (applicationFullId : String)
  | downloadStarted (applicationFullId : String)
  | downloadAborted (applicationFullId : String)
  | downloadFinished (applicationFullId : String)
  | downloadProgress (applicationFullId : String) (progressPercentage : Int)
  deriving DecidableEq

structure DownloadModel where
  ongoingDownloads : List String

namespace DownloadModel

def startMessage (activePlayerModel : ActivePlayerModel) (applicationFullId : String) :
    JsonObject :=
  ("application_id", .string applicationFullId) ::
    ("command", .string "DownloadApplication") ::
    if activePlayerModel.hasActivePlayer then
      [("player_id", .number activePlayerModel.activePlayerId)]
    else []

def startDownload (m : DownloadModel) (activePlayerModel : ActivePlayerModel)
    (applicationFullId : String) : DownloadModel × JsonObject × List DownloadModelSignal :=
  ({ m with ongoingDownloads := m.ongoingDownloads ++ [applicationFullId] },
    startMessage activePlayerModel applicationFullId,
    [.downloadInitiated applicationFullId])

def cancelMessage (applicationFullId : String) : JsonObject :=
  [("application_id", .string applicationFullId),
    ("command", .string "CancelDownloadApplication")]

def onNotice (m : DownloadModel) : DownloadNotice → DownloadModel × DownloadModelSignal
  | .downloadStarted applicationFullId => (m, .downloadStarted applicationFullId)
  | .downloadAborted applicationFullId =>
      ({ m with ongoingDownloads := m.ongoingDownloads.erase applicationFullId },
        .downloadAborted applicationFullId)
  | .downloadFinished applicationFullId =>
      ({ m with ongoingDownloads := m.ongoingDownloads.erase applicationFullId },
        .downloadFinished applicationFullId)
  | .downloadProgress applicationFullId progressPercentage =>
      (m, .downloadProgress applicationFullId progressPercentage)

def onNotices (m : DownloadModel) :
    List DownloadNotice → DownloadModel × List DownloadModelSignal
  | [] => (m, [])
  | notice :: rest =>
      let (m, signal) := m.onNotice notice
      let (m, signals) := m.onNotices rest
      (m, signal :: signals)

end DownloadModel

end GBerry.Client
