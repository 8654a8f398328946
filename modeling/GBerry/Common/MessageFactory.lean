import GBerry.Common.Json

/-!
# The messages of the channel protocol

`PlayerMeta` and the messages that both ends build.  Each message is read back
by the other end as the object that was written.
-/

namespace GBerry.Common

structure PlayerMeta where
  pid : Int32
  name : String
  deriving DecidableEq

namespace PlayerMeta

def json (playerMeta : PlayerMeta) : JsonObject :=
  [("id", .number playerMeta.pid.toInt), ("name", .string playerMeta.name)]

def ofJson (metaJson : JsonObject) : PlayerMeta :=
  { pid := Int32.ofInt (JsonObject.value metaJson "id").toInt
    name := (JsonObject.value metaJson "name").toString }

theorem toInt_pid (pid : Int32) : (Json.number pid.toInt).toInt = pid.toInt := by
  have hlow := pid.le_toInt
  have hhigh := pid.toInt_lt
  simp only [Json.toInt, Rat.den_intCast, Rat.num_intCast, true_and]
  exact if_pos ⟨hlow, hhigh⟩

@[simp] theorem ofJson_json (playerMeta : PlayerMeta) :
    ofJson playerMeta.json = playerMeta := by
  have hpid : JsonObject.value playerMeta.json "id" =
      .number playerMeta.pid.toInt := rfl
  have hname : JsonObject.value playerMeta.json "name" =
      .string playerMeta.name := rfl
  simp only [ofJson, hpid, hname, toInt_pid, Int32.ofInt_toInt, Json.toString]

theorem normal_json (playerMeta : PlayerMeta) :
    JsonObject.Normal playerMeta.json := by
  have hkeys : (["id", "name"] : List String).Pairwise (· < ·) := by decide
  refine .object hkeys ?_
  intro f hf
  simp only [json, List.mem_cons, List.not_mem_nil, or_false] at hf
  rcases hf with rfl | rfl
  · have hlow := playerMeta.pid.le_toInt
    have hhigh := playerMeta.pid.toInt_lt
    exact .number _ (by omega)
  · exact .string _

end PlayerMeta

namespace MessageFactory

def createSimpleCommandJson (cmdName : String) : JsonObject :=
  [("command", .string cmdName)]

def createOpenChannelCommandJson (playerMeta : PlayerMeta) : JsonObject :=
  [("command", .string "OpenChannel"), ("player_metadata", .object playerMeta.json)]

def createPlayerMessageJson (data : String) : JsonObject :=
  [("command", .string "PlayerMessage"), ("data", .string data)]

/-- The reply of an anonymous application has no code. -/
def createPingReplyJson (applicationIdCode : String) : JsonObject :=
  if applicationIdCode = "" then createSimpleCommandJson "PingReply"
  else [("application_code", .string applicationIdCode),
    ("command", .string "PingReply")]

variable {β : Type} [QByteArray β]

def createSimpleCommand (cmdName : String) : β :=
  QByteArray.toJson (createSimpleCommandJson cmdName)

def createOpenChannelCommand (playerMeta : PlayerMeta) : β :=
  QByteArray.toJson (createOpenChannelCommandJson playerMeta)

def createPlayerMessage (data : String) : β :=
  QByteArray.toJson (createPlayerMessageJson data)

def createPingReply (applicationIdCode : String) : β :=
  QByteArray.toJson (createPingReplyJson applicationIdCode)

theorem normal_singleton (key s : String) :
    JsonObject.Normal [(key, .string s)] := by
  refine .object (by simp) ?_
  intro f hf
  obtain rfl := List.mem_singleton.mp hf
  exact .string s

theorem normal_pair {key key' : String} {v v' : Json} (hkey : key < key')
    (hv : v.Normal) (hv' : v'.Normal) :
    JsonObject.Normal [(key, v), (key', v')] := by
  refine .object (by simpa using hkey) ?_
  intro f hf
  simp only [List.mem_cons, List.not_mem_nil, or_false] at hf
  rcases hf with rfl | rfl
  · exact hv
  · exact hv'

@[simp] theorem fromJson_createSimpleCommand (cmdName : String) :
    QByteArray.fromJson (createSimpleCommand cmdName : β) =
      some (createSimpleCommandJson cmdName) :=
  QByteArray.fromJson_toJson _ (normal_singleton "command" cmdName)

@[simp] theorem fromJson_createOpenChannelCommand (playerMeta : PlayerMeta) :
    QByteArray.fromJson (createOpenChannelCommand playerMeta : β) =
      some (createOpenChannelCommandJson playerMeta) :=
  QByteArray.fromJson_toJson _
    (normal_pair (by decide) (.string _) playerMeta.normal_json)

@[simp] theorem fromJson_createPlayerMessage (data : String) :
    QByteArray.fromJson (createPlayerMessage data : β) =
      some (createPlayerMessageJson data) :=
  QByteArray.fromJson_toJson _ (normal_pair (by decide) (.string _) (.string _))

@[simp] theorem fromJson_createPingReply (applicationIdCode : String) :
    QByteArray.fromJson (createPingReply applicationIdCode : β) =
      some (createPingReplyJson applicationIdCode) := by
  refine QByteArray.fromJson_toJson _ ?_
  unfold createPingReplyJson
  split
  · exact normal_singleton "command" "PingReply"
  · exact normal_pair (by decide) (.string _) (.string _)

end MessageFactory

def isCommand {β : Type} [QByteArray β] (name : String) (msg : β) : Bool :=
  match QByteArray.fromJson msg with
  | none => false
  | some json => JsonObject.isCommand json name

section

variable {β : Type} [QByteArray β]

open MessageFactory

@[simp] theorem isCommand_createSimpleCommand (name cmdName : String) :
    isCommand name (createSimpleCommand cmdName : β) = (cmdName == name) := by
  simp [isCommand, createSimpleCommandJson, JsonObject.isCommand_cons_command]

@[simp] theorem isCommand_createOpenChannelCommand (name : String)
    (playerMeta : PlayerMeta) :
    isCommand name (createOpenChannelCommand playerMeta : β) =
      ("OpenChannel" == name) := by
  simp [isCommand, createOpenChannelCommandJson,
    JsonObject.isCommand_cons_command]

@[simp] theorem isCommand_createPlayerMessage (name data : String) :
    isCommand name (createPlayerMessage data : β) = ("PlayerMessage" == name) := by
  simp [isCommand, createPlayerMessageJson, JsonObject.isCommand_cons_command]

end

end GBerry.Common
