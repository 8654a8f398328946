import GBerry.Server.ChannelManager.PlayerMessages

/-!
# Messages that are not the manager's own

The manager and its channels send messages with a few commands of their own.  A
message with any other command is the response of a registered command, or is
given to `sendJsonMessageToSouth`.
-/

namespace GBerry.Server

open GBerry.Common

def ownCommands : List String :=
  ["Ping", "PingReply", "Activate", "Deactivate", "OpenChannel", "CloseChannel",
    "PlayerMessage"]

def NeverAnswers (β : Type) [QByteArray β] (name : String) (cmd : ICommand) : Prop :=
  ∀ json, isCommand name (QByteArray.toJson (cmd.process json).2 : β) = false

namespace ServerChannelManager

open ServerSideControlChannel (CHANNEL_ID)

variable {β : Type} [QByteArray β] {name : String} {m m' : ServerChannelManager}
  {op : ServerOp β} {out : List (Signal β)}

theorem unsaid_own {command : String} (hname : name ∉ ownCommands)
    (hcommand : command ∈ ownCommands) :
    isCommand name (MessageFactory.createSimpleCommand command : β) = false := by
  have hne : command ≠ name := by
    rintro rfl
    exact hname hcommand
  simpa using hne

section Commands

def NeverAnswered (β : Type) [QByteArray β] (name : String) (commands : CommandTable) :
    Prop :=
  ∀ (id : String) (cmd : ICommand), commands[id]? = some cmd → NeverAnswers β name cmd

variable {commands : CommandTable}

theorem NeverAnswered.register {cmd : ICommand} (h : NeverAnswered β name commands)
    (hcmd : NeverAnswers β name cmd) : NeverAnswered β name (registerCommand commands cmd) := by
  intro id cmd' hcmd'
  rw [registerCommand, QMap.getElem?_insert] at hcmd'
  split at hcmd'
  · cases hcmd'
    exact hcmd
  · exact h id cmd' hcmd'

theorem NeverAnswered.registerAll {registered : List ICommand}
    (h : NeverAnswered β name commands)
    (hall : ∀ cmd ∈ registered, NeverAnswers β name cmd) :
    NeverAnswered β name (registered.foldl registerCommand commands) := by
  induction registered generalizing commands with
  | nil => exact h
  | cons cmd registered ih =>
      have hcmd := hall cmd List.mem_cons_self
      apply ih (h.register hcmd)
      intro cmd' hmem
      exact hall cmd' (List.mem_cons_of_mem _ hmem)

theorem isCommand_empty : isCommand name (QByteArray.toJson [] : β) = false := by
  have hempty : JsonObject.Normal [] := .object .nil (by simp)
  simp [isCommand, QByteArray.fromJson_toJson [] hempty, JsonObject.isCommand,
    JsonObject.contains]

theorem neverAnswers_silent {cmd : ICommand} (h : ∀ json, (cmd.process json).2 = []) :
    NeverAnswers β name cmd := by
  intro json
  rw [h json]
  exact isCommand_empty

theorem neverAnswered_create {registered : List ICommand} (hname : name ∉ ownCommands)
    (hall : ∀ cmd ∈ registered, NeverAnswers β name cmd) :
    NeverAnswered β name (ServerSideControlChannel.create registered).commands := by
  have hnone : NeverAnswered β name ∅ := by
    intro id cmd hcmd
    simp at hcmd
  have hping : NeverAnswers β name PingCommand := by
    intro json
    simp only [PingCommand]
    split
    · exact unsaid_own hname (show "PingReply" ∈ ownCommands by decide)
    · exact isCommand_empty
  have hreply : NeverAnswers β name PingReply := neverAnswers_silent fun _ => rfl
  exact ((hnone.register hping).register hreply).registerAll hall

end Commands

def NeverAnswering (β : Type) [QByteArray β] (name : String) (m : ServerChannelManager) :
    Prop :=
  ∀ (c : Int) (ch : ServerSideControlChannel),
    m.controlChannels[c]? = some ch → NeverAnswered β name ch.commands

theorem Effect.neverAnswering (h : Effect m op m' out) (hname : name ∉ ownCommands)
    (hm : NeverAnswering β name m)
    (hop : ∀ (c : Nat) (commands : List ICommand), op = .openControlChannel c commands →
      ∀ cmd ∈ commands, NeverAnswers β name cmd) : NeverAnswering β name m' := by
  have herase {m : ServerChannelManager} (hm : NeverAnswering β name m) (c : Int) :
      NeverAnswering β name (m.withoutControl c) := by
    intro c' ch hch
    rw [withoutControl, QMap.getElem?_erase] at hch
    split at hch
    · cases hch
    · exact hm c' ch hch
  cases h with
  | registered c commands =>
      intro c' ch hch
      rw [openControlChannel, QMap.getElem?_insert] at hch
      split at hch
      · cases hch
        exact neverAnswered_create hname (hop c commands rfl)
      · exact hm c' ch hch
  | @unregistered c _ _ => exact herase hm c
  | activated _ =>
      intro c' ch hch
      simp only [reopenPlayerChannels, withActive_controlChannels] at hch
      exact hm c' ch hch
  | @disconnected c _ => exact herase (m := m.closePlayerChannels) hm c
  | _ => exact hm

section Messages

def Unsaid (name : String) (out : List (Signal β)) : Prop :=
  ∀ message, .outgoingMessageToSouth message ∈ out → isCommand name message.msg = false

theorem unsaid_nil : Unsaid name ([] : List (Signal β)) := by
  intro message hmem
  cases hmem

theorem Unsaid.append {out' : List (Signal β)} (h : Unsaid name out)
    (h' : Unsaid name out') : Unsaid name (out ++ out') := by
  intro message hmem
  cases List.mem_append.mp hmem with
  | inl hleft => exact h message hleft
  | inr hright => exact h' message hright

theorem unsaid_emitCommand {command : String} (hname : name ∉ ownCommands)
    (hcommand : command ∈ ownCommands) (c : Int) :
    Unsaid name [m.emitCommand (β := β) c command] := by
  intro message hmem
  cases List.mem_singleton.mp hmem
  exact unsaid_own hname hcommand

theorem unsaid_controlCalls {calls : List (ChannelCall β)}
    (h : ∀ partner msg, .channelSendMessageToSouth partner msg ∈ calls →
      isCommand name msg = false) : Unsaid name (calls.flatMap m.controlCall) := by
  intro message hmem
  obtain ⟨call, hcall, hsent⟩ := List.mem_flatMap.mp hmem
  cases call with
  | channelSendMessageToSouth partner msg =>
      cases List.mem_singleton.mp hsent
      exact h partner msg hcall
  | _ => cases hsent

theorem unsaid_playerCalls {calls : List (ChannelCall β)}
    (h : ∀ partner msg, .channelSendMessageToSouth partner msg ∈ calls →
      isCommand name msg = false) : Unsaid name (calls.flatMap m.playerCall) := by
  intro message hmem
  obtain ⟨partner, hcall⟩ := playerCalls_message hmem
  exact h partner message.msg hcall

theorem unsaid_announce (hname : name ∉ ownCommands) (k : Int)
    (ch : ServerSidePlayerChannel) : Unsaid name (m.announce (β := β) k ch) := by
  intro message hmem
  obtain ⟨-, -, hmsg⟩ := announce_message hmem
  have hne : "OpenChannel" ≠ name := by
    rintro rfl
    exact hname (by decide)
  simpa [hmsg] using hne

theorem unsaid_reopen (hname : name ∉ ownCommands) (hm : m.Valid) :
    Unsaid name (m.reopenPlayerChannels (β := β)).2 := by
  intro message hmem
  obtain ⟨ch, -, -, hmsg⟩ := reopenPlayerChannels_message hm hmem
  have hne : "OpenChannel" ≠ name := by
    rintro rfl
    exact hname (by decide)
  simpa [hmsg] using hne

theorem unsaid_close (hname : name ∉ ownCommands) (c k : Int) (opened : Bool) :
    Unsaid name
      (if opened then m.sendCloseChannelMessageToSouth (β := β) c k else []) := by
  split
  · intro message hmem
    cases List.mem_singleton.mp hmem
    exact unsaid_own hname (by decide)
  · exact unsaid_nil

theorem processJsonMessage_unsaid {commands : CommandTable} {southPartner : Option Int}
    {json : JsonObject} (h : NeverAnswered β name commands) {partner : Int} {msg : β}
    (hmem : .channelSendMessageToSouth partner msg ∈
      (Channel.processJsonMessage commands southPartner json).2) :
    isCommand name msg = false := by
  unfold Channel.processJsonMessage at hmem
  split at hmem
  · split at hmem
    · rename_i cmd partner' hcmd
      simp only at hmem
      split at hmem
      · cases List.mem_singleton.mp hmem
        exact h _ cmd hcmd json
      · cases hmem
    · cases hmem
    · cases hmem
  · cases hmem

theorem Effect.unsaid (h : Effect m op m' out) (hm : m.Valid) (hname : name ∉ ownCommands)
    (hanswers : NeverAnswering β name m)
    (hop : ∀ (c : Nat) (json : JsonObject), op = .sendJsonMessageToSouth c json →
      isCommand name (QByteArray.toJson json : β) = false) : Unsaid name out := by
  cases h with
  | ignored _ => exact unsaid_nil
  | drawn => exact unsaid_nil
  | joined _ _ => exact unsaid_announce hname _ _
  | northAttached _ => exact unsaid_nil
  | registered _ _ => exact unsaid_nil
  | left _ => exact unsaid_close hname _ _ _
  | unregistered _ => exact unsaid_close hname _ _ _
  | @activated c hc =>
      have hdisplaced : Unsaid name (if m.activeConnectionId = -1 then []
          else [m.emitCommand (β := β) m.activeConnectionId "Deactivate"]) := by
        split
        · exact unsaid_nil
        · exact unsaid_emitCommand hname (by decide) _
      have hactivated : Unsaid name [(m.withActive c).emitCommand (β := β) c "Activate"] :=
        unsaid_emitCommand hname (by decide) c
      exact hdisplaced.append (hactivated.append (unsaid_reopen hname (hm.withActive hc)))
  | deactivated _ _ => exact unsaid_emitCommand hname (by decide) _
  | disconnected _ => exact unsaid_nil
  | @controlMessage c msg ch hch =>
      apply unsaid_controlCalls
      intro partner text hmem
      unfold ServerSideControlChannel.receiveMessageFromSouth at hmem
      split at hmem
      · cases hmem
      · exact processJsonMessage_unsaid (hanswers c ch hch) hmem
  | @playerMessage c k msg ch _ _ _ =>
      apply unsaid_playerCalls
      intro partner text hmem
      exact absurd hmem (receiveMessageFromSouth_calls ch msg partner text)
  | northMessage _ =>
      apply unsaid_playerCalls
      intro partner text hmem
      rw [receivePlayerMessageFromNorth_calls _ _ hmem, isCommand_createPlayerMessage]
      have hne : "PlayerMessage" ≠ name := by
        rintro rfl
        exact hname (by decide)
      simpa using hne
  | @pinged c ch _ =>
      apply unsaid_controlCalls
      intro partner text hmem
      unfold ServerSideControlChannel.pingSouth at hmem
      split at hmem
      · split at hmem
        · cases List.mem_singleton.mp hmem
          exact unsaid_own hname (by decide)
        · cases hmem
      · cases hmem
  | @answered c json ch _ =>
      apply unsaid_controlCalls
      intro partner text hmem
      unfold ServerSideControlChannel.sendJsonMessageToSouth at hmem
      split at hmem
      · cases List.mem_singleton.mp hmem
        exact hop c json rfl
      · cases hmem

end Messages

end ServerChannelManager

end GBerry.Server
