import GBerry.Protocol.Links
import GBerry.Protocol.Invariant

/-!
# What makes an application active

An application follows the last `Activate` or `Deactivate` that it received.
What one step of the server sends to a connection is compared here with what the
step does to the active connection.
-/

namespace GBerry.Protocol

open GBerry.Common
open GBerry.Foundation
open GBerry.Server
open GBerry.Client
open ClientChannelManager (ROOT_CHANNEL)
open ServerSideControlChannel (CHANNEL_ID)

variable {β : Type} [QByteArray β]

def steer (activated : Bool) (frame : Frame β) : Bool :=
  if frame.1 = ROOT_CHANNEL then
    if isCommand "Activate" frame.2 then true
    else if isCommand "Deactivate" frame.2 then false
    else activated
  else activated

def activatedAfter (activated : Bool) (frames : List (Frame β)) : Bool :=
  frames.foldl steer activated

section Frames

variable {activated : Bool} {frames frames' : List (Frame β)}

theorem steer_steady {frame : Frame β} (h : steers frame.2 = false) :
    steer activated frame = activated := by
  simp only [steers, Bool.or_eq_false_iff] at h
  simp [steer, h.1, h.2]

theorem activatedAfter_append :
    activatedAfter activated (frames ++ frames') =
      activatedAfter (activatedAfter activated frames) frames' :=
  List.foldl_append

theorem activatedAfter_steady (h : ∀ frame ∈ frames, steers frame.2 = false) :
    activatedAfter activated frames = activated := by
  induction frames generalizing activated with
  | nil => rfl
  | cons frame frames ih =>
      have hhere : steer activated frame = activated :=
        steer_steady (h frame List.mem_cons_self)
      have hothers : ∀ frame ∈ frames, steers frame.2 = false := by
        intro frame hmem
        exact h frame (List.mem_cons_of_mem _ hmem)
      calc activatedAfter activated (frame :: frames)
          = activatedAfter (steer activated frame) frames := rfl
        _ = activatedAfter activated frames := by rw [hhere]
        _ = activated := ih hothers

@[simp] theorem steers_createSimpleCommand (command : String) :
    steers (MessageFactory.createSimpleCommand command : β) =
      (command == "Activate" || command == "Deactivate") := by
  simp [steers]

@[simp] theorem steers_createOpenChannelCommand (playerMeta : PlayerMeta) :
    steers (MessageFactory.createOpenChannelCommand playerMeta : β) = false := by
  simp [steers]

@[simp] theorem steers_createPlayerMessage (data : String) :
    steers (MessageFactory.createPlayerMessage data : β) = false := by
  simp [steers]

end Frames

section Client

variable {m : ClientChannelManager} {k : Int} {msg : β}

omit [QByteArray β] in
theorem performAll_controlChannel (calls : List (ClientCall β)) :
    (m.performAll calls).1.controlChannel = m.controlChannel := by
  induction calls generalizing m with
  | nil => rfl
  | cons call calls ih =>
      simp only [ClientChannelManager.performAll]
      rw [ih]
      cases call <;> rfl

theorem receiveMessage_activated (ch : ClientSideControlChannel) :
    (ch.receiveMessage msg).1.activated = steer ch.activated (ROOT_CHANNEL, msg) := by
  unfold ClientSideControlChannel.receiveMessage
  cases hjson : QByteArray.fromJson msg with
  | none => simp [steer, isCommand, hjson]
  | some json =>
      simp only [steer, isCommand, hjson, if_true]
      by_cases hcommand : JsonObject.contains json "command" = true
      · simp only [hcommand, Bool.not_true, Bool.false_eq_true, if_false]
        split
        · rename_i hping
          have hactivate : JsonObject.isCommand json "Activate" = false :=
            JsonObject.isCommand_other hping (by decide)
          have hdeactivate : JsonObject.isCommand json "Deactivate" = false :=
            JsonObject.isCommand_other hping (by decide)
          simp only [hactivate, hdeactivate]
          split <;> rfl
        split
        · rename_i hreply
          have hactivate : JsonObject.isCommand json "Activate" = false :=
            JsonObject.isCommand_other hreply (by decide)
          have hdeactivate : JsonObject.isCommand json "Deactivate" = false :=
            JsonObject.isCommand_other hreply (by decide)
          simp [hactivate, hdeactivate]
        split
        · rfl
        split <;> rfl
      · have hnone (name : String) : JsonObject.isCommand json name = false := by
          simp [JsonObject.isCommand, hcommand]
        simp [hcommand, hnone]

theorem processMessage_controlChannel (hm : m.controlChannel.isSome) :
    (m.processMessage k msg).1.controlChannel.isSome := by
  unfold ClientChannelManager.processMessage
  split
  · split
    · simp [performAll_controlChannel]
    · exact hm
  · split
    · unfold ClientChannelManager.openPlayerChannel
      repeat' split
      all_goals exact hm
    · rw [performAll_controlChannel]
      exact hm

theorem processMessage_isActivated (hm : m.controlChannel.isSome) :
    (m.processMessage k msg).1.isActivated = steer m.isActivated (k, msg) := by
  by_cases hroot : k = ROOT_CHANNEL
  · subst hroot
    obtain ⟨ch, hch⟩ := Option.isSome_iff_exists.mp hm
    simp only [ClientChannelManager.processMessage, if_true, hch,
      ClientChannelManager.isActivated, performAll_controlChannel]
    exact receiveMessage_activated ch
  · simp only [ClientChannelManager.processMessage, hroot, if_false, steer]
    split
    · unfold ClientChannelManager.openPlayerChannel
      repeat' split
      all_goals rfl
    · simp only [ClientChannelManager.isActivated, performAll_controlChannel]

omit [QByteArray β] in
theorem connectionBroken_eq {channel : ClientSideControlChannel}
    (hm : m.controlChannel = some channel) :
    (m.connectionBroken (β := β)).1.controlChannel =
      some { channel with connected := false } := by
  have hclosed : (m.closeAllPlayerChannels (β := β)).1.controlChannel = some channel :=
    (performAll_controlChannel _).trans hm
  simp [ClientChannelManager.connectionBroken, hclosed, performAll_controlChannel,
    ClientSideControlChannel.connectionBroken]

def Rooted (m : ClientChannelManager) : Prop :=
  ∀ ch, m.controlChannel = some ch → ch.partner = some ROOT_CHANNEL

theorem receiveMessage_partner (ch : ClientSideControlChannel) (text : β) :
    (ch.receiveMessage text).1.partner = ch.partner := by
  unfold ClientSideControlChannel.receiveMessage
  repeat' split
  all_goals rfl

theorem Rooted.processMessage (hm : Rooted m) (k : Int) (msg : β) :
    Rooted (m.processMessage k msg).1 := by
  unfold ClientChannelManager.processMessage
  split
  · split
    · rename_i channel hchannel
      intro ch hch
      rw [performAll_controlChannel] at hch
      cases hch
      rw [receiveMessage_partner]
      exact hm channel hchannel
    · exact hm
  · split
    · unfold ClientChannelManager.openPlayerChannel
      repeat' split
      all_goals exact hm
    · intro ch hch
      rw [performAll_controlChannel] at hch
      exact hm ch hch

omit [QByteArray β] in
theorem Rooted.connectionBroken (hm : Rooted m) :
    Rooted (m.connectionBroken (β := β)).1 := by
  cases hchannel : m.controlChannel with
  | none =>
      have hclosed : (m.closeAllPlayerChannels (β := β)).1.controlChannel = none :=
        (performAll_controlChannel _).trans hchannel
      intro ch hch
      simp [ClientChannelManager.connectionBroken, hclosed] at hch
  | some channel =>
      intro ch hch
      rw [connectionBroken_eq hchannel] at hch
      cases hch
      exact hm channel hchannel

end Client

section Server

open ServerChannelManager (Effect)

variable {m m' : ServerChannelManager} {op : ServerOp β} {out : List (Signal β)}

def SteadyCommands (β : Type) [QByteArray β] (commands : CommandTable) : Prop :=
  ∀ (id : String) (cmd : ICommand), commands[id]? = some cmd → SteadyCommand β cmd

def SteadyServer (β : Type) [QByteArray β] (m : ServerChannelManager) : Prop :=
  ∀ (c : Int) (ch : ServerSideControlChannel),
    m.controlChannels[c]? = some ch → SteadyCommands β ch.commands

theorem SteadyCommands.register {commands : CommandTable} {cmd : ICommand}
    (h : SteadyCommands β commands) (hcmd : SteadyCommand β cmd) :
    SteadyCommands β (registerCommand commands cmd) := by
  intro id cmd' hcmd'
  rw [registerCommand, QMap.getElem?_insert] at hcmd'
  split at hcmd'
  · cases hcmd'
    exact hcmd
  · exact h id cmd' hcmd'

theorem SteadyCommands.registerAll {table : CommandTable} {commands : List ICommand}
    (h : SteadyCommands β table) (hcommands : ∀ cmd ∈ commands, SteadyCommand β cmd) :
    SteadyCommands β (commands.foldl registerCommand table) := by
  induction commands generalizing table with
  | nil => exact h
  | cons cmd commands ih =>
      apply ih (h.register (hcommands cmd List.mem_cons_self))
      intro cmd' hmem
      exact hcommands cmd' (List.mem_cons_of_mem _ hmem)

theorem steers_createPingReply :
    steers (QByteArray.toJson (MessageFactory.createPingReplyJson "") : β) = false :=
  steers_createSimpleCommand "PingReply"

theorem steers_empty : steers (QByteArray.toJson [] : β) = false := by
  have hempty : JsonObject.Normal [] := .object .nil (by simp)
  simp [steers, isCommand, QByteArray.fromJson_toJson [] hempty, JsonObject.isCommand,
    JsonObject.contains]

theorem steady_create {commands : List ICommand}
    (hcommands : ∀ cmd ∈ commands, SteadyCommand β cmd) :
    SteadyCommands β (ServerSideControlChannel.create commands).commands := by
  have hnone : SteadyCommands β ∅ := by
    intro id cmd hcmd
    simp at hcmd
  have hping : SteadyCommand β PingCommand := by
    intro json
    simp only [PingCommand]
    split
    · exact steers_createPingReply
    · exact steers_empty
  have hreply : SteadyCommand β PingReply := fun _ => steers_empty
  exact ((hnone.register hping).register hreply).registerAll hcommands

theorem processJsonMessage_steady {commands : CommandTable} {southPartner : Option Int}
    {json : JsonObject} (h : SteadyCommands β commands) {partner : Int} {msg : β}
    (hmem : .channelSendMessageToSouth partner msg ∈
      (Channel.processJsonMessage commands southPartner json).2) :
    steers msg = false := by
  unfold Channel.processJsonMessage at hmem
  split at hmem
  · split at hmem
    · rename_i cmd partner' hcmd
      simp only at hmem
      split at hmem
      · cases List.mem_singleton.mp hmem
        exact h _ cmd hcmd json
      · cases hmem
    · cases hmem
    · cases hmem
  · cases hmem

theorem steadyServer_effect (h : Effect m op m' out) (hm : SteadyServer β m)
    (hop : ∀ (c : Nat) (commands : List ICommand), op = .openControlChannel c commands →
      ∀ cmd ∈ commands, SteadyCommand β cmd) : SteadyServer β m' := by
  cases h with
  | registered c commands =>
      intro c' ch hch
      rw [ServerChannelManager.openControlChannel, QMap.getElem?_insert] at hch
      split at hch
      · cases hch
        exact steady_create (hop c commands rfl)
      · exact hm c' ch hch
  | unregistered _ =>
      intro c' ch hch
      rw [ServerChannelManager.withoutControl, QMap.getElem?_erase] at hch
      split at hch
      · cases hch
      · exact hm c' ch hch
  | activated _ =>
      intro c' ch hch
      simp only [ServerChannelManager.reopenPlayerChannels,
        ServerChannelManager.withActive_controlChannels] at hch
      exact hm c' ch hch
  | disconnected _ =>
      intro c' ch hch
      rw [ServerChannelManager.withoutControl, QMap.getElem?_erase] at hch
      split at hch
      · cases hch
      · exact hm c' ch hch
  | _ => exact hm

def Silent (out : List (Signal β)) : Prop :=
  ∀ message, .outgoingMessageToSouth message ∈ out → steers message.msg = false

theorem Silent.activatedAfter (h : Silent out) (activated : Bool) (c : Int) :
    activatedAfter activated (framesTo c out) = activated := by
  apply activatedAfter_steady
  intro frame hframe
  obtain ⟨message, hmem, -, rfl⟩ := System.mem_framesTo.mp hframe
  exact h message hmem

theorem silent_nil : Silent ([] : List (Signal β)) := by
  intro message hmem
  cases hmem

theorem silent_controlCalls {calls : List (ChannelCall β)}
    (h : ∀ partner msg, .channelSendMessageToSouth partner msg ∈ calls →
      steers msg = false) : Silent (calls.flatMap m.controlCall) := by
  intro message hmem
  obtain ⟨call, hcall, hsent⟩ := List.mem_flatMap.mp hmem
  cases call with
  | channelSendMessageToSouth partner msg =>
      cases List.mem_singleton.mp hsent
      exact h partner msg hcall
  | _ => cases hsent

theorem silent_playerCalls {calls : List (ChannelCall β)}
    (h : ∀ partner msg, .channelSendMessageToSouth partner msg ∈ calls →
      steers msg = false) : Silent (calls.flatMap m.playerCall) := by
  intro message hmem
  obtain ⟨partner, hcall⟩ := ServerChannelManager.playerCalls_message hmem
  exact h partner message.msg hcall

theorem silent_announce (k : Int) (ch : ServerSidePlayerChannel) :
    Silent (m.announce (β := β) k ch) := by
  intro message hmem
  obtain ⟨-, -, hmsg⟩ := ServerChannelManager.announce_message hmem
  simp [hmsg]

theorem silent_reopen (hm : m.Valid) : Silent (m.reopenPlayerChannels (β := β)).2 := by
  intro message hmem
  obtain ⟨ch, -, -, hmsg⟩ := ServerChannelManager.reopenPlayerChannels_message hm hmem
  simp [hmsg]

theorem silent_close (c k : Int) (opened : Bool) :
    Silent (if opened then m.sendCloseChannelMessageToSouth (β := β) c k else []) := by
  intro message hmem
  split at hmem
  · cases List.mem_singleton.mp hmem
    exact steers_createSimpleCommand "CloseChannel"
  · cases hmem

theorem silent_effect (hsteady : SteadyServer β m)
    (h : Effect m op m' out)
    (hop : ∀ (c : Nat) (json : JsonObject), op = .sendJsonMessageToSouth c json →
      steers (QByteArray.toJson json : β) = false) :
    Silent out ∨ (∃ c, op = .activateConnection c) ∨ ∃ c, op = .deactivateConnection c := by
  cases h with
  | ignored _ => exact .inl silent_nil
  | drawn => exact .inl silent_nil
  | joined _ _ => exact .inl (silent_announce _ _)
  | northAttached _ => exact .inl silent_nil
  | registered _ _ => exact .inl silent_nil
  | left _ => exact .inl (silent_close _ _ _)
  | unregistered _ => exact .inl (silent_close _ _ _)
  | @activated c _ => exact .inr (.inl ⟨c, rfl⟩)
  | @deactivated c _ _ => exact .inr (.inr ⟨c, rfl⟩)
  | disconnected _ => exact .inl silent_nil
  | @controlMessage c msg ch hch =>
      refine .inl (silent_controlCalls ?_)
      intro partner text hmem
      unfold ServerSideControlChannel.receiveMessageFromSouth at hmem
      split at hmem
      · cases hmem
      · exact processJsonMessage_steady (hsteady c ch hch) hmem
  | @playerMessage c k msg ch _ _ _ =>
      refine .inl (silent_playerCalls ?_)
      intro partner text hmem
      exact absurd hmem
        (ServerChannelManager.receiveMessageFromSouth_calls ch msg partner text)
  | northMessage _ =>
      refine .inl (silent_playerCalls ?_)
      intro partner text hmem
      rw [ServerChannelManager.receivePlayerMessageFromNorth_calls _ _ hmem]
      exact steers_createPlayerMessage _
  | @pinged c ch _ =>
      refine .inl (silent_controlCalls ?_)
      intro partner text hmem
      unfold ServerSideControlChannel.pingSouth at hmem
      split at hmem
      · split at hmem
        · cases List.mem_singleton.mp hmem
          exact steers_createSimpleCommand "Ping"
        · cases hmem
      · cases hmem
  | @answered c json ch _ =>
      refine .inl (silent_controlCalls ?_)
      intro partner text hmem
      unfold ServerSideControlChannel.sendJsonMessageToSouth at hmem
      split at hmem
      · cases List.mem_singleton.mp hmem
        exact hop c json rfl
      · cases hmem

omit [QByteArray β] in
theorem framesTo_append (c : Int) (out out' : List (Signal β)) :
    framesTo c (out ++ out') = framesTo c out ++ framesTo c out' :=
  List.filterMap_append

theorem framesTo_emitCommand (c x : Int) (command : String) :
    framesTo c [m.emitCommand (β := β) x command] =
      if x = c then [(CHANNEL_ID, MessageFactory.createSimpleCommand command)] else [] := by
  by_cases heq : x = c <;>
    simp [framesTo, ServerChannelManager.emitCommand, ServerChannelManager.emit, heq]

theorem activatedAfter_activate (activated : Bool) (c x : Int) :
    activatedAfter activated (framesTo c [m.emitCommand (β := β) x "Activate"]) =
      (decide (x = c) || activated) := by
  rw [framesTo_emitCommand]
  split
  · rename_i heq
    simp [activatedAfter, steer, ROOT_CHANNEL, CHANNEL_ID, heq]
  · rename_i hne
    simp [activatedAfter, hne]

theorem activatedAfter_deactivate (activated : Bool) (c x : Int) :
    activatedAfter activated (framesTo c [m.emitCommand (β := β) x "Deactivate"]) =
      (decide (x ≠ c) && activated) := by
  rw [framesTo_emitCommand]
  split
  · rename_i heq
    simp [activatedAfter, steer, ROOT_CHANNEL, CHANNEL_ID, heq]
  · rename_i hne
    simp [activatedAfter, hne]

theorem active_kept (h : Effect m op m' out) {c : Nat}
    (hactivate : ∀ x, op ≠ .activateConnection x)
    (hdeactivate : ∀ x, op ≠ .deactivateConnection x)
    (hclose : ∀ x : Nat, op = .closeControlChannel x → m.activeConnectionId ≠ x)
    (hend : op ≠ .applicationClosed c) :
    m'.activeConnectionId = c ↔ m.activeConnectionId = c := by
  cases h with
  | activated _ => exact absurd rfl (hactivate _)
  | deactivated _ _ => exact absurd rfl (hdeactivate _)
  | @unregistered x ch _ =>
      have hne := hclose x rfl
      simp [ServerChannelManager.withoutControl, hne.symm]
  | @disconnected x _ =>
      have hne : (x : Int) ≠ c := by
        rintro heq
        exact hend (Int.ofNat.inj heq ▸ rfl)
      simp only [ServerChannelManager.withoutControl,
        ServerChannelManager.closePlayerChannels]
      by_cases hactive : (x : Int) = m.activeConnectionId
      · have hother : m.activeConnectionId ≠ c := hactive ▸ hne
        have hinactive : (-1 : Int) ≠ c := by omega
        simp [hactive, hother, hinactive]
      · simp [hactive]
  | _ => exact Iff.rfl

/-- What one step sends to a connection makes its application follow the server. -/
theorem steered_effect (hm : m.Valid) (hsteady : SteadyServer β m)
    (h : Effect m op m' out)
    (hreply : ∀ (c : Nat) (json : JsonObject), op = .sendJsonMessageToSouth c json →
      steers (QByteArray.toJson json : β) = false)
    (hclose : ∀ x : Nat, op = .closeControlChannel x → m.activeConnectionId ≠ x)
    {c : Nat} (hend : op ≠ .applicationClosed c) :
    activatedAfter (decide (m.activeConnectionId = c)) (framesTo c out) =
      decide (m'.activeConnectionId = c) := by
  by_cases hactivate : ∃ x, op = .activateConnection x
  · obtain ⟨x, rfl⟩ := hactivate
    cases h with
    | ignored _ => exact silent_nil.activatedAfter _ _
    | activated hc =>
        have hreopen := silent_reopen (β := β) (hm.withActive hc)
        have hdisplaced : activatedAfter (decide (m.activeConnectionId = c))
            (framesTo c (if m.activeConnectionId = -1 then []
              else [m.emitCommand (β := β) m.activeConnectionId "Deactivate"])) = false := by
          split
          · rename_i hnone
            have hne : m.activeConnectionId ≠ c := by omega
            rw [silent_nil.activatedAfter]
            simpa using hne
          · rw [activatedAfter_deactivate]
            simp
        rw [framesTo_append, activatedAfter_append, hdisplaced,
          ← List.singleton_append, framesTo_append, activatedAfter_append,
          activatedAfter_activate, hreopen.activatedAfter]
        simp [ServerChannelManager.reopenPlayerChannels, ServerChannelManager.withActive]
  by_cases hdeactivate : ∃ x, op = .deactivateConnection x
  · obtain ⟨x, rfl⟩ := hdeactivate
    cases h with
    | ignored _ => exact silent_nil.activatedAfter _ _
    | deactivated _ hactive =>
        rw [activatedAfter_deactivate, hactive]
        have hinactive : (-1 : Int) ≠ c := by omega
        simp [hinactive]
  · have hsilent := (silent_effect hsteady h hreply).resolve_right (by
      rintro (hactive | hdeactive)
      · exact hactivate hactive
      · exact hdeactivate hdeactive)
    rw [hsilent.activatedAfter]
    have hkept := active_kept h (fun x heq => hactivate ⟨x, heq⟩)
      (fun x heq => hdeactivate ⟨x, heq⟩) hclose hend
    simp [hkept]

end Server

end GBerry.Protocol
