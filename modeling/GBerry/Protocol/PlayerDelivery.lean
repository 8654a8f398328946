import GBerry.Protocol.PlayerChannels
import GBerry.Protocol.Steering

/-!
# The messages on the channel of a player

What a player sends is handed over by the channel of the player at the active
application, and what an application sends on the channel is handed over to the
player.  On its way a message is a frame in the queue of the connection, where it
may get lost, but is neither repeated nor overtaken.
-/

namespace GBerry.Protocol

open GBerry.Common
open GBerry.Foundation
open GBerry.Server
open GBerry.Client
open ServerSideControlChannel (CHANNEL_ID)
open ClientChannelManager (ROOT_CHANNEL)

variable {β : Type} [QByteArray β]

/-- What either end hands over when it receives a frame on a player channel. -/
def playerData (k : Int) (frame : Frame β) : List β :=
  if frame.1 = k ∧ k ≠ CHANNEL_ID then
    match QByteArray.fromJson frame.2 with
    | none => []
    | some json =>
        if JsonObject.isCommand json "PlayerMessage" && JsonObject.contains json "data" then
          [QByteArray.toLatin1
            (ClientSidePlayerChannel.messageText β (JsonObject.value json "data"))]
        else []
  else []

/-- A message as the other end gets it: it travels as a text, in Latin-1. -/
def relayed (msg : β) : β := QByteArray.toLatin1 (QByteArray.toQString msg)

theorem playerData_other {k : Int} {frame : Frame β} (h : frame.1 ≠ k) :
    playerData k frame = [] := if_neg fun hk => h hk.1

theorem playerData_control (k : Int) (msg : β) :
    playerData k ((CHANNEL_ID, msg) : Frame β) = [] := by
  apply if_neg
  rintro ⟨heq, hne⟩
  exact hne heq.symm

theorem playerData_command {k k' : Int} {msg : β}
    (h : isCommand "PlayerMessage" msg = false) : playerData k ((k', msg) : Frame β) = [] := by
  unfold playerData
  split
  · simp only [isCommand] at h
    split
    · rfl
    · rename_i json hjson
      rw [hjson] at h
      simp only at h
      rw [h, Bool.false_and, if_neg Bool.false_ne_true]
  · rfl

theorem playerData_playerMessage {k : Int} (hk : k ≠ CHANNEL_ID) (text : String) :
    playerData k ((k, MessageFactory.createPlayerMessage text) : Frame β) =
      [QByteArray.toLatin1 text] := by
  simp only [playerData, hk, ne_eq, not_false_eq_true, and_self, if_true,
    MessageFactory.fromJson_createPlayerMessage]
  rfl

theorem playerData_sublist (k k' : Int) (text : String) :
    List.Sublist (playerData k ((k', MessageFactory.createPlayerMessage text) : Frame β))
      (if k' = k then [QByteArray.toLatin1 text] else []) := by
  by_cases heq : k' = k
  · subst heq
    rw [if_pos rfl]
    by_cases hk : k' = CHANNEL_ID
    · rw [hk, playerData_control]
      exact List.nil_sublist _
    · rw [playerData_playerMessage hk]
  · rw [playerData_other heq]
    exact List.nil_sublist _

theorem flatMap_playerData_nil {k : Int} {frames : List (Frame β)}
    (h : ∀ frame ∈ frames, playerData k frame = []) : frames.flatMap (playerData k) = [] :=
  List.flatMap_eq_nil_iff.mpr h

section Server

variable {m m' : ServerChannelManager} {op : ServerOp β} {out : List (Signal β)}

def givenByPlayer (k : Int) : ServerOp β → List β
  | .receivePlayerMessageFromNorth k' msg => if k' = k then [relayed msg] else []
  | _ => []

def handedOver (k : Int) (out : List (Signal β)) : List β :=
  out.filterMap fun
    | .playerMessageFromSouth k' msg => if k' = k then some msg else none
    | _ => none

theorem Effect.not_playerMessage (hm : m.Valid) (h : m.Effect op m' out)
    {message : Outgoing β} (hmem : .outgoingMessageToSouth message ∈ out)
    (hop : ∀ k msg, op ≠ .receivePlayerMessageFromNorth k msg)
    (hk : message.channelId ≠ CHANNEL_ID) :
    isCommand "PlayerMessage" message.msg = false := by
  cases h with
  | northMessage _ => exact absurd rfl (hop _ _)
  | joined playerMeta uninitialised =>
      obtain ⟨-, -, hmsg⟩ := ServerChannelManager.announce_message hmem
      rw [hmsg]
      simp
  | left _ =>
      split at hmem
      · cases List.mem_singleton.mp hmem
        simp
      · cases hmem
  | unregistered _ =>
      split at hmem
      · cases List.mem_singleton.mp hmem
        exact absurd rfl hk
      · cases hmem
  | activated hc =>
      rcases List.mem_append.mp hmem with hdisplaced | hactivated
      · split at hdisplaced
        · cases hdisplaced
        · exact absurd (ServerChannelManager.emitCommand_message hdisplaced) hk
      · rcases List.mem_cons.mp hactivated with hcommand | hreopened
        · cases hcommand
          exact absurd rfl hk
        · obtain ⟨ch, -, -, hmsg⟩ :=
            ServerChannelManager.reopenPlayerChannels_message (hm.withActive hc) hreopened
          rw [hmsg]
          simp
  | deactivated _ _ => exact absurd (ServerChannelManager.emitCommand_message hmem) hk
  | controlMessage _ => exact absurd (ServerChannelManager.controlCalls_message hmem) hk
  | @playerMessage c k msg ch _ _ _ =>
      obtain ⟨partner, hcall⟩ := ServerChannelManager.playerCalls_message hmem
      exact absurd hcall
        (ServerChannelManager.receiveMessageFromSouth_calls ch msg partner _)
  | pinged _ => exact absurd (ServerChannelManager.controlCalls_message hmem) hk
  | answered _ => exact absurd (ServerChannelManager.controlCalls_message hmem) hk
  | _ => cases hmem

/-- What a step of the server sends on the channel is no more than it is given. -/
theorem Effect.playerData_sublist (hm : m.Valid) (h : m.Effect op m' out) (c k : Int) :
    List.Sublist ((framesTo c out).flatMap (playerData k)) (givenByPlayer k op) := by
  by_cases hop : ∃ k' msg, op = .receivePlayerMessageFromNorth k' msg
  · obtain ⟨k', msg, rfl⟩ := hop
    cases h with
    | ignored _ => exact List.nil_sublist _
    | @northMessage k' msg ch hch =>
        have hattached := hm.player_attached k' ch hch
        simp only [ServerSidePlayerChannel.receivePlayerMessageFromNorth,
          ServerSidePlayerChannel.sendMessageToSouth, hattached.south_eq]
        split
        · exact List.nil_sublist _
        split
        · simp only [List.flatMap_cons, List.flatMap_nil, List.append_nil,
            ServerChannelManager.playerCall]
          split
          · simp only [framesTo, ServerChannelManager.emit, List.filterMap_cons,
              List.filterMap_nil]
            split
            · exact List.nil_sublist _
            · rename_i frame hframe
              split at hframe
              · cases hframe
                rw [List.flatMap_singleton]
                exact playerData_sublist k k' _
              · cases hframe
          · exact List.nil_sublist _
        · exact List.nil_sublist _
  · have hnone : (framesTo c out).flatMap (playerData k) = [] := by
      apply flatMap_playerData_nil
      intro frame hframe
      obtain ⟨message, hmem, -, rfl⟩ := System.mem_framesTo.mp hframe
      by_cases hk : message.channelId = CHANNEL_ID
      · rw [hk]
        exact playerData_control k _
      · apply playerData_command
        refine Effect.not_playerMessage hm h hmem ?_ hk
        rintro k' msg rfl
        exact hop ⟨k', msg, rfl⟩
    rw [hnone]
    exact List.nil_sublist _

def broughtToServer (k : Int) : ServerOp β → List β
  | .processMessageFromSouth _ k' msg => playerData k (k', msg)
  | _ => []

omit [QByteArray β] in
theorem handedOver_nil {k : Int} (h : ∀ k' msg, .playerMessageFromSouth k' msg ∉ out) :
    handedOver k out = [] := by
  apply List.filterMap_eq_nil_iff.mpr
  intro signal hmem
  cases signal with
  | playerMessageFromSouth k' msg => exact absurd hmem (h k' msg)
  | _ => rfl

omit [QByteArray β] in
theorem handedOver_append (k : Int) (out out' : List (Signal β)) :
    handedOver k (out ++ out') = handedOver k out ++ handedOver k out' :=
  List.filterMap_append

theorem handedOver_emitCommand (k c : Int) (command : String) (out : List (Signal β)) :
    handedOver k (m.emitCommand c command :: out) = handedOver k out := rfl

omit [QByteArray β] in
theorem controlCalls_handedOver (calls : List (ChannelCall β)) (k : Int) :
    handedOver k (calls.flatMap m.controlCall) = [] := by
  apply handedOver_nil
  intro k' msg hmem
  obtain ⟨call, -, hcall⟩ := List.mem_flatMap.mp hmem
  cases call with
  | channelSendMessageToSouth partner msg => cases List.mem_singleton.mp hcall
  | _ => cases hcall

theorem announce_handedOver (k k' : Int) (ch : ServerSidePlayerChannel) :
    handedOver k (m.announce (β := β) k' ch) = [] := by
  unfold ServerChannelManager.announce ServerChannelManager.emit
  repeat' split
  all_goals rfl

theorem reopened_handedOver (hm : m.Valid) (k : Int) :
    handedOver k (m.reopenPlayerChannels (β := β)).2 = [] := by
  rw [hm.reopenPlayerChannels_snd, handedOver, List.filterMap_flatMap]
  exact List.flatMap_eq_nil_iff.mpr fun e _ => announce_handedOver k e.1 e.2

theorem receiveMessageFromSouth_handedOver {k' : Int} {ch : ServerSidePlayerChannel}
    (hch : ch.Attached k') (hk' : k' ≠ CHANNEL_ID) (msg : β) (k : Int) :
    List.Sublist (handedOver k ((ch.receiveMessageFromSouth msg).2.flatMap m.playerCall))
      (playerData k (k', msg)) := by
  unfold ServerSidePlayerChannel.receiveMessageFromSouth
    ServerSidePlayerChannel.processJsonMessage
  cases hjson : QByteArray.fromJson msg with
  | none => exact List.nil_sublist _
  | some json =>
      simp only
      split
      · exact List.nil_sublist _
      split
      · exact List.nil_sublist _
      split
      · rename_i hcommand
        split
        · rename_i hdata
          cases hnorth : ch.northPartner with
          | none => exact List.nil_sublist _
          | some partner =>
              obtain rfl := hch.north_eq partner hnorth
              by_cases hk : partner = k
              · subst hk
                simp only [playerData, hk', ne_eq, not_false_eq_true, and_self, if_true,
                  hjson, hcommand, hdata, Bool.and_self]
                simp [handedOver, ServerChannelManager.playerCall]
                rfl
              · simp [handedOver, ServerChannelManager.playerCall, hk]
        · exact List.nil_sublist _
      · exact List.nil_sublist _

theorem northMessage_handedOver (ch : ServerSidePlayerChannel) (msg : β) (k : Int) :
    handedOver k ((ch.receivePlayerMessageFromNorth msg).flatMap m.playerCall) = [] := by
  unfold ServerSidePlayerChannel.receivePlayerMessageFromNorth
    ServerSidePlayerChannel.sendMessageToSouth
  split
  · rfl
  split
  · split
    · simp only [List.flatMap_cons, List.flatMap_nil, List.append_nil,
        ServerChannelManager.playerCall]
      split <;> rfl
    · rfl
  · rfl

/-- What a step of the server hands over is what it has been brought. -/
theorem Effect.handedOver_sublist (hm : m.Valid) (h : m.Effect op m' out) (k : Int) :
    List.Sublist (handedOver k out) (broughtToServer k op) := by
  cases h with
  | @playerMessage c k' msg ch hk' _ hch =>
      exact receiveMessageFromSouth_handedOver (hm.player_attached k' ch hch) hk' msg k
  | joined playerMeta uninitialised =>
      rw [announce_handedOver]
      exact List.nil_sublist _
  | left _ =>
      split
      all_goals exact List.nil_sublist _
  | unregistered _ =>
      split
      all_goals exact List.nil_sublist _
  | activated hc =>
      have hreopened := reopened_handedOver (β := β) (hm.withActive hc) k
      rw [handedOver_append, handedOver_emitCommand, hreopened, List.append_nil]
      split
      · exact List.nil_sublist _
      · rw [handedOver_emitCommand]
        exact List.nil_sublist _
  | controlMessage _ =>
      rw [controlCalls_handedOver]
      exact List.nil_sublist _
  | northMessage _ =>
      rw [northMessage_handedOver]
      exact List.nil_sublist _
  | pinged _ =>
      rw [controlCalls_handedOver]
      exact List.nil_sublist _
  | answered _ =>
      rw [controlCalls_handedOver]
      exact List.nil_sublist _
  | _ => exact List.nil_sublist _

end Server

section Client

variable {m : ClientChannelManager} {k k' : Int} {msg : β} {signals : List (ClientSignal β)}

def handedToApplication (k : Int) (signals : List (ClientSignal β)) : List β :=
  signals.filterMap fun
    | .playerMessage k' msg => if k' = k then some msg else none
    | _ => none

def writtenOn (k : Int) (signals : List (ClientSignal β)) : List β :=
  (framesOf signals).flatMap (playerData k)

omit [QByteArray β] in
theorem handedToApplication_nil (h : ∀ k' msg, .playerMessage k' msg ∉ signals) :
    handedToApplication k signals = [] := by
  apply List.filterMap_eq_nil_iff.mpr
  intro signal hmem
  cases signal with
  | playerMessage k' msg => exact absurd hmem (h k' msg)
  | _ => rfl

theorem writtenOn_nil
    (h : ∀ k' msg, .outgoingMessage k' msg ∈ signals → playerData k (k', msg) = []) :
    writtenOn k signals = [] := by
  apply flatMap_playerData_nil
  intro frame hframe
  obtain ⟨signal, hmem, hsignal⟩ := List.mem_filterMap.mp hframe
  cases signal with
  | outgoingMessage k' msg =>
      cases hsignal
      exact h k' msg hmem
  | _ => cases hsignal

omit [QByteArray β] in
theorem performAll_snd (m : ClientChannelManager) (calls : List (ClientCall β)) :
    (m.performAll calls).2 = calls.flatMap fun call => (m.perform call).2 := by
  have hsame (m m' : ClientChannelManager) (call : ClientCall β) :
      (m.perform call).2 = (m'.perform call).2 := by
    cases call <;> rfl
  have hall (m' : ClientChannelManager) :
      (m'.performAll calls).2 = calls.flatMap fun call => (m.perform call).2 := by
    induction calls generalizing m' with
    | nil => rfl
    | cons call calls ih =>
        rw [ClientChannelManager.performAll, List.flatMap_cons, ← hsame m' m call, ← ih]
  exact hall m

omit [QByteArray β] in
theorem playerMessage_mem_performAll {calls : List (ClientCall β)}
    (h : .playerMessage k msg ∈ (m.performAll calls).2) : .playerMessage k msg ∈ calls := by
  rw [performAll_snd] at h
  obtain ⟨call, hmem, hcall⟩ := List.mem_flatMap.mp h
  cases call with
  | playerMessage partner msg' =>
      cases List.mem_singleton.mp hcall
      exact hmem
  | closeChannel partner => cases hcall
  | _ => cases List.mem_singleton.mp hcall

omit [QByteArray β] in
theorem outgoingMessage_mem_performAll {calls : List (ClientCall β)}
    (h : .outgoingMessage k msg ∈ (m.performAll calls).2) : .sendMessage k msg ∈ calls := by
  rw [performAll_snd] at h
  obtain ⟨call, hmem, hcall⟩ := List.mem_flatMap.mp h
  cases call with
  | sendMessage partner msg' =>
      cases List.mem_singleton.mp hcall
      exact hmem
  | closeChannel partner => cases hcall
  | _ => cases List.mem_singleton.mp hcall

theorem receiveMessage_sends {ch : ClientSideControlChannel} {text : β}
    (hch : ch.partner = some ROOT_CHANNEL)
    (h : .sendMessage k msg ∈ (ch.receiveMessage text).2) : k = ROOT_CHANNEL := by
  unfold ClientSideControlChannel.receiveMessage ClientSideControlChannel.processJsonMessage
    ClientSideControlChannel.sendMessage at h
  simp only [hch] at h
  repeat' split at h
  all_goals simp_all

theorem receiveMessage_playerMessage (ch : ClientSideControlChannel) (text : β) :
    .playerMessage k msg ∉ (ch.receiveMessage text).2 := by
  unfold ClientSideControlChannel.receiveMessage ClientSideControlChannel.processJsonMessage
    ClientSideControlChannel.sendMessage
  repeat' split
  all_goals simp

theorem receiveMessage_handsOver {ch : ClientSidePlayerChannel} (hk' : k' ≠ CHANNEL_ID)
    (hch : ch.playerPartner = some k') (msg : β) :
    List.Sublist (handedToApplication k (m.performAll (ch.receiveMessage msg)).2)
      (playerData k (k', msg)) := by
  have hclosed (k : Int) (msg : β) : .playerMessage k msg ∉ (ch.closeChannel (β := β)) := by
    unfold ClientSidePlayerChannel.closeChannel
    cases ch.playerPartner <;> cases ch.channelPartner <;> simp
  unfold ClientSidePlayerChannel.receiveMessage
  cases hjson : QByteArray.fromJson msg with
  | none => exact List.nil_sublist _
  | some json =>
      simp only
      split
      · rw [handedToApplication_nil]
        · exact List.nil_sublist _
        · intro k msg hmem
          exact hclosed k msg (playerMessage_mem_performAll hmem)
      split
      · rename_i hcommand
        split
        · rename_i hdata
          rw [hch]
          by_cases hk : k' = k
          · subst hk
            simp only [playerData, hk', ne_eq, not_false_eq_true, and_self, if_true, hjson,
              hcommand, hdata, Bool.and_self]
            simp [handedToApplication, ClientChannelManager.performAll,
              ClientChannelManager.perform]
          · simp [handedToApplication, ClientChannelManager.performAll,
              ClientChannelManager.perform, hk]
        · exact List.nil_sublist _
      · exact List.nil_sublist _

theorem processMessage_handsOver (hserved : m.Served) (k k' : Int)
    (msg : β) :
    List.Sublist (handedToApplication k (m.processMessage k' msg).2) (playerData k (k', msg)) := by
  unfold ClientChannelManager.processMessage
  split
  · rw [handedToApplication_nil]
    · exact List.nil_sublist _
    · intro k msg' hmem
      split at hmem
      · rename_i channel _
        exact receiveMessage_playerMessage channel msg (playerMessage_mem_performAll hmem)
      · cases hmem
  · rename_i hroot
    split
    · rw [handedToApplication_nil]
      · exact List.nil_sublist _
      · intro k msg' hmem
        unfold ClientChannelManager.openPlayerChannel at hmem
        repeat' split at hmem
        all_goals simp at hmem
    · rename_i ch hch
      exact receiveMessage_handsOver hroot (hserved k' ch hch) msg

theorem processMessage_writes (hrooted : Rooted m) (k k' : Int) (msg : β) :
    writtenOn k (m.processMessage k' msg).2 = [] := by
  apply writtenOn_nil
  intro x text hmem
  unfold ClientChannelManager.processMessage at hmem
  split at hmem
  · split at hmem
    · rename_i channel hchannel
      obtain rfl := receiveMessage_sends (hrooted channel hchannel)
        (outgoingMessage_mem_performAll hmem)
      exact playerData_control k text
    · cases hmem
  · split at hmem
    · unfold ClientChannelManager.openPlayerChannel at hmem
      repeat' split at hmem
      all_goals simp at hmem
      rw [hmem.2]
      exact playerData_command (by simp)
    · rename_i ch _
      have hcall := outgoingMessage_mem_performAll hmem
      unfold ClientSidePlayerChannel.receiveMessage
        ClientSidePlayerChannel.closeChannel at hcall
      repeat' split at hcall
      all_goals simp at hcall

theorem sendPlayerMessage_writes (hm : m.Attached) (k k' : Int) (msg : β) :
    List.Sublist (writtenOn k (m.sendPlayerMessage k' msg))
      (if k' = k then [relayed msg] else []) := by
  unfold ClientChannelManager.sendPlayerMessage
  split
  · rename_i ch hch
    have hsent : (m.performAll (ch.sendPlayerMessage msg)).2 =
        [.outgoingMessage k' (MessageFactory.createPlayerMessage (QByteArray.toQString msg))] := by
      rw [ClientSidePlayerChannel.sendPlayerMessage, (hm k' ch hch).2]
      rfl
    have hwritten (text : β) : writtenOn k [.outgoingMessage k' text] =
        playerData k (k', text) := List.append_nil _
    rw [hsent, hwritten]
    exact playerData_sublist k k' _
  · exact List.nil_sublist _

theorem sendControlMessage_writes (hrooted : Rooted m) (k : Int) (msg : β) :
    writtenOn k (m.sendControlMessage msg) = [] := by
  apply writtenOn_nil
  intro x text hmem
  unfold ClientChannelManager.sendControlMessage at hmem
  split at hmem
  · rename_i channel hchannel
    have hcall := outgoingMessage_mem_performAll hmem
    rw [ClientSideControlChannel.sendMessage, hrooted channel hchannel] at hcall
    cases List.mem_singleton.mp hcall
    exact playerData_control k msg
  · cases hmem

omit [QByteArray β] in
theorem performAll_sends {m : ClientChannelManager} {calls : List (ClientCall β)}
    (h : ∀ k msg, .playerMessage k msg ∉ calls) :
    handedToApplication k (m.performAll calls).2 = [] := by
  apply handedToApplication_nil
  intro k' msg hmem
  exact h k' msg (playerMessage_mem_performAll hmem)

theorem sendPlayerMessage_handsOver (m : ClientChannelManager) (k' : Int) (msg : β) :
    handedToApplication k (m.sendPlayerMessage k' msg) = [] := by
  unfold ClientChannelManager.sendPlayerMessage
  split
  · rename_i ch _
    apply performAll_sends
    intro x text hmem
    unfold ClientSidePlayerChannel.sendPlayerMessage at hmem
    split at hmem
    · cases List.mem_singleton.mp hmem
    · cases hmem
  · rfl

omit [QByteArray β] in
theorem sendControlMessage_handsOver (m : ClientChannelManager) (msg : β) :
    handedToApplication k (m.sendControlMessage msg) = [] := by
  unfold ClientChannelManager.sendControlMessage
  split
  · rename_i channel _
    apply performAll_sends
    intro x text hmem
    unfold ClientSideControlChannel.sendMessage at hmem
    split at hmem
    · cases List.mem_singleton.mp hmem
    · cases hmem
  · rfl

end Client

end GBerry.Protocol
