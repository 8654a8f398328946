import GBerry.Server.ChannelManager.Effect

/-!
# Player channels in one step

The messages that a step sends on a player channel, what becomes of a channel
that it keeps, and which `OpenChannel` messages a connection has been sent since
it became active.
-/

namespace GBerry.Server

open GBerry.Common
open GBerry.Foundation
open ServerSideControlChannel (CHANNEL_ID)

def Signal.openChannel {β : Type} [QByteArray β] (connectionId channelId : Int) :
    Signal β → Option β
  | .outgoingMessageToSouth message =>
      if message.connectionId = connectionId ∧ message.channelId = channelId ∧
        isCommand "OpenChannel" message.msg then some message.msg
      else none
  | _ => none

def openChannels {β : Type} [QByteArray β] (connectionId channelId : Int)
    (out : List (Signal β)) : List β :=
  out.filterMap (Signal.openChannel connectionId channelId)

def ServerOp.activates {β : Type} (connectionId : Int) : ServerOp β → Bool
  | .activateConnection c => c = connectionId
  | _ => false

namespace ServerChannelManager

variable {β : Type} [QByteArray β] {m m' : ServerChannelManager} {k : Int}

/-- The step makes a connection active, also when it was active before. -/
def becomesActive (c : Int)
    (st : Step ServerChannelManager (ServerOp β) (Signal β)) : Bool :=
  st.post.activeConnectionId = c ∧
    (st.pre.activeConnectionId ≠ c ∨ st.label.activates c)

/--
What a step from `m` to `m'` can send on a player channel.  An `OpenChannel` is
for a player who joins, or for one who is there when a connection is activated.
-/
inductive PlayerText (m m' : ServerChannelManager) (op : ServerOp β) (k : Int) :
    β → Prop
  | openChannel (playerMeta : PlayerMeta) : k ∈ m'.playerChannels →
      k = m.channelIdCount ∨ op.activates m'.activeConnectionId = true →
      PlayerText m m' op k (MessageFactory.createOpenChannelCommand playerMeta)
  | closeChannel : op = .closePlayerChannel k →
      PlayerText m m' op k (MessageFactory.createSimpleCommand "CloseChannel")
  | playerMessage (text : String) :
      PlayerText m m' op k (MessageFactory.createPlayerMessage text)

section Messages

variable {op : ServerOp β} {out : List (Signal β)} {message : Outgoing β}

theorem openChannels_append (c k : Int) (out out' : List (Signal β)) :
    openChannels c k (out ++ out') = openChannels c k out ++ openChannels c k out' :=
  List.filterMap_append

theorem PlayerText.not_closes {msg : β} (h : PlayerText m m' op k msg)
    (hop : op ≠ .closePlayerChannel k) : isCommand "CloseChannel" msg = false := by
  cases h with
  | openChannel playerMeta _ _ => simp
  | closeChannel heq => exact absurd heq hop
  | playerMessage text => simp

theorem PlayerText.opens {msg : β} (h : PlayerText m m' op k msg)
    (hopen : isCommand "OpenChannel" msg = true) :
    k ∈ m'.playerChannels ∧
      (k = m.channelIdCount ∨ op.activates m'.activeConnectionId = true) ∧
      ∃ playerMeta, msg = MessageFactory.createOpenChannelCommand playerMeta := by
  cases h with
  | openChannel playerMeta hk hcause => exact ⟨hk, hcause, playerMeta, rfl⟩
  | closeChannel _ => simp at hopen
  | playerMessage text => simp at hopen

theorem exists_openChannel {c : Int}
    (h : openChannels c k out ≠ []) :
    ∃ message, .outgoingMessageToSouth message ∈ out ∧ message.connectionId = c ∧
      message.channelId = k ∧ isCommand "OpenChannel" message.msg = true := by
  obtain ⟨msg, hmsg⟩ := List.exists_mem_of_ne_nil _ h
  obtain ⟨signal, hmem, hsignal⟩ := List.mem_filterMap.mp hmsg
  cases signal with
  | outgoingMessageToSouth message =>
      simp only [Signal.openChannel, Option.ite_none_right_eq_some] at hsignal
      exact ⟨message, hmem, hsignal.1⟩
  | _ => cases hsignal

theorem processJsonMessage_calls (ch : ServerSidePlayerChannel) (json : JsonObject)
    (partner : Int) (msg : β) :
    .channelSendMessageToSouth partner msg ∉ (ch.processJsonMessage json).2 := by
  unfold ServerSidePlayerChannel.processJsonMessage
  repeat' split
  all_goals simp

theorem receiveMessageFromSouth_calls (ch : ServerSidePlayerChannel)
    (text : β) (partner : Int) (msg : β) :
    .channelSendMessageToSouth partner msg ∉ (ch.receiveMessageFromSouth text).2 := by
  unfold ServerSidePlayerChannel.receiveMessageFromSouth
  split
  · simp
  · exact processJsonMessage_calls ch _ partner msg

theorem receivePlayerMessageFromNorth_calls (ch : ServerSidePlayerChannel)
    (text : β) {partner : Int} {msg : β}
    (h : .channelSendMessageToSouth partner msg ∈
      ch.receivePlayerMessageFromNorth text) :
    msg = MessageFactory.createPlayerMessage (QByteArray.toQString text) := by
  unfold ServerSidePlayerChannel.receivePlayerMessageFromNorth
    ServerSidePlayerChannel.sendMessageToSouth at h
  split at h
  · simp at h
  split at h
  · split at h
    · cases List.mem_singleton.mp h
      rfl
    · simp at h
  · simp at h

theorem announce_message {ch : ServerSidePlayerChannel}
    (h : .outgoingMessageToSouth message ∈ m.announce (β := β) k ch) :
    message.channelId = k ∧ ch.isOpening = false ∧
      message.msg = MessageFactory.createOpenChannelCommand ch.playerMeta := by
  unfold announce emit at h
  split at h
  · cases h
  rename_i hclosed
  split at h
  · cases List.mem_singleton.mp h
    exact ⟨rfl, by simpa using hclosed, rfl⟩
  · cases h

omit [QByteArray β] in
theorem controlCalls_message {calls : List (ChannelCall β)}
    (h : .outgoingMessageToSouth message ∈ calls.flatMap m.controlCall) :
    message.channelId = CHANNEL_ID := by
  obtain ⟨call, -, hcall⟩ := List.mem_flatMap.mp h
  cases call with
  | channelSendMessageToSouth partner msg =>
      cases List.mem_singleton.mp hcall
      rfl
  | _ => cases hcall

omit [QByteArray β] in
theorem playerCalls_message {calls : List (ChannelCall β)}
    (h : .outgoingMessageToSouth message ∈ calls.flatMap m.playerCall) :
    ∃ partner, .channelSendMessageToSouth partner message.msg ∈ calls := by
  obtain ⟨call, hmem, hcall⟩ := List.mem_flatMap.mp h
  cases call with
  | channelSendMessageToSouth partner msg =>
      simp only [playerCall] at hcall
      split at hcall
      · cases List.mem_singleton.mp hcall
        exact ⟨partner, hmem⟩
      · cases hcall
  | playerMessageFromSouth partner msg => cases List.mem_singleton.mp hcall
  | playerRequestedMainMenu channelId => cases List.mem_singleton.mp hcall

theorem emitCommand_message {c : Int} {command : String}
    (h : .outgoingMessageToSouth message ∈ [m.emitCommand (β := β) c command]) :
    message.channelId = CHANNEL_ID := by
  cases List.mem_singleton.mp h
  rfl

theorem reopenPlayerChannels_message (hm : m.Valid)
    (h : .outgoingMessageToSouth message ∈ (m.reopenPlayerChannels (β := β)).2) :
    ∃ ch : ServerSidePlayerChannel, m.playerChannels[message.channelId]? = some ch ∧
      ch.isOpening = false ∧
      message.msg = MessageFactory.createOpenChannelCommand ch.playerMeta := by
  rw [hm.reopenPlayerChannels_snd] at h
  obtain ⟨e, he, hsent⟩ := List.mem_flatMap.mp h
  obtain ⟨hk, hclosed, hmsg⟩ := announce_message hsent
  have hentry := Std.ExtTreeMap.mem_toList_iff_getElem?_eq_some.mp he
  exact ⟨e.2, hk ▸ hentry, hclosed, hmsg⟩

theorem Effect.playerText (hm : m.Valid) (h : Effect m op m' out)
    (hmem : .outgoingMessageToSouth message ∈ out)
    (hk : message.channelId ≠ CHANNEL_ID) :
    PlayerText m m' op message.channelId message.msg := by
  cases h with
  | ignored _ => cases hmem
  | drawn => cases hmem
  | joined playerMeta uninitialised =>
      obtain ⟨hid, -, hmsg⟩ := announce_message hmem
      rw [hmsg, hid]
      exact .openChannel _ (by simp) (.inl rfl)
  | northAttached _ => cases hmem
  | registered _ _ => cases hmem
  | left _ =>
      split at hmem
      · cases List.mem_singleton.mp hmem
        exact .closeChannel rfl
      · cases hmem
  | unregistered _ =>
      split at hmem
      · cases List.mem_singleton.mp hmem
        exact absurd rfl hk
      · cases hmem
  | activated hc =>
      rcases List.mem_append.mp hmem with hdisplaced | hactivated
      · split at hdisplaced
        · cases hdisplaced
        · exact absurd (emitCommand_message hdisplaced) hk
      · rcases List.mem_cons.mp hactivated with hcommand | hreopened
        · cases hcommand
          exact absurd rfl hk
        · obtain ⟨ch, hch, -, hmsg⟩ :=
            reopenPlayerChannels_message (hm.withActive hc) hreopened
          have hplayer := QMap.mem_of_getElem? hch
          rw [hmsg]
          exact .openChannel _ ((reopenPlayerChannels_mem _ _).mpr hplayer)
            (.inr (by simp [ServerOp.activates, reopenPlayerChannels, withActive]))
  | deactivated _ _ => exact absurd (emitCommand_message hmem) hk
  | disconnected _ => cases hmem
  | controlMessage _ => exact absurd (controlCalls_message hmem) hk
  | @playerMessage c k msg ch _ _ _ =>
      obtain ⟨partner, hcall⟩ := playerCalls_message hmem
      exact absurd hcall (receiveMessageFromSouth_calls ch msg partner _)
  | northMessage _ =>
      obtain ⟨partner, hcall⟩ := playerCalls_message hmem
      rw [receivePlayerMessageFromNorth_calls _ _ hcall]
      exact .playerMessage _
  | pinged _ => exact absurd (controlCalls_message hmem) hk
  | answered _ => exact absurd (controlCalls_message hmem) hk

end Messages

section Channels

variable {op : ServerOp β} {out : List (Signal β)}

omit [QByteArray β] in
theorem withoutControl_active {c : Nat} {x : Int}
    (h : (m.withoutControl x).activeConnectionId = c) :
    x ≠ m.activeConnectionId ∧ m.activeConnectionId = c := by
  simp only [withoutControl] at h
  split at h
  · omega
  · rename_i hne
    exact ⟨hne, h⟩

theorem Effect.activated_or_kept (hm : m.Valid) (h : Effect m op m' out) {c : Nat}
    (hactive : m'.activeConnectionId = c) :
    op = .activateConnection c ∧ (c : Int) ∈ m.controlChannels ∨
      m.activeConnectionId = c ∧ op.activates c = false := by
  cases h with
  | @ignored op hignored =>
      refine .inr ⟨hactive, ?_⟩
      cases op with
      | activateConnection x =>
          have hregistered := hm.active_registered (by omega)
          have hne : (x : Int) ≠ c := by
            rintro heq
            exact hignored (heq ▸ hactive ▸ hregistered)
          simpa [ServerOp.activates] using hne
      | _ => rfl
  | activated hc =>
      have heq := Int.ofNat.inj hactive
      exact .inl (heq ▸ ⟨rfl, hc⟩)
  | unregistered _ => exact .inr ⟨(withoutControl_active hactive).2, rfl⟩
  | deactivated _ _ => simp at hactive
  | disconnected _ => exact .inr ⟨(withoutControl_active hactive).2, rfl⟩
  | _ => exact .inr ⟨hactive, rfl⟩

inductive ChannelFate (m m' : ServerChannelManager) (op : ServerOp β) (k : Int)
    (ch : ServerSidePlayerChannel) : ServerSidePlayerChannel → Prop
  | untouched : ChannelFate m m' op k ch ch
  | northAttached : ChannelFate m m' op k ch (ch.attachNorthPartner k)
  | received (msg : β) : ChannelFate m m' op k ch (ch.receiveMessageFromSouth msg).1
  | reopened {before : ServerSidePlayerChannel} : before = ch ∨ before = ch.close →
      op.activates m'.activeConnectionId = true → ChannelFate m m' op k ch before.opened
  | deactivated : m'.activeConnectionId = -1 → ChannelFate m m' op k ch ch.close
  | disconnected {x : Nat} : op = .applicationClosed x →
      (x : Int) ∈ m.controlChannels → ChannelFate m m' op k ch ch.close

theorem Effect.channelFate (hm : m.Valid) (h : Effect m op m' out)
    {ch ch' : ServerSidePlayerChannel} (hch : m.playerChannels[k]? = some ch)
    (hch' : m'.playerChannels[k]? = some ch') : ChannelFate m m' op k ch ch' := by
  have hsame (hold : m.playerChannels[k]? = some ch') :
      ChannelFate m m' op k ch ch' := by
    rw [hch, Option.some.injEq] at hold
    exact hold ▸ .untouched
  cases h with
  | joined playerMeta uninitialised =>
      have hrange := hm.player_range k (QMap.mem_of_getElem? hch)
      have hne : k ≠ m.channelIdCount := by omega
      rw [QMap.getElem?_insert, if_neg hne] at hch'
      exact hsame hch'
  | @northAttached k' old hold =>
      rw [QMap.getElem?_insert] at hch'
      split at hch'
      · rename_i heq
        rw [← heq, hch, Option.some.injEq] at hold
        cases hch'
        exact hold ▸ heq ▸ .northAttached
      · exact hsame hch'
  | left _ =>
      rw [QMap.getElem?_erase] at hch'
      split at hch'
      · cases hch'
      · exact hsame hch'
  | @activated c _ =>
      rw [reopenPlayerChannels_getElem?, withActive_getElem?, hch] at hch'
      have hop : (ServerOp.activateConnection c : ServerOp β).activates c = true := by
        simp [ServerOp.activates]
      split at hch'
      · cases hch'
        exact .reopened (.inl rfl) hop
      · cases hch'
        exact .reopened (.inr rfl) hop
  | deactivated _ _ =>
      have hclosed : m.closePlayerChannels.playerChannels[k]? = some ch' := hch'
      rw [closePlayerChannels_getElem?, hch] at hclosed
      cases hclosed
      exact .deactivated rfl
  | @disconnected x hx =>
      have hclosed : m.closePlayerChannels.playerChannels[k]? = some ch' := hch'
      rw [closePlayerChannels_getElem?, hch] at hclosed
      cases hclosed
      exact .disconnected rfl hx
  | @playerMessage _ k' msg old _ _ hold =>
      rw [QMap.getElem?_insert] at hch'
      split at hch'
      · rename_i heq
        rw [← heq, hch, Option.some.injEq] at hold
        cases hch'
        exact hold ▸ .received msg
      · exact hsame hch'
  | _ => exact hsame hch'

theorem receiveMessageFromSouth_playerMeta (ch : ServerSidePlayerChannel)
    (text : β) : (ch.receiveMessageFromSouth text).1.playerMeta = ch.playerMeta := by
  unfold ServerSidePlayerChannel.receiveMessageFromSouth
    ServerSidePlayerChannel.processJsonMessage
  repeat' split
  all_goals rfl

theorem Effect.playerMeta_kept (hm : m.Valid) (h : Effect m op m' out)
    {ch ch' : ServerSidePlayerChannel} (hch : m.playerChannels[k]? = some ch)
    (hch' : m'.playerChannels[k]? = some ch') : ch.playerMeta = ch'.playerMeta := by
  cases h.channelFate hm hch hch' with
  | untouched => rfl
  | northAttached => rfl
  | received msg => exact (receiveMessageFromSouth_playerMeta ch msg).symm
  | reopened hbefore _ =>
      rw [ServerSidePlayerChannel.opened_playerMeta]
      rcases hbefore with rfl | rfl <;> rfl
  | deactivated _ => rfl
  | disconnected _ _ => rfl

/--
A channel of a connection that stays active stays open, unless a background
application is closed.
-/
theorem Effect.stays_open (hm : m.Valid) (h : Effect m op m' out) {c : Nat}
    (hactive : m'.activeConnectionId = c) (hop : op.activates c = false)
    {ch ch' : ServerSidePlayerChannel} (hch : m.playerChannels[k]? = some ch)
    (hch' : m'.playerChannels[k]? = some ch') (hopen : ch.state = .CHANNEL_OPEN) :
    ch'.state = .CHANNEL_OPEN ∨ ∃ x : Nat, op = .applicationClosed x ∧
      (x : Int) ∈ m.controlChannels ∧ (x : Int) ≠ m.activeConnectionId := by
  cases h.channelFate hm hch hch' with
  | untouched => exact .inl hopen
  | northAttached => exact .inl hopen
  | received msg =>
      rw [ServerSidePlayerChannel.receiveMessageFromSouth_state, hopen]
      simp
  | reopened _ hactivates =>
      rw [hactive, hop] at hactivates
      cases hactivates
  | deactivated hnone => omega
  | @disconnected x heq hx =>
      subst heq
      refine .inr ⟨x, rfl, hx, ?_⟩
      cases h with
      | ignored hignored => exact absurd hx hignored
      | disconnected _ => exact (withoutControl_active hactive).1

theorem Effect.closePlayerChannel_notMem
    (h : Effect m (.closePlayerChannel k) m' out) : k ∉ m'.playerChannels := by
  cases h with
  | ignored hignored => exact hignored
  | left _ => simp

theorem Effect.reopens (hm : m.Valid) {c : Nat}
    (h : Effect m (.activateConnection c) m' out) (hk : k ≠ CHANNEL_ID)
    (hsent : openChannels c k out ≠ []) :
    ∃ ch : ServerSidePlayerChannel, m.playerChannels[k]? = some ch ∧
      (m.activeConnectionId = -1 → ch.isOpening = false) := by
  obtain ⟨message, hmem, -, rfl, -⟩ := exists_openChannel hsent
  cases h with
  | ignored _ => cases hmem
  | activated hc =>
      rcases List.mem_append.mp hmem with hdisplaced | hactivated
      · split at hdisplaced
        · cases hdisplaced
        · exact absurd (emitCommand_message hdisplaced) hk
      rcases List.mem_cons.mp hactivated with hcommand | hreopened
      · cases hcommand
        exact absurd rfl hk
      obtain ⟨ch, hch, hclosed, -⟩ :=
        reopenPlayerChannels_message (hm.withActive hc) hreopened
      rw [withActive_getElem?] at hch
      split at hch
      · exact ⟨ch, hch, fun _ => hclosed⟩
      · rename_i hactive
        obtain ⟨old, hold, -⟩ := Option.map_eq_some_iff.mp hch
        exact ⟨old, hold, fun hnone => absurd hnone hactive⟩

theorem Effect.accepted {c : Nat} {msg : β}
    (h : Effect m (.processMessageFromSouth c k msg) m' out)
    (hactive : m.activeConnectionId = c) (hk : k ≠ CHANNEL_ID)
    (haccept : isCommand "OpenChannelAccepted" msg = true)
    {ch' : ServerSidePlayerChannel} (hch' : m'.playerChannels[k]? = some ch') :
    ch'.state = .CHANNEL_OPEN := by
  cases h with
  | ignored hignored =>
      simp only [Ignores, hk, if_false, hactive, ne_eq, not_true_eq_false,
        false_or] at hignored
      exact absurd (QMap.mem_of_getElem? hch') hignored
  | controlMessage _ => exact absurd rfl hk
  | playerMessage _ _ _ =>
      rw [QMap.getElem?_insert, if_pos rfl] at hch'
      cases hch'
      rw [ServerSidePlayerChannel.receiveMessageFromSouth_state, if_pos haccept]

end Channels

section Announced

variable {history : List (Step ServerChannelManager (ServerOp β) (Signal β))}

/-- An `OpenChannel` was sent on the channel since the connection became active. -/
def Announced (c k : Int)
    (history : List (Step ServerChannelManager (ServerOp β) (Signal β))) : Prop :=
  openChannels c k (since (becomesActive c) history) ≠ []

/-- An activation starts the account anew; other steps continue it. -/
theorem announced_cons (hm : m.Valid) {op : ServerOp β} {out : List (Signal β)}
    (h : Effect m op m' out) {c : Nat} (hactive : m'.activeConnectionId = c) :
    Announced c k (⟨m, op, out, m'⟩ :: history) ↔
      openChannels c k out ≠ [] ∨ op.activates c = false ∧ Announced c k history := by
  unfold Announced
  rcases h.activated_or_kept hm hactive with ⟨rfl, -⟩ | ⟨hbefore, hop⟩
  · rw [since_cons_marked (by simp [becomesActive, hactive, ServerOp.activates])]
    simp [ServerOp.activates]
  · rw [since_cons_unmarked (by simp [becomesActive, hbefore, hop]),
      openChannels_append, hop]
    simp only [ne_eq, List.append_eq_nil_iff, true_and]
    tauto

theorem announced_lt (hk : k ≠ CHANNEL_ID) (c : Int)
    (h : Execution (machine β) history m) :
    Announced c k history → k < m.channelIdCount := by
  apply h.invariant (I := fun history m => Announced c k history → k < m.channelIdCount)
  · intro hannounced
    exact absurd rfl hannounced
  · intro history m m' op out hbefore hlt hstep hannounced
    have hm := valid_of_execution hbefore
    have heffect := hm.effect hstep
    by_cases hsent : openChannels c k out = []
    · have hold : Announced c k history := by
        unfold Announced since at hannounced
        split at hannounced
        · exact absurd hsent hannounced
        · rwa [openChannels_append, hsent, List.append_nil] at hannounced
      have hbelow := hlt hold
      have hle := heffect.channelIdCount_le
      omega
    · obtain ⟨message, hmem, -, hid, hopen⟩ := exists_openChannel hsent
      have htext := heffect.playerText hm hmem (hid ▸ hk)
      have hplayer := (htext.opens hopen).1
      exact hid ▸ ((heffect.valid hm).player_range _ hplayer).2

end Announced

end ServerChannelManager

end GBerry.Server
