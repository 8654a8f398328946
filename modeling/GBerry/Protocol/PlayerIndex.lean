import GBerry.Server.ChannelManager.PlayerMessages
import GBerry.Protocol.PlayerChannels
import GBerry.Protocol.PlayerConsole

/-!
# The index of the player channels

The maps of the manager are the two directions of one bijection, and their channels
are those of the server, as long as no player connects twice.  The channel of a player
who does is forgotten in one direction, and never closed.
-/

namespace GBerry.Protocol

open GBerry.Common
open GBerry.Foundation
open GBerry.Server

def allPlayerChannelIds (m : ServerChannelManager) : List Int := m.playerChannels.keys

def playerIdOf (m : ServerChannelManager) (k : Int) : Option Int :=
  m.playerChannels[k]?.map fun ch => ch.playerMeta.pid.toInt

def KeepsChannels {β : Type} (op : ServerOp β) : Prop :=
  (∀ playerMeta uninitialised, op ≠ .openPlayerChannel playerMeta uninitialised) ∧
    ∀ k, op ≠ .closePlayerChannel k

section Server

variable {β : Type} [QByteArray β] {m m' : ServerChannelManager} {op : ServerOp β}
  {out : List (Signal β)} {k : Int}

theorem mem_allPlayerChannelIds (m : ServerChannelManager) (k : Int) :
    k ∈ allPlayerChannelIds m ↔ ∃ playerId, playerIdOf m k = some playerId := by
  rw [allPlayerChannelIds, Std.ExtTreeMap.mem_keys, QMap.mem_iff, playerIdOf]
  simp only [Option.map_eq_some_iff]
  constructor
  · rintro ⟨ch, hch⟩
    exact ⟨_, ch, hch, rfl⟩
  · rintro ⟨_, ch, hch, -⟩
    exact ⟨ch, hch⟩

theorem playerIdOf_of_notMem (hk : k ∉ m.playerChannels) : playerIdOf m k = none := by
  rw [playerIdOf, (QMap.notMem_iff _ _).mp hk, Option.map_none]

theorem playerIdOf_kept (hm : m.Valid) (h : m.Effect op m' out)
    (hiff : k ∈ m'.playerChannels ↔ k ∈ m.playerChannels) :
    playerIdOf m' k = playerIdOf m k := by
  by_cases hk : k ∈ m.playerChannels
  · obtain ⟨ch, hch⟩ := (QMap.mem_iff _ _).mp hk
    obtain ⟨ch', hch'⟩ := (QMap.mem_iff _ _).mp (hiff.mpr hk)
    simp only [playerIdOf, hch, hch', Option.map_some, h.playerMeta_kept hm hch hch']
  · rw [playerIdOf_of_notMem hk, playerIdOf_of_notMem (fun hk' => hk (hiff.mp hk'))]

theorem playerIdOf_keeps (hm : m.Valid) (h : m.Effect op m' out) (hop : KeepsChannels op)
    (k : Int) : playerIdOf m' k = playerIdOf m k := by
  refine playerIdOf_kept hm h ⟨?_, ?_⟩
  · intro hk
    rcases h.mem_before hk with hold | ⟨-, playerMeta, uninitialised, heq⟩
    · exact hold
    · exact absurd heq (hop.1 playerMeta uninitialised)
  · intro hk
    exact (h.mem_after hk).resolve_right (hop.2 k)

theorem playerIdOf_opened {playerMeta : PlayerMeta} {uninitialised : PlayerChannelState}
    (hm : m.Valid) (h : m.Effect (.openPlayerChannel playerMeta uninitialised) m' out)
    (k : Int) : playerIdOf m' k =
      if k = m.channelIdCount then some playerMeta.pid.toInt else playerIdOf m k := by
  split
  · rename_i heq
    subst heq
    cases h with
    | ignored hignored => exact hignored.elim
    | joined _ _ =>
        simp only [playerIdOf, QMap.getElem?_insert, if_pos, Option.map_some,
          ServerSidePlayerChannel.opened_playerMeta]
        rfl
  · rename_i hne
    refine playerIdOf_kept hm h ⟨?_, ?_⟩
    · intro hk
      exact (h.mem_before hk).resolve_right fun hnew => hne hnew.1
    · intro hk
      exact (h.mem_after hk).resolve_right nofun

theorem playerIdOf_closed {channelId : Int} (hm : m.Valid)
    (h : m.Effect (.closePlayerChannel channelId) m' out) (k : Int) :
    playerIdOf m' k = if k = channelId then none else playerIdOf m k := by
  split
  · rename_i heq
    subst heq
    exact playerIdOf_of_notMem h.closePlayerChannel_notMem
  · rename_i hne
    refine playerIdOf_kept hm h ⟨?_, ?_⟩
    · intro hk
      exact (h.mem_before hk).resolve_right nofun
    · intro hk
      refine (h.mem_after hk).resolve_right ?_
      rintro ⟨⟩
      exact hne rfl

end Server

namespace PlayerSystem

variable {β : Type} [QByteArray β] {s s' : PlayerSystem β} {out : List (PlayerSignal β)}

structure KeepsPlayers (s s' : PlayerSystem β) : Prop where
  system : s'.system.Valid
  players : s'.players = s.players
  channels : ∀ k : Int, playerIdOf s'.system.server k = playerIdOf s.system.server k

theorem perform_keeps {ev : ProtocolEvent β} (hs : s.system.Valid)
    (h : s.perform ev = .ok (s', out))
    (hev : ∀ op, s.system.serverOp ev = some op → KeepsChannels op) : KeepsPlayers s s' := by
  obtain ⟨signals, hstep, hplayers, -⟩ := perform_ok h
  refine ⟨hs.step hstep, hplayers, ?_⟩
  intro k
  rcases hs.effect hstep with ⟨-, hsame, -⟩ | ⟨op, hop, heffect⟩
  · rw [hsame]
  · exact playerIdOf_keeps hs.server heffect (hev op hop) k

theorem perform_operation_keeps {op : { op : ServerOp β // op.spontaneous }}
    (hs : s.system.Valid) (h : s.perform (.serverOperation op) = .ok (s', out))
    (hop : KeepsChannels op.1) : KeepsPlayers s s' := by
  refine perform_keeps hs h ?_
  intro other hother
  rw [← Option.some.inj hother]
  exact hop

theorem serverOp_keepsChannels {s : System β} {ev : ProtocolEvent β}
    (hev : ev.ofPlayers = false) {op : ServerOp β} (hop : s.serverOp ev = some op) :
    KeepsChannels op := by
  refine ⟨?_, ?_⟩
  · rintro playerMeta uninitialised rfl
    cases ev with
    | serverOperation op =>
        obtain ⟨op, hspontaneous⟩ := op
        obtain rfl := Option.some.inj hop
        cases hev
    | connect connectionId commands applicationCode clientCommands =>
        simp only [System.serverOp] at hop
        split at hop <;> cases hop
    | deliverToServer connectionId =>
        simp only [System.serverOp] at hop
        split at hop <;> cases hop
    | _ => cases hop
  · rintro k rfl
    exact serverOp_ofPlayers hev k hop

theorem onNewPlayerConnection_ok {session : PlayerMeta} {uninitialised : PlayerChannelState}
    (hs : s.system.Valid) (h : s.onNewPlayerConnection session uninitialised = .ok (s', out)) :
    s'.system.Valid ∧
      s'.players = s.players.registerPlayer session.pid.toInt
        s.system.server.channelIdCount ∧
      ∀ k : Int, playerIdOf s'.system.server k =
        if k = s.system.server.channelIdCount then some session.pid.toInt
        else playerIdOf s.system.server k := by
  unfold onNewPlayerConnection at h
  split at h
  · cases h
  rename_i s₁ opened hopen
  simp only at h
  split at h
  · cases h
  rename_i s₂ attached hattach
  cases h
  obtain ⟨signals, hstep, hplayers, -⟩ := perform_ok hopen
  obtain ⟨hvalid, hplayers', hkept⟩ := perform_operation_keeps
    (s := { s₁ with
      players := s₁.players.registerPlayer session.pid.toInt
        s.system.server.channelIdCount }) (hs.step hstep) hattach ⟨nofun, nofun⟩
  refine ⟨hvalid, by rw [hplayers', hplayers], fun k => (hkept k).trans ?_⟩
  rcases hs.effect hstep with ⟨hnone, -⟩ | ⟨op, hop, heffect⟩
  · cases hnone
  · obtain rfl := Option.some.inj hop
    exact playerIdOf_opened hs.server heffect k

theorem onPlayerConnectionClosed_ok {playerId channelId : Int} (hs : s.system.Valid)
    (hchannel : s.players.channelByPlayerId[playerId]? = some channelId)
    (h : s.onPlayerConnectionClosed playerId = .ok (s', out)) :
    s'.system.Valid ∧ s'.players = s.players.removePlayer playerId channelId ∧
      ∀ k : Int, playerIdOf s'.system.server k =
        if k = channelId then none else playerIdOf s.system.server k := by
  unfold onPlayerConnectionClosed at h
  simp only [hchannel] at h
  obtain ⟨signals, hstep, hplayers, -⟩ := perform_ok h
  refine ⟨hs.step hstep, hplayers, fun k => ?_⟩
  rcases hs.effect hstep with ⟨hnone, -⟩ | ⟨op, hop, heffect⟩
  · cases hnone
  · obtain rfl := Option.some.inj hop
    exact playerIdOf_closed hs.server heffect k

end PlayerSystem

namespace PlayerConsole

variable {β : Type} [QByteArray β]

/-- The maps are inverse, and know the channels of the server, with their players. -/
structure Indexed (s : PlayerConsole β) : Prop where
  inverse : QMap.Inverse s.players.players.channelByPlayerId
    s.players.players.playerIdByChannelId
  channels : ∀ k : Int, k ∈ s.players.players.playerIdByChannelId ↔
    k ∈ allPlayerChannelIds s.players.system.server
  /-- The messages of a channel go to the player whom it was opened for. -/
  players : ∀ k playerId : Int, s.players.players.playerIdByChannelId[k]? = some playerId →
    playerIdOf s.players.system.server k = some playerId

/-- No socket is accepted for a player who has a connection. -/
def OpensFresh (st : Step (PlayerConsole β) (PlayerConsoleEvent β) (PlayerConsoleSignal β)) :
    Prop :=
  ∀ path token uninitialised session,
    st.label = .websocket (.newConnection path token) uninitialised →
    st.pre.websocket.sessionFor path token = some session →
    session.playerId ∉ st.pre.websocket.connectionByPlayerId

structure Connected (s : PlayerConsole β) : Prop where
  system : s.players.system.Valid
  player : ∀ playerId : Int32, playerId ∈ s.websocket.connectionByPlayerId ↔
    playerId.toInt ∈ s.players.players.channelByPlayerId

section Steps

variable {s s' : PlayerConsole β} {ev : PlayerConsoleEvent β}
  {out : List (PlayerConsoleSignal β)}

theorem connected_start : (start : PlayerConsole β).Connected where
  system := System.valid_start
  player playerId := by
    simp [start, WebsocketServer.start, PlayerSystem.start, PlayerConnectionManager.start]

omit [QByteArray β] in
theorem indexed_start : (start : PlayerConsole β).Indexed where
  inverse playerId k := by simp [start, PlayerSystem.start, PlayerConnectionManager.start]
  channels k := by
    simp [start, PlayerSystem.start, PlayerConnectionManager.start, allPlayerChannelIds,
      System.start, ServerChannelManager.start]
  players k playerId h := by
    simp [start, PlayerSystem.start, PlayerConnectionManager.start] at h

def NotAccepted (s : PlayerConsole β) (ev : PlayerConsoleEvent β) : Prop :=
  ∀ path token uninitialised, ev = .websocket (.newConnection path token) uninitialised →
    s.websocket.sessionFor path token = none

/-- What a step does to the players, with the guard of each case. -/
inductive Change (s : PlayerConsole β) (ev : PlayerConsoleEvent β) (s' : PlayerConsole β) :
    Prop
  | joined {path token : String} {uninitialised : PlayerChannelState}
      {session : PlayerSession} :
      ev = .websocket (.newConnection path token) uninitialised →
      s.websocket.sessionFor path token = some session →
      s'.websocket.connectionByPlayerId =
        s.websocket.connectionByPlayerId.insert session.playerId
          s.websocket.connectionCount →
      s'.players.players = s.players.players.registerPlayer session.playerId.toInt
        s.players.system.server.channelIdCount →
      (∀ k, playerIdOf s'.players.system.server k =
        if k = s.players.system.server.channelIdCount then some session.playerId.toInt
        else playerIdOf s.players.system.server k) → Change s ev s'
  | left {playerId : Int32} {channelId : Int} :
      s.NotAccepted ev → playerId ∈ s.websocket.connectionByPlayerId →
      s.players.players.channelByPlayerId[playerId.toInt]? = some channelId →
      s'.websocket.connectionByPlayerId = s.websocket.connectionByPlayerId.erase playerId →
      s'.players.players = s.players.players.removePlayer playerId.toInt channelId →
      (∀ k, playerIdOf s'.players.system.server k =
        if k = channelId then none else playerIdOf s.players.system.server k) →
      Change s ev s'
  | quiet :
      s.NotAccepted ev → s'.websocket.connectionByPlayerId = s.websocket.connectionByPlayerId →
      s'.players.players = s.players.players →
      (∀ k, playerIdOf s'.players.system.server k = playerIdOf s.players.system.server k) →
      Change s ev s'

theorem react_quiet {uninitialised : PlayerChannelState} {signal : WebsocketSignal β}
    (hquiet : WebsocketServer.Quiet signal) :
    Fallible.Ensures (fun p p' _ => p.system.Valid → PlayerSystem.KeepsPlayers p p')
      (react uninitialised signal) := by
  intro p p' out h hp
  cases signal with
  | newPlayerConnection _ => exact hquiet.elim
  | playerConnectionClosed _ => exact hquiet.elim
  | playerMessageReceived playerId message =>
      simp only [react, PlayerSystem.onPlayerMessageReceivedFromNorth] at h
      split at h
      · refine PlayerSystem.perform_operation_keeps hp h ⟨?_, ?_⟩
        · rintro _ _ ⟨⟩
        · rintro _ ⟨⟩
      · cases h
        exact ⟨hp, rfl, fun _ => rfl⟩
  | _ =>
      cases h
      exact ⟨hp, rfl, fun _ => rfl⟩

theorem keepsPlayers_composes : Fallible.Composes fun (p p' : PlayerSystem β)
    (_ : List (PlayerSignal β)) => p.system.Valid → PlayerSystem.KeepsPlayers p p' where
  refl _ := fun hp => ⟨hp, rfl, fun _ => rfl⟩
  trans := by
    intro p p' p'' out out' h h' hp
    have hfirst := h hp
    have hnext := h' hfirst.system
    exact ⟨hnext.system, hnext.players.trans hfirst.players,
      fun k => (hnext.channels k).trans (hfirst.channels k)⟩

theorem step_change (hs : s.Connected) (h : s.step ev = .ok (s', out)) :
    s'.players.system.Valid ∧ Change s ev s' := by
  cases ev with
  | protocol ev =>
      simp only [step] at h
      split at h
      · cases h
      · rename_i players signals hperform
        cases h
        obtain ⟨hvalid, hplayers, hkept⟩ := PlayerSystem.perform_keeps hs.system hperform
          fun op hop => PlayerSystem.serverOp_keepsChannels ev.2 hop
        exact ⟨hvalid, .quiet nofun rfl hplayers hkept⟩
  | websocket event uninitialised =>
      simp only [step] at h
      split at h
      · cases h
      rename_i players signals hreact
      cases h
      have heffect := s.websocket.perform_effect event
      generalize hmap : (s.websocket.perform event).1.connectionByPlayerId = after at heffect
      generalize (s.websocket.perform event).2 = told at heffect hreact
      cases heffect with
      | @joined path token session hsession =>
          obtain ⟨p₁, out₁, _, hnew, hskip, -⟩ := Fallible.andThen_ok hreact
          cases hskip
          obtain ⟨hvalid, hplayers, hkept⟩ :=
            PlayerSystem.onNewPlayerConnection_ok hs.system hnew
          exact ⟨hvalid, .joined rfl hsession hmap hplayers hkept⟩
      | @left _ playerId conn hnot hconn =>
          have hmem := QMap.mem_of_getElem? hconn
          obtain ⟨channelId, hchannel⟩ := (QMap.mem_iff _ _).mp ((hs.player playerId).mp hmem)
          obtain ⟨p₁, _, _, hdeleted, hrest, -⟩ := Fallible.andThen_ok hreact
          cases hdeleted
          obtain ⟨p₂, out₂, _, hclosed, hskip, -⟩ := Fallible.andThen_ok hrest
          cases hskip
          obtain ⟨hvalid, hplayers, hkept⟩ :=
            PlayerSystem.onPlayerConnectionClosed_ok hs.system hchannel hclosed
          refine ⟨hvalid, .left ?_ hmem hchannel hmap hplayers hkept⟩
          rintro path token _ ⟨⟩
          exact hnot path token rfl
      | quiet hnot hquiet =>
          obtain ⟨hvalid, hplayers, hkept⟩ := Fallible.Ensures.forEach keepsPlayers_composes
            (fun signal hsignal => react_quiet (hquiet signal hsignal)) _ _ _ hreact hs.system
          refine ⟨hvalid, .quiet ?_ hmap hplayers hkept⟩
          rintro path token _ ⟨⟩
          exact hnot path token rfl

omit [QByteArray β] in
theorem indexed_iff : s.Indexed ↔
    QMap.Inverse s.players.players.channelByPlayerId s.players.players.playerIdByChannelId ∧
      ∀ k : Int, s.players.players.playerIdByChannelId[k]? =
        playerIdOf s.players.system.server k := by
  constructor
  · intro hs
    refine ⟨hs.inverse, fun k => Option.ext fun playerId => ⟨hs.players k playerId, ?_⟩⟩
    intro howner
    have hopen := (mem_allPlayerChannelIds _ k).mpr ⟨playerId, howner⟩
    obtain ⟨known, hknown⟩ := (QMap.mem_iff _ _).mp ((hs.channels k).mpr hopen)
    rw [hknown, ← howner, hs.players k known hknown]
  · rintro ⟨hinverse, hlookup⟩
    refine ⟨hinverse, ?_, ?_⟩
    · intro k
      rw [QMap.mem_iff, mem_allPlayerChannelIds, hlookup]
    · intro k playerId hplayer
      rw [← hlookup, hplayer]

theorem Change.connected (hs : s.Connected) (h : Change s ev s')
    (playerId : Int32) : playerId ∈ s'.websocket.connectionByPlayerId ↔
      playerId.toInt ∈ s'.players.players.channelByPlayerId := by
  cases h with
  | joined _ _ hconnections hplayers _ =>
      rw [hconnections, hplayers, PlayerConnectionManager.registerPlayer, QMap.mem_insert_iff,
        QMap.mem_insert_iff, hs.player, Int32.toInt_inj]
  | left _ _ _ hconnections hplayers _ =>
      rw [hconnections, hplayers, PlayerConnectionManager.removePlayer, QMap.mem_erase_iff,
        QMap.mem_erase_iff, hs.player, Ne, Ne, Int32.toInt_inj]
  | quiet _ hconnections hplayers _ =>
      rw [hconnections, hplayers, hs.player]

theorem Connected.fresh (hs : s.Connected) (hindexed : s.Indexed) :
    s.players.system.server.channelIdCount ∉ s.players.players.playerIdByChannelId := by
  intro hknown
  have hopen := Std.ExtTreeMap.mem_keys.mp ((hindexed.channels _).mp hknown)
  have hrange := hs.system.server.player_range _ hopen
  omega

omit [QByteArray β] in
theorem opensFresh_of_notAccepted (h : s.NotAccepted ev) :
    OpensFresh ⟨s, ev, out, s'⟩ := by
  intro path token uninitialised session hlabel hsession
  have hnone := h path token uninitialised hlabel
  cases hnone.symm.trans hsession

theorem Change.indexed_iff (hs : s.Connected) (hindexed : s.Indexed) (h : Change s ev s') :
    s'.Indexed ↔ OpensFresh ⟨s, ev, out, s'⟩ := by
  obtain ⟨hinverse, hlookup⟩ := PlayerConsole.indexed_iff.mp hindexed
  cases h with
  | @joined path token uninitialised session hev hsession _ hplayers hchannels =>
      have hfresh := hs.fresh hindexed
      by_cases hmem : session.playerId ∈ s.websocket.connectionByPlayerId
      · refine iff_of_false ?_ ?_
        · intro hindexed'
          have hback := hindexed'.inverse
          rw [hplayers] at hback
          exact QMap.not_inverse_insert hinverse ((hs.player _).mp hmem) hfresh hback
        · intro hopens
          exact hopens path token uninitialised session hev hsession hmem
      · refine iff_of_true (PlayerConsole.indexed_iff.mpr ⟨?_, ?_⟩) ?_
        · rw [hplayers]
          exact hinverse.insert (fun hknown => hmem ((hs.player _).mpr hknown)) hfresh
        · intro k
          rw [hchannels, ← hlookup, hplayers, PlayerConnectionManager.registerPlayer,
            QMap.getElem?_insert]
        · intro path' token' uninitialised' session' hlabel hsession'
          cases hev.symm.trans hlabel
          cases hsession.symm.trans hsession'
          exact hmem
  | left hnot _ hchannel _ hplayers hchannels =>
      refine iff_of_true (PlayerConsole.indexed_iff.mpr ⟨?_, ?_⟩)
        (opensFresh_of_notAccepted hnot)
      · rw [hplayers]
        exact hinverse.erase hchannel
      · intro k
        rw [hchannels, ← hlookup, hplayers, PlayerConnectionManager.removePlayer,
          QMap.getElem?_erase]
  | quiet hnot _ hplayers hchannels =>
      refine iff_of_true (PlayerConsole.indexed_iff.mpr ⟨?_, ?_⟩)
        (opensFresh_of_notAccepted hnot)
      · rw [hplayers]
        exact hinverse
      · intro k
        rw [hchannels, ← hlookup, hplayers]

end Steps

theorem always_indexed_iff {history : History β} {s : PlayerConsole β}
    (h : Execution (machine β) history s) :
    Execution.Always (machine β) (fun _ s => s.Indexed) history ↔
      ∀ st ∈ history, OpensFresh st := by
  refine Execution.always_iff indexed_start ?_ h
  intro older s s' ev out hexec hindexed hstep
  have hconnected : s.Connected := by
    refine hexec.state_invariant connected_start ?_
    intro s s' ev out hs hstep
    obtain ⟨hvalid, hchange⟩ := step_change hs hstep
    exact ⟨hvalid, hchange.connected hs⟩
  exact (step_change hconnected hstep).2.indexed_iff hconnected hindexed

def openSession : PlayerConsoleEvent Text :=
  .websocket (.post ⟨"/console/v1/session", "application/json",
    .document [("action", .string "open_console_session"), ("id", .string "guest"),
      ("name", .string "ann")]⟩) .CHANNEL_CLOSED

def connects : PlayerConsoleEvent Text :=
  .websocket (.newConnection "/open" "abc100") .CHANNEL_CLOSED

theorem connectsOnce_indexed :
    ∃ history s, (machine Text).run [openSession, connects] = .ok (history, s) ∧
      Execution.Always (machine Text) (fun _ s => s.Indexed) history := by
  refine ⟨_, _, rfl, (always_indexed_iff (Machine.run_execution
    (show (machine Text).run [openSession, connects] = .ok (_, _) from rfl))).mpr ?_⟩
  intro st hst
  rcases List.mem_pair.mp hst with rfl | rfl
  · intro path token uninitialised session _ _
    exact Std.ExtTreeMap.not_mem_empty
  · intro path token uninitialised session hlabel
    cases hlabel

/-- The first channel of a player stays open when the second socket connects. -/
theorem connectsTwice_stale :
    ∃ history s, (machine Text).run [openSession, connects, connects] = .ok (history, s) ∧
      decide (s.players.players.playerIdByChannelId[(1 : Int)]? = some (-2) ∧
        s.players.players.channelByPlayerId[(-2 : Int)]? = some 2) = true := by
  apply Machine.exists_run
  decide +kernel

theorem connectsTwice_notIndexed :
    ∃ history s, (machine Text).run [openSession, connects, connects] = .ok (history, s) ∧
      ¬ Execution.Always (machine Text) (fun _ s => s.Indexed) history := by
  obtain ⟨history, s, hrun, hcheck⟩ := connectsTwice_stale
  obtain ⟨hstale, hcurrent⟩ := of_decide_eq_true hcheck
  refine ⟨history, s, hrun, ?_⟩
  intro halways
  have hindexed := halways history s List.suffix_rfl (Machine.run_execution hrun)
  have hback := (hindexed.inverse (-2) 1).mpr hstale
  cases hback.symm.trans hcurrent

end PlayerConsole

end GBerry.Protocol
