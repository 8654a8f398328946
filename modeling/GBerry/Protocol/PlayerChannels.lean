import GBerry.Protocol.Invariant
import GBerry.Protocol.Players

/-!
# The channels of the players

A player that the manager knows has a registered channel, which hands over to
the manager what the application writes, and the channels of every client have
both of their partners.
-/

namespace GBerry.Protocol.PlayerSystem

open GBerry.Common
open GBerry.Foundation
open GBerry.Server
open GBerry.Client

variable {β : Type} [QByteArray β]

section Clients

variable {s s' : System β} {ev : ProtocolEvent β} {out : List (ProtocolSignal β)}

def Continued (client client' : ClientChannelManager) (β : Type) [QByteArray β] : Prop :=
  client' = client ∨ ∃ (k : Int) (msg : β), client' = (client.processMessage k msg).1

theorem continued_insert {peers : QMap Int (Peer β)} {c d : Int} {p q p' : Peer β}
    (hq : peers[d]? = some q) (hclient : Continued q.client p.client β)
    (hp' : (peers.insert d p)[c]? = some p') :
    ∃ p, peers[c]? = some p ∧ Continued p.client p'.client β := by
  rw [QMap.getElem?_insert] at hp'
  split at hp'
  · rename_i heq
    cases hp'
    exact ⟨q, heq ▸ hq, hclient⟩
  · exact ⟨p', hp', .inl rfl⟩

theorem step_client (h : s.step ev = .ok (s', out)) {c : Int} {p' : Peer β}
    (hp' : s'.peers[c]? = some p') :
    (∃ applicationCode clientCommands,
        p'.client = (Peer.connected (β := β) applicationCode clientCommands).client) ∨
      ∃ p, s.peers[c]? = some p ∧ Continued p.client p'.client β := by
  have hkept (hpeers : s'.peers[c]? = s.peers[c]?) :
      ∃ p, s.peers[c]? = some p ∧ Continued p.client p'.client β :=
    ⟨p', hpeers ▸ hp', .inl rfl⟩
  cases ev with
  | connect connectionId commands applicationCode clientCommands =>
      simp only [System.step, System.connect] at h
      split at h
      · cases h
        exact .inr (hkept rfl)
      · rw [(System.serve_ok h).2 c] at hp'
        obtain ⟨p, hp, rfl⟩ := Option.map_eq_some_iff.mp hp'
        rw [QMap.getElem?_insert] at hp
        split at hp
        · cases hp
          exact .inl ⟨applicationCode, clientCommands, rfl⟩
        · exact .inr ⟨p, hp, .inl rfl⟩
  | serverOperation op =>
      rw [(System.serve_ok h).2 c] at hp'
      obtain ⟨p, hp, rfl⟩ := Option.map_eq_some_iff.mp hp'
      exact .inr ⟨p, hp, .inl rfl⟩
  | deliverToClient connectionId =>
      simp only [System.step, System.deliverToClient] at h
      split at h
      · rename_i client k msg toClient toServer hpeer
        cases h
        exact .inr (continued_insert hpeer (.inr ⟨k, msg, rfl⟩) hp')
      · cases h
        exact .inr (hkept rfl)
  | deliverToServer connectionId =>
      simp only [System.step, System.deliverToServer] at h
      split at h
      · rename_i client toClient k msg toServer hpeer
        rw [(System.serve_ok h).2 c] at hp'
        obtain ⟨p, hp, rfl⟩ := Option.map_eq_some_iff.mp hp'
        obtain ⟨q, hq, hclient⟩ := continued_insert
          (p := ⟨client, toClient, toServer⟩) hpeer (.inl rfl) hp
        exact .inr ⟨q, hq, hclient⟩
      · cases h
        exact .inr (hkept rfl)
  | sendPlayerMessage connectionId k msg =>
      simp only [System.step] at h
      split at h
      · rename_i p hpeer
        cases h
        refine .inr (continued_insert hpeer ?_ hp')
        exact .inl rfl
      · cases h
        exact .inr (hkept rfl)
  | sendControlMessage connectionId msg =>
      simp only [System.step] at h
      split at h
      · rename_i p hpeer
        cases h
        refine .inr (continued_insert hpeer ?_ hp')
        exact .inl rfl
      · cases h
        exact .inr (hkept rfl)

def ClientsAttached (s : System β) : Prop :=
  ∀ (c : Int) (p : Peer β), s.peers[c]? = some p → p.client.Attached ∧ p.client.Served

theorem ClientsAttached.step (hs : ClientsAttached s) (h : s.step ev = .ok (s', out)) :
    ClientsAttached s' := by
  intro c p' hp'
  rcases step_client h hp' with ⟨applicationCode, clientCommands, hnew⟩ |
    ⟨p, hp, hsame | ⟨k, msg, hmessage⟩⟩
  · rw [hnew]
    refine ⟨ClientChannelManager.attached_registered _, ?_⟩
    intro k ch hch
    simp [Peer.connected, ClientChannelManager.registerControlChannel,
      ClientChannelManager.start] at hch
  · rw [hsame]
    exact hs c p hp
  · obtain ⟨hattached, hserved⟩ := hs c p hp
    rw [hmessage]
    exact ⟨hattached.processMessage k msg, hserved.processMessage hattached k msg⟩

def NorthAttached (m : ServerChannelManager) (k : Int) : Prop :=
  ∃ ch, m.playerChannels[k]? = some ch ∧ ch.northPartner = some k

end Clients

section Server

variable {m m' : ServerChannelManager} {op : ServerOp β} {out : List (Signal β)} {k : Int}

theorem receiveMessageFromSouth_northPartner (ch : ServerSidePlayerChannel) (msg : β) :
    (ch.receiveMessageFromSouth msg).1.northPartner = ch.northPartner := by
  unfold ServerSidePlayerChannel.receiveMessageFromSouth
    ServerSidePlayerChannel.processJsonMessage
  repeat' split
  all_goals rfl

theorem opened_northPartner (ch : ServerSidePlayerChannel) :
    ch.opened.northPartner = ch.northPartner := by
  unfold ServerSidePlayerChannel.opened
  split <;> rfl

theorem NorthAttached.effect (hm : m.Valid) (h : m.Effect op m' out)
    (hk : NorthAttached m k) (hop : op ≠ .closePlayerChannel k) : NorthAttached m' k := by
  obtain ⟨ch, hch, hnorth⟩ := hk
  have hmem := (h.mem_after (QMap.mem_of_getElem? hch)).resolve_right hop
  obtain ⟨ch', hch'⟩ := (QMap.mem_iff _ _).mp hmem
  refine ⟨ch', hch', ?_⟩
  cases h.channelFate hm hch hch' with
  | untouched => exact hnorth
  | northAttached => rfl
  | received msg => rw [receiveMessageFromSouth_northPartner, hnorth]
  | reopened hbefore _ =>
      rw [opened_northPartner]
      rcases hbefore with rfl | rfl
      · exact hnorth
      · exact hnorth
  | deactivated _ => exact hnorth
  | disconnected _ _ => exact hnorth

end Server

structure Sound (s : PlayerSystem β) : Prop where
  system : s.system.Valid
  clients : ClientsAttached s.system
  player : ∀ playerId k : Int, s.players.channelByPlayerId[playerId]? = some k →
    s.players.playerIdByChannelId[k]? = some playerId
  channel : ∀ k ∈ s.players.playerIdByChannelId, NorthAttached s.system.server k

section Steps

variable {s s' : PlayerSystem β} {ev : ProtocolEvent β} {out : List (PlayerSignal β)}

theorem perform_ok (h : s.perform ev = .ok (s', out)) :
    ∃ signals, s.system.step ev = .ok (s'.system, signals) ∧
      s'.players = s.players ∧ out = signals.flatMap (forward s.players) := by
  unfold perform at h
  split at h
  · cases h
  · rename_i system signals hstep
    cases h
    exact ⟨signals, hstep, rfl, rfl⟩

theorem perform_serverOperation {op : { op : ServerOp β // op.spontaneous }}
    (h : s.perform (.serverOperation op) = .ok (s', out)) :
    ∃ signals, s.system.server.step op.1 = .ok (s'.system.server, signals) := by
  obtain ⟨signals, hstep, -, -⟩ := perform_ok h
  have hserve : s.system.serve op.1 = .ok (s'.system, signals) := hstep
  exact ⟨_, (System.serve_ok hserve).1⟩

theorem perform_northAttached (hs : s.system.Valid) (h : s.perform ev = .ok (s', out))
    {k : Int} (hk : NorthAttached s.system.server k)
    (hop : s.system.serverOp ev ≠ some (.closePlayerChannel k)) :
    NorthAttached s'.system.server k := by
  obtain ⟨signals, hstep, -, -⟩ := perform_ok h
  rcases hs.effect hstep with ⟨-, hsame, -⟩ | ⟨op, heq, heffect⟩
  · exact hsame ▸ hk
  · refine hk.effect hs.server heffect ?_
    rintro rfl
    exact hop heq

theorem perform_system (hs : s.system.Valid) (hclients : ClientsAttached s.system)
    (h : s.perform ev = .ok (s', out)) :
    s'.system.Valid ∧ ClientsAttached s'.system := by
  obtain ⟨signals, hstep, -, -⟩ := perform_ok h
  exact ⟨hs.step hstep, hclients.step hstep⟩

theorem Sound.perform (hs : s.Sound) (h : s.perform ev = .ok (s', out))
    (hop : ∀ k ∈ s.players.playerIdByChannelId,
      s.system.serverOp ev ≠ some (.closePlayerChannel k)) : s'.Sound := by
  obtain ⟨signals, -, hplayers, -⟩ := perform_ok h
  obtain ⟨hvalid, hclients⟩ := perform_system hs.system hs.clients h
  refine ⟨hvalid, hclients, ?_, ?_⟩
  · rw [hplayers]
    exact hs.player
  · rw [hplayers]
    intro k hk
    exact perform_northAttached hs.system h (hs.channel k hk) (hop k hk)

omit [QByteArray β] in
theorem serverOp_ofPlayers [QByteArray β] {s : System β} (hev : ev.ofPlayers = false)
    (k : Int) : s.serverOp ev ≠ some (.closePlayerChannel k) := by
  cases ev with
  | serverOperation op =>
      obtain ⟨op, hspontaneous⟩ := op
      rintro heq
      obtain rfl := Option.some.inj heq
      cases hev
  | connect connectionId commands applicationCode clientCommands =>
      simp only [System.serverOp]
      split <;> simp
  | deliverToServer connectionId =>
      simp only [System.serverOp]
      split <;> simp
  | _ => simp [System.serverOp]

theorem Sound.playerConnectionClosed (hs : s.Sound) {playerId : Int}
    (h : s.onPlayerConnectionClosed playerId = .ok (s', out)) : s'.Sound := by
  unfold onPlayerConnectionClosed at h
  split at h
  · rename_i channelId hplayer
    have hchannel := hs.player playerId channelId hplayer
    refine Sound.perform
      (s := { s with players := s.players.removePlayer playerId channelId })
      ⟨hs.system, hs.clients, ?_, ?_⟩ h ?_
    · intro other k hother
      simp only [PlayerConnectionManager.removePlayer, QMap.getElem?_erase,
        Option.ite_none_left_eq_some] at hother ⊢
      have hknown := hs.player other k hother.2
      refine ⟨?_, hknown⟩
      rintro rfl
      rw [hchannel, Option.some.injEq] at hknown
      exact hother.1 hknown.symm
    · intro k hk
      exact hs.channel k ((QMap.mem_erase_iff _ _ _).mp hk).2
    · intro k hk heq
      have hne := ((QMap.mem_erase_iff _ _ _).mp hk).1
      simp only [System.serverOp, Option.some.injEq, ServerOp.closePlayerChannel.injEq]
        at heq
      exact hne heq.symm
  · cases h
    exact hs

theorem perform_openPlayerChannel {session : PlayerMeta}
    {uninitialised : PlayerChannelState} (hs : s.system.Valid)
    (h : s.perform (.serverOperation ⟨.openPlayerChannel session uninitialised, rfl⟩) =
      .ok (s', out)) :
    ∃ ch, s'.system.server.playerChannels[s.system.server.channelIdCount]? = some ch := by
  obtain ⟨signals, hstep⟩ := perform_serverOperation h
  have heffect := hs.server.effect hstep
  generalize s'.system.server = m' at heffect
  cases heffect with
  | ignored hignored => exact hignored.elim
  | joined _ _ => exact ⟨_, by rw [QMap.getElem?_insert, if_pos rfl]⟩

theorem perform_attachNorthPartner {k : Int} {ch : ServerSidePlayerChannel}
    (hch : s.system.server.playerChannels[k]? = some ch)
    (h : s.perform (.serverOperation ⟨.attachNorthPartner k, rfl⟩) = .ok (s', out)) :
    NorthAttached s'.system.server k := by
  obtain ⟨signals, hserver⟩ := perform_serverOperation h
  simp only [ServerChannelManager.step, ServerChannelManager.attachNorthPartner, hch,
    Except.ok.injEq, Prod.mk.injEq] at hserver
  rw [NorthAttached, ← hserver.1]
  exact ⟨_, by rw [QMap.getElem?_insert, if_pos rfl], rfl⟩

theorem sound_attachNorthPartner {k : Int} (hs : s.system.Valid)
    (hclients : ClientsAttached s.system)
    (hplayer : ∀ playerId k' : Int, s.players.channelByPlayerId[playerId]? = some k' →
      s.players.playerIdByChannelId[k']? = some playerId)
    (hk : k ∈ s.system.server.playerChannels)
    (hothers : ∀ k' ∈ s.players.playerIdByChannelId,
      k' = k ∨ NorthAttached s.system.server k')
    (h : s.perform (.serverOperation ⟨.attachNorthPartner k, rfl⟩) = .ok (s', out)) :
    s'.Sound := by
  obtain ⟨-, -, hplayers, -⟩ := perform_ok h
  obtain ⟨hvalid, hclients⟩ := perform_system hs hclients h
  refine ⟨hvalid, hclients, ?_, ?_⟩
  · rw [hplayers]
    exact hplayer
  · rw [hplayers]
    intro k' hk'
    rcases hothers k' hk' with rfl | hnorth
    · obtain ⟨ch, hch⟩ := (QMap.mem_iff _ _).mp hk
      exact perform_attachNorthPartner hch h
    · exact perform_northAttached hs h hnorth (by simp [System.serverOp])

theorem Sound.newPlayerConnection (hs : s.Sound) {session : PlayerMeta}
    {uninitialised : PlayerChannelState}
    (h : s.onNewPlayerConnection session uninitialised = .ok (s', out)) : s'.Sound := by
  unfold onNewPlayerConnection at h
  split at h
  · cases h
  rename_i s₁ opened hopen
  simp only at h
  split at h
  · cases h
  rename_i s₂ attached hattach
  cases h
  obtain ⟨-, -, hplayers, -⟩ := perform_ok hopen
  obtain ⟨hvalid, hclients⟩ := perform_system hs.system hs.clients hopen
  have hfresh : ∀ k ∈ s.players.playerIdByChannelId,
      k ≠ s.system.server.channelIdCount := by
    intro k hk
    obtain ⟨ch, hch, -⟩ := hs.channel k hk
    have hrange := hs.system.server.player_range k (QMap.mem_of_getElem? hch)
    omega
  refine sound_attachNorthPartner (s := { s₁ with
    players := s₁.players.registerPlayer session.pid.toInt s.system.server.channelIdCount })
    hvalid hclients ?_ ?_ ?_ hattach
  · intro playerId k hplayer
    simp only [PlayerConnectionManager.registerPlayer, QMap.getElem?_insert, hplayers]
      at hplayer ⊢
    split at hplayer
    · rename_i heq
      cases hplayer
      rw [if_pos rfl, heq]
    · have hknown := hs.player playerId k hplayer
      rw [if_neg (hfresh k (QMap.mem_of_getElem? hknown)), hknown]
  · obtain ⟨ch, hch⟩ := perform_openPlayerChannel hs.system hopen
    exact QMap.mem_of_getElem? hch
  · intro k hk
    rcases (QMap.mem_insert_iff _ _ _ _).mp hk with heq | hold
    · exact .inl heq
    · rw [hplayers] at hold
      exact .inr (perform_northAttached hs.system hopen (hs.channel k hold)
        (by simp [System.serverOp]))

theorem Sound.step (hs : s.Sound) {ev : PlayerEvent β} (h : s.step ev = .ok (s', out)) :
    s'.Sound := by
  cases ev with
  | protocol ev => exact hs.perform h fun k _ => serverOp_ofPlayers ev.2 k
  | newPlayerConnection session uninitialised => exact hs.newPlayerConnection h
  | playerConnectionClosed playerId => exact hs.playerConnectionClosed h
  | playerMessageReceived playerId message =>
      simp only [PlayerSystem.step, onPlayerMessageReceivedFromNorth] at h
      split at h
      · exact hs.perform h (by simp [System.serverOp])
      · cases h
        exact hs

theorem sound_start : (start : PlayerSystem β).Sound where
  system := System.valid_start
  clients c p hp := by simp [start, System.start] at hp
  player playerId k hk := by simp [start, PlayerConnectionManager.start] at hk
  channel k hk := by simp [start, PlayerConnectionManager.start] at hk

theorem sound_of_execution {history : History β} (h : Execution (machine β) history s) :
    s.Sound :=
  h.state_invariant sound_start fun hs hstep => hs.step hstep

end Steps

end GBerry.Protocol.PlayerSystem
