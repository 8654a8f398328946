import GBerry.Protocol.PlayerChannels

/-!
# The texts of players, end to end

What a player writes should reach the application as the UTF-8 bytes of the same
text, and what the application writes in UTF-8 should reach the player.  On both
ways the text is written in Latin-1 somewhere and read as UTF-8 up to the first
0 byte later, so that exactly the ASCII texts without U+0000 arrive.
-/

namespace GBerry.Protocol.PlayerSystem

open GBerry.Common
open GBerry.Foundation
open GBerry.Server
open GBerry.Client
open ServerSideControlChannel (CHANNEL_ID)

section Definitions

variable {β : Type} [UnicodeByteArray β]

structure OpenOnBothSides (s : PlayerSystem β) (playerId k : Int) (c : Nat) : Prop where
  player : s.players.channelByPlayerId[playerId]? = some k
  active : s.system.server.activeConnectionId = c
  server : ∃ ch, s.system.server.playerChannels[k]? = some ch ∧ ch.isOpen = true
  client : ∃ p, s.system.peers[(c : Int)]? = some p ∧ k ∈ p.client.playerChannels

def SentToClient (s s' : PlayerSystem β) (c : Nat) (frame : Frame β) : Prop :=
  ∀ x : Int, s'.system.peers[x]? = s.system.peers[x]?.map fun p =>
    p.send (if x = c then [frame] else [])

def SentToServer (s s' : PlayerSystem β) (c : Nat) (frame : Frame β) : Prop :=
  ∀ x : Int, s'.system.peers[x]? = s.system.peers[x]?.map fun p =>
    { p with toServer := p.toServer ++ if x = c then [frame] else [] }

def asked (out : List (PlayerSignal β)) : List (Int × String) :=
  out.filterMap fun
    | .sendPlayerMessage playerId message => some (playerId, message)
    | .protocol _ => none

/--
The text of the player becomes one frame, and a client that takes it from its
link while it has the channel calls `playerMessage` once, with the text in UTF-8.
-/
def ReachesApplication (s : PlayerSystem β) (playerId k : Int) (c : Nat)
    (text : String) : Prop :=
  ∃ msg : β,
    (∃ s' out, s.step (.playerMessageReceived playerId text) = .ok (s', out) ∧
      SentToClient s s' c (k, msg)) ∧
    ∀ (history : History β) (t : PlayerSystem β) (q : Peer β) (rest : List (Frame β)),
      Execution (machine β) history t → t.system.peers[(c : Int)]? = some q →
      q.toClient = (k, msg) :: rest → k ∈ q.client.playerChannels →
      ∃ t' got, t.step (.protocol ⟨.deliverToClient c, rfl⟩) =
          .ok (t', [.protocol (.client c (.playerMessage k got))]) ∧
        decodeUtf8 (UnicodeByteArray.bytes got) = text.toList

/--
The bytes of the application become one frame, and the server that takes it from
the link while the channel is open asks the websocket server once, for the text.
-/
def ReachesPlayer (s : PlayerSystem β) (playerId k : Int) (c : Nat)
    (text : String) : Prop :=
  ∀ given : β, UnicodeByteArray.bytes given = encodeUtf8 text.toList →
    ∃ msg : β,
      (∃ s' out, s.step (.protocol ⟨.sendPlayerMessage c k given, rfl⟩) = .ok (s', out) ∧
        SentToServer s s' c (k, msg)) ∧
      ∀ (history : History β) (t : PlayerSystem β) (q : Peer β) (rest : List (Frame β)),
        Execution (machine β) history t → t.OpenOnBothSides playerId k c →
        t.system.peers[(c : Int)]? = some q → q.toServer = (k, msg) :: rest →
        ∃ t' out, t.step (.protocol ⟨.deliverToServer c, rfl⟩) = .ok (t', out) ∧
          asked out = [(playerId, text)]

/-- The text arrives on both ways, unless the player asks for the main menu with it. -/
def TextArrives (s : PlayerSystem β) (playerId k : Int) (c : Nat) (text : String) : Prop :=
  (ServerSidePlayerChannel.isGoToMainMenu (toUtf8 text : β) = false →
      s.ReachesApplication playerId k c text) ∧
    s.ReachesPlayer playerId k c text

end Definitions

section Steps

variable {β : Type} [QByteArray β] {s t : PlayerSystem β} {playerId k : Int} {c : Nat}

theorem Sound.serverChannel (hs : s.Sound)
    (hplayer : s.players.channelByPlayerId[playerId]? = some k)
    (hopen : ∃ ch, s.system.server.playerChannels[k]? = some ch ∧ ch.isOpen = true) :
    ∃ ch, s.system.server.playerChannels[k]? = some ch ∧ ch.isOpen = true ∧
      ch.southPartner = some k ∧ ch.northPartner = some k ∧ k ≠ CHANNEL_ID := by
  obtain ⟨ch, hch, hopen⟩ := hopen
  obtain ⟨ch', hch', hnorth⟩ :=
    hs.channel k (QMap.mem_of_getElem? (hs.player playerId k hplayer))
  obtain rfl := Option.some.inj (hch.symm.trans hch')
  have hsouth := (hs.system.server.player_attached k ch hch).south_eq
  have hrange := hs.system.server.player_range k (QMap.mem_of_getElem? hch)
  refine ⟨ch, hch, hopen, hsouth, hnorth, ?_⟩
  unfold CHANNEL_ID
  omega

omit [QByteArray β] in
theorem framesTo_emit (m : ServerChannelManager) (c x k : Int) (msg : β) :
    framesTo x [m.emit c k msg] = if x = c then [(k, msg)] else [] := by
  unfold framesTo ServerChannelManager.emit
  by_cases heq : x = c
  · simp [heq]
  · simp [heq, Ne.symm heq]

theorem serve_of_step {s : System β} {op : ServerOp β} {m : ServerChannelManager}
    {signals : List (Signal β)} (h : s.server.step op = .ok (m, signals)) :
    s.serve op =
      .ok ({ server := m
             peers := s.peers.map fun x p => p.send (framesTo x signals) },
        signals.map ProtocolSignal.server) := by
  simp only [System.serve, h]

theorem perform_of_serverStep {op : { op : ServerOp β // op.spontaneous }}
    {m : ServerChannelManager} {signals : List (Signal β)}
    (h : s.system.server.step op.1 = .ok (m, signals)) :
    s.perform (.serverOperation op) =
      .ok ({ s with
          system :=
            { server := m
              peers := s.system.peers.map fun x p => p.send (framesTo x signals) } },
        (signals.map ProtocolSignal.server).flatMap (forward s.players)) := by
  simp only [perform, System.step, serve_of_step h]

theorem processMessageFromSouth_keeps {m : ServerChannelManager} (hm : m.Valid)
    (hactive : m.activeConnectionId = c)
    (hopen : ∃ ch, m.playerChannels[k]? = some ch ∧ ch.isOpen = true) (x : Int) (msg : β) :
    (m.processMessageFromSouth c x msg).1.activeConnectionId = c ∧
      ∃ ch, (m.processMessageFromSouth c x msg).1.playerChannels[k]? = some ch ∧
        ch.isOpen = true := by
  obtain ⟨ch, hch, hopen⟩ := hopen
  have heffect := ServerChannelManager.processMessageFromSouth_effect (m := m) c x msg
  generalize (m.processMessageFromSouth c x msg).1 = m' at heffect ⊢
  generalize (m.processMessageFromSouth c x msg).2 = out at heffect
  have hactive' : m'.activeConnectionId = c := by
    cases heffect <;> exact hactive
  refine ⟨hactive', ?_⟩
  have hmem := (heffect.mem_after (QMap.mem_of_getElem? hch)).resolve_right (by simp)
  obtain ⟨ch', hch'⟩ := (QMap.mem_iff _ _).mp hmem
  have hstate : ch.state = .CHANNEL_OPEN := by
    simpa [ServerSidePlayerChannel.isOpen] using hopen
  rcases heffect.stays_open hm hactive' rfl hch hch' hstate with hstays | ⟨x, hop, -⟩
  · exact ⟨ch', hch', by simpa [ServerSidePlayerChannel.isOpen] using hstays⟩
  · cases hop

omit [QByteArray β] in
theorem getElem?_sent (peers : QMap Int (Peer β)) (x : Int) (p : Peer β)
    (out : List (Signal β)) :
    ((peers.insert x p).map fun y q => q.send (framesTo y out))[x]? =
      some (p.send (framesTo x out)) := by
  simp

theorem step_deliverToServer_keeps (ht : t.Sound) (hopen : t.OpenOnBothSides playerId k c)
    {q : Peer β} {frame : Frame β} {rest : List (Frame β)}
    (hq : t.system.peers[(c : Int)]? = some q) (hfront : q.toServer = frame :: rest) :
    ∃ t' out q', t.step (.protocol ⟨.deliverToServer c, rfl⟩) = .ok (t', out) ∧
      t'.OpenOnBothSides playerId k c ∧ t'.system.peers[(c : Int)]? = some q' ∧
      q'.toServer = rest := by
  obtain ⟨client, toClient, toServer⟩ := q
  obtain ⟨x, msg⟩ := frame
  simp only at hfront
  subst hfront
  have hmessage : t.system.server.step (.processMessageFromSouth c x msg) =
      .ok ((t.system.server.processMessageFromSouth c x msg).1,
        (t.system.server.processMessageFromSouth c x msg).2) := rfl
  have hserve := serve_of_step (s := { t.system with
    peers := t.system.peers.insert c ⟨client, toClient, rest⟩ }) hmessage
  have hstep : t.step (.protocol ⟨.deliverToServer c, rfl⟩) =
      t.perform (.deliverToServer c) := rfl
  simp only [perform, System.step, System.deliverToServer, hq, hserve] at hstep
  obtain ⟨hactive, hserver⟩ :=
    processMessageFromSouth_keeps ht.system.server hopen.active hopen.server x msg
  obtain ⟨p, hp, hk⟩ := hopen.client
  obtain rfl := Option.some.inj (hp.symm.trans hq)
  have hq' := getElem?_sent t.system.peers (c : Int) ⟨client, toClient, rest⟩
    (t.system.server.processMessageFromSouth c x msg).2
  exact ⟨_, _, _, hstep, ⟨hopen.player, hactive, hserver, _, hq', hk⟩, hq', rfl⟩

theorem exists_front {history : History β} (h : Execution (machine β) history t)
    (hopen : t.OpenOnBothSides playerId k c) {q : Peer β} {before : List (Frame β)}
    {frame : Frame β} (hq : t.system.peers[(c : Int)]? = some q)
    (hlink : q.toServer = before ++ [frame]) :
    ∃ (history' : History β) (t' : PlayerSystem β) (q' : Peer β),
      Execution (machine β) history' t' ∧ t'.OpenOnBothSides playerId k c ∧
        t'.system.peers[(c : Int)]? = some q' ∧ q'.toServer = [frame] := by
  induction before generalizing history t q with
  | nil => exact ⟨history, t, q, h, hopen, hq, hlink⟩
  | cons first before ih =>
      obtain ⟨t', out, q', hstep, hopen', hq', hlink'⟩ :=
        step_deliverToServer_keeps (sound_of_execution h) hopen hq hlink
      have hnext : (machine β).step t (.protocol ⟨.deliverToServer c, rfl⟩) =
          .ok (t', out) := hstep
      exact ih (h.next hnext) hopen' hq' hlink'

end Steps

section Texts

variable {β : Type} [UnicodeByteArray β] {s t : PlayerSystem β} {playerId k : Int}
  {c : Nat} {text : String}

theorem step_playerMessageReceived (hs : s.Sound)
    (hplayer : s.players.channelByPlayerId[playerId]? = some k)
    (hactive : s.system.server.activeConnectionId = c)
    (hopen : ∃ ch, s.system.server.playerChannels[k]? = some ch ∧ ch.isOpen = true)
    (hmenu : ServerSidePlayerChannel.isGoToMainMenu
      (QByteArray.toLatin1 text : β) = false) :
    ∃ s' out, s.step (.playerMessageReceived playerId text) = .ok (s', out) ∧
      SentToClient s s' c (k, MessageFactory.createPlayerMessage
        (QByteArray.toQString (QByteArray.toLatin1 text : β))) := by
  obtain ⟨ch, hch, hopen, hsouth, -, -⟩ := hs.serverChannel hplayer hopen
  have hsent : s.system.server.receivePlayerMessageFromNorth k
        (QByteArray.toLatin1 text : β) =
      [s.system.server.emit c k (MessageFactory.createPlayerMessage
        (QByteArray.toQString (QByteArray.toLatin1 text : β)))] := by
    have hconnected : s.system.server.hasActiveConnection = true := by
      simp only [ServerChannelManager.hasActiveConnection, hactive, decide_eq_true_eq]
      omega
    simp only [ServerChannelManager.receivePlayerMessageFromNorth, hch,
      ServerSidePlayerChannel.receivePlayerMessageFromNorth, hmenu,
      ServerSidePlayerChannel.sendMessageToSouth, hsouth, hopen, if_true,
      Bool.false_eq_true, if_false, List.flatMap_cons, List.flatMap_nil,
      ServerChannelManager.playerCall, hconnected, hactive, List.append_nil]
  have hserver : s.system.server.step
        (.receivePlayerMessageFromNorth k (QByteArray.toLatin1 text : β)) =
      .ok (s.system.server, s.system.server.receivePlayerMessageFromNorth k
        (QByteArray.toLatin1 text : β)) := rfl
  have hstep : s.step (.playerMessageReceived playerId text) =
      s.perform (.serverOperation
        ⟨.receivePlayerMessageFromNorth k (QByteArray.toLatin1 text), rfl⟩) := by
    simp only [step, onPlayerMessageReceivedFromNorth, hplayer]
  refine ⟨_, _, hstep.trans (perform_of_serverStep hserver), ?_⟩
  intro x
  simp [hsent, framesTo_emit]

theorem step_deliverToClient (ht : t.Sound) {q : Peer β} {rest : List (Frame β)}
    (hq : t.system.peers[(c : Int)]? = some q)
    (hfront : q.toClient = (k, MessageFactory.createPlayerMessage text) :: rest)
    (hk : k ∈ q.client.playerChannels) :
    ∃ t', t.step (.protocol ⟨.deliverToClient c, rfl⟩) = .ok (t',
      [.protocol (.client c (.playerMessage k (QByteArray.toLatin1 text)))]) := by
  obtain ⟨client, toClient, toServer⟩ := q
  obtain ⟨hattached, hserved⟩ := ht.clients c _ hq
  obtain ⟨ch, hch⟩ := (QMap.mem_iff _ _).mp hk
  have hroot := hattached.ne_root hk
  have hmessage : client.processMessage k
        (MessageFactory.createPlayerMessage text : β) =
      (client, [.playerMessage k (QByteArray.toLatin1 text)]) := by
    have hcalls : ch.receiveMessage (MessageFactory.createPlayerMessage text : β) =
        [.playerMessage k (QByteArray.toLatin1 text)] := by
      simp only [ClientSidePlayerChannel.receiveMessage,
        MessageFactory.fromJson_createPlayerMessage, hserved k ch hch]
      rfl
    have hch : client.playerChannels[k]? = some ch := hch
    simp only [ClientChannelManager.processMessage, if_neg hroot, hch, hcalls]
    rfl
  simp only at hfront
  subst hfront
  have hdeliver : t.system.deliverToClient c =
      t.system.signal c ⟨client, rest, toServer⟩
        [.playerMessage k (QByteArray.toLatin1 text)] := by
    simp only [System.deliverToClient, hq, hmessage]
  refine ⟨{ t with system := (t.system.deliverToClient c).1 }, ?_⟩
  simp only [step, perform, System.step, hdeliver]
  rfl

theorem step_sendPlayerMessage (hs : s.Sound) {p : Peer β}
    (hp : s.system.peers[(c : Int)]? = some p) (hk : k ∈ p.client.playerChannels)
    (given : β) :
    ∃ s' out, s.step (.protocol ⟨.sendPlayerMessage c k given, rfl⟩) = .ok (s', out) ∧
      SentToServer s s' c
        (k, MessageFactory.createPlayerMessage (QByteArray.toQString given)) := by
  obtain ⟨hattached, -⟩ := hs.clients c p hp
  obtain ⟨ch, hch⟩ := (QMap.mem_iff _ _).mp hk
  have hsent : p.client.sendPlayerMessage k given =
      [.outgoingMessage k
        (MessageFactory.createPlayerMessage (QByteArray.toQString given))] := by
    simp only [ClientChannelManager.sendPlayerMessage, hch,
      ClientSidePlayerChannel.sendPlayerMessage, (hattached k ch hch).2]
    rfl
  have hstep : s.step (.protocol ⟨.sendPlayerMessage c k given, rfl⟩) =
      .ok ({ s with system := (s.system.signal c p (p.client.sendPlayerMessage k given)).1 },
        (s.system.signal c p (p.client.sendPlayerMessage k given)).2.flatMap
          (forward s.players)) := by
    simp only [step, perform, System.step, hp]
  refine ⟨_, _, hstep, ?_⟩
  intro x
  simp only [System.signal, QMap.getElem?_insert, hsent]
  by_cases heq : x = c
  · simp [heq, hp, Peer.reply, framesOf]
  · simp [heq]

theorem step_deliverToServer (ht : t.Sound) (hopen : t.OpenOnBothSides playerId k c)
    {q : Peer β} {rest : List (Frame β)} (hq : t.system.peers[(c : Int)]? = some q)
    (hfront : q.toServer = (k, MessageFactory.createPlayerMessage text) :: rest) :
    ∃ t' out, t.step (.protocol ⟨.deliverToServer c, rfl⟩) = .ok (t', out) ∧
      asked out = [(playerId,
        QByteArray.toQString (QByteArray.toLatin1 text : β))] := by
  obtain ⟨ch, hch, -, -, hnorth, hroot⟩ := ht.serverChannel hopen.player hopen.server
  have hknown := ht.player playerId k hopen.player
  have hmessage : t.system.server.processMessageFromSouth c k
        (MessageFactory.createPlayerMessage text : β) =
      ({ t.system.server with
          playerChannels := t.system.server.playerChannels.insert k ch },
        [.playerMessageFromSouth k (QByteArray.toLatin1 text)]) := by
    have hcalls : ch.receiveMessageFromSouth
          (MessageFactory.createPlayerMessage text : β) =
        (ch, [.playerMessageFromSouth k (QByteArray.toLatin1 text)]) := by
      simp only [ServerSidePlayerChannel.receiveMessageFromSouth,
        MessageFactory.fromJson_createPlayerMessage,
        ServerSidePlayerChannel.processJsonMessage, hnorth]
      rfl
    simp only [ServerChannelManager.processMessageFromSouth, if_neg hroot, hopen.active,
      if_true, hch, hcalls]
    rfl
  obtain ⟨client, toClient, toServer⟩ := q
  simp only at hfront
  subst hfront
  have hserver : t.system.server.step
      (.processMessageFromSouth c k (MessageFactory.createPlayerMessage text)) =
        .ok (_, _) := congrArg Except.ok hmessage
  have hserve := serve_of_step (s := { t.system with
    peers := t.system.peers.insert c ⟨client, toClient, rest⟩ }) hserver
  have hstep : t.step (.protocol ⟨.deliverToServer c, rfl⟩) =
      t.perform (.deliverToServer c) := rfl
  simp only [perform, System.step, System.deliverToServer, hq, hserve] at hstep
  refine ⟨_, _, hstep, ?_⟩
  simp [asked, forward, PlayerConnectionManager.playerMessageFromSouth, hknown]

theorem reachesApplication_of_plain (hs : s.Sound) (hopen : s.OpenOnBothSides playerId k c)
    (hplain : IsPlainAscii text.toList)
    (hmenu : ServerSidePlayerChannel.isGoToMainMenu (toUtf8 text : β) = false) :
    s.ReachesApplication playerId k c text := by
  have hread : QByteArray.toQString (QByteArray.toLatin1 text : β) = text :=
    toQString_toLatin1_plain hplain
  refine ⟨MessageFactory.createPlayerMessage text, ?_, ?_⟩
  · have hmenu' : ServerSidePlayerChannel.isGoToMainMenu
        (QByteArray.toLatin1 text : β) = false := by rw [toLatin1_ascii hplain.1, hmenu]
    obtain ⟨s', out, hstep, hsent⟩ := step_playerMessageReceived hs hopen.player
      hopen.active hopen.server hmenu'
    rw [hread] at hsent
    exact ⟨s', out, hstep, hsent⟩
  · intro history t q rest h hq hfront hk
    obtain ⟨t', hstep⟩ := step_deliverToClient (sound_of_execution h) hq hfront hk
    refine ⟨t', _, hstep, ?_⟩
    rw [UnicodeByteArray.toLatin1_eq, UnicodeByteArray.bytes_ofBytes]
    exact (decodeUtf8_encodeLatin1 _).mpr hplain.1

theorem reachesPlayer_of_plain (hs : s.Sound) (hopen : s.OpenOnBothSides playerId k c)
    (hplain : IsPlainAscii text.toList) : s.ReachesPlayer playerId k c text := by
  intro given hgiven
  obtain ⟨p, hp, hk⟩ := hopen.client
  have hsent := step_sendPlayerMessage hs hp hk given
  rw [toQString_plain hgiven hplain] at hsent
  refine ⟨MessageFactory.createPlayerMessage text, hsent, ?_⟩
  intro history t q rest h hopen' hq hfront
  obtain ⟨t', out, hstep, hasked⟩ :=
    step_deliverToServer (sound_of_execution h) hopen' hq hfront
  rw [toQString_toLatin1_plain hplain] at hasked
  exact ⟨t', out, hstep, hasked⟩

/-- The text that the player gets is read from Latin-1 as if it were UTF-8. -/
theorem ReachesPlayer.plain {history : History β} (h : Execution (machine β) history s)
    (hopen : s.OpenOnBothSides playerId k c)
    (hreaches : s.ReachesPlayer playerId k c text) : IsPlainAscii text.toList := by
  have hgiven : UnicodeByteArray.bytes (toUtf8 text : β) = encodeUtf8 text.toList :=
    UnicodeByteArray.bytes_ofBytes _
  obtain ⟨msg, ⟨s', out, hstep, hsent⟩, hasked⟩ := hreaches (toUtf8 text) hgiven
  obtain ⟨p, hp, hk⟩ := hopen.client
  obtain ⟨s₁, out₁, hstep₁, hsent₁⟩ :=
    step_sendPlayerMessage (sound_of_execution h) hp hk (toUtf8 text)
  obtain ⟨rfl, rfl⟩ := Prod.mk.inj (Except.ok.inj (hstep.symm.trans hstep₁))
  have hq : s'.system.peers[(c : Int)]? =
      some { p with toServer := p.toServer ++ [(k, msg)] } := by
    rw [hsent c, hp]
    simp
  have hmsg : msg =
      MessageFactory.createPlayerMessage (QByteArray.toQString (toUtf8 text : β)) := by
    have hq₁ := hsent₁ c
    rw [hq, hp] at hq₁
    simpa using hq₁
  have hopen' : s'.OpenOnBothSides playerId k c := by
    simp only [step, perform, System.step, hp] at hstep
    cases hstep
    exact ⟨hopen.player, hopen.active, hopen.server, ⟨_, hq, hk⟩⟩
  have hnext : (machine β).step s (.protocol ⟨.sendPlayerMessage c k (toUtf8 text), rfl⟩) =
      .ok (s', out) := hstep
  obtain ⟨history', t, q, ht, hopenₜ, hqₜ, hlink⟩ := exists_front (h.next hnext) hopen' hq rfl
  obtain ⟨t', out', hdelivered, hexpected⟩ := hasked history' t q [] ht hopenₜ hqₜ hlink
  rw [hmsg] at hlink
  obtain ⟨t'', out'', hdelivered', hactual⟩ :=
    step_deliverToServer (sound_of_execution ht) hopenₜ hqₜ hlink
  obtain ⟨rfl, rfl⟩ := Prod.mk.inj (Except.ok.inj (hdelivered.symm.trans hdelivered'))
  rw [hexpected] at hactual
  simp only [List.cons.injEq, Prod.mk.injEq, true_and, and_true] at hactual
  exact isPlainAscii_of_relayed hgiven hactual.symm

/-- Exactly the ASCII texts without U+0000 arrive. -/
theorem textArrives_iff_plain {history : History β} (h : Execution (machine β) history s)
    (hopen : s.OpenOnBothSides playerId k c) :
    s.TextArrives playerId k c text ↔ IsPlainAscii text.toList := by
  constructor
  · intro harrives
    exact harrives.2.plain h hopen
  · intro hplain
    have hs := sound_of_execution h
    exact ⟨reachesApplication_of_plain hs hopen hplain,
      reachesPlayer_of_plain hs hopen hplain⟩

end Texts

def playerJoins : List (PlayerEvent ByteText) :=
  [.protocol ⟨.connect 0 [] "" [], rfl⟩,
    .protocol ⟨.serverOperation ⟨.activateConnection 0, rfl⟩, rfl⟩,
    .newPlayerConnection ⟨5, "Ann"⟩ .CHANNEL_CLOSED,
    .protocol ⟨.deliverToClient 0, rfl⟩, .protocol ⟨.deliverToClient 0, rfl⟩,
    .protocol ⟨.deliverToServer 0, rfl⟩]

theorem textArrives_playerJoins :
    ∃ history s, (machine ByteText).run playerJoins = .ok (history, s) ∧
      (s.TextArrives 5 1 0 "hi" ↔ IsPlainAscii "hi".toList) := by
  refine ⟨_, _, rfl, textArrives_iff_plain (Machine.run_execution
    (show (machine ByteText).run playerJoins = .ok (_, _) from rfl)) ?_⟩
  exact ⟨rfl, rfl, ⟨_, rfl, rfl⟩, ⟨_, rfl, QMap.mem_of_getElem? rfl⟩⟩

theorem accentedText_lost :
    ∃ history s, (machine ByteText).run playerJoins = .ok (history, s) ∧
      s.OpenOnBothSides 5 1 0 ∧ ¬ s.TextArrives 5 1 0 "é" := by
  have hopens : ∃ history s, (machine ByteText).run playerJoins = .ok (history, s) ∧
      s.OpenOnBothSides 5 1 0 :=
    ⟨_, _, rfl, rfl, rfl, ⟨_, rfl, rfl⟩, ⟨_, rfl, QMap.mem_of_getElem? rfl⟩⟩
  obtain ⟨history, s, hrun, hopen⟩ := hopens
  refine ⟨history, s, hrun, hopen, ?_⟩
  intro harrives
  have hplain := harrives.2.plain (Machine.run_execution hrun) hopen
  exact absurd (hplain.1 'é' (by decide)) (by decide)

end GBerry.Protocol.PlayerSystem
