import GBerry.Protocol.PlayerDelivery.Queues
import GBerry.Protocol.PlayerText

/-!
# Player messages arrive in order

Over a whole run, what an application is given on the channel of a player is a part
of what this player sent, and what the websocket server is asked to send to the
player is a part of what the applications sent, in the same order and without
repetitions.
-/

namespace GBerry.Protocol.PlayerSystem

open GBerry.Common
open GBerry.Foundation
open GBerry.Server
open GBerry.Client

variable {β : Type} [QByteArray β]

abbrev PlayerStep (β : Type) := Step (PlayerSystem β) (PlayerEvent β) (PlayerSignal β)

def protocolSignals (out : List (PlayerSignal β)) : List (ProtocolSignal β) :=
  out.filterMap fun
    | .protocol signal => some signal
    | .sendPlayerMessage _ _ => none

/-- What the player of a channel sends in a step, as the application gets it. -/
def sentByPlayer (k : Int) (st : PlayerStep β) : List β :=
  match st.label with
  | .playerMessageReceived playerId message =>
      if st.pre.players.channelByPlayerId[playerId]? = some k then
        [relayed (QByteArray.toLatin1 message)]
      else []
  | _ => []

def gotByApplication (c : Nat) (k : Int) (st : PlayerStep β) : List β :=
  handedToApplication k (System.clientSignals c (protocolSignals st.out))

/-- What an application sends on a channel in a step, as the player gets it. -/
def sentByApplication (c : Nat) (k : Int) (st : PlayerStep β) : List String :=
  match st.label with
  | .protocol ⟨.sendPlayerMessage connectionId channelId msg, _⟩ =>
      if connectionId = c ∧ channelId = k then [QByteArray.toQString (relayed msg)] else []
  | _ => []

def arrivesOn (c : Nat) (st : PlayerStep β) : Option Int :=
  match st.label with
  | .protocol ⟨.deliverToServer connectionId, _⟩ =>
      if connectionId = c then
        (st.pre.system.peers[(c : Int)]?.bind fun p => p.toServer.head?).map Prod.fst
      else none
  | _ => none

/-- What the websocket server is asked to send because of a frame on a channel. -/
def askedFor (c : Nat) (k : Int) (st : PlayerStep β) : List (Int × String) :=
  if arrivesOn c st = some k then asked st.out else []

section Signals

variable {players : PlayerConnectionManager} {signals : List (ProtocolSignal β)}

theorem protocolSignals_forward (players : PlayerConnectionManager)
    (signals : List (ProtocolSignal β)) :
    protocolSignals (signals.flatMap (forward players)) = signals := by
  induction signals with
  | nil => rfl
  | cons signal signals ih =>
      have hfirst : protocolSignals (forward players signal) = [signal] := by
        unfold forward
        split
        · rw [protocolSignals, List.filterMap_cons, List.filterMap_map]
          exact congrArg _ (List.filterMap_eq_nil_iff.mpr fun _ _ => rfl)
        · rfl
      rw [List.flatMap_cons, protocolSignals, List.filterMap_append]
      exact congrArg₂ (· ++ ·) hfirst ih

omit [QByteArray β] in
theorem protocolSignals_append (out out' : List (PlayerSignal β)) :
    protocolSignals (out ++ out') = protocolSignals out ++ protocolSignals out' :=
  List.filterMap_append

omit [QByteArray β] in
theorem handedToApplication_append (c : Nat) (k : Int)
    (signals signals' : List (ProtocolSignal β)) :
    handedToApplication k (System.clientSignals c (signals ++ signals')) =
      handedToApplication k (System.clientSignals c signals) ++
        handedToApplication k (System.clientSignals c signals') := by
  rw [System.clientSignals, List.filterMap_append]
  exact List.filterMap_append

theorem asked_forward {k : Int}
    (h : ∀ k' msg, .server (.playerMessageFromSouth k' msg) ∈ signals → k' = k) :
    asked (signals.flatMap (forward players)) =
      (handedOver k (System.serverSignals signals)).flatMap
        (players.playerMessageFromSouth k) := by
  induction signals with
  | nil => rfl
  | cons signal signals ih =>
      have hrest := ih fun k' msg hmem => h k' msg (List.mem_cons_of_mem _ hmem)
      have hfirst : asked (forward players signal) =
          (handedOver k (System.serverSignals [signal])).flatMap
            (players.playerMessageFromSouth k) := by
        cases signal with
        | client c signal => rfl
        | server signal =>
            cases signal with
            | playerMessageFromSouth k' msg =>
                obtain rfl := h k' msg List.mem_cons_self
                have hasked (l : List (Int × String)) :
                    asked (l.map fun x => (PlayerSignal.sendPlayerMessage x.1 x.2 :
                      PlayerSignal β)) = l := by
                  rw [asked, List.filterMap_map]
                  exact List.filterMap_some
                simp only [forward, asked, List.filterMap_cons, System.serverSignals,
                  List.filterMap_nil, handedOver, if_true, List.flatMap_cons,
                  List.flatMap_nil, List.append_nil]
                exact hasked _
            | outgoingMessageToSouth message => rfl
            | playerRequestedMainMenu channelId => rfl
      have hsplit : System.serverSignals (signal :: signals) =
          System.serverSignals [signal] ++ System.serverSignals signals :=
        List.filterMap_append (l := [signal])
      rw [List.flatMap_cons, hsplit, handedOver_append, List.flatMap_append, ← hfirst, ← hrest]
      exact List.filterMap_append

theorem texts_sublist (players : PlayerConnectionManager) (k : Int) (msgs : List β) :
    List.Sublist ((msgs.flatMap (players.playerMessageFromSouth k)).map Prod.snd)
      (msgs.map QByteArray.toQString) := by
  induction msgs with
  | nil => exact List.Sublist.refl _
  | cons msg msgs ih =>
      have hfirst : List.Sublist ((players.playerMessageFromSouth k msg).map Prod.snd)
          [QByteArray.toQString msg] := by
        unfold PlayerConnectionManager.playerMessageFromSouth
        split
        · exact List.Sublist.refl _
        · exact List.nil_sublist _
      rw [List.flatMap_cons, List.map_append]
      exact hfirst.append ih

theorem texts_player {k : Int} {msgs : List β} {x : Int × String}
    (h : x ∈ msgs.flatMap (players.playerMessageFromSouth k)) :
    players.playerIdByChannelId[k]? = some x.1 := by
  obtain ⟨msg, -, hmsg⟩ := List.mem_flatMap.mp h
  unfold PlayerConnectionManager.playerMessageFromSouth at hmsg
  split at hmsg
  · rename_i playerId hplayer
    cases List.mem_singleton.mp hmsg
    exact hplayer
  · cases hmsg

end Signals

section Steps

variable {s s' : PlayerSystem β} {out : List (PlayerSignal β)} {c : Nat} {k : Int}

def ClientsRooted (s : PlayerSystem β) : Prop :=
  ∀ (c : Int) (p : Peer β), s.system.peers[c]? = some p → Rooted p.client

theorem ClientsRooted.perform (hs : s.ClientsRooted) {ev : ProtocolEvent β}
    (h : s.perform ev = .ok (s', out)) : s'.ClientsRooted := by
  obtain ⟨signals, hstep, -, -⟩ := perform_ok h
  intro c p' hp'
  rcases step_client hstep hp' with ⟨applicationCode, clientCommands, hnew⟩ |
    ⟨p, hp, hsame | ⟨k, msg, hmessage⟩⟩
  · rw [hnew]
    intro ch hch
    cases hch
    rfl
  · rw [hsame]
    exact hs c p hp
  · rw [hmessage]
    exact (hs c p hp).processMessage k msg

theorem step_of_perform {P : PlayerSystem β → Prop} {ev : PlayerEvent β}
    (hperform : ∀ {s s' : PlayerSystem β} {ev out}, P s → s.perform ev = .ok (s', out) → P s')
    (hplayers : ∀ {s : PlayerSystem β} {players}, P s → P { s with players := players })
    (hs : P s) (h : s.step ev = .ok (s', out)) : P s' := by
  cases ev with
  | protocol ev => exact hperform hs h
  | newPlayerConnection session uninitialised =>
      simp only [step, onNewPlayerConnection] at h
      split at h
      · cases h
      rename_i hopen
      split at h
      · cases h
      rename_i hattach
      cases h
      exact hperform (hplayers (hperform hs hopen)) hattach
  | playerConnectionClosed playerId =>
      simp only [step, onPlayerConnectionClosed] at h
      split at h
      · exact hperform (hplayers hs) h
      · cases h
        exact hs
  | playerMessageReceived playerId message =>
      simp only [step, onPlayerMessageReceivedFromNorth] at h
      split at h
      · exact hperform hs h
      · cases h
        exact hs

theorem clientsRooted_of_execution {history : History β}
    (h : Execution (machine β) history s) : s.ClientsRooted := by
  refine h.state_invariant (I := ClientsRooted) ?_ fun hs hstep =>
    step_of_perform (fun hs h => hs.perform h) (fun hs => hs) hs hstep
  intro c p hp
  simp [machine, start, System.start] at hp

theorem perform_toApplication {system : System β} {players : PlayerConnectionManager}
    {ev : ProtocolEvent β} (hs : system.Valid) (hclients : ClientsAttached system)
    (h : (⟨system, players⟩ : PlayerSystem β).perform ev = .ok (s', out)) :
    Delivers (system.toApplication c k) (s'.system.toApplication c k)
      (System.givenToServer k system ev)
      (handedToApplication k (System.clientSignals c (protocolSignals out))) := by
  obtain ⟨signals, hstep, -, rfl⟩ := perform_ok h
  rw [protocolSignals_forward]
  exact System.toApplication_step hs hclients hstep

theorem givenToServer_ofPlayers {s : System β} {ev : ProtocolEvent β}
    (hev : ev.ofPlayers = false) : System.givenToServer k s ev = [] := by
  have hop (k' : Int) (msg : β) : s.serverOp ev ≠ some (.receivePlayerMessageFromNorth k' msg) := by
    cases ev with
    | serverOperation op =>
        obtain ⟨op, hspontaneous⟩ := op
        rintro heq
        obtain rfl := Option.some.inj heq
        cases hev
    | connect connectionId commands applicationCode clientCommands =>
        simp only [System.serverOp]
        split <;> simp
    | deliverToServer connectionId =>
        simp only [System.serverOp]
        split <;> simp
    | _ => simp [System.serverOp]
  unfold System.givenToServer
  cases hserver : s.serverOp ev with
  | none => rfl
  | some op =>
      cases op with
      | receivePlayerMessageFromNorth k' msg => exact absurd hserver (hop k' msg)
      | _ => rfl

theorem toApplication_delivers {ev : PlayerEvent β} (hs : s.Sound)
    (h : s.step ev = .ok (s', out)) :
    Delivers (s.system.toApplication c k) (s'.system.toApplication c k)
      (sentByPlayer k ⟨s, ev, out, s'⟩) (gotByApplication c k ⟨s, ev, out, s'⟩) := by
  cases ev with
  | protocol ev =>
      have hperform := perform_toApplication (c := c) (k := k) hs.system hs.clients h
      rw [givenToServer_ofPlayers ev.2] at hperform
      exact hperform
  | newPlayerConnection session uninitialised =>
      simp only [step, onNewPlayerConnection] at h
      split at h
      · cases h
      rename_i s₁ opened hopen
      split at h
      · cases h
      rename_i s₂ attached hattach
      cases h
      obtain ⟨hvalid, hclients⟩ := perform_system hs.system hs.clients hopen
      have hfirst := perform_toApplication (c := c) (k := k) hs.system hs.clients hopen
      have hsecond := perform_toApplication (c := c) (k := k) hvalid hclients hattach
      have hboth := hfirst.trans hsecond
      rw [gotByApplication, protocolSignals_append, handedToApplication_append]
      exact hboth
  | playerConnectionClosed playerId =>
      simp only [step, onPlayerConnectionClosed] at h
      split at h
      · exact perform_toApplication (c := c) (k := k) hs.system hs.clients h
      · cases h
        exact .refl _ _
  | playerMessageReceived playerId message =>
      simp only [step, onPlayerMessageReceivedFromNorth] at h
      split at h
      · rename_i channelId hplayer
        have hperform := perform_toApplication (c := c) (k := k) hs.system hs.clients h
        simp only [sentByPlayer, hplayer, Option.some.injEq]
        exact hperform
      · cases h
        exact .refl _ _

/-- No message to an application is invented, repeated or overtaken. -/
theorem gotByApplication_sublist {history : History β} (h : Execution (machine β) history s)
    (c : Nat) (k : Int) :
    List.Sublist (gather (gotByApplication c k) history) (gather (sentByPlayer k) history) := by
  have hall := h.delivers (fun s => s.system.toApplication c k)
    (sentByPlayer k) (gotByApplication c k)
    (by simp [machine, start, System.start, System.toApplication])
    fun hexec hstep => toApplication_delivers (sound_of_execution hexec) hstep
  exact (List.sublist_append_left _ _).trans hall

theorem perform_toPlayer {system : System β} {players : PlayerConnectionManager}
    {ev : ProtocolEvent β} (hs : system.Valid) (hclients : ClientsAttached system)
    (hrooted : ∀ (c : Int) (p : Peer β), system.peers[c]? = some p → Rooted p.client)
    (h : (⟨system, players⟩ : PlayerSystem β).perform ev = .ok (s', out)) :
    Delivers (system.toPlayer c k) (s'.system.toPlayer c k) (System.givenToClient c k ev)
      (System.takenByServer c k ev (protocolSignals out)) := by
  obtain ⟨signals, hstep, -, rfl⟩ := perform_ok h
  rw [protocolSignals_forward]
  exact System.toPlayer_step hs hclients hrooted hstep

theorem handedOver_only {m m' : ServerChannelManager} {connectionId : Nat} {k' : Int}
    {text : β} {signals : List (Signal β)} (hm : m.Valid)
    (h : m.Effect (.processMessageFromSouth connectionId k' text) m' signals) {x : Int}
    {msg : β} (hmem : .playerMessageFromSouth x msg ∈ signals) : x = k' := by
  by_contra hne
  have hsublist := Effect.handedOver_sublist hm h x
  have hother : playerData x (k', text) = [] := playerData_other (Ne.symm hne)
  simp only [broughtToServer, hother] at hsublist
  have hhanded : msg ∈ handedOver x signals :=
    List.mem_filterMap.mpr ⟨_, hmem, if_pos rfl⟩
  have hnil := hsublist.mem hhanded
  cases hnil

/-- What the server is asked to send because of a frame, and to whom. -/
theorem askedFor_step {ev : PlayerEvent β} (hs : s.Sound) (h : s.step ev = .ok (s', out)) :
    List.Sublist ((askedFor c k ⟨s, ev, out, s'⟩).map Prod.snd)
      ((match ev with
        | .protocol ev => System.takenByServer c k ev.1 (protocolSignals out)
        | _ => []).map QByteArray.toQString) ∧
    ∀ x ∈ askedFor c k ⟨s, ev, out, s'⟩, s.players.playerIdByChannelId[k]? = some x.1 := by
  unfold askedFor
  split
  · rename_i harrives
    cases ev with
    | protocol ev =>
        obtain ⟨ev, hev⟩ := ev
        cases ev with
        | deliverToServer connectionId =>
            simp only [arrivesOn] at harrives
            split at harrives
            · rename_i heq
              subst heq
              obtain ⟨signals, hstep, -, rfl⟩ := perform_ok h
              simp only [Option.map_eq_some_iff, Option.bind_eq_some_iff] at harrives
              obtain ⟨⟨k', text⟩, ⟨p, hp, hhead⟩, rfl⟩ := harrives
              obtain ⟨client, toClient, toServer⟩ := p
              cases toServer with
              | nil => cases hhead
              | cons frame toServer =>
                  cases hhead
                  simp only [System.step, System.deliverToServer, hp] at hstep
                  obtain ⟨hserver, -⟩ := System.serve_ok hstep
                  have heffect := hs.system.server.effect hserver
                  have honly (x : Int) (msg : β)
                      (hmem : .server (.playerMessageFromSouth x msg) ∈ signals) : x = k' :=
                    handedOver_only hs.system.server heffect
                      (List.mem_filterMap.mpr ⟨_, hmem, rfl⟩)
                  simp only [asked_forward honly, System.takenByServer, if_true,
                    protocolSignals_forward]
                  exact ⟨texts_sublist _ _ _, fun x hx => texts_player hx⟩
            · cases harrives
        | _ => cases harrives
    | _ => cases harrives
  · exact ⟨List.nil_sublist _, by simp⟩

theorem toPlayer_delivers {ev : PlayerEvent β} (hs : s.Sound) (hrooted : s.ClientsRooted)
    (h : s.step ev = .ok (s', out)) :
    Delivers ((s.system.toPlayer c k).map QByteArray.toQString)
      ((s'.system.toPlayer c k).map QByteArray.toQString)
      (sentByApplication c k ⟨s, ev, out, s'⟩)
      ((askedFor c k ⟨s, ev, out, s'⟩).map Prod.snd) := by
  have htexts := (askedFor_step (c := c) (k := k) hs h).1
  refine Delivers.mono_taken ?_ htexts
  cases ev with
  | protocol ev =>
      have hperform := (perform_toPlayer (c := c) (k := k) hs.system hs.clients hrooted h).map
        QByteArray.toQString
      have hgiven : (System.givenToClient c k ev.1).map QByteArray.toQString =
          sentByApplication c k ⟨s, .protocol ev, out, s'⟩ := by
        obtain ⟨ev, hev⟩ := ev
        cases ev with
        | sendPlayerMessage connectionId channelId msg =>
            simp only [System.givenToClient, sentByApplication]
            split <;> rfl
        | _ => rfl
      rw [hgiven] at hperform
      exact hperform
  | newPlayerConnection session uninitialised =>
      simp only [step, onNewPlayerConnection] at h
      split at h
      · cases h
      rename_i s₁ opened hopen
      split at h
      · cases h
      rename_i s₂ attached hattach
      cases h
      obtain ⟨hvalid, hclients⟩ := perform_system hs.system hs.clients hopen
      have hfirst := perform_toPlayer (c := c) (k := k) hs.system hs.clients hrooted hopen
      have hsecond := perform_toPlayer (c := c) (k := k) hvalid hclients (hrooted.perform hopen)
        hattach
      exact (hfirst.trans hsecond).map QByteArray.toQString
  | playerConnectionClosed playerId =>
      simp only [step, onPlayerConnectionClosed] at h
      split at h
      · have hclosed := perform_toPlayer (c := c) (k := k) hs.system hs.clients hrooted h
        exact hclosed.map QByteArray.toQString
      · cases h
        exact .refl _ _
  | playerMessageReceived playerId message =>
      simp only [step, onPlayerMessageReceivedFromNorth] at h
      split at h
      · exact (perform_toPlayer (c := c) (k := k) hs.system hs.clients hrooted h).map
          QByteArray.toQString
      · cases h
        exact .refl _ _

/--
No message to a player is invented, repeated or overtaken, and each goes to the
player for whom the channel of its frame is registered.
-/
theorem askedFor_sublist {history : History β} (h : Execution (machine β) history s)
    (c : Nat) (k : Int) :
    List.Sublist ((gather (askedFor c k) history).map Prod.snd)
      (gather (sentByApplication c k) history) ∧
    ∀ st ∈ history, ∀ x ∈ askedFor c k st,
      st.pre.players.playerIdByChannelId[k]? = some x.1 := by
  constructor
  · have hall := h.delivers
      (fun s => (s.system.toPlayer c k).map QByteArray.toQString)
      (sentByApplication c k) (fun st => (askedFor c k st).map Prod.snd)
      (by simp [machine, start, System.start, System.toPlayer])
      fun hexec hstep => toPlayer_delivers (sound_of_execution hexec)
        (clientsRooted_of_execution hexec) hstep
    rw [gather_map] at hall
    exact (List.sublist_append_left _ _).trans hall
  · intro st hst
    obtain ⟨older, hexec, hstep⟩ := h.of_mem hst
    exact (askedFor_step (sound_of_execution hexec) hstep).2

end Steps

def playerTalks : List (PlayerEvent ByteText) :=
  playerJoins ++
    [.playerMessageReceived 5 "up", .playerMessageReceived 5 "go",
      .protocol ⟨.deliverToClient 0, Eq.refl false⟩, .protocol ⟨.deliverToClient 0, Eq.refl false⟩,
      .protocol ⟨.sendPlayerMessage 0 1 (toUtf8 "ok"), Eq.refl false⟩,
      .protocol ⟨.deliverToServer 0, Eq.refl false⟩]

theorem gotByApplication_sublist_playerTalks :
    ∃ history s, (machine ByteText).run playerTalks = .ok (history, s) ∧
      gather (gotByApplication 0 1) history = [toUtf8 "up", toUtf8 "go"] ∧
      List.Sublist (gather (gotByApplication 0 1) history)
        (gather (sentByPlayer 1) history) := by
  refine ⟨_, _, rfl, rfl, gotByApplication_sublist (Machine.run_execution
    (show (machine ByteText).run playerTalks = .ok (_, _) from rfl)) 0 1⟩

theorem askedFor_sublist_playerTalks :
    ∃ history s, (machine ByteText).run playerTalks = .ok (history, s) ∧
      gather (askedFor 0 1) history = [(5, "ok")] ∧
      List.Sublist ((gather (askedFor 0 1) history).map Prod.snd)
        (gather (sentByApplication 0 1) history) := by
  refine ⟨_, _, rfl, ?_, (askedFor_sublist (Machine.run_execution
    (show (machine ByteText).run playerTalks = .ok (_, _) from rfl)) 0 1).1⟩
  rfl

end GBerry.Protocol.PlayerSystem
