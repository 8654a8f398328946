import GBerry.Foundation.Delivery
import GBerry.Protocol.PlayerDelivery

/-!
# Player messages in the queues

The messages of one channel that are under way on one connection, in either
direction, and what a step of the system does to them.
-/

namespace GBerry.Protocol

open GBerry.Common
open GBerry.Foundation
open GBerry.Server
open GBerry.Client

variable {β : Type} [QByteArray β]

namespace System

variable {s s' : System β} {ev : ProtocolEvent β} {out : List (ProtocolSignal β)}
  {c : Nat} {k : Int}

def toApplication (c : Nat) (k : Int) (s : System β) : List β :=
  match s.peers[(c : Int)]? with
  | some p => p.toClient.flatMap (playerData k)
  | none => []

def toPlayer (c : Nat) (k : Int) (s : System β) : List β :=
  match s.peers[(c : Int)]? with
  | some p => p.toServer.flatMap (playerData k)
  | none => []

def clientSignals (c : Nat) (out : List (ProtocolSignal β)) : List (ClientSignal β) :=
  out.filterMap fun
    | .client connectionId signal => if connectionId = c then some signal else none
    | .server _ => none

omit [QByteArray β] in
theorem clientSignals_server (signals : List (Signal β)) :
    clientSignals c (signals.map .server) = [] := by
  rw [clientSignals, List.filterMap_map]
  exact List.filterMap_eq_nil_iff.mpr fun _ _ => rfl

omit [QByteArray β] in
theorem clientSignals_client (connectionId : Nat) (signals : List (ClientSignal β)) :
    clientSignals c (signals.map (.client connectionId)) =
      if connectionId = c then signals else [] := by
  rw [clientSignals, List.filterMap_map]
  by_cases heq : connectionId = c
  · simp [heq]
  · rw [if_neg heq]
    refine List.filterMap_eq_nil_iff.mpr fun signal _ => if_neg ?_
    omega

theorem clientSignals_serve {op : ServerOp β} (h : s.serve op = .ok (s', out)) :
    clientSignals c out = [] := by
  unfold serve at h
  split at h
  · cases h
  · cases h
    exact clientSignals_server _

theorem toApplication_serve (hs : s.server.Valid) {op : ServerOp β}
    (h : s.serve op = .ok (s', out)) :
    Delivers (s.toApplication c k) (s'.toApplication c k) (givenByPlayer k op) [] := by
  obtain ⟨hstep, hpeers⟩ := serve_ok h
  unfold toApplication
  rw [hpeers c]
  cases s.peers[(c : Int)]? with
  | none => exact .refl _ _
  | some p =>
      simp only [Option.map_some, Peer.send, List.flatMap_append]
      exact .give (Effect.playerData_sublist hs (hs.effect hstep) c k)

theorem toPlayer_serve {op : ServerOp β} (h : s.serve op = .ok (s', out)) :
    s'.toPlayer c k = s.toPlayer c k := by
  unfold toPlayer
  rw [(serve_ok h).2 c]
  cases s.peers[(c : Int)]? with
  | none => rfl
  | some p => rfl

theorem toApplication_insert {x : Nat} {q : Peer β}
    (hq : c = x → q.toClient.flatMap (playerData k) = s.toApplication c k) :
    ({ s with peers := s.peers.insert x q } : System β).toApplication c k =
      s.toApplication c k := by
  by_cases heq : c = x
  · rw [← hq heq]
    simp only [toApplication, QMap.getElem?_insert, Int.natCast_inj, if_pos heq]
  · simp only [toApplication, QMap.getElem?_insert, Int.natCast_inj, if_neg heq]

theorem toPlayer_insert {x : Nat} {q : Peer β}
    (hq : c = x → q.toServer.flatMap (playerData k) = s.toPlayer c k) :
    ({ s with peers := s.peers.insert x q } : System β).toPlayer c k = s.toPlayer c k := by
  by_cases heq : c = x
  · rw [← hq heq]
    simp only [toPlayer, QMap.getElem?_insert, Int.natCast_inj, if_pos heq]
  · simp only [toPlayer, QMap.getElem?_insert, Int.natCast_inj, if_neg heq]

theorem toApplication_peer {x : Nat} {p : Peer β} (hp : s.peers[(x : Int)]? = some p)
    (h : c = x) : p.toClient.flatMap (playerData k) = s.toApplication c k := by
  subst h
  simp only [toApplication, hp]

theorem toApplication_none {x : Nat} (hx : ¬ s.peers.contains (x : Int) = true) (h : c = x) :
    s.toApplication c k = [] := by
  subst h
  have hnone : s.peers[(c : Int)]? = none := by
    rw [← QMap.notMem_iff, ← Std.ExtTreeMap.contains_iff_mem]
    exact hx
  simp only [toApplication, hnone]

theorem toPlayer_none {x : Nat} (hx : ¬ s.peers.contains (x : Int) = true) (h : c = x) :
    s.toPlayer c k = [] := by
  subst h
  have hnone : s.peers[(c : Int)]? = none := by
    rw [← QMap.notMem_iff, ← Std.ExtTreeMap.contains_iff_mem]
    exact hx
  simp only [toPlayer, hnone]

def givenToServer (k : Int) (s : System β) (ev : ProtocolEvent β) : List β :=
  match s.serverOp ev with
  | some op => givenByPlayer k op
  | none => []

def givenToClient (c : Nat) (k : Int) : ProtocolEvent β → List β
  | .sendPlayerMessage connectionId k' msg =>
      if connectionId = c ∧ k' = k then [relayed msg] else []
  | _ => []

def takenByServer (c : Nat) (k : Int) (ev : ProtocolEvent β)
    (out : List (ProtocolSignal β)) : List β :=
  match ev with
  | .deliverToServer connectionId =>
      if connectionId = c then handedOver k (serverSignals out) else []
  | _ => []

theorem toApplication_signal {x : Nat} {p q : Peer β} {signals : List (ClientSignal β)}
    (hp : s.peers[(x : Int)]? = some p) (hx : c = x →
      Delivers (p.toClient.flatMap (playerData k)) (q.toClient.flatMap (playerData k)) []
        (handedToApplication k signals)) :
    Delivers (s.toApplication c k) ((s.signal x q signals).1.toApplication c k) []
      (handedToApplication k (clientSignals c (s.signal x q signals).2)) := by
  have hsignals := clientSignals_client (c := c) x signals
  simp only [toApplication, signal, QMap.getElem?_insert, Int.natCast_inj, hsignals]
  by_cases heq : c = x
  · subst heq
    simp only [hp, if_true, Peer.reply]
    exact hx rfl
  · rw [if_neg heq, if_neg (Ne.symm heq)]
    exact .refl _ _

theorem toPlayer_signal {x : Nat} {p q : Peer β} {signals : List (ClientSignal β)}
    {given : List β} (hp : s.peers[(x : Int)]? = some p) (hq : q.toServer = p.toServer)
    (hx : c = x → List.Sublist (writtenOn k signals) given) :
    Delivers (s.toPlayer c k) ((s.signal x q signals).1.toPlayer c k) given [] := by
  simp only [toPlayer, signal, QMap.getElem?_insert, Int.natCast_inj]
  by_cases heq : c = x
  · subst heq
    simp only [hp, if_true, Peer.reply, hq, List.flatMap_append]
    exact .give (hx rfl)
  · rw [if_neg heq]
    exact .refl _ _

theorem toApplication_step (hs : s.Valid) (hclients : PlayerSystem.ClientsAttached s)
    (h : s.step ev = .ok (s', out)) :
    Delivers (s.toApplication c k) (s'.toApplication c k) (givenToServer k s ev)
      (handedToApplication k (clientSignals c out)) := by
  cases ev with
  | connect x commands applicationCode clientCommands =>
      simp only [step, connect] at h
      split at h
      · cases h
        exact .refl _ _
      · rename_i hunknown
        have hserve := toApplication_serve (c := c) (k := k)
          (s := { s with peers := s.peers.insert x _ }) hs.server h
        have hsame := toApplication_insert (s := s) (k := k)
          (q := Peer.connected applicationCode clientCommands)
          fun heq : c = x => (toApplication_none hunknown heq).symm
        rw [hsame] at hserve
        rw [clientSignals_serve h]
        simp only [givenToServer, serverOp, if_neg hunknown]
        exact hserve
  | serverOperation op =>
      rw [clientSignals_serve h]
      exact toApplication_serve hs.server h
  | deliverToClient x =>
      simp only [step, deliverToClient] at h
      split at h
      · rename_i client k' msg toClient toServer hpeer
        cases h
        refine toApplication_signal hpeer ?_
        rintro rfl
        rw [List.flatMap_cons]
        exact .take (processMessage_handsOver (hclients c _ hpeer).2 k k' msg)
      · cases h
        exact .refl _ _
  | deliverToServer x =>
      simp only [step, deliverToServer] at h
      simp only [givenToServer, serverOp]
      split at h
      · rename_i client toClient k' msg toServer hpeer
        have hserve := toApplication_serve (c := c) (k := k)
          (s := { s with peers := s.peers.insert x _ }) hs.server h
        have hsame := toApplication_insert (k := k) (q := ⟨client, toClient, toServer⟩)
          fun heq : c = x => (toApplication_peer hpeer heq :)
        rw [hsame] at hserve
        rw [clientSignals_serve h]
        exact hserve
      · cases h
        exact .refl _ _
  | sendPlayerMessage x k' msg =>
      simp only [step] at h
      split at h
      · rename_i p hp
        cases h
        refine toApplication_signal hp fun _ => ?_
        rw [sendPlayerMessage_handsOver]
        exact .refl _ _
      · cases h
        exact .refl _ _
  | sendControlMessage x msg =>
      simp only [step] at h
      split at h
      · rename_i p hp
        cases h
        refine toApplication_signal hp fun _ => ?_
        rw [sendControlMessage_handsOver]
        exact .refl _ _
      · cases h
        exact .refl _ _

theorem toPlayer_step (hs : s.Valid) (hclients : PlayerSystem.ClientsAttached s)
    (hrooted : ∀ (c : Int) (p : Peer β), s.peers[c]? = some p → Rooted p.client)
    (h : s.step ev = .ok (s', out)) :
    Delivers (s.toPlayer c k) (s'.toPlayer c k) (givenToClient c k ev)
      (takenByServer c k ev out) := by
  cases ev with
  | connect x commands applicationCode clientCommands =>
      simp only [step, connect] at h
      split at h
      · cases h
        exact .refl _ _
      · rename_i hunknown
        have hsame := toPlayer_insert (s := s) (k := k)
          (q := Peer.connected applicationCode clientCommands)
          fun heq : c = x => (toPlayer_none hunknown heq).symm
        rw [toPlayer_serve h, hsame]
        exact .refl _ _
  | serverOperation op =>
      rw [toPlayer_serve h]
      exact .refl _ _
  | deliverToClient x =>
      simp only [step, deliverToClient] at h
      split at h
      · rename_i client k' msg toClient toServer hpeer
        cases h
        refine toPlayer_signal hpeer rfl ?_
        rintro rfl
        rw [processMessage_writes (hrooted c _ hpeer)]
        exact List.nil_sublist _
      · cases h
        exact .refl _ _
  | deliverToServer x =>
      simp only [step, deliverToServer] at h
      simp only [takenByServer, givenToClient]
      split at h
      · rename_i client toClient k' msg toServer hpeer
        rw [toPlayer_serve h]
        obtain ⟨hserver, -⟩ := serve_ok h
        have hhanded := Effect.handedOver_sublist hs.server (hs.server.effect hserver) k
        by_cases heq : x = c
        · subst heq
          rw [if_pos rfl]
          simp only [toPlayer, hpeer, QMap.getElem?_insert, if_true, List.flatMap_cons]
          exact .take hhanded
        · rw [if_neg heq, toPlayer_insert fun h => absurd h.symm heq]
          exact .refl _ _
      · cases h
        have hsilent : (if x = c then handedOver k (serverSignals ([] : List (ProtocolSignal β)))
            else []) = [] := by split <;> rfl
        rw [hsilent]
        exact .refl _ _
  | sendPlayerMessage x k' msg =>
      simp only [step] at h
      split at h
      · rename_i p hp
        cases h
        refine toPlayer_signal hp rfl ?_
        rintro rfl
        have hwritten := sendPlayerMessage_writes (hclients c p hp).1 k k' msg
        simpa [givenToClient] using hwritten
      · cases h
        exact .refl _ _
  | sendControlMessage x msg =>
      simp only [step] at h
      split at h
      · rename_i p hp
        cases h
        refine toPlayer_signal hp rfl ?_
        rintro rfl
        rw [sendControlMessage_writes (hrooted c p hp)]
        exact List.nil_sublist _
      · cases h
        exact .refl _ _

end System

end GBerry.Protocol
