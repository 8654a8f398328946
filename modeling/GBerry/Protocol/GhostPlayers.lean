import GBerry.Protocol.Invariant

/-!
# Players who have left

The active application should show no player who has left the console.  A
`CloseChannel` is sent only for a channel that is open when its player leaves,
so a player who leaves before the acceptance has arrived, or while another
application is active, stays in the table of the application.
-/

namespace GBerry.Protocol.System

open GBerry.Common
open GBerry.Foundation
open GBerry.Server
open GBerry.Client
open ClientChannelManager (ROOT_CHANNEL)

variable {β : Type} [QByteArray β] {s s' : System β} {history : History β}

/--
When nothing is under way between the server and the active connection, its
client has only channels that the server has.
-/
def NoGhostPlayers (s : System β) : Prop :=
  ∀ (c : Nat) (p : Peer β), s.server.activeConnectionId = c →
    s.peers[(c : Int)]? = some p → p.Quiet →
    ∀ k ∈ p.client.playerChannels, k ∈ s.server.playerChannels

/--
A connection is activated while its settled client has a channel that the
server does not have; or a player leaves whose channel is not open, while the
settled client of the active connection has it.
-/
def LeavesGhost (s : System β) : ServerOp β → Prop
  | .activateConnection c =>
      (c : Int) ∈ s.server.controlChannels ∧ ∃ (p : Peer β) (k : Int),
        s.peers[(c : Int)]? = some p ∧ k ∈ p.settled.playerChannels ∧
          k ∉ s.server.playerChannels
  | .closePlayerChannel k =>
      ∃ (c : Nat) (p : Peer β) (ch : ServerSidePlayerChannel),
        s.server.activeConnectionId = c ∧ s.peers[(c : Int)]? = some p ∧
          s.server.playerChannels[k]? = some ch ∧ ch.isOpen = false ∧
          k ∈ p.settled.playerChannels
  | _ => False

def Ghostless (s : System β) : Prop :=
  ∀ (c : Nat) (p : Peer β), s.server.activeConnectionId = c →
    s.peers[(c : Int)]? = some p →
    ∀ k ∈ p.settled.playerChannels, k ∈ s.server.playerChannels

theorem Ghostless.noGhostPlayers (h : Ghostless s) : NoGhostPlayers s := by
  intro c p hactive hp hquiet k hk
  rw [← hquiet.settled_eq] at hk
  exact h c p hactive hp k hk

section Steps

variable {ev : ProtocolEvent β} {out : List (ProtocolSignal β)} {c : Nat} {k : Int}
  {p p' : Peer β}

theorem closes_settled (hs : s.Valid)
    (heffect : s.server.Effect (.closePlayerChannel k) s'.server (serverSignals out))
    (hactive : s.server.activeConnectionId = c) (hp : s.peers[(c : Int)]? = some p)
    (hcontinues : Continues c (some (.closePlayerChannel k))
      (framesTo c (serverSignals out)) p p')
    {ch : ServerSidePlayerChannel} (hch : s.server.playerChannels[k]? = some ch)
    (hopen : ch.isOpen = true) (hk : k ∈ p.settled.playerChannels) :
    k ∉ p'.settled.playerChannels := by
  have hsent : framesTo c (serverSignals out) =
      [(k, MessageFactory.createSimpleCommand "CloseChannel")] := by
    generalize serverSignals out = signals at heffect ⊢
    generalize s'.server = m' at heffect
    cases heffect with
    | ignored hignored => exact absurd (QMap.mem_of_getElem? hch) hignored
    | left hold =>
        rw [hch, Option.some.injEq] at hold
        rw [← hold, if_pos hopen]
        simp [framesTo, ServerChannelManager.sendCloseChannelMessageToSouth,
          ServerChannelManager.emit, hactive]
  rw [hcontinues.settled_eq, hsent]
  intro hstill
  rcases (mem_receive (hs.settled_attached c p hp)).mp hstill with
    ⟨-, hnot⟩ | ⟨habsent, -⟩
  · exact hnot ⟨rfl, by simp⟩
  · exact habsent hk

theorem Ghostless.step (hG : Ghostless s) (hs : s.Valid)
    (h : s.step ev = .ok (s', out))
    (hleaves : ∀ op, s.serverOp ev = some op → ¬ LeavesGhost s op) : Ghostless s' := by
  intro c p' hactive hp' k hk
  rcases hs.effect h with ⟨hop, hsame, hsilent⟩ | ⟨op, hop, heffect⟩
  · rw [hsame] at hactive ⊢
    have hregistered := hactive ▸ hs.server.active_registered (by omega)
    obtain ⟨p, hp, hcontinues⟩ := hs.registered_continues h hregistered hp'
    rw [hcontinues.settled_eq, hsilent] at hk
    exact hG c p hactive hp k hk
  have hregistered : (c : Int) ∈ s.server.controlChannels := by
    rcases heffect.activated_or_kept hs.server hactive with ⟨-, hc⟩ | ⟨hbefore, -⟩
    · exact hc
    · exact hbefore ▸ hs.server.active_registered (by omega)
  obtain ⟨p, hp, hcontinues⟩ := hs.registered_continues h hregistered hp'
  have hsettled := hk
  rw [hcontinues.settled_eq] at hsettled
  rcases hs.settled_mem h (hs.settled_attached c p hp) hsettled with hthere | hplayer
  · have hknown : k ∈ s.server.playerChannels := by
      rcases heffect.activated_or_kept hs.server hactive with ⟨rfl, hc⟩ | ⟨hbefore, -⟩
      · by_contra habsent
        exact hleaves _ hop ⟨hc, p, k, hp, hthere, habsent⟩
      · exact hG c p hbefore hp k hthere
    rcases heffect.mem_after hknown with hstays | rfl
    · exact hstays
    -- the player leaves: the channel is open, so the client is told as well
    · obtain ⟨ch, hch⟩ := (QMap.mem_iff _ _).mp hknown
      rcases heffect.activated_or_kept hs.server hactive with ⟨heq, -⟩ | ⟨hbefore, -⟩
      · cases heq
      · have hopen : ch.isOpen = true := by
          by_contra hclosed
          exact hleaves _ hop ⟨c, p, ch, hbefore, hp, hch, by simpa using hclosed, hthere⟩
        rw [hop] at hcontinues
        exact absurd hk
          (closes_settled hs heffect hbefore hp hcontinues hch hopen hthere)
  · exact hplayer

end Steps

def LeavesNoGhost (history : History β) : Prop :=
  Execution.EachStep (fun _ st => ∀ op, st.pre.serverOp st.label = some op →
    ¬ LeavesGhost st.pre op) history

theorem noGhostPlayers_of_leavesNoGhost (h : Execution (machine β) history s)
    (hleaves : LeavesNoGhost history) :
    Execution.Always (machine β) (fun _ s => NoGhostPlayers s) history := by
  have hghostless : Execution.Always (machine β) (fun _ s => Ghostless s) history := by
    refine h.always_of_eachStep (P := fun _ s => Ghostless s) ?_ ?_ hleaves
    · intro c p hactive
      simp [machine, start, ServerChannelManager.start] at hactive
    · intro history s s' ev out hexec hG hstep hstepLeaves
      exact hG.step (valid_of_execution hexec) hstep hstepLeaves
  intro older t hsuffix hexec
  exact (hghostless older t hsuffix hexec).noGhostPlayers

def leavesAccepted : List (ProtocolEvent Text) :=
  [.connect 0 [] "" [], .serverOperation ⟨.activateConnection 0, Eq.refl true⟩,
    .serverOperation ⟨.openPlayerChannel ⟨7, "player"⟩ .CHANNEL_CLOSED, Eq.refl true⟩,
    .deliverToClient 0, .deliverToClient 0, .deliverToServer 0,
    .serverOperation ⟨.closePlayerChannel 1, Eq.refl true⟩, .deliverToClient 0]

theorem noGhostPlayers_leavesAccepted :
    ∃ history s, (machine Text).run leavesAccepted = .ok (history, s) ∧
      Execution.Always (machine Text) (fun _ s => NoGhostPlayers s) history := by
  refine ⟨_, _, rfl, noGhostPlayers_of_leavesNoGhost (Machine.run_execution
    (show (machine Text).run leavesAccepted = .ok (_, _) from rfl)) ?_⟩
  refine ⟨?_, ?_, ?_, ?_, ?_, ?_, ?_, ?_, trivial⟩ <;> intro op hop
  · cases hop
  · cases hop
    rintro ⟨c, p, ch, -, -, hch, hclosed, -⟩
    cases hch
    cases hclosed
  · cases hop
    exact id
  · cases hop
  · cases hop
  · cases hop
    exact id
  · cases hop
    rintro ⟨-, p, k, hp, hk, -⟩
    cases hp
    exact absurd (Std.ExtTreeMap.contains_iff_mem.mpr hk) (fun h => by cases h)
  · cases hop
    exact id

/-- A player leaves before the acceptance has arrived. -/
def leavesUnaccepted : List (ProtocolEvent Text) :=
  [.connect 0 [] "" [], .serverOperation ⟨.activateConnection 0, Eq.refl true⟩,
    .serverOperation ⟨.openPlayerChannel ⟨7, "player"⟩ .CHANNEL_CLOSED, Eq.refl true⟩,
    .deliverToClient 0, .deliverToClient 0,
    .serverOperation ⟨.closePlayerChannel 1, Eq.refl true⟩, .deliverToServer 0]

theorem leavesUnaccepted_ghost :
    ∃ history s, (machine Text).run leavesUnaccepted = .ok (history, s) ∧
      ¬ NoGhostPlayers s := by
  refine ⟨_, _, rfl, ?_⟩
  intro hG
  have hplayer := hG 0 _ rfl rfl ⟨rfl, rfl⟩ 1 (Std.ExtTreeMap.contains_iff_mem.mp rfl)
  exact absurd (Std.ExtTreeMap.contains_iff_mem.mpr hplayer) (by decide)

end GBerry.Protocol.System
