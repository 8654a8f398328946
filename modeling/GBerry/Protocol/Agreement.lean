import GBerry.Protocol.Invariant

/-!
# Agreement on the players

Once nothing is under way, the active application and the server should agree
on every player that was announced.  An application ignores an `OpenChannel`
for a channel that it still has from an earlier activation, so that the server
waits for an acceptance that never comes; the theorem names the steps that lead
there.
-/

namespace GBerry.Protocol.System

open GBerry.Common
open GBerry.Foundation
open GBerry.Server
open GBerry.Client
open ServerChannelManager (Announced announced_cons announced_lt)
open ClientChannelManager (ROOT_CHANNEL)

variable {β : Type} [QByteArray β] {s s' : System β} {history : History β}

/--
When nothing is under way between the server and the active connection, every
player announced to it since its activation is open on both sides.
-/
def PlayersAgreed (history : History β) (s : System β) : Prop :=
  ∀ (c : Nat) (p : Peer β), s.server.activeConnectionId = c →
    s.peers[(c : Int)]? = some p → p.Quiet →
    ∀ (k : Int) (ch : ServerSidePlayerChannel), s.server.playerChannels[k]? = some ch →
      Announced c k (serverHistory history) →
      ch.state = .CHANNEL_OPEN ∧ k ∈ p.client.playerChannels

/--
A connection is activated while its settled client still has a channel that is
about to be announced, and no acceptance is on its way; or a background
application is closed while a player announced to the active connection has no
acceptance on its way.
-/
def LosesAgreement (history : History β) (s : System β) : ServerOp β → Prop
  | .activateConnection c =>
      (c : Int) ∈ s.server.controlChannels ∧
        ∃ (p : Peer β) (k : Int) (ch : ServerSidePlayerChannel),
          s.peers[(c : Int)]? = some p ∧ s.server.playerChannels[k]? = some ch ∧
          (s.server.activeConnectionId = -1 → ch.isOpening = false) ∧
          k ∈ p.settled.playerChannels ∧ ¬ p.Accepting k
  | .applicationClosed x =>
      (x : Int) ∈ s.server.controlChannels ∧ (x : Int) ≠ s.server.activeConnectionId ∧
        ∃ (c : Nat) (p : Peer β) (k : Int), s.server.activeConnectionId = c ∧
          s.peers[(c : Int)]? = some p ∧ k ∈ s.server.playerChannels ∧
          Announced c k (serverHistory history) ∧ ¬ p.Accepting k
  | _ => False

def Agreement (history : History β) (s : System β) : Prop :=
  ∀ (c : Nat) (p : Peer β), s.server.activeConnectionId = c →
    s.peers[(c : Int)]? = some p →
    ∀ (k : Int) (ch : ServerSidePlayerChannel), s.server.playerChannels[k]? = some ch →
      Announced c k (serverHistory history) →
      k ∈ p.settled.playerChannels ∧ (ch.state = .CHANNEL_OPEN ∨ p.Accepting k)

theorem Agreement.playersAgreed (h : Agreement history s) : PlayersAgreed history s := by
  intro c p hactive hp hquiet k ch hch hannounced
  obtain ⟨hthere, hstate⟩ := h c p hactive hp k ch hch hannounced
  rw [hquiet.settled_eq] at hthere
  exact ⟨hstate.resolve_right (hquiet.not_accepting k), hthere⟩

section Steps

variable {ev : ProtocolEvent β} {out : List (ProtocolSignal β)} {c : Nat} {k : Int}

omit [QByteArray β] in
theorem serverHistory_quiet (hop : s.serverOp ev = none) :
    serverHistory (⟨s, ev, out, s'⟩ :: history) = serverHistory history := by
  simp [serverHistory, serverStep, hop]

omit [QByteArray β] in
theorem serverHistory_served {op : ServerOp β} (hop : s.serverOp ev = some op) :
    serverHistory (⟨s, ev, out, s'⟩ :: history) =
      ⟨s.server, op, serverSignals out, s'.server⟩ :: serverHistory history := by
  simp [serverHistory, serverStep, hop]

theorem not_closes_sent (hs : s.Valid) {op : ServerOp β}
    (heffect : s.server.Effect op s'.server (serverSignals out))
    (hk : k ≠ ROOT_CHANNEL) (hplayer : k ∈ s'.server.playerChannels) (c : Int) :
    ∀ frame ∈ framesTo c (serverSignals out), ¬ Closes k frame := by
  intro frame hframe hclose
  obtain rfl := closes_framesTo hs.server heffect hk hframe hclose
  exact heffect.closePlayerChannel_notMem hplayer

theorem Agreement.quiet (hA : Agreement history s) (hs : s.Valid)
    (h : s.step ev = .ok (s', out)) (hop : s.serverOp ev = none)
    (hsame : s'.server = s.server) (hsilent : serverSignals out = []) :
    Agreement (⟨s, ev, out, s'⟩ :: history) s' := by
  intro c p' hactive hp' k ch hch hannounced
  rw [hsame] at hactive hch
  rw [serverHistory_quiet hop] at hannounced
  have hregistered := hactive ▸ hs.server.active_registered (by omega)
  obtain ⟨p, hp, hcontinues⟩ := hs.registered_continues h hregistered hp'
  obtain ⟨hthere, hstate⟩ := hA c p hactive hp k ch hch hannounced
  constructor
  · apply hcontinues.keeps (hs.settled_attached c p hp) hthere
    rw [hsilent]
    simp [framesTo]
  · rcases hstate with hopen | haccepting
    · exact .inl hopen
    · rcases hcontinues.accepting haccepting with hstill | ⟨msg, hreceived, -⟩
      · exact .inr hstill
      · rw [hop] at hreceived
        cases hreceived

theorem activated_agrees (hs : s.Valid) (h : s.step ev = .ok (s', out))
    (hop : s.serverOp ev = some (.activateConnection c))
    (heffect : s.server.Effect (.activateConnection c) s'.server (serverSignals out))
    (hregistered : (c : Int) ∈ s.server.controlChannels)
    (hkeeps : ¬ LosesAgreement history s (.activateConnection c))
    {p' : Peer β} (hp' : s'.peers[(c : Int)]? = some p') (hk : k ≠ ROOT_CHANNEL)
    (hplayer : k ∈ s'.server.playerChannels)
    (hsent : openChannels c k (serverSignals out) ≠ []) :
    k ∈ p'.settled.playerChannels ∧ p'.Accepting k := by
  obtain ⟨p, hp, hcontinues⟩ := hs.registered_continues h hregistered hp'
  have hattached := hs.settled_attached c p hp
  have hclose := not_closes_sent hs heffect hk hplayer c
  by_cases hthere : k ∈ p.settled.playerChannels
  · obtain ⟨ch, hch, hclosed⟩ := heffect.reopens hs.server hk hsent
    have haccepting : p.Accepting k := by
      by_contra hnot
      exact hkeeps ⟨hregistered, p, k, ch, hp, hch, hclosed, hthere, hnot⟩
    constructor
    · exact hcontinues.keeps hattached hthere hclose
    · rcases hcontinues.accepting haccepting with hstill | ⟨msg, hreceived, -⟩
      · exact hstill
      · rw [hop] at hreceived
        cases hreceived
  · have hopens := exists_opens hs.server heffect hk hsent
    exact hcontinues.opens hattached hk hthere hclose hopens

theorem joined_agrees (hs : s.Valid) {op : ServerOp β}
    (heffect : s.server.Effect op s'.server (serverSignals out))
    (hactive : s'.server.activeConnectionId = c) (hactivates : op.activates c = false)
    {p p' : Peer β} (hp : s.peers[(c : Int)]? = some p)
    (hcontinues : Continues c (some op) (framesTo c (serverSignals out)) p p')
    (hk : k ≠ ROOT_CHANNEL) (hplayer : k ∈ s'.server.playerChannels)
    (hsent : openChannels c k (serverSignals out) ≠ []) :
    k ∈ p'.settled.playerChannels ∧ p'.Accepting k := by
  have hopens := exists_opens hs.server heffect hk hsent
  have hclose := not_closes_sent hs heffect hk hplayer c
  have hnew : k = s.server.channelIdCount := by
    obtain ⟨message, hmem, -, rfl, hopen⟩ :=
      ServerChannelManager.exists_openChannel hsent
    have hcause := ((heffect.playerText hs.server hmem hk).opens hopen).2.1
    rw [hactive, hactivates] at hcause
    simpa using hcause
  have hthere : k ∉ p.settled.playerChannels := by
    intro hthere
    have hdrawn := hs.settled_drawn c p hp k hthere
    omega
  exact hcontinues.opens (hs.settled_attached c p hp) hk hthere hclose hopens

theorem kept_agrees (hs : s.Valid) {op : ServerOp β}
    (heffect : s.server.Effect op s'.server (serverSignals out))
    (hactive : s'.server.activeConnectionId = c)
    (hbefore : s.server.activeConnectionId = c) (hactivates : op.activates c = false)
    (hkeeps : ¬ LosesAgreement history s op)
    {p p' : Peer β} (hp : s.peers[(c : Int)]? = some p)
    (hcontinues : Continues c (some op) (framesTo c (serverSignals out)) p p')
    (hk : k ≠ ROOT_CHANNEL) (hannounced : Announced c k (serverHistory history))
    {ch ch' : ServerSidePlayerChannel} (hch : s.server.playerChannels[k]? = some ch)
    (hch' : s'.server.playerChannels[k]? = some ch')
    (hthere : k ∈ p.settled.playerChannels)
    (hstate : ch.state = .CHANNEL_OPEN ∨ p.Accepting k) :
    k ∈ p'.settled.playerChannels ∧ (ch'.state = .CHANNEL_OPEN ∨ p'.Accepting k) := by
  have hclose := not_closes_sent hs heffect hk (QMap.mem_of_getElem? hch') c
  have haccepting (haccepting : p.Accepting k) :
      ch'.state = .CHANNEL_OPEN ∨ p'.Accepting k := by
    rcases hcontinues.accepting haccepting with hstill | ⟨msg, hreceived, haccepts⟩
    · exact .inr hstill
    · cases hreceived
      exact .inl (heffect.accepted hbefore hk haccepts hch')
  constructor
  · exact hcontinues.keeps (hs.settled_attached c p hp) hthere hclose
  · rcases hstate with hopen | hwaits
    · rcases heffect.stays_open hs.server hactive hactivates hch hch' hopen with
        hstays | ⟨x, rfl, hx, hne⟩
      · exact .inl hstays
      · apply haccepting
        by_contra hnot
        exact hkeeps ⟨hx, hne, c, p, k, hbefore, hp, QMap.mem_of_getElem? hch,
          hannounced, hnot⟩
    · exact haccepting hwaits

theorem Agreement.step (hexec : Execution (machine β) history s)
    (hA : Agreement history s) (h : s.step ev = .ok (s', out))
    (hkeeps : ∀ op, s.serverOp ev = some op → ¬ LosesAgreement history s op) :
    Agreement (⟨s, ev, out, s'⟩ :: history) s' := by
  have hs := valid_of_execution hexec
  rcases hs.effect h with ⟨hop, hsame, hsilent⟩ | ⟨op, hop, heffect⟩
  · exact hA.quiet hs h hop hsame hsilent
  intro c p' hactive hp' k ch' hch' hannounced
  have hplayer := QMap.mem_of_getElem? hch'
  have hk : k ≠ ROOT_CHANNEL := by
    have hpos := ((heffect.valid hs.server).player_range k hplayer).1
    unfold ROOT_CHANNEL
    omega
  rw [serverHistory_served hop, announced_cons hs.server heffect hactive] at hannounced
  -- an activation announces anew; otherwise a player joins, or was announced before
  rcases heffect.activated_or_kept hs.server hactive with
    ⟨rfl, hregistered⟩ | ⟨hbefore, hactivates⟩
  · have hsent := hannounced.resolve_right (by simp [ServerOp.activates])
    obtain ⟨hthere, haccepting⟩ := activated_agrees hs h hop heffect hregistered
      (hkeeps _ hop) hp' hk hplayer hsent
    exact ⟨hthere, .inr haccepting⟩
  · have hregistered := hbefore ▸ hs.server.active_registered (by omega)
    obtain ⟨p, hp, hcontinues⟩ := hs.registered_continues h hregistered hp'
    rw [hop] at hcontinues
    by_cases hsent : openChannels c k (serverSignals out) = []
    · have hold := (hannounced.resolve_left (fun hne => hne hsent)).2
      have hdrawn := announced_lt hk c (server_execution hexec) hold
      have hknown : k ∈ s.server.playerChannels := by
        rcases heffect.mem_before hplayer with hknown | ⟨rfl, -⟩
        · exact hknown
        · omega
      obtain ⟨ch, hch⟩ := (QMap.mem_iff _ _).mp hknown
      obtain ⟨hthere, hstate⟩ := hA c p hbefore hp k ch hch hold
      exact kept_agrees hs heffect hactive hbefore hactivates (hkeeps _ hop) hp
        hcontinues hk hold hch hch' hthere hstate
    · obtain ⟨hthere, haccepting⟩ :=
        joined_agrees hs heffect hactive hactivates hp hcontinues hk hplayer hsent
      exact ⟨hthere, .inr haccepting⟩

end Steps

def KeepsAgreement (history : History β) : Prop :=
  Execution.EachStep (fun older st => ∀ op, st.pre.serverOp st.label = some op →
    ¬ LosesAgreement older st.pre op) history

theorem playersAgreed_of_keepsAgreement (h : Execution (machine β) history s)
    (hkeeps : KeepsAgreement history) :
    Execution.Always (machine β) PlayersAgreed history := by
  have hagreement : Execution.Always (machine β) Agreement history := by
    refine h.always_of_eachStep (P := Agreement) ?_ ?_ hkeeps
    · intro c p hactive
      simp [machine, start, ServerChannelManager.start] at hactive
    · intro history s s' ev out hexec hA hstep hstepKeeps
      exact hA.step hexec hstep hstepKeeps
  intro older t hsuffix hexec
  exact (hagreement older t hsuffix hexec).playersAgreed

def joinsActive : List (ProtocolEvent Text) :=
  [.connect 0 [] "" [], .serverOperation ⟨.activateConnection 0, rfl⟩,
    .serverOperation ⟨.openPlayerChannel ⟨7, "player"⟩ .CHANNEL_CLOSED, rfl⟩,
    .deliverToClient 0, .deliverToClient 0, .deliverToServer 0]

theorem playersAgreed_joinsActive :
    ∃ history s, (machine Text).run joinsActive = .ok (history, s) ∧
      Execution.Always (machine Text) PlayersAgreed history := by
  refine ⟨_, _, rfl, playersAgreed_of_keepsAgreement (Machine.run_execution
    (show (machine Text).run joinsActive = .ok (_, _) from rfl)) ?_⟩
  refine ⟨?_, ?_, ?_, ?_, ?_, ?_, trivial⟩ <;> intro op hop
  · cases hop
    exact id
  · cases hop
  · cases hop
  · cases hop
    exact id
  · cases hop
    rintro ⟨-, p, k, ch, -, hch, -⟩
    cases hch
  · cases hop
    exact id

/-- An application that stayed connected is deactivated and activated again. -/
def pausesAndResumes : List (ProtocolEvent Text) :=
  joinsActive ++
    [.serverOperation ⟨.deactivateConnection 0, rfl⟩,
      .serverOperation ⟨.activateConnection 0, rfl⟩,
      .deliverToClient 0, .deliverToClient 0, .deliverToClient 0]

theorem pausesAndResumes_disagrees :
    ∃ history s, (machine Text).run pausesAndResumes = .ok (history, s) ∧
      ¬ PlayersAgreed history s := by
  refine ⟨_, _, rfl, ?_⟩
  intro hP
  have hplayer := hP 0 _ rfl rfl ⟨rfl, rfl⟩ 1 _ rfl (by intro h; cases h)
  cases hplayer.1

end GBerry.Protocol.System
