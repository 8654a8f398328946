import GBerry.Protocol.Steering

/-!
# Agreement on the active application

Once an application has received all that is under way to it, it should believe
that it is active exactly when its connection is the active one, and never while
its link is down.  A break does not reset what the application believes, and
`closeControlChannel` says nothing to the connection that it deactivates; the
theorem names these steps.
-/

namespace GBerry.Protocol

open GBerry.Common
open GBerry.Foundation
open GBerry.Server
open GBerry.Client

variable {β : Type} [QByteArray β]

namespace Network

structure ActivationAgreed (s : Network β) : Prop where
  up : ∀ (n : Nat) (l : Link β), (s.applications n).link = some l → l.Drained →
    ((s.applications n).client.isActivated = true ↔
      s.server.activeConnectionId = l.connectionId)
  down : ∀ n : Nat, (s.applications n).link = none →
    (s.applications n).client.isActivated = false
  unique : ∀ (n n' : Nat) (l l' : Link β),
    (s.applications n).link = some l → l.Drained →
    (s.applications n').link = some l' → l'.Drained →
    (s.applications n).client.isActivated = true →
    (s.applications n').client.isActivated = true → n = n'

/--
A link breaks while its application believes that it is active, or the control
channel of the active connection is closed.
-/
def Misleads (s : Network β) : NetworkEvent β → Prop
  | .connectionBroken n =>
      (s.applications n).link.isSome ∧ (s.applications n).client.isActivated = true
  | .serverOperation op =>
      ∃ c : Nat, op.1 = .closeControlChannel c ∧ s.server.activeConnectionId = c
  | _ => False

structure Sound (s : Network β) : Prop where
  server : s.server.Valid
  steady : SteadyServer β s.server
  control : ∀ n, (s.applications n).client.controlChannel.isSome
  registered_lt : ∀ c ∈ s.server.controlChannels, c < s.nextConnectionId
  link_lt : ∀ (n : Nat) (l : Link β), (s.applications n).link = some l →
    l.connectionId < s.nextConnectionId
  link_unique : ∀ (n n' : Nat) (l l' : Link β), (s.applications n).link = some l →
    (s.applications n').link = some l' → l.connectionId = l'.connectionId → n = n'
  unnoticed_lt : ∀ c ∈ s.unnoticed, c < s.nextConnectionId
  unnoticed_apart : ∀ (n : Nat) (l : Link β), (s.applications n).link = some l →
    l.connectionId ∉ s.unnoticed

/-- Once it has received what is under way, the application is where the server is. -/
def Follows (server : ServerChannelManager) (a : Application β) : Prop :=
  match a.link with
  | some l => l.closed = false →
      activatedAfter a.client.isActivated l.toClient =
        decide (server.activeConnectionId = l.connectionId)
  | none => a.client.isActivated = false

section Sound

variable {s s' : Network β} {out : List (ProtocolSignal β)} {op : ServerOp β}

theorem serve_ok (h : s.serve op = .ok (s', out)) :
    ∃ (server : ServerChannelManager) (sent : List (Signal β)),
      s.server.step op = .ok (server, sent) ∧
      s' = { s with
        server := server
        applications := fun n => (s.applications n).send sent } := by
  unfold serve at h
  split at h
  · cases h
  · rename_i server sent hstep
    cases h
    exact ⟨server, sent, hstep, rfl⟩

omit [QByteArray β] in
theorem send_link (a : Application β) (sent : List (Signal β)) {l : Link β}
    (h : (a.send sent).link = some l) :
    ∃ l₀, a.link = some l₀ ∧ l.connectionId = l₀.connectionId ∧ l.closed = l₀.closed := by
  obtain ⟨l₀, hl₀, rfl⟩ := Option.map_eq_some_iff.mp h
  refine ⟨l₀, hl₀, ?_, ?_⟩ <;> unfold Link.send <;> split <;> rfl

theorem Sound.serve (hs : s.Sound) (h : s.serve op = .ok (s', out))
    (hop : ∀ (c : Nat) (commands : List ICommand), op = .openControlChannel c commands →
      c < s.nextConnectionId ∧ ∀ cmd ∈ commands, SteadyCommand β cmd) : s'.Sound := by
  obtain ⟨server, sent, hstep, rfl⟩ := serve_ok h
  have heffect := hs.server.effect hstep
  have hlink (n : Nat) (l : Link β) (hl : ((s.applications n).send sent).link = some l) :
      ∃ l₀, (s.applications n).link = some l₀ ∧ l.connectionId = l₀.connectionId := by
    obtain ⟨l₀, hl₀, hid, -⟩ := send_link _ _ hl
    exact ⟨l₀, hl₀, hid⟩
  refine ⟨heffect.valid hs.server, ?_, hs.control, ?_, ?_, ?_, hs.unnoticed_lt, ?_⟩
  · exact steadyServer_effect heffect hs.steady fun c commands heq => (hop c commands heq).2
  · intro c hc
    rcases heffect.mem_controlChannels hc with hold | ⟨c', commands, rfl, rfl⟩
    · exact hs.registered_lt c hold
    · have hlt := (hop c' commands rfl).1
      exact_mod_cast hlt
  · intro n l hl
    obtain ⟨l₀, hl₀, hid⟩ := hlink n l hl
    exact hid ▸ hs.link_lt n l₀ hl₀
  · intro n n' l l' hl hl' heq
    obtain ⟨l₀, hl₀, hid⟩ := hlink n l hl
    obtain ⟨l₁, hl₁, hid'⟩ := hlink n' l' hl'
    exact hs.link_unique n n' l₀ l₁ hl₀ hl₁ (by omega)
  · intro n l hl
    obtain ⟨l₀, hl₀, hid⟩ := hlink n l hl
    exact hid ▸ hs.unnoticed_apart n l₀ hl₀

theorem Sound.setApplication (hs : s.Sound) {n : Nat} {a : Application β}
    (hcontrol : a.client.controlChannel.isSome)
    (hlink : ∀ l, a.link = some l →
      ∃ l₀, (s.applications n).link = some l₀ ∧ l.connectionId = l₀.connectionId) :
    (s.setApplication n a).Sound := by
  have hold (x : Nat) (l : Link β)
      (hl : ((s.setApplication n a).applications x).link = some l) :
      ∃ l₀, (s.applications x).link = some l₀ ∧ l.connectionId = l₀.connectionId := by
    by_cases hx : x = n
    · subst hx
      simp only [Network.setApplication, Function.update_self] at hl
      exact hlink l hl
    · simp only [Network.setApplication, Function.update_of_ne hx] at hl
      exact ⟨l, hl, rfl⟩
  refine ⟨hs.server, hs.steady, ?_, hs.registered_lt, ?_, ?_, hs.unnoticed_lt, ?_⟩
  · intro x
    by_cases hx : x = n
    · subst hx
      simpa [Network.setApplication] using hcontrol
    · simpa [Network.setApplication, hx] using hs.control x
  · intro x l hl
    obtain ⟨l₀, hl₀, hid⟩ := hold x l hl
    exact hid ▸ hs.link_lt x l₀ hl₀
  · intro x x' l l' hl hl' heq
    obtain ⟨l₀, hl₀, hid⟩ := hold x l hl
    obtain ⟨l₁, hl₁, hid'⟩ := hold x' l' hl'
    exact hs.link_unique x x' l₀ l₁ hl₀ hl₁ (by omega)
  · intro x l hl
    obtain ⟨l₀, hl₀, hid⟩ := hold x l hl
    exact hid ▸ hs.unnoticed_apart x l₀ hl₀

theorem Sound.setUnnoticed (hs : s.Sound) {unnoticed : List Nat}
    (hlt : ∀ c ∈ unnoticed, c < s.nextConnectionId)
    (hapart : ∀ (n : Nat) (l : Link β), (s.applications n).link = some l →
      l.connectionId ∉ unnoticed) :
    ({ s with unnoticed := unnoticed } : Network β).Sound :=
  ⟨hs.server, hs.steady, hs.control, hs.registered_lt, hs.link_lt, hs.link_unique, hlt,
    hapart⟩

omit [QByteArray β] in
theorem reply_link (a : Application β) (signals : List (ClientSignal β)) {l : Link β}
    (h : (a.reply signals).link = some l) :
    ∃ l₀, a.link = some l₀ ∧ l.connectionId = l₀.connectionId ∧
      l.closed = l₀.closed ∧ l.toClient = l₀.toClient := by
  obtain ⟨l₀, hl₀, rfl⟩ := Option.map_eq_some_iff.mp h
  exact ⟨l₀, hl₀, rfl, rfl, rfl⟩

theorem Sound.reconnect (hs : s.Sound) {n : Nat} {client : ClientChannelManager}
    (hn : s.applications n = ⟨client, none⟩) :
    ({ s.setApplication n ⟨client, some ⟨s.nextConnectionId, [], [], false⟩⟩ with
      nextConnectionId := s.nextConnectionId + 1 } : Network β).Sound := by
  have hlink (x : Nat) (l : Link β)
      (hl : ((s.setApplication n ⟨client, some ⟨s.nextConnectionId, [], [], false⟩⟩).applications
        x).link = some l) :
      x = n ∧ l.connectionId = s.nextConnectionId ∨
        x ≠ n ∧ (s.applications x).link = some l := by
    by_cases hx : x = n
    · subst hx
      simp only [Network.setApplication, Function.update_self, Option.some.injEq] at hl
      exact .inl ⟨rfl, hl ▸ rfl⟩
    · simp only [Network.setApplication, Function.update_of_ne hx] at hl
      exact .inr ⟨hx, hl⟩
  refine ⟨hs.server, hs.steady, ?_, ?_, ?_, ?_, ?_, ?_⟩
  · intro x
    have hcontrol := hs.control n
    by_cases hx : x = n
    · subst hx
      simpa [Network.setApplication, hn] using hcontrol
    · simpa [Network.setApplication, hx] using hs.control x
  · intro c hc
    have hlt := hs.registered_lt c hc
    push_cast
    omega
  · intro x l hl
    rcases hlink x l hl with ⟨-, hid⟩ | ⟨-, hold⟩
    · simp only [hid]
      omega
    · have hlt := hs.link_lt x l hold
      simp only
      omega
  · intro x x' l l' hl hl' heq
    rcases hlink x l hl with ⟨rfl, hid⟩ | ⟨hx, hold⟩
    · rcases hlink x' l' hl' with ⟨rfl, -⟩ | ⟨-, hold'⟩
      · rfl
      · have hlt := hs.link_lt x' l' hold'
        omega
    · rcases hlink x' l' hl' with ⟨rfl, hid'⟩ | ⟨-, hold'⟩
      · have hlt := hs.link_lt x l hold
        omega
      · exact hs.link_unique x x' l l' hold hold' heq
  · intro c hc
    have hlt := hs.unnoticed_lt c hc
    simp only
    omega
  · intro x l hl
    rcases hlink x l hl with ⟨-, hid⟩ | ⟨-, hold⟩
    · intro hmem
      have hlt := hs.unnoticed_lt _ hmem
      omega
    · exact hs.unnoticed_apart x l hold

theorem Sound.connectionBroken (hs : s.Sound) {n : Nat} {client : ClientChannelManager}
    {l : Link β} (hn : s.applications n = ⟨client, some l⟩)
    (h : s.step (.connectionBroken n) = .ok (s', out)) : s'.Sound := by
  have hcontrol : client.controlChannel.isSome := by
    simpa [hn] using hs.control n
  obtain ⟨channel, hchannel⟩ := Option.isSome_iff_exists.mp hcontrol
  have hbroken := connectionBroken_eq (β := β) hchannel
  have hdown := hs.setApplication (n := n)
    (a := ⟨(client.connectionBroken (β := β)).1, none⟩) (by simp [hbroken])
    (fun l' hl' => by cases hl')
  simp only [Network.step, hn] at h
  cases h
  apply hdown.setUnnoticed
  · intro c hc
    split at hc
    · exact hs.unnoticed_lt c hc
    · rcases List.mem_cons.mp hc with rfl | hold
      · exact hs.link_lt n l (by rw [hn])
      · exact hs.unnoticed_lt c hold
  · intro x l' hl' hmem
    have hne : x ≠ n := by
      rintro rfl
      simp [Network.setApplication] at hl'
    simp only [Network.setApplication, Function.update_of_ne hne] at hl'
    split at hmem
    · exact hs.unnoticed_apart x l' hl' hmem
    · rcases List.mem_cons.mp hmem with heq | hold
      · exact hne (hs.link_unique x n l' l hl' (by rw [hn]) heq)
      · exact hs.unnoticed_apart x l' hl' hold

end Sound

section Follows

variable {s s' : Network β} {m m' : ServerChannelManager} {a : Application β}
  {op : ServerOp β} {sent : List (Signal β)}

theorem Follows.send (ha : Follows m a) (hm : m.Valid) (hsteady : SteadyServer β m)
    (hstep : m.step op = .ok (m', sent))
    (hreply : ∀ (c : Nat) (json : JsonObject), op = .sendJsonMessageToSouth c json →
      steers (QByteArray.toJson json : β) = false)
    (hclose : ∀ x : Nat, op = .closeControlChannel x → m.activeConnectionId ≠ x)
    (hend : ∀ l, a.link = some l → l.closed = false →
      op ≠ .applicationClosed l.connectionId) :
    Follows m' (a.send sent) := by
  obtain ⟨client, link⟩ := a
  cases link with
  | none => exact ha
  | some l =>
      intro hopen
      simp only [Application.send, Option.map_some, Link.send] at hopen ⊢
      by_cases hclosed : l.closed = true
      · simp [hclosed] at hopen
      · have hup : l.closed = false := by simpa using hclosed
        have hbefore := ha hup
        have hsent := steered_effect hm hsteady (hm.effect hstep) hreply hclose
          (hend l rfl hup)
        simp only [hup, Bool.false_eq_true, if_false, activatedAfter_append]
        rw [hbefore, hsent]

theorem Follows.reply (ha : Follows m a) (signals : List (ClientSignal β)) :
    Follows m (a.reply signals) := by
  obtain ⟨client, link⟩ := a
  cases link with
  | none => exact ha
  | some l => exact ha

theorem follows_setApplication (hs : ∀ x, Follows m (s.applications x)) {n : Nat}
    (ha : Follows m a) (x : Nat) : Follows m ((s.setApplication n a).applications x) := by
  by_cases hx : x = n
  · subst hx
    simpa [Network.setApplication] using ha
  · simpa [Network.setApplication, hx] using hs x

theorem follows_serve {out : List (ProtocolSignal β)} (hs : s.Sound)
    (hfollows : ∀ x, Follows s.server (s.applications x))
    (h : s.serve op = .ok (s', out))
    (hreply : ∀ (c : Nat) (json : JsonObject), op = .sendJsonMessageToSouth c json →
      steers (QByteArray.toJson json : β) = false)
    (hclose : ∀ x : Nat, op = .closeControlChannel x → s.server.activeConnectionId ≠ x)
    (hend : ∀ x l, (s.applications x).link = some l → l.closed = false →
      op ≠ .applicationClosed l.connectionId) (x : Nat) :
    Follows s'.server (s'.applications x) := by
  obtain ⟨server, sent, hstep, rfl⟩ := serve_ok h
  exact (hfollows x).send hs.server hs.steady hstep hreply hclose (hend x)

end Follows

structure Synchronised (s : Network β) : Prop where
  sound : s.Sound
  follows : ∀ x, Follows s.server (s.applications x)

section Steps

variable {s s' : Network β} {out : List (ProtocolSignal β)} {n : Nat}

theorem Synchronised.signal (hs : s.Synchronised) {a : Application β} {l : Link β}
    {signals : List (ClientSignal β)} (h : s.signal n l a signals = .ok (s', out))
    (hcontrol : a.client.controlChannel.isSome)
    (hlink : ∀ l, a.link = some l →
      ∃ l₀, (s.applications n).link = some l₀ ∧ l.connectionId = l₀.connectionId)
    (ha : Follows s.server a) : s'.Synchronised := by
  cases h
  constructor
  · refine hs.sound.setApplication (a := a.reply signals) hcontrol ?_
    intro l' hl'
    obtain ⟨l₁, hl₁, hid, -⟩ := reply_link a signals hl'
    obtain ⟨l₀, hl₀, hid₀⟩ := hlink l₁ hl₁
    exact ⟨l₀, hl₀, hid.trans hid₀⟩
  · exact follows_setApplication hs.follows (ha.reply signals)

theorem Synchronised.write (hs : s.Synchronised) {client : ClientChannelManager}
    {l : Link β} {signals : List (ClientSignal β)}
    (hn : s.applications n = ⟨client, some l⟩)
    (h : s.signal n l ⟨client, some l⟩ signals = .ok (s', out)) : s'.Synchronised := by
  have hcontrol := hs.sound.control n
  have hfollows := hs.follows n
  rw [hn] at hcontrol hfollows
  exact hs.signal h hcontrol (fun l' hl' => ⟨l', hn ▸ hl', rfl⟩) hfollows

theorem Synchronised.serve (hs : s.Synchronised) {op : ServerOp β}
    (h : s.serve op = .ok (s', out))
    (hopen : ∀ (c : Nat) (commands : List ICommand), op = .openControlChannel c commands →
      c < s.nextConnectionId ∧ ∀ cmd ∈ commands, SteadyCommand β cmd)
    (hreply : ∀ (c : Nat) (json : JsonObject), op = .sendJsonMessageToSouth c json →
      steers (QByteArray.toJson json : β) = false)
    (hclose : ∀ x : Nat, op = .closeControlChannel x → s.server.activeConnectionId ≠ x)
    (hend : ∀ x l, (s.applications x).link = some l → l.closed = false →
      op ≠ .applicationClosed l.connectionId) : s'.Synchronised where
  sound := hs.sound.serve h hopen
  follows := follows_serve hs.sound hs.follows h hreply hclose hend

theorem Synchronised.reconnect (hs : s.Synchronised) {client : ClientChannelManager}
    (hn : s.applications n = ⟨client, none⟩) :
    ({ s.setApplication n ⟨client, some ⟨s.nextConnectionId, [], [], false⟩⟩ with
      nextConnectionId := s.nextConnectionId + 1 } : Network β).Synchronised := by
  have hinactive : s.server.activeConnectionId ≠ s.nextConnectionId := by
    intro heq
    have hlt := hs.sound.registered_lt _ (heq ▸ hs.sound.server.active_registered (by omega))
    omega
  have hdown := hs.follows n
  rw [hn] at hdown
  constructor
  · exact hs.sound.reconnect hn
  · apply follows_setApplication hs.follows
    intro _
    have hflag : client.isActivated = false := hdown
    simp [activatedAfter, hflag, hinactive]

theorem Synchronised.connectionBroken (hs : s.Synchronised) {client : ClientChannelManager}
    {l : Link β} (hn : s.applications n = ⟨client, some l⟩)
    (hinactive : client.isActivated = false)
    (h : s.step (.connectionBroken n) = .ok (s', out)) : s'.Synchronised := by
  have hsound := hs.sound.connectionBroken hn h
  have hcontrol : client.controlChannel.isSome := by
    simpa [hn] using hs.sound.control n
  obtain ⟨channel, hchannel⟩ := Option.isSome_iff_exists.mp hcontrol
  have hbroken := connectionBroken_eq (β := β) hchannel
  have hflag : (client.connectionBroken (β := β)).1.isActivated = false := by
    simp only [ClientChannelManager.isActivated, hchannel] at hinactive
    simpa only [ClientChannelManager.isActivated, hbroken] using hinactive
  simp only [Network.step, hn] at h
  cases h
  exact ⟨hsound, follows_setApplication hs.follows hflag⟩

theorem Synchronised.relink (hs : s.Synchronised) {client : ClientChannelManager}
    {l l' : Link β} (hn : s.applications n = ⟨client, some l⟩)
    (hid : l'.connectionId = l.connectionId)
    (hfollows : Follows s.server ⟨client, some l'⟩) :
    (s.setApplication n ⟨client, some l'⟩).Synchronised := by
  have hcontrol := hs.sound.control n
  rw [hn] at hcontrol
  constructor
  · refine hs.sound.setApplication (a := ⟨client, some l'⟩) hcontrol ?_
    intro l₁ hl₁
    cases hl₁
    exact ⟨l, congrArg Application.link hn, hid⟩
  · exact follows_setApplication hs.follows hfollows

theorem Synchronised.openControlChannel (hs : s.Synchronised)
    {commands : List { cmd : ICommand // SteadyCommand β cmd }}
    (h : s.step (.openControlChannel n commands) = .ok (s', out)) : s'.Synchronised := by
  simp only [Network.step] at h
  split at h
  · rename_i client connectionId toClient toServer hn
    refine hs.serve h ?_ (by rintro _ _ ⟨⟩) (by rintro _ ⟨⟩) (by rintro _ _ _ _ ⟨⟩)
    intro c commands' heq
    cases heq
    refine ⟨hs.sound.link_lt n _ (by rw [hn]), ?_⟩
    intro cmd hcmd
    obtain ⟨command, -, rfl⟩ := List.mem_map.mp hcmd
    exact command.2
  · cases h
    exact hs

theorem Synchronised.deliverToClient (hs : s.Synchronised)
    (h : s.step (.deliverToClient n) = .ok (s', out)) : s'.Synchronised := by
  simp only [Network.step] at h
  split at h
  · rename_i client connectionId k msg toClient toServer closed hn
    have hcontrol := hs.sound.control n
    have hfollows := hs.follows n
    rw [hn] at hcontrol hfollows
    refine hs.signal h (processMessage_controlChannel hcontrol) ?_ ?_
    · intro l hl
      cases hl
      exact ⟨_, congrArg Application.link hn, rfl⟩
    · intro hopen
      rw [processMessage_isActivated hcontrol]
      exact hfollows hopen
  · cases h
    exact hs

theorem Synchronised.deliverToServer (hs : s.Synchronised)
    (h : s.step (.deliverToServer n) = .ok (s', out)) : s'.Synchronised := by
  simp only [Network.step] at h
  split at h
  · rename_i client connectionId toClient k msg toServer hn
    have hfollows := hs.follows n
    rw [hn] at hfollows
    have htaken : (s.setApplication n
        ⟨client, some ⟨connectionId, toClient, toServer, false⟩⟩).Synchronised :=
      hs.relink hn rfl hfollows
    exact htaken.serve h (by rintro _ _ ⟨⟩) (by rintro _ _ ⟨⟩) (by rintro _ ⟨⟩)
      (by rintro _ _ _ _ ⟨⟩)
  · cases h
    exact hs

theorem Synchronised.applicationClosed (hs : s.Synchronised)
    (h : s.step (.applicationClosed n) = .ok (s', out)) : s'.Synchronised := by
  simp only [Network.step] at h
  split at h
  · rename_i client connectionId toClient toServer hn
    have hclosed : (s.setApplication n
        ⟨client, some ⟨connectionId, toClient, toServer, true⟩⟩).Synchronised := by
      refine hs.relink hn rfl ?_
      rintro ⟨⟩
    refine hclosed.serve h (by rintro _ _ ⟨⟩) (by rintro _ _ ⟨⟩) (by rintro _ ⟨⟩) ?_
    intro x l hl hopen heq
    by_cases hx : x = n
    · subst hx
      simp only [Network.setApplication, Function.update_self, Option.some.injEq] at hl
      subst hl
      cases hopen
    · simp only [Network.setApplication, Function.update_of_ne hx] at hl
      cases heq
      exact hx (hs.sound.link_unique x n l _ hl (congrArg Application.link hn) rfl)
  · cases h
    exact hs

theorem Synchronised.brokenConnectionClosed (hs : s.Synchronised) {c : Nat}
    (h : s.step (.brokenConnectionClosed c) = .ok (s', out)) : s'.Synchronised := by
  simp only [Network.step] at h
  split at h
  · rename_i hc
    have hsound : ({ s with unnoticed := s.unnoticed.erase c } : Network β).Sound := by
      apply hs.sound.setUnnoticed
      · intro x hx
        exact hs.sound.unnoticed_lt x (List.mem_of_mem_erase hx)
      · intro x l hl hmem
        exact hs.sound.unnoticed_apart x l hl (List.mem_of_mem_erase hmem)
    refine Synchronised.serve ⟨hsound, hs.follows⟩ h (by rintro _ _ ⟨⟩)
      (by rintro _ _ ⟨⟩) (by rintro _ ⟨⟩) ?_
    rintro x l hl - heq
    cases heq
    exact hs.sound.unnoticed_apart x l hl hc
  · cases h
    exact hs

theorem Synchronised.step (hs : s.Synchronised) {ev : NetworkEvent β}
    (h : s.step ev = .ok (s', out)) (hleads : ¬ s.Misleads ev) : s'.Synchronised := by
  cases ev with
  | reconnect n =>
      simp only [Network.step] at h
      split at h
      · rename_i client hn
        cases h
        exact hs.reconnect hn
      · cases h
        exact hs
  | openControlChannel n commands => exact hs.openControlChannel h
  | serverOperation op =>
      obtain ⟨op, hop⟩ := op
      refine hs.serve h ?_ ?_ ?_ ?_
      · rintro c commands rfl
        exact hop.elim
      · rintro c json rfl
        exact hop
      · rintro c rfl hactive
        exact hleads ⟨c, rfl, hactive⟩
      · rintro x l - - rfl
        exact hop.elim
  | deliverToClient n => exact hs.deliverToClient h
  | deliverToServer n => exact hs.deliverToServer h
  | sendPlayerMessage n k msg =>
      simp only [Network.step] at h
      split at h
      · rename_i client l hn
        exact hs.write hn h
      · cases h
        exact hs
  | sendControlMessage n msg =>
      simp only [Network.step] at h
      split at h
      · rename_i client l hn
        exact hs.write hn h
      · cases h
        exact hs
  | connectionBroken n =>
      cases hn : s.applications n with
      | mk client link =>
          cases link with
          | none =>
              simp only [Network.step, hn] at h
              cases h
              exact hs
          | some l =>
              refine hs.connectionBroken hn ?_ h
              by_contra hactive
              exact hleads (by simp [Misleads, hn, hactive])
  | applicationClosed n => exact hs.applicationClosed h
  | brokenConnectionClosed c => exact hs.brokenConnectionClosed h

end Steps

variable {applicationCode : Nat → String} {clientCommands : Nat → List ICommand}
  {s : Network β} {history : History β}

theorem synchronised_start :
    (start applicationCode clientCommands : Network β).Synchronised := by
  constructor
  · refine ⟨ServerChannelManager.valid_start, ?_, fun _ => rfl, ?_, ?_, ?_, ?_, ?_⟩
    · intro c ch hch
      simp [start, ServerChannelManager.start] at hch
    · intro c hc
      simp [start, ServerChannelManager.start] at hc
    · intro n l hl
      cases hl
    · intro n n' l l' hl
      cases hl
    · intro c hc
      cases hc
    · intro n l hl
      cases hl
  · intro n
    rfl

theorem Synchronised.activationAgreed (hs : s.Synchronised) : s.ActivationAgreed := by
  have hup (n : Nat) (l : Link β) (hl : (s.applications n).link = some l)
      (hdrained : l.Drained) :
      (s.applications n).client.isActivated = true ↔
        s.server.activeConnectionId = l.connectionId := by
    have hfollows := hs.follows n
    simp only [Follows, hl] at hfollows
    have hflag := hfollows hdrained.up
    rw [hdrained.to_client] at hflag
    simp only [activatedAfter, List.foldl_nil] at hflag
    simp [hflag]
  refine ⟨hup, ?_, ?_⟩
  · intro n hn
    have hfollows := hs.follows n
    simpa only [Follows, hn] using hfollows
  · intro n n' l l' hl hdrained hl' hdrained' hactive hactive'
    have hid := (hup n l hl hdrained).mp hactive
    have hid' := (hup n' l' hl' hdrained').mp hactive'
    exact hs.sound.link_unique n n' l l' hl hl' (by omega)

def NeverMisled (history : History β) : Prop :=
  Execution.EachStep (fun _ st => ¬ st.pre.Misleads st.label) history

theorem activationAgreed_of_neverMisled
    (h : Execution (machine β applicationCode clientCommands) history s)
    (hnever : NeverMisled history) :
    Execution.Always (machine β applicationCode clientCommands)
      (fun _ s => s.ActivationAgreed) history := by
  have hsynchronised : Execution.Always (machine β applicationCode clientCommands)
      (fun _ s => s.Synchronised) history := by
    refine h.always_of_eachStep (P := fun _ s => s.Synchronised) synchronised_start ?_ hnever
    intro history s s' ev out hexec hs hstep hleads
    exact hs.step hstep hleads
  intro older t hsuffix hexec
  exact (hsynchronised older t hsuffix hexec).activationAgreed

def breaksActive : List (NetworkEvent Text) :=
  [.reconnect 0, .openControlChannel 0 [],
    .serverOperation ⟨.activateConnection 0, trivial⟩, .deliverToClient 0,
    .connectionBroken 0, .brokenConnectionClosed 0]

theorem breaksActive_disagrees :
    ∃ history s, (machine Text (fun _ => "") (fun _ => [])).run breaksActive =
        .ok (history, s) ∧
      ¬ s.ActivationAgreed := by
  refine ⟨_, _, rfl, ?_⟩
  intro hagreed
  have hdown := hagreed.down 0 rfl
  cases hdown

/-- Another application takes over before the link of the first one breaks. -/
def breaksInactive : List (NetworkEvent Text) :=
  [.reconnect 0, .openControlChannel 0 [],
    .serverOperation ⟨.activateConnection 0, trivial⟩, .deliverToClient 0,
    .reconnect 1, .openControlChannel 1 [],
    .serverOperation ⟨.activateConnection 1, trivial⟩, .deliverToClient 0,
    .connectionBroken 0, .reconnect 0, .brokenConnectionClosed 0]

theorem activationAgreed_breaksInactive :
    ∃ history s, (machine Text (fun _ => "") (fun _ => [])).run breaksInactive =
        .ok (history, s) ∧
      Execution.Always (machine Text (fun _ => "") (fun _ => []))
        (fun _ s => s.ActivationAgreed) history := by
  refine ⟨_, _, rfl, activationAgreed_of_neverMisled (Machine.run_execution
    (show (machine Text (fun _ => "") (fun _ => [])).run breaksInactive = .ok (_, _)
      from rfl)) ?_⟩
  refine ⟨?_, ?_, ?_, ?_, ?_, ?_, ?_, ?_, ?_, ?_, ?_, trivial⟩
  all_goals intro hleads
  · exact hleads
  · exact hleads
  · cases hleads.2
  · exact hleads
  · obtain ⟨c, hop, -⟩ := hleads
    cases hop
  · exact hleads
  · exact hleads
  · exact hleads
  · obtain ⟨c, hop, -⟩ := hleads
    cases hop
  · exact hleads
  · exact hleads

end Network

end GBerry.Protocol
