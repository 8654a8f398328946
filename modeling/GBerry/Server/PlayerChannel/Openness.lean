import GBerry.Foundation.Execution
import GBerry.Server.PlayerChannel

/-!
# When a player channel is open

A channel on its own: it is opened and closed, and messages come from both
sides.  Openness is kept twice, in `_isOpen` and in `_state`; `isOpen` reads the
latter, which a `CloseChannel` from south does not touch, and which an
`OpenChannelAccepted` changes whatever it was.
-/

namespace GBerry.Server

open GBerry.Foundation GBerry.Common

inductive PlayerChannelEvent (β : Type) where
  | open'
  | close
  | messageFromSouth (msg : β)
  | messageFromNorth (msg : β)

namespace ServerSidePlayerChannel

def construct (channelId : Int) (playerMeta : PlayerMeta)
    (uninitialised : PlayerChannelState) (southPartner northPartner : Option Int) :
    ServerSidePlayerChannel :=
  { create channelId playerMeta uninitialised with
    southPartner := southPartner
    northPartner := northPartner }

section

variable {β : Type} [QByteArray β]

def step (ch : ServerSidePlayerChannel) :
    PlayerChannelEvent β → Except Empty (ServerSidePlayerChannel × List (ChannelCall β))
  | .open' => .ok ch.open'
  | .close => .ok (ch.close, [])
  | .messageFromSouth msg => .ok (ch.receiveMessageFromSouth msg)
  | .messageFromNorth msg => .ok (ch, ch.receivePlayerMessageFromNorth msg)

def machine (β : Type) [QByteArray β] (ch : ServerSidePlayerChannel) :
    Machine ServerSidePlayerChannel (PlayerChannelEvent β) (ChannelCall β) Empty :=
  ⟨ch, step⟩

end

end ServerSidePlayerChannel

namespace PlayerChannelEvent

variable {β : Type} [QByteArray β]

def Accepts : PlayerChannelEvent β → Prop
  | .messageFromSouth msg => isCommand "OpenChannelAccepted" msg = true
  | _ => False

def Closes : PlayerChannelEvent β → Prop
  | .close => True
  | .messageFromSouth msg => isCommand "CloseChannel" msg = true
  | _ => False

theorem Closes.not_accepts {l : PlayerChannelEvent β} (h : l.Closes) : ¬ l.Accepts := by
  cases l with
  | open' => exact h.elim
  | close => exact fun haccepts => haccepts
  | messageFromNorth msg => exact h.elim
  | messageFromSouth msg =>
      intro haccepts
      simp only [Closes, Accepts, isCommand] at h haccepts
      cases hjson : QByteArray.fromJson msg with
      | none => simp [hjson] at h
      | some json =>
          rw [hjson] at h haccepts
          exact absurd (JsonObject.isCommand_unique h haccepts) (by decide)

end PlayerChannelEvent

namespace ServerSidePlayerChannel

variable {β : Type} [QByteArray β]

abbrev ChannelStep (β : Type) :=
  Step ServerSidePlayerChannel (PlayerChannelEvent β) (ChannelCall β)

def SendsOpen (st : ChannelStep β) : Prop := st.label = .open' ∧ st.out ≠ []

/--
Since the last `OpenChannel` it was accepted, and nothing has closed the channel
after that.
-/
def AcceptedSince : List (ChannelStep β) → Prop
  | [] => False
  | st :: older =>
      ¬ st.label.Closes ∧
        (st.label.Accepts ∧ (∃ sent ∈ older, SendsOpen sent) ∨
          ¬ SendsOpen st ∧ AcceptedSince older)

/-- An `OpenChannel` was sent, and neither accepted nor overtaken by a close since. -/
def OpeningInProgress : List (ChannelStep β) → Prop
  | [] => False
  | st :: older =>
      ¬ st.label.Closes ∧ ¬ st.label.Accepts ∧ (SendsOpen st ∨ OpeningInProgress older)

structure Orderly (older : List (ChannelStep β)) (st : ChannelStep β) : Prop where
  open_accepted : st.post.isOpen = true → AcceptedSince (st :: older)
  late_accepted : st.label.Accepts → ¬ OpeningInProgress older →
    st.post = st.pre ∧ st.out = []
  sent_open : st.label ≠ .open' → ∀ partner msg,
    .channelSendMessageToSouth partner msg ∈ st.out → st.pre.isOpen = true

/-- The step does not accept what was not asked for, and does not close an open channel. -/
structure Expected (older : List (ChannelStep β)) (st : ChannelStep β) : Prop where
  accepted : st.label.Accepts → OpeningInProgress older ∨ st.pre.state = .CHANNEL_OPEN
  closed : ∀ msg, st.label = .messageFromSouth msg → isCommand "CloseChannel" msg = true →
    st.pre.state ≠ .CHANNEL_OPEN

section

variable {older : List (ChannelStep β)} {s s' : ServerSidePlayerChannel}
  {l : PlayerChannelEvent β} {out : List (ChannelCall β)}

theorem AcceptedSince.sent (h : AcceptedSince older) : ∃ sent ∈ older, SendsOpen sent := by
  induction older with
  | nil => exact h.elim
  | cons st older ih =>
      have hsent : ∃ sent ∈ older, SendsOpen sent := by
        rcases h.2 with haccepts | hold
        · exact haccepts.2
        · exact ih hold.2
      obtain ⟨sent, hmem, hopen⟩ := hsent
      exact ⟨sent, List.mem_cons_of_mem _ hmem, hopen⟩

theorem OpeningInProgress.sent (h : OpeningInProgress older) :
    ∃ sent ∈ older, SendsOpen sent := by
  induction older with
  | nil => exact h.elim
  | cons st older ih =>
      rcases h.2.2 with hopen | hold
      · exact ⟨st, List.mem_cons_self, hopen⟩
      · obtain ⟨sent, hmem, hopen⟩ := ih hold
        exact ⟨sent, List.mem_cons_of_mem _ hmem, hopen⟩

theorem AcceptedSince.quiet (h : AcceptedSince older) {st : ChannelStep β}
    (hcloses : ¬ st.label.Closes) (hsends : ¬ SendsOpen st) :
    AcceptedSince (st :: older) :=
  ⟨hcloses, .inr ⟨hsends, h⟩⟩

theorem isOpen_iff (ch : ServerSidePlayerChannel) :
    ch.isOpen = true ↔ ch.state = .CHANNEL_OPEN := by
  rw [isOpen, decide_eq_true_eq]

theorem receiveMessageFromSouth_accepted {ch : ServerSidePlayerChannel} {msg : β}
    (h : isCommand "OpenChannelAccepted" msg = true) :
    ch.receiveMessageFromSouth msg = ({ ch with state := .CHANNEL_OPEN }, []) := by
  unfold isCommand at h
  unfold receiveMessageFromSouth
  cases hjson : QByteArray.fromJson msg with
  | none => simp [hjson] at h
  | some json =>
      rw [hjson] at h
      have hother : JsonObject.isCommand json "CloseChannel" = false :=
        JsonObject.isCommand_other h (by decide)
      simp only [processJsonMessage, h, hother, Bool.false_eq_true, if_false, if_true]

/-- A message that accepts: what is asked of it, and when it is fine. -/
theorem accepted_iff {msg : β} (haccept : isCommand "OpenChannelAccepted" msg = true)
    (hopen : s.isOpen = true → AcceptedSince older) :
    Orderly older ⟨s, .messageFromSouth msg, [], { s with state := .CHANNEL_OPEN }⟩ ↔
      Expected older ⟨s, .messageFromSouth msg, [], { s with state := .CHANNEL_OPEN }⟩ := by
  have haccepts : (PlayerChannelEvent.messageFromSouth msg).Accepts := haccept
  have hcloses : ¬ (PlayerChannelEvent.messageFromSouth msg).Closes :=
    fun hcloses => hcloses.not_accepts haccepts
  constructor
  · intro horderly
    refine ⟨fun _ => ?_, ?_⟩
    · by_cases hprogress : OpeningInProgress older
      · exact .inl hprogress
      · have hsame := (horderly.late_accepted haccepts hprogress).1
        exact .inr (congrArg state hsame).symm
    · rintro _ ⟨⟩ hclose
      exact absurd hclose hcloses
  · intro hexpected
    have hfine := hexpected.accepted haccepts
    refine ⟨fun _ => ⟨hcloses, .inl ⟨haccepts, ?_⟩⟩, fun _ hlate => ?_, ?_⟩
    · rcases hfine with hprogress | hstate
      · exact hprogress.sent
      · exact (hopen ((isOpen_iff s).mpr hstate)).sent
    · have hstate : s.state = .CHANNEL_OPEN := hfine.resolve_left hlate
      exact ⟨by rw [← hstate], rfl⟩
    · rintro - partner msg' hmsg
      cases hmsg

theorem receiveMessageFromSouth_out (ch : ServerSidePlayerChannel) (msg : β) :
    ∀ partner text,
      .channelSendMessageToSouth partner text ∉ (ch.receiveMessageFromSouth msg).2 := by
  intro partner text
  unfold receiveMessageFromSouth
  cases QByteArray.fromJson msg with
  | none => simp
  | some json =>
      simp only [processJsonMessage]
      split
      · simp
      split
      · simp
      split
      · split
        · split
          · simp
          · simp
        · simp
      · simp

theorem receivePlayerMessageFromNorth_out {ch : ServerSidePlayerChannel} {msg text : β}
    {partner : Int}
    (h : .channelSendMessageToSouth partner text ∈ ch.receivePlayerMessageFromNorth msg) :
    ch.isOpen = true := by
  unfold receivePlayerMessageFromNorth at h
  split at h
  · simp at h
  · unfold sendMessageToSouth at h
    split at h
    · split at h
      · assumption
      · cases h
    · cases h

theorem orderly_quiet (hopen : s.isOpen = true → AcceptedSince older)
    (hcloses : ¬ l.Closes) (haccepts : ¬ l.Accepts)
    (hsends : ¬ SendsOpen (⟨s, l, out, s'⟩ : ChannelStep β)) (hstate : s'.state = s.state)
    (hsent : l ≠ .open' → ∀ partner msg,
      .channelSendMessageToSouth partner msg ∈ out → s.isOpen = true) :
    Orderly older ⟨s, l, out, s'⟩ := by
  refine ⟨fun hopen' => ?_, fun h => absurd h haccepts, hsent⟩
  rw [isOpen_iff, hstate, ← isOpen_iff] at hopen'
  exact (hopen hopen').quiet hcloses hsends

theorem orderly_closed (haccepts : ¬ l.Accepts) (hclosed : s'.state ≠ .CHANNEL_OPEN)
    (hsent : l ≠ .open' → out = []) : Orderly older ⟨s, l, out, s'⟩ := by
  refine ⟨fun hopen' => ?_, fun h => absurd h haccepts, fun hl partner msg hmsg => ?_⟩
  · exact absurd ((isOpen_iff s').mp hopen') hclosed
  · rw [hsent hl] at hmsg
    cases hmsg

theorem expected_quiet (haccepts : ¬ l.Accepts) (hcloses : ¬ l.Closes) :
    Expected older ⟨s, l, out, s'⟩ := by
  refine ⟨fun h => absurd h haccepts, ?_⟩
  rintro msg rfl hclose
  exact absurd hclose hcloses

/-- Of the other messages, `CloseChannel` must not find the channel open. -/
theorem notAccepted_iff {msg : β} (haccept : isCommand "OpenChannelAccepted" msg = false)
    (hopen : s.isOpen = true → AcceptedSince older) :
    Orderly older ⟨s, .messageFromSouth msg, (s.receiveMessageFromSouth msg).2,
        (s.receiveMessageFromSouth msg).1⟩ ↔
      Expected older ⟨s, .messageFromSouth msg, (s.receiveMessageFromSouth msg).2,
        (s.receiveMessageFromSouth msg).1⟩ := by
  have haccepts : ¬ (PlayerChannelEvent.messageFromSouth msg).Accepts := by
    simp [PlayerChannelEvent.Accepts, haccept]
  have hstate := receiveMessageFromSouth_state s msg
  rw [haccept, if_neg Bool.false_ne_true] at hstate
  cases hclose : isCommand "CloseChannel" msg with
  | true =>
      have hcloses : (PlayerChannelEvent.messageFromSouth msg).Closes := hclose
      constructor
      · refine fun horderly => ⟨fun h => absurd h haccepts, ?_⟩
        rintro _ ⟨⟩ - hopened
        have hpost := horderly.open_accepted ((isOpen_iff _).mpr (hstate.trans hopened))
        exact hpost.1 hcloses
      · intro hexpected
        have hnotOpen := hexpected.closed msg rfl hclose
        rw [← hstate] at hnotOpen
        refine ⟨fun h => absurd ((isOpen_iff _).mp h) hnotOpen,
          fun h => absurd h haccepts, fun _ partner text hmsg => ?_⟩
        exact absurd hmsg (receiveMessageFromSouth_out s msg partner text)
  | false =>
      have hcloses : ¬ (PlayerChannelEvent.messageFromSouth msg).Closes := by
        simp [PlayerChannelEvent.Closes, hclose]
      refine iff_of_true ?_ (expected_quiet haccepts hcloses)
      refine orderly_quiet hopen hcloses haccepts ?_ hstate ?_
      · rintro ⟨⟨⟩, -⟩
      · intro _ partner text hmsg
        exact absurd hmsg (receiveMessageFromSouth_out s msg partner text)

theorem orderly_iff_expected (hopen : s.isOpen = true → AcceptedSince older)
    (hstep : s.step l = .ok (s', out)) :
    Orderly older ⟨s, l, out, s'⟩ ↔ Expected older ⟨s, l, out, s'⟩ := by
  cases l with
  | open' =>
      have haccepts : ¬ (PlayerChannelEvent.open' : PlayerChannelEvent β).Accepts := fun h => h
      have hcloses : ¬ (PlayerChannelEvent.open' : PlayerChannelEvent β).Closes := fun h => h
      refine iff_of_true ?_ (expected_quiet haccepts hcloses)
      simp only [step, Except.ok.injEq, ServerSidePlayerChannel.open'] at hstep
      split at hstep
      · cases hstep
        refine orderly_quiet hopen hcloses haccepts ?_ rfl fun hl => absurd rfl hl
        rintro ⟨-, hout⟩
        exact hout rfl
      · cases hstep
        exact orderly_closed haccepts nofun fun hl => absurd rfl hl
  | close =>
      cases hstep
      refine iff_of_true (orderly_closed (fun h => h) nofun fun _ => rfl) ?_
      exact ⟨fun h => h.elim, by rintro _ ⟨⟩⟩
  | messageFromNorth msg =>
      cases hstep
      refine iff_of_true ?_ (expected_quiet (fun h => h) fun h => h)
      refine orderly_quiet hopen (fun h => h) (fun h => h) ?_ rfl ?_
      · rintro ⟨⟨⟩, -⟩
      · intro _ partner text hmsg
        exact receivePlayerMessageFromNorth_out hmsg
  | messageFromSouth msg =>
      cases haccept : isCommand "OpenChannelAccepted" msg with
      | true =>
          rw [step, receiveMessageFromSouth_accepted haccept] at hstep
          cases hstep
          exact accepted_iff haccept hopen
      | false =>
          have hresult : s.receiveMessageFromSouth msg = (s', out) := Except.ok.inj hstep
          obtain rfl : (s.receiveMessageFromSouth msg).1 = s' := congrArg Prod.fst hresult
          obtain rfl : (s.receiveMessageFromSouth msg).2 = out := congrArg Prod.snd hresult
          exact notAccepted_iff haccept hopen

/-- The state machine works exactly in the runs that ask nothing unexpected of it. -/
theorem stateMachine_iff (channelId : Int) (playerMeta : PlayerMeta)
    (uninitialised : PlayerChannelState) (southPartner northPartner : Option Int)
    {history : List (ChannelStep β)} {s : ServerSidePlayerChannel}
    (h : Execution (machine β (construct channelId playerMeta uninitialised southPartner
      northPartner)) history s) :
    ((construct channelId playerMeta uninitialised southPartner northPartner).isOpen = false ∧
        Execution.EachStep Orderly history) ↔
      uninitialised ≠ .CHANNEL_OPEN ∧ Execution.EachStep Expected history := by
  have hstart : (construct channelId playerMeta uninitialised southPartner
      northPartner).isOpen = false ↔ uninitialised ≠ .CHANNEL_OPEN := by
    rw [← Bool.not_eq_true, isOpen_iff]
    exact Iff.rfl
  rw [hstart]
  refine and_congr_right fun hclosed => ?_
  refine h.eachStep_iff_of_invariant (I := fun older s => s.isOpen = true → AcceptedSince older)
    ?_ orderly_iff_expected fun _ _ horderly => horderly.open_accepted
  intro hopen
  exact absurd ((isOpen_iff _).mp hopen) hclosed

end

def command (name : String) : Text := .document [("command", .string name)]

def somePlayer : PlayerMeta := ⟨7, "Ann"⟩

def closedByApplication : List (PlayerChannelEvent Text) :=
  [.open', .messageFromSouth (command "OpenChannelAccepted"),
    .messageFromSouth (command "CloseChannel")]

theorem closedByApplication_open :
    ∃ history s, (machine Text (construct 1 somePlayer .CHANNEL_CLOSED (some 1) none)).run
        closedByApplication = .ok (history, s) ∧
      ¬ ((construct 1 somePlayer .CHANNEL_CLOSED (some 1) none).isOpen = false ∧
        Execution.EachStep Orderly history) := by
  refine ⟨_, _, rfl, ?_⟩
  rintro ⟨-, hclosing, -⟩
  have haccepted := hclosing.open_accepted rfl
  exact haccepted.1 rfl

def closedByServer : List (PlayerChannelEvent Text) :=
  [.open', .messageFromSouth (command "OpenChannelAccepted"), .close,
    .messageFromSouth (command "CloseChannel")]

theorem stateMachine_iff_closedByServer :
    ∃ history s, (machine Text (construct 1 somePlayer .CHANNEL_CLOSED (some 1) none)).run
        closedByServer = .ok (history, s) ∧
      (construct 1 somePlayer .CHANNEL_CLOSED (some 1) none).isOpen = false ∧
      Execution.EachStep Orderly history := by
  refine ⟨_, _, rfl, (stateMachine_iff 1 somePlayer .CHANNEL_CLOSED (some 1) none
    (Machine.run_execution (show (machine Text (construct 1 somePlayer .CHANNEL_CLOSED (some 1)
      none)).run closedByServer = .ok (_, _) from rfl))).mpr ⟨nofun, ?_⟩⟩
  have hcloses : (.messageFromSouth (command "CloseChannel") :
      PlayerChannelEvent Text).Closes := rfl
  refine ⟨⟨fun h => absurd h hcloses.not_accepts, fun _ _ _ => nofun⟩,
    ⟨fun h => h.elim, fun _ => nofun⟩, ⟨fun _ => .inl ?_, fun _ _ _ => nofun⟩,
    ⟨fun h => h.elim, fun _ => nofun⟩, trivial⟩
  exact ⟨fun h => h, fun h => h, .inl ⟨rfl, nofun⟩⟩

end ServerSidePlayerChannel

end GBerry.Server
