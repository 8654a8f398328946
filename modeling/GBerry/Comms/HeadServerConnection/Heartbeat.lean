import GBerry.Comms.HeadServerConnection
import Mathlib.Algebra.GroupWithZero.Nat

/-!
# The heartbeat

One ping or one timer keeps the connection alive.  The requests that are made
without a connection start pings of their own, and a request that succeeds is
taken for a ping that finished, so that a second heartbeat starts when that
happens beside the first.
-/

namespace GBerry.Comms.HeadServerConnection

open GBerry.Foundation

/-- At most one ping or timer, and the object waits for the ping that there is. -/
structure OneHeartbeat (c : HeadServerConnection) : Prop where
  one : c.pings + c.timers ≤ 1
  waits : c.pingState = .SENT_AND_WAITING ↔ 0 < c.pings

theorem OneHeartbeat.idle {c : HeadServerConnection} (hc : c.OneHeartbeat)
    (hpings : c.pings = 0) : c.pingState = .IDLE_WAITING := by
  cases hstate : c.pingState with
  | IDLE_WAITING => rfl
  | SENT_AND_WAITING =>
      have hsent := hc.waits.mp hstate
      omega

def returned (obtains : Nat → Bool) (asked : Nat) : Nat → Nat
  | 0 => 0
  | n + 1 => (if obtains asked then 1 else 0) + returned obtains (asked + 1) n

theorem returned_add (obtains : Nat → Bool) (asked n m : Nat) :
    returned obtains asked (n + m) =
      returned obtains asked n + returned obtains (asked + n) m := by
  induction n generalizing asked with
  | zero => simp [returned]
  | succ n ih =>
      rw [Nat.succ_add, returned, ih, returned]
      have hasked : asked + 1 + n = asked + (n + 1) := by omega
      rw [hasked]
      omega

variable {obtains : Nat → Bool}

section Requests

structure Retried (obtains : Nat → Bool) (n : Nat) (c c' : HeadServerConnection) :
    Prop where
  connectionState : c'.connectionState = c.connectionState
  timers : c'.timers = c.timers
  asked : c'.asked = c.asked + n
  pings : c'.pings = c.pings + returned obtains c.asked n
  waits : c'.pingState = .SENT_AND_WAITING ↔
    c.pingState = .SENT_AND_WAITING ∨ 0 < returned obtains c.asked n
  requestQueue : c'.requestQueue = [] ↔ c.requestQueue = [] ∧ n = 0

theorem Retried.refl (c : HeadServerConnection) : Retried obtains 0 c c where
  connectionState := rfl
  timers := rfl
  asked := rfl
  pings := rfl
  waits := by simp [returned]
  requestQueue := by simp

theorem Retried.trans {n m : Nat} {c c' c'' : HeadServerConnection}
    (h : Retried obtains n c c') (h' : Retried obtains m c' c'') :
    Retried obtains (n + m) c c'' := by
  have hpings := h'.pings
  have hwaits := h'.waits
  rw [h.asked] at hpings hwaits
  constructor
  · rw [h'.connectionState, h.connectionState]
  · rw [h'.timers, h.timers]
  · rw [h'.asked, h.asked]
    omega
  · rw [hpings, h.pings, returned_add]
    omega
  · rw [hwaits, h.waits, returned_add, Nat.add_pos_iff_pos_or_pos, or_assoc]
  · rw [h'.requestQueue, h.requestQueue, Nat.add_eq_zero_iff, and_assoc]

theorem makeRequest_retried {c : HeadServerConnection}
    (hc : c.connectionState = .NOT_CONNECTED) :
    Retried obtains 1 c (makeRequest obtains c).1 := by
  unfold makeRequest ping
  rw [if_pos hc]
  split
  · rename_i hobtains
    have hobtains : obtains c.asked = true := hobtains
    constructor <;> simp [enqueue, returned, hobtains]
  · rename_i hobtains
    have hobtains : obtains c.asked = false := by simpa [enqueue] using hobtains
    constructor <;> simp [enqueue, returned, hobtains]

theorem times_makeRequest_retried {c : HeadServerConnection}
    (hc : c.connectionState = .NOT_CONNECTED) (n : Nat) :
    Retried obtains n c ((makeRequest obtains).times n c).1 := by
  induction n generalizing c with
  | zero => exact .refl c
  | succ n ih =>
      have hfirst : Retried obtains 1 c (makeRequest obtains c).1 := makeRequest_retried hc
      have hothers := ih (hfirst.connectionState.trans hc)
      have hall := hfirst.trans hothers
      rw [Nat.add_comm] at hall
      exact hall

theorem react_retried {c : HeadServerConnection} (hc : c.connectionState = .NOT_CONNECTED)
    (signal : ConnectionSignal) (n : Nat) :
    Retried obtains n c (react obtains signal n c).1 :=
  times_makeRequest_retried hc n

structure Queued (n : Nat) (c c' : HeadServerConnection) : Prop where
  connectionState : c'.connectionState = c.connectionState
  timers : c'.timers = c.timers
  pings : c'.pings = c.pings
  pingState : c'.pingState = c.pingState
  asked : c'.asked = c.asked + if c.pingState = .SENT_AND_WAITING then 0 else n
  requestQueue : c.pingState = .IDLE_WAITING →
    (c'.requestQueue = [] ↔ c.requestQueue = [])

theorem makeRequest_queued {c : HeadServerConnection}
    (hc : c.connectionState = .CONNECTED) : Queued 1 c (makeRequest obtains c).1 := by
  unfold makeRequest doMainStateLoop
  rw [if_neg (by simp [hc])]
  split
  · rename_i hsent
    have hsent : c.pingState = .SENT_AND_WAITING := hsent
    constructor <;> simp [enqueue, hsent]
  · rename_i hidle
    have hidle : c.pingState ≠ .SENT_AND_WAITING := hidle
    split
    · rename_i request rest _ hqueue
      simp only [enqueue] at hqueue
      have hempty : rest = [] ↔ c.requestQueue = [] := by
        cases hold : c.requestQueue with
        | nil => simp_all
        | cons first others =>
            rw [hold, List.cons_append, List.cons.injEq] at hqueue
            rw [← hqueue.2]
            simp
      unfold executeRequest
      split
      · constructor <;> simp [enqueue, hidle, hempty]
      · constructor <;> simp [enqueue, hidle, hempty]
    · rename_i hother
      have hqueue : c.enqueue.requestQueue ≠ [] := by simp [enqueue]
      obtain ⟨request, rest, hqueue⟩ := List.exists_cons_of_ne_nil hqueue
      exact absurd hqueue (hother request rest hc)

theorem times_makeRequest_queued (obtains : Nat → Bool) {c : HeadServerConnection}
    (hc : c.connectionState = .CONNECTED) (n : Nat) :
    Queued n c ((makeRequest obtains).times n c).1 := by
  induction n generalizing c with
  | zero => constructor <;> simp [Action.times]
  | succ n ih =>
      have hfirst : Queued 1 c (makeRequest obtains c).1 := makeRequest_queued hc
      have hothers := ih (hfirst.connectionState.trans hc)
      constructor
      · exact hothers.connectionState.trans hfirst.connectionState
      · exact hothers.timers.trans hfirst.timers
      · exact hothers.pings.trans hfirst.pings
      · exact hothers.pingState.trans hfirst.pingState
      · have hasked := hothers.asked
        rw [hfirst.asked, hfirst.pingState] at hasked
        rw [Action.times, Action.andThen_fst, hasked]
        split <;> omega
      · intro hidle
        rw [Action.times, Action.andThen_fst,
          hothers.requestQueue (hfirst.pingState.trans hidle)]
        exact hfirst.requestQueue hidle

theorem react_queued (obtains : Nat → Bool) {c : HeadServerConnection}
    (hc : c.connectionState = .CONNECTED) (signal : ConnectionSignal) (n : Nat) :
    Queued n c (react obtains signal n c).1 :=
  times_makeRequest_queued obtains hc n

end Requests

section Events

def startedBy (obtains : Nat → Bool) (c : HeadServerConnection) (n : Nat) : Nat :=
  match c.connectionState with
  | .NOT_CONNECTED => returned obtains c.asked n
  | .CONNECTED => 0

def askedAfter (c : HeadServerConnection) (n : Nat) : Nat :=
  match c.connectionState, c.pingState with
  | .CONNECTED, .SENT_AND_WAITING => c.asked
  | _, _ => c.asked + n

def madeOnLoss (c : HeadServerConnection) (reactions : Reactions) : Nat :=
  (c.requestQueue.map reactions.finished).sum +
    match c.connectionState with
    | .NOT_CONNECTED => 0
    | .CONNECTED => reactions.disconnected

def KeepsHeartbeat (obtains : Nat → Bool) (c : HeadServerConnection) :
    ConnectionEvent → Prop
  | .makeRequest => c.pings + c.timers + startedBy obtains c 1 ≤ 1
  | .pingFinishedError reactions =>
      0 < c.pings → returned obtains c.asked (madeOnLoss c reactions) ≤ 1
  | .requestFinishedOK request reactions =>
      request ∈ c.invocations →
        c.pings = 0 ∧ startedBy obtains c (reactions.finished request) = 0 ∧
          (c.timers = 0 ∨ c.requestQueue ≠ [] ∨
            c.connectionState = .NOT_CONNECTED ∧ 0 < reactions.finished request)
  | .requestFinishedError request statusCode reactions =>
      request ∈ c.invocations →
        c.pings + c.timers + startedBy obtains c (reactions.finished request) +
          (if losesConnection statusCode &&
            obtains (askedAfter c (reactions.finished request)) then 1 else 0) ≤ 1
  | _ => True

structure Reacted (obtains : Nat → Bool) (n : Nat) (c c' : HeadServerConnection) :
    Prop where
  timers : c'.timers = c.timers
  pings : c'.pings = c.pings + startedBy obtains c n
  asked : c'.asked = askedAfter c n
  waits : c'.pingState = .SENT_AND_WAITING ↔
    c.pingState = .SENT_AND_WAITING ∨ 0 < startedBy obtains c n
  requestQueue : c.pingState = .IDLE_WAITING →
    (c'.requestQueue = [] ↔
      c.requestQueue = [] ∧ ¬ (c.connectionState = .NOT_CONNECTED ∧ 0 < n))

theorem times_makeRequest_reacted (c : HeadServerConnection) (n : Nat) :
    Reacted obtains n c ((makeRequest obtains).times n c).1 := by
  cases hc : c.connectionState with
  | NOT_CONNECTED =>
      have h : Retried obtains n c _ := times_makeRequest_retried hc n
      have hstarted : startedBy obtains c n = returned obtains c.asked n := by
        simp only [startedBy, hc]
      constructor
      · exact h.timers
      · rw [h.pings, hstarted]
      · rw [h.asked]
        simp only [askedAfter, hc]
      · rw [h.waits, hstarted]
      · intro _
        rw [h.requestQueue]
        simp [hc]
  | CONNECTED =>
      have h := times_makeRequest_queued obtains hc n
      have hstarted : startedBy obtains c n = 0 := by
        simp only [startedBy, hc]
      constructor
      · exact h.timers
      · rw [h.pings, hstarted, Nat.add_zero]
      · rw [h.asked]
        cases hping : c.pingState with
        | IDLE_WAITING => simp only [askedAfter, hc, hping]; rfl
        | SENT_AND_WAITING => simp only [askedAfter, hc, hping]; rfl
      · rw [h.pingState, hstarted]
        simp
      · intro hidle
        rw [h.requestQueue hidle]
        simp [hc]

theorem doMainStateLoop_idle (obtains : Nat → Bool) {c : HeadServerConnection}
    (hc : c.connectionState = .CONNECTED) (hidle : c.pingState = .IDLE_WAITING) :
    (doMainStateLoop obtains c).1.pings = c.pings ∧
      (doMainStateLoop obtains c).1.pingState = .IDLE_WAITING ∧
      (doMainStateLoop obtains c).1.timers =
        c.timers + if c.requestQueue = [] then 1 else 0 := by
  unfold doMainStateLoop
  rw [if_neg (by simp [hidle])]
  cases hqueue : c.requestQueue with
  | nil => simp [hc, hidle, singleshotTimer]
  | cons request rest =>
      simp only [hc, executeRequest]
      split <;> simp [hidle]

theorem doMainStateLoop_lost (obtains : Nat → Bool) {c : HeadServerConnection}
    (hc : c.connectionState = .NOT_CONNECTED) :
    (doMainStateLoop obtains c).1.pings = c.pings ∧
      (doMainStateLoop obtains c).1.pingState = c.pingState ∧
      (doMainStateLoop obtains c).1.timers =
        c.timers + if c.pingState = .SENT_AND_WAITING then 0 else 1 := by
  unfold doMainStateLoop
  split
  · simp
  · simp [hc, singleshotTimer]

theorem onPingReady_idle (obtains : Nat → Bool) (reactions : Reactions) (c : HeadServerConnection) :
    (onPingReady obtains reactions c).1.pings = c.pings ∧
      (onPingReady obtains reactions c).1.pingState = .IDLE_WAITING ∧
      (onPingReady obtains reactions c).1.timers =
        c.timers + if c.requestQueue = [] then 1 else 0 := by
  unfold onPingReady
  simp only
  split
  · have h := react_queued obtains
      (c := { c with connectionState := .CONNECTED, pingState := .IDLE_WAITING }) rfl
      .connected reactions.connected
    have hloop := doMainStateLoop_idle obtains h.connectionState h.pingState
    rw [Action.andThen_fst, hloop.1, hloop.2.1, hloop.2.2, h.pings, h.timers]
    refine ⟨rfl, rfl, ?_⟩
    simp only [h.requestQueue rfl]
  · exact doMainStateLoop_idle obtains rfl rfl

theorem failWaitingRequests_retried (obtains : Nat → Bool) {c : HeadServerConnection}
    (hc : c.connectionState = .NOT_CONNECTED) (reactions : Reactions) :
    Retried obtains (c.requestQueue.map reactions.finished).sum c
      (failWaitingRequests obtains reactions c).1 := by
  unfold failWaitingRequests
  generalize c.requestQueue = waiting
  induction waiting generalizing c with
  | nil => exact .refl c
  | cons request rest ih =>
      have hfirst : Retried obtains (reactions.finished request) c _ :=
        react_retried hc (.finishedError request .NO_CONNECTION) _
      have hothers := ih (hfirst.connectionState.trans hc)
      rw [List.map_cons, List.sum_cons]
      exact hfirst.trans hothers

theorem onPingError_lost (obtains : Nat → Bool) (reactions : Reactions) (c : HeadServerConnection) :
    (onPingError obtains reactions c).1.pings =
        c.pings + returned obtains c.asked (madeOnLoss c reactions) ∧
      ((onPingError obtains reactions c).1.pingState = .SENT_AND_WAITING ↔
        0 < returned obtains c.asked (madeOnLoss c reactions)) ∧
      (onPingError obtains reactions c).1.timers = c.timers +
        if 0 < returned obtains c.asked (madeOnLoss c reactions) then 0 else 1 := by
  have hfailed := failWaitingRequests_retried obtains
    (c := { c with connectionState := .NOT_CONNECTED, pingState := .IDLE_WAITING }) rfl
    reactions
  have hlost {n : Nat} {c' : HeadServerConnection} (hn : madeOnLoss c reactions = n)
      (h : Retried obtains n
        { c with connectionState := .NOT_CONNECTED, pingState := .IDLE_WAITING } c') :
      (doMainStateLoop obtains c').1.pings =
          c.pings + returned obtains c.asked (madeOnLoss c reactions) ∧
        ((doMainStateLoop obtains c').1.pingState = .SENT_AND_WAITING ↔
          0 < returned obtains c.asked (madeOnLoss c reactions)) ∧
        (doMainStateLoop obtains c').1.timers = c.timers +
          if 0 < returned obtains c.asked (madeOnLoss c reactions) then 0 else 1 := by
    have hloop := doMainStateLoop_lost obtains h.connectionState
    have hwaits := h.waits
    simp only [reduceCtorEq, false_or] at hwaits
    rw [hloop.1, hloop.2.1, hloop.2.2, h.pings, h.timers, hn]
    refine ⟨rfl, hwaits, ?_⟩
    simp only [hwaits]
  unfold onPingError
  simp only
  cases hc : c.connectionState with
  | CONNECTED =>
      rw [if_pos rfl]
      have hn : madeOnLoss c reactions =
          (c.requestQueue.map reactions.finished).sum + reactions.disconnected := by
        simp only [madeOnLoss, hc]
      exact hlost hn (hfailed.trans
        (react_retried hfailed.connectionState .disconnected reactions.disconnected))
  | NOT_CONNECTED =>
      have hn : madeOnLoss c reactions =
          (c.requestQueue.map reactions.finished).sum := by
        simp only [madeOnLoss, hc, Nat.add_zero]
      exact hlost hn hfailed

theorem OneHeartbeat.more_iff {c c' : HeadServerConnection} {k : Nat}
    (hc : c.OneHeartbeat) (htimers : c'.timers = c.timers) (hpings : c'.pings = c.pings + k)
    (hwaits : c'.pingState = .SENT_AND_WAITING ↔
      c.pingState = .SENT_AND_WAITING ∨ 0 < k) :
    c'.OneHeartbeat ↔ c.pings + c.timers + k ≤ 1 := by
  constructor
  · intro h
    have hone := h.one
    omega
  · intro h
    constructor
    · omega
    · rw [hwaits, hc.waits, hpings, Nat.add_pos_iff_pos_or_pos]

theorem requestFailed_oneHeartbeat {c : HeadServerConnection} (hc : c.OneHeartbeat)
    (request : Nat) (statusCode : InvocationStatus) (reactions : Reactions) :
    (requestFailed obtains request statusCode reactions c).1.OneHeartbeat ↔
      c.pings + c.timers + startedBy obtains c (reactions.finished request) +
        (if losesConnection statusCode &&
          obtains (askedAfter c (reactions.finished request)) then 1 else 0) ≤ 1 := by
  have h : Reacted obtains (reactions.finished request) c
      (react obtains (.finishedError request .INVOCATION_FAILED)
        (reactions.finished request) c).1 := times_makeRequest_reacted c _
  unfold requestFailed
  cases hloses : losesConnection statusCode with
  | false =>
      refine (hc.more_iff h.timers h.pings h.waits).trans ?_
      simp
  | true =>
      have hping : (ping obtains (react obtains (.finishedError request .INVOCATION_FAILED)
            (reactions.finished request) c).1).1.OneHeartbeat ↔
          c.pings + c.timers + (startedBy obtains c (reactions.finished request) +
            if obtains (askedAfter c (reactions.finished request)) then 1 else 0) ≤ 1 := by
        rw [← h.asked]
        unfold ping
        split
        · refine hc.more_iff h.timers ?_ ?_
          · simp only [h.pings]
            omega
          · simp
        · exact hc.more_iff h.timers h.pings h.waits
      rw [Bool.true_and, Nat.add_assoc (c.pings + c.timers)]
      exact hping

theorem requestReady_oneHeartbeat {c : HeadServerConnection} (hc : c.OneHeartbeat)
    (request : Nat) (reactions : Reactions) :
    (requestReady obtains request reactions c).1.OneHeartbeat ↔
      c.pings = 0 ∧ startedBy obtains c (reactions.finished request) = 0 ∧
        (c.timers = 0 ∨ c.requestQueue ≠ [] ∨
          c.connectionState = .NOT_CONNECTED ∧ 0 < reactions.finished request) := by
  have h : Reacted obtains (reactions.finished request) c
      (react obtains (.finishedOk request) (reactions.finished request) c).1 :=
    times_makeRequest_reacted c _
  obtain ⟨hpings, hping, htimers⟩ := onPingReady_idle obtains reactions
    (react obtains (.finishedOk request) (reactions.finished request) c).1
  rw [h.pings] at hpings
  rw [h.timers] at htimers
  have hone := hc.one
  constructor
  · intro hafter
    have hwaits := hafter.waits
    have hone' := hafter.one
    rw [requestReady, Action.andThen_fst] at hwaits hone'
    rw [hping, hpings] at hwaits
    simp only [reduceCtorEq, false_iff, Nat.not_lt, Nat.le_zero, Nat.add_eq_zero_iff]
      at hwaits
    refine ⟨hwaits.1, hwaits.2, ?_⟩
    have hidle : c.pingState = .IDLE_WAITING := hc.idle hwaits.1
    rw [hpings, htimers] at hone'
    by_contra hno
    rw [not_or, not_or, not_not] at hno
    rw [if_pos ((h.requestQueue hidle).mpr hno.2)] at hone'
    omega
  · rintro ⟨hnone, hstarted, hroom⟩
    have hidle : c.pingState = .IDLE_WAITING := hc.idle hnone
    constructor
    · rw [requestReady, Action.andThen_fst, hpings, htimers, hnone, hstarted]
      rcases hroom with hfree | hbusy
      · split <;> omega
      · rw [if_neg]
        · omega
        · rw [h.requestQueue hidle]
          tauto
    · rw [requestReady, Action.andThen_fst, hping, hpings]
      simp [hnone, hstarted]

theorem onPingReady_oneHeartbeat {c : HeadServerConnection} (hc : c.OneHeartbeat)
    (hpings : 0 < c.pings) (reactions : Reactions) :
    (onPingReady obtains reactions { c with pings := c.pings - 1 }).1.OneHeartbeat := by
  have hone := hc.one
  obtain ⟨hpings', hping, htimers⟩ := onPingReady_idle obtains reactions
    { c with pings := c.pings - 1 }
  simp only at hpings' htimers
  constructor
  · rw [hpings', htimers]
    split <;> omega
  · rw [hping, hpings']
    simp only [reduceCtorEq, false_iff]
    omega

theorem onPingError_oneHeartbeat {c : HeadServerConnection} (hc : c.OneHeartbeat)
    (hpings : 0 < c.pings) (reactions : Reactions) :
    (onPingError obtains reactions { c with pings := c.pings - 1 }).1.OneHeartbeat ↔
      returned obtains c.asked (madeOnLoss c reactions) ≤ 1 := by
  have hone := hc.one
  obtain ⟨hpings', hping, htimers⟩ := onPingError_lost obtains reactions
    { c with pings := c.pings - 1 }
  have hmade : madeOnLoss { c with pings := c.pings - 1 } reactions =
      madeOnLoss c reactions := rfl
  simp only [hmade] at hpings' hping htimers
  constructor
  · intro h
    have hone' := h.one
    rw [hpings', htimers] at hone'
    split at hone' <;> omega
  · intro h
    constructor
    · rw [hpings', htimers]
      split <;> omega
    · rw [hping, hpings']
      omega

theorem pingIntervalCheck_oneHeartbeat {c : HeadServerConnection} (hc : c.OneHeartbeat)
    (htimers : 0 < c.timers) :
    (pingIntervalCheck obtains { c with timers := c.timers - 1 }).1.OneHeartbeat := by
  have hone := hc.one
  have hnone : c.pings = 0 := by omega
  have hidle : c.pingState = .IDLE_WAITING := hc.idle hnone
  unfold pingIntervalCheck ping
  simp only [hidle, reduceCtorEq, if_false]
  split
  · constructor
    · simp only
      omega
    · simp
  · constructor
    · simp only
      omega
    · simp [hnone]

theorem handle_oneHeartbeat {c : HeadServerConnection} (hc : c.OneHeartbeat)
    (event : ConnectionEvent) :
    (handle obtains event c).1.OneHeartbeat ↔ KeepsHeartbeat obtains c event := by
  cases event with
  | makeRequest =>
      have h : Reacted obtains 1 c (makeRequest obtains c).1 :=
        times_makeRequest_reacted c 1
      exact hc.more_iff h.timers h.pings h.waits
  | pingFinishedOK reactions =>
      refine iff_of_true ?_ trivial
      simp only [handle]
      split
      · exact hc
      · rename_i hsome
        exact onPingReady_oneHeartbeat hc (by omega) reactions
  | pingFinishedError reactions =>
      simp only [handle, KeepsHeartbeat]
      split
      · rename_i hnone
        exact iff_of_true hc fun hsome => by omega
      · rename_i hsome
        rw [onPingError_oneHeartbeat hc (by omega)]
        exact ⟨fun h _ => h, fun h => h (by omega)⟩
  | timeout =>
      refine iff_of_true ?_ trivial
      simp only [handle]
      split
      · exact hc
      · rename_i hsome
        exact pingIntervalCheck_oneHeartbeat hc (by omega)
  | requestFinishedOK request reactions =>
      simp only [handle, KeepsHeartbeat]
      split
      · rename_i hmem
        have herased : OneHeartbeat
            { c with invocations := c.invocations.erase request } := ⟨hc.one, hc.waits⟩
        rw [requestReady_oneHeartbeat herased]
        exact ⟨fun h _ => h, fun h => h hmem⟩
      · rename_i hmem
        exact iff_of_true hc fun h => absurd h hmem
  | requestFinishedError request statusCode reactions =>
      simp only [handle, KeepsHeartbeat]
      split
      · rename_i hmem
        have herased : OneHeartbeat
            { c with invocations := c.invocations.erase request } := ⟨hc.one, hc.waits⟩
        rw [requestFailed_oneHeartbeat herased]
        exact ⟨fun h _ => h, fun h => h hmem⟩
      · rename_i hmem
        exact iff_of_true hc fun h => absurd h hmem

end Events

theorem oneHeartbeat_opened (obtains : Nat → Bool) : (opened obtains).OneHeartbeat := by
  unfold opened ping
  split
  · exact ⟨by simp [start], by simp [start]⟩
  · exact ⟨by simp [start], by simp [start]⟩

variable {history : List (Step HeadServerConnection ConnectionEvent ConnectionSignal)}
  {c : HeadServerConnection}

/-- There is one heartbeat throughout a run exactly when no step starts a second. -/
theorem oneHeartbeat_iff_keeps (h : Execution (openedMachine obtains) history c) :
    Execution.Always (openedMachine obtains) (fun _ c => c.OneHeartbeat) history ↔
      ∀ st ∈ history, KeepsHeartbeat obtains st.pre st.label := by
  refine h.always_iff (C := fun st => KeepsHeartbeat obtains st.pre st.label)
    (oneHeartbeat_opened obtains) ?_
  intro history c c' event out _ hc hstep
  obtain ⟨rfl, -⟩ := Action.machine_step hstep
  exact handle_oneHeartbeat hc event

/-- A timer fires, and a request is made when its ping fails. -/
def retriesOnLoss : List ConnectionEvent :=
  [.pingFinishedOK ⟨0, 0, fun _ => 0⟩, .timeout, .pingFinishedError ⟨0, 1, fun _ => 0⟩]

theorem oneHeartbeat_retriesOnLoss :
    let run := Action.trace (opened fun _ => true) (handle fun _ => true) retriesOnLoss
    Execution.Always (openedMachine fun _ => true) (fun _ c => c.OneHeartbeat) run.1 := by
  refine (oneHeartbeat_iff_keeps (Action.trace_execution
    (opened fun _ => true) (handle fun _ => true) retriesOnLoss)).mpr ?_
  intro st hst
  simp only [Action.trace, retriesOnLoss, Action.traceFrom, List.mem_cons,
    List.not_mem_nil, or_false] at hst
  rcases hst with rfl | rfl | rfl
  · intro _
    decide
  · trivial
  · trivial

def repliesWithTimer : List ConnectionEvent :=
  [.pingFinishedOK ⟨0, 0, fun _ => 0⟩, .makeRequest,
    .requestFinishedOK 0 ⟨0, 0, fun _ => 0⟩]

theorem repliesWithTimer_twice :
    ∃ history c, Execution (openedMachine fun _ => true) history c ∧ c.timers = 2 ∧
      ¬ c.OneHeartbeat := by
  refine ⟨_, _, Action.trace_execution
    (opened fun _ => true) (handle fun _ => true) repliesWithTimer, rfl, ?_⟩
  intro h
  exact absurd h.one (by decide)

end GBerry.Comms.HeadServerConnection
