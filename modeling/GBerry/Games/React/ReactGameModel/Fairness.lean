import GBerry.Games.React.ReactGameModel

/-!
# Fair games

A message throws, leaves the game alone, or lengthens one queue by the number that is
next in it, so that the queues stay prefixes of the numbers whoever sends it.  Whose
queue that is depends on the index that is found for the sender.
-/

namespace GBerry.Games.React

open GBerry.Foundation

namespace ReactGameModel

section Indexes

variable {indexes : Int → Option Nat} {playerIds : List Int} {pid : Int} {p : Nat}

theorem indexPlayers_of_not_mem (h : pid ∉ playerIds) :
    indexPlayers indexes p playerIds pid = indexes pid := by
  induction playerIds generalizing indexes p with
  | nil => rfl
  | cons first rest ih =>
      obtain ⟨hne, hrest⟩ : pid ≠ first ∧ pid ∉ rest := by simpa using h
      rw [indexPlayers, ih hrest, Function.update_of_ne hne]

theorem indexPlayers_of_mem (h : pid ∈ playerIds) :
    ∃ i, indexPlayers indexes p playerIds pid = some (p + i) ∧ playerIds[i]? = some pid := by
  induction playerIds generalizing indexes p with
  | nil => cases h
  | cons first rest ih =>
      by_cases hrest : pid ∈ rest
      · obtain ⟨i, hi, hget⟩ := @ih (Function.update indexes first (some p)) (p + 1) hrest
        refine ⟨i + 1, ?_, hget⟩
        rw [indexPlayers, hi, Nat.add_assoc, Nat.add_comm 1 i]
      · rcases List.mem_cons.mp h with rfl | hmem
        · refine ⟨0, ?_, rfl⟩
          rw [indexPlayers, indexPlayers_of_not_mem hrest, Function.update_self, Nat.add_zero]
        · exact absurd hmem hrest

end Indexes

section Steps

variable {older : History} {m m' : ReactGameModel} {pid : Int} {js : JsValue}
  {st : Step ReactGameModel ReactEvent ReactOutput}

structure Sound (history : History) (m : ReactGameModel) : Prop where
  length : m.playersNumberQueue.length = m.playersIDs.length
  indexes : ∀ pid ∈ m.playersIDs, ∃ i, m.playerIndexes pid = some i ∧
    m.playersIDs[i]? = some pid
  queues : ∀ queue ∈ m.playersNumberQueue, queue <+: m.numbers
  unfinished : m.gameState = .COUNTDOWN ∨ m.gameState = .STARTED →
    ∀ queue ∈ m.playersNumberQueue, queue.length < m.numbers.length
  once : (wins history).length ≤ 1
  unwon : m.gameState ≠ .ENDED → wins history = []

theorem wins_other (h : initializes st = false) :
    wins (st :: older) = wins older ++ st.out.filter isWon := by
  rw [wins, since_cons_unmarked h, List.filter_append]
  rfl

inductive Received (m : ReactGameModel) (pid : Int) (js : JsValue) :
    List ReactOutput → ReactGameModel → Prop
  | threw (e : JsError) : m.gameState = .STARTED → ¬ Expected m pid js →
      Received m pid js [.threw e] m
  | ignored : (m.gameState = .STARTED → Expected m pid js) → Received m pid js [] m
  | incorrect : Expected m pid js → Received m pid js
      [.sendPlayerMessage pid (.customAppBoxMsg "InvalidNumberFeedback"),
        .playerInvalidNumber pid] m
  | correct {i : Nat} {queue : List Int} {n : Int} : m.gameState = .STARTED →
      m.playerIndexes pid = some i → m.playersNumberQueue[i]? = some queue →
      m.numbers[queue.length]? = some n → (Expected m pid js ↔ pid ∈ m.playersIDs) →
      Received m pid js (correctNumber pid i queue n m).2 (correctNumber pid i queue n m).1

theorem Sound.reference (h : Sound older m) (hstarted : m.gameState = .STARTED) {i : Nat}
    {queue : List Int} (hqueue : m.playersNumberQueue[i]? = some queue) :
    ∃ n, m.numbers[queue.length]? = some n :=
  ⟨_, List.getElem?_eq_getElem
    (h.unfinished (.inr hstarted) queue (List.mem_of_getElem? hqueue))⟩

theorem Sound.found (h : Sound older m) (hpid : pid ∈ m.playersIDs) :
    ∃ i queue, m.playerIndexes pid = some i ∧ m.playersIDs[i]? = some pid ∧
      m.playersNumberQueue[i]? = some queue := by
  obtain ⟨i, hindex, hget⟩ := h.indexes pid hpid
  obtain ⟨hlt, -⟩ := List.getElem?_eq_some_iff.mp hget
  rw [← h.length] at hlt
  exact ⟨i, m.playersNumberQueue[i], hindex, hget, List.getElem?_eq_getElem hlt⟩

theorem expected_of_read {text : String} (hnumber : js.hasOwnProperty "number" = .ok true)
    (htext : (js.get "number").text = .ok text) :
    Expected m pid js ↔ pid ∈ m.playersIDs ∨ ∃ i ∈ m.playerIndexes pid,
      ∃ queue ∈ m.playersNumberQueue[i]?,
        JsValue.parseInt text ≠ m.numbers[queue.length]? := by
  unfold Expected
  rw [hnumber, htext]
  simp

theorem Sound.not_expected (h : Sound older m) {text : String}
    (hnumber : js.hasOwnProperty "number" = .ok true)
    (htext : (js.get "number").text = .ok text)
    (hnone : ∀ i ∈ m.playerIndexes pid, m.playersNumberQueue[i]? = none) :
    ¬ Expected m pid js := by
  rw [expected_of_read hnumber htext]
  rintro (hpid | ⟨i, hi, queue, hqueue, -⟩)
  · obtain ⟨i, queue, hi, -, hqueue⟩ := h.found hpid
    rw [hnone i hi] at hqueue
    cases hqueue
  · rw [hnone i hi] at hqueue
    cases hqueue

theorem numberPressed_received (h : Sound older m) (hstarted : m.gameState = .STARTED)
    {text : String} (hnumber : js.hasOwnProperty "number" = .ok true)
    (htext : (js.get "number").text = .ok text) :
    Received m pid js
      (Fallible.uncaught .threw (numberPressed pid (JsValue.parseInt text)) m).2
      (Fallible.uncaught .threw (numberPressed pid (JsValue.parseInt text)) m).1 := by
  have hexpected := @expected_of_read m pid js text hnumber htext
  cases hindex : m.playerIndexes pid with
  | none =>
      have hthrows : numberPressed pid (JsValue.parseInt text) m = .error .typeError := by
        simp only [numberPressed, hindex, Option.bind_none]
      rw [Fallible.uncaught_error hthrows]
      refine .threw _ hstarted (h.not_expected hnumber htext ?_)
      rw [hindex]
      exact nofun
  | some i =>
      cases hqueue : m.playersNumberQueue[i]? with
      | none =>
          have hthrows : numberPressed pid (JsValue.parseInt text) m = .error .typeError := by
            simp only [numberPressed, hindex, Option.bind_some, hqueue, Option.map_none]
          rw [Fallible.uncaught_error hthrows]
          refine .threw _ hstarted (h.not_expected hnumber htext ?_)
          intro i' hi'
          rw [hindex, Option.mem_some_iff] at hi'
          rw [← hi']
          exact hqueue
      | some queue =>
          obtain ⟨n, hn⟩ := h.reference hstarted hqueue
          have hpressed : numberPressed pid (JsValue.parseInt text) m =
              if JsValue.parseInt text = some n then .ok (correctNumber pid i queue n m)
              else .ok (m, [.sendPlayerMessage pid (.customAppBoxMsg "InvalidNumberFeedback"),
                .playerInvalidNumber pid]) := by
            simp only [numberPressed, hindex, Option.bind_some, hqueue, Option.map_some, hn]
          simp only [hindex, Option.mem_some_iff, hqueue, exists_eq_left', hn] at hexpected
          by_cases heq : JsValue.parseInt text = some n
          · rw [if_pos heq] at hpressed
            rw [Fallible.uncaught_ok hpressed]
            refine .correct hstarted hindex hqueue hn ?_
            rw [hexpected, heq]
            simp
          · rw [if_neg heq] at hpressed
            rw [Fallible.uncaught_ok hpressed]
            exact .incorrect (hexpected.mpr (.inr heq))

theorem handle_received (h : Sound older m) (pid : Int) (js : JsValue) :
    Received m pid js (handle (.playerMessageReceived pid js) m).2
      (handle (.playerMessageReceived pid js) m).1 := by
  unfold handle
  by_cases hstarted : m.gameState = .STARTED
  · cases hnumber : js.hasOwnProperty "number" with
    | error e =>
        have hthrows : playerMessageReceived pid js m = .error e := by
          simp [playerMessageReceived, hstarted, hnumber]
        simp only [Fallible.uncaught_error hthrows]
        refine .threw e hstarted ?_
        rintro ⟨hasNumber, hok, -⟩
        rw [hnumber] at hok
        cases hok
    | ok hasNumber =>
        cases hasNumber with
        | false =>
            have hignores : playerMessageReceived pid js m = .ok (m, []) := by
              simp [playerMessageReceived, hstarted, hnumber]
            simp only [Fallible.uncaught_ok hignores]
            exact .ignored fun _ => ⟨false, hnumber, nofun⟩
        | true =>
            cases htext : (js.get "number").text with
            | error e =>
                have hthrows : playerMessageReceived pid js m = .error e := by
                  simp [playerMessageReceived, hstarted, hnumber, htext]
                simp only [Fallible.uncaught_error hthrows]
                refine .threw e hstarted ?_
                rintro ⟨hasNumber, hok, hread⟩
                rw [hnumber] at hok
                cases hok
                obtain ⟨text, hok, -⟩ := hread rfl
                rw [htext] at hok
                cases hok
            | ok text =>
                have hsame : Fallible.uncaught ReactOutput.threw (playerMessageReceived pid js) m =
                    Fallible.uncaught ReactOutput.threw
                      (numberPressed pid (JsValue.parseInt text)) m := by
                  simp [Fallible.uncaught, playerMessageReceived, hstarted, hnumber, htext]
                simp only [hsame]
                exact numberPressed_received h hstarted hnumber htext
  · have hignores : playerMessageReceived pid js m = .ok (m, []) := by
      simp [playerMessageReceived, hstarted]
    simp only [Fallible.uncaught_ok hignores]
    exact .ignored fun hnow => absurd hnow hstarted

theorem Sound.same {event : ReactEvent} {out : List ReactOutput} (h : Sound older m)
    (hother : initializes ⟨m, event, out, m⟩ = false) (hout : out.filter isWon = []) :
    Sound (⟨m, event, out, m⟩ :: older) m := by
  have hwins : wins (⟨m, event, out, m⟩ :: older) = wins older := by
    rw [wins_other hother, hout, List.append_nil]
  exact ⟨h.length, h.indexes, h.queues, h.unfinished, hwins ▸ h.once, hwins ▸ h.unwon⟩

theorem prefix_concat {queue numbers : List Int} {n : Int} (h : queue <+: numbers)
    (hn : numbers[queue.length]? = some n) : queue ++ [n] <+: numbers := by
  obtain ⟨rest, rfl⟩ := h
  rw [List.getElem?_append_right (Nat.le_refl _), Nat.sub_self] at hn
  obtain ⟨tail, rfl⟩ : ∃ tail, rest = n :: tail := by
    cases rest with
    | nil => cases hn
    | cons first tail =>
        cases hn
        exact ⟨tail, rfl⟩
  exact ⟨tail, by simp⟩

section Correct

variable {i : Nat} {queue : List Int} {n : Int}

theorem mem_set_queue {queues : List (List Int)} {pushed q : List Int} {P : List Int → Prop}
    (hold : ∀ q ∈ queues, P q) (hnew : P pushed) (hq : q ∈ queues.set i pushed) : P q := by
  rcases List.mem_or_eq_of_mem_set hq with hmem | rfl
  · exact hold q hmem
  · exact hnew

theorem Sound.correct (h : Sound older m) (hstarted : m.gameState = .STARTED)
    (hqueue : m.playersNumberQueue[i]? = some queue)
    (hn : m.numbers[queue.length]? = some n) :
    Sound (⟨m, .playerMessageReceived pid js, (correctNumber pid i queue n m).2,
      (correctNumber pid i queue n m).1⟩ :: older) (correctNumber pid i queue n m).1 := by
  have hwins := @wins_other older ⟨m, .playerMessageReceived pid js,
    (correctNumber pid i queue n m).2, (correctNumber pid i queue n m).1⟩ rfl
  have hnone : wins older = [] := h.unwon (by simp [hstarted])
  have hpushed := prefix_concat (h.queues queue (List.mem_of_getElem? hqueue)) hn
  have hqueues : ∀ q ∈ m.playersNumberQueue.set i (queue ++ [n]), q <+: m.numbers :=
    fun q hq => mem_set_queue (P := fun q => q <+: m.numbers) h.queues hpushed hq
  have hlength : (m.playersNumberQueue.set i (queue ++ [n])).length = m.playersIDs.length := by
    rw [List.length_set, h.length]
  rw [hnone, List.nil_append] at hwins
  unfold correctNumber at hwins ⊢
  simp only at hwins ⊢
  split at hwins <;> rename_i hwon
  · simp only [if_pos hwon]
    refine ⟨hlength, h.indexes, hqueues, nofun, ?_, fun hne => absurd rfl hne⟩
    rw [hwins]
    exact Nat.le_refl 1
  · simp only [if_neg hwon]
    have hlt : (queue ++ [n]).length < m.numbers.length :=
      Nat.lt_of_le_of_ne hpushed.length_le hwon
    refine ⟨hlength, h.indexes, hqueues, ?_, ?_, fun _ => hwins⟩
    · intro _ q hq
      exact mem_set_queue (h.unfinished (.inr hstarted)) hlt hq
    · rw [hwins]
      exact Nat.zero_le 1

theorem correct_complete (h : Sound older m) (hqueue : m.playersNumberQueue[i]? = some queue)
    (hn : m.numbers[queue.length]? = some n) (hpid : m.playersIDs[i]? = some pid) (pid' : Int)
    (hwon : ReactOutput.playerWon pid' ∈ (correctNumber pid i queue n m).2) :
    Complete (correctNumber pid i queue n m).1 pid' := by
  have hpushed := prefix_concat (h.queues queue (List.mem_of_getElem? hqueue)) hn
  obtain ⟨hlt, -⟩ := List.getElem?_eq_some_iff.mp hqueue
  unfold correctNumber at hwon ⊢
  simp only at hwon ⊢
  split at hwon
  · rename_i hlength
    simp only [List.mem_append, List.mem_cons, List.not_mem_nil, or_false, reduceCtorEq,
      false_or, ReactOutput.playerWon.injEq] at hwon
    subst hwon
    rw [if_pos hlength]
    refine ⟨i, hpid, ?_⟩
    rw [List.getElem?_set_self hlt, hpushed.eq_of_length hlength]
  · simp at hwon

theorem correct_changes (hqueue : m.playersNumberQueue[i]? = some queue) :
    (correctNumber pid i queue n m).1.playersNumberQueue[i]? ≠ m.playersNumberQueue[i]? := by
  obtain ⟨hlt, -⟩ := List.getElem?_eq_some_iff.mp hqueue
  have hset : (correctNumber pid i queue n m).1.playersNumberQueue =
      m.playersNumberQueue.set i (queue ++ [n]) := by
    unfold correctNumber
    simp only
    split <;> rfl
  rw [hset, List.getElem?_set_self hlt, hqueue]
  simp

end Correct

theorem Received.sound {out : List ReactOutput} (h : Sound older m)
    (hreceived : Received m pid js out m') :
    Sound (⟨m, .playerMessageReceived pid js, out, m'⟩ :: older) m' := by
  cases hreceived with
  | threw e _ _ => exact h.same rfl rfl
  | ignored _ => exact h.same rfl rfl
  | incorrect _ => exact h.same rfl rfl
  | correct hstarted _ hqueue hn _ => exact h.correct hstarted hqueue hn

def Sends (out : List ReactOutput) : Prop :=
  ∀ output ∈ out, ∃ pid msg, output = .sendPlayerMessage pid msg

theorem Sends.filter_isWon {out : List ReactOutput} (h : Sends out) :
    out.filter isWon = [] := by
  rw [List.filter_eq_nil_iff]
  intro output houtput
  obtain ⟨pid, msg, rfl⟩ := h output houtput
  exact Bool.false_ne_true

theorem initializePlayers_sends (m : ReactGameModel) (playerIds : List Int)
    (random : Nat → Random) :
    Sends (initializePlayers playerIds random m).2 := by
  intro output houtput
  obtain ⟨pid, -, hsent⟩ := List.mem_flatMap.mp houtput
  simp only [List.mem_cons, List.not_mem_nil, or_false] at hsent
  rcases hsent with rfl | rfl
  · exact ⟨_, _, rfl⟩
  · exact ⟨_, _, rfl⟩

theorem start_sends : Sends (start m).2 := by
  intro output houtput
  obtain ⟨pid, -, rfl⟩ := List.mem_map.mp houtput
  exact ⟨_, _, rfl⟩

theorem countDownFinished_sends : Sends (handle .countDownFinished m).2 := by
  unfold handle
  simp only
  split
  · exact start_sends
  · intro output houtput
    cases houtput

theorem initializePlayers_sound (playerIds : List Int) (random : Nat → Random) :
    Sound (⟨m, .initializePlayers playerIds random, (initializePlayers playerIds random m).2,
      (initializePlayers playerIds random m).1⟩ :: older)
      (initializePlayers playerIds random m).1 := by
  have hempty : ∀ queue ∈ playerIds.map fun _ => ([] : List Int), queue = [] := by simp
  have hwins : wins (⟨m, .initializePlayers playerIds random,
      (initializePlayers playerIds random m).2, (initializePlayers playerIds random m).1⟩ ::
      older) = [] := by
    rw [wins, since_cons_marked rfl]
    exact (initializePlayers_sends m playerIds random).filter_isWon
  refine ⟨by simp [initializePlayers], ?_, ?_, ?_, by simp [hwins], fun _ => hwins⟩
  · intro pid hpid
    obtain ⟨i, hi, hget⟩ := @indexPlayers_of_mem m.playerIndexes playerIds pid 0 hpid
    exact ⟨i, by rw [← Nat.zero_add i]; exact hi, hget⟩
  · intro queue hqueue
    rw [hempty queue hqueue]
    exact List.nil_prefix
  · intro _ queue hqueue
    rw [hempty queue hqueue]
    exact Nat.zero_lt_succ _

theorem Sound.countDownFinished (h : Sound older m) :
    Sound (⟨m, .countDownFinished, (handle .countDownFinished m).2,
      (handle .countDownFinished m).1⟩ :: older) (handle .countDownFinished m).1 := by
  unfold handle
  simp only
  split
  · rename_i hcountdown
    have hwins : wins (⟨m, .countDownFinished, (start m).2, (start m).1⟩ :: older) = [] := by
      rw [wins_other rfl, h.unwon (by simp [hcountdown])]
      exact start_sends.filter_isWon
    exact ⟨h.length, h.indexes, h.queues, fun _ => h.unfinished (.inl hcountdown),
      by simp [hwins], fun _ => hwins⟩
  · exact h.same rfl rfl

theorem Sound.handle (h : Sound older m) (event : ReactEvent) :
    Sound (⟨m, event, (handle event m).2, (handle event m).1⟩ :: older) (handle event m).1 := by
  cases event with
  | initializePlayers playerIds random => exact initializePlayers_sound playerIds random
  | countDownFinished => exact h.countDownFinished
  | playerMessageReceived pid js => exact (handle_received h pid js).sound h

theorem Sound.fair_iff (hafter : Sound (st :: older) st.post) : Fair older st ↔
    (∀ e, ReactOutput.threw e ∉ st.out) ∧
      (∀ pid js, st.label = .playerMessageReceived pid js →
        (∀ i : Nat, st.pre.playersIDs[i]? ≠ some pid →
          st.post.playersNumberQueue[i]? = st.pre.playersNumberQueue[i]?) ∧
        (pid ∉ st.pre.playersIDs → st.post = st.pre)) ∧
      ∀ pid, ReactOutput.playerWon pid ∈ st.out → Complete st.post pid := by
  constructor
  · intro h
    exact ⟨h.noThrow, fun pid js hlabel => ⟨h.own pid js hlabel, h.stranger pid js hlabel⟩,
      h.complete⟩
  · rintro ⟨hthrow, hown, hcomplete⟩
    exact ⟨hthrow, ⟨hafter.length, hafter.queues⟩, fun pid js hlabel => (hown pid js hlabel).1,
      fun pid js hlabel => (hown pid js hlabel).2, hafter.once, hcomplete⟩

theorem Sends.fair (hsends : Sends st.out) (hafter : Sound (st :: older) st.post)
    (hlabel : ∀ pid js, st.label ≠ .playerMessageReceived pid js) : Fair older st := by
  refine hafter.fair_iff.mpr ⟨?_, ?_, ?_⟩
  · intro e hthrew
    obtain ⟨pid, msg, heq⟩ := hsends _ hthrew
    cases heq
  · intro pid js hmessage
    exact absurd hmessage (hlabel pid js)
  · intro pid hwon
    obtain ⟨pid', msg, heq⟩ := hsends _ hwon
    cases heq

theorem Received.fair_iff {out : List ReactOutput} (h : Sound older m)
    (hreceived : Received m pid js out m') :
    Fair older ⟨m, .playerMessageReceived pid js, out, m'⟩ ↔
      (m.gameState = .STARTED → Expected m pid js) := by
  rw [(hreceived.sound h).fair_iff]
  cases hreceived with
  | threw e hstarted hunexpected =>
      refine iff_of_false ?_ fun hnow => hunexpected (hnow hstarted)
      rintro ⟨hthrow, -, -⟩
      exact hthrow e List.mem_cons_self
  | ignored hexpected => exact iff_of_true (by simp) hexpected
  | incorrect hexpected => exact iff_of_true (by simp) fun _ => hexpected
  | @correct i queue n hstarted hindex hqueue hn hexpected =>
      rw [hexpected]
      constructor
      · rintro ⟨-, hown, -⟩ _
        by_contra hpid
        have hother : m.playersIDs[i]? ≠ some pid := fun hget =>
          hpid (List.mem_of_getElem? hget)
        exact correct_changes hqueue ((hown pid js rfl).1 i hother)
      · intro hpid
        obtain ⟨i', hindex', hget⟩ := h.indexes pid (hpid hstarted)
        obtain rfl : i = i' := Option.some.inj (hindex.symm.trans hindex')
        refine ⟨?_, ?_, correct_complete h hqueue hn hget⟩
        · intro e
          unfold correctNumber
          simp only
          split <;> simp
        · rintro _ _ ⟨⟩
          refine ⟨?_, fun hstranger => absurd (hpid hstarted) hstranger⟩
          intro k hk
          have hne : i ≠ k := by
            rintro rfl
            exact hk hget
          unfold correctNumber
          simp only
          split <;> simp [List.getElem?_set_ne hne]

end Steps

section Runs

variable {history : History} {m : ReactGameModel}

theorem sound_of_execution (h : Execution machine history m) : Sound history m := by
  refine h.invariant (I := Sound) ?_ ?_
  · exact ⟨rfl, nofun, by simp [machine, Action.machine, uninitialized], by
      simp [machine, Action.machine, uninitialized], by decide, fun _ => rfl⟩
  · intro older m m' event out _ hsound hstep
    obtain ⟨rfl, rfl⟩ := Action.machine_step hstep
    exact hsound.handle event

/-- The games are fair as long as the messages are expected. -/
theorem games_fair_iff (h : Execution machine history m) :
    Execution.EachStep Fair history ↔ ∀ st ∈ history, ExpectedMessage st := by
  rw [← Execution.eachStep_const]
  refine Execution.eachStep_iff ?_ h
  intro older m m' event out hexec hstep
  have hsound := sound_of_execution hexec
  have hafter := sound_of_execution (hexec.next hstep)
  obtain ⟨rfl, rfl⟩ := Action.machine_step hstep
  cases event with
  | playerMessageReceived pid js =>
      rw [(handle_received hsound pid js).fair_iff hsound]
      constructor
      · rintro hexpected _ _ ⟨⟩
        exact hexpected
      · intro hexpected
        exact hexpected pid js rfl
  | initializePlayers playerIds random =>
      exact iff_of_true ((initializePlayers_sends m playerIds random).fair hafter nofun) nofun
  | countDownFinished =>
      exact iff_of_true (countDownFinished_sends.fair hafter nofun) nofun

end Runs

/-- A player joins after the game was set up, and presses a number. -/
def lateJoiner : List ReactEvent :=
  [.initializePlayers [7] (fun _ => .zero), .countDownFinished,
    .playerMessageReceived 9 (.object [("number", .number "0")])]

/-- The player of an earlier game presses the next number of another one. -/
def earlierPlayer : List ReactEvent :=
  [.initializePlayers [9] (fun _ => .zero),
    .initializePlayers [7] (fun _ => .zero), .countDownFinished,
    .playerMessageReceived 9 (.object [("number", .number "0")])]

theorem games_fair_iff_earlierPlayer :
    let run := Action.trace uninitialized handle earlierPlayer
    Execution.EachStep Fair run.1 ↔ ∀ st ∈ run.1, ExpectedMessage st :=
  games_fair_iff (Action.trace_execution uninitialized handle earlierPlayer)

theorem games_unfair :
    let late := Action.trace uninitialized handle lateJoiner
    let earlier := Action.trace uninitialized handle earlierPlayer
    (outputs late.1).getLast? = some (.threw .typeError) ∧
      ¬ Execution.EachStep Fair late.1 ∧
      earlier.2.playersIDs = [7] ∧ earlier.2.playersNumberQueue = [[0]] ∧
      ¬ Execution.EachStep Fair earlier.1 := by
  refine ⟨by decide +kernel, ?_, by decide +kernel, by decide +kernel, ?_⟩
  · rintro ⟨hfair, -⟩
    exact hfair.noThrow .typeError (by decide +kernel)
  · rintro ⟨hfair, -⟩
    have hsame := hfair.own 9 _ rfl 0 (by decide +kernel)
    exact absurd hsame (by decide +kernel)

end ReactGameModel

end GBerry.Games.React
