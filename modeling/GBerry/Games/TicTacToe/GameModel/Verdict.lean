import GBerry.Games.TicTacToe.GameModel

/-!
# The verdict of a game

Whose turn it is follows from the number of marks on the board, and so does the end of
the game from the lines on it.  The model is compared with what the board says.
-/

namespace GBerry.Games.TicTacToe.GameModel

open GBerry.Foundation

section Boards

def markCount (columns : Board) : Nat :=
  (Finset.univ.filter fun cell : Fin 3 × Fin 3 => columns cell.1 cell.2 ≠ .unselected).card

def Full (columns : Board) : Prop := ∀ i j, columns i j ≠ .unselected

def LineOf (columns : Board) (type : Mark) : Prop :=
  (∃ j, ∀ i, columns i j = type) ∨ (∃ i, ∀ j, columns i j = type) ∨
    (∀ k, columns k k = type) ∨ ∀ k : Fin 3, columns k k.rev = type

def HasLine (columns : Board) : Prop := LineOf columns .x ∨ LineOf columns .o

instance (columns : Board) : Decidable (Full columns) :=
  inferInstanceAs (Decidable (∀ i j, columns i j ≠ .unselected))

instance (columns : Board) (type : Mark) : Decidable (LineOf columns type) :=
  inferInstanceAs (Decidable ((∃ j, ∀ i, columns i j = type) ∨ (∃ i, ∀ j, columns i j = type) ∨
    (∀ k, columns k k = type) ∨ ∀ k : Fin 3, columns k k.rev = type))

instance (columns : Board) : Decidable (HasLine columns) :=
  inferInstanceAs (Decidable (LineOf columns .x ∨ LineOf columns .o))

variable {columns : Board} {i j : Fin 3} {type : Mark}

theorem markCount_setCell (hfree : columns i j = .unselected) (htype : type ≠ .unselected) :
    markCount (setCell columns i j type) = markCount columns + 1 := by
  have hcells : (Finset.univ.filter fun cell : Fin 3 × Fin 3 =>
      setCell columns i j type cell.1 cell.2 ≠ .unselected) =
      insert (i, j) (Finset.univ.filter fun cell : Fin 3 × Fin 3 =>
        columns cell.1 cell.2 ≠ .unselected) := by
    ext ⟨i', j'⟩
    rw [Finset.mem_insert, Finset.mem_filter, Finset.mem_filter, Prod.mk.injEq]
    by_cases hcell : i' = i ∧ j' = j
    · simp [setCell, hcell, htype]
    · simp [setCell, hcell]
  unfold markCount
  rw [hcells, Finset.card_insert_of_notMem (by simp [hfree])]

theorem full_iff : Full columns ↔ markCount columns = 9 := by
  have hcard : (Finset.univ : Finset (Fin 3 × Fin 3)).card = 9 := rfl
  unfold Full markCount
  rw [← hcard, Finset.card_filter_eq_iff]
  simp

theorem not_full (hfree : columns i j = .unselected) : ¬ Full columns := fun hfull =>
  hfull i j hfree

end Boards

/-- The player whose turn it is: the players mark in turn, and player 1 begins. -/
def mover (m : GameModel) : Int :=
  if markCount m.columns % 2 = 0 then m.player1ID else m.player2ID

def opponent (m : GameModel) : Int :=
  if markCount m.columns % 2 = 0 then m.player2ID else m.player1ID

def moverMark (m : GameModel) : Mark := if markCount m.columns % 2 = 0 then .x else .o

def Completes (st : GameStep) : Prop := ¬ HasLine st.pre.columns ∧ HasLine st.post.columns

def MarksFree (st : GameStep) : Prop :=
  ∃ i j, st.pre.columns i j = .unselected ∧ st.label.pid = st.pre.mover ∧
    st.post.columns = setCell st.pre.columns i j st.pre.moverMark

/--
No call throws, the players mark free cells in turn until the game ends, and the one
whose mark completes a line is told that he has won, the other one that he has lost.
-/
structure Verdict (st : GameStep) : Prop where
  noThrow : ∀ e, GameOutput.threw e ∉ st.out
  marks : st.post.columns = st.pre.columns ∨ st.pre.gameEnded = false ∧ MarksFree st
  ended : st.post.gameEnded = true ↔ HasLine st.post.columns ∨ Full st.post.columns
  winner : ∀ pid, .sendPlayerMessage pid (.moveToState "END_GAME_WINNER") ∈ st.out ↔
    Completes st ∧ pid = st.pre.mover
  looser : ∀ pid, .sendPlayerMessage pid (.moveToState "END_GAME_LOOSER") ∈ st.out ↔
    Completes st ∧ pid = st.pre.opponent

/-- A completed line that the message's coordinates let the model see. -/
def Noticed (columns : Board) (type : Mark) (x y : JsValue) : Prop :=
  (∃ j : Fin 3, y = .number (toString j.val) ∧ ∀ i, columns i j = type) ∨
    (∃ i : Fin 3, x = .number (toString i.val) ∧ ∀ j, columns i j = type) ∨
    (x.strictEquals y = true ∧ ∀ k, columns k k = type) ∨
    ∀ k : Fin 3, columns k k.rev = type

/-- A line that is completed is noticed, or the board is full, which it is with a line only. -/
def GoodMark (columns : Board) (type : Mark) (x y : JsValue) : Prop :=
  (HasLine columns → Noticed columns type x y ∨ Full columns) ∧ (Full columns → HasLine columns)

/-- The coordinates can be read, and the mark that they make is good. -/
def GoodCell (m : GameModel) (x y : JsValue) : Prop :=
  ∃ cell, lookUp x y = .ok cell ∧
    ((∀ i j, cell = some (i, j) → m.columns i j ≠ .unselected) →
      ∃ text, coordinates x y = .ok text) ∧
    ∀ i j, cell = some (i, j) → m.columns i j = .unselected →
      GoodMark (setCell m.columns i j m.moverMark) m.moverMark x y

/-- The message can be read, and the cell that it selects in its player's turn is good. -/
def GoodMessage (m : GameModel) (message : PlayerMessage) : Prop :=
  ∃ hasAction, message.js.hasOwnProperty "action" = .ok hasAction ∧
    (hasAction = false → ∃ text, message.js.callToString = .ok text) ∧
    (hasAction = true → message.js.get "action" = .string "SelectCell" →
      ¬ HasLine m.columns → ¬ Full m.columns → message.pid = m.mover →
      GoodCell m (message.js.get "x") (message.js.get "y"))

section Checks

theorem exists_fin_three (P : Fin 3 → Prop) : (∃ k, P k) ↔ P 0 ∨ P 1 ∨ P 2 := by
  simp [Fin.exists_fin_succ]

variable {m : GameModel} {x y : JsValue}

theorem checkRow_iff (r : Fin 3) :
    m.checkRow ⟨0, r, 2, r⟩ = true ↔ ∀ i, m.columns i r = m.playerMark := by
  simp [checkRow, checkCells, Fin.forall_fin_succ]
  tauto

theorem checkColumn_iff (c : Fin 3) :
    m.checkColumn ⟨c, 0, c, 2⟩ = true ↔ ∀ j, m.columns c j = m.playerMark := by
  simp [checkColumn, checkCells, Fin.forall_fin_succ]
  tauto

theorem endChecks_isSome_iff : ((m.endChecks x y).find? Prod.fst).isSome = true ↔
    Noticed m.columns m.playerMark x y := by
  have hdiagonal : m.checkDiagonal ⟨0, 0, 2, 2⟩ = true ↔
      ∀ k, m.columns k k = m.playerMark := by
    simp [checkDiagonal, checkCells, Fin.forall_fin_succ]
    tauto
  have hantidiagonal : m.checkDiagonal ⟨0, 2, 2, 0⟩ = true ↔
      ∀ k : Fin 3, m.columns k k.rev = m.playerMark := by
    simp [checkDiagonal, checkCells, Fin.forall_fin_succ]
    tauto
  rw [List.find?_isSome]
  simp only [endChecks, List.mem_cons, List.not_mem_nil, or_false, exists_eq_or_imp,
    exists_eq_left, Bool.and_eq_true, JsValue.strictEquals_number, checkRow_iff, checkColumn_iff,
    hdiagonal, hantidiagonal]
  rw [Noticed, exists_fin_three, exists_fin_three]
  have htexts : toString (0 : Fin 3).val = "0" ∧ toString (1 : Fin 3).val = "1" ∧
      toString (2 : Fin 3).val = "2" := by decide
  rw [htexts.1, htexts.2.1, htexts.2.2]
  simp only [or_assoc]

end Checks

section Marking

variable {m m' : GameModel} {x y : JsValue} {i j : Fin 3} {out : List GameOutput}

structure Sound (m : GameModel) : Prop where
  distinct : m.player1ID ≠ m.player2ID
  markedCells : m.markedCells = markCount m.columns
  currentPlayer : m.gameEnded = false → m.currentPlayer = m.mover
  gameEnded : m.gameEnded = true ↔ HasLine m.columns ∨ Full m.columns
  enableTurns : m.enableTurns = !m.gameEnded

def marked (m : GameModel) (i j : Fin 3) : GameModel :=
  { m with
    columns := setCell m.columns i j m.playerMark
    markedCells := m.markedCells + 1 }

def markOutputs (m : GameModel) (x y : JsValue) : List GameOutput :=
  [.cellMarked m.playerMark x y, .sendPlayerMessage m.player1ID (.markCell x y),
    .sendPlayerMessage m.player2ID (.markCell x y)]

def IsSignal : GameOutput → Prop
  | .sendPlayerMessage _ _ => False
  | .threw _ => False
  | _ => True

inductive Marked (m : GameModel) (i j : Fin 3) (x y : JsValue) :
    List GameOutput → GameModel → Prop
  | ended (signal : GameOutput) : IsSignal signal →
      Noticed (m.marked i j).columns m.playerMark x y ∨ m.markedCells = 8 →
      Marked m i j x y (m.markOutputs x y ++ (m.sendEndGameMessages ++ [signal]))
        { m.marked i j with gameEnded := true, enableTurns := false }
  | continues : ¬ Noticed (m.marked i j).columns m.playerMark x y → m.markedCells ≠ 8 →
      Marked m i j x y (m.markOutputs x y ++ (switchPlayerTurn (m.marked i j)).2)
        (switchPlayerTurn (m.marked i j)).1

theorem mark_marked (m : GameModel) (i j : Fin 3) (x y : JsValue) :
    Marked m i j x y (mark i j x y m).2 (mark i j x y m).1 := by
  have hmark : mark i j x y m = ((checkGameEndCondition x y (m.marked i j)).1,
      m.markOutputs x y ++ (checkGameEndCondition x y (m.marked i j)).2) := rfl
  have hnoticed := @endChecks_isSome_iff (m.marked i j) x y
  rw [hmark]
  unfold checkGameEndCondition
  cases hfind : ((m.marked i j).endChecks x y).find? Prod.fst with
  | some found =>
      obtain ⟨_, line⟩ := found
      rw [hfind] at hnoticed
      exact .ended (.gameEnded m.playerNumber line) trivial (.inl (hnoticed.mp rfl))
  | none =>
      rw [hfind] at hnoticed
      have hunnoticed := hnoticed.not.mp Bool.false_ne_true
      by_cases hfull : (m.marked i j).markedCells = 9
      · simp only [if_pos hfull]
        exact .ended .gameEndedDraw trivial (.inr (Nat.succ.inj hfull))
      · simp only [if_neg hfull]
        exact .continues hunnoticed fun height => hfull (congrArg Nat.succ height)

theorem Sound.turn (h : Sound m) (hrunning : m.gameEnded = false) :
    m.currentPlayer = m.player1ID ↔ markCount m.columns % 2 = 0 := by
  rw [h.currentPlayer hrunning, mover]
  split
  · rename_i heven
    exact iff_of_true rfl heven
  · rename_i hodd
    exact iff_of_false h.distinct.symm hodd

theorem Sound.playerMark (h : Sound m) (hrunning : m.gameEnded = false) :
    m.playerMark = m.moverMark := by
  unfold GameModel.playerMark moverMark
  simp only [h.turn hrunning]

theorem moverMark_ne (m : GameModel) : m.moverMark ≠ .unselected := by
  unfold moverMark
  split <;> decide

theorem Sound.endMessages (h : Sound m) (hrunning : m.gameEnded = false) (pid : Int) :
    (.sendPlayerMessage pid (.moveToState "END_GAME_WINNER") ∈ m.sendEndGameMessages ↔
      pid = m.mover) ∧
    (.sendPlayerMessage pid (.moveToState "END_GAME_LOOSER") ∈ m.sendEndGameMessages ↔
      pid = m.opponent) := by
  have hturn := h.turn hrunning
  unfold sendEndGameMessages playerNumber mover opponent
  by_cases heven : markCount m.columns % 2 = 0
  · simp [heven, hturn.mpr heven]
  · simp [heven, mt hturn.mp heven]

theorem Sound.marked (h : Sound m) (hrunning : m.gameEnded = false)
    (hfree : m.columns i j = .unselected) :
    (m.marked i j).columns = setCell m.columns i j m.moverMark ∧
      (m.marked i j).markedCells = markCount (m.marked i j).columns ∧
      (Full (m.marked i j).columns ↔ m.markedCells = 8) ∧
      (switchPlayerTurn (m.marked i j)).1.currentPlayer = (m.marked i j).mover := by
  have hcolumns : (m.marked i j).columns = setCell m.columns i j m.moverMark := by
    rw [GameModel.marked, h.playerMark hrunning]
  have hcount : markCount (m.marked i j).columns = markCount m.columns + 1 := by
    rw [hcolumns]
    exact markCount_setCell hfree (moverMark_ne m)
  have hmarked : (m.marked i j).markedCells = m.markedCells + 1 := rfl
  refine ⟨hcolumns, ?_, ?_, ?_⟩
  · rw [hcount, hmarked, h.markedCells]
  · rw [full_iff, hcount, h.markedCells]
    omega
  · have hturn := h.turn hrunning
    unfold mover switchPlayerTurn
    rw [hcount]
    by_cases heven : markCount m.columns % 2 = 0
    · have hcurrent : (m.marked i j).currentPlayer = (m.marked i j).player1ID :=
        hturn.mpr heven
      rw [if_pos hcurrent, if_neg (by omega)]
    · have hcurrent : ¬ (m.marked i j).currentPlayer = (m.marked i j).player1ID :=
        mt hturn.mp heven
      rw [if_neg hcurrent, if_pos (by omega)]

inductive Received (m : GameModel) (message : PlayerMessage) :
    List GameOutput → GameModel → Prop
  | threw (e : JsError) : ¬ GoodMessage m message → Received m message [.threw e] m
  | ignored (handled : Bool) : GoodMessage m message →
      Received m message [.returned handled] m
  | marked {i j : Fin 3} {x y : JsValue} {out : List GameOutput} {m' : GameModel} :
      m.gameEnded = false → message.pid = m.mover → m.columns i j = .unselected →
      Marked m i j x y out m' →
      (GoodMessage m message ↔ GoodMark (setCell m.columns i j m.moverMark) m.moverMark x y) →
      Received m message (out ++ [.returned true]) m'

theorem goodCell_of_not_free {cell : Option (Fin 3 × Fin 3)} (hcell : lookUp x y = .ok cell)
    (hfree : ∀ i j, cell = some (i, j) → m.columns i j ≠ .unselected) :
    GoodCell m x y ↔ ∃ text, coordinates x y = .ok text := by
  constructor
  · rintro ⟨cell', hcell', htext, -⟩
    rw [hcell] at hcell'
    cases hcell'
    exact htext hfree
  · intro htext
    refine ⟨cell, hcell, fun _ => htext, ?_⟩
    intro i j heq hunselected
    exact absurd hunselected (hfree i j heq)

theorem goodCell_of_free (hcell : lookUp x y = .ok (some (i, j)))
    (hfree : m.columns i j = .unselected) :
    GoodCell m x y ↔ GoodMark (setCell m.columns i j m.moverMark) m.moverMark x y := by
  constructor
  · rintro ⟨cell, hcell', -, hgood⟩
    rw [hcell] at hcell'
    cases hcell'
    exact hgood i j rfl hfree
  · intro hgood
    refine ⟨_, hcell, fun hnot => absurd hfree (hnot i j rfl), ?_⟩
    rintro _ _ ⟨⟩ _
    exact hgood

theorem markCell_cases (hrunning : m.gameEnded = false) (x y : JsValue) :
    (∃ e, markCell x y m = .error e ∧ ¬ GoodCell m x y) ∨
      (markCell x y m = .ok (m, []) ∧ GoodCell m x y) ∨
      ∃ i j, lookUp x y = .ok (some (i, j)) ∧ m.columns i j = .unselected ∧
        markCell x y m = .ok (mark i j x y m) := by
  have hnotFree {cell : Option (Fin 3 × Fin 3)} (hcell : lookUp x y = .ok cell)
      (hfree : ∀ i j, cell = some (i, j) → m.columns i j ≠ .unselected)
      (halready : markCell x y m = alreadyMarked x y m) :
      (∃ e, markCell x y m = .error e ∧ ¬ GoodCell m x y) ∨
        (markCell x y m = .ok (m, []) ∧ GoodCell m x y) := by
    rw [goodCell_of_not_free hcell hfree, halready, alreadyMarked]
    cases coordinates x y with
    | error e => exact .inl ⟨e, rfl, by simp⟩
    | ok text => exact .inr ⟨rfl, text, rfl⟩
  cases hcell : lookUp x y with
  | error e =>
      refine .inl ⟨e, by simp [markCell, hrunning, hcell], ?_⟩
      rintro ⟨cell, hcell', -⟩
      rw [hcell] at hcell'
      cases hcell'
  | ok cell =>
      cases cell with
      | none =>
          have hcases := hnotFree hcell nofun (by simp [markCell, hrunning, hcell])
          exact hcases.imp_right .inl
      | some cell =>
          obtain ⟨i, j⟩ := cell
          by_cases hfree : m.columns i j = .unselected
          · exact .inr (.inr ⟨i, j, rfl, hfree, by simp [markCell, hrunning, hcell, hfree]⟩)
          · have hcases := hnotFree hcell (by rintro _ _ ⟨⟩; exact hfree)
              (by simp [markCell, hrunning, hcell, hfree])
            exact hcases.imp_right .inl

theorem selectCell_received {message : PlayerMessage} (hrunning : m.gameEnded = false)
    (hpid : message.pid = m.mover) (hgood : GoodMessage m message ↔ GoodCell m x y) :
    Received m message
      (Fallible.uncaught .threw ((markCell x y).andThen (returning true)) m).2
      (Fallible.uncaught .threw ((markCell x y).andThen (returning true)) m).1 := by
  rcases markCell_cases hrunning x y with
    ⟨e, hthrows, hbad⟩ | ⟨hignores, hcell⟩ | ⟨i, j, hcell, hfree, hmarks⟩
  · have hcall : (markCell x y).andThen (returning true) m = .error e := by
      simp only [Fallible.andThen, hthrows]
    rw [Fallible.uncaught_error hcall]
    exact .threw e (hgood.not.mpr hbad)
  · have hcall : (markCell x y).andThen (returning true) m = .ok (m, [.returned true]) := by
      simp only [Fallible.andThen, hignores]
      rfl
    rw [Fallible.uncaught_ok hcall]
    exact .ignored true (hgood.mpr hcell)
  · have hcall : (markCell x y).andThen (returning true) m =
        .ok ((mark i j x y m).1, (mark i j x y m).2 ++ [.returned true]) := by
      simp only [Fallible.andThen, hmarks]
      rfl
    rw [Fallible.uncaught_ok hcall]
    exact .marked hrunning hpid hfree (mark_marked m i j x y)
      (hgood.trans (goodCell_of_free hcell hfree))

theorem Sound.inTurn (h : Sound m) (pid : Int) :
    (m.enableTurns && pid = m.currentPlayer) = true ↔
      (¬ HasLine m.columns ∧ ¬ Full m.columns) ∧ pid = m.mover := by
  rw [Bool.and_eq_true, h.enableTurns, Bool.not_eq_true', decide_eq_true_iff, ← not_or,
    ← h.gameEnded, Bool.not_eq_true]
  refine and_congr_right ?_
  intro hrunning
  rw [h.currentPlayer hrunning]

theorem Sound.running (h : Sound m) (hlines : ¬ HasLine m.columns ∧ ¬ Full m.columns) :
    m.gameEnded = false := by
  rw [← Bool.not_eq_true, h.gameEnded, not_or]
  exact hlines

section Messages

variable {pid : Int} {js : JsValue}

theorem goodMessage_without_action (haction : js.hasOwnProperty "action" = .ok false) :
    GoodMessage m ⟨pid, js⟩ ↔ ∃ text, js.callToString = .ok text := by
  constructor
  · rintro ⟨hasAction, hok, htext, -⟩
    rw [haction] at hok
    cases hok
    exact htext rfl
  · intro htext
    exact ⟨false, haction, fun _ => htext, nofun⟩

theorem goodMessage_with_action (haction : js.hasOwnProperty "action" = .ok true) :
    GoodMessage m ⟨pid, js⟩ ↔ (js.get "action" = .string "SelectCell" → ¬ HasLine m.columns →
      ¬ Full m.columns → pid = m.mover → GoodCell m (js.get "x") (js.get "y")) := by
  constructor
  · rintro ⟨hasAction, hok, -, hcell⟩
    rw [haction] at hok
    cases hok
    exact hcell rfl
  · intro hcell
    exact ⟨true, haction, nofun, fun _ => hcell⟩

theorem received_of_error {e : JsError} (hcall : playerMessageReceived pid js m = .error e)
    (hbad : ¬ GoodMessage m ⟨pid, js⟩) :
    Received m ⟨pid, js⟩ (handle ⟨pid, js⟩ m).2 (handle ⟨pid, js⟩ m).1 := by
  rw [handle, Fallible.uncaught_error hcall]
  exact .threw e hbad

theorem received_of_returned {handled : Bool}
    (hcall : playerMessageReceived pid js m = .ok (m, [.returned handled]))
    (hgood : GoodMessage m ⟨pid, js⟩) :
    Received m ⟨pid, js⟩ (handle ⟨pid, js⟩ m).2 (handle ⟨pid, js⟩ m).1 := by
  rw [handle, Fallible.uncaught_ok hcall]
  exact .ignored handled hgood

end Messages

theorem handle_received (h : Sound m) (message : PlayerMessage) :
    Received m message (handle message m).2 (handle message m).1 := by
  obtain ⟨pid, js⟩ := message
  cases haction : js.hasOwnProperty "action" with
  | error e =>
      have hcall : playerMessageReceived pid js m = .error e := by
        simp only [playerMessageReceived, haction]
      refine received_of_error hcall ?_
      rintro ⟨hasAction, hok, -⟩
      rw [haction] at hok
      cases hok
  | ok hasAction =>
      cases hasAction with
      | false =>
          have hgood : GoodMessage m ⟨pid, js⟩ ↔ _ := goodMessage_without_action haction
          cases htext : js.callToString with
          | error e =>
              have hcall : playerMessageReceived pid js m = .error e := by
                simp only [playerMessageReceived, haction, htext]
              refine received_of_error hcall ?_
              rw [hgood, htext]
              exact nofun
          | ok text =>
              have hcall : playerMessageReceived pid js m = .ok (m, [.returned false]) := by
                simp only [playerMessageReceived, haction, htext]
                rfl
              exact received_of_returned hcall (hgood.mpr ⟨text, htext⟩)
      | true =>
          have hgood : GoodMessage m ⟨pid, js⟩ ↔ _ := goodMessage_with_action haction
          by_cases hselect : js.get "action" = .string "SelectCell"
          · have hcall : playerMessageReceived pid js m =
                if m.enableTurns && pid = m.currentPlayer then
                  (markCell (js.get "x") (js.get "y")).andThen (returning true) m
                else returning true m := by
              simp only [playerMessageReceived, haction, JsValue.strictEquals_string.mpr hselect,
                if_true]
            by_cases hturn : (m.enableTurns && pid = m.currentPlayer) = true
            · obtain ⟨hlines, hpid⟩ := (h.inTurn pid).mp hturn
              have hcell : GoodMessage m ⟨pid, js⟩ ↔ GoodCell m (js.get "x") (js.get "y") := by
                rw [hgood]
                exact ⟨fun hall => hall hselect hlines.1 hlines.2 hpid, fun hcell _ _ _ _ => hcell⟩
              have hreceived := selectCell_received (h.running hlines) hpid hcell
              rw [if_pos hturn] at hcall
              unfold handle Fallible.uncaught at *
              rw [hcall]
              exact hreceived
            · rw [if_neg hturn] at hcall
              refine received_of_returned hcall (hgood.mpr ?_)
              intro _ hline hfull hpid
              exact absurd ((h.inTurn pid).mpr ⟨⟨hline, hfull⟩, hpid⟩) hturn
          · have hcall : playerMessageReceived pid js m = .ok (m, [.returned false]) := by
              simp only [playerMessageReceived, haction, JsValue.strictEquals_string, hselect,
                if_false]
              rfl
            exact received_of_returned hcall (hgood.mpr fun hnow => absurd hnow hselect)

end Marking

section Outputs

variable {m : GameModel} {x y : JsValue} {signal : GameOutput} {pid : Int} {state : String}

theorem mem_endedOutputs (hsignal : IsSignal signal) :
    .sendPlayerMessage pid (.moveToState state) ∈
      m.markOutputs x y ++ (m.sendEndGameMessages ++ [signal]) ++ [.returned true] ↔
      .sendPlayerMessage pid (.moveToState state) ∈ m.sendEndGameMessages := by
  have hne : GameOutput.sendPlayerMessage pid (.moveToState state) ≠ signal := by
    rintro rfl
    exact hsignal
  simp [markOutputs, hne]

theorem endedOutputs_noThrow (hsignal : IsSignal signal) (e : JsError) :
    .threw e ∉ m.markOutputs x y ++ (m.sendEndGameMessages ++ [signal]) ++ [.returned true] := by
  have hne : GameOutput.threw e ≠ signal := by
    rintro rfl
    exact hsignal
  unfold markOutputs sendEndGameMessages
  split <;> simp [hne]

theorem not_mem_continuedOutputs (m' : GameModel)
    (hstate : state = "END_GAME_WINNER" ∨ state = "END_GAME_LOOSER") :
    .sendPlayerMessage pid (.moveToState state) ∉
      m.markOutputs x y ++ (switchPlayerTurn m').2 ++ [.returned true] := by
  unfold markOutputs switchPlayerTurn
  rcases hstate with rfl | rfl
  · split <;> simp
  · split <;> simp

theorem continuedOutputs_noThrow (m' : GameModel) (e : JsError) :
    .threw e ∉ m.markOutputs x y ++ (switchPlayerTurn m').2 ++ [.returned true] := by
  unfold markOutputs switchPlayerTurn
  split <;> simp

end Outputs

section Steps

variable {m : GameModel} {message : PlayerMessage} {i j : Fin 3} {x y : JsValue}
  {st : GameStep}

theorem Noticed.hasLine {columns : Board} (h : Noticed columns m.moverMark x y) :
    HasLine columns := by
  have hline : LineOf columns m.moverMark := by
    rcases h with ⟨j, -, hrow⟩ | ⟨i, -, hcolumn⟩ | ⟨-, hdiagonal⟩ | hantidiagonal
    · exact .inl ⟨j, hrow⟩
    · exact .inr (.inl ⟨i, hcolumn⟩)
    · exact .inr (.inr (.inl hdiagonal))
    · exact .inr (.inr (.inr hantidiagonal))
  unfold moverMark at hline
  split at hline
  · exact .inl hline
  · exact .inr hline

theorem switchPlayerTurn_fst (m : GameModel) :
    ∃ next, (switchPlayerTurn m).1 = { m with currentPlayer := next } := by
  unfold switchPlayerTurn
  split
  · exact ⟨_, rfl⟩
  · exact ⟨_, rfl⟩

theorem Sound.noLine (h : Sound m) (hrunning : m.gameEnded = false) : ¬ HasLine m.columns := by
  intro hline
  rw [h.gameEnded.mpr (.inl hline)] at hrunning
  cases hrunning

theorem Sound.marksFree (h : Sound m) (hrunning : m.gameEnded = false)
    (hfree : m.columns i j = .unselected) (hpre : st.pre = m) (hpid : st.label.pid = m.mover)
    (hpost : st.post.columns = (m.marked i j).columns) :
    st.post.columns = st.pre.columns ∨ st.pre.gameEnded = false ∧ MarksFree st := by
  subst hpre
  exact .inr ⟨hrunning, i, j, hfree, hpid, hpost.trans (h.marked hrunning hfree).1⟩

/-- A game that ends is told to have a winner, whether it has a line or not. -/
theorem Sound.ended_verdict_iff {signal : GameOutput} (h : Sound m)
    (hrunning : m.gameEnded = false) (hpid : message.pid = m.mover)
    (hfree : m.columns i j = .unselected) (hsignal : IsSignal signal)
    (hreason : Noticed (m.marked i j).columns m.moverMark x y ∨ Full (m.marked i j).columns) :
    Verdict ⟨m, message,
      m.markOutputs x y ++ (m.sendEndGameMessages ++ [signal]) ++ [.returned true],
      { m.marked i j with gameEnded := true, enableTurns := false }⟩ ↔
      GoodMark (m.marked i j).columns m.moverMark x y := by
  have hnoLine := h.noLine hrunning
  by_cases hline : HasLine (m.marked i j).columns
  · refine iff_of_true ?_ ⟨fun _ => hreason, fun _ => hline⟩
    refine ⟨endedOutputs_noThrow hsignal, h.marksFree hrunning hfree rfl hpid rfl,
      iff_of_true rfl (.inl hline), ?_, ?_⟩
    · intro pid
      rw [mem_endedOutputs hsignal, (h.endMessages hrunning pid).1]
      exact (and_iff_right ⟨hnoLine, hline⟩).symm
    · intro pid
      rw [mem_endedOutputs hsignal, (h.endMessages hrunning pid).2]
      exact (and_iff_right ⟨hnoLine, hline⟩).symm
  · refine iff_of_false ?_ ?_
    · intro hverdict
      have hwinner : _ ∈ _ := (mem_endedOutputs (x := x) (y := y) hsignal).mpr
        ((h.endMessages hrunning m.mover).1.mpr rfl)
      exact hline ((hverdict.winner m.mover).mp hwinner).1.2
    · rintro ⟨-, hdraw⟩
      rcases hreason with hnoticed | hfull
      · exact hline hnoticed.hasLine
      · exact hline (hdraw hfull)

theorem Sound.continued_verdict_iff (h : Sound m) (hrunning : m.gameEnded = false)
    (hpid : message.pid = m.mover) (hfree : m.columns i j = .unselected)
    (hunnoticed : ¬ Noticed (m.marked i j).columns m.moverMark x y)
    (hnotFull : ¬ Full (m.marked i j).columns) :
    Verdict ⟨m, message,
      m.markOutputs x y ++ (switchPlayerTurn (m.marked i j)).2 ++ [.returned true],
      (switchPlayerTurn (m.marked i j)).1⟩ ↔
      GoodMark (m.marked i j).columns m.moverMark x y := by
  obtain ⟨next, hnext⟩ := switchPlayerTurn_fst (m.marked i j)
  have hsame : (switchPlayerTurn (m.marked i j)).1.columns = (m.marked i j).columns := by
    rw [hnext]
  have hrunning' : (switchPlayerTurn (m.marked i j)).1.gameEnded = false := by
    rw [hnext]
    exact hrunning
  by_cases hline : HasLine (m.marked i j).columns
  · refine iff_of_false ?_ ?_
    · intro hverdict
      rw [hverdict.ended.mpr (.inl (by rw [hsame]; exact hline))] at hrunning'
      cases hrunning'
    · rintro ⟨hnoticed, -⟩
      exact (hnoticed hline).elim hunnoticed hnotFull
  · refine iff_of_true ?_ ⟨fun hnow => absurd hnow hline, fun hnow => absurd hnow hnotFull⟩
    refine ⟨continuedOutputs_noThrow _, h.marksFree hrunning hfree rfl hpid hsame, ?_, ?_, ?_⟩
    · rw [hrunning', hsame]
      exact iff_of_false Bool.false_ne_true (not_or.mpr ⟨hline, hnotFull⟩)
    · intro pid
      refine iff_of_false (not_mem_continuedOutputs _ (.inl rfl)) ?_
      rintro ⟨⟨-, hcompleted⟩, -⟩
      exact hline (hsame ▸ hcompleted)
    · intro pid
      refine iff_of_false (not_mem_continuedOutputs _ (.inr rfl)) ?_
      rintro ⟨⟨-, hcompleted⟩, -⟩
      exact hline (hsame ▸ hcompleted)

theorem Marked.verdict_iff {out : List GameOutput} {m' : GameModel} (h : Sound m)
    (hrunning : m.gameEnded = false) (hpid : message.pid = m.mover)
    (hfree : m.columns i j = .unselected) (hmarked : Marked m i j x y out m') :
    Verdict ⟨m, message, out ++ [.returned true], m'⟩ ↔
      GoodMark (setCell m.columns i j m.moverMark) m.moverMark x y := by
  obtain ⟨hcolumns, -, hfull, -⟩ := h.marked hrunning hfree
  rw [← hcolumns]
  cases hmarked with
  | ended signal hsignal hreason =>
      rw [h.playerMark hrunning, ← hfull] at hreason
      exact h.ended_verdict_iff hrunning hpid hfree hsignal hreason
  | continues hunnoticed hmore =>
      rw [h.playerMark hrunning] at hunnoticed
      exact h.continued_verdict_iff hrunning hpid hfree hunnoticed (mt hfull.mp hmore)

theorem Received.verdict_iff (h : Sound st.pre)
    (hreceived : Received st.pre st.label st.out st.post) :
    Verdict st ↔ GoodMessage st.pre st.label := by
  obtain ⟨m, message, out, m'⟩ := st
  cases hreceived with
  | threw e hbad => exact iff_of_false (fun hverdict => hverdict.noThrow e (by simp)) hbad
  | ignored handled hgood =>
      refine iff_of_true ⟨by simp, .inl rfl, h.gameEnded, ?_, ?_⟩ hgood
      · intro pid
        simp [Completes]
      · intro pid
        simp [Completes]
  | marked hrunning hpid hfree hmarked hgood =>
      rw [hgood]
      exact hmarked.verdict_iff h hrunning hpid hfree

theorem Marked.sound {out : List GameOutput} {m' : GameModel} (h : Sound m)
    (hrunning : m.gameEnded = false) (hfree : m.columns i j = .unselected)
    (hmarked : Marked m i j x y out m')
    (hended : m'.gameEnded = true ↔ HasLine m'.columns ∨ Full m'.columns) : Sound m' := by
  obtain ⟨-, hcount, -, hturn⟩ := h.marked hrunning hfree
  cases hmarked with
  | ended signal _ _ => exact ⟨h.distinct, hcount, nofun, hended, rfl⟩
  | continues _ _ =>
      obtain ⟨next, hnext⟩ := switchPlayerTurn_fst (m.marked i j)
      rw [hnext] at hturn hended ⊢
      exact ⟨h.distinct, hcount, fun _ => hturn, hended, h.enableTurns⟩

theorem Received.sound {out : List GameOutput} {m' : GameModel} (h : Sound m)
    (hreceived : Received m message out m')
    (hended : m'.gameEnded = true ↔ HasLine m'.columns ∨ Full m'.columns) : Sound m' := by
  cases hreceived with
  | threw e _ => exact h
  | ignored handled _ => exact h
  | marked hrunning _ hfree hmarked _ => exact hmarked.sound h hrunning hfree hended

end Steps

section Runs

variable {player1ID player2ID : Int} {history : List GameStep} {m : GameModel}

theorem markCount_unselected : markCount (fun _ _ => .unselected) = 0 := by
  simp [markCount]

theorem initGame_sound (hplayers : player1ID ≠ player2ID) :
    Sound (initGame player1ID player2ID).enableTurns' := by
  refine ⟨hplayers, markCount_unselected.symm, ?_, ?_, rfl⟩
  · intro _
    have heven : markCount (initGame player1ID player2ID).enableTurns'.columns % 2 = 0 := by
      exact congrArg (· % 2) markCount_unselected
    rw [mover, if_pos heven]
    rfl
  · refine iff_of_false Bool.false_ne_true (not_or.mpr ⟨?_, ?_⟩)
    · simp [HasLine, LineOf, initGame, enableTurns']
    · exact @not_full _ 0 0 rfl

/-- A game ends with the verdict of its board as long as the messages are good. -/
theorem game_verdict_iff (hplayers : player1ID ≠ player2ID)
    (h : Execution (machine player1ID player2ID) history m) :
    (∀ st ∈ history, Verdict st) ↔ ∀ st ∈ history, GoodMessage st.pre st.label := by
  rw [← Execution.eachStep_const, ← Execution.eachStep_const]
  refine Execution.eachStep_iff_of_invariant (I := fun _ m => Sound m) ?_ ?_ ?_ h
  · exact initGame_sound hplayers
  · intro older m m' message out hsound hstep
    obtain ⟨rfl, rfl⟩ := Action.machine_step hstep
    exact @Received.verdict_iff ⟨m, message, _, _⟩ hsound (handle_received hsound message)
  · intro older m m' message out hsound hstep hverdict
    obtain ⟨rfl, rfl⟩ := Action.machine_step hstep
    exact (handle_received hsound message).sound hsound hverdict.ended

end Runs

def selectCell (pid : Int) (x y : Nat) : PlayerMessage where
  pid := pid
  js := .object [("action", .string "SelectCell"), ("x", .number (toString x)),
    ("y", .number (toString y))]

/-- Nine marks without a line. -/
def drawnGame : List PlayerMessage :=
  [selectCell 7 0 0, selectCell 9 1 1, selectCell 7 2 0, selectCell 9 1 0, selectCell 7 1 2,
    selectCell 9 0 2, selectCell 7 0 1, selectCell 9 2 1, selectCell 7 2 2]

def toldCount (pid : Int) (state : String) (out : List GameOutput) : Nat :=
  out.countP fun output =>
    match output with
    | .sendPlayerMessage pid' (.moveToState state') => pid' == pid && state' == state
    | _ => false

/-- The player who fills the board is told that he has won. -/
theorem verdict_drawnGame :
    let run := Action.trace (initGame 7 9).enableTurns' handle drawnGame
    Full run.2.columns ∧ ¬ HasLine run.2.columns ∧
      toldCount 7 "END_GAME_WINNER" (outputs run.1) = 1 ∧ ¬ ∀ st ∈ run.1, Verdict st := by
  have hnoLine : ¬ HasLine
      (Action.trace (initGame 7 9).enableTurns' handle drawnGame).2.columns := by
    decide +kernel
  refine ⟨by decide +kernel, hnoLine, by decide +kernel, ?_⟩
  intro hall
  have hverdict := hall _ List.mem_cons_self
  have hwinner := (hverdict.winner 7).mp (List.mem_iff_getElem?.mpr ⟨3, by rfl⟩)
  exact hnoLine hwinner.1.2

theorem goodMessage_selectCell {m : GameModel} {pid : Int} {x y : Nat} (i j : Fin 3)
    (hx : x = i.val) (hcell : lookUp (.number (toString x)) (.number (toString y)) =
      .ok (some (i, j)))
    (hfree : m.columns i j = .unselected)
    (hline : HasLine (setCell m.columns i j m.moverMark) →
      ∀ k, setCell m.columns i j m.moverMark i k = m.moverMark)
    (hfull : ¬ Full (setCell m.columns i j m.moverMark)) :
    GoodMessage m (selectCell pid x y) := by
  refine ⟨true, rfl, nofun, fun _ _ _ _ _ => ⟨some (i, j), hcell, ?_, ?_⟩⟩
  · intro hselected
    exact absurd hfree (hselected i j rfl)
  · rintro _ _ ⟨⟩ _
    refine ⟨?_, fun hnow => absurd hnow hfull⟩
    intro hhas
    subst hx
    exact .inl (.inr (.inl ⟨i, rfl, hline hhas⟩))

/-- The first player completes a column. -/
def wonGame : List PlayerMessage :=
  [selectCell 7 0 0, selectCell 9 1 1, selectCell 7 0 1, selectCell 9 1 0, selectCell 7 0 2]

theorem game_verdict_iff_wonGame :
    let run := Action.trace (initGame 7 9).enableTurns' handle wonGame
    toldCount 7 "END_GAME_WINNER" (outputs run.1) = 1 ∧ ∀ st ∈ run.1, Verdict st := by
  refine ⟨by decide +kernel, (game_verdict_iff (by decide)
    (Action.trace_execution _ handle wonGame)).mpr ?_⟩
  have hgood {m : GameModel} {pid : Int} {x y : Nat} {out : List GameOutput} {m' : GameModel}
      (i j : Fin 3) (hx : x = i.val)
      (hcell : lookUp (.number (toString x)) (.number (toString y)) = .ok (some (i, j)))
      (hfree : m.columns i j = .unselected)
      (hline : HasLine (setCell m.columns i j m.moverMark) →
        ∀ k, setCell m.columns i j m.moverMark i k = m.moverMark)
      (hfull : ¬ Full (setCell m.columns i j m.moverMark)) :
      let st : Step GameModel PlayerMessage GameOutput := ⟨m, selectCell pid x y, out, m'⟩
      GoodMessage st.pre st.label := goodMessage_selectCell i j hx hcell hfree hline hfull
  refine List.forall_mem_cons.mpr ⟨hgood 0 2 rfl rfl rfl ?_ ?_,
    List.forall_mem_cons.mpr ⟨hgood 1 0 rfl rfl rfl ?_ ?_,
      List.forall_mem_cons.mpr ⟨hgood 0 1 rfl rfl rfl ?_ ?_,
        List.forall_mem_cons.mpr ⟨hgood 1 1 rfl rfl rfl ?_ ?_,
          List.forall_mem_cons.mpr ⟨hgood 0 0 rfl rfl rfl ?_ ?_, nofun⟩⟩⟩⟩⟩
  all_goals decide +kernel

end GBerry.Games.TicTacToe.GameModel
