import GBerry.Games.TicTacToe.Window.Joining

/-!
# The game is played

The view of the game is shown when the second player has slid in, and turns are enabled
when it has faded in.  Then a selected cell is marked on both phones, and it is the turn
of the other player unless the game ends.
-/

namespace GBerry.Games.TicTacToe.Window

open GBerry.Common
open GBerry.Foundation
open AppBox (boardview coordinate unmarked)
open GameModel (setCell marked markOutputs Marked IsSignal)
open Phone (receive)
open Party (sentTo)

variable {w w' : Window} {out : List GameOutput} {pid other player1 player2 : Int}
  {box : AppBox} {game game' : GameModel} {states : List String} {state : String}

section Starting

theorem sentTo_pair (hne : player1 ≠ player2) (msg1 msg2 : PhoneMessage) :
    sentTo pid [.sendPlayerMessage player1 msg1, .sendPlayerMessage player2 msg2] =
      if pid = player1 then [msg1] else if pid = player2 then [msg2] else [] := by
  rw [← List.singleton_append, sentTo_append, sentTo_player, sentTo_player]
  by_cases hfirst : pid = player1
  · rw [if_pos hfirst.symm, if_pos hfirst, if_neg (hfirst ▸ hne.symm), List.append_nil]
  · rw [if_neg (Ne.symm hfirst), if_neg hfirst, List.nil_append]
    simp only [eq_comm]

theorem ShowsOneOf.moveToState {cells : Fin 3 → Fin 3 → Bool} {states' : List String}
    (h : ShowsOneOf box states cells) (hvisible : (boardview box.state).visible = true)
    (hstate : state ∈ states') : ShowsOneOf (box.moveToState state) states' cells := by
  refine ⟨hstate, fun _ => ?_⟩
  simp only [AppBox.moveToState, hvisible, Bool.not_true, Bool.false_and, Bool.false_eq_true,
    if_false]
  exact h.marked hvisible

theorem hidden_of_spectator (hstate : box.state ∈ spectatorStates) :
    (boardview box.state).visible = false := by
  have hstates : ∀ state ∈ spectatorStates, (boardview state).visible = false := by decide
  exact hstates _ hstate

theorem gameStates_spectator (hfirst : pid ≠ game.player1ID) (hsecond : pid ≠ game.player2ID) :
    gameStates game pid = spectatorStates := by
  rw [gameStates, if_neg (not_or.mpr ⟨hfirst, hsecond⟩)]

theorem slideFinished_both {first second : Player} (hmainarea : w.mainarea = .WAITING_PLAYERS)
    (hsliding : w.secondPlayerSliding = true) (hvisible : w.showsFirstPlayerBox = true)
    (hfirst : w.joined.player1 = some first) (hsecond : w.joined.player2 = some second) :
    slideFinished w =
      ({ w with
          secondPlayerSliding := false
          mainarea := .GAME
          joinview := w.joinview.enterGame
          players := w.joined
          game := some (.initGame first.id second.id)
          fadingIn := true },
        [.sendPlayerMessage first.id (Window.moveToState "PLAY_GAME_MY_TURN"),
          .sendPlayerMessage second.id (Window.moveToState "PLAY_GAME_WAIT_TURN")]) := by
  simp only [slideFinished, hsliding, hvisible, if_true, onSecondPlayerJoinedAnimationFinished,
    Action.andThen, toGame, Action.modify, hmainarea]
  simp [playerID, hfirst, hsecond, sendPlayerMessage, Action.emit]

/-- What the animation of the second name box finds when it finishes. -/
theorem Good.slide_cases (h : w.Good)
    (hboth : w.secondPlayerSliding = true → w.showsFirstPlayerBox = true →
      w.joined.player2.isSome = true) :
    slideFinished w = ({ w with secondPlayerSliding := false }, []) ∨
      w.mainarea = .WAITING_PLAYERS ∧ w.secondPlayerSliding = true ∧
        w.showsFirstPlayerBox = true ∧
        ∃ first second, w.joined.player1 = some first ∧ w.joined.player2 = some second := by
  by_cases hsliding : w.secondPlayerSliding = true
  · by_cases hvisible : w.showsFirstPlayerBox = true
    · right
      have hplayer2 := hboth hsliding hvisible
      obtain ⟨first, hfirst⟩ := Option.isSome_iff_exists.mp (h.second hplayer2)
      obtain ⟨second, hsecond⟩ := Option.isSome_iff_exists.mp hplayer2
      refine ⟨?_, hsliding, hvisible, first, second, hfirst, hsecond⟩
      cases hmainarea : w.mainarea with
      | WAITING_PLAYERS => rfl
      | GAME =>
          rw [(h.full hmainarea).2] at hsliding
          cases hsliding
    · left
      simp only [slideFinished, hsliding, hvisible, if_true, Bool.false_eq_true, if_false]
  · left
    rw [Bool.not_eq_true] at hsliding
    simp only [slideFinished, hsliding, Bool.false_eq_true, if_false]
    rw [← hsliding]

theorem slideFinished_follows (h : w.Good)
    (hboth : w.secondPlayerSliding = true → w.showsFirstPlayerBox = true →
      w.joined.player2.isSome = true) :
    Follows w (slideFinished w).1 (slideFinished w).2 := by
  rcases h.slide_cases hboth with
    hsame | ⟨hmainarea, hsliding, hvisible, first, second, hfirst, hsecond⟩
  · rw [hsame]
    exact Follows.same rfl rfl rfl
  · rw [slideFinished_both hmainarea hsliding hvisible hfirst hsecond]
    intro pid box hshows
    rw [shows_waiting hmainarea, waitingStates, hfirst, hsecond] at hshows
    have hne := h.distinct first second hfirst hsecond
    have hunmarked : marks (.initGame first.id second.id) = unmarked := rfl
    rw [sentTo_pair hne]
    by_cases hplayer : pid = first.id ∨ pid = second.id
    · simp only [hplayer, if_true] at hshows
      have hstate := List.mem_singleton.mp hshows.state
      have hboard : (boardview box.state).visible = true := by
        rw [hstate]
        decide
      rcases hplayer with rfl | rfl
      · refine ⟨box.moveToState "PLAY_GAME_MY_TURN", by rw [if_pos rfl]; rfl, ?_⟩
        apply (shows_game rfl rfl).mpr
        rw [hunmarked]
        apply hshows.moveToState hboard
        simp [gameStates, GameModel.initGame, turnState]
      · refine ⟨box.moveToState "PLAY_GAME_WAIT_TURN", ?_, ?_⟩
        · rw [if_neg hne.symm, if_pos rfl]
          rfl
        apply (shows_game rfl rfl).mpr
        rw [hunmarked]
        apply hshows.moveToState hboard
        simp [gameStates, GameModel.initGame, turnState, hne.symm]
    · simp only [hplayer, if_false] at hshows
      rw [not_or] at hplayer
      refine ⟨box, by rw [if_neg hplayer.1, if_neg hplayer.2]; rfl, ?_⟩
      apply (shows_game rfl rfl).mpr
      rw [gameStates_spectator hplayer.1 hplayer.2]
      exact hshows

theorem Playing.of_same (h : w.Playing game)
    (hfading : w'.fadingIn = true → w.fadingIn = true) (hplayers : w'.players = w.players)
    (hnames : ∀ pid, w.isPlaying pid = true → pid ∈ w.playerNames → pid ∈ w'.playerNames) :
    w'.Playing game := by
  have hisPlaying (pid : Int) : w'.isPlaying pid = w.isPlaying pid := by
    rw [isPlaying, isPlaying, hplayers]
  constructor
  case distinct => exact h.distinct
  case currentPlayer => exact h.currentPlayer
  case ended => exact h.ended
  case fading => exact fun hnow => h.fading (hfading hnow)
  case players =>
    intro hrunning pid
    rw [hisPlaying]
    exact h.players hrunning pid
  case present =>
    intro hrunning pid hplaying
    rw [hisPlaying] at hplaying
    exact hnames pid hplaying (h.present hrunning pid hplaying)

theorem hasJoined_iff {joined : Players} {first second : Player}
    (hfirst : joined.player1 = some first) (hsecond : joined.player2 = some second) :
    PlayerWaitingModel.hasJoined joined pid = true ↔ pid = first.id ∨ pid = second.id := by
  rw [PlayerWaitingModel.hasJoined, isPlayer, isPlayer, hfirst, hsecond, Option.any_some,
    Option.any_some, Bool.or_eq_true, decide_eq_true_iff, decide_eq_true_iff, eq_comm,
    eq_comm (a := second.id)]

theorem slideFinished_good (h : w.Good)
    (hboth : w.secondPlayerSliding = true → w.showsFirstPlayerBox = true →
      w.joined.player2.isSome = true) : (slideFinished w).1.Good := by
  rcases h.slide_cases hboth with
    hsame | ⟨hmainarea, hsliding, hvisible, first, second, hfirst, hsecond⟩
  · rw [hsame]
    have hfull : w.mainarea = .GAME → w.joined.player2.isSome = true ∧ false = false :=
      fun hgame => ⟨(h.full hgame).1, rfl⟩
    have hgame : w.mainarea = .GAME → ∃ game, w.game = some game ∧
        ({ w with secondPlayerSliding := false } : Window).Playing game := by
      intro hmainarea
      obtain ⟨game, hgame, hplaying⟩ := h.game hmainarea
      exact ⟨game, hgame, hplaying.of_same id rfl fun _ _ => id⟩
    exact ⟨h.second, h.distinct, h.nameBox, h.ended, h.present, h.waiting, hfull, hgame⟩
  · rw [slideFinished_both hmainarea hsliding hvisible hfirst hsecond]
    have hplaying : ({ w with
        secondPlayerSliding := false
        mainarea := .GAME
        joinview := w.joinview.enterGame
        players := w.joined
        game := some (.initGame first.id second.id)
        fadingIn := true } : Window).Playing (.initGame first.id second.id) := by
      constructor
      case distinct => exact h.distinct first second hfirst hsecond
      case currentPlayer => exact .inl rfl
      case ended => exact fun hended => by cases hended
      case fading => exact fun _ => ⟨rfl, rfl⟩
      case players => exact fun _ pid => hasJoined_iff hfirst hsecond
      case present => exact fun _ => h.present hmainarea
    constructor
    case second => exact h.second
    case distinct => exact h.distinct
    case nameBox => exact h.nameBox
    case ended =>
      intro game hgame hended
      cases hgame
      cases hended
    case present => exact fun hwaiting => by cases hwaiting
    case waiting => exact fun hwaiting => by cases hwaiting
    case full => exact fun _ => ⟨Option.isSome_iff_exists.mpr ⟨second, hsecond⟩, rfl⟩
    case game => exact fun _ => ⟨_, rfl, hplaying⟩

theorem enableTurns_follows (w : Window) (fadingIn : Bool) :
    Follows w { w.enableTurns with fadingIn := fadingIn } [] := by
  intro pid box hshows
  refine ⟨box, rfl, ?_⟩
  unfold Shows at *
  unfold enableTurns
  cases hmainarea : w.mainarea with
  | WAITING_PLAYERS =>
      rw [hmainarea] at hshows
      exact hshows
  | GAME =>
      rw [hmainarea] at hshows
      cases hgame : w.game with
      | none =>
          rw [hgame] at hshows
          exact hshows.elim
      | some game =>
          rw [hgame] at hshows
          exact hshows

theorem fadeFinished_follows (w : Window) :
    Follows w (fadeFinished w).1 (fadeFinished w).2 := by
  by_cases hfading : w.fadingIn = true
  · simp only [fadeFinished, Action.modify, hfading, if_true]
    exact enableTurns_follows w false
  · simp only [fadeFinished, Action.modify, hfading, Bool.false_eq_true, if_false]
    exact .refl w

theorem fadeFinished_good (h : w.Good) : (fadeFinished w).1.Good := by
  by_cases hfading : w.fadingIn = true
  · simp only [fadeFinished, Action.modify, hfading, if_true]
    constructor
    case second => exact h.second
    case distinct => exact h.distinct
    case nameBox => exact h.nameBox
    case ended =>
      intro game hgame hended
      obtain ⟨old, hold, rfl⟩ := Option.map_eq_some_iff.mp hgame
      exact h.ended old hold hended
    case present => exact h.present
    case waiting => exact fun _ => rfl
    case full => exact h.full
    case game =>
      intro hmainarea
      obtain ⟨game, hgame, hplaying⟩ := h.game hmainarea
      have hrunning : game.gameEnded = false := (hplaying.fading hfading).2
      refine ⟨game.enableTurns', by simp [enableTurns, hgame], ?_⟩
      constructor
      case distinct => exact hplaying.distinct
      case currentPlayer => exact hplaying.currentPlayer
      case ended =>
        intro hended
        cases hrunning.symm.trans hended
      case fading => exact fun hfading => by cases hfading
      case players => exact hplaying.players
      case present => exact hplaying.present
  · simp only [fadeFinished, Action.modify, hfading, Bool.false_eq_true, if_false]
    exact h

end Starting

section Selecting

def cellMessages (game : GameModel) (x y : JsValue) (state1 state2 : String) :
    List WindowOutput :=
  [.sendPlayerMessage game.player1ID (.AppBoxMessage (.markCell x y)),
    .sendPlayerMessage game.player2ID (.AppBoxMessage (.markCell x y)),
    .sendPlayerMessage game.player1ID (Window.moveToState state1),
    .sendPlayerMessage game.player2ID (Window.moveToState state2)]

structure NextMove (game : GameModel) (i j : Fin 3) (game' : GameModel)
    (state1 state2 : String) : Prop where
  player1ID : game'.player1ID = game.player1ID
  player2ID : game'.player2ID = game.player2ID
  columns : game'.columns = (game.marked i j).columns
  currentPlayer : game'.currentPlayer = game.player1ID ∨ game'.currentPlayer = game.player2ID
  enableTurns : game'.gameEnded = true → game'.enableTurns = false
  state1 : state1 ∈ gameStates game' game.player1ID
  state2 : state2 ∈ gameStates game' game.player2ID

variable {i j : Fin 3} {x y : JsValue}

theorem gameStates_ended (hended : game.gameEnded = true)
    (hplayer : pid = game.player1ID ∨ pid = game.player2ID) :
    gameStates game pid = [endState game pid, "WAIT_GAME"] := by
  rw [gameStates, if_pos hplayer, if_pos hended]

theorem gameStates_running (hrunning : game.gameEnded = false)
    (hplayer : pid = game.player1ID ∨ pid = game.player2ID) :
    gameStates game pid = [turnState game pid] := by
  rw [gameStates, if_pos hplayer, hrunning, if_neg Bool.false_ne_true]

theorem filterMap_markOutputs (game : GameModel) (x y : JsValue) :
    (game.markOutputs x y).filterMap windowOutput =
      [.sendPlayerMessage game.player1ID (.AppBoxMessage (.markCell x y)),
        .sendPlayerMessage game.player2ID (.AppBoxMessage (.markCell x y))] := rfl

theorem windowOutput_signal {signal : GameOutput} (h : IsSignal signal) :
    windowOutput signal = none := by
  cases signal with
  | sendPlayerMessage pid msg => exact h.elim
  | _ => rfl

theorem nextMove_ended (hne : game.player1ID ≠ game.player2ID)
    (hcurrent : game.currentPlayer = game.player1ID ∨ game.currentPlayer = game.player2ID)
    {signal : GameOutput} (hsignal : IsSignal signal) (x y : JsValue) :
    ∃ state1 state2,
      (game.markOutputs x y ++ (game.sendEndGameMessages ++ [signal])).filterMap windowOutput =
          cellMessages game x y state1 state2 ∧
        NextMove game i j { game.marked i j with gameEnded := true, enableTurns := false }
          state1 state2 := by
  have hfirst : gameStates { game.marked i j with gameEnded := true, enableTurns := false }
      game.player1ID = [endState game game.player1ID, "WAIT_GAME"] :=
    gameStates_ended rfl (.inl rfl)
  have hsecond : gameStates { game.marked i j with gameEnded := true, enableTurns := false }
      game.player2ID = [endState game game.player2ID, "WAIT_GAME"] :=
    gameStates_ended rfl (.inr rfl)
  refine ⟨endState game game.player1ID, endState game game.player2ID, ?_, ?_⟩
  · rw [List.filterMap_append, List.filterMap_append, filterMap_markOutputs]
    have hnone : [signal].filterMap windowOutput = [] := by simp [windowOutput_signal hsignal]
    rw [hnone, List.append_nil]
    unfold GameModel.sendEndGameMessages GameModel.playerNumber cellMessages endState
    rcases hcurrent with heq | heq
    · rw [if_pos heq, if_pos rfl, if_pos heq.symm, if_neg (by rw [heq]; exact hne.symm)]
      rfl
    · have hother : game.currentPlayer ≠ game.player1ID := by
        rw [heq]
        exact hne.symm
      rw [if_neg hother, if_neg (by decide), if_neg hother.symm, if_pos heq.symm]
      rfl
  · constructor
    case player1ID => rfl
    case player2ID => rfl
    case columns => rfl
    case currentPlayer => exact hcurrent
    case enableTurns => exact fun _ => rfl
    case state1 =>
      rw [hfirst]
      exact List.mem_cons_self
    case state2 =>
      rw [hsecond]
      exact List.mem_cons_self

theorem nextMove_continues (hne : game.player1ID ≠ game.player2ID)
    (hrunning : game.gameEnded = false) (x y : JsValue) :
    ∃ state1 state2,
      (game.markOutputs x y ++ (GameModel.switchPlayerTurn (game.marked i j)).2).filterMap
          windowOutput = cellMessages game x y state1 state2 ∧
        NextMove game i j (GameModel.switchPlayerTurn (game.marked i j)).1 state1 state2 := by
  have hended {next : Int} :
      ({ game.marked i j with currentPlayer := next } : GameModel).gameEnded = false := hrunning
  have hfirst {next : Int} : gameStates { game.marked i j with currentPlayer := next }
      game.player1ID = [if game.player1ID = next then "PLAY_GAME_MY_TURN"
        else "PLAY_GAME_WAIT_TURN"] := gameStates_running hended (.inl rfl)
  have hsecond {next : Int} : gameStates { game.marked i j with currentPlayer := next }
      game.player2ID = [if game.player2ID = next then "PLAY_GAME_MY_TURN"
        else "PLAY_GAME_WAIT_TURN"] := gameStates_running hended (.inr rfl)
  rw [List.filterMap_append, filterMap_markOutputs]
  by_cases hturn : game.currentPlayer = game.player1ID
  · have hswitch : GameModel.switchPlayerTurn (game.marked i j) =
        ({ game.marked i j with currentPlayer := game.player2ID }, [.turnSwitched 2,
          .sendPlayerMessage game.player1ID (.moveToState "PLAY_GAME_WAIT_TURN"),
          .sendPlayerMessage game.player2ID (.moveToState "PLAY_GAME_MY_TURN")]) := if_pos hturn
    rw [hswitch]
    refine ⟨"PLAY_GAME_WAIT_TURN", "PLAY_GAME_MY_TURN", rfl, rfl, rfl, rfl, .inr rfl, ?_, ?_, ?_⟩
    · intro htrue
      cases hrunning.symm.trans htrue
    · rw [hfirst, if_neg hne]
      exact List.mem_singleton_self _
    · rw [hsecond, if_pos rfl]
      exact List.mem_singleton_self _
  · have hswitch : GameModel.switchPlayerTurn (game.marked i j) =
        ({ game.marked i j with currentPlayer := game.player1ID }, [.turnSwitched 1,
          .sendPlayerMessage game.player1ID (.moveToState "PLAY_GAME_MY_TURN"),
          .sendPlayerMessage game.player2ID (.moveToState "PLAY_GAME_WAIT_TURN")]) :=
      if_neg hturn
    rw [hswitch]
    refine ⟨"PLAY_GAME_MY_TURN", "PLAY_GAME_WAIT_TURN", rfl, rfl, rfl, rfl, .inl rfl, ?_, ?_, ?_⟩
    · intro htrue
      cases hrunning.symm.trans htrue
    · rw [hfirst, if_pos rfl]
      exact List.mem_singleton_self _
    · rw [hsecond, if_neg hne.symm]
      exact List.mem_singleton_self _

theorem nextMove_of_marked (hne : game.player1ID ≠ game.player2ID)
    (hcurrent : game.currentPlayer = game.player1ID ∨ game.currentPlayer = game.player2ID)
    (hrunning : game.gameEnded = false) (hmarked : Marked game i j x y out game') :
    ∃ state1 state2, out.filterMap windowOutput = cellMessages game x y state1 state2 ∧
      NextMove game i j game' state1 state2 := by
  cases hmarked with
  | ended signal hsignal _ => exact nextMove_ended hne hcurrent hsignal x y
  | continues _ _ => exact nextMove_continues hne hrunning x y

theorem playerMark_ne (game : GameModel) : game.playerMark ≠ .unselected := by
  unfold GameModel.playerMark
  split <;> decide

theorem strictEquals_coordinate (i j : Fin 3) :
    (coordinate i).strictEquals (coordinate j) = decide (i = j) := by
  revert i j
  decide

theorem marks_marked (hcolumns : game'.columns = (game.marked i j).columns)
    (hmarked : box.marked = marks game) :
    (box.markCell (coordinate i) (coordinate j)).marked = marks game' := by
  funext i' j'
  have hcell : (box.markCell (coordinate i) (coordinate j)).marked i' j' =
      (box.marked i' j' || decide (i' = i) && decide (j' = j)) := by
    simp only [AppBox.markCell, strictEquals_coordinate]
  have hset : game'.columns i' j' =
      if i' = i ∧ j' = j then game.playerMark else game.columns i' j' := by
    rw [hcolumns]
    rfl
  rw [hcell, hmarked, marks, marks, hset, ← Bool.decide_and]
  by_cases hsame : i' = i ∧ j' = j
  · simp [hsame, playerMark_ne]
  · rw [if_neg hsame, decide_eq_false hsame, Bool.or_false]

def played (w : Window) (game' : GameModel) : Window :=
  { w with
    game := some game'
    players := if game'.gameEnded then .undefined else w.players }

theorem sentTo_cellMessages (hne : game.player1ID ≠ game.player2ID) {state1 state2 : String} :
    sentTo pid (cellMessages game x y state1 state2) =
      if pid = game.player1ID then
        [.AppBoxMessage (.markCell x y), Window.moveToState state1]
      else if pid = game.player2ID then
        [.AppBoxMessage (.markCell x y), Window.moveToState state2]
      else [] := by
  have hsplit : cellMessages game x y state1 state2 =
      [.sendPlayerMessage game.player1ID (.AppBoxMessage (.markCell x y)),
        .sendPlayerMessage game.player2ID (.AppBoxMessage (.markCell x y))] ++
      [.sendPlayerMessage game.player1ID (Window.moveToState state1),
        .sendPlayerMessage game.player2ID (Window.moveToState state2)] := rfl
  rw [hsplit, sentTo_append, sentTo_pair hne, sentTo_pair hne]
  split
  · rfl
  · split <;> rfl

theorem showsOneOf_played {states' : List String}
    (hcolumns : game'.columns = (game.marked i j).columns)
    (h : ShowsOneOf box [turnState game pid] (marks game)) (hstate : state ∈ states') :
    ShowsOneOf ((box.markCell (coordinate i) (coordinate j)).moveToState state) states'
      (marks game') := by
  have hboard : (boardview box.state).visible = true := by
    rw [List.mem_singleton.mp h.state, turnState]
    split <;> decide
  have hcell : ShowsOneOf (box.markCell (coordinate i) (coordinate j)) [turnState game pid]
      (marks game') := ⟨h.state, fun hvisible => marks_marked hcolumns (h.marked hvisible)⟩
  exact hcell.moveToState hboard hstate

theorem played_follows (hmainarea : w.mainarea = .GAME) (hgame : w.game = some game)
    (hplaying : w.Playing game) (hrunning : game.gameEnded = false) {state1 state2 : String}
    (hnext : NextMove game i j game' state1 state2) :
    Follows w (w.played game')
      (cellMessages game (coordinate i) (coordinate j) state1 state2) := by
  intro pid box hshows
  rw [shows_game hmainarea hgame] at hshows
  have hplayed : (w.played game').game = some game' := rfl
  rw [sentTo_cellMessages hplaying.distinct]
  by_cases hfirst : pid = game.player1ID
  · rw [if_pos hfirst]
    rw [gameStates_running hrunning (.inl hfirst)] at hshows
    refine ⟨_, rfl, (shows_game (w := w.played game') hmainarea hplayed).mpr ?_⟩
    exact showsOneOf_played hnext.columns hshows (hfirst ▸ hnext.state1)
  · rw [if_neg hfirst]
    by_cases hsecond : pid = game.player2ID
    · rw [if_pos hsecond]
      rw [gameStates_running hrunning (.inr hsecond)] at hshows
      refine ⟨_, rfl, (shows_game (w := w.played game') hmainarea hplayed).mpr ?_⟩
      exact showsOneOf_played hnext.columns hshows (hsecond ▸ hnext.state2)
    · rw [if_neg hsecond]
      rw [gameStates_spectator hfirst hsecond] at hshows
      refine ⟨box, rfl, (shows_game (w := w.played game') hmainarea hplayed).mpr ?_⟩
      rw [gameStates_spectator (hnext.player1ID ▸ hfirst) (hnext.player2ID ▸ hsecond)]
      exact showsOneOf_of_hidden hshows.state (hidden_of_spectator hshows.state)

theorem played_playing (hplaying : w.Playing game) (hrunning : game.gameEnded = false)
    (hfading : w.fadingIn = false) {state1 state2 : String}
    (hnext : NextMove game i j game' state1 state2) : (w.played game').Playing game' := by
  have hisPlaying (hrunning' : game'.gameEnded = false) (pid : Int) :
      (w.played game').isPlaying pid = w.isPlaying pid := by
    simp [isPlaying, played, hrunning']
  constructor
  case distinct =>
    rw [hnext.player1ID, hnext.player2ID]
    exact hplaying.distinct
  case currentPlayer =>
    rw [hnext.player1ID, hnext.player2ID]
    exact hnext.currentPlayer
  case ended => exact hnext.enableTurns
  case fading => exact fun hnow => by cases hfading.symm.trans hnow
  case players =>
    intro hrunning' pid
    rw [hisPlaying hrunning', hnext.player1ID, hnext.player2ID]
    exact hplaying.players hrunning pid
  case present =>
    intro hrunning' pid hnow
    rw [hisPlaying hrunning'] at hnow
    exact hplaying.present hrunning pid hnow

theorem played_good (h : w.Good) (hmainarea : w.mainarea = .GAME)
    (hplaying : (w.played game').Playing game') : (w.played game').Good where
  second := h.second
  distinct := h.distinct
  nameBox := h.nameBox
  ended game hgame hended := by
    cases hgame
    exact if_pos hended
  present hwaiting := by cases hmainarea.symm.trans hwaiting
  waiting := h.waiting
  full := h.full
  game _ := ⟨game', rfl, hplaying⟩

theorem played_same (h : w.Good) (hgame : w.game = some game) : w.played game = w := by
  have hplayers : (if game.gameEnded then .undefined else w.players) = w.players := by
    split
    · exact (h.ended game hgame (by assumption)).symm
    · rfl
  rw [played, hplayers, ← hgame]

end Selecting

end GBerry.Games.TicTacToe.Window
