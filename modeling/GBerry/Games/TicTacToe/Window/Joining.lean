import GBerry.Games.TicTacToe.Window.Views

/-!
# Players join a game

What the window sends while players are waited for, and when the waiting starts over,
keeps the phones up to date.
-/

namespace GBerry.Games.TicTacToe.Window

open GBerry.Common
open GBerry.Foundation
open AppBox (boardview coordinate unmarked)
open Phone (receive)
open Party (sentTo)

variable {w w' w'' : Window} {out out' : List WindowOutput} {pid other : Int} {box : AppBox}
  {msg : PhoneMessage} {game : GameModel}

section Sending

@[simp] theorem sentTo_nil : sentTo pid [] = [] := rfl

@[simp] theorem sentTo_append : sentTo pid (out ++ out') = sentTo pid out ++ sentTo pid out' :=
  List.filterMap_append

@[simp] theorem sentTo_all : sentTo pid [.sendAllPlayersMessage msg] = [msg] := rfl

theorem sentTo_player : sentTo pid [.sendPlayerMessage other msg] =
    if other = pid then [msg] else [] := by
  by_cases heq : other = pid
  · simp [sentTo, heq]
  · simp [sentTo, heq]

theorem Follows.refl (w : Window) : Follows w w [] := fun _ box h => ⟨box, rfl, h⟩

theorem Follows.trans (hfirst : Follows w w' out) (hnext : Follows w' w'' out') :
    Follows w w'' (out ++ out') := by
  intro pid box h
  obtain ⟨middle, hmiddle, hshown⟩ := hfirst pid box h
  obtain ⟨last, hlast, hshows⟩ := hnext pid middle hshown
  exact ⟨last, by rw [sentTo_append, List.foldl_append, hmiddle, hlast], hshows⟩

def Plain : PhoneMessage → Prop
  | .DefineAppBox | .AppBoxMessage _ => False
  | _ => True

theorem receive_plain (h : Plain msg) (appBox : Option AppBox) : receive appBox msg = appBox := by
  cases msg with
  | DefineAppBox => exact h.elim
  | AppBoxMessage data => exact h.elim
  | _ => rfl

theorem follows_plain (h : Plain msg) (w : Window) :
    Follows w w [.sendAllPlayersMessage msg] := by
  intro pid box hshows
  refine ⟨box, ?_, hshows⟩
  rw [sentTo_all, List.foldl_cons, List.foldl_nil, receive_plain h]

theorem Follows.same (hmainarea : w'.mainarea = w.mainarea) (hjoined : w'.joined = w.joined)
    (hgame : w'.game = w.game) : Follows w w' [] := by
  intro pid box h
  refine ⟨box, rfl, ?_⟩
  rw [Shows, hmainarea, hjoined, hgame]
  exact h

end Sending

section Waiting

theorem showsOneOf_of_hidden {states : List String} {marked : Fin 3 → Fin 3 → Bool}
    (hstate : box.state ∈ states) (hhidden : (boardview box.state).visible = false) :
    ShowsOneOf box states marked :=
  ⟨hstate, fun hvisible => by rw [hhidden] at hvisible; cases hvisible⟩

theorem shows_waiting (hmainarea : w.mainarea = .WAITING_PLAYERS) :
    w.Shows pid box ↔ ShowsOneOf box (waitingStates w.joined pid) unmarked := by
  rw [Shows, hmainarea]

theorem shows_game (hmainarea : w.mainarea = .GAME) (hgame : w.game = some game) :
    w.Shows pid box ↔ ShowsOneOf box (gameStates game pid) (marks game) := by
  rw [Shows, hmainarea, hgame]

theorem reset_follows (hmainarea : w.mainarea = .WAITING_PLAYERS) (before : Window) :
    Follows before (resetWaitingPlayersState w).1 (resetWaitingPlayersState w).2 := by
  intro pid box _
  refine ⟨box.moveToState "WAITING_PLAYERS", rfl, ?_⟩
  have hreset : (resetWaitingPlayersState w).1.mainarea = .WAITING_PLAYERS := hmainarea
  apply (shows_waiting hreset).mpr
  have hhidden : (boardview "WAITING_PLAYERS").visible = false := by decide
  exact showsOneOf_of_hidden (List.mem_singleton_self _) hhidden

theorem Good.reset (h : w.Good) (hmainarea : w.mainarea = .WAITING_PLAYERS) :
    (resetWaitingPlayersState w).1.Good where
  second hsome := by cases hsome
  distinct _ _ hsome := by cases hsome
  nameBox := rfl
  ended := h.ended
  present _ _ hjoined := by cases hjoined
  waiting := h.waiting
  full hgame := by cases hmainarea.symm.trans hgame
  game hgame := by cases hmainarea.symm.trans hgame

theorem toWaitingPlayers_good (h : w.Good) : (toWaitingPlayers w).1.Good := by
  unfold toWaitingPlayers
  split
  · exact h
  · have hended : ∀ game, (if w.fadingIn then w.enableTurns else w).game = some game →
        game.gameEnded = true → (if w.fadingIn then w.enableTurns else w).players =
          .undefined := by
      intro game hgame hended
      split at hgame
      · rename_i hfading
        rw [if_pos hfading]
        obtain ⟨old, hold, rfl⟩ := Option.map_eq_some_iff.mp hgame
        exact h.ended old hold hended
      · rename_i hfading
        rw [if_neg hfading]
        exact h.ended game hgame hended
    constructor
    case second => exact fun hsome => by cases hsome
    case distinct => exact fun _ _ hsome => by cases hsome
    case nameBox => rfl
    case ended => exact hended
    case present => exact fun _ _ hjoined => by cases hjoined
    case waiting => exact fun _ => rfl
    case full => exact fun hgame => by cases hgame
    case game => exact fun hgame => by cases hgame

theorem toWaitingPlayers_follows (w : Window) :
    Follows w (toWaitingPlayers w).1 (toWaitingPlayers w).2 := by
  unfold toWaitingPlayers
  split
  · exact .refl w
  · exact reset_follows rfl w

theorem feedback_follows {action : WindowAction} (text : String)
    (h : Follows w (action w).1 (action w).2) :
    Follows w ((action.andThen (feedback text)) w).1 ((action.andThen (feedback text)) w).2 := by
  have hplain : Plain (.FeedbackMessage text) := trivial
  exact h.trans (follows_plain hplain _)

end Waiting

section Joining

theorem join_none {name : String} (hplayer1 : w.joined.player1 = none) :
    join (PlayerWaitingModel.joinPlayer pid name) w =
      ({ w with
          joined := { w.joined with player1 := some ⟨pid, name⟩ }
          firstPlayerBoxVisible := true },
        [.sendPlayerMessage pid (moveToState "JOINED_WAITING")]) := by
  simp only [join, PlayerWaitingModel.joinPlayer, hplayer1]
  rfl

theorem join_same {name : String} {player1 : Player} (hplayer1 : w.joined.player1 = some player1)
    (hfull : w.joined.player2.isSome = true ∨ pid = player1.id) :
    join (PlayerWaitingModel.joinPlayer pid name) w = (w, []) := by
  cases hplayer2 : w.joined.player2 with
  | some player2 =>
      simp only [join, PlayerWaitingModel.joinPlayer, hplayer1, hplayer2]
      rfl
  | none =>
      rw [hplayer2] at hfull
      have hsame : pid = player1.id := hfull.resolve_left (by simp)
      simp only [join, PlayerWaitingModel.joinPlayer, hplayer1, hplayer2, hsame, ne_eq,
        not_true_eq_false, if_false]
      rfl

theorem forEach_sendPlayerMessage (msg : PhoneMessage) (pids : List Int) (w : Window) :
    Action.forEach (fun pid => sendPlayerMessage pid msg) pids w =
      (w, pids.map fun pid => .sendPlayerMessage pid msg) := by
  induction pids with
  | nil => rfl
  | cons pid pids ih =>
      have hfirst : sendPlayerMessage pid msg w = (w, [.sendPlayerMessage pid msg]) := rfl
      rw [Action.forEach, Action.andThen, hfirst, ih]
      rfl

theorem join_second {name : String} {player1 : Player}
    (hplayer1 : w.joined.player1 = some player1) (hplayer2 : w.joined.player2 = none)
    (hother : pid ≠ player1.id) :
    join (PlayerWaitingModel.joinPlayer pid name) w =
      ({ w with
          joined := ⟨some player1, some ⟨pid, name⟩⟩
          secondPlayerSliding := true },
        [.sendPlayerMessage player1.id (moveToState "PLAY_GAME_WAIT_TURN"),
          .sendPlayerMessage pid (moveToState "PLAY_GAME_WAIT_TURN")] ++
        (w.otherIds player1.id pid).map (.sendPlayerMessage · (moveToState "WAIT_GAME")) ++
        [.sendAllPlayersMessage abortAction]) := by
  simp only [join, PlayerWaitingModel.joinPlayer, hplayer1, hplayer2, if_pos hother]
  simp only [Action.forEach, onWaitingOutput, joinSecondPlayer,
    onSecondPlayerJoinedAnimationStarted, forEach_sendPlayerMessage, Action.andThen,
    Action.modify, Action.skip, playerID]
  simp [sendPlayerMessage, sendAllPlayersMessage, Action.emit, otherIds]

theorem foldl_waitGame (other : Int) (pids : List Int) (box : AppBox) :
    ∃ box', (sentTo other (pids.map (.sendPlayerMessage · (moveToState "WAIT_GAME")))).foldl
        receive (some box) = some box' ∧
      (box' = box ∨ other ∈ pids ∧ box'.state = "WAIT_GAME") := by
  induction pids generalizing box with
  | nil => exact ⟨box, rfl, .inl rfl⟩
  | cons pid pids ih =>
      rw [List.map_cons, ← List.singleton_append, sentTo_append, sentTo_player,
        List.foldl_append]
      by_cases heq : pid = other
      · subst heq
        rw [if_pos rfl]
        obtain ⟨box', hbox', hstate⟩ := ih (box.moveToState "WAIT_GAME")
        refine ⟨box', hbox', .inr ⟨List.mem_cons_self .., ?_⟩⟩
        rcases hstate with rfl | ⟨-, hstate⟩
        · rfl
        · exact hstate
      · rw [if_neg heq]
        obtain ⟨box', hbox', hstate⟩ := ih box
        exact ⟨box', hbox', hstate.imp_right (And.imp_left (List.mem_cons_of_mem _))⟩

theorem showsOneOf_start {states : List String} {state : String} (hstate : state ∈ states)
    (hhidden : (boardview box.state).visible = false) :
    ShowsOneOf (box.moveToState state) states unmarked := by
  refine ⟨hstate, fun hvisible => ?_⟩
  have hboard : (boardview state).visible = true := hvisible
  simp [AppBox.moveToState, hhidden, hboard]

theorem waitingStates_one {joined : Players} {player1 : Player}
    (hplayer1 : joined.player1 = some player1) (hplayer2 : joined.player2 = none) (pid : Int) :
    waitingStates joined pid =
      if pid = player1.id then ["JOINED_WAITING"] else ["WAITING_PLAYERS"] := by
  rw [waitingStates, hplayer1, hplayer2]

theorem joinFirst_follows (h : w.Good) (hmainarea : w.mainarea = .WAITING_PLAYERS)
    (hplayer1 : w.joined.player1 = none) (pid : Int) (name : String) :
    Follows w (join (PlayerWaitingModel.joinPlayer pid name) w).1
      (join (PlayerWaitingModel.joinPlayer pid name) w).2 := by
  have hplayer2 : w.joined.player2 = none := by
    have hsecond := h.second
    rw [hplayer1] at hsecond
    cases hplayer2 : w.joined.player2 with
    | none => rfl
    | some player2 =>
        rw [hplayer2] at hsecond
        cases hsecond rfl
  rw [join_none hplayer1]
  intro other box hshows
  rw [shows_waiting hmainarea, waitingStates, hplayer1] at hshows
  have hmainarea' : ({ w with
      joined := { w.joined with player1 := some ⟨pid, name⟩ }
      firstPlayerBoxVisible := true } : Window).mainarea = .WAITING_PLAYERS := hmainarea
  have hone : waitingStates { w.joined with player1 := some ⟨pid, name⟩ } other =
      if other = pid then ["JOINED_WAITING"] else ["WAITING_PLAYERS"] :=
    @waitingStates_one { w.joined with player1 := some ⟨pid, name⟩ } ⟨pid, name⟩ rfl hplayer2
      other
  rw [sentTo_player]
  by_cases heq : pid = other
  · refine ⟨box.moveToState "JOINED_WAITING", by rw [if_pos heq]; rfl, ?_⟩
    apply (shows_waiting hmainarea').mpr
    rw [hone, if_pos heq.symm]
    have hhidden : (boardview "JOINED_WAITING").visible = false := by decide
    exact showsOneOf_of_hidden (List.mem_singleton_self _) hhidden
  · refine ⟨box, by rw [if_neg heq]; rfl, ?_⟩
    apply (shows_waiting hmainarea').mpr
    rw [hone, if_neg (Ne.symm heq)]
    exact hshows

theorem waitingStates_one_hidden {joined : Players} {player1 : Player}
    (hplayer1 : joined.player1 = some player1) (hplayer2 : joined.player2 = none)
    (hstate : box.state ∈ waitingStates joined pid) :
    (boardview box.state).visible = false := by
  have hstates : ∀ state ∈ ["JOINED_WAITING", "WAITING_PLAYERS"],
      (boardview state).visible = false := by decide
  apply hstates
  rw [waitingStates_one hplayer1 hplayer2] at hstate
  split at hstate
  · rw [List.mem_singleton.mp hstate]
    decide
  · rw [List.mem_singleton.mp hstate]
    decide

theorem joinSecond_follows (hmainarea : w.mainarea = .WAITING_PLAYERS) {player1 : Player}
    (hplayer1 : w.joined.player1 = some player1) (hplayer2 : w.joined.player2 = none)
    (hother : pid ≠ player1.id) (name : String) :
    Follows w (join (PlayerWaitingModel.joinPlayer pid name) w).1
      (join (PlayerWaitingModel.joinPlayer pid name) w).2 := by
  rw [join_second hplayer1 hplayer2 hother]
  intro other box hshows
  rw [shows_waiting hmainarea] at hshows
  have hhidden := waitingStates_one_hidden hplayer1 hplayer2 hshows.state
  have hmainarea' : ({ w with
      joined := ⟨some player1, some ⟨pid, name⟩⟩
      secondPlayerSliding := true } : Window).mainarea = .WAITING_PLAYERS := hmainarea
  have habort (appBox : Option AppBox) : [abortAction].foldl receive appBox = appBox := rfl
  rw [sentTo_append, sentTo_append, sentTo_all, List.foldl_append, List.foldl_append]
  simp only [habort]
  rw [← List.singleton_append, sentTo_append, sentTo_player, sentTo_player]
  by_cases hjoined : other = player1.id ∨ other = pid
  · have hsent : ((if player1.id = other then [moveToState "PLAY_GAME_WAIT_TURN"] else []) ++
        if pid = other then [moveToState "PLAY_GAME_WAIT_TURN"] else []) =
          [moveToState "PLAY_GAME_WAIT_TURN"] := by
      rcases hjoined with rfl | rfl
      · rw [if_pos rfl, if_neg hother]
        rfl
      · rw [if_neg (Ne.symm hother), if_pos rfl]
        rfl
    rw [hsent]
    have hnot : other ∉ w.otherIds player1.id pid := by
      intro hmem
      rw [otherIds, List.mem_filter, Bool.and_eq_true, decide_eq_true_eq,
        decide_eq_true_eq] at hmem
      rcases hjoined with heq | heq
      · exact hmem.2.1 heq
      · exact hmem.2.2 heq
    obtain ⟨box', hbox', hstate⟩ := foldl_waitGame other (w.otherIds player1.id pid)
      (box.moveToState "PLAY_GAME_WAIT_TURN")
    refine ⟨box', hbox', ?_⟩
    rw [hstate.resolve_right fun hmem => hnot hmem.1, shows_waiting hmainarea', waitingStates]
    simp only [hjoined, if_true]
    exact showsOneOf_start (List.mem_singleton_self _) hhidden
  · rw [not_or] at hjoined
    rw [if_neg (Ne.symm hjoined.1), if_neg (Ne.symm hjoined.2), List.nil_append,
      List.foldl_nil]
    obtain ⟨box', hbox', hstate⟩ := foldl_waitGame other (w.otherIds player1.id pid) box
    refine ⟨box', hbox', ?_⟩
    rw [shows_waiting hmainarea', waitingStates]
    simp only [hjoined, or_self, if_false]
    rcases hstate with rfl | ⟨-, hstate⟩
    · have hwaiting := hshows.state
      rw [waitingStates_one hplayer1 hplayer2, if_neg hjoined.1, List.mem_singleton] at hwaiting
      exact showsOneOf_of_hidden (by simp [hwaiting, spectatorStates]) hhidden
    · have hwait : (boardview "WAIT_GAME").visible = false := by decide
      exact showsOneOf_of_hidden (by simp [hstate, spectatorStates])
        (by rw [hstate]; exact hwait)

theorem join_follows (h : w.Good) (hmainarea : w.mainarea = .WAITING_PLAYERS) (pid : Int)
    (name : String) :
    Follows w (join (PlayerWaitingModel.joinPlayer pid name) w).1
      (join (PlayerWaitingModel.joinPlayer pid name) w).2 := by
  cases hplayer1 : w.joined.player1 with
  | none => exact joinFirst_follows h hmainarea hplayer1 pid name
  | some player1 =>
      by_cases hfull : w.joined.player2.isSome = true ∨ pid = player1.id
      · rw [join_same hplayer1 hfull]
        exact .refl w
      · rw [not_or, Bool.not_eq_true, Option.isSome_eq_false_iff, Option.isNone_iff_eq_none]
          at hfull
        exact joinSecond_follows hmainarea hplayer1 hfull.1 hfull.2 name

theorem join_good (h : w.Good) (hmainarea : w.mainarea = .WAITING_PLAYERS)
    (hpresent : pid ∈ w.playerNames) (name : String) :
    (join (PlayerWaitingModel.joinPlayer pid name) w).1.Good := by
  have hnotGame : w.mainarea ≠ .GAME := by rw [hmainarea]; decide
  cases hplayer1 : w.joined.player1 with
  | none =>
      have hplayer2 : w.joined.player2.isSome = false := by
        have hsecond := h.second
        rw [hplayer1] at hsecond
        cases hplayer2 : w.joined.player2 with
        | none => rfl
        | some player2 =>
            rw [hplayer2] at hsecond
            cases hsecond rfl
      rw [join_none hplayer1]
      constructor
      case second => exact fun _ => rfl
      case distinct =>
        intro _ player2 _ hsome
        rw [hsome] at hplayer2
        cases hplayer2
      case nameBox => rfl
      case ended => exact h.ended
      case present =>
        intro _ other hjoined
        rw [PlayerWaitingModel.hasJoined, Bool.or_eq_true] at hjoined
        rcases hjoined with hfirst | hsecond
        · simp only [isPlayer, Option.any_some, decide_eq_true_eq] at hfirst
          rw [← hfirst]
          exact hpresent
        · apply h.present hmainarea other
          rw [PlayerWaitingModel.hasJoined, Bool.or_eq_true]
          exact .inr hsecond
      case waiting => exact h.waiting
      case full => exact fun hgame => absurd hgame hnotGame
      case game => exact fun hgame => absurd hgame hnotGame
  | some player1 =>
      by_cases hfull : w.joined.player2.isSome = true ∨ pid = player1.id
      · rw [join_same hplayer1 hfull]
        exact h
      rw [not_or, Bool.not_eq_true, Option.isSome_eq_false_iff, Option.isNone_iff_eq_none]
        at hfull
      rw [join_second hplayer1 hfull.1 hfull.2]
      constructor
      case second => exact fun _ => rfl
      case distinct =>
        intro _ _ hfirst hsecond
        cases hfirst
        cases hsecond
        exact Ne.symm hfull.2
      case nameBox =>
        have hbox := h.nameBox
        rw [hplayer1] at hbox
        exact hbox
      case ended => exact h.ended
      case present =>
        intro _ other hjoined
        rw [PlayerWaitingModel.hasJoined, Bool.or_eq_true] at hjoined
        rcases hjoined with hfirst | hsecond
        · apply h.present hmainarea other
          rw [PlayerWaitingModel.hasJoined, Bool.or_eq_true, hplayer1]
          exact .inl hfirst
        · simp only [isPlayer, Option.any_some, decide_eq_true_eq] at hsecond
          rw [← hsecond]
          exact hpresent
      case waiting => exact h.waiting
      case full => exact fun hgame => absurd hgame hnotGame
      case game => exact fun hgame => absurd hgame hnotGame

theorem join_game (h : w.Good) (hmainarea : w.mainarea = .GAME) (pid : Int) (name : String) :
    join (PlayerWaitingModel.joinPlayer pid name) w = (w, []) := by
  obtain ⟨hplayer2, -⟩ := h.full hmainarea
  obtain ⟨player1, hplayer1⟩ := Option.isSome_iff_exists.mp (h.second hplayer2)
  exact join_same hplayer1 (.inl hplayer2)

end Joining

end GBerry.Games.TicTacToe.Window
