import GBerry.Games.TicTacToe.Window.Playing

/-!
# The window keeps the phones up to date

One lemma for each handler.  The game model does not know that a game was left: a cell
that is selected after that is still marked if it is the turn of the player.
-/

namespace GBerry.Games.TicTacToe.Window

open GBerry.Common
open GBerry.Foundation
open AppBox (boardview coordinate unmarked)
open Phone (receive)
open Party (sentTo)

section Definitions

def selectCell (i j : Fin 3) : JsValue :=
  .object [("action", .string "SelectCell"), ("x", coordinate i), ("y", coordinate j)]

inductive FromAppBox : JsValue → Prop
  | select (i j : Fin 3) : FromAppBox (selectCell i j)
  | button (action : String) : action ∈ ["JoinGame", "CancelJoin", "NextGame"] →
      FromAppBox (AppBox.outgoing action)

def awaits (w : Window) (pid : Int) : Bool :=
  w.game.any fun game => game.enableTurns && pid = game.currentPlayer

/-- A cell of a game that was left. -/
def StaleMove (w : Window) (pid : Int) (js : JsValue) : Prop :=
  w.mainarea = .WAITING_PLAYERS ∧ w.awaits pid = true ∧
    (js.get "action").strictEquals (.string "SelectCell") = true

/-- The animation would start a game without its second player. -/
def StaleSlide (w : Window) : Prop :=
  w.secondPlayerSliding = true ∧ w.showsFirstPlayerBox = true ∧ w.joined.player2 = none

instance (w : Window) (pid : Int) (js : JsValue) : Decidable (w.StaleMove pid js) :=
  inferInstanceAs (Decidable (_ ∧ _))

instance (w : Window) : Decidable w.StaleSlide := inferInstanceAs (Decidable (_ ∧ _))

structure UpToDate (w : Window) (result : Window × List WindowOutput) : Prop where
  good : result.1.Good
  names : result.1.playerNames = w.playerNames
  follows : Follows w result.1 result.2

end Definitions

variable {w : Window} {pid : Int} {js : JsValue} {game : GameModel}

section States

theorem UpToDate.refl (h : w.Good) : UpToDate w (w, []) := ⟨h, rfl, .refl w⟩

theorem toWaitingPlayers_names (w : Window) :
    (toWaitingPlayers w).1.playerNames = w.playerNames := by
  unfold toWaitingPlayers
  split
  · rfl
  · cases hfading : w.fadingIn <;> rfl

theorem toWaitingPlayers_upToDate (h : w.Good) : UpToDate w (toWaitingPlayers w) :=
  ⟨toWaitingPlayers_good h, toWaitingPlayers_names w, toWaitingPlayers_follows w⟩

theorem reset_upToDate (h : w.Good) (hmainarea : w.mainarea = .WAITING_PLAYERS) :
    UpToDate w (resetWaitingPlayersState w) :=
  ⟨h.reset hmainarea, rfl, reset_follows hmainarea w⟩

theorem UpToDate.feedback {action : WindowAction} (h : UpToDate w (action w)) (text : String) :
    UpToDate w ((action.andThen (feedback text)) w) :=
  ⟨h.good, h.names, feedback_follows text h.follows⟩

theorem slideFinished_upToDate (h : w.Good) (hstale : ¬ w.StaleSlide) :
    UpToDate w (slideFinished w) := by
  have hboth : w.secondPlayerSliding = true → w.showsFirstPlayerBox = true →
      w.joined.player2.isSome = true := by
    intro hsliding hvisible
    rw [Option.isSome_iff_ne_none]
    exact fun hnone => hstale ⟨hsliding, hvisible, hnone⟩
  refine ⟨slideFinished_good h hboth, ?_, slideFinished_follows h hboth⟩
  rcases h.slide_cases hboth with
    hsame | ⟨hmainarea, hsliding, hvisible, first, second, hfirst, hsecond⟩
  · rw [hsame]
  · rw [slideFinished_both hmainarea hsliding hvisible hfirst hsecond]

theorem joinviewFaded_upToDate (h : w.Good) : UpToDate w (joinviewFaded w) := by
  refine ⟨⟨h.second, h.distinct, h.nameBox, h.ended, h.present, h.waiting, h.full, ?_⟩, rfl,
    .same rfl rfl rfl⟩
  intro hmainarea
  obtain ⟨game, hgame, hplaying⟩ := h.game hmainarea
  exact ⟨game, hgame, hplaying.of_same id rfl fun _ _ => id⟩

theorem fadeFinished_upToDate (h : w.Good) : UpToDate w (fadeFinished w) := by
  refine ⟨fadeFinished_good h, ?_, fadeFinished_follows w⟩
  cases hfading : w.fadingIn <;> simp [fadeFinished, Action.modify, hfading, enableTurns]

end States

section Players

theorem Good.names (h : w.Good) (names : QMap Int String)
    (hjoined : w.mainarea = .WAITING_PLAYERS → ∀ pid,
      PlayerWaitingModel.hasJoined w.joined pid = true → pid ∈ w.playerNames → pid ∈ names)
    (hplaying : w.mainarea = .GAME → ∀ pid,
      w.isPlaying pid = true → pid ∈ w.playerNames → pid ∈ names) :
    ({ w with playerNames := names } : Window).Good where
  second := h.second
  distinct := h.distinct
  nameBox := h.nameBox
  ended := h.ended
  present hmainarea pid hnow := hjoined hmainarea pid hnow (h.present hmainarea pid hnow)
  waiting := h.waiting
  full := h.full
  game hmainarea := by
    obtain ⟨game, hgame, hplayers⟩ := h.game hmainarea
    exact ⟨game, hgame, hplayers.of_same id rfl (hplaying hmainarea)⟩

theorem Good.left (h : w.Good)
    (hjoined : w.mainarea = .WAITING_PLAYERS →
      PlayerWaitingModel.hasJoined w.joined pid = false)
    (hplaying : w.mainarea = .GAME → w.isPlaying pid = false) :
    ({ w with playerNames := w.playerNames.erase pid } : Window).Good := by
  apply h.names
  · intro hmainarea other hnow hmem
    refine (QMap.mem_erase_iff ..).mpr ⟨?_, hmem⟩
    rintro rfl
    cases (hjoined hmainarea).symm.trans hnow
  · intro hmainarea other hnow hmem
    refine (QMap.mem_erase_iff ..).mpr ⟨?_, hmem⟩
    rintro rfl
    cases (hplaying hmainarea).symm.trans hnow

theorem toWaitingPlayers_with (w : Window) (names : QMap Int String) :
    toWaitingPlayers { w with playerNames := names } =
      ({ (toWaitingPlayers w).1 with playerNames := names }, (toWaitingPlayers w).2) := by
  unfold toWaitingPlayers
  split
  · rfl
  · cases hfading : w.fadingIn <;> rfl

theorem toWaitingPlayers_over (hmainarea : w.mainarea = .GAME) :
    (toWaitingPlayers w).1.mainarea = .WAITING_PLAYERS ∧
      (toWaitingPlayers w).1.joined = .undefined := by
  have hnot : w.mainarea ≠ .WAITING_PLAYERS := by
    rw [hmainarea]
    decide
  rw [toWaitingPlayers, if_neg hnot]
  exact ⟨rfl, rfl⟩

theorem onPlayerOut_result (h : w.Good) (pid : Int) : ∃ result, UpToDate w result ∧
    onPlayerOut pid w =
      ({ result.1 with playerNames := w.playerNames.erase pid }, result.2) ∧
    (result.1.mainarea = .WAITING_PLAYERS →
      PlayerWaitingModel.hasJoined result.1.joined pid = false) ∧
    (result.1.mainarea = .GAME → result.1.isPlaying pid = false) := by
  have heq : onPlayerOut pid w =
      if w.mainarea = .WAITING_PLAYERS ∧ PlayerWaitingModel.hasJoined w.joined pid = true then
        (resetWaitingPlayersState.andThen (feedback "Joined player left the game."))
          { w with playerNames := w.playerNames.erase pid }
      else if w.mainarea = .GAME ∧ w.isPlaying pid = true then
        (toWaitingPlayers.andThen (feedback "Game abort because player left the game."))
          { w with playerNames := w.playerNames.erase pid }
      else ({ w with playerNames := w.playerNames.erase pid }, []) := rfl
  rw [heq]
  by_cases hwaiting : w.mainarea = .WAITING_PLAYERS ∧
      PlayerWaitingModel.hasJoined w.joined pid = true
  · rw [if_pos hwaiting]
    refine ⟨_, (reset_upToDate h hwaiting.1).feedback "Joined player left the game.", rfl, ?_⟩
    exact ⟨fun _ => rfl, fun hgame => by cases hwaiting.1.symm.trans hgame⟩
  rw [if_neg hwaiting]
  by_cases hgame : w.mainarea = .GAME ∧ w.isPlaying pid = true
  · obtain ⟨hmainarea, hjoined⟩ := toWaitingPlayers_over hgame.1
    rw [if_pos hgame]
    refine ⟨_, (toWaitingPlayers_upToDate h).feedback "Game abort because player left the game.",
      ?_, ?_, ?_⟩
    · simp only [Action.andThen, toWaitingPlayers_with]
      rfl
    · intro _
      have hsame : ((toWaitingPlayers.andThen
          (feedback "Game abort because player left the game.")) w).1.joined = .undefined := hjoined
      rw [hsame]
      rfl
    · intro hnow
      cases hmainarea.symm.trans hnow
  · rw [if_neg hgame]
    refine ⟨(w, []), .refl h, rfl, ?_, ?_⟩
    · intro hmainarea
      exact Bool.eq_false_iff.mpr fun hnow => hwaiting ⟨hmainarea, hnow⟩
    · intro hmainarea
      exact Bool.eq_false_iff.mpr fun hnow => hgame ⟨hmainarea, hnow⟩

theorem onPlayerOut_good (h : w.Good) (pid : Int) : (onPlayerOut pid w).1.Good := by
  obtain ⟨result, hresult, hout, hjoined, hplaying⟩ := onPlayerOut_result h pid
  rw [hout, ← hresult.names]
  exact hresult.good.left hjoined hplaying

theorem onPlayerOut_names (h : w.Good) (pid : Int) :
    (onPlayerOut pid w).1.playerNames = w.playerNames.erase pid := by
  obtain ⟨result, -, hout, -⟩ := onPlayerOut_result h pid
  rw [hout]

theorem onPlayerOut_follows (h : w.Good) (pid : Int) :
    Follows w (onPlayerOut pid w).1 (onPlayerOut pid w).2 := by
  obtain ⟨result, hresult, hout, -⟩ := onPlayerOut_result h pid
  rw [hout]
  exact hresult.follows

def arrivalState (w : Window) : String :=
  if w.mainarea = .WAITING_PLAYERS then "WAITING_PLAYERS" else "WAIT_GAME"

def arrivalActions (w : Window) : PhoneMessage :=
  if w.mainarea = .WAITING_PLAYERS then exitAction else abortAction

theorem onPlayerIn_eq (w : Window) (pid : Int) (name : String) : onPlayerIn pid name w =
    ({ w with playerNames := w.playerNames.insert pid name },
      [.sendPlayerMessage pid .DefineAppBox, .sendPlayerMessage pid .ShowAppBox,
        .sendPlayerMessage pid (moveToState w.arrivalState),
        .sendPlayerMessage pid w.arrivalActions]) := by
  unfold onPlayerIn arrivalState arrivalActions
  by_cases hmainarea : w.mainarea = .WAITING_PLAYERS
  · simp only [hmainarea, if_true]
    rfl
  · simp only [hmainarea, if_false]
    rfl

theorem onPlayerIn_good (h : w.Good) (pid : Int) (name : String) :
    (onPlayerIn pid name w).1.Good := by
  have hmem (other : Int) (hother : other ∈ w.playerNames) :
      other ∈ w.playerNames.insert pid name := (QMap.mem_insert_iff ..).mpr (.inr hother)
  rw [onPlayerIn_eq]
  exact h.names _ (fun _ other _ => hmem other) fun _ other _ => hmem other

theorem onPlayerIn_others {other : Int} {box : AppBox} (hne : other ≠ pid) (name : String)
    (h : w.Shows other box) :
    sentTo other (onPlayerIn pid name w).2 = [] ∧ (onPlayerIn pid name w).1.Shows other box := by
  rw [onPlayerIn_eq]
  refine ⟨?_, h⟩
  simp [sentTo, hne.symm]

theorem sentTo_arrival (w : Window) (pid : Int) (name : String) :
    sentTo pid (onPlayerIn pid name w).2 =
      [.DefineAppBox, .ShowAppBox, moveToState w.arrivalState, w.arrivalActions] := by
  rw [onPlayerIn_eq]
  simp [sentTo]

theorem waitingStates_absent (hplayer1 : ∀ player, w.joined.player1 = some player →
      pid ≠ player.id)
    (hplayer2 : ∀ player, w.joined.player2 = some player → pid ≠ player.id) :
    "WAITING_PLAYERS" ∈ waitingStates w.joined pid := by
  unfold waitingStates
  cases hfirst : w.joined.player1 with
  | none => exact List.mem_singleton_self _
  | some first =>
      have hne := hplayer1 first hfirst
      cases hsecond : w.joined.player2 with
      | none =>
          simp only [hne, if_false]
          exact List.mem_singleton_self _
      | some second =>
          simp only [hne, hplayer2 second hsecond, or_self, if_false]
          decide

theorem arrival_shows (h : w.Good) (habsent : pid ∉ w.playerNames) :
    w.Shows pid (AppBox.created.moveToState w.arrivalState) := by
  have hhidden : (boardview w.arrivalState).visible = false := by
    unfold arrivalState
    split <;> decide
  cases hmainarea : w.mainarea with
  | WAITING_PLAYERS =>
      have hnot : PlayerWaitingModel.hasJoined w.joined pid = false :=
        Bool.eq_false_iff.mpr fun hjoined => habsent (h.present hmainarea pid hjoined)
      rw [PlayerWaitingModel.hasJoined, Bool.or_eq_false_iff] at hnot
      have hstate : w.arrivalState = "WAITING_PLAYERS" := if_pos hmainarea
      apply (shows_waiting hmainarea).mpr
      refine showsOneOf_of_hidden ?_ hhidden
      rw [hstate]
      apply waitingStates_absent
      · rintro player hplayer rfl
        simp [isPlayer, hplayer] at hnot
      · rintro player hplayer rfl
        simp [isPlayer, hplayer] at hnot
  | GAME =>
      obtain ⟨game, hgame, hplaying⟩ := h.game hmainarea
      have hstate : w.arrivalState = "WAIT_GAME" := if_neg (by rw [hmainarea]; decide)
      apply (shows_game hmainarea hgame).mpr
      refine showsOneOf_of_hidden ?_ hhidden
      have hshown : "WAIT_GAME" ∈ gameStates game pid := by
        unfold gameStates
        split
        · rename_i hplayer
          cases hended : game.gameEnded with
          | true => exact List.mem_cons_of_mem _ (List.mem_singleton_self _)
          | false =>
              have hisPlaying := (hplaying.players hended pid).mpr hplayer
              exact absurd (hplaying.present hended pid hisPlaying) habsent
        · decide
      rw [hstate]
      exact hshown

theorem onPlayerIn_newcomer (h : w.Good) (habsent : pid ∉ w.playerNames) (name : String) :
    ∃ box, (sentTo pid (onPlayerIn pid name w).2).foldl receive none = some box ∧
      (onPlayerIn pid name w).1.Shows pid box := by
  have hplain : Plain w.arrivalActions := by
    unfold arrivalActions
    split <;> trivial
  have hshows := arrival_shows h habsent
  refine ⟨AppBox.created.moveToState w.arrivalState, ?_, ?_⟩
  · rw [sentTo_arrival]
    exact receive_plain hplain _
  · rw [onPlayerIn_eq]
    exact hshows

end Players

section Messages

theorem onGeneralAction_upToDate (h : w.Good) (pid : Int) (id : String) :
    UpToDate w (onGeneralAction pid id w) := by
  unfold onGeneralAction
  split
  · by_cases hmainarea : w.mainarea = .WAITING_PLAYERS
    · rw [if_pos hmainarea]
      exact (reset_upToDate h hmainarea).feedback _
    · rw [if_neg hmainarea]
      exact (toWaitingPlayers_upToDate h).feedback _
  · split
    · have hplain : Plain (.FeedbackMessage
          ("Player '" ++ w.playerName pid ++ "' selected Exit Game.")) := trivial
      have hquit : Follows w w [.quit] := fun _ box hshows => ⟨box, rfl, hshows⟩
      exact ⟨h, rfl, (follows_plain hplain w).trans hquit⟩
    · exact .refl h

theorem joinGame_upToDate (h : w.Good) (hpresent : pid ∈ w.playerNames) (name : String) :
    UpToDate w (join (PlayerWaitingModel.joinPlayer pid name) w) := by
  cases hmainarea : w.mainarea with
  | WAITING_PLAYERS =>
      refine ⟨join_good h hmainarea hpresent name, ?_, join_follows h hmainarea pid name⟩
      cases hplayer1 : w.joined.player1 with
      | none => rw [join_none hplayer1]
      | some player1 =>
          by_cases hfull : w.joined.player2.isSome = true ∨ pid = player1.id
          · rw [join_same hplayer1 hfull]
          · rw [not_or, Bool.not_eq_true, Option.isSome_eq_false_iff, Option.isNone_iff_eq_none]
              at hfull
            rw [join_second hplayer1 hfull.1 hfull.2]
  | GAME =>
      rw [join_game h hmainarea]
      exact .refl h

theorem onOtherMessage_upToDate (h : w.Good) (pid : Int) (js : JsValue) :
    UpToDate w (onOtherMessage pid js w) := by
  unfold onOtherMessage
  split
  · exact toWaitingPlayers_upToDate h
  · split
    · rename_i hcancel
      exact (reset_upToDate h hcancel.2).feedback _
    · exact .refl h

theorem get_action (action : String) :
    (AppBox.outgoing action).get "action" = .string action := rfl

theorem outgoing_hasAction (action : String) :
    (AppBox.outgoing action).hasOwnProperty "action" = .ok true := rfl

theorem gameMessageReceived_button (h : w.Good) (pid : Int) {action : String}
    (haction : action ≠ "SelectCell") :
    w.gameMessageReceived pid (AppBox.outgoing action) = .ok ((w, []), false) := by
  have hselect : ((AppBox.outgoing action).get "action").strictEquals (.string "SelectCell") =
      false := by
    rw [get_action, Bool.eq_false_iff]
    intro heq
    cases JsValue.strictEquals_string.mp heq
    exact haction rfl
  unfold gameMessageReceived
  cases hgame : w.game with
  | none => simp only [outgoing_hasAction, hselect, Bool.and_false]
  | some game =>
      have hcall : game.playerMessageReceived pid (AppBox.outgoing action) =
          .ok (game, [.returned false]) := by
        simp only [GameModel.playerMessageReceived, outgoing_hasAction, hselect,
          Bool.false_eq_true, if_false]
        rfl
      simp only [hcall]
      have hsame := played_same h hgame
      unfold played at hsame
      rw [hsame]
      rfl

theorem button_upToDate (h : w.Good) (hpresent : pid ∈ w.playerNames) {action : String}
    (haction : action ≠ "SelectCell") :
    UpToDate w (onAppBoxMessage pid (AppBox.outgoing action) w) := by
  unfold onAppBoxMessage
  rw [gameMessageReceived_button h pid haction]
  unfold PlayerWaitingModel.playerMessageReceived
  cases hjoins : ((AppBox.outgoing action).get "action").strictEquals (.string "JoinGame") with
  | true => exact joinGame_upToDate h hpresent (w.playerName pid)
  | false => exact onOtherMessage_upToDate h pid _

variable {i j : Fin 3}

theorem lookUp_coordinate (i j : Fin 3) :
    GameModel.lookUp (coordinate i) (coordinate j) = .ok (some (i, j)) := by
  have hindex : ∀ k : Fin 3, GameModel.index? (toString k.val) = some k := by decide
  have htext (k : Fin 3) : (coordinate k).text = .ok (toString k.val) := rfl
  simp only [GameModel.lookUp, htext, hindex, Option.map_some]

theorem markCell_coordinate (hrunning : game.gameEnded = false) (i j : Fin 3) :
    GameModel.markCell (coordinate i) (coordinate j) game =
      if game.columns i j = .unselected then
        .ok (GameModel.mark i j (coordinate i) (coordinate j) game)
      else .ok (game, []) := by
  rw [GameModel.markCell, hrunning, lookUp_coordinate]
  rfl

theorem playerMessageReceived_selectCell (game : GameModel) (pid : Int) (i j : Fin 3) :
    game.playerMessageReceived pid (selectCell i j) =
      if game.enableTurns && pid = game.currentPlayer then
        (GameModel.markCell (coordinate i) (coordinate j)).andThen (GameModel.returning true) game
      else GameModel.returning true game := rfl

theorem gameMessageReceived_returned {out : List GameOutput} {game' : GameModel}
    (hgame : w.game = some game)
    (hcall : game.playerMessageReceived pid js = .ok (game', out ++ [.returned true])) :
    w.gameMessageReceived pid js = .ok ((w.played game', out.filterMap windowOutput), true) := by
  unfold gameMessageReceived
  simp only [hgame, hcall]
  have hout : (out ++ [GameOutput.returned true]).filterMap windowOutput =
      out.filterMap windowOutput := by
    rw [List.filterMap_append]
    exact List.append_nil _
  have hhandled : (out ++ [GameOutput.returned true]).any isHandled = true := by simp [isHandled]
  rw [hout, hhandled]
  rfl

theorem gameMessageReceived_selectCell (h : w.Good) (hstale : ¬ w.StaleMove pid (selectCell i j)) :
    ∃ result, w.gameMessageReceived pid (selectCell i j) = .ok (result, true) ∧
      UpToDate w result := by
  cases hgame : w.game with
  | none =>
      refine ⟨(w, []), ?_, .refl h⟩
      unfold gameMessageReceived
      rw [hgame]
      rfl
  | some game =>
      have hcall := playerMessageReceived_selectCell game pid i j
      have hignored (hreturned : game.playerMessageReceived pid (selectCell i j) =
            .ok (game, [] ++ [.returned true])) :
          ∃ result, w.gameMessageReceived pid (selectCell i j) = .ok (result, true) ∧
            UpToDate w result := by
        refine ⟨_, gameMessageReceived_returned hgame hreturned, ?_⟩
        rw [played_same h hgame]
        exact .refl h
      by_cases hturn : (game.enableTurns && pid = game.currentPlayer) = true
      · rw [if_pos hturn] at hcall
        have hmainarea : w.mainarea = .GAME := by
          cases hmainarea : w.mainarea with
          | GAME => rfl
          | WAITING_PLAYERS =>
              have hawaits : w.awaits pid = true := by
                rw [awaits, hgame]
                exact hturn
              exact absurd ⟨hmainarea, hawaits, rfl⟩ hstale
        obtain ⟨_, hsame, hplaying⟩ := h.game hmainarea
        cases hgame.symm.trans hsame
        have henabled : game.enableTurns = true := (Bool.and_eq_true_iff.mp hturn).1
        have hrunning : game.gameEnded = false := by
          rw [Bool.eq_false_iff]
          intro hended
          cases (hplaying.ended hended).symm.trans henabled
        have hfading : w.fadingIn = false := by
          rw [Bool.eq_false_iff]
          intro hfading
          cases (hplaying.fading hfading).1.symm.trans henabled
        rw [Fallible.andThen, markCell_coordinate hrunning] at hcall
        by_cases hfree : game.columns i j = .unselected
        · rw [if_pos hfree] at hcall
          have hmark := GameModel.mark_marked game i j (coordinate i) (coordinate j)
          obtain ⟨state1, state2, hout, hnext⟩ := nextMove_of_marked hplaying.distinct
            hplaying.currentPlayer hrunning hmark
          have hplaying' := played_playing hplaying hrunning hfading hnext
          generalize GameModel.mark i j (coordinate i) (coordinate j) game = result at *
          refine ⟨_, gameMessageReceived_returned hgame hcall, ?_⟩
          rw [hout]
          exact ⟨played_good h hmainarea hplaying', rfl,
            played_follows hmainarea hgame hplaying hrunning hnext⟩
        · rw [if_neg hfree] at hcall
          exact hignored hcall
      · rw [if_neg hturn] at hcall
        exact hignored hcall

theorem onAppBoxMessage_upToDate (h : w.Good) (hpresent : pid ∈ w.playerNames)
    (hfrom : FromAppBox js) (hstale : ¬ w.StaleMove pid js) :
    UpToDate w (onAppBoxMessage pid js w) := by
  cases hfrom with
  | select i j =>
      obtain ⟨result, hresult, hupToDate⟩ :=
        gameMessageReceived_selectCell h hstale
      unfold onAppBoxMessage
      rw [hresult]
      exact hupToDate
  | button action haction =>
      refine button_upToDate h hpresent ?_
      rintro rfl
      exact absurd haction (by decide)

end Messages

end GBerry.Games.TicTacToe.Window
