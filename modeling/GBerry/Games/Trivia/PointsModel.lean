import GBerry.Foundation.JavaScript
import Mathlib.Data.List.Sort

/-!
# `PointsModel`

The players of the trivia game with their points.  Showing the scores sorts the list
in place, so that the order of the players depends on what was shown.
-/

namespace GBerry.Games.Trivia

open GBerry.Foundation

structure PlayerPoints where
  id : Int
  name : String
  points : Nat
  deriving DecidableEq

structure PointsModel where
  playerPoints : List PlayerPoints
  deriving DecidableEq

inductive PointsSignal where
  | scoresChanged
  /-- An exception left the call. -/
  | threw (error : JsError)
  deriving DecidableEq

inductive PointsEvent where
  /-- `players` is what the players manager answers. -/
  | setupGame (players : List (Int × String))
  | scorePoint (playerPid : Int)
  | playerJoined (pid : Int) (playerName : String)
  | playerLeft (pid : Int) (playerName : String)
  | currentScores
  deriving DecidableEq

namespace PlayerPoints

def joined (player : Int × String) : PlayerPoints where
  id := player.1
  name := player.2
  points := 0

def addPoint (entry : PlayerPoints) : PlayerPoints :=
  { entry with points := entry.points + 1 }

/-- The order of `currentScores`: the highest points first. -/
def Before (a b : PlayerPoints) : Prop := b.points ≤ a.points

instance : DecidableRel Before := fun a b => inferInstanceAs (Decidable (b.points ≤ a.points))

end PlayerPoints

namespace PointsModel

abbrev History := List (Step PointsModel PointsEvent PointsSignal)

def start : PointsModel where
  playerPoints := []

def demoPlayers : List PlayerPoints := [⟨5000, "Tero", 5⟩, ⟨5001, "Joel", 5⟩]

/-- Without any players it must be a demo play. -/
def setupGame (players : List (Int × String)) : Fallible PointsModel PointsSignal JsError :=
  fun _ =>
    .ok (⟨if players = [] then demoPlayers else players.map PlayerPoints.joined⟩,
      [.scoresChanged])

/-- The entry that a point goes to: the last one for the developer's pid 0. -/
def scoredIndex (playerPoints : List PlayerPoints) (playerPid : Int) : Option Nat :=
  if playerPid = 0 then
    if playerPoints = [] then none else some (playerPoints.length - 1)
  else playerPoints.findIdx? fun entry => entry.id == playerPid

/-- Without any players there is no last entry whose points could be counted up. -/
def scorePoint (playerPid : Int) : Fallible PointsModel PointsSignal JsError := fun m =>
  match scoredIndex m.playerPoints playerPid with
  | some i => .ok (⟨m.playerPoints.modify i PlayerPoints.addPoint⟩, [.scoresChanged])
  | none => if playerPid = 0 then .error .typeError else .ok (m, [])

def playerJoined (pid : Int) (playerName : String) :
    Fallible PointsModel PointsSignal JsError := fun m =>
  .ok (⟨m.playerPoints ++ [.joined (pid, playerName)]⟩, [.scoresChanged])

def playerLeft (pid : Int) : Fallible PointsModel PointsSignal JsError := fun m =>
  match m.playerPoints.findIdx? fun entry => entry.id == pid with
  | some i => .ok (⟨m.playerPoints.eraseIdx i⟩, [.scoresChanged])
  | none => .ok (m, [])

/-- `highest = [playerPoints[i]]` names a variable that does not exist. -/
def highestLoop : List PlayerPoints → List PlayerPoints → Except JsError (List PlayerPoints)
  | highest, [] => .ok highest
  | [], entry :: rest => highestLoop [entry] rest
  | first :: tied, entry :: rest =>
      if entry.points = first.points then highestLoop (first :: tied ++ [entry]) rest
      else if first.points < entry.points then .error .referenceError
      else highestLoop (first :: tied) rest

def highestScores (m : PointsModel) : Except JsError (List PlayerPoints) :=
  highestLoop [] m.playerPoints

section Source

variable (sort : List PlayerPoints → List PlayerPoints)

def currentScores : Fallible PointsModel PointsSignal JsError := fun m =>
  .ok (⟨sort m.playerPoints⟩, [])

def perform : PointsEvent → Fallible PointsModel PointsSignal JsError
  | .setupGame players => setupGame players
  | .scorePoint playerPid => scorePoint playerPid
  | .playerJoined pid playerName => playerJoined pid playerName
  | .playerLeft pid _ => playerLeft pid
  | .currentScores => currentScores sort

def handle (event : PointsEvent) : Action PointsModel PointsSignal :=
  Fallible.uncaught .threw (perform sort event)

def machine : Machine PointsModel PointsEvent PointsSignal Empty :=
  Action.machine start (handle sort)

end Source

def LeaderFirst (playerPoints : List PlayerPoints) : Prop :=
  ∀ first ∈ playerPoints.head?, ∀ entry ∈ playerPoints, entry.points ≤ first.points

def winners (playerPoints : List PlayerPoints) : List PlayerPoints :=
  playerPoints.filter fun entry => playerPoints.all fun other => other.points ≤ entry.points

def ReturnsWinners (m : PointsModel) : Prop :=
  ∃ result, highestScores m = .ok result ∧ result.Perm (winners m.playerPoints)

/--
A point goes to the first entry or to one with fewer points than that, and the first
entry leaves only before another one with the maximal number of points.
-/
def KeepsLeader (st : Step PointsModel PointsEvent PointsSignal) : Prop :=
  match st.label with
  | .scorePoint playerPid =>
      ∀ i ∈ scoredIndex st.pre.playerPoints playerPid, ∀ entry ∈ st.pre.playerPoints[i]?,
        ∀ first ∈ st.pre.playerPoints.head?, i = 0 ∨ entry.points < first.points
  | .playerLeft pid _ =>
      ∀ first rest, st.pre.playerPoints = first :: rest → first.id = pid → LeaderFirst rest
  | _ => True

section Pass

variable {first : PlayerPoints} {tied rest : List PlayerPoints}

theorem highestLoop_ok (h : ∀ entry ∈ rest, entry.points ≤ first.points) :
    highestLoop (first :: tied) rest =
      .ok (first :: tied ++ rest.filter fun entry => entry.points = first.points) := by
  induction rest generalizing tied with
  | nil => simp [highestLoop]
  | cons entry rest ih =>
      rw [List.forall_mem_cons] at h
      obtain ⟨hentry, hrest⟩ := h
      by_cases heq : entry.points = first.points
      · rw [highestLoop, if_pos heq, List.cons_append, ih hrest,
          List.filter_cons_of_pos (by simpa using heq)]
        simp
      · rw [highestLoop, if_neg heq, if_neg (Nat.not_lt.mpr hentry), ih hrest,
          List.filter_cons_of_neg (by simpa using heq)]

theorem highestLoop_error (h : ∃ entry ∈ rest, first.points < entry.points) :
    highestLoop (first :: tied) rest = .error .referenceError := by
  induction rest generalizing tied with
  | nil => simp at h
  | cons entry rest ih =>
      by_cases heq : entry.points = first.points
      · rw [highestLoop, if_pos heq, List.cons_append]
        refine ih ?_
        obtain ⟨other, hmem, hlt⟩ := h
        rcases List.mem_cons.mp hmem with rfl | hmem
        · exact absurd heq (Nat.ne_of_gt hlt)
        · exact ⟨other, hmem, hlt⟩
      · by_cases hlt : first.points < entry.points
        · rw [highestLoop, if_neg heq, if_pos hlt]
        · rw [highestLoop, if_neg heq, if_neg hlt]
          refine ih ?_
          obtain ⟨other, hmem, hother⟩ := h
          rcases List.mem_cons.mp hmem with rfl | hmem
          · exact absurd hother hlt
          · exact ⟨other, hmem, hother⟩

theorem winners_of_leaderFirst (h : LeaderFirst (first :: rest)) :
    winners (first :: rest) =
      (first :: rest).filter fun entry => entry.points = first.points := by
  have hmax := h first rfl
  refine List.filter_congr ?_
  intro entry hentry
  rw [Bool.eq_iff_iff, List.all_eq_true, decide_eq_true_iff]
  constructor
  · intro hall
    have hfirst := hall first List.mem_cons_self
    exact Nat.le_antisymm (hmax entry hentry) (of_decide_eq_true hfirst)
  · intro heq other hother
    rw [heq]
    exact decide_eq_true (hmax other hother)

theorem returnsWinners_iff (m : PointsModel) :
    ReturnsWinners m ↔ LeaderFirst m.playerPoints := by
  obtain ⟨playerPoints⟩ := m
  unfold ReturnsWinners highestScores
  cases playerPoints with
  | nil => exact iff_of_true ⟨[], rfl, .refl _⟩ nofun
  | cons first rest =>
      by_cases hmax : ∀ entry ∈ rest, entry.points ≤ first.points
      · have hleader : LeaderFirst (first :: rest) := by
          intro first' hfirst'
          cases hfirst'
          exact List.forall_mem_cons.mpr ⟨Nat.le_refl _, hmax⟩
        refine iff_of_true ⟨_, highestLoop_ok hmax, ?_⟩ hleader
        rw [winners_of_leaderFirst hleader, List.filter_cons_of_pos (by simp)]
        rfl
      · simp only [not_forall, Nat.not_le] at hmax
        obtain ⟨entry, hentry, hlt⟩ := hmax
        refine iff_of_false ?_ ?_
        · rintro ⟨result, hresult, -⟩
          rw [highestLoop, highestLoop_error ⟨entry, hentry, hlt⟩] at hresult
          cases hresult
        · intro hleader
          exact absurd (hleader first rfl entry (List.mem_cons_of_mem _ hentry))
            (Nat.not_le.mpr hlt)

end Pass

section Steps

variable {playerPoints : List PlayerPoints} {first : PlayerPoints} {rest : List PlayerPoints}

theorem leaderFirst_cons :
    LeaderFirst (first :: rest) ↔ ∀ entry ∈ rest, entry.points ≤ first.points := by
  constructor
  · intro h entry hentry
    exact h first rfl entry (List.mem_cons_of_mem _ hentry)
  · intro h first' hfirst'
    cases hfirst'
    exact List.forall_mem_cons.mpr ⟨Nat.le_refl _, h⟩

theorem leaderFirst_setupGame (players : List (Int × String)) :
    LeaderFirst (if players = [] then demoPlayers else players.map PlayerPoints.joined) := by
  split
  · exact leaderFirst_cons.mpr (by decide)
  · intro first _ entry hentry
    obtain ⟨player, -, rfl⟩ := List.mem_map.mp hentry
    exact Nat.zero_le _

theorem leaderFirst_of_pairwise (h : playerPoints.Pairwise PlayerPoints.Before) :
    LeaderFirst playerPoints := by
  cases playerPoints with
  | nil => nofun
  | cons first rest => exact leaderFirst_cons.mpr (List.pairwise_cons.mp h).1

theorem leaderFirst_joined (h : LeaderFirst playerPoints) (player : Int × String) :
    LeaderFirst (playerPoints ++ [.joined player]) := by
  cases playerPoints with
  | nil => exact leaderFirst_cons.mpr (by simp)
  | cons first rest =>
      rw [leaderFirst_cons] at h
      rw [List.cons_append, leaderFirst_cons, List.forall_mem_append]
      refine ⟨h, ?_⟩
      intro entry hentry
      rw [List.mem_singleton.mp hentry]
      exact Nat.zero_le _

theorem leaderFirst_left {pid : Int} {i : Nat} (h : LeaderFirst playerPoints)
    (hi : playerPoints.findIdx? (fun entry => entry.id == pid) = some i) :
    LeaderFirst (playerPoints.eraseIdx i) ↔
      ∀ first rest, playerPoints = first :: rest → first.id = pid → LeaderFirst rest := by
  cases playerPoints with
  | nil => cases hi
  | cons first rest =>
      rw [List.findIdx?_cons] at hi
      by_cases hid : first.id = pid
      · rw [if_pos (beq_iff_eq.mpr hid)] at hi
        cases hi
        simp [hid]
      · rw [if_neg (by simpa using hid)] at hi
        obtain ⟨j, -, rfl⟩ := Option.map_eq_some_iff.mp hi
        rw [leaderFirst_cons] at h
        refine iff_of_true ?_ ?_
        · rw [List.eraseIdx_cons_succ, leaderFirst_cons]
          intro entry hentry
          exact h entry (List.mem_of_mem_eraseIdx hentry)
        · intro first' rest' heq hid'
          cases heq
          exact absurd hid' hid

theorem leaderFirst_modify {i : Nat} {entry : PlayerPoints}
    (h : LeaderFirst (first :: rest)) (hentry : (first :: rest)[i]? = some entry) :
    LeaderFirst ((first :: rest).modify i PlayerPoints.addPoint) ↔
      i = 0 ∨ entry.points < first.points := by
  rw [leaderFirst_cons] at h
  cases i with
  | zero =>
      refine iff_of_true ?_ (.inl rfl)
      rw [List.modify_zero_cons, leaderFirst_cons]
      intro other hother
      exact Nat.le_succ_of_le (h other hother)
  | succ i =>
      rw [List.getElem?_cons_succ] at hentry
      rw [List.modify_succ_cons, leaderFirst_cons]
      simp only [Nat.succ_ne_zero, false_or]
      constructor
      · intro hafter
        refine hafter (entry.addPoint) ?_
        rw [List.mem_iff_getElem?]
        exact ⟨i, by simp [hentry]⟩
      · intro hlt other hother
        obtain ⟨j, hj⟩ := List.mem_iff_getElem?.mp hother
        rw [List.getElem?_modify] at hj
        by_cases hij : i = j
        · subst hij
          simp only [hentry, if_true, Option.map_eq_map, Option.map_some, Option.some.injEq] at hj
          rw [← hj]
          exact hlt
        · cases hbefore : rest[j]? with
          | none => simp [hbefore] at hj
          | some kept =>
              simp only [hbefore, if_neg hij, Option.map_eq_map, Option.map_some,
                Option.some.injEq] at hj
              rw [← hj]
              exact h kept (List.mem_of_getElem? hbefore)

end Steps

section Runs

variable {sort : List PlayerPoints → List PlayerPoints} {history : History} {m : PointsModel}

theorem scoredIndex_lt {playerPoints : List PlayerPoints} {playerPid : Int} {i : Nat}
    (h : scoredIndex playerPoints playerPid = some i) : i < playerPoints.length := by
  unfold scoredIndex at h
  split at h
  · split at h
    · cases h
    · rename_i hne
      cases h
      have hpos := List.length_pos_iff.mpr hne
      omega
  · obtain ⟨hlt, -⟩ := List.findIdx?_eq_some_iff_getElem.mp h
    exact hlt

theorem leaderFirst_scorePoint (m : PointsModel) (playerPid : Int)
    (h : LeaderFirst m.playerPoints) :
    LeaderFirst (Fallible.uncaught .threw (scorePoint playerPid) m).1.playerPoints ↔
      ∀ i ∈ scoredIndex m.playerPoints playerPid, ∀ entry ∈ m.playerPoints[i]?,
        ∀ first ∈ m.playerPoints.head?, i = 0 ∨ entry.points < first.points := by
  obtain ⟨playerPoints⟩ := m
  cases hi : scoredIndex playerPoints playerPid with
  | none =>
      have hsame : (Fallible.uncaught .threw (scorePoint playerPid) ⟨playerPoints⟩).1 =
          ⟨playerPoints⟩ := by
        by_cases hdev : playerPid = 0
        · have hthrows : scorePoint playerPid ⟨playerPoints⟩ = .error .typeError := by
            simp only [scorePoint, hi, if_pos hdev]
          rw [Fallible.uncaught_error hthrows]
        · rw [Fallible.uncaught_ok (by simp only [scorePoint, hi, if_neg hdev]; rfl)]
      rw [hsame]
      exact iff_of_true h nofun
  | some i =>
      have hlt := scoredIndex_lt hi
      rw [Fallible.uncaught_ok (by simp only [scorePoint, hi]; rfl)]
      cases playerPoints with
      | nil => cases hlt
      | cons first rest =>
          obtain ⟨entry, hentry⟩ : ∃ entry, (first :: rest)[i]? = some entry :=
            ⟨_, List.getElem?_eq_getElem hlt⟩
          rw [leaderFirst_modify h hentry]
          simp [hentry]

theorem leaderFirst_handle (hsort : ArraySort PlayerPoints.Before sort) (m : PointsModel)
    (event : PointsEvent) (out : List PointsSignal) (h : LeaderFirst m.playerPoints) :
    LeaderFirst (handle sort event m).1.playerPoints ↔
      KeepsLeader ⟨m, event, out, (handle sort event m).1⟩ := by
  cases event with
  | setupGame players => exact iff_of_true (leaderFirst_setupGame players) trivial
  | scorePoint playerPid => exact leaderFirst_scorePoint m playerPid h
  | playerJoined pid playerName =>
      exact iff_of_true (leaderFirst_joined h (pid, playerName)) trivial
  | playerLeft pid playerName =>
      unfold handle KeepsLeader
      cases hi : m.playerPoints.findIdx? fun entry => entry.id == pid with
      | some i =>
          rw [Fallible.uncaught_ok (by simp only [perform, playerLeft, hi]; rfl)]
          exact leaderFirst_left h hi
      | none =>
          rw [Fallible.uncaught_ok (by simp only [perform, playerLeft, hi]; rfl)]
          refine iff_of_true h ?_
          intro first rest heq hid
          rw [heq, List.findIdx?_cons, if_pos (beq_iff_eq.mpr hid)] at hi
          cases hi
  | currentScores => exact iff_of_true (leaderFirst_of_pairwise (hsort.pairwise _)) trivial

/-- The winners are returned at every moment of a run as long as the leader is the first. -/
theorem highestScores_winners_iff (hsort : ArraySort PlayerPoints.Before sort)
    (h : Execution (machine sort) history m) :
    Execution.Always (machine sort) (fun _ m => ReturnsWinners m) history ↔
      ∀ st ∈ history, KeepsLeader st := by
  refine Execution.always_iff ?_ ?_ h
  · exact (returnsWinners_iff start).mpr nofun
  · intro older m m' event out _ hbefore hstep
    obtain ⟨rfl, rfl⟩ := Action.machine_step hstep
    rw [returnsWinners_iff] at hbefore ⊢
    exact leaderFirst_handle hsort m event _ hbefore

end Runs

def stableSort (l : List PlayerPoints) : List PlayerPoints :=
  l.insertionSort PlayerPoints.Before

theorem stableSort_sorts : ArraySort PlayerPoints.Before stableSort := by
  have htotal : Std.Total PlayerPoints.Before := ⟨fun a b => Nat.le_total b.points a.points⟩
  have htrans : IsTrans PlayerPoints PlayerPoints.Before :=
    ⟨fun _ _ _ hab hbc => Nat.le_trans hbc hab⟩
  exact ⟨List.perm_insertionSort _, List.pairwise_insertionSort _⟩

/-- The second of two players gets the first point. -/
def secondScores : List PointsEvent := [.setupGame [(7, "Tero"), (9, "Joel")], .scorePoint 9]

/-- `highestScores` throws, although there is a winner. -/
theorem highestScores_secondScores :
    let run := Action.trace start (handle stableSort) secondScores
    Execution (machine stableSort) run.1 run.2 ∧
      highestScores run.2 = .error .referenceError ∧
      winners run.2.playerPoints = [⟨9, "Joel", 1⟩] ∧ ¬ ReturnsWinners run.2 := by
  refine ⟨Action.trace_execution start _ secondScores, by decide, by decide, ?_⟩
  rintro ⟨result, hresult, -⟩
  cases hresult

/-- The first of two players is never overtaken by the second. -/
def firstScores : List PointsEvent :=
  [.setupGame [(7, "Tero"), (9, "Joel")], .scorePoint 7, .scorePoint 9, .scorePoint 7]

theorem highestScores_winners_iff_firstScores :
    let run := Action.trace start (handle stableSort) firstScores
    highestScores run.2 = .ok [⟨7, "Tero", 2⟩] ∧
      Execution.Always (machine stableSort) (fun _ m => ReturnsWinners m) run.1 := by
  refine ⟨by decide, (highestScores_winners_iff stableSort_sorts
    (Action.trace_execution start _ firstScores)).mpr ?_⟩
  have hscored {m : PointsModel} {playerPid : Int} {out : List PointsSignal} {m' : PointsModel}
      (hfirst : ∀ i ∈ scoredIndex m.playerPoints playerPid, ∀ entry ∈ m.playerPoints[i]?,
        ∀ first ∈ m.playerPoints.head?, i = 0 ∨ entry.points < first.points) :
      KeepsLeader ⟨m, .scorePoint playerPid, out, m'⟩ := hfirst
  refine List.forall_mem_cons.mpr ⟨hscored (by decide +kernel),
    List.forall_mem_cons.mpr ⟨hscored (by decide +kernel),
      List.forall_mem_cons.mpr ⟨hscored (by decide +kernel),
        List.forall_mem_cons.mpr ⟨trivial, nofun⟩⟩⟩⟩

end PointsModel

end GBerry.Games.Trivia
