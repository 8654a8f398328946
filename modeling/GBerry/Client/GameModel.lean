import GBerry.Client.ApplicationVersionNumber
import GBerry.Common.Json
import GBerry.Common.QMap
import GBerry.Foundation.Selection
import Mathlib.Order.Defs.Unbundled

/-!
# The games of the console

`GameModel` collects the metadata of the local games by full id, and lists for
every application the newest of them.  The metadata are what the replies carry,
of any type; a number is written as a text by `numberText`.
-/

namespace GBerry.Client

open GBerry.Foundation GBerry.Common

def variantText (numberText : Rat → String) : Json → String
  | .string value => value
  | .number value => numberText value
  | .bool value => if value then "true" else "false"
  | _ => ""

inductive GameModelSignal where
  | localGamesAvailable
  | localGamesUpdated

structure GameModel where
  gamesReceived : Bool
  games : QMap String JsonObject

namespace GameModel

def start : GameModel := ⟨false, ∅⟩

def insertGame (games : QMap String JsonObject) (appJsonValue : Json) :
    QMap String JsonObject :=
  let appJson := appJsonValue.toObject
  games.insert (JsonObject.value appJson "id").toString appJson

def onMessageReceived (m : GameModel) (msg : JsonObject) :
    GameModel × List GameModelSignal :=
  let games :=
    match JsonObject.value msg "applications" with
    | .array applications => applications.foldl insertGame m.games
    | _ => m.games
  (⟨true, games⟩,
    .localGamesAvailable :: if m.gamesReceived then [.localGamesUpdated] else [])

section

variable (numberText : Rat → String)

def metaText (gameMeta : JsonObject) (key : String) : String :=
  variantText numberText (JsonObject.value gameMeta key)

def isNewer (gameMeta other : JsonObject) : Bool :=
  ApplicationVersionNumber.versionIsGreater (metaText numberText gameMeta "version")
    (metaText numberText other "version")

def collectNewest (gameById : QMap String JsonObject) (gameMeta : JsonObject) :
    QMap String JsonObject :=
  let appId := metaText numberText gameMeta "application_id"
  match gameById[appId]? with
  | some other =>
      if isNewer numberText gameMeta other then gameById.insert appId gameMeta else gameById
  | none => gameById.insert appId gameMeta

/-- The loop that `localGameIds` and `newestGameByApplicationId` both have. -/
def gameById (m : GameModel) : QMap String JsonObject :=
  (QMap.values m.games).foldl (collectNewest numberText) ∅

def localGameIds (m : GameModel) : List String :=
  (QMap.values (m.gameById numberText)).map fun gameMeta => metaText numberText gameMeta "id"

def newestGameByApplicationId (m : GameModel) (applicationId : String) : String :=
  match (m.gameById numberText)[applicationId]? with
  | some gameMeta => metaText numberText gameMeta "id"
  | none => ""

def gamesOf (m : GameModel) (applicationId : String) : List JsonObject :=
  (QMap.values m.games).filter fun gameMeta =>
    metaText numberText gameMeta "application_id" = applicationId

end

def received (msgs : List JsonObject) : GameModel :=
  msgs.foldl (fun m msg => (m.onMessageReceived msg).1) start

section

variable {numberText : Rat → String} {m : GameModel}

theorem collectNewest_getElem? (gameById : QMap String JsonObject) (gameMeta : JsonObject)
    (appId : String) :
    (collectNewest numberText gameById gameMeta)[appId]? =
      if metaText numberText gameMeta "application_id" = appId then
        keepBetter (isNewer numberText) gameById[appId]? gameMeta
      else gameById[appId]? := by
  simp only [collectNewest]
  generalize metaText numberText gameMeta "application_id" = key
  cases hother : gameById[key]? with
  | none =>
      simp only [QMap.getElem?_insert, eq_comm (a := appId)]
      by_cases hkey : key = appId
      · subst hkey
        simp [hother, keepBetter]
      · simp [hkey]
  | some other =>
      by_cases hkey : key = appId
      · subst hkey
        cases hnewer : isNewer numberText gameMeta other with
        | true => simp [hother, hnewer, keepBetter]
        | false => simp [hother, hnewer, keepBetter]
      · cases hnewer : isNewer numberText gameMeta other with
        | true => simp [hnewer, QMap.getElem?_insert, hkey, Ne.symm hkey]
        | false => simp [hnewer, hkey]

theorem foldl_collectNewest_getElem? (games : List JsonObject)
    (gameById : QMap String JsonObject) (appId : String) :
    (games.foldl (collectNewest numberText) gameById)[appId]? =
      (games.filter fun gameMeta =>
          metaText numberText gameMeta "application_id" = appId).foldl
        (keepBetter (isNewer numberText)) gameById[appId]? := by
  induction games generalizing gameById with
  | nil => rfl
  | cons gameMeta games ih =>
      rw [List.foldl_cons, ih, collectNewest_getElem?, List.filter_cons]
      by_cases happ : metaText numberText gameMeta "application_id" = appId
      · simp [happ]
      · simp [happ]

theorem gameById_getElem? (appId : String) :
    (m.gameById numberText)[appId]? =
      selectBest (isNewer numberText) (m.gamesOf numberText appId) := by
  rw [gameById, foldl_collectNewest_getElem?, Std.ExtTreeMap.getElem?_empty]
  rfl

theorem mem_keys_gameById (appId : String) :
    appId ∈ (m.gameById numberText).keys ↔ ∃ gameMeta, gameMeta ∈ m.gamesOf numberText appId := by
  rw [Std.ExtTreeMap.mem_keys, QMap.mem_iff, ← Option.isSome_iff_exists, gameById_getElem?,
    Option.isSome_iff_ne_none, Ne, selectBest_eq_none_iff, ← List.isEmpty_iff,
    Bool.not_eq_true, List.isEmpty_eq_false_iff_exists_mem]

theorem localGameIds_eq :
    m.localGameIds numberText =
      (m.gameById numberText).keys.map (m.newestGameByApplicationId numberText) := by
  refine QMap.values_eq_map_keys _ fun appId gameMeta hgame => ?_
  rw [newestGameByApplicationId, hgame]

def versionsOf (numberText : Rat → String) (m : GameModel) (applicationId : String) :
    Set String :=
  {version | ∃ gameMeta ∈ m.gamesOf numberText applicationId,
    metaText numberText gameMeta "version" = version}

theorem newest_unbeaten {appId : String} {gameMeta : JsonObject}
    (horder : IsStrictWeakOrder (m.versionsOf numberText appId) fun v v' =>
      ApplicationVersionNumber.versionIsGreater v v' = true)
    (hnewest : (m.gameById numberText)[appId]? = some gameMeta) :
    ∀ other ∈ m.gamesOf numberText appId, isNewer numberText other gameMeta = false := by
  rw [gameById_getElem?] at hnewest
  refine selectBest_maximal (fun g _ => ?_) (fun g hg g' hg' g'' hg'' h h' => ?_) hnewest
  · exact ApplicationVersionNumber.versionIsGreater_irrefl _
  · exact horder.trans ⟨_, g, hg, rfl⟩ ⟨_, g', hg', rfl⟩ ⟨_, g'', hg'', rfl⟩ h h'

theorem newest_game {appId : String} (happ : appId ∈ (m.gameById numberText).keys) :
    ∃ gameMeta ∈ m.gamesOf numberText appId,
      metaText numberText gameMeta "id" = m.newestGameByApplicationId numberText appId ∧
        (IsStrictWeakOrder (m.versionsOf numberText appId)
            (fun v v' => ApplicationVersionNumber.versionIsGreater v v' = true) →
          ∀ other ∈ m.gamesOf numberText appId,
            isNewer numberText other gameMeta = false) := by
  rw [Std.ExtTreeMap.mem_keys, QMap.mem_iff] at happ
  obtain ⟨gameMeta, hnewest⟩ := happ
  refine ⟨gameMeta, ?_, ?_, fun horder => newest_unbeaten horder hnewest⟩
  · rw [gameById_getElem?] at hnewest
    exact selectBest_mem hnewest
  · rw [newestGameByApplicationId, hnewest]

end

/--
`localGameIds` has one full id for each application of a stored game, the one
that `newestGameByApplicationId` returns; it belongs to a stored game that no
other one beats, as long as being greater orders the stored versions.
-/
theorem newest_localGames (numberText : Rat → String) (msgs : List JsonObject) :
    ∃ appIds : List String, appIds.Nodup ∧
      (∀ appId, appId ∈ appIds ↔ ∃ gameMeta ∈ QMap.values (received msgs).games,
        metaText numberText gameMeta "application_id" = appId) ∧
      (received msgs).localGameIds numberText =
        appIds.map ((received msgs).newestGameByApplicationId numberText) ∧
      ∀ appId ∈ appIds, ∃ gameMeta ∈ (received msgs).gamesOf numberText appId,
        metaText numberText gameMeta "id" =
            (received msgs).newestGameByApplicationId numberText appId ∧
          (IsStrictWeakOrder ((received msgs).versionsOf numberText appId)
              (fun v v' => ApplicationVersionNumber.versionIsGreater v v' = true) →
            ∀ other ∈ (received msgs).gamesOf numberText appId,
              ApplicationVersionNumber.versionIsGreater
                (metaText numberText other "version")
                (metaText numberText gameMeta "version") = false) := by
  refine ⟨((received msgs).gameById numberText).keys, Std.ExtTreeMap.nodup_keys,
    fun appId => ?_, localGameIds_eq, fun appId happ => newest_game happ⟩
  simp only [mem_keys_gameById, gamesOf, List.mem_filter, decide_eq_true_eq]

/-! ## Full ids -/

def Keyed (games : QMap String JsonObject) : Prop :=
  ∀ (id : String) (gameMeta : JsonObject), games[id]? = some gameMeta →
    (JsonObject.value gameMeta "id").toString = id

theorem Keyed.insertGame {games : QMap String JsonObject} (h : Keyed games)
    (appJsonValue : Json) : Keyed (insertGame games appJsonValue) := by
  intro id gameMeta hgame
  rw [GameModel.insertGame, QMap.getElem?_insert] at hgame
  split at hgame
  · rename_i hid
    cases hgame
    exact hid.symm
  · exact h id gameMeta hgame

theorem Keyed.foldl {games : QMap String JsonObject} (h : Keyed games)
    (applications : List Json) : Keyed (applications.foldl GameModel.insertGame games) := by
  induction applications generalizing games with
  | nil => exact h
  | cons appJsonValue applications ih => exact ih (h.insertGame appJsonValue)

theorem Keyed.onMessageReceived {m : GameModel} (h : Keyed m.games) (msg : JsonObject) :
    Keyed (m.onMessageReceived msg).1.games := by
  unfold GameModel.onMessageReceived
  split
  · exact h.foldl _
  · exact h

theorem keyed_received (msgs : List JsonObject) : Keyed (received msgs).games := by
  induction msgs using List.reverseRecOn with
  | nil =>
      intro id gameMeta hgame
      simp [received, start] at hgame
  | append_singleton msgs msg ih =>
      rw [received, List.foldl_append]
      exact ih.onMessageReceived msg

theorem localGameIds_stored (numberText : Rat → String) {msgs : List JsonObject}
    (htexts : ∀ gameMeta ∈ QMap.values (received msgs).games,
      ∃ id, JsonObject.value gameMeta "id" = .string id) :
    ((received msgs).localGameIds numberText).Nodup ∧
      ∀ id ∈ (received msgs).localGameIds numberText, id ∈ (received msgs).games := by
  have hstored : ∀ appId ∈ ((received msgs).gameById numberText).keys, ∃ gameMeta,
      (received msgs).games[(received msgs).newestGameByApplicationId numberText appId]? =
          some gameMeta ∧
        metaText numberText gameMeta "application_id" = appId := by
    intro appId happ
    obtain ⟨gameMeta, hgame, hid, -⟩ := newest_game happ
    rw [gamesOf, List.mem_filter, decide_eq_true_eq] at hgame
    obtain ⟨key, hkey⟩ := (QMap.mem_values_iff _ _).mp hgame.1
    obtain ⟨id, htext⟩ := htexts gameMeta hgame.1
    have hkeyed := keyed_received msgs key gameMeta hkey
    rw [metaText, htext] at hid
    rw [htext] at hkeyed
    refine ⟨gameMeta, ?_, hgame.2⟩
    rw [← hid]
    exact (congrArg _ hkeyed).trans hkey
  rw [localGameIds_eq]
  constructor
  · refine Std.ExtTreeMap.nodup_keys.map_on fun appId happ appId' happ' heq => ?_
    obtain ⟨gameMeta, hgame, rfl⟩ := hstored appId happ
    obtain ⟨gameMeta', hgame', rfl⟩ := hstored appId' happ'
    rw [← heq, hgame, Option.some.injEq] at hgame'
    rw [hgame']
  · intro id hid
    obtain ⟨appId, happ, rfl⟩ := List.mem_map.mp hid
    obtain ⟨gameMeta, hgame, -⟩ := hstored appId happ
    exact QMap.mem_of_getElem? hgame

end GameModel

end GBerry.Client
