import GBerry.Client.GameModel

/-!
# The games that can be downloaded

`GameDataCache` keeps the listed games by player.  Guests are meant to share the
entry of player -1, but `clear` does not look for the entry that `add` and `get`
use, and a console without an active player has an entry of its own.
-/

namespace GBerry.Client

open GBerry.Common

def NO_ACTIVE_PLAYER : Int := 0

structure ActivePlayerModel where
  activePlayerId : Int

namespace ActivePlayerModel

def hasActivePlayer (m : ActivePlayerModel) : Bool := m.activePlayerId ≠ NO_ACTIVE_PLAYER

end ActivePlayerModel

abbrev GameDataCache := QMap Int (QMap String JsonObject)

namespace GameDataCache

def effectivePlayerId (playerId : Int) : Int := if playerId < -1 then -1 else playerId

def add (cache : GameDataCache) (playerId : Int) (gameId : String) (metaData : JsonObject) :
    GameDataCache :=
  let pid := effectivePlayerId playerId
  cache.insert pid ((cache[pid]?.getD ∅).insert gameId metaData)

def clear (cache : GameDataCache) (playerId : Int) : GameDataCache :=
  if playerId ∈ cache then cache.insert playerId ∅ else cache

def get (cache : GameDataCache) (playerId : Int) : QMap String JsonObject :=
  cache[effectivePlayerId playerId]?.getD ∅

def hasGames (cache : GameDataCache) (playerId : Int) : Bool :=
  effectivePlayerId playerId ∈ cache

variable {cache : GameDataCache} {playerId pid : Int}

theorem effectivePlayerId_guest (h : playerId < 0) : effectivePlayerId playerId = -1 := by
  unfold effectivePlayerId
  split <;> omega

theorem effectivePlayerId_eq (h : -1 ≤ playerId) : effectivePlayerId playerId = playerId := by
  unfold effectivePlayerId
  split <;> omega

theorem get_guest (h : playerId < 0) : cache.get playerId = cache.get (-1) := by
  rw [get, get, effectivePlayerId_guest h, effectivePlayerId_guest (by omega)]

theorem get_add (gameId : String) (metaData : JsonObject) :
    (cache.add playerId gameId metaData).get pid =
      if effectivePlayerId pid = effectivePlayerId playerId then
        (cache.get pid).insert gameId metaData
      else cache.get pid := by
  rw [get, add, QMap.getElem?_insert]
  split
  · rename_i heq
    rw [Option.getD_some, get, heq]
  · rfl

/-- Only the entry of exactly this player is emptied. -/
theorem get_clear :
    (cache.clear playerId).get pid =
      if effectivePlayerId pid = playerId then ∅ else cache.get pid := by
  unfold clear
  split
  · rw [get, QMap.getElem?_insert]
    split <;> rfl
  · rename_i hmissing
    split
    · rename_i heq
      rw [get, heq, (QMap.notMem_iff _ _).mp hmissing]
      rfl
    · rfl

end GameDataCache

inductive DownloadableGamesModelSignal where
  | gamesRequestFailed
  | gamesAvailable

structure DownloadableGamesModel where
  gamesCache : GameDataCache
  activePlayerModel : ActivePlayerModel

namespace DownloadableGamesModel

def addGame (playerId : Int) (gamesCache : GameDataCache) (appJsonValue : Json) :
    GameDataCache :=
  let appJson := appJsonValue.toObject
  gamesCache.add playerId (JsonObject.value appJson "id").toString appJson

/-- The player a message is about; -1 is the default, for the free games. -/
def playerId (msg : JsonObject) : Int :=
  if JsonObject.contains msg "player_id" then (JsonObject.value msg "player_id").toInt else -1

def applications (msg : JsonObject) : List Json :=
  match JsonObject.value msg "applications" with
  | .array applications => applications
  | _ => []

def isFailure (msg : JsonObject) : Bool := (JsonObject.value msg "result").toString = "failure"

def onMessageReceived (m : DownloadableGamesModel) (msg : JsonObject) :
    DownloadableGamesModel × List DownloadableGamesModelSignal :=
  if isFailure msg then (m, [.gamesRequestFailed])
  else
    let gamesCache := m.gamesCache.clear (playerId msg)
    ({ m with gamesCache := (applications msg).foldl (addGame (playerId msg)) gamesCache },
      [.gamesAvailable])

def queryMessage (m : DownloadableGamesModel) : JsonObject :=
  ("command", .string "QueryDownloadableApplications") ::
    if m.activePlayerModel.hasActivePlayer then
      [("player_id", .number m.activePlayerModel.activePlayerId)]
    else []

/-- Whether there are games already, and the message that is sent in any case. -/
def requestGames (m : DownloadableGamesModel) : Bool × JsonObject :=
  (m.gamesCache.hasGames m.activePlayerModel.activePlayerId, m.queryMessage)

def gameIds (m : DownloadableGamesModel) : List String :=
  if m.gamesCache.hasGames m.activePlayerModel.activePlayerId then
    (m.gamesCache.get m.activePlayerModel.activePlayerId).keys
  else []

def game (m : DownloadableGamesModel) (gameId : String) : JsonObject :=
  if !m.gamesCache.hasGames m.activePlayerModel.activePlayerId then []
  else (m.gamesCache.get m.activePlayerModel.activePlayerId)[gameId]?.getD []

def received (msgs : List JsonObject) (activePlayerId : Int) : DownloadableGamesModel :=
  msgs.foldl (fun m msg => (m.onMessageReceived msg).1) ⟨∅, ⟨activePlayerId⟩⟩

/-! ## What the replies list -/

def listed (msg : JsonObject) : QMap String JsonObject :=
  (applications msg).foldl GameModel.insertGame ∅

def listedBy (reply : Option JsonObject) : QMap String JsonObject :=
  match reply with
  | some msg => listed msg
  | none => ∅

/-- A reply about the free games: it names no player, or a guest. -/
def isFree (msg : JsonObject) : Bool := playerId msg < 0

def applies (activePlayerId : Int) (msg : JsonObject) : Bool :=
  if activePlayerId > 0 then playerId msg = activePlayerId else isFree msg

def latest (p : JsonObject → Bool) (msgs : List JsonObject) : Option JsonObject :=
  (msgs.filter fun msg => !isFailure msg && p msg).getLast?

/-- The free replies from the last one on that did not name a guest. -/
def sinceCleared (msgs : List JsonObject) : List JsonObject :=
  msgs.foldl (fun run msg =>
    if isFailure msg || !isFree msg then run
    else if playerId msg = -1 then [msg]
    else run ++ [msg]) []

section

variable {m : DownloadableGamesModel} {msg : JsonObject} {msgs : List JsonObject}
  {a pid : Int}

theorem get_foldl_addGame (apps : List Json) (cache : GameDataCache) (playerId pid : Int) :
    (apps.foldl (addGame playerId) cache).get pid =
      if GameDataCache.effectivePlayerId pid = GameDataCache.effectivePlayerId playerId then
        apps.foldl GameModel.insertGame (cache.get pid)
      else cache.get pid := by
  induction apps generalizing cache with
  | nil => simp
  | cons appJsonValue apps ih =>
      rw [List.foldl_cons, ih, addGame, GameDataCache.get_add]
      split <;> rfl

theorem get_onMessageReceived (hok : isFailure msg = false) :
    (m.onMessageReceived msg).1.gamesCache.get pid =
      if GameDataCache.effectivePlayerId pid = GameDataCache.effectivePlayerId (playerId msg)
      then (applications msg).foldl GameModel.insertGame
        (if GameDataCache.effectivePlayerId pid = playerId msg then ∅ else m.gamesCache.get pid)
      else m.gamesCache.get pid := by
  simp only [onMessageReceived, hok, Bool.false_eq_true, if_false, get_foldl_addGame,
    GameDataCache.get_clear]
  split
  · rfl
  · rename_i hother
    rw [if_neg]
    intro heq
    apply hother
    rw [← heq]
    unfold GameDataCache.effectivePlayerId
    split <;> simp_all

theorem foldl_insertGame_getElem? (apps : List Json) (games : QMap String JsonObject)
    (id : String) :
    (apps.foldl GameModel.insertGame games)[id]? =
      ((apps.foldl GameModel.insertGame ∅)[id]?).or games[id]? := by
  induction apps using List.reverseRecOn with
  | nil => simp
  | append_singleton apps appJsonValue ih =>
      simp only [List.foldl_append, List.foldl_cons, List.foldl_nil, GameModel.insertGame,
        QMap.getElem?_insert]
      split
      · rfl
      · exact ih

theorem received_concat :
    received (msgs ++ [msg]) a = ((received msgs a).onMessageReceived msg).1 := by
  rw [received, List.foldl_append]
  rfl

theorem activePlayerId_received :
    (received msgs a).activePlayerModel.activePlayerId = a := by
  induction msgs using List.reverseRecOn with
  | nil => rfl
  | append_singleton msgs msg ih =>
      rw [received_concat, onMessageReceived]
      split <;> exact ih

theorem latest_concat (p : JsonObject → Bool) :
    latest p (msgs ++ [msg]) =
      if isFailure msg = false ∧ p msg = true then some msg else latest p msgs := by
  rw [latest, List.filter_append, List.filter_singleton]
  cases isFailure msg <;> cases p msg <;> simp [latest]

theorem received_failure (h : isFailure msg = true) :
    received (msgs ++ [msg]) a = received msgs a := by
  rw [received_concat, onMessageReceived, if_pos h]

theorem get_registered (hpid : 0 ≤ pid) :
    (received msgs a).gamesCache.get pid =
      listedBy (latest (fun msg => playerId msg = pid) msgs) := by
  have heffective (id : Int) : pid = GameDataCache.effectivePlayerId id ↔ pid = id := by
    unfold GameDataCache.effectivePlayerId
    split <;> omega
  induction msgs using List.reverseRecOn with
  | nil => rfl
  | append_singleton msgs msg ih =>
      rw [latest_concat]
      cases hok : isFailure msg with
      | true => simpa [received_failure hok] using ih
      | false =>
          rw [received_concat, get_onMessageReceived hok,
            GameDataCache.effectivePlayerId_eq (by omega)]
          simp only [heffective]
          by_cases hplayer : pid = playerId msg
          · rw [if_pos hplayer, if_pos hplayer, if_pos ⟨trivial, by simpa using hplayer.symm⟩]
            rfl
          · rw [if_neg hplayer, if_neg (by simpa using Ne.symm hplayer)]
            exact ih

theorem get_guests (hok : isFailure msg = false) :
    (m.onMessageReceived msg).1.gamesCache.get (-1) =
      if isFree msg then
        if playerId msg = -1 then listed msg
        else (applications msg).foldl GameModel.insertGame (m.gamesCache.get (-1))
      else m.gamesCache.get (-1) := by
  rw [get_onMessageReceived hok, GameDataCache.effectivePlayerId_eq (by omega)]
  cases hfree : isFree msg with
  | true =>
      rw [isFree, decide_eq_true_eq] at hfree
      rw [GameDataCache.effectivePlayerId_guest hfree, if_pos rfl, if_pos rfl]
      by_cases hplayer : playerId msg = -1
      · rw [if_pos hplayer, if_pos hplayer.symm]
        rfl
      · rw [if_neg hplayer, if_neg (Ne.symm hplayer)]
  | false =>
      rw [isFree, decide_eq_false_iff_not] at hfree
      rw [GameDataCache.effectivePlayerId_eq (by omega), if_neg (by omega)]
      rfl

theorem mem_foldl_insertGame (games : QMap String JsonObject) (id : String) :
    id ∈ (applications msg).foldl GameModel.insertGame games ↔ id ∈ games ∨ id ∈ listed msg := by
  rw [QMap.mem_iff, QMap.mem_iff, QMap.mem_iff, ← Option.isSome_iff_exists,
    ← Option.isSome_iff_exists, ← Option.isSome_iff_exists, foldl_insertGame_getElem?,
    Option.isSome_or, Bool.or_eq_true, or_comm]
  rfl

theorem sinceCleared_concat :
    sinceCleared (msgs ++ [msg]) =
      if isFailure msg || !isFree msg then sinceCleared msgs
      else if playerId msg = -1 then [msg]
      else sinceCleared msgs ++ [msg] := by
  rw [sinceCleared, List.foldl_append]
  rfl

theorem mem_sinceCleared (h : msg ∈ sinceCleared msgs) :
    msg ∈ msgs ∧ isFailure msg = false ∧ isFree msg = true := by
  induction msgs using List.reverseRecOn with
  | nil => cases h
  | append_singleton msgs reply ih =>
      rw [List.mem_append, List.mem_singleton]
      rw [sinceCleared_concat] at h
      have hold (h : msg ∈ sinceCleared msgs) :
          (msg ∈ msgs ∨ msg = reply) ∧ isFailure msg = false ∧ isFree msg = true :=
        ⟨.inl (ih h).1, (ih h).2⟩
      split at h
      · exact hold h
      · rename_i hfree
        simp only [Bool.or_eq_true, Bool.not_eq_true', not_or, Bool.not_eq_true,
          Bool.not_eq_false] at hfree
        split at h
        · rw [List.mem_singleton] at h
          subst h
          exact ⟨.inr rfl, hfree⟩
        · rw [List.mem_append, List.mem_singleton] at h
          rcases h with h | rfl
          · exact hold h
          · exact ⟨.inr rfl, hfree⟩

theorem sinceCleared_eq_nil (h : latest isFree msgs = none) : sinceCleared msgs = [] := by
  rw [latest, List.getLast?_eq_none_iff, List.filter_eq_nil_iff] at h
  refine List.eq_nil_iff_forall_not_mem.mpr fun msg hmsg => ?_
  obtain ⟨hmem, hok, hfree⟩ := mem_sinceCleared hmsg
  exact h msg hmem (by rw [hok, hfree]; rfl)

/-- The shared entry of the guests has the games of all replies since it was cleared. -/
theorem get_free (msgs : List JsonObject) (a : Int) :
    (∀ id, id ∈ (received msgs a).gamesCache.get (-1) ↔
        ∃ msg ∈ sinceCleared msgs, id ∈ listed msg) ∧
      ∀ reply ∈ latest isFree msgs, ∀ id ∈ listed reply,
        ((received msgs a).gamesCache.get (-1))[id]? = (listed reply)[id]? := by
  induction msgs using List.reverseRecOn with
  | nil =>
      refine ⟨fun id => iff_of_false ?_ ?_, fun reply hreply => ?_⟩
      · simp [received, GameDataCache.get]
      · rintro ⟨msg, hmsg, -⟩
        cases hmsg
      · cases hreply
  | append_singleton msgs msg ih =>
      obtain ⟨hgames, hlatest⟩ := ih
      rw [latest_concat, sinceCleared_concat]
      cases hok : isFailure msg with
      | true =>
          rw [received_failure hok]
          exact ⟨hgames, hlatest⟩
      | false =>
          rw [received_concat, get_guests hok]
          cases hfree : isFree msg with
          | false => exact ⟨hgames, hlatest⟩
          | true =>
              simp only [Bool.not_true, Bool.or_false, Bool.false_eq_true, if_false, if_true,
                and_self, Option.mem_def, Option.some.injEq, forall_eq']
              split
              · simp
              · refine ⟨fun id => ?_, fun id hid => ?_⟩
                · rw [mem_foldl_insertGame, hgames]
                  simp only [List.mem_append, List.mem_singleton, or_and_right, exists_or,
                    exists_eq_left]
                · obtain ⟨gameMeta, hgame⟩ := (QMap.mem_iff _ _).mp hid
                  rw [foldl_insertGame_getElem?]
                  rw [listed] at hgame ⊢
                  rw [hgame, Option.some_or]

/-! ## What is shown -/

/-- The model shows the games of this reply, with their metadata. -/
def Shows (m : DownloadableGamesModel) (reply : Option JsonObject) : Prop :=
  m.gameIds = (listedBy reply).keys ∧
    ∀ gameId, m.game gameId = (listedBy reply)[gameId]?.getD []

theorem gameIds_eq :
    m.gameIds = (m.gamesCache.get m.activePlayerModel.activePlayerId).keys := by
  rw [gameIds, GameDataCache.hasGames]
  by_cases hmem : GameDataCache.effectivePlayerId m.activePlayerModel.activePlayerId ∈ m.gamesCache
  · simp [hmem]
  · simp [hmem, GameDataCache.get]

theorem game_eq (gameId : String) :
    m.game gameId =
      (m.gamesCache.get m.activePlayerModel.activePlayerId)[gameId]?.getD [] := by
  rw [game, GameDataCache.hasGames]
  by_cases hmem : GameDataCache.effectivePlayerId m.activePlayerModel.activePlayerId ∈ m.gamesCache
  · simp [hmem]
  · simp [hmem, GameDataCache.get]

theorem shows_iff (reply : Option JsonObject) :
    m.Shows reply ↔
      m.gamesCache.get m.activePlayerModel.activePlayerId = listedBy reply := by
  simp only [Shows, gameIds_eq, game_eq]
  constructor
  · rintro ⟨hkeys, hmeta⟩
    refine Std.ExtTreeMap.ext_getElem? fun gameId => ?_
    have hmem : gameId ∈ m.gamesCache.get m.activePlayerModel.activePlayerId ↔
        gameId ∈ listedBy reply := by
      rw [← Std.ExtTreeMap.mem_keys, hkeys, Std.ExtTreeMap.mem_keys]
    rw [QMap.mem_iff, QMap.mem_iff] at hmem
    have hgame := hmeta gameId
    cases hshown : (m.gamesCache.get m.activePlayerModel.activePlayerId)[gameId]? with
    | some gameMeta =>
        obtain ⟨listedMeta, hlisted⟩ := hmem.mp ⟨_, hshown⟩
        rw [hshown, hlisted] at hgame
        rw [hlisted]
        exact congrArg some hgame
    | none =>
        cases hlisted : (listedBy reply)[gameId]? with
        | none => rfl
        | some listedMeta =>
            obtain ⟨gameMeta, hgame⟩ := hmem.mpr ⟨_, hlisted⟩
            rw [hshown] at hgame
            cases hgame
  · intro heq
    rw [heq]
    exact ⟨rfl, fun gameId => rfl⟩

/--
Nothing is left of older free replies that a guest would see, and without an
active player the free replies list what is kept under the id 0, which no player
has.
-/
def FreeGamesCurrent (msgs : List JsonObject) (activePlayerId : Int) : Prop :=
  (activePlayerId < 0 → ∀ reply ∈ latest isFree msgs, ∀ msg ∈ sinceCleared msgs,
      ∀ gameId ∈ listed msg, gameId ∈ listed reply) ∧
    (activePlayerId = 0 →
      listedBy (latest isFree msgs) = listedBy (latest (fun msg => playerId msg = 0) msgs))

theorem get_free_iff :
    (received msgs a).gamesCache.get (-1) = listedBy (latest isFree msgs) ↔
      ∀ reply ∈ latest isFree msgs, ∀ msg ∈ sinceCleared msgs,
        ∀ gameId ∈ listed msg, gameId ∈ listed reply := by
  obtain ⟨hgames, hlatest⟩ := get_free msgs a
  constructor
  · intro heq reply hreply msg hmsg gameId hlisted
    have hgame := (hgames gameId).mpr ⟨msg, hmsg, hlisted⟩
    rw [heq, Option.mem_def.mp hreply] at hgame
    exact hgame
  · intro hcurrent
    refine Std.ExtTreeMap.ext_getElem? fun gameId => ?_
    cases hreply : latest isFree msgs with
    | none =>
        have hmissing : gameId ∉ (received msgs a).gamesCache.get (-1) := by
          rw [hgames, sinceCleared_eq_nil hreply]
          rintro ⟨msg, hmsg, -⟩
          cases hmsg
        rw [(QMap.notMem_iff _ _).mp hmissing, listedBy, Std.ExtTreeMap.getElem?_empty]
    | some reply =>
        by_cases hlisted : gameId ∈ listed reply
        · exact hlatest reply hreply gameId hlisted
        · have hmissing : gameId ∉ (received msgs a).gamesCache.get (-1) := by
            rw [hgames]
            rintro ⟨msg, hmsg, hgame⟩
            exact hlisted (hcurrent reply hreply msg hmsg gameId hgame)
          rw [(QMap.notMem_iff _ _).mp hmissing]
          exact ((QMap.notMem_iff _ _).mp hlisted).symm

/-- The games of the latest reply for the active player are shown in these cases only. -/
theorem shows_latest_iff (msgs : List JsonObject) (activePlayerId : Int) :
    (received msgs activePlayerId).Shows (latest (applies activePlayerId) msgs) ↔
      FreeGamesCurrent msgs activePlayerId := by
  rw [shows_iff, activePlayerId_received, FreeGamesCurrent]
  rcases lt_trichotomy activePlayerId 0 with hguest | rfl | hregistered
  · have happlies : applies activePlayerId = isFree := by
      funext msg
      exact if_neg (by omega)
    rw [happlies, GameDataCache.get_guest hguest, get_free_iff]
    simp [hguest, hguest.ne]
  · have happlies : applies 0 = isFree := by
      funext msg
      exact if_neg (by omega)
    rw [happlies, get_registered (le_refl 0), eq_comm]
    simp
  · have happlies : applies activePlayerId = fun msg => playerId msg = activePlayerId := by
      funext msg
      exact if_pos hregistered
    rw [happlies, get_registered hregistered.le]
    simp [hregistered.ne', hregistered.not_gt]

/-- A guest is shown a game that the latest reply for guests no longer lists. -/
theorem withdrawnGame_shown :
    ¬ ∀ (msgs : List JsonObject) (activePlayerId : Int),
      (∀ msg ∈ msgs, isFailure msg = false) →
      (received msgs activePlayerId).Shows (latest (applies activePlayerId) msgs) := by
  intro h
  let reply (id : String) : JsonObject :=
    [("applications", .array [.object [("id", .string id)]]), ("player_id", .number (-2))]
  have hshown := (h [reply "chess-1", reply "go-1"] (-2) (by decide +kernel)).1
  revert hshown
  decide +kernel

/--
The reply with the player id of a query reaches the games that are shown, but
for a console without an active player.
-/
theorem query_shown_iff (hmin : -2 ^ 31 ≤ m.activePlayerModel.activePlayerId)
    (hmax : m.activePlayerModel.activePlayerId < 2 ^ 31) :
    GameDataCache.effectivePlayerId (playerId m.queryMessage) =
        GameDataCache.effectivePlayerId m.activePlayerModel.activePlayerId ↔
      m.activePlayerModel.hasActivePlayer = true := by
  unfold queryMessage
  cases hactive : m.activePlayerModel.hasActivePlayer with
  | true =>
      have hplayer : playerId (("command", .string "QueryDownloadableApplications") ::
          [("player_id", .number m.activePlayerModel.activePlayerId)]) =
          m.activePlayerModel.activePlayerId := by
        have hnumber : (Json.number m.activePlayerModel.activePlayerId).toInt =
            m.activePlayerModel.activePlayerId := if_pos ⟨rfl, hmin, hmax⟩
        simpa [playerId, JsonObject.contains, JsonObject.value, List.lookup_cons] using hnumber
      rw [if_pos rfl, hplayer]
      exact iff_of_true rfl rfl
  | false =>
      have hnone : m.activePlayerModel.activePlayerId = 0 := by
        rw [ActivePlayerModel.hasActivePlayer, decide_eq_false_iff_not, not_not] at hactive
        exact hactive
      rw [hnone]
      decide +kernel

end

end DownloadableGamesModel

end GBerry.Client
