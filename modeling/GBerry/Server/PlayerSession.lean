import GBerry.Common.QMap

/-!
# `PlayerSession` and `PlayerSessionManager`

A session is kept under its token, and removed and looked up by the id of its
player.  The ids are drawn from two counters of C++ type `int`, which wrap around.
-/

namespace GBerry.Server

open GBerry.Common

structure PlayerSession where
  playerId : Int32
  playerName : String
  sessionToken : String
  userToken : String
  deriving DecidableEq

namespace PlayerSession

def isGuest (session : PlayerSession) : Bool := session.userToken = ""

def isValid (session : PlayerSession) : Bool := session.sessionToken ≠ ""

def invalid : PlayerSession := ⟨-1, "INVALID", "", ""⟩

end PlayerSession

/-- The counters of `playersession.cpp`: 0 and -1 are reserved. -/
structure PlayerIdCounters where
  playerIdCounter : Int32
  guestIdCounter : Int32

namespace PlayerIdCounters

def start : PlayerIdCounters := ⟨1, -2⟩

def guestPlayerSession (counters : PlayerIdCounters) (guestName sessionToken : String) :
    PlayerSession × PlayerIdCounters :=
  (⟨counters.guestIdCounter, guestName, sessionToken, ""⟩,
    { counters with guestIdCounter := counters.guestIdCounter - 1 })

def signedInPlayerSession (counters : PlayerIdCounters)
    (playerName sessionToken userToken : String) : PlayerSession × PlayerIdCounters :=
  (⟨counters.playerIdCounter, playerName, sessionToken, userToken⟩,
    { counters with playerIdCounter := counters.playerIdCounter + 1 })

end PlayerIdCounters

structure PlayerSessionManager where
  sessions : QMap String PlayerSession

namespace PlayerSessionManager

def start : PlayerSessionManager := ⟨∅⟩

def isPlayerNameReserved (m : PlayerSessionManager) (playerName : String) : Bool :=
  m.sessions.toList.any fun entry => entry.2.playerName = playerName

def insertSession (m : PlayerSessionManager) (session : PlayerSession) :
    PlayerSessionManager :=
  ⟨m.sessions.insert session.sessionToken session⟩

/-- The first session of the player, in the order of the tokens. -/
def find (m : PlayerSessionManager) (playerId : Int32) : Option PlayerSession :=
  (m.sessions.toList.find? fun entry => entry.2.playerId = playerId).map Prod.snd

def removeSession (m : PlayerSessionManager) (playerId : Int32) : PlayerSessionManager :=
  match m.find playerId with
  | some session => ⟨m.sessions.erase session.sessionToken⟩
  | none => m

def session (m : PlayerSessionManager) (playerId : Int32) : PlayerSession :=
  (m.find playerId).getD PlayerSession.invalid

def sessionByToken (m : PlayerSessionManager) (sessionToken : String) : PlayerSession :=
  (m.sessions[sessionToken]?).getD PlayerSession.invalid

variable {m : PlayerSessionManager} {playerId : Int32} {playerName : String}

theorem isPlayerNameReserved_iff : m.isPlayerNameReserved playerName = true ↔
    ∃ (token : String) (session : PlayerSession), m.sessions[token]? = some session ∧
      session.playerName = playerName := by
  simp only [isPlayerNameReserved, List.any_eq_true, decide_eq_true_eq, Prod.exists,
    Std.ExtTreeMap.mem_toList_iff_getElem?_eq_some]

theorem find_some {session : PlayerSession} (h : m.find playerId = some session) :
    session.playerId = playerId ∧ ∃ token : String, m.sessions[token]? = some session := by
  obtain ⟨⟨token, found⟩, hfind, rfl⟩ := Option.map_eq_some_iff.mp h
  have hid := List.find?_some hfind
  rw [decide_eq_true_eq] at hid
  exact ⟨hid, token,
    Std.ExtTreeMap.mem_toList_iff_getElem?_eq_some.mp (List.mem_of_find?_eq_some hfind)⟩

theorem find_none : m.find playerId = none ↔
    ∀ (token : String) (session : PlayerSession), m.sessions[token]? = some session →
      session.playerId ≠ playerId := by
  simp only [find, Option.map_eq_none_iff, List.find?_eq_none, decide_eq_true_eq, Prod.forall,
    Std.ExtTreeMap.mem_toList_iff_getElem?_eq_some]

theorem find_of_unique {token : String} {session : PlayerSession}
    (h : m.sessions[token]? = some session)
    (hunique : ∀ (other : String) (found : PlayerSession), m.sessions[other]? = some found →
      found.playerId = session.playerId → found = session) :
    m.find session.playerId = some session := by
  cases hfind : m.find session.playerId with
  | none => exact absurd rfl (find_none.mp hfind token session h)
  | some found =>
      obtain ⟨hid, other, hother⟩ := find_some hfind
      rw [hunique other found hother hid]

def KeyedByToken (m : PlayerSessionManager) : Prop :=
  ∀ (token : String) (session : PlayerSession),
    m.sessions[token]? = some session → session.sessionToken = token

theorem keyedByToken_start : start.KeyedByToken := by
  intro token session h
  simp [start] at h

theorem KeyedByToken.insertSession (h : m.KeyedByToken) (session : PlayerSession) :
    (m.insertSession session).KeyedByToken := by
  intro token found hfound
  simp only [PlayerSessionManager.insertSession, QMap.getElem?_insert] at hfound
  split at hfound
  · rename_i heq
    cases hfound
    exact heq.symm
  · exact h token found hfound

theorem KeyedByToken.removeSession (h : m.KeyedByToken) (playerId : Int32) :
    (m.removeSession playerId).KeyedByToken := by
  unfold PlayerSessionManager.removeSession
  split
  · intro token found hfound
    simp only [QMap.getElem?_erase, Option.ite_none_left_eq_some] at hfound
    exact h token found hfound.2
  · exact h

theorem KeyedByToken.removed (h : m.KeyedByToken) {token : String} {session : PlayerSession}
    (hsession : m.sessions[token]? = some session)
    (hremoved : (m.removeSession playerId).sessions[token]? ≠ some session) :
    session.playerId = playerId := by
  unfold PlayerSessionManager.removeSession at hremoved
  split at hremoved
  · rename_i found hfind
    obtain ⟨hid, other, hother⟩ := find_some hfind
    rw [h other found hother, QMap.getElem?_erase] at hremoved
    split at hremoved
    · rename_i heq
      subst heq
      cases hsession.symm.trans hother
      exact hid
    · exact absurd hsession hremoved
  · exact absurd hsession hremoved

end PlayerSessionManager

end GBerry.Server
