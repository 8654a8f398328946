import GBerry.Server.ConsoleRESTServer.Sessions

/-!
# Guests

The console knows a guest by the missing token of its user, and an application by the
id of the player.  A session that is asked for without an id has neither a token of its
user nor the id of a guest.
-/

namespace GBerry.Client

def PlayersManager.isGuest (playerId : Int32) : Bool := playerId < -1

end GBerry.Client

namespace GBerry.Server.ConsoleRESTServer

open GBerry.Common
open GBerry.Foundation
open GBerry.Client

variable {β : Type} [QByteArray β]

/-- Both sides of the system take the new player for the same kind of player. -/
def OneNotion (s : ConsoleRESTServer) (id playerName : String) : Prop :=
  (s.createSession id playerName).1.isGuest =
    PlayersManager.isGuest (s.createSession id playerName).1.playerId

instance {s : ConsoleRESTServer} {id playerName : String} :
    Decidable (OneNotion s id playerName) :=
  inferInstanceAs (Decidable (_ = _))

/-- The counter that gives the id is on the side of the players with such an id. -/
def CounterAgrees (s : ConsoleRESTServer) (id : String) : Prop :=
  if id = "guest" then s.idCounters.guestIdCounter < -1
  else id = "" ↔ s.idCounters.playerIdCounter < -1

instance {s : ConsoleRESTServer} {id : String} : Decidable (CounterAgrees s id) :=
  inferInstanceAs (Decidable (if id = "guest" then s.idCounters.guestIdCounter < -1
    else id = "" ↔ s.idCounters.playerIdCounter < -1))

theorem oneNotion_iff {s : ConsoleRESTServer} {id playerName : String} :
    OneNotion s id playerName ↔ CounterAgrees s id := by
  unfold OneNotion CounterAgrees createSession
  split
  · simp [PlayerIdCounters.guestPlayerSession, PlayerSession.isGuest, PlayersManager.isGuest]
  · simp [PlayerIdCounters.signedInPlayerSession, PlayerSession.isGuest,
      PlayersManager.isGuest]

theorem counterAgrees_iff {history : History β} {s : ConsoleRESTServer} {id : String}
    (h : Execution (machine β) history s) (hguests : guests history < 2 ^ 31 - 2)
    (hplayers : signedIn history < 2 ^ 31 - 2) : CounterAgrees s id ↔ id ≠ "" := by
  obtain ⟨-, hguest, hplayer⟩ := (tracks_of_execution h hguests hplayers).counted
  have hreserved : (-1 : Int32).toInt = -1 := rfl
  have hguestLt : s.idCounters.guestIdCounter < -1 := by
    rw [Int32.lt_iff_toInt_lt, hguest, toInt_guestId (by omega), hreserved]
    omega
  have hplayerLt : ¬ s.idCounters.playerIdCounter < -1 := by
    rw [Int32.lt_iff_toInt_lt, hplayer, toInt_signedInId (by omega), hreserved]
    omega
  unfold CounterAgrees
  split
  · rename_i hid
    exact iff_of_true hguestLt (by rw [hid]; decide)
  · rw [iff_false_right hplayerLt]

theorem eachStep_oneNotion_iff {history : History β} {s : ConsoleRESTServer}
    (h : Execution (machine β) history s) :
    Execution.EachStep (fun _ st => ∀ id playerName,
        opens st = some (id, playerName) → OneNotion st.pre id playerName) history ↔
      Execution.EachStep (fun _ st => ∀ id playerName,
        opens st = some (id, playerName) → CounterAgrees st.pre id) history := by
  refine h.eachStep_iff ?_
  intro older s s' label out _ _
  refine forall_congr' fun id => forall_congr' fun playerName => imp_congr_right fun _ => ?_
  exact oneNotion_iff

/-- A guest and a user with a token are known on both sides. -/
theorem twoPlayers_oneNotion :
    ∃ history s, (machine Text).run twoPlayers = .ok (history, s) ∧
      Execution.EachStep (fun _ st => ∀ id playerName,
        opens st = some (id, playerName) → OneNotion st.pre id playerName) history := by
  refine ⟨_, _, rfl, (eachStep_oneNotion_iff (Machine.run_execution
    (show (machine Text).run twoPlayers = .ok (_, _) from rfl))).mpr ?_⟩
  refine ⟨?_, ?_, ?_, trivial⟩
  · intro id playerName hopens
    cases hopens
  · intro id playerName hopens
    cases (show some ("token5678", "ben") = some (id, playerName) from hopens)
    decide
  · intro id playerName hopens
    cases (show some ("guest", "ann") = some (id, playerName) from hopens)
    decide

theorem withoutId_differs :
    ∃ history s, (machine Text).run [asks "" "ann"] = .ok (history, s) ∧
      ¬ Execution.EachStep (fun _ st => ∀ id playerName,
        opens st = some (id, playerName) → OneNotion st.pre id playerName) history := by
  refine ⟨_, _, rfl, ?_⟩
  intro hall
  have hone := hall.1 "" "ann" rfl
  revert hone
  decide

end GBerry.Server.ConsoleRESTServer
