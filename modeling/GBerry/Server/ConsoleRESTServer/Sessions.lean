import Mathlib
import GBerry.Foundation.Execution
import GBerry.Server.ConsoleRESTServer

/-!
# The sessions of the players

Names are kept apart by looking through the sessions, tokens by one counter, and ids
by two counters that run in opposite directions.  All of it holds together as long as
the counters of the ids do not wrap around.
-/

namespace GBerry.Server.ConsoleRESTServer

open GBerry.Common
open GBerry.Foundation

inductive RESTEvent (β : Type) where
  | post (req : PostRequest β)
  | removeSession (playerId : Int32)

variable {β : Type} [QByteArray β]

def step (s : ConsoleRESTServer) :
    RESTEvent β → Except Empty (ConsoleRESTServer × List (PostResponse β))
  | .post req => .ok ((s.handlePostRequest req).1, [(s.handlePostRequest req).2])
  | .removeSession playerId => .ok (s.removeSession playerId, [])

def machine (β : Type) [QByteArray β] :
    Machine ConsoleRESTServer (RESTEvent β) (PostResponse β) Empty where
  init := start
  step := step

abbrev History (β : Type) := List (Step ConsoleRESTServer (RESTEvent β) (PostResponse β))

def opens (st : Step ConsoleRESTServer (RESTEvent β) (PostResponse β)) :
    Option (String × String) :=
  match st.label with
  | .post req => st.pre.accepted req
  | .removeSession _ => none

def openSessions : History β → List PlayerSession
  | [] => []
  | st :: older =>
      match st.label with
      | .post _ =>
          match opens st with
          | some (id, playerName) =>
              (st.pre.createSession id playerName).1 :: openSessions older
          | none => openSessions older
      | .removeSession playerId =>
          (openSessions older).filter fun session => session.playerId ≠ playerId

def guests (history : History β) : Nat :=
  history.countP fun st => (opens st).any fun asked => asked.1 = "guest"

def signedIn (history : History β) : Nat :=
  history.countP fun st => (opens st).any fun asked => asked.1 ≠ "guest"

def Unmistakable (sessions : List PlayerSession) : Prop :=
  ∀ x ∈ sessions, ∀ y ∈ sessions, x.playerName = y.playerName ∨
    x.sessionToken = y.sessionToken ∨ x.playerId = y.playerId → x = y

def token (n : Nat) : String := "abc" ++ toString (Int32.ofInt (100 + n)).toInt

def guestId (n : Nat) : Int32 := Int32.ofInt (-2 - n)

def signedInId (n : Nat) : Int32 := Int32.ofInt (1 + n)

section Counters

theorem ofInt_add_one {m n : Int} (h : n = m + 1) : Int32.ofInt m + 1 = Int32.ofInt n := by
  rw [h]
  exact (Int32.ofInt_add m 1).symm

theorem ofInt_sub_one {m n : Int} (h : n = m - 1) : Int32.ofInt m - 1 = Int32.ofInt n := by
  rw [h]
  exact (Int32.ofInt_sub m 1).symm

theorem ofInt_inj {m n : Int} (hlow : m < n + 2 ^ 32) (hhigh : n < m + 2 ^ 32)
    (h : Int32.ofInt m = Int32.ofInt n) : m = n := by
  have hbmod := congrArg Int32.toInt h
  simp only [Int32.toInt_ofInt, Int32.size, Int.bmod_def] at hbmod
  omega

theorem token_inj {m n : Nat} (hm : m < 2 ^ 32) (hn : n < 2 ^ 32)
    (h : token m = token n) : m = n := by
  have hnumber := Int.repr_injective ((String.append_right_inj _).mp h)
  have heq := ofInt_inj (by omega) (by omega) (Int32.toInt_inj.mp hnumber)
  omega

theorem toInt_guestId {n : Nat} (hn : n < 2 ^ 31 - 1) : (guestId n).toInt = -2 - n :=
  Int32.toInt_ofInt_of_le (by omega) (by omega)

theorem toInt_signedInId {n : Nat} (hn : n < 2 ^ 31 - 1) : (signedInId n).toInt = 1 + n :=
  Int32.toInt_ofInt_of_le (by omega) (by omega)

end Counters

def Drawn (g p : Nat) (session : PlayerSession) : Prop :=
  (∃ n < g + p, session.sessionToken = token n) ∧
    ((∃ n < g, session.playerId = guestId n) ∨ ∃ n < p, session.playerId = signedInId n)

section Drawing

variable {g p : Nat} {session : PlayerSession}

theorem Drawn.mono {g' p' : Nat} (h : Drawn g p session) (hg : g ≤ g') (hp : p ≤ p') :
    Drawn g' p' session := by
  obtain ⟨⟨n, hn, htoken⟩, hid⟩ := h
  refine ⟨⟨n, by omega, htoken⟩, ?_⟩
  rcases hid with ⟨k, hk, heq⟩ | ⟨k, hk, heq⟩
  · exact .inl ⟨k, by omega, heq⟩
  · exact .inr ⟨k, by omega, heq⟩

theorem Drawn.toInt_playerId (h : Drawn g p session) (hg : g < 2 ^ 31 - 2)
    (hp : p < 2 ^ 31 - 2) :
    -2 - (g : Int) < session.playerId.toInt ∧ session.playerId.toInt ≤ -2 ∨
      1 ≤ session.playerId.toInt ∧ session.playerId.toInt < 1 + (p : Int) := by
  rcases h.2 with ⟨k, hk, hdrawn⟩ | ⟨k, hk, hdrawn⟩
  · rw [hdrawn, toInt_guestId (by omega)]
    omega
  · rw [hdrawn, toInt_signedInId (by omega)]
    omega

theorem Drawn.fresh (h : Drawn g p session) (hg : g < 2 ^ 31 - 2) (hp : p < 2 ^ 31 - 2) :
    session.sessionToken ≠ token (g + p) ∧ session.playerId ≠ guestId g ∧
      session.playerId ≠ signedInId p := by
  have hvalue := h.toInt_playerId hg hp
  refine ⟨?_, ?_, ?_⟩
  · obtain ⟨n, hn, htoken⟩ := h.1
    rw [htoken]
    intro heq
    have hsame := token_inj (by omega) (by omega) heq
    omega
  · intro heq
    rw [heq, toInt_guestId (by omega)] at hvalue
    omega
  · intro heq
    rw [heq, toInt_signedInId (by omega)] at hvalue
    omega

theorem Drawn.reserved (h : Drawn g p session) (hg : g < 2 ^ 31 - 2) (hp : p < 2 ^ 31 - 2) :
    session.playerId ≠ 0 ∧ session.playerId ≠ -1 := by
  have hvalue := h.toInt_playerId hg hp
  constructor
  · intro heq
    have hzero : session.playerId.toInt = 0 := by rw [heq]; rfl
    omega
  · intro heq
    have hinvalid : session.playerId.toInt = -1 := by rw [heq]; rfl
    omega

end Drawing

structure Counted (s : ConsoleRESTServer) (g p : Nat) : Prop where
  tokenCounter : s.tokenCounter = Int32.ofInt (100 + (g + p : Nat))
  guestIdCounter : s.idCounters.guestIdCounter = guestId g
  playerIdCounter : s.idCounters.playerIdCounter = signedInId p

section Creation

variable {s : ConsoleRESTServer} {g p : Nat} {id playerName : String}

theorem counted_start : Counted start 0 0 := ⟨rfl, rfl, rfl⟩

theorem createSession_guest (hs : Counted s g p) :
    (s.createSession "guest" playerName).1 = ⟨guestId g, playerName, token (g + p), ""⟩ ∧
      Counted (s.createSession "guest" playerName).2 (g + 1) p := by
  obtain ⟨htoken, hguest, hplayer⟩ := hs
  simp only [createSession, PlayerIdCounters.guestPlayerSession, if_pos, htoken, hguest]
  exact ⟨rfl, ofInt_add_one (by omega), ofInt_sub_one (by omega), hplayer⟩

theorem createSession_signedIn (hs : Counted s g p) (hid : id ≠ "guest") :
    (s.createSession id playerName).1 = ⟨signedInId p, playerName, token (g + p), id⟩ ∧
      Counted (s.createSession id playerName).2 g (p + 1) := by
  obtain ⟨htoken, hguest, hplayer⟩ := hs
  simp only [createSession, PlayerIdCounters.signedInPlayerSession, if_neg hid, htoken,
    hplayer]
  exact ⟨rfl, ofInt_add_one (by omega), hguest, ofInt_add_one (by omega)⟩

theorem createSession_drawn (hs : Counted s g p) {g' p' : Nat}
    (hcounts : id = "guest" ∧ g' = g + 1 ∧ p' = p ∨ id ≠ "guest" ∧ g' = g ∧ p' = p + 1) :
    (s.createSession id playerName).1.sessionToken = token (g + p) ∧
      Counted (s.createSession id playerName).2 g' p' ∧
      ((s.createSession id playerName).1.playerId = guestId g ∧ g' = g + 1 ∧ p' = p ∨
        (s.createSession id playerName).1.playerId = signedInId p ∧ g' = g ∧ p' = p + 1) := by
  rcases hcounts with ⟨rfl, rfl, rfl⟩ | ⟨hid, rfl, rfl⟩
  · obtain ⟨hsession, hcounted⟩ := createSession_guest hs
    exact ⟨by rw [hsession], hcounted, .inl ⟨by rw [hsession], rfl, rfl⟩⟩
  · obtain ⟨hsession, hcounted⟩ := createSession_signedIn hs hid
    exact ⟨by rw [hsession], hcounted, .inr ⟨by rw [hsession], rfl, rfl⟩⟩

end Creation

structure Holds (m : PlayerSessionManager) (sessions : List PlayerSession) : Prop where
  getElem : ∀ (token : String) (session : PlayerSession),
    m.sessions[token]? = some session ↔
      session ∈ sessions ∧ session.sessionToken = token
  unmistakable : Unmistakable sessions

namespace Holds

variable {m : PlayerSessionManager} {sessions : List PlayerSession}
  {session : PlayerSession} {playerId : Int32}

theorem start : Holds .start [] where
  getElem token session := by simp [PlayerSessionManager.start]
  unmistakable := nofun

theorem find (h : Holds m sessions) (hsession : session ∈ sessions) :
    m.find session.playerId = some session := by
  refine PlayerSessionManager.find_of_unique ((h.getElem _ _).mpr ⟨hsession, rfl⟩) ?_
  intro other found hfound hid
  exact h.unmistakable found ((h.getElem other found).mp hfound).1 session hsession
    (.inr (.inr hid))

theorem find_none (h : Holds m sessions)
    (hmissing : ∀ session ∈ sessions, session.playerId ≠ playerId) :
    m.find playerId = none := by
  refine PlayerSessionManager.find_none.mpr ?_
  intro token session hsession
  exact hmissing session ((h.getElem token session).mp hsession).1

theorem insert (h : Holds m sessions)
    (hname : m.isPlayerNameReserved session.playerName = false)
    (htoken : ∀ other ∈ sessions, other.sessionToken ≠ session.sessionToken)
    (hid : ∀ other ∈ sessions, other.playerId ≠ session.playerId) :
    Holds (m.insertSession session) (session :: sessions) where
  getElem token found := by
    simp only [PlayerSessionManager.insertSession, QMap.getElem?_insert, List.mem_cons]
    split
    · rename_i heq
      subst heq
      constructor
      · intro hfound
        cases hfound
        exact ⟨.inl rfl, rfl⟩
      · rintro ⟨rfl | hold, htokenEq⟩
        · rfl
        · exact absurd htokenEq (htoken found hold)
    · rename_i hne
      rw [h.getElem]
      refine and_congr_left fun htokenEq => ?_
      rw [or_iff_right]
      rintro rfl
      exact hne htokenEq.symm
  unmistakable := by
    have hnew : ∀ other ∈ sessions, ¬ (other.playerName = session.playerName ∨
        other.sessionToken = session.sessionToken ∨ other.playerId = session.playerId) := by
      rintro other hother (hsame | hsame | hsame)
      · have hreserved : m.isPlayerNameReserved session.playerName = true :=
          PlayerSessionManager.isPlayerNameReserved_iff.mpr
            ⟨_, other, (h.getElem _ _).mpr ⟨hother, rfl⟩, hsame⟩
        rw [hname] at hreserved
        cases hreserved
      · exact htoken other hother hsame
      · exact hid other hother hsame
    intro x hx y hy hsame
    rcases List.mem_cons.mp hx with rfl | hxold
    · rcases List.mem_cons.mp hy with rfl | hyold
      · rfl
      · refine absurd ?_ (hnew y hyold)
        exact hsame.imp Eq.symm (Or.imp Eq.symm Eq.symm)
    · rcases List.mem_cons.mp hy with rfl | hyold
      · exact absurd hsame (hnew x hxold)
      · exact h.unmistakable x hxold y hyold hsame

theorem removeSession (h : Holds m sessions) (playerId : Int32) :
    Holds (m.removeSession playerId)
      (sessions.filter fun session => session.playerId ≠ playerId) where
  getElem token found := by
    simp only [List.mem_filter, ne_eq, decide_not, Bool.not_eq_true', decide_eq_false_iff_not]
    unfold PlayerSessionManager.removeSession
    split
    · rename_i removed hremoved
      obtain ⟨hid, other, hother⟩ := PlayerSessionManager.find_some hremoved
      have hmem := ((h.getElem other removed).mp hother).1
      simp only [QMap.getElem?_erase, Option.ite_none_left_eq_some, h.getElem]
      constructor
      · rintro ⟨hne, hfound, rfl⟩
        refine ⟨⟨hfound, ?_⟩, rfl⟩
        intro hsame
        refine hne ?_
        rw [h.unmistakable found hfound removed hmem (.inr (.inr (hsame.trans hid.symm)))]
      · rintro ⟨⟨hfound, hne⟩, rfl⟩
        refine ⟨?_, hfound, rfl⟩
        intro hsame
        refine hne ?_
        rw [h.unmistakable found hfound removed hmem (.inr (.inl hsame)), hid]
    · rename_i hnone
      rw [h.getElem, and_assoc]
      refine and_congr_right fun hfound => ?_
      rw [and_iff_right]
      exact PlayerSessionManager.find_none.mp hnone _ found
        ((h.getElem _ found).mpr ⟨hfound, rfl⟩)
  unmistakable := by
    intro x hx y hy
    exact h.unmistakable x (List.mem_of_mem_filter hx) y (List.mem_of_mem_filter hy)

end Holds

structure Tracks (history : History β) (s : ConsoleRESTServer) : Prop where
  counted : Counted s (guests history) (signedIn history)
  holds : Holds s.sessionManager (openSessions history)
  drawn : ∀ session ∈ openSessions history,
    Drawn (guests history) (signedIn history) session

section Runs

variable {history : History β} {s s' : ConsoleRESTServer} {label : RESTEvent β}
  {out : List (PostResponse β)}

theorem Tracks.created (hs : Tracks history s) {session : PlayerSession} {g p : Nat}
    (hguests : guests history < 2 ^ 31 - 2) (hplayers : signedIn history < 2 ^ 31 - 2)
    (hname : s.sessionManager.isPlayerNameReserved session.playerName = false)
    (htoken : session.sessionToken = token (guests history + signedIn history))
    (hid : session.playerId = guestId (guests history) ∧ g = guests history + 1 ∧
        p = signedIn history ∨
      session.playerId = signedInId (signedIn history) ∧ g = guests history ∧
        p = signedIn history + 1) :
    Holds (s.sessionManager.insertSession session) (session :: openSessions history) ∧
      ∀ other ∈ session :: openSessions history, Drawn g p other := by
  have hfresh := fun other hother => (hs.drawn other hother).fresh hguests hplayers
  constructor
  · refine hs.holds.insert hname ?_ ?_
    · intro other hother
      rw [htoken]
      exact (hfresh other hother).1
    · intro other hother
      rcases hid with ⟨heq, -⟩ | ⟨heq, -⟩
      · rw [heq]
        exact (hfresh other hother).2.1
      · rw [heq]
        exact (hfresh other hother).2.2
  · intro other hother
    rcases List.mem_cons.mp hother with heq | hold
    · subst heq
      rcases hid with ⟨heq, rfl, rfl⟩ | ⟨heq, rfl, rfl⟩
      · exact ⟨⟨_, by omega, htoken⟩, .inl ⟨_, by omega, heq⟩⟩
      · exact ⟨⟨_, by omega, htoken⟩, .inr ⟨_, by omega, heq⟩⟩
    · rcases hid with ⟨-, rfl, rfl⟩ | ⟨-, rfl, rfl⟩
      · exact (hs.drawn other hold).mono (by omega) (by omega)
      · exact (hs.drawn other hold).mono (by omega) (by omega)

theorem counts_of_none (history : History β)
    {st : Step ConsoleRESTServer (RESTEvent β) (PostResponse β)} (h : opens st = none) :
    guests (st :: history) = guests history ∧ signedIn (st :: history) = signedIn history := by
  simp [guests, signedIn, h]

theorem counts_of_some (history : History β)
    {st : Step ConsoleRESTServer (RESTEvent β) (PostResponse β)}
    {id playerName : String} (h : opens st = some (id, playerName)) :
    id = "guest" ∧ guests (st :: history) = guests history + 1 ∧
        signedIn (st :: history) = signedIn history ∨
      id ≠ "guest" ∧ guests (st :: history) = guests history ∧
        signedIn (st :: history) = signedIn history + 1 := by
  by_cases hid : id = "guest"
  · exact .inl ⟨hid, by simp [guests, h, hid], by simp [signedIn, h, hid]⟩
  · exact .inr ⟨hid, by simp [guests, h, hid], by simp [signedIn, h, hid]⟩

theorem Tracks.post (hs : Tracks history s) (hguests : guests history < 2 ^ 31 - 2)
    (hplayers : signedIn history < 2 ^ 31 - 2) (req : PostRequest β) :
    Tracks (⟨s, .post req, out, (s.handlePostRequest req).1⟩ :: history)
      (s.handlePostRequest req).1 := by
  cases haccepted : s.accepted req with
  | none =>
      have hopens : opens ⟨s, .post req, out, (s.handlePostRequest req).1⟩ = none := haccepted
      obtain ⟨hg, hp⟩ := counts_of_none history hopens
      have hsessions : openSessions (⟨s, .post req, out, (s.handlePostRequest req).1⟩ ::
          history) = openSessions history := by
        simp only [openSessions, hopens]
      have hsame := handlePostRequest_refused haccepted
      constructor
      · rw [hg, hp, hsame]
        exact hs.counted
      · rw [hsessions, hsame]
        exact hs.holds
      · rw [hg, hp, hsessions]
        exact hs.drawn
  | some asked =>
      obtain ⟨id, playerName⟩ := asked
      have hopens : opens ⟨s, .post req, out, (s.handlePostRequest req).1⟩ =
          some (id, playerName) := haccepted
      have hsessions : openSessions (⟨s, .post req, out, (s.handlePostRequest req).1⟩ ::
          history) = (s.createSession id playerName).1 :: openSessions history := by
        simp only [openSessions, hopens]
      obtain ⟨hname, hrequest⟩ := handlePostRequest_accepted haccepted
      obtain ⟨htoken, hcounted, hid⟩ :=
        createSession_drawn hs.counted (counts_of_some history hopens)
      obtain ⟨hholds, hdrawn⟩ := hs.created hguests hplayers
        (by rw [(s.createSession_parts id playerName).2.2.1, hname]) htoken hid
      constructor
      · rw [hrequest]
        exact ⟨hcounted.1, hcounted.2, hcounted.3⟩
      · rw [hsessions, hrequest]
        exact hholds
      · rw [hsessions]
        exact hdrawn

theorem tracks_of_execution (h : Execution (machine β) history s)
    (hguests : guests history < 2 ^ 31 - 2) (hplayers : signedIn history < 2 ^ 31 - 2) :
    Tracks history s := by
  refine h.invariant (I := fun history s => guests history < 2 ^ 31 - 2 →
    signedIn history < 2 ^ 31 - 2 → Tracks history s) ?_ ?_ hguests hplayers
  · intro _ _
    exact ⟨counted_start, .start, nofun⟩
  · intro history s s' label out _ ih hstep hguests hplayers
    have hguests' := Nat.lt_of_le_of_lt (List.sublist_cons_self _ history).countP_le hguests
    have hplayers' := Nat.lt_of_le_of_lt (List.sublist_cons_self _ history).countP_le hplayers
    have hs : Tracks history s := ih hguests' hplayers'
    cases label with
    | post req =>
        cases hstep
        exact hs.post hguests' hplayers' req
    | removeSession playerId =>
        cases hstep
        have hopens : opens (β := β) ⟨s, .removeSession playerId, [],
            s.removeSession playerId⟩ = none := rfl
        obtain ⟨hg, hp⟩ := counts_of_none history hopens
        constructor
        · rw [hg, hp]
          exact ⟨hs.counted.1, hs.counted.2, hs.counted.3⟩
        · exact hs.holds.removeSession playerId
        · rw [hg, hp]
          intro session hsession
          exact hs.drawn session (List.mem_of_mem_filter hsession)

end Runs

/-- The sessions differ in all that they are known by, and are kept under their tokens. -/
structure Distinct (m : PlayerSessionManager) : Prop where
  own : ∀ (token : String) (session : PlayerSession),
    m.sessions[token]? = some session → session.sessionToken = token
  apart : (m.sessions.toList.map Prod.snd).Pairwise fun x y =>
    x.playerName ≠ y.playerName ∧ x.sessionToken ≠ y.sessionToken ∧ x.playerId ≠ y.playerId
  reserved : ∀ session ∈ m.sessions.toList.map Prod.snd,
    session.playerId ≠ 0 ∧ session.playerId ≠ -1

/-- The manager answers with these sessions, and with no other one. -/
structure Serves (m : PlayerSessionManager) (sessions : List PlayerSession) : Prop where
  sessionByToken : ∀ session ∈ sessions, m.sessionByToken session.sessionToken = session
  session : ∀ session ∈ sessions, m.session session.playerId = session
  unknownToken : ∀ token, (∀ session ∈ sessions, session.sessionToken ≠ token) →
    m.sessionByToken token = .invalid
  unknownId : ∀ playerId, (∀ session ∈ sessions, session.playerId ≠ playerId) →
    m.session playerId = .invalid

namespace Holds

variable {m : PlayerSessionManager} {sessions : List PlayerSession} {g p : Nat}

theorem serves (h : Holds m sessions) : Serves m sessions where
  sessionByToken session hsession := by
    rw [PlayerSessionManager.sessionByToken, (h.getElem _ session).mpr ⟨hsession, rfl⟩]
    rfl
  session session hsession := by
    rw [PlayerSessionManager.session, h.find hsession]
    rfl
  unknownToken token hmissing := by
    rw [PlayerSessionManager.sessionByToken]
    cases hfound : m.sessions[token]? with
    | none => rfl
    | some session =>
        obtain ⟨hmem, htoken⟩ := (h.getElem token session).mp hfound
        exact absurd htoken (hmissing session hmem)
  unknownId playerId hmissing := by
    rw [PlayerSessionManager.session, h.find_none hmissing]
    rfl

theorem distinct (h : Holds m sessions) (hdrawn : ∀ session ∈ sessions, Drawn g p session)
    (hg : g < 2 ^ 31 - 2) (hp : p < 2 ^ 31 - 2) : Distinct m where
  own token session hsession := ((h.getElem token session).mp hsession).2
  apart := by
    refine List.pairwise_map.mpr ((QMap.toList_distinct m.sessions).imp_of_mem ?_)
    rintro ⟨token, x⟩ ⟨token', y⟩ hx hy hne
    obtain ⟨hxmem, rfl⟩ :=
      (h.getElem token x).mp (Std.ExtTreeMap.mem_toList_iff_getElem?_eq_some.mp hx)
    obtain ⟨hymem, rfl⟩ :=
      (h.getElem token' y).mp (Std.ExtTreeMap.mem_toList_iff_getElem?_eq_some.mp hy)
    have hsame := fun hsame =>
      hne (congrArg PlayerSession.sessionToken (h.unmistakable x hxmem y hymem hsame))
    exact ⟨fun heq => hsame (.inl heq), hne, fun heq => hsame (.inr (.inr heq))⟩
  reserved := by
    intro session hsession
    obtain ⟨⟨token, _⟩, hentry, rfl⟩ := List.mem_map.mp hsession
    have hmem := Std.ExtTreeMap.mem_toList_iff_getElem?_eq_some.mp hentry
    exact (hdrawn _ ((h.getElem token _).mp hmem).1).reserved hg hp

end Holds

theorem sessions_distinct {history : History β} {s : ConsoleRESTServer}
    (h : Execution (machine β) history s) (hguests : guests history < 2 ^ 31 - 2)
    (hplayers : signedIn history < 2 ^ 31 - 2) :
    Distinct s.sessionManager ∧ Serves s.sessionManager (openSessions history) := by
  have hs := tracks_of_execution h hguests hplayers
  exact ⟨hs.holds.distinct hs.drawn hguests hplayers, hs.holds.serves⟩

def asks (id playerName : String) : RESTEvent Text :=
  .post ⟨"/console/v1/session", "application/json",
    .document [("action", .string "open_console_session"), ("id", .string id),
      ("name", .string playerName)]⟩

def twoPlayers : List (RESTEvent Text) :=
  [asks "guest" "ann", asks "token5678" "ben", .removeSession (-2)]

theorem twoPlayers_few :
    ∃ history s, (machine Text).run twoPlayers = .ok (history, s) ∧
      decide ((openSessions history).length = 1 ∧ guests history < 2 ^ 31 - 2 ∧
        signedIn history < 2 ^ 31 - 2) = true := by
  apply Machine.exists_run
  decide +kernel

theorem twoPlayers_distinct :
    ∃ history s, (machine Text).run twoPlayers = .ok (history, s) ∧
      (openSessions history).length = 1 ∧
      Distinct s.sessionManager ∧ Serves s.sessionManager (openSessions history) := by
  obtain ⟨history, s, hrun, hcheck⟩ := twoPlayers_few
  obtain ⟨hlength, hguests, hplayers⟩ := of_decide_eq_true hcheck
  exact ⟨history, s, hrun, hlength,
    sessions_distinct (Machine.run_execution hrun) hguests hplayers⟩

end GBerry.Server.ConsoleRESTServer
