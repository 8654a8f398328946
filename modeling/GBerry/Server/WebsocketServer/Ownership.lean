import GBerry.Foundation.Alternation
import GBerry.Server.WebsocketServer

/-!
# The connection that a socket ends

A second socket with the token of a connected player takes the place of the first one
in `connectionByPlayerId`.  The first connection stays, and when its socket
disconnects, the second one is closed in its place.
-/

namespace GBerry.Server.WebsocketServer

open GBerry.Common
open GBerry.Foundation

variable {β : Type} [QByteArray β]

/-- The socket ends no connection but its own, and no session of another open one. -/
structure EndsOnly (st : Step WebsocketServer (WebsocketEvent β) (WebsocketSignal β))
    (conn : Nat) : Prop where
  removes : ∀ (playerId : Int32) (other : Nat),
    st.pre.connectionByPlayerId[playerId]? = some other →
    st.post.connectionByPlayerId[playerId]? ≠ some other → other = conn
  deletes : ∀ other, .deleted other ∈ st.out → other = conn
  reports : ∀ playerId, .playerConnectionClosed playerId ∈ st.out →
    st.pre.connectionByPlayerId[playerId]? = some conn
  session : ∀ (token : String) (session : PlayerSession),
    st.pre.console.sessionManager.sessions[token]? = some session →
    st.post.console.sessionManager.sessions[token]? ≠ some session →
    ∀ (other : Nat) (connection : WebsocketConnection), other ≠ conn →
      st.pre.connections[other]? = some connection → connection.socket = true →
      connection.playerId ≠ session.playerId

def DisconnectsItself
    (st : Step WebsocketServer (WebsocketEvent β) (WebsocketSignal β)) : Prop :=
  ∀ conn, st.label = .disconnected conn → EndsOnly st conn

def tells (playerId : Int32) : WebsocketSignal β → Option Bool
  | .newPlayerConnection session => if session.playerId = playerId then some true else none
  | .playerConnectionClosed closed => if closed = playerId then some false else none
  | _ => none

/-- No socket is accepted for a player who has a connection. -/
def OpensFresh (playerId : Int32)
    (st : Step WebsocketServer (WebsocketEvent β) (WebsocketSignal β)) : Prop :=
  ∀ path token session, st.label = .newConnection path token →
    st.pre.sessionFor path token = some session → session.playerId = playerId →
    playerId ∉ st.pre.connectionByPlayerId

structure Owned (s : WebsocketServer) : Prop where
  connection : ∀ (playerId : Int32) (conn : Nat),
    s.connectionByPlayerId[playerId]? = some conn →
    s.connections[conn]? = some ⟨playerId, true⟩
  player : ∀ (conn : Nat) (connection : WebsocketConnection),
    s.connections[conn]? = some connection →
    s.connectionByPlayerId[connection.playerId]? = some conn
  named : ∀ conn ∈ s.connections, conn < s.connectionCount
  sessions : s.console.sessionManager.KeyedByToken

section Reports

variable {s s' : WebsocketServer} {playerId : Int32} {event : WebsocketEvent β}
  {out : List (WebsocketSignal β)}

def connected (playerId : Int32) (s : WebsocketServer) : Bool :=
  decide (playerId ∈ s.connectionByPlayerId)

abbrev made (s : WebsocketServer) (event : WebsocketEvent β) :
    Step WebsocketServer (WebsocketEvent β) (WebsocketSignal β) :=
  ⟨s, event, (s.perform event).2, (s.perform event).1⟩

theorem step_ok (h : (machine β).step s event = .ok (s', out)) :
    s' = (s.perform event).1 ∧ out = (s.perform event).2 := by
  have hperform : s.perform event = (s', out) := Except.ok.inj h
  rw [hperform]
  exact ⟨rfl, rfl⟩

theorem perform_reports (hfresh : OpensFresh playerId (made s event)) :
    (s.perform event).2.filterMap (tells playerId) =
      report (connected playerId s) (connected playerId (s.perform event).1) := by
  have heffect := s.perform_effect event
  unfold connected
  generalize (s.perform event).1.connectionByPlayerId = after at heffect ⊢
  generalize (s.perform event).2 = out at heffect ⊢
  cases heffect with
  | @joined path token session hsession =>
      have hnew := hfresh path token session rfl hsession
      simp only [QMap.mem_insert_iff]
      by_cases heq : session.playerId = playerId
      · have hmissing := hnew heq
        simp [tells, report, heq, hmissing]
      · have hne : playerId ≠ session.playerId := Ne.symm heq
        simp [tells, report, heq, hne]
  | @left _ closed conn _ hconn =>
      have hmem : closed ∈ s.connectionByPlayerId := QMap.mem_of_getElem? hconn
      simp only [QMap.mem_erase_iff]
      by_cases heq : closed = playerId
      · subst heq
        simp [List.filterMap_cons, tells, report, hmem]
      · have hne : playerId ≠ closed := Ne.symm heq
        simp [List.filterMap_cons, tells, report, heq, hne]
  | quiet _ hquiet =>
      rw [report_self, List.filterMap_eq_nil_iff]
      intro signal hsignal
      have hnothing := hquiet signal hsignal
      cases signal with
      | newPlayerConnection _ => exact hnothing.elim
      | playerConnectionClosed _ => exact hnothing.elim
      | _ => rfl

theorem perform_repeats (hfresh : ¬ OpensFresh playerId (made s event)) :
    (s.perform event).2.filterMap (tells playerId) = [connected playerId s] := by
  simp only [OpensFresh, not_forall, not_not] at hfresh
  obtain ⟨path, token, session, hlabel, hsession, hid, hmem⟩ := hfresh
  subst hlabel
  simp [perform, onNewConnection, hsession, tells, connected, hid, hmem]

/-- The signals about a player alternate exactly when the player never connects twice. -/
theorem alternates_iff {history : History β} (h : Execution (machine β) history s) :
    Alternates ((outputs history).filterMap (tells playerId)) ↔
      Execution.EachStep (fun _ st => OpensFresh playerId st) history := by
  have hinit : connected playerId (machine β).init = false := rfl
  refine execution_alternates_iff hinit ?_ ?_ h
  · intro s s' event out hstep hfresh
    obtain ⟨rfl, rfl⟩ := step_ok hstep
    exact perform_reports hfresh
  · intro s s' event out hstep hfresh
    obtain ⟨rfl, rfl⟩ := step_ok hstep
    exact perform_repeats hfresh

end Reports

section Ownership

variable {s s' : WebsocketServer} {event : WebsocketEvent β}

theorem owned_start : start.Owned where
  connection playerId conn h := by simp [start] at h
  player conn connection h := by simp [start] at h
  named conn h := by simp [start] at h
  sessions := PlayerSessionManager.keyedByToken_start

omit [QByteArray β] in
theorem Owned.closePlayerConnection (hs : s.Owned) (playerId : Int32) :
    (s.closePlayerConnection (β := β) playerId).1.Owned := by
  unfold WebsocketServer.closePlayerConnection
  split
  · exact hs
  rename_i conn hconn
  have hown := hs.connection playerId conn hconn
  refine ⟨?_, ?_, ?_, hs.sessions.removeSession playerId⟩
  · intro other otherConn hother
    simp only [QMap.getElem?_erase, Option.ite_none_left_eq_some] at hother ⊢
    have hconnection := hs.connection other otherConn hother.2
    refine ⟨?_, hconnection⟩
    rintro rfl
    rw [hown, Option.some.injEq] at hconnection
    exact hother.1 (congrArg WebsocketConnection.playerId hconnection).symm
  · intro otherConn connection hother
    simp only [QMap.getElem?_erase, Option.ite_none_left_eq_some] at hother ⊢
    have hplayer := hs.player otherConn connection hother.2
    refine ⟨?_, hplayer⟩
    rintro rfl
    rw [hconn, Option.some.injEq] at hplayer
    exact hother.1 hplayer.symm
  · intro other hother
    exact hs.named other ((QMap.mem_erase_iff _ _ _).mp hother).2

omit [QByteArray β] in
theorem Owned.onNewConnection (hs : s.Owned) {path token : String}
    (hfresh : ∀ session, s.sessionFor path token = some session →
      session.playerId ∉ s.connectionByPlayerId) :
    (s.onNewConnection (β := β) path token).1.Owned := by
  unfold WebsocketServer.onNewConnection
  split
  · exact hs
  rename_i session hsession
  have hunnamed (conn : Nat) (hconn : conn ∈ s.connections) : conn ≠ s.connectionCount :=
    Nat.ne_of_lt (hs.named conn hconn)
  refine ⟨?_, ?_, ?_, hs.sessions⟩
  · intro playerId conn hconn
    simp only [QMap.getElem?_insert] at hconn ⊢
    split at hconn
    · rename_i heq
      cases hconn
      rw [if_pos rfl, heq]
    · have hold := hs.connection playerId conn hconn
      rw [if_neg (hunnamed conn (QMap.mem_of_getElem? hold)), hold]
  · intro conn connection hconn
    simp only [QMap.getElem?_insert] at hconn ⊢
    split at hconn
    · rename_i heq
      cases hconn
      rw [if_pos rfl, heq]
    · have hold := hs.player conn connection hconn
      rw [if_neg, hold]
      rintro heq
      exact hfresh session hsession (heq ▸ QMap.mem_of_getElem? hold)
  · intro conn hconn
    rcases (QMap.mem_insert_iff _ _ _ _).mp hconn with rfl | hold
    · exact Nat.lt_succ_self _
    · exact Nat.lt_succ_of_lt (hs.named conn hold)

theorem Owned.post (hs : s.Owned) (req : PostRequest β) :
    (s.perform (.post req)).1.Owned := by
  refine ⟨hs.connection, hs.player, hs.named, ?_⟩
  simp only [perform]
  cases haccepted : s.console.accepted req with
  | none =>
      rw [ConsoleRESTServer.handlePostRequest_refused haccepted]
      exact hs.sessions
  | some asked =>
      obtain ⟨-, hrequest⟩ := ConsoleRESTServer.handlePostRequest_accepted haccepted
      rw [hrequest]
      exact hs.sessions.insertSession _

omit [QByteArray β] in
theorem Owned.onSocketDisconnected (hs : s.Owned) (conn : Nat) :
    s.onSocketDisconnected (β := β) conn = (s, []) ∨
      ∃ playerId, s.connectionByPlayerId[playerId]? = some conn ∧
        s.onSocketDisconnected (β := β) conn = s.closePlayerConnection playerId := by
  cases hconn : s.connections[conn]? with
  | none =>
      left
      simp only [WebsocketServer.onSocketDisconnected, hconn]
  | some connection =>
      right
      have hplayer := hs.player conn connection hconn
      obtain ⟨playerId, socket⟩ := connection
      cases (hs.connection playerId conn hplayer).symm.trans hconn
      refine ⟨playerId, hplayer, ?_⟩
      have herase : (s.connections.insert conn ⟨playerId, false⟩).erase conn =
          s.connections.erase conn := by
        refine Std.ExtTreeMap.ext_getElem? fun other => ?_
        simp only [QMap.getElem?_erase, QMap.getElem?_insert]
        split <;> rfl
      simp only at hplayer
      simp only [WebsocketServer.onSocketDisconnected, hconn,
        WebsocketServer.closePlayerConnection, hplayer, herase]

theorem Owned.perform (hs : s.Owned)
    (hfresh : ∀ playerId, OpensFresh playerId (made s event)) :
    (s.perform event).1.Owned := by
  cases event with
  | post req => exact hs.post req
  | newConnection path token =>
      refine hs.onNewConnection ?_
      intro session hsession
      exact hfresh _ path token session rfl hsession rfl
  | closePlayerConnection playerId => exact hs.closePlayerConnection playerId
  | sendPlayerMessage playerId message => exact hs
  | disconnected conn =>
      simp only [WebsocketServer.perform]
      rcases hs.onSocketDisconnected (β := β) conn with hgone | ⟨playerId, -, hclosed⟩
      · rw [hgone]
        exact hs
      · rw [hclosed]
        exact hs.closePlayerConnection playerId
  | textMessageReceived conn message => exact hs

theorem Owned.disconnectsItself (hs : s.Owned) : DisconnectsItself (made s event) := by
  intro conn hlabel
  obtain rfl : event = .disconnected conn := hlabel
  simp only [made, WebsocketServer.perform]
  rcases hs.onSocketDisconnected (β := β) conn with hgone | ⟨playerId, hplayer, hclosed⟩
  · rw [hgone]
    refine ⟨?_, by simp, by simp, ?_⟩
    · intro other otherConn hbefore hafter
      exact absurd hbefore hafter
    · intro token session hbefore hafter
      exact absurd hbefore hafter
  · rw [hclosed]
    simp only [WebsocketServer.closePlayerConnection, hplayer]
    refine ⟨?_, ?_, ?_, ?_⟩
    · intro other otherConn hbefore hafter
      simp only [QMap.getElem?_erase] at hbefore hafter
      split at hafter
      · rename_i heq
        rw [heq, hplayer] at hbefore
        exact (Option.some.inj hbefore).symm
      · exact absurd hbefore hafter
    · intro other hother
      simpa using hother
    · intro other hother
      obtain rfl : other = playerId := by simpa using hother
      exact hplayer
    · intro token session hbefore hafter other connection hne hconnection _ hsame
      have hremoved := hs.sessions.removed hbefore hafter
      have hother := hs.player other connection hconnection
      rw [hsame, hremoved, hplayer] at hother
      exact hne (Option.some.inj hother).symm

end Ownership

theorem connections_endThemselves_iff {history : History β} {s : WebsocketServer}
    (h : Execution (machine β) history s) :
    (Execution.EachStep (fun _ st => DisconnectsItself st) history ∧
      ∀ playerId, Alternates ((outputs history).filterMap (tells playerId))) ↔
      Execution.EachStep (fun _ st => ∀ playerId, OpensFresh playerId st) history := by
  rw [Execution.eachStep_forall]
  constructor
  · rintro ⟨-, halternates⟩ playerId
    exact (alternates_iff h).mp (halternates playerId)
  · intro hfresh
    refine ⟨?_, fun playerId => (alternates_iff h).mpr (hfresh playerId)⟩
    refine (Execution.eachStep_of_invariant (I := Owned) owned_start ?_ h
      (Execution.eachStep_forall.mpr hfresh)).2
    intro older s s' event out _ hs hstep hfresh
    obtain ⟨rfl, rfl⟩ := step_ok hstep
    exact ⟨hs.perform hfresh, hs.disconnectsItself⟩

/-- A guest asks for a session, whose token is `abc100`. -/
def openSession : WebsocketEvent Text :=
  .post ⟨"/console/v1/session", "application/json",
    .document [("action", .string "open_console_session"), ("id", .string "guest"),
      ("name", .string "ann")]⟩

def connectsOnce : List (WebsocketEvent Text) :=
  [openSession, .newConnection "/open" "abc100", .disconnected 0]

theorem connectsOnce_endsItself :
    ∃ history s, (machine Text).run connectsOnce = .ok (history, s) ∧
      (Execution.EachStep (fun _ st => DisconnectsItself st) history ∧
        ∀ playerId, Alternates ((outputs history).filterMap (tells playerId))) := by
  refine ⟨_, _, rfl, (connections_endThemselves_iff (Machine.run_execution
    (show (machine Text).run connectsOnce = .ok (_, _) from rfl))).mpr ?_⟩
  refine ⟨?_, ?_, ?_, trivial⟩
  · intro playerId path token session hlabel
    cases hlabel
  · intro playerId path token session _ _ _
    exact Std.ExtTreeMap.not_mem_empty
  · intro playerId path token session hlabel
    cases hlabel

/-- The first socket of a player disconnects after the second one has connected. -/
theorem connectsTwice_endsOther :
    ∃ history s, (machine Text).run [openSession, .newConnection "/open" "abc100",
        .newConnection "/open" "abc100", .disconnected 0] = .ok (history, s) ∧
      ¬ (Execution.EachStep (fun _ st => DisconnectsItself st) history ∧
        ∀ playerId, Alternates ((outputs history).filterMap (tells playerId))) := by
  refine ⟨_, _, rfl, ?_⟩
  rintro ⟨hall, -⟩
  have hmem : WebsocketSignal.deleted 1 ∈
      ([.deleted 1, .playerConnectionClosed (-2)] : List (WebsocketSignal Text)) :=
    List.mem_cons_self
  cases (hall.1 0 rfl).deletes 1 hmem

end GBerry.Server.WebsocketServer
