import GBerry.Protocol.ConsoleSessions

/-!
# Who is connected

Every token is granted to one phone, for what that phone has asked for.  Only the
phone that was given a token uses it, so that the connection of a player always
leads to the phone that asked for the player's session.
-/

namespace GBerry.Server.ConsoleRESTServer

open GBerry.Common
open GBerry.Mobile

variable {β : Type} [QByteArray β] {s : ConsoleRESTServer}

def openedId (loginMeta : UserLoginMeta) : String :=
  if loginMeta.isGuest then "guest" else loginMeta.userToken

theorem handlePostRequest_openRequest (s : ConsoleRESTServer) (loginMeta : UserLoginMeta) :
    s.handlePostRequest (ConsoleSessionManager.openRequest β loginMeta) =
      if s.sessionManager.isPlayerNameReserved loginMeta.userName then
        (s, forbidden ("Player nick name " ++ loginMeta.userName ++
          " already used. Please provide other one."))
      else
        let (session, s) := s.createSession (openedId loginMeta) loginMeta.userName
        ({ s with sessionManager := s.sessionManager.insertSession session },
          ⟨200, some "application/json", .json [("response_type", .string "ok"),
            ("token", .string session.sessionToken)]⟩) := by
  have hname : capturedName (ConsoleSessionManager.openRequest β loginMeta).path =
      some "session" := by
    change capturedName "/console/v1/session" = some "session"
    decide
  have hkind : ("session" : String) ≠ "ping" := by decide
  simp only [handlePostRequest, hname, if_neg hkind, if_true,
    ConsoleSessionManager.openConsoleSession_openRequest]
  rfl

theorem createSession_userToken (loginMeta : UserLoginMeta) (playerName : String) :
    (s.createSession (openedId loginMeta) playerName).1.userToken =
      if loginMeta.isGuest ∨ loginMeta.userToken = "guest" then "" else loginMeta.userToken := by
  unfold createSession openedId
  by_cases hguest : loginMeta.isGuest = true
  · simp [hguest, PlayerIdCounters.guestPlayerSession]
  · by_cases htoken : loginMeta.userToken = "guest"
    · simp [hguest, htoken, PlayerIdCounters.guestPlayerSession]
    · simp [hguest, htoken, PlayerIdCounters.signedInPlayerSession]

end GBerry.Server.ConsoleRESTServer

namespace GBerry.Server.WebsocketServer

open GBerry.Common

structure Shrinks (s s' : WebsocketServer) : Prop where
  tokenCounter : s'.console.tokenCounter = s.console.tokenCounter
  sessions : ∀ (token : String) (session : PlayerSession),
    s'.console.sessionManager.sessions[token]? = some session →
    s.console.sessionManager.sessions[token]? = some session
  connected : ∀ (playerId : Int32) (conn : Nat),
    s'.connectionByPlayerId[playerId]? = some conn →
    s.connectionByPlayerId[playerId]? = some conn
  connections : ∀ (conn : Nat) (connection : WebsocketConnection),
    s'.connections[conn]? = some connection →
    ∃ before, s.connections[conn]? = some before ∧ connection.playerId = before.playerId
  connectionCount : s'.connectionCount = s.connectionCount

variable {β : Type} {s s' t : WebsocketServer}

theorem Shrinks.refl (s : WebsocketServer) : Shrinks s s :=
  ⟨rfl, fun _ _ h => h, fun _ _ h => h, fun _ connection h => ⟨connection, h, rfl⟩, rfl⟩

theorem Shrinks.trans (h : Shrinks s t) (h' : Shrinks t s') : Shrinks s s' where
  tokenCounter := h'.tokenCounter.trans h.tokenCounter
  sessions token session hs := h.sessions token session (h'.sessions token session hs)
  connected playerId conn hc := h.connected playerId conn (h'.connected playerId conn hc)
  connections conn connection hc := by
    obtain ⟨middle, hmiddle, heq⟩ := h'.connections conn connection hc
    obtain ⟨before, hbefore, heq'⟩ := h.connections conn middle hmiddle
    exact ⟨before, hbefore, heq.trans heq'⟩
  connectionCount := h'.connectionCount.trans h.connectionCount

theorem removeSession_shrinks (m : PlayerSessionManager) (playerId : Int32) (token : String)
    (session : PlayerSession) (h : (m.removeSession playerId).sessions[token]? = some session) :
    m.sessions[token]? = some session := by
  unfold PlayerSessionManager.removeSession at h
  split at h
  · rw [QMap.getElem?_erase] at h
    split at h
    · cases h
    · exact h
  · exact h

theorem closePlayerConnection_shrinks (s : WebsocketServer) (playerId : Int32) :
    Shrinks s (s.closePlayerConnection (β := β) playerId).1 := by
  unfold closePlayerConnection
  split
  · exact .refl s
  · refine ⟨rfl, ?_, ?_, ?_, rfl⟩
    · intro token session h
      exact removeSession_shrinks _ playerId token session h
    · intro other conn h
      simp only [QMap.getElem?_erase] at h
      split at h
      · cases h
      · exact h
    · intro conn connection h
      simp only [QMap.getElem?_erase] at h
      split at h
      · cases h
      · exact ⟨connection, h, rfl⟩

theorem onSocketDisconnected_shrinks (s : WebsocketServer) (conn : Nat) :
    Shrinks s (s.onSocketDisconnected (β := β) conn).1 := by
  unfold onSocketDisconnected
  split
  · rename_i playerId hconn
    apply Shrinks.trans _ (closePlayerConnection_shrinks _ playerId)
    refine ⟨rfl, fun _ _ h => h, fun _ _ h => h, ?_, rfl⟩
    intro other connection h
    simp only [QMap.getElem?_insert] at h
    split at h
    · rename_i heq
      cases h
      subst heq
      exact ⟨_, hconn, rfl⟩
    · exact ⟨connection, h, rfl⟩
  · exact .refl s

end GBerry.Server.WebsocketServer

namespace GBerry.Protocol.ConsoleSessions

open GBerry.Common
open GBerry.Foundation
open GBerry.Mobile
open GBerry.Server

variable {β : Type} [QByteArray β]

structure Granted (history : History β) (s : ConsoleSessions β)
    (grants : List (Nat × PlayerSession)) : Prop where
  counter : s.server.console.tokenCounter = Int32.ofInt (100 + (grants.length : Nat))
  few : grants.length ≤ requests history
  asked : ∀ (i phone : Nat) (session : PlayerSession), grants[i]? = some (phone, session) →
    session.sessionToken = ConsoleRESTServer.token i ∧ Asked history phone session
  sessions : ∀ (token : String) (session : PlayerSession),
    s.server.console.sessionManager.sessions[token]? = some session →
    session.sessionToken = token ∧ ∃ phone, (phone, session) ∈ grants
  answered : ∀ (call : Nat) (c : Call β) (response : PostResponse β),
    s.calls[call]? = some c → c.response = some response → response.status < 400 →
    ∃ session, (c.phone, session) ∈ grants ∧
      (JsonObject.value (document response.body) "token").toString = session.sessionToken
  connecting : ∀ (phone : Nat) (token : String),
    (s.phones phone).websocket.socket = .connecting token →
    ∃ session, (phone, session) ∈ grants ∧ session.sessionToken = token
  called : ∀ (call : Nat) (c : Call β), s.calls[call]? = some c →
    ∃ st ∈ history, st.label = .openSession c.phone c.loginMeta

section Grants

variable {history : History β} {s s' : ConsoleSessions β} {grants : List (Nat × PlayerSession)}
  {st : Step (ConsoleSessions β) (ConsoleSessionsEvent β) (ConsoleSessionsSignal β)}

theorem traffic_shrinks {event : WebsocketEvent β} (server : WebsocketServer)
    (h : isTraffic event = true) : server.Shrinks (server.perform event).1 := by
  cases event with
  | post req => cases h
  | newConnection path token => cases h
  | closePlayerConnection playerId =>
      exact WebsocketServer.closePlayerConnection_shrinks server playerId
  | sendPlayerMessage playerId message => exact .refl server
  | disconnected conn => exact WebsocketServer.onSocketDisconnected_shrinks server conn
  | textMessageReceived conn message => exact .refl server

theorem traffic_silent {server : WebsocketServer} {event : WebsocketEvent β}
    {session : PlayerSession} (h : isTraffic event = true)
    (hjoined : .newPlayerConnection session ∈ (server.perform event).2) : False := by
  have heffect := server.perform_effect event
  generalize (server.perform event).1.connectionByPlayerId = after at heffect
  generalize (server.perform event).2 = out at heffect hjoined
  cases heffect with
  | joined _ => cases h
  | left _ _ => simp at hjoined
  | quiet _ hquiet => exact hquiet _ hjoined

theorem granted_start : Granted ([] : History β) start [] := by
  constructor <;> simp [start, WebsocketServer.start, ConsoleRESTServer.start,
    PlayerSessionManager.start, ConsoleSessionManager.start]

omit [QByteArray β] in
theorem Asked.later {phone : Nat} {session : PlayerSession} (h : Asked history phone session) :
    Asked (st :: history) phone session := by
  obtain ⟨asking, hmem, hasking⟩ := h
  exact ⟨asking, List.mem_cons_of_mem _ hmem, hasking⟩

omit [QByteArray β] in
theorem Announced.later {conn phone : Nat} {session : PlayerSession}
    (h : Announced history conn phone session) : Announced (st :: history) conn phone session := by
  obtain ⟨joining, hmem, hjoining⟩ := h
  exact ⟨joining, List.mem_cons_of_mem _ hmem, hjoining⟩

theorem Granted.unique (h : Granted history s grants) (hfew : requests history ≤ 2 ^ 32)
    {phone phone' : Nat} {session session' : PlayerSession}
    (hgranted : (phone, session) ∈ grants) (hgranted' : (phone', session') ∈ grants)
    (htoken : session.sessionToken = session'.sessionToken) :
    phone = phone' ∧ session = session' := by
  obtain ⟨i, hi⟩ := List.mem_iff_getElem?.mp hgranted
  obtain ⟨j, hj⟩ := List.mem_iff_getElem?.mp hgranted'
  have hilt := (List.getElem?_eq_some_iff.mp hi).1
  have hjlt := (List.getElem?_eq_some_iff.mp hj).1
  have hlength := h.few
  have hindex : i = j := by
    apply ConsoleRESTServer.token_inj (by omega) (by omega)
    rw [← (h.asked i phone session hi).1, ← (h.asked j phone' session' hj).1, htoken]
  subst hindex
  have hsame := Option.some.inj (hi.symm.trans hj)
  exact ⟨congrArg Prod.fst hsame, congrArg Prod.snd hsame⟩

omit [QByteArray β] in
theorem requests_le : requests history ≤ requests (st :: history) := by
  rw [requests, requests, List.countP_cons]
  exact Nat.le_add_right _ _

theorem Granted.keep (h : Granted history s grants)
    (hcounter : s'.server.console.tokenCounter = s.server.console.tokenCounter)
    (hsessions : ∀ (token : String) (session : PlayerSession),
      s'.server.console.sessionManager.sessions[token]? = some session →
      s.server.console.sessionManager.sessions[token]? = some session)
    (hcalls : ∀ (call : Nat) (c : Call β), s'.calls[call]? = some c →
      (c.response = none ∧ st.label = .openSession c.phone c.loginMeta) ∨
      ∃ before, s.calls[call]? = some before ∧ c.phone = before.phone ∧
        c.loginMeta = before.loginMeta ∧ ∀ response, c.response = some response →
          response.status < 400 → before.response = some response)
    (hconnecting : ∀ (phone : Nat) (token : String),
      (s'.phones phone).websocket.socket = .connecting token →
      (s.phones phone).websocket.socket = .connecting token ∨
        ∃ session, (phone, session) ∈ grants ∧ session.sessionToken = token) :
    Granted (st :: history) s' grants where
  counter := hcounter.trans h.counter
  few := h.few.trans requests_le
  asked i phone session hgranted := by
    obtain ⟨htoken, hasked⟩ := h.asked i phone session hgranted
    exact ⟨htoken, hasked.later⟩
  sessions token session hsession := h.sessions token session (hsessions token session hsession)
  answered call c response hc hresponse hstatus := by
    rcases hcalls call c hc with ⟨hnone, -⟩ | ⟨before, hbefore, hphone, -, hsame⟩
    · rw [hnone] at hresponse
      cases hresponse
    · rw [hphone]
      exact h.answered call before response hbefore (hsame response hresponse hstatus) hstatus
  connecting phone token hsocket := by
    rcases hconnecting phone token hsocket with hbefore | hgranted
    · exact h.connecting phone token hbefore
    · exact hgranted
  called call c hc := by
    rcases hcalls call c hc with ⟨-, hlabel⟩ | ⟨before, hbefore, hphone, hlogin, -⟩
    · exact ⟨st, List.mem_cons_self, hlabel⟩
    · obtain ⟨asking, hmem, hasking⟩ := h.called call before hbefore
      rw [hphone, hlogin]
      exact ⟨asking, List.mem_cons_of_mem _ hmem, hasking⟩

theorem Granted.openSession (h : Granted history s grants) {phone : Nat}
    {loginMeta : UserLoginMeta} (hlabel : st.label = .openSession phone loginMeta) :
    Granted (st :: history) (s.openSession phone loginMeta) grants := by
  refine h.keep rfl (fun _ _ hs => hs) ?_ (fun _ _ hsocket => .inl hsocket)
  intro call c hc
  simp only [ConsoleSessions.openSession, QMap.getElem?_insert] at hc
  split at hc
  · cases hc
    exact .inl ⟨rfl, hlabel⟩
  · rw [Std.ExtTreeMap.getElem?_map] at hc
    obtain ⟨before, hbefore, rfl⟩ := Option.map_eq_some_iff.mp hc
    refine .inr ⟨before, hbefore, ?_⟩
    split
    · exact ⟨rfl, rfl, fun _ hresponse _ => hresponse⟩
    · exact ⟨rfl, rfl, fun _ hresponse _ => hresponse⟩

omit [QByteArray β] in
theorem phones_setPhone (phone : Nat) (m : ConsoleSessionManager) (other : Nat) :
    (s.setPhone phone m).phones other = if other = phone then m else s.phones other :=
  Function.update_apply _ _ _ _

theorem Granted.setPhone (h : Granted history s grants) (phone : Nat)
    (m : ConsoleSessionManager)
    (hm : ∀ token, m.websocket.socket = .connecting token →
      ∃ session, (phone, session) ∈ grants ∧ session.sessionToken = token) :
    Granted (st :: history) (s.setPhone phone m) grants := by
  refine h.keep rfl (fun _ _ hs => hs) ?_ ?_
  · intro call c hc
    exact .inr ⟨c, hc, rfl, rfl, fun _ hresponse _ => hresponse⟩
  · intro other token hsocket
    rw [phones_setPhone] at hsocket
    split at hsocket
    · rename_i heq
      subst heq
      exact .inr (hm token hsocket)
    · exact .inl hsocket

theorem Granted.later (h : Granted history s grants) : Granted (st :: history) s grants :=
  h.keep rfl (fun _ _ hs => hs)
    (fun _ c hc => .inr ⟨c, hc, rfl, rfl, fun _ hresponse _ => hresponse⟩)
    (fun _ _ hsocket => .inl hsocket)

theorem Granted.invocationFails (h : Granted history s grants) (call : Nat)
    (formatted : String) : Granted (st :: history) (s.invocationFails call formatted).1 grants := by
  unfold ConsoleSessions.invocationFails
  split
  · rename_i phone loginMeta response hcall
    refine h.keep rfl (fun _ _ hs => hs) ?_ (fun _ _ hsocket => .inl hsocket)
    intro other c hc
    simp only [QMap.getElem?_insert] at hc
    split at hc
    · rename_i heq
      cases hc
      subst heq
      exact .inr ⟨_, hcall, rfl, rfl, fun _ hresponse _ => hresponse⟩
    · exact .inr ⟨c, hc, rfl, rfl, fun _ hresponse _ => hresponse⟩
  · exact h.later

omit [QByteArray β] in
theorem onNewConnection_console (server : WebsocketServer) (path token : String) :
    (server.onNewConnection (β := β) path token).1.console = server.console := by
  unfold WebsocketServer.onNewConnection
  split <;> rfl

theorem Granted.socketArrives (h : Granted history s grants) (phone : Nat) :
    Granted (st :: history) (s.socketArrives phone).1 grants := by
  unfold ConsoleSessions.socketArrives
  split
  · rename_i token hsocket
    have haccepted : Granted (st :: history)
        (s.setPhone phone ((s.phones phone).setSocket .accepted)) grants := by
      apply h.setPhone
      intro token hconnecting
      cases hconnecting
    have hconsole := onNewConnection_console (β := β) s.server "/open" token
    constructor
    · simp only [hconsole]
      exact haccepted.counter
    · exact haccepted.few
    · exact haccepted.asked
    · simp only [hconsole]
      exact haccepted.sessions
    · exact haccepted.answered
    · exact haccepted.connecting
    · exact haccepted.called
  · exact h.later

theorem Granted.socketConnected (h : Granted history s grants) (phone : Nat) :
    Granted (st :: history) (s.socketConnected phone).1 grants := by
  unfold ConsoleSessions.socketConnected
  split
  · apply h.setPhone
    intro token hconnecting
    cases hconnecting
  · exact h.later

theorem onOpenConsoleSessionFinished_socket {m : ConsoleSessionManager} {httpStatusCode : Nat}
    {json : JsonObject} {token : String}
    (h : (m.onOpenConsoleSessionFinished httpStatusCode json).1.websocket.socket =
      .connecting token) :
    m.websocket.socket = .connecting token ∨ (json.value "token").toString = token := by
  unfold ConsoleSessionManager.onOpenConsoleSessionFinished at h
  split at h
  · exact .inl h
  simp only at h
  split at h
  · cases h
    exact .inr rfl
  · exact .inl h

theorem Granted.responseArrives (h : Granted history s grants) (call : Nat)
    (formatted : String) : Granted (st :: history) (s.responseArrives call formatted).1 grants := by
  unfold ConsoleSessions.responseArrives
  split
  · rename_i phone loginMeta response hcall
    have herased : ∀ (other : Nat) (c : Call β), (s.calls.erase call)[other]? = some c →
        s.calls[other]? = some c := by
      intro other c hc
      rw [QMap.getElem?_erase] at hc
      split at hc
      · cases hc
      · exact hc
    simp only
    split
    · rename_i hstatus
      refine h.keep rfl (fun _ _ hs => hs) ?_ ?_
      · intro other c hc
        exact .inr ⟨c, herased other c hc, rfl, rfl, fun _ hresponse _ => hresponse⟩
      · intro other token hsocket
        rw [phones_setPhone] at hsocket
        split at hsocket
        · rename_i heq
          subst heq
          rcases onOpenConsoleSessionFinished_socket hsocket with hbefore | htoken
          · exact .inl hbefore
          · obtain ⟨session, hgranted, hsession⟩ :=
              h.answered call _ response hcall rfl hstatus
            exact .inr ⟨session, hgranted, hsession.symm.trans htoken⟩
        · exact .inl hsocket
    · refine h.keep rfl (fun _ _ hs => hs) ?_ (fun _ _ hsocket => .inl hsocket)
      intro other c hc
      exact .inr ⟨c, herased other c hc, rfl, rfl, fun _ hresponse _ => hresponse⟩
  · exact h.later

theorem Granted.traffic (h : Granted history s grants) (event : WebsocketEvent β) :
    Granted (st :: history) (s.traffic event).1 grants := by
  unfold ConsoleSessions.traffic
  split
  · rename_i htraffic
    have hshrinks := traffic_shrinks s.server htraffic
    exact h.keep hshrinks.tokenCounter hshrinks.sessions
      (fun _ c hc => .inr ⟨c, hc, rfl, rfl, fun _ hresponse _ => hresponse⟩)
      (fun _ _ hsocket => .inl hsocket)
  · exact h.later

theorem Granted.grant (h : Granted history s grants) {call phone : Nat}
    {loginMeta : UserLoginMeta} {waiting : Bool} {session : PlayerSession}
    {console : ConsoleRESTServer} {response : PostResponse β}
    (hlabel : st.label = .requestArrives call)
    (hcall : s.calls[call]? = some ⟨phone, loginMeta, waiting, none⟩)
    (hserver : s'.server = { s.server with
      console := { console with
        sessionManager := console.sessionManager.insertSession session } })
    (hcalls : s'.calls = s.calls.insert call ⟨phone, loginMeta, waiting, some response⟩)
    (hphones : s'.phones = s.phones)
    (hcreated : s.server.console.createSession (ConsoleRESTServer.openedId loginMeta)
      loginMeta.userName = (session, console))
    (hresponse : (JsonObject.value (document response.body) "token").toString =
      session.sessionToken) :
    Granted (st :: history) s' (grants ++ [(phone, session)]) := by
  have hparts := s.server.console.createSession_parts
    (ConsoleRESTServer.openedId loginMeta) loginMeta.userName
  have huser := ConsoleRESTServer.createSession_userToken (s := s.server.console) loginMeta
    loginMeta.userName
  rw [hcreated] at hparts huser
  obtain ⟨hmanager, hcounter, hname, htoken⟩ := hparts
  simp only at hmanager hcounter hname htoken huser
  have hindexed : session.sessionToken = ConsoleRESTServer.token grants.length := by
    rw [htoken, h.counter]
    rfl
  obtain ⟨asking, hmem, hasking⟩ := h.called call _ hcall
  have hgranted : (phone, session) ∈ grants ++ [(phone, session)] :=
    List.mem_append_right _ (List.mem_singleton_self _)
  constructor
  · simp only [hserver, hcounter, h.counter, List.length_append, List.length_singleton]
    exact ConsoleRESTServer.ofInt_add_one (by omega)
  · have hrequests : requests (st :: history) = requests history + 1 := by
      rw [requests, List.countP_cons_of_pos]
      · rfl
      · rw [hlabel]
    have hfew := h.few
    rw [hrequests, List.length_append, List.length_singleton]
    omega
  · intro i other found hfound
    rw [List.getElem?_append] at hfound
    split at hfound
    · obtain ⟨hindex, hasked⟩ := h.asked i other found hfound
      exact ⟨hindex, hasked.later⟩
    · rename_i hge
      have hlast : i = grants.length := by
        by_contra hne
        rw [List.getElem?_eq_none (by simp; omega)] at hfound
        cases hfound
      subst hlast
      rw [Nat.sub_self] at hfound
      cases hfound
      exact ⟨hindexed, asking, List.mem_cons_of_mem _ hmem, loginMeta, hasking, hname, huser⟩
  · intro token found hfound
    simp only [hserver, hmanager, PlayerSessionManager.insertSession,
      QMap.getElem?_insert] at hfound
    split at hfound
    · rename_i heq
      cases hfound
      exact ⟨heq.symm, phone, hgranted⟩
    · obtain ⟨hkey, other, hother⟩ := h.sessions token found hfound
      exact ⟨hkey, other, List.mem_append_left _ hother⟩
  · intro other c answer hc hanswer hstatus
    rw [hcalls, QMap.getElem?_insert] at hc
    split at hc
    · cases hc
      cases hanswer
      exact ⟨session, hgranted, hresponse⟩
    · obtain ⟨found, hfound, hsame⟩ := h.answered other c answer hc hanswer hstatus
      exact ⟨found, List.mem_append_left _ hfound, hsame⟩
  · intro other token hsocket
    rw [hphones] at hsocket
    obtain ⟨found, hfound, hsame⟩ := h.connecting other token hsocket
    exact ⟨found, List.mem_append_left _ hfound, hsame⟩
  · intro other c hc
    rw [hcalls, QMap.getElem?_insert] at hc
    split at hc
    · cases hc
      exact ⟨asking, List.mem_cons_of_mem _ hmem, hasking⟩
    · obtain ⟨asking', hmem', hasking'⟩ := h.called other c hc
      exact ⟨asking', List.mem_cons_of_mem _ hmem', hasking'⟩

theorem Granted.requestArrives (h : Granted history s grants) {call : Nat}
    (hlabel : st.label = .requestArrives call) :
    ∃ grants', Granted (st :: history) (s.requestArrives call).1 grants' := by
  unfold ConsoleSessions.requestArrives
  split
  · rename_i phone loginMeta waiting hcall
    have hpost := ConsoleRESTServer.handlePostRequest_openRequest (β := β) s.server.console
      loginMeta
    by_cases hreserved :
        s.server.console.sessionManager.isPlayerNameReserved loginMeta.userName = true
    · simp only [hpost, if_pos hreserved]
      refine ⟨grants, h.keep rfl (fun _ _ hs => hs) ?_ (fun _ _ hsocket => .inl hsocket)⟩
      intro other c hc
      simp only [QMap.getElem?_insert] at hc
      split at hc
      · rename_i heq
        cases hc
        subst heq
        refine .inr ⟨_, hcall, rfl, rfl, ?_⟩
        rintro response hresponse hstatus
        cases hresponse
        simp [ConsoleRESTServer.forbidden] at hstatus
      · exact .inr ⟨c, hc, rfl, rfl, fun _ hresponse _ => hresponse⟩
    · simp only [hpost, if_neg hreserved]
      generalize hcreated : s.server.console.createSession
        (ConsoleRESTServer.openedId loginMeta) loginMeta.userName = created
      obtain ⟨session, console⟩ := created
      exact ⟨_, h.grant hlabel hcall rfl rfl rfl hcreated rfl⟩
  · exact ⟨grants, h.later⟩

end Grants

section Connections

variable {history : History β} {s s' : ConsoleSessions β} {grants : List (Nat × PlayerSession)}
  {st : Step (ConsoleSessions β) (ConsoleSessionsEvent β) (ConsoleSessionsSignal β)}

theorem Granted.step (h : Granted history s grants) {event : ConsoleSessionsEvent β}
    (hlabel : st.label = event) :
    ∃ grants', Granted (st :: history) (s.perform event).1 grants' := by
  cases event with
  | openSession phone loginMeta => exact ⟨grants, h.openSession hlabel⟩
  | closeSession phone =>
      refine ⟨grants, h.setPhone phone _ ?_⟩
      intro token hsocket
      cases hsocket
  | requestArrives call => exact h.requestArrives hlabel
  | responseArrives call formatted => exact ⟨grants, h.responseArrives call formatted⟩
  | invocationFails call formatted => exact ⟨grants, h.invocationFails call formatted⟩
  | socketArrives phone => exact ⟨grants, h.socketArrives phone⟩
  | socketConnected phone => exact ⟨grants, h.socketConnected phone⟩
  | traffic event => exact ⟨grants, h.traffic event⟩

def Named (s : ConsoleSessions β) : Prop :=
  ∀ conn phone : Nat, s.ends[conn]? = some phone → conn < s.server.connectionCount

structure Quiet (s s' : ConsoleSessions β) (out : List (ConsoleSessionsSignal β)) : Prop where
  connected : ∀ (playerId : Int32) (conn : Nat),
    s'.server.connectionByPlayerId[playerId]? = some conn →
    s.server.connectionByPlayerId[playerId]? = some conn
  connections : ∀ (conn : Nat) (connection : WebsocketConnection),
    s'.server.connections[conn]? = some connection →
    ∃ before, s.server.connections[conn]? = some before ∧
      connection.playerId = before.playerId
  ends : s'.ends = s.ends
  connectionCount : s'.server.connectionCount = s.server.connectionCount
  silent : ∀ session, .server (.newPlayerConnection session) ∉ out

omit [QByteArray β] in
theorem Quiet.of_server {out : List (ConsoleSessionsSignal β)}
    (hconnected : s'.server.connectionByPlayerId = s.server.connectionByPlayerId)
    (hconnections : s'.server.connections = s.server.connections) (hends : s'.ends = s.ends)
    (hcount : s'.server.connectionCount = s.server.connectionCount)
    (hsilent : ∀ session, .server (.newPlayerConnection session) ∉ out) : Quiet s s' out where
  connected _ _ h := hconnected ▸ h
  connections _ connection h := ⟨connection, hconnections ▸ h, rfl⟩
  ends := hends
  connectionCount := hcount
  silent := hsilent

theorem perform_quiet (s : ConsoleSessions β) (event : ConsoleSessionsEvent β)
    (hsocket : ∀ phone, event ≠ .socketArrives phone) :
    Quiet s (s.perform event).1 (s.perform event).2 := by
  cases event with
  | openSession phone loginMeta => exact .of_server rfl rfl rfl rfl (by simp [perform])
  | closeSession phone => exact .of_server rfl rfl rfl rfl (by simp [perform])
  | requestArrives call =>
      simp only [perform, requestArrives]
      split
      · exact .of_server rfl rfl rfl rfl (by simp)
      · exact .of_server rfl rfl rfl rfl (by simp)
  | responseArrives call formatted =>
      simp only [perform, responseArrives]
      split
      · split
        · exact .of_server rfl rfl rfl rfl (by simp)
        · exact .of_server rfl rfl rfl rfl (by simp)
      · exact .of_server rfl rfl rfl rfl (by simp)
  | invocationFails call formatted =>
      simp only [perform, invocationFails]
      split
      · exact .of_server rfl rfl rfl rfl (by simp)
      · exact .of_server rfl rfl rfl rfl (by simp)
  | socketArrives phone => exact absurd rfl (hsocket phone)
  | socketConnected phone =>
      simp only [perform, socketConnected]
      split
      · exact .of_server rfl rfl rfl rfl (by simp)
      · exact .of_server rfl rfl rfl rfl (by simp)
  | traffic event =>
      simp only [perform, traffic]
      split
      · rename_i htraffic
        have hshrinks := traffic_shrinks s.server htraffic
        refine ⟨hshrinks.connected, hshrinks.connections, rfl, hshrinks.connectionCount, ?_⟩
        intro session hmem
        obtain ⟨signal, hsignal, heq⟩ := List.mem_map.mp hmem
        cases heq
        exact traffic_silent htraffic hsignal
      · exact .of_server rfl rfl rfl rfl (by simp)

omit [QByteArray β] in
theorem Identified.quiet (h : Identified history s) (hquiet : Quiet s s' st.out) :
    Identified (st :: history) s' := by
  constructor
  · intro step hmem session hjoined
    rcases List.mem_cons.mp hmem with rfl | hmem
    · exact absurd hjoined (hquiet.silent session)
    · obtain ⟨phone, hlabel, hasked⟩ := h.joined step hmem session hjoined
      exact ⟨phone, hlabel, hasked.later⟩
  · intro playerId conn hconn
    obtain ⟨phone, session, hend, hid, hannounced, hasked⟩ :=
      h.connected playerId conn (hquiet.connected playerId conn hconn)
    exact ⟨phone, session, hquiet.ends ▸ hend, hid, hannounced.later, hasked.later⟩
  · intro conn connection hconn
    obtain ⟨before, hbefore, hsame⟩ := hquiet.connections conn connection hconn
    obtain ⟨phone, session, hend, hid, hannounced, hasked⟩ := h.heard conn before hbefore
    exact ⟨phone, session, hquiet.ends ▸ hend, hid.trans hsame.symm, hannounced.later,
      hasked.later⟩

theorem sessionFor_some {server : WebsocketServer} {path token : String}
    {session : PlayerSession} (h : server.sessionFor path token = some session) :
    server.console.sessionManager.sessions[token]? = some session := by
  unfold WebsocketServer.sessionFor at h
  simp only at h
  split at h
  · rename_i hvalid
    cases h
    simp only [PlayerSessionManager.sessionByToken] at hvalid ⊢
    cases hfound : server.console.sessionManager.sessions[token]? with
    | none =>
        rw [hfound] at hvalid
        simp [PlayerSession.isValid, PlayerSession.invalid] at hvalid
    | some session => rfl
  · cases h

omit [QByteArray β] in
theorem socketArrives_refused {phone : Nat} {token : String}
    (hsocket : (s.phones phone).websocket.socket = .connecting token)
    (hsession : s.server.sessionFor "/open" token = none) :
    s.socketArrives phone =
      (s.setPhone phone ((s.phones phone).setSocket .accepted), [.server .refused]) := by
  have hserver : s.server.onNewConnection (β := β) "/open" token = (s.server, [.refused]) := by
    simp only [WebsocketServer.onNewConnection, hsession]
  simp only [ConsoleSessions.socketArrives, hsocket, hserver, Nat.lt_irrefl, if_false]
  rfl

omit [QByteArray β] in
theorem socketArrives_joined {phone : Nat} {token : String} {session : PlayerSession}
    (hsocket : (s.phones phone).websocket.socket = .connecting token)
    (hsession : s.server.sessionFor "/open" token = some session) :
    s.socketArrives phone =
      ({ s.setPhone phone ((s.phones phone).setSocket .accepted) with
          server := { s.server with
            connections :=
              s.server.connections.insert s.server.connectionCount ⟨session.playerId, true⟩
            connectionByPlayerId :=
              s.server.connectionByPlayerId.insert session.playerId s.server.connectionCount
            connectionCount := s.server.connectionCount + 1 }
          ends := s.ends.insert s.server.connectionCount phone },
        [.server (.newPlayerConnection session)]) := by
  have hserver : s.server.onNewConnection (β := β) "/open" token =
      ({ s.server with
          connections :=
            s.server.connections.insert s.server.connectionCount ⟨session.playerId, true⟩
          connectionByPlayerId :=
            s.server.connectionByPlayerId.insert session.playerId s.server.connectionCount
          connectionCount := s.server.connectionCount + 1 },
        [.newPlayerConnection session]) := by
    simp only [WebsocketServer.onNewConnection, hsession]
  simp only [ConsoleSessions.socketArrives, hsocket, hserver, Nat.lt_succ_self, if_true]
  rfl

theorem Granted.asked_of_token (h : Granted history s grants) (hfew : requests history ≤ 2 ^ 32)
    {phone : Nat} {token : String} {session : PlayerSession}
    (hphone : ∃ session, (phone, session) ∈ grants ∧ session.sessionToken = token)
    (hsession : s.server.console.sessionManager.sessions[token]? = some session) :
    Asked history phone session := by
  obtain ⟨found, hfound, htoken⟩ := hphone
  obtain ⟨hkey, owner, howner⟩ := h.sessions token session hsession
  obtain ⟨rfl, rfl⟩ := h.unique hfew hfound howner (htoken.trans hkey.symm)
  obtain ⟨i, hi⟩ := List.mem_iff_getElem?.mp hfound
  exact (h.asked i phone found hi).2

omit [QByteArray β] in
/-- The socket belongs to the phone, and so does the session that it is opened for. -/
theorem Identified.join (h : Identified history s) (hnamed : Named s) {phone : Nat}
    {session : PlayerSession} {s' : ConsoleSessions β} (hpre : st.pre = s)
    (hlabel : st.label = .socketArrives phone) (hasked : Asked history phone session)
    (hout : st.out = [.server (.newPlayerConnection session)])
    (hconnected : s'.server.connectionByPlayerId =
      s.server.connectionByPlayerId.insert session.playerId s.server.connectionCount)
    (hconnections : s'.server.connections =
      s.server.connections.insert s.server.connectionCount ⟨session.playerId, true⟩)
    (hends : s'.ends = s.ends.insert s.server.connectionCount phone) :
    Identified (st :: history) s' := by
  have hold : ∀ conn other : Nat, s.ends[conn]? = some other → s'.ends[conn]? = some other := by
    intro conn other hend
    have hne : conn ≠ s.server.connectionCount := Nat.ne_of_lt (hnamed conn other hend)
    rw [hends, QMap.getElem?_insert, if_neg hne]
    exact hend
  have hnew : s'.ends[s.server.connectionCount]? = some phone := by
    rw [hends, QMap.getElem?_insert, if_pos rfl]
  have hannounced : Announced (st :: history) s.server.connectionCount phone session := by
    refine ⟨st, List.mem_cons_self, hlabel, by rw [hpre], ?_⟩
    rw [hout]
    exact List.mem_singleton_self _
  constructor
  · intro step hmem joined hjoined
    rcases List.mem_cons.mp hmem with rfl | hmem
    · rw [hout] at hjoined
      cases List.mem_singleton.mp hjoined
      exact ⟨phone, hlabel, hasked.later⟩
    · obtain ⟨other, hother, hasked'⟩ := h.joined step hmem joined hjoined
      exact ⟨other, hother, hasked'.later⟩
  · intro playerId conn hconn
    rw [hconnected, QMap.getElem?_insert] at hconn
    split at hconn
    · rename_i heq
      cases hconn
      exact ⟨phone, session, hnew, heq.symm, hannounced, hasked.later⟩
    · obtain ⟨other, found, hend, hid, hfound, hasked'⟩ := h.connected playerId conn hconn
      exact ⟨other, found, hold conn other hend, hid, hfound.later, hasked'.later⟩
  · intro conn connection hconn
    rw [hconnections, QMap.getElem?_insert] at hconn
    split at hconn
    · rename_i heq
      cases hconn
      exact ⟨phone, session, heq ▸ hnew, rfl, heq ▸ hannounced, hasked.later⟩
    · obtain ⟨other, found, hend, hid, hfound, hasked'⟩ := h.heard conn connection hconn
      exact ⟨other, found, hold conn other hend, hid, hfound.later, hasked'.later⟩

theorem Identified.socketArrives (h : Identified history s) (hnamed : Named s)
    (hgranted : Granted history s grants) (hfew : requests history ≤ 2 ^ 32) {phone : Nat}
    (hpre : st.pre = s) (hlabel : st.label = .socketArrives phone) (hout : st.out = (s.socketArrives phone).2) :
    Identified (st :: history) (s.socketArrives phone).1 ∧ Named (s.socketArrives phone).1 := by
  have hsame (hnothing : st.out = []) : Identified (st :: history) s :=
    h.quiet (.of_server rfl rfl rfl rfl (by simp [hnothing]))
  have hidle (hstate : (s.socketArrives phone).1 = s) (hnothing : (s.socketArrives phone).2 = []) :
      Identified (st :: history) (s.socketArrives phone).1 ∧
        Named (s.socketArrives phone).1 := by
    rw [hstate]
    exact ⟨hsame (hout.trans hnothing), hnamed⟩
  cases hsocket : (s.phones phone).websocket.socket with
  | unconnected =>
      apply hidle
      all_goals simp [ConsoleSessions.socketArrives, hsocket]
  | accepted =>
      apply hidle
      all_goals simp [ConsoleSessions.socketArrives, hsocket]
  | connected =>
      apply hidle
      all_goals simp [ConsoleSessions.socketArrives, hsocket]
  | connecting token =>
      cases hsession : s.server.sessionFor "/open" token with
      | none =>
          rw [socketArrives_refused hsocket hsession] at hout ⊢
          refine ⟨h.quiet (.of_server rfl rfl rfl rfl ?_), hnamed⟩
          simp [hout]
      | some session =>
          rw [socketArrives_joined hsocket hsession] at hout ⊢
          have hasked := hgranted.asked_of_token hfew (hgranted.connecting phone token hsocket)
            (sessionFor_some hsession)
          refine ⟨h.join hnamed hpre hlabel hasked hout rfl rfl rfl, ?_⟩
          intro conn other hend
          simp only [QMap.getElem?_insert] at hend
          split at hend
          · rename_i heq
            exact heq ▸ Nat.lt_succ_self _
          · exact Nat.lt_succ_of_lt (hnamed conn other hend)

end Connections

section Runs

variable {history : History β} {s : ConsoleSessions β}

theorem identified_run (h : Execution (machine β) history s) (hfew : requests history ≤ 2 ^ 32) :
    Identified history s ∧ Named s ∧ ∃ grants, Granted history s grants := by
  induction h with
  | start =>
      refine ⟨?_, ?_, [], granted_start⟩
      · constructor <;> simp [machine, start, WebsocketServer.start]
      · simp [Named, machine, start]
  | @next history s s' event out hbefore hstep ih =>
      obtain ⟨hs, hnamed, grants, hgranted⟩ := ih (requests_le.trans hfew)
      have hperform : s.perform event = (s', out) := Except.ok.inj hstep
      have hgranted' : ∃ grants', Granted (⟨s, event, out, s'⟩ :: history)
          (s.perform event).1 grants' := hgranted.step rfl
      rw [hperform] at hgranted'
      suffices hnext : Identified (⟨s, event, out, s'⟩ :: history) s' ∧ Named s' from
        ⟨hnext.1, hnext.2, hgranted'⟩
      by_cases hsocket : ∃ phone, event = .socketArrives phone
      · obtain ⟨phone, rfl⟩ := hsocket
        have hjoin : Identified (⟨s, .socketArrives phone, out, s'⟩ :: history)
            (s.socketArrives phone).1 ∧ Named (s.socketArrives phone).1 :=
          hs.socketArrives hnamed hgranted (requests_le.trans hfew) rfl rfl
            (congrArg Prod.snd hperform).symm
        have hpost : (s.socketArrives phone).1 = s' := congrArg Prod.fst hperform
        rwa [hpost] at hjoin
      · have hquiet := s.perform_quiet event fun phone heq => hsocket ⟨phone, heq⟩
        rw [hperform] at hquiet
        refine ⟨hs.quiet hquiet, ?_⟩
        intro conn phone hend
        rw [hquiet.connectionCount]
        exact hnamed conn phone (hquiet.ends ▸ hend)

theorem newPlayerConnection_identified (h : Execution (machine β) history s)
    (hfew : requests history ≤ 2 ^ 32) : Identified history s :=
  (identified_run h hfew).1

/--
Two phones open sessions at the same time.  One of them changes its mind about its
name, and the console gets its first request after the second one.
-/
def twoPhones : List (ConsoleSessionsEvent Text) :=
  [.openSession 0 ⟨"Anna", ""⟩, .openSession 1 ⟨"Bob", "t7"⟩, .openSession 0 ⟨"Ann", ""⟩,
    .requestArrives 1, .requestArrives 2, .requestArrives 0, .responseArrives 0 "",
    .responseArrives 2 "", .responseArrives 1 "", .socketArrives 1, .socketArrives 0,
    .socketConnected 0, .socketConnected 1, .traffic (.disconnected 0)]

def joinedBoth (history : History Text) (s : ConsoleSessions Text) : Bool :=
  requests history == 3 && s.server.connectionCount == 2 &&
    s.ends[0]? == some 1 && s.ends[1]? == some 0 &&
    s.server.connectionByPlayerId[(-2 : Int32)]? == some 1 &&
    !(s.server.connectionByPlayerId.contains 1)

theorem newPlayerConnection_identified_twoPhones :
    ∃ history s, (machine Text).run twoPhones = .ok (history, s) ∧
      joinedBoth history s = true ∧ Identified history s := by
  have hruns : ∃ history s, (machine Text).run twoPhones = .ok (history, s) ∧
      joinedBoth history s = true :=
    Machine.exists_run (by decide +kernel)
  obtain ⟨history, s, hrun, hjoined⟩ := hruns
  have hfew : requests history = 3 := by
    simp only [joinedBoth, Bool.and_eq_true, beq_iff_eq] at hjoined
    exact hjoined.1.1.1.1.1
  refine ⟨history, s, hrun, hjoined, ?_⟩
  exact newPlayerConnection_identified (Machine.run_execution hrun) (by omega)

end Runs

end GBerry.Protocol.ConsoleSessions
