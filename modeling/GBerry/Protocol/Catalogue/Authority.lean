import GBerry.Comms.QueryDownloadableApplicationsCommand.Provenance
import GBerry.Protocol.Catalogue.Queries

/-!
# Whom the requests of the server are for

A request has the token of a player only when the player signed in with it.
-/

namespace GBerry.Protocol.Catalogue

open GBerry.Comms
open GBerry.Common
open GBerry.Foundation
open GBerry.Server (PlayerSession PlayerSessionManager)
open QuerySystem (Traced)

variable {s s' : Catalogue} {past : List CatalogueSignal} {command request : Nat}
  {req : DownloadableApplicationsRequest} {json : JsonObject}

/-- The request is for the free games, or has a token that its player signed in with. -/
def Authorized (past : List CatalogueSignal) (req : DownloadableApplicationsRequest) : Prop :=
  (req.playerId = -1 ∧ req.userToken = "") ∨
    (0 < req.playerId ∧ req.playerId < 2 ^ 31 ∧ req.userToken ≠ "" ∧
      .signedIn (Int32.ofInt req.playerId) req.userToken ∈ past)

structure Recorded (s : Catalogue) (past : List CatalogueSignal) : Prop where
  sessions : ∀ (token : String) (session : PlayerSession),
    s.playerSessions.sessions[token]? = some session → session.isGuest = false →
    0 < session.playerId ∧ .signedIn session.playerId session.userToken ∈ past
  requests : ∀ (request : Nat) (req : DownloadableApplicationsRequest),
    s.server.requests[request]? = some req → Authorized past req
  asked : ∀ request ∈ s.server.invocations, ∀ req, s.server.requests[request]? = some req →
    .asked request req.parameter ∈ onServer past

theorem recorded_start : Recorded start [] where
  sessions _ _ hsession := by simp [start, PlayerSessionManager.start] at hsession
  requests _ _ hreq := by simp [start, QuerySystem.start] at hreq
  asked _ hmem := by simp [start, QuerySystem.start] at hmem

theorem Authorized.congr {req' : DownloadableApplicationsRequest} (h : Authorized past req)
    (hplayer : req'.playerId = req.playerId) (htoken : req'.userToken = req.userToken) :
    Authorized past req' := by
  rw [Authorized, hplayer, htoken]
  exact h

theorem Authorized.append (h : Authorized past req) (out : List CatalogueSignal) :
    Authorized (past ++ out) req := by
  refine h.imp_right ?_
  rintro ⟨hpositive, hbound, htoken, hsigned⟩
  exact ⟨hpositive, hbound, htoken, List.mem_append_left _ hsigned⟩

theorem toInt_bound (value : Json) : -2 ^ 31 ≤ value.toInt ∧ value.toInt < 2 ^ 31 := by
  unfold Json.toInt
  split
  · split
    · rename_i hvalue
      exact hvalue.2
    · omega
  · omega

theorem Recorded.newRequest (h : Recorded s past) (command : Nat) (json : JsonObject) :
    Authorized past (QuerySystem.newRequest s.playerSessions command json) := by
  rcases QuerySystem.newRequest_cases s.playerSessions command json with
    hplain | ⟨session, hfind, hguest, hrequest⟩
  · rw [hplain]
    exact .inl ⟨rfl, rfl⟩
  · obtain ⟨hid, token, hsession⟩ := PlayerSessionManager.find_some hfind
    obtain ⟨hpositive, hsigned⟩ := h.sessions token session hsession hguest
    obtain ⟨hlow, hhigh⟩ := toInt_bound (json.value "player_id")
    rw [hid] at hpositive hsigned
    rw [Int32.lt_iff_toInt_lt, Int32.toInt_ofInt_of_le hlow hhigh] at hpositive
    rw [hrequest]
    refine .inr ⟨hpositive, hhigh, ?_, hsigned⟩
    rw [PlayerSession.isGuest, decide_eq_false_iff_not] at hguest
    exact hguest

theorem onServer_subset (past out : List CatalogueSignal) {signal : QuerySignal}
    (h : signal ∈ onServer past) : signal ∈ onServer (past ++ out) := by
  rw [onServer_append]
  exact List.mem_append_left _ h

theorem Recorded.append (h : Recorded s past) (hsessions : s'.playerSessions = s.playerSessions)
    (hrequests : s'.server.requests = s.server.requests)
    (hinvocations : s'.server.invocations = s.server.invocations)
    (out : List CatalogueSignal) : Recorded s' (past ++ out) where
  sessions token session hsession hguest := by
    rw [hsessions] at hsession
    obtain ⟨hpositive, hsigned⟩ := h.sessions token session hsession hguest
    exact ⟨hpositive, List.mem_append_left _ hsigned⟩
  requests request req hreq := by
    rw [hrequests] at hreq
    exact (h.requests request req hreq).append out
  asked request hmem req hreq := by
    rw [hinvocations] at hmem
    rw [hrequests] at hreq
    exact onServer_subset past out (h.asked request hmem req hreq)

theorem parameter_congr {req' : DownloadableApplicationsRequest}
    (htoken : req'.userToken = req.userToken) : req'.parameter = req.parameter := by
  rw [DownloadableApplicationsRequest.parameter, DownloadableApplicationsRequest.parameter,
    htoken]

theorem Recorded.traced (h : Recorded s past) {signals : List QuerySignal}
    (htraced : Traced s.server s'.server signals)
    (hsessions : s'.playerSessions = s.playerSessions) :
    Recorded s' (past ++ signals.map .server) where
  sessions token session hsession hguest := by
    rw [hsessions] at hsession
    obtain ⟨hpositive, hsigned⟩ := h.sessions token session hsession hguest
    exact ⟨hpositive, List.mem_append_left _ hsigned⟩
  requests request req' hreq' := by
    obtain ⟨req, hreq, hplayer, htoken⟩ := htraced.requests request req' hreq'
    exact ((h.requests request req hreq).append _).congr hplayer htoken
  asked request hmem req' hreq' := by
    obtain ⟨req, hreq, -, htoken⟩ := htraced.requests request req' hreq'
    rw [parameter_congr htoken, onServer_append, onServer_server]
    rcases htraced.invocations request hmem with hflying | ⟨asking, hasking, hout⟩
    · exact List.mem_append_left _ (h.asked request hflying req hreq)
    · cases hreq.symm.trans hasking
      exact List.mem_append_right _ hout

theorem Recorded.same (h : Recorded s past) (hsessions : s'.playerSessions = s.playerSessions)
    (hrequests : s'.server.requests = s.server.requests)
    (hinvocations : s'.server.invocations = s.server.invocations) : Recorded s' past := by
  have happended := h.append hsessions hrequests hinvocations []
  rwa [List.append_nil] at happended

theorem Recorded.untold (h : Recorded s past) (htraced : Traced s.server s'.server [])
    (hsessions : s'.playerSessions = s.playerSessions) : Recorded s' past := by
  have happended := h.traced htraced hsessions
  rwa [List.map_nil, List.append_nil] at happended

theorem Recorded.insertSession (h : Recorded s past) {session : PlayerSession}
    {counters : GBerry.Server.PlayerIdCounters} (out : List CatalogueSignal)
    (hsession : session.isGuest = false →
      0 < session.playerId ∧ .signedIn session.playerId session.userToken ∈ past ++ out) :
    Recorded { s with
      playerSessions := s.playerSessions.insertSession session
      counters := counters } (past ++ out) where
  sessions token found hfound hguest := by
    rw [PlayerSessionManager.insertSession, QMap.getElem?_insert] at hfound
    split at hfound
    · cases hfound
      exact hsession hguest
    · obtain ⟨hpositive, hsigned⟩ := h.sessions token found hfound hguest
      exact ⟨hpositive, List.mem_append_left _ hsigned⟩
  requests request req hreq := (h.requests request req hreq).append out
  asked request hmem req hreq := onServer_subset past out (h.asked request hmem req hreq)

theorem Recorded.removeSession (h : Recorded s past) (playerId : Int32) :
    Recorded { s with playerSessions := s.playerSessions.removeSession playerId } past where
  sessions token session hsession hguest := by
    refine h.sessions token session ?_ hguest
    rw [PlayerSessionManager.removeSession] at hsession
    split at hsession
    · rw [QMap.getElem?_erase, Option.ite_none_left_eq_some] at hsession
      exact hsession.2
    · exact hsession
  requests := h.requests
  asked := h.asked

theorem Recorded.process (h : Recorded s past) (command : Nat) (json : JsonObject)
    (howned : QuerySystem.Owned s.server (onServer past))
    (hserver : s'.server = (s.server.process s.playerSessions command json).1)
    (hsessions : s'.playerSessions = s.playerSessions) (out : List CatalogueSignal) :
    Recorded s' (past ++ out) := by
  cases hcommand : s.server.commands[command]? with
  | none =>
      have hidle : (s.server.process s.playerSessions command json).1 = s.server := by
        rw [QuerySystem.process, hcommand]
      rw [hidle] at hserver
      exact h.append hsessions (by rw [hserver]) (by rw [hserver]) out
  | some ongoingRequests =>
      have hrequests : s'.server.requests = s.server.requests.insert s.server.nextRequest
          (QuerySystem.newRequest s.playerSessions command json) := by
        rw [hserver, QuerySystem.process, hcommand]
      have hinvocations : s'.server.invocations = s.server.invocations := by
        rw [hserver, QuerySystem.process, hcommand]
      constructor
      case sessions =>
        intro token session hsession hguest
        rw [hsessions] at hsession
        obtain ⟨hpositive, hsigned⟩ := h.sessions token session hsession hguest
        exact ⟨hpositive, List.mem_append_left _ hsigned⟩
      case requests =>
        intro request req hreq
        rw [hrequests, QMap.getElem?_insert] at hreq
        split at hreq
        · cases hreq
          exact (h.newRequest command json).append out
        · exact (h.requests request req hreq).append out
      case asked =>
        intro request hmem req hreq
        rw [hinvocations] at hmem
        rw [hrequests, QMap.getElem?_insert, if_neg] at hreq
        · exact onServer_subset past out (h.asked request hmem req hreq)
        · rintro rfl
          exact Nat.lt_irrefl _ (howned.freshRequest _ (.inl (howned.flying _ hmem)))

end GBerry.Protocol.Catalogue
