import GBerry.Protocol.Catalogue.Authority

/-!
# The games that an application offers

A game is offered to a player only when the head server has listed it for a token
of the player, or among the free games, and then the server knows it when it is
to be downloaded.  What is offered are the games of the latest reply.
-/

namespace GBerry.Protocol.Catalogue

open GBerry.Client
open GBerry.Comms
open GBerry.Common
open GBerry.Foundation
open DownloadableGamesModel (applications applies isFailure isFree listed playerId received
  sinceCleared)
open QuerySystem (Listed Traced Tells failureReply okReply)

variable {s s' : Catalogue} {past : List CatalogueSignal} {history : History}
  {command request : Nat} {req : DownloadableApplicationsRequest}
  {apps : List Storage.Application} {json : JsonObject} {gameId : String}

section Replies

theorem okReply_fields (req : DownloadableApplicationsRequest) (apps : List Storage.Application) :
    isFailure (okReply req apps) = false ∧
      playerId (okReply req apps) =
        (if req.playerDefined then (Json.number req.playerId).toInt else -1) ∧
      applications (okReply req apps) = apps.map fun app => .object app.toJson := by
  rw [okReply]
  cases req.playerDefined with
  | true => exact ⟨rfl, rfl, rfl⟩
  | false => exact ⟨rfl, rfl, rfl⟩

theorem mem_listed_okReply :
    gameId ∈ listed (okReply req apps) ↔ ∃ app ∈ apps, app.id = gameId := by
  have hinserted (games : QMap String JsonObject) :
      gameId ∈ (apps.map fun app => Json.object app.toJson).foldl GameModel.insertGame games ↔
        (∃ app ∈ apps, app.id = gameId) ∨ gameId ∈ games := by
    induction apps generalizing games with
    | nil => simp
    | cons app apps ih =>
        have hgame : gameId ∈ GameModel.insertGame games (.object app.toJson) ↔
            gameId = app.id ∨ gameId ∈ games := by
          have hinsert : GameModel.insertGame games (.object app.toJson) =
              games.insert app.id app.toJson := rfl
          rw [hinsert, QMap.mem_insert_iff]
        rw [List.map_cons, List.foldl_cons, ih, hgame, List.exists_mem_cons_iff]
        grind
  obtain ⟨-, -, happlications⟩ := okReply_fields req apps
  rw [listed, happlications, hinserted]
  simp

theorem isFailure_failureReply (details : Json) : isFailure (failureReply details) = true := rfl

end Replies

section Truth

/-- The reply is a failure, or what it lists is permitted, and in the cache. -/
def Truthful (cache : DownloadableApplicationCache) (past : List CatalogueSignal)
    (json : JsonObject) : Prop :=
  isFailure json = true ∨
    ((playerId json = -1 ∨ 0 < playerId json) ∧
      ∀ gameId ∈ listed json, Permitted past (playerId json) gameId ∧ gameId ∈ cache)

theorem Listed_append {signals : List QuerySignal} {parameter : ListParameter}
    (h : Listed signals parameter gameId) (more : List QuerySignal) :
    Listed (signals ++ more) parameter gameId := by
  obtain ⟨request, apps, hasked, hlisted, happ⟩ := h
  exact ⟨request, apps, List.mem_append_left _ hasked, List.mem_append_left _ hlisted, happ⟩

theorem Permitted.append {player : Int} (h : Permitted past player gameId)
    (out : List CatalogueSignal) : Permitted (past ++ out) player gameId := by
  rw [Permitted, onServer_append] at *
  split
  · rename_i hpositive
    rw [if_pos hpositive] at h
    obtain ⟨userToken, hsigned, hlisted⟩ := h
    exact ⟨userToken, List.mem_append_left _ hsigned, Listed_append hlisted _⟩
  · rename_i hpositive
    rw [if_neg hpositive] at h
    exact Listed_append h _

theorem Truthful.append {cache cache' : DownloadableApplicationCache}
    (h : Truthful cache past json) (hcache : ∀ id ∈ cache, id ∈ cache')
    (out : List CatalogueSignal) : Truthful cache' (past ++ out) json := by
  refine h.imp_right ?_
  rintro ⟨hplayer, hlisted⟩
  refine ⟨hplayer, fun gameId hmem => ?_⟩
  obtain ⟨hpermitted, hcached⟩ := hlisted gameId hmem
  exact ⟨hpermitted.append out, hcache gameId hcached⟩

theorem Recorded.tells (h : Recorded s past) {signals : List QuerySignal}
    (htells : Tells s.server s'.server signals json) :
    Truthful s'.server.cache (past ++ signals.map .server) json := by
  cases htells with
  | failure details hjson =>
      rw [hjson]
      exact .inl (isFailure_failureReply details)
  | applications request req apps hinvocation hreq hlisted hcached hjson =>
      subst hjson
      obtain ⟨-, hplayer, -⟩ := okReply_fields req apps
      have hasked : .asked request req.parameter ∈
          onServer (past ++ signals.map .server) :=
        onServer_subset past _ (h.asked request hinvocation req hreq)
      have hlisted : .listed request apps ∈ onServer (past ++ signals.map .server) := by
        rw [onServer_append, onServer_server]
        exact List.mem_append_right _ hlisted
      refine .inr ?_
      rcases h.requests request req hreq with
        ⟨hnone, htoken⟩ | ⟨hpositive, hbound, htoken, hsigned⟩
      · have hfree : playerId (okReply req apps) = -1 := by
          rw [hplayer, DownloadableApplicationsRequest.playerDefined, hnone]
          rfl
        refine ⟨.inl hfree, fun gameId hmem => ?_⟩
        obtain ⟨app, happ, rfl⟩ := mem_listed_okReply.mp hmem
        refine ⟨?_, hcached app happ⟩
        rw [hfree, Permitted, if_neg (by omega)]
        refine ⟨request, apps, ?_, hlisted, app, happ, rfl⟩
        rw [DownloadableApplicationsRequest.parameter, if_pos htoken] at hasked
        exact hasked
      · have hdefined : playerId (okReply req apps) = req.playerId := by
          have hne : req.playerId ≠ -1 := by omega
          have hnumber : (Json.number req.playerId).toInt = req.playerId :=
            if_pos ⟨rfl, by simpa using by omega, by simpa using hbound⟩
          rw [hplayer, DownloadableApplicationsRequest.playerDefined, decide_eq_true hne,
            if_pos rfl, hnumber]
        refine ⟨.inr (by rw [hdefined]; exact hpositive), fun gameId hmem => ?_⟩
        obtain ⟨app, happ, rfl⟩ := mem_listed_okReply.mp hmem
        refine ⟨?_, hcached app happ⟩
        rw [hdefined, Permitted, if_pos hpositive]
        refine ⟨req.userToken, List.mem_append_left _ hsigned,
          request, apps, ?_, hlisted, app, happ, rfl⟩
        rw [DownloadableApplicationsRequest.parameter, if_neg htoken] at hasked
        exact hasked

end Truth

section Peers

theorem gamesCache_onMessageReceived {m m' : DownloadableGamesModel}
    (h : m.gamesCache = m'.gamesCache) (msg : JsonObject) :
    (m.onMessageReceived msg).1.gamesCache = (m'.onMessageReceived msg).1.gamesCache := by
  simp only [DownloadableGamesModel.onMessageReceived, h]
  split
  · exact h
  · rfl

structure Told (s : Catalogue) (past : List CatalogueSignal) : Prop where
  underWay : ∀ (command : Nat) (peer : CataloguePeer), s.peers[command]? = some peer →
    ∀ json ∈ peer.toClient, Truthful s.server.cache past json
  heard : ∀ command, ∀ json ∈ receivedBy command past, Truthful s.server.cache past json
  models : ∀ (command : Nat) (peer : CataloguePeer), s.peers[command]? = some peer →
    peer.model.gamesCache = (received (receivedBy command past) 0).gamesCache
  opened : ∀ command ∈ s.peers, command < s.server.nextCommand
  unheard : ∀ command, s.server.nextCommand ≤ command → receivedBy command past = []

theorem told_start : Told start [] where
  underWay _ _ hpeer := by simp [start] at hpeer
  heard _ _ hjson := by cases hjson
  models _ _ hpeer := by simp [start] at hpeer
  opened _ hmem := by simp [start] at hmem
  unheard _ _ := rfl

theorem receivedBy_append (command : Nat) (past out : List CatalogueSignal) :
    receivedBy command (past ++ out) = receivedBy command past ++ receivedBy command out :=
  List.filterMap_append

theorem receivedBy_server (command : Nat) (signals : List QuerySignal) :
    receivedBy command (signals.map .server) = [] := by
  rw [receivedBy, List.filterMap_map, List.filterMap_eq_nil_iff]
  intro signal _
  rfl

theorem Told.append {out : List CatalogueSignal} (h : Told s past)
    (hpeers : ∀ (command : Nat) (peer' : CataloguePeer), s'.peers[command]? = some peer' →
      ∃ peer, s.peers[command]? = some peer ∧ peer'.model.gamesCache = peer.model.gamesCache ∧
        ∀ json ∈ peer'.toClient, json ∈ peer.toClient ∨
          Truthful s'.server.cache (past ++ out) json)
    (hcache : ∀ id ∈ s.server.cache, id ∈ s'.server.cache)
    (hnext : s'.server.nextCommand = s.server.nextCommand)
    (hsilent : ∀ command, receivedBy command out = []) : Told s' (past ++ out) where
  underWay command peer' hpeer' json hjson := by
    obtain ⟨peer, hpeer, -, hmessages⟩ := hpeers command peer' hpeer'
    rcases hmessages json hjson with hold | hnew
    · exact (h.underWay command peer hpeer json hold).append hcache out
    · exact hnew
  heard command json hjson := by
    rw [receivedBy_append, hsilent, List.append_nil] at hjson
    exact (h.heard command json hjson).append hcache out
  models command peer' hpeer' := by
    obtain ⟨peer, hpeer, hmodel, -⟩ := hpeers command peer' hpeer'
    rw [hmodel, receivedBy_append, hsilent, List.append_nil]
    exact h.models command peer hpeer
  opened command hmem := by
    obtain ⟨peer', hpeer'⟩ := (QMap.mem_iff _ _).mp hmem
    obtain ⟨peer, hpeer, -⟩ := hpeers command peer' hpeer'
    rw [hnext]
    exact h.opened command (QMap.mem_of_getElem? hpeer)
  unheard command hcommand := by
    rw [receivedBy_append, hsilent, List.append_nil]
    exact h.unheard command (by omega)

theorem Told.unsent (h : Told s past)
    (hpeers : ∀ (command : Nat) (peer' : CataloguePeer), s'.peers[command]? = some peer' →
      ∃ peer, s.peers[command]? = some peer ∧ peer'.model.gamesCache = peer.model.gamesCache ∧
        ∀ json ∈ peer'.toClient, json ∈ peer.toClient)
    (hcache : ∀ id ∈ s.server.cache, id ∈ s'.server.cache)
    (hnext : s'.server.nextCommand = s.server.nextCommand) : Told s' past := by
  have happended : Told s' (past ++ []) := by
    refine h.append ?_ hcache hnext fun _ => rfl
    intro command peer' hpeer'
    obtain ⟨peer, hpeer, hmodel, hmessages⟩ := hpeers command peer' hpeer'
    exact ⟨peer, hpeer, hmodel, fun json hjson => .inl (hmessages json hjson)⟩
  rwa [List.append_nil] at happended

theorem Told.same {out : List CatalogueSignal} (h : Told s past) (hpeers : s'.peers = s.peers)
    (hserver : s'.server = s.server) (hsilent : ∀ command, receivedBy command out = []) :
    Told s' (past ++ out) := by
  apply h.append _ (fun id hid => by rwa [hserver]) (by rw [hserver]) hsilent
  intro command peer' hpeer'
  rw [hpeers] at hpeer'
  exact ⟨peer', hpeer', rfl, fun json hjson => .inl hjson⟩

theorem Told.modify (h : Told s past) (command : Nat) {change : CataloguePeer → CataloguePeer}
    (hmodel : ∀ peer, (change peer).model.gamesCache = peer.model.gamesCache)
    (hmessages : ∀ peer, (change peer).toClient = peer.toClient) :
    Told { s with peers := s.peers.modify command change } past := by
  refine h.unsent ?_ (fun _ => id) rfl
  intro other peer' hpeer'
  rw [Std.ExtTreeMap.getElem?_modify] at hpeer'
  split at hpeer'
  · rename_i heq
    rw [Std.compare_eq_iff_eq] at heq
    subst heq
    obtain ⟨peer, hpeer, rfl⟩ := Option.map_eq_some_iff.mp hpeer'
    exact ⟨peer, hpeer, hmodel peer, by rw [hmessages]; exact fun _ => id⟩
  · exact ⟨peer', hpeer', rfl, fun _ => id⟩

theorem Told.open (h : Told s past) : Told s.openControlChannel past where
  underWay command peer hpeer json hjson := by
    rw [openControlChannel, QMap.getElem?_insert] at hpeer
    split at hpeer
    · cases hpeer
      cases hjson
    · exact h.underWay command peer hpeer json hjson
  heard := h.heard
  models command peer hpeer := by
    rw [openControlChannel, QMap.getElem?_insert] at hpeer
    split at hpeer
    · rename_i heq
      cases hpeer
      rw [h.unheard command (by omega)]
      rfl
    · exact h.models command peer hpeer
  opened command hmem := by
    rw [openControlChannel, QMap.mem_insert_iff] at hmem
    rcases hmem with rfl | hmem
    · exact Nat.lt_succ_self _
    · exact Nat.lt_succ_of_lt (h.opened command hmem)
  unheard command hcommand := h.unheard command (Nat.le_of_succ_le hcommand)

theorem getElem?_send (peers : QMap Nat CataloguePeer) (signals : List QuerySignal) {command : Nat}
    {peer' : CataloguePeer} (h : (send peers signals)[command]? = some peer') :
    ∃ peer, peers[command]? = some peer ∧ peer'.model = peer.model ∧
      ∀ json ∈ peer'.toClient, json ∈ peer.toClient ∨ .reply command json ∈ signals := by
  induction signals generalizing peers with
  | nil => exact ⟨peer', h, rfl, fun json hjson => .inl hjson⟩
  | cons signal signals ih =>
      cases signal with
      | reply other sent =>
          obtain ⟨middle, hmiddle, hmodel, hmessages⟩ := ih _ h
          rw [Std.ExtTreeMap.getElem?_modify] at hmiddle
          split at hmiddle
          · rename_i heq
            rw [Std.compare_eq_iff_eq] at heq
            subst heq
            obtain ⟨peer, hpeer, rfl⟩ := Option.map_eq_some_iff.mp hmiddle
            refine ⟨peer, hpeer, hmodel, fun json hjson => ?_⟩
            rcases hmessages json hjson with hold | hnew
            · rcases List.mem_append.mp hold with hold | hlast
              · exact .inl hold
              · rw [List.mem_singleton.mp hlast]
                exact .inr (List.mem_cons_self ..)
            · exact .inr (List.mem_cons_of_mem _ hnew)
          · refine ⟨middle, hmiddle, hmodel, fun json hjson => ?_⟩
            exact (hmessages json hjson).imp_right (List.mem_cons_of_mem _)
      | _ =>
          obtain ⟨peer, hpeer, hmodel, hmessages⟩ := ih peers h
          refine ⟨peer, hpeer, hmodel, fun json hjson => ?_⟩
          exact (hmessages json hjson).imp_right (List.mem_cons_of_mem _)

theorem Told.deliverToClient (h : Told s past) (command : Nat) :
    Told (s.deliverToClient command).1 (past ++ (s.deliverToClient command).2) := by
  unfold Catalogue.deliverToClient
  split
  · simpa using h
  · simpa using h
  · rename_i model toServer json toClient hpeer
    have hrest : ∀ other ∈ toClient, Truthful s.server.cache past other := fun other hother =>
      h.underWay command _ hpeer other (List.mem_cons_of_mem _ hother)
    have hnow : Truthful s.server.cache past json :=
      h.underWay command _ hpeer json (List.mem_cons_self ..)
    split
    · constructor
      case underWay =>
        intro other peer hother sent hsent
        rw [QMap.getElem?_insert] at hother
        split at hother
        · cases hother
          exact (hrest sent hsent).append (fun _ => id) _
        · exact (h.underWay other peer hother sent hsent).append (fun _ => id) _
      case heard =>
        intro other sent hsent
        rw [receivedBy_append, List.mem_append] at hsent
        rcases hsent with hold | hnew
        · exact (h.heard other sent hold).append (fun _ => id) _
        · have hsame : sent = json := by
            simp only [receivedBy, List.mem_filterMap, List.mem_singleton] at hnew
            obtain ⟨_, rfl, hsome⟩ := hnew
            simp only [Option.ite_none_right_eq_some, Option.some.injEq] at hsome
            exact hsome.2.symm
          rw [hsame]
          exact hnow.append (fun _ => id) _
      case models =>
        intro other peer hother
        rw [receivedBy_append]
        rw [QMap.getElem?_insert] at hother
        split at hother
        · rename_i heq
          cases hother
          subst heq
          have hone : receivedBy other [.received other json] = [json] := by
            simp [receivedBy]
          have hold := h.models other _ hpeer
          rw [hone, DownloadableGamesModel.received_concat]
          exact gamesCache_onMessageReceived hold json
        · rename_i hne
          have hnone : receivedBy other [.received command json] = [] := by
            simp [receivedBy, Ne.symm hne]
          rw [hnone, List.append_nil]
          exact h.models other peer hother
      case opened =>
        intro other hmem
        rw [QMap.mem_insert_iff] at hmem
        rcases hmem with rfl | hmem
        · exact h.opened _ (QMap.mem_of_getElem? hpeer)
        · exact h.opened other hmem
      case unheard =>
        intro other hother
        have hold := h.opened _ (QMap.mem_of_getElem? hpeer)
        have hne : command ≠ other := by
          rintro rfl
          exact Nat.not_le_of_lt hold hother
        rw [receivedBy_append, h.unheard other hother]
        simp [receivedBy, hne]
    · rw [List.append_nil]
      refine h.unsent ?_ (fun _ => id) rfl
      intro other peer' hpeer'
      rw [QMap.getElem?_insert] at hpeer'
      split at hpeer'
      · rename_i heq
        cases hpeer'
        subst heq
        exact ⟨_, hpeer, rfl, fun _ => List.mem_cons_of_mem _⟩
      · exact ⟨peer', hpeer', rfl, fun _ => id⟩

end Peers

section Runs

theorem Told.work {out : List CatalogueSignal} {result : QuerySystem.Result} (h : Told s past)
    (hrecorded : Recorded s past) (hwork : s.work result = .ok (s', out))
    (htraced : ∀ server signals, result = .ok (server, signals) →
      Traced s.server server signals) :
    Recorded s' (past ++ out) ∧ Told s' (past ++ out) := by
  obtain ⟨server, signals, hresult, rfl, rfl⟩ := work_ok hwork
  have htraced := htraced server signals hresult
  refine ⟨hrecorded.traced htraced rfl, ?_⟩
  apply h.append _ htraced.cache htraced.nextCommand
    (fun command => receivedBy_server command signals)
  intro command peer' hpeer'
  obtain ⟨peer, hpeer, hmodel, hmessages⟩ := getElem?_send s.peers signals hpeer'
  refine ⟨peer, hpeer, by rw [hmodel], fun json hjson => ?_⟩
  rcases hmessages json hjson with hold | hreply
  · exact .inl hold
  · exact .inr (hrecorded.tells (htraced.replies command json hreply))

theorem process_cache (s : QuerySystem) (playerSessions : GBerry.Server.PlayerSessionManager)
    (command : Nat) (json : JsonObject) :
    (s.process playerSessions command json).1.cache = s.cache ∧
      (s.process playerSessions command json).1.nextCommand = s.nextCommand := by
  unfold QuerySystem.process
  split
  · exact ⟨rfl, rfl⟩
  · exact ⟨rfl, rfl⟩

theorem Told.deliverToServer (h : Told s past) (hrecorded : Recorded s past)
    (howned : QuerySystem.Owned s.server (onServer past)) (command : Nat) :
    Recorded (s.deliverToServer command).1 (past ++ (s.deliverToServer command).2) ∧
      Told (s.deliverToServer command).1 (past ++ (s.deliverToServer command).2) := by
  unfold Catalogue.deliverToServer
  split
  · simpa using ⟨hrecorded, h⟩
  · simpa using ⟨hrecorded, h⟩
  · rename_i model json toServer toClient hpeer
    have hpeers (other : Nat) (peer' : CataloguePeer)
        (hother : (s.peers.insert command ⟨model, toServer, toClient⟩)[other]? = some peer') :
        ∃ peer, s.peers[other]? = some peer ∧ peer'.model.gamesCache = peer.model.gamesCache ∧
          ∀ sent ∈ peer'.toClient, sent ∈ peer.toClient := by
      rw [QMap.getElem?_insert] at hother
      split at hother
      · rename_i heq
        cases hother
        subst heq
        exact ⟨_, hpeer, rfl, fun sent hsent => hsent⟩
      · exact ⟨peer', hother, rfl, fun sent hsent => hsent⟩
    split
    · obtain ⟨hcache, hnext⟩ := process_cache s.server s.playerSessions command json
      constructor
      · refine hrecorded.process command json howned ?_ ?_ _
        · rfl
        · rfl
      · apply h.append _ _ hnext (fun other => receivedBy_server other _)
        · intro other peer' hother
          obtain ⟨peer, hold, hmodel, hmessages⟩ := hpeers other peer' hother
          exact ⟨peer, hold, hmodel, fun sent hsent => .inl (hmessages sent hsent)⟩
        · intro id hid
          rw [hcache]
          exact hid
    · rw [List.append_nil]
      constructor
      · exact hrecorded.same rfl rfl rfl
      · refine h.unsent ?_ (fun _ => id) rfl
        intro other peer' hother
        obtain ⟨peer, hold, hmodel, hmessages⟩ := hpeers other peer' hother
        exact ⟨peer, hold, hmodel, hmessages⟩

theorem deliverToClient_sessions (s : Catalogue) (command : Nat) :
    (s.deliverToClient command).1.playerSessions = s.playerSessions := by
  unfold Catalogue.deliverToClient
  split
  · rfl
  · rfl
  · split
    · rfl
    · rfl

theorem step_told {out : List CatalogueSignal} (h : Told s past) (hrecorded : Recorded s past)
    (howned : QuerySystem.Owned s.server (onServer past)) {event : CatalogueEvent}
    (hpositive : s.SignsInPositive event) (hstep : s.step event = .ok (s', out)) :
    Recorded s' (past ++ out) ∧ Told s' (past ++ out) := by
  cases event with
  | guestArrives guestName sessionToken =>
      cases hstep
      constructor
      · apply hrecorded.insertSession
        intro hguest
        cases hguest
      · exact h.same rfl rfl fun _ => rfl
  | playerSignsIn playerName sessionToken userToken =>
      cases hstep
      constructor
      · apply hrecorded.insertSession
        intro _
        exact ⟨hpositive, List.mem_append_right _ (List.mem_singleton_self _)⟩
      · exact h.same rfl rfl fun _ => rfl
  | playerLeaves playerId =>
      cases hstep
      constructor
      · rw [List.append_nil]
        exact hrecorded.removeSession playerId
      · exact h.same rfl rfl fun _ => rfl
  | openControlChannel =>
      cases hstep
      rw [List.append_nil]
      exact ⟨hrecorded.same rfl rfl rfl, h.open⟩
  | closeControlChannel command =>
      rw [step, closeControlChannel] at hstep
      split at hstep
      · cases hstep
      · rename_i server hdestroy
        cases hstep
        have htraced := QuerySystem.destroyCommand_traced hdestroy
        rw [List.append_nil]
        refine ⟨hrecorded.untold htraced rfl, ?_⟩
        apply h.unsent _ htraced.cache htraced.nextCommand
        intro other peer' hother
        rw [QMap.getElem?_erase, Option.ite_none_left_eq_some] at hother
        exact ⟨peer', hother.2, rfl, fun _ => id⟩
  | activatePlayer command playerId =>
      cases hstep
      rw [List.append_nil]
      constructor
      · exact hrecorded.same rfl rfl rfl
      · exact h.modify command (fun _ => rfl) fun _ => rfl
  | requestGames command =>
      cases hstep
      rw [List.append_nil]
      constructor
      · exact hrecorded.same rfl rfl rfl
      · exact h.modify command (fun _ => rfl) fun _ => rfl
  | deliverToServer command =>
      have hdelivered : s.deliverToServer command = (s', out) := Except.ok.inj hstep
      have htold := h.deliverToServer hrecorded howned command
      rw [hdelivered] at htold
      exact htold
  | deliverToClient command =>
      have hdelivered : s.deliverToClient command = (s', out) := Except.ok.inj hstep
      have htold := h.deliverToClient command
      obtain ⟨hserver, -⟩ := deliverToClient_server s command
      have hsessions := deliverToClient_sessions s command
      rw [hdelivered] at htold hserver hsessions
      exact ⟨hrecorded.append hsessions (by rw [hserver]) (by rw [hserver]) out, htold⟩
  | executeRequest request =>
      apply h.work hrecorded hstep
      intro server signals hresult
      exact QuerySystem.executeRequest_traced hresult
  | noConnection request details =>
      apply h.work hrecorded hstep
      intro server signals hresult
      exact QuerySystem.noConnection_traced hresult
  | finishedOk request headServerHost response details =>
      apply h.work hrecorded hstep
      intro server signals hresult
      exact QuerySystem.finishedOk_traced hresult
  | finishedError request details =>
      apply h.work hrecorded hstep
      intro server signals hresult
      exact QuerySystem.finishedError_traced hresult

theorem told (h : Execution machine history s)
    (hpositive : Execution.EachStep (fun _ st => st.pre.SignsInPositive st.label) history) :
    Recorded s (outputs history) ∧ Told s (outputs history) := by
  have hall : Execution.Always machine
      (fun history s => Recorded s (outputs history) ∧ Told s (outputs history)) history := by
    refine h.always_of_eachStep
      (P := fun history s => Recorded s (outputs history) ∧ Told s (outputs history))
      ⟨recorded_start, told_start⟩ ?_ hpositive
    intro older s s' event out hbefore hs hstep hevent
    exact step_told hs.2 hs.1 (owned hbefore) hevent hstep
  exact hall history s List.suffix_rfl h

end Runs

section Offers

variable {m : DownloadableGamesModel} {msgs : List JsonObject} {player : Int}

theorem gamesCache_received (a b : Int) :
    (received msgs a).gamesCache = (received msgs b).gamesCache := by
  induction msgs using List.reverseRecOn with
  | nil => rfl
  | append_singleton msgs msg ih =>
      rw [DownloadableGamesModel.received_concat, DownloadableGamesModel.received_concat]
      exact gamesCache_onMessageReceived ih msg

theorem model_received (h : m.gamesCache = (received msgs 0).gamesCache) :
    m = received msgs m.activePlayerModel.activePlayerId := by
  have hactive :
      (received msgs m.activePlayerModel.activePlayerId).activePlayerModel.activePlayerId =
        m.activePlayerModel.activePlayerId := DownloadableGamesModel.activePlayerId_received
  rw [gamesCache_received 0 m.activePlayerModel.activePlayerId] at h
  generalize received msgs m.activePlayerModel.activePlayerId = m' at h hactive ⊢
  obtain ⟨gamesCache, ⟨activePlayerId⟩⟩ := m
  obtain ⟨gamesCache', ⟨activePlayerId'⟩⟩ := m'
  simp only at h hactive
  rw [h, hactive]

theorem latest_mem {p : JsonObject → Bool} {msg : JsonObject}
    (h : DownloadableGamesModel.latest p msgs = some msg) :
    msg ∈ msgs ∧ isFailure msg = false ∧ p msg = true := by
  have hmem := List.mem_of_getLast? h
  rw [List.mem_filter, Bool.and_eq_true, Bool.not_eq_true'] at hmem
  exact hmem

def NamesNoGuest (msgs : List JsonObject) : Prop :=
  ∀ msg ∈ msgs, isFailure msg = false → playerId msg = -1 ∨ 0 < playerId msg

theorem sinceCleared_eq (h : NamesNoGuest msgs) :
    sinceCleared msgs = (DownloadableGamesModel.latest isFree msgs).toList := by
  induction msgs using List.reverseRecOn with
  | nil => rfl
  | append_singleton msgs msg ih =>
      have hold : NamesNoGuest msgs := fun reply hreply => h reply (List.mem_append_left _ hreply)
      rw [DownloadableGamesModel.sinceCleared_concat, DownloadableGamesModel.latest_concat]
      cases hok : isFailure msg with
      | true => simpa using ih hold
      | false =>
          cases hfree : isFree msg with
          | false => simpa using ih hold
          | true =>
              have hplayer : playerId msg = -1 := by
                rw [isFree, decide_eq_true_eq] at hfree
                rcases h msg (by simp) hok with hnone | hpositive
                · exact hnone
                · omega
              simp [hplayer]

theorem get_nobody (h : NamesNoGuest msgs) : (received msgs player).gamesCache.get 0 = ∅ := by
  rw [DownloadableGamesModel.get_registered (le_refl 0)]
  cases hlatest : DownloadableGamesModel.latest (fun msg => playerId msg = 0) msgs with
  | none => rfl
  | some msg =>
      obtain ⟨hmem, hok, hplayer⟩ := latest_mem hlatest
      rw [decide_eq_true_eq] at hplayer
      rcases h msg hmem hok with hnone | hpositive
      · omega
      · omega

theorem mem_gameIds (h : NamesNoGuest msgs) (hgame : gameId ∈ (received msgs player).gameIds) :
    ∃ msg ∈ msgs, isFailure msg = false ∧ gameId ∈ listed msg ∧
      (playerId msg = player ∨ player < 0 ∧ playerId msg = -1) := by
  rw [DownloadableGamesModel.gameIds_eq, DownloadableGamesModel.activePlayerId_received,
    Std.ExtTreeMap.mem_keys] at hgame
  rcases lt_or_ge player 0 with hguest | hregistered
  · rw [GameDataCache.get_guest hguest] at hgame
    obtain ⟨msg, hmsg, hlisted⟩ :=
      ((DownloadableGamesModel.get_free msgs player).1 gameId).mp hgame
    obtain ⟨hmem, hok, hfree⟩ := DownloadableGamesModel.mem_sinceCleared hmsg
    refine ⟨msg, hmem, hok, hlisted, .inr ⟨hguest, ?_⟩⟩
    rw [isFree, decide_eq_true_eq] at hfree
    rcases h msg hmem hok with hnone | hpositive
    · exact hnone
    · omega
  · rw [DownloadableGamesModel.get_registered hregistered] at hgame
    cases hlatest : DownloadableGamesModel.latest (fun msg => playerId msg = player) msgs with
    | none =>
        rw [hlatest] at hgame
        exact absurd hgame Std.ExtTreeMap.not_mem_empty
    | some msg =>
        obtain ⟨hmem, hok, hplayer⟩ := latest_mem hlatest
        rw [hlatest] at hgame
        rw [decide_eq_true_eq] at hplayer
        exact ⟨msg, hmem, hok, hgame, .inl hplayer⟩

theorem Told.namesNoGuest (h : Told s past) (command : Nat) :
    NamesNoGuest (receivedBy command past) := by
  intro msg hmsg hok
  rcases h.heard command msg hmsg with hfailure | ⟨hplayer, -⟩
  · rw [hok] at hfailure
    cases hfailure
  · exact hplayer

/--
The games that an application offers to its active player are permitted to the
player, and the server knows each of them when it is to be downloaded.
-/
theorem offered_permitted (h : Execution machine history s)
    (hpositive : Execution.EachStep (fun _ st => st.pre.SignsInPositive st.label) history)
    {peer : CataloguePeer} (hpeer : s.peers[command]? = some peer)
    (hgame : gameId ∈ peer.model.gameIds) :
    Permitted (outputs history) peer.model.activePlayerModel.activePlayerId gameId ∧
      s.server.cache.hasApplication gameId = true := by
  obtain ⟨-, htold⟩ := told h hpositive
  rw [model_received (htold.models command peer hpeer)] at hgame
  obtain ⟨msg, hmsg, hok, hlisted, hplayer⟩ := mem_gameIds (htold.namesNoGuest command) hgame
  rcases htold.heard command msg hmsg with hfailure | ⟨-, htrue⟩
  · rw [hok] at hfailure
    cases hfailure
  · obtain ⟨hpermitted, hcached⟩ := htrue gameId hlisted
    refine ⟨?_, decide_eq_true hcached⟩
    rcases hplayer with hplayer | ⟨hguest, hplayer⟩
    · rw [← hplayer]
      exact hpermitted
    · rw [hplayer, Permitted, if_neg (by omega)] at hpermitted
      rw [Permitted, if_neg (by omega)]
      exact hpermitted

/--
An application with an active player shows exactly what the latest reply for the
player has listed, and one without an active player shows nothing.
-/
theorem offered_latest (h : Execution machine history s)
    (hpositive : Execution.EachStep (fun _ st => st.pre.SignsInPositive st.label) history)
    {peer : CataloguePeer} (hpeer : s.peers[command]? = some peer) :
    if peer.model.activePlayerModel.hasActivePlayer then
      peer.model.Shows (DownloadableGamesModel.latest
        (applies peer.model.activePlayerModel.activePlayerId)
        (receivedBy command (outputs history)))
    else peer.model.gameIds = [] := by
  obtain ⟨-, htold⟩ := told h hpositive
  have hnames := htold.namesNoGuest command
  have hmodel := model_received (htold.models command peer hpeer)
  generalize peer.model.activePlayerModel.activePlayerId = player at hmodel
  rw [hmodel, ActivePlayerModel.hasActivePlayer, DownloadableGamesModel.activePlayerId_received]
  split
  · rename_i hactive
    rw [decide_eq_true_eq] at hactive
    have hnonzero : player ≠ 0 := hactive
    rw [DownloadableGamesModel.shows_iff, DownloadableGamesModel.activePlayerId_received]
    rcases lt_or_gt_of_ne hnonzero with hguest | hregistered
    · have happlies : applies player = isFree := by
        funext msg
        exact if_neg (by omega)
      rw [happlies, GameDataCache.get_guest hguest, DownloadableGamesModel.get_free_iff]
      intro reply hreply msg hmsg gameId hlisted
      rw [sinceCleared_eq hnames, Option.mem_toList] at hmsg
      cases hreply.symm.trans hmsg
      exact hlisted
    · have happlies : applies player = fun msg => playerId msg = player := by
        funext msg
        exact if_pos hregistered
      rw [happlies]
      exact DownloadableGamesModel.get_registered hregistered.le
  · rename_i hactive
    rw [Bool.not_eq_true, decide_eq_false_iff_not, not_not] at hactive
    have hzero : player = 0 := hactive
    subst hzero
    rw [DownloadableGamesModel.gameIds_eq, DownloadableGamesModel.activePlayerId_received,
      get_nobody hnames]
    rfl

def annAsks : List CatalogueEvent :=
  [.playerSignsIn "Ann" "s1" "u1", .openControlChannel, .activatePlayer 0 1,
    .requestGames 0, .deliverToServer 0, .noConnection 0 .null, .deliverToClient 0,
    .requestGames 0, .deliverToServer 0, .executeRequest 1,
    .finishedOk 1 "store" (some [("applications", .array
      [.object [("id", .string "chess"), ("version", .string "1")]])]) .null,
    .deliverToClient 0]

theorem annAsks_runs :
    ∃ history s peer, machine.run annAsks = .ok (history, s) ∧
      Execution.EachStep (fun _ st => st.pre.SignsInPositive st.label) history ∧
      s.peers[0]? = some peer ∧ peer.model.gameIds = ["chess-1"] ∧
      peer.model.activePlayerModel.activePlayerId = 1 := by
  have hrun : ∃ history s, machine.run annAsks = .ok (history, s) ∧
      (history.all (fun st => decide (0 < st.pre.counters.playerIdCounter)) &&
        s.peers[0]?.any fun peer => decide (peer.model.gameIds = ["chess-1"]) &&
          decide (peer.model.activePlayerModel.activePlayerId = 1)) = true :=
    Machine.exists_run (by decide +kernel)
  obtain ⟨history, s, hrun, hcheck⟩ := hrun
  rw [Bool.and_eq_true, List.all_eq_true, Option.any_eq_true] at hcheck
  obtain ⟨hcounters, peer, hpeer, hmodel⟩ := hcheck
  rw [Bool.and_eq_true, decide_eq_true_eq, decide_eq_true_eq] at hmodel
  refine ⟨history, s, peer, hrun, Execution.eachStep_const.mpr fun st hst => ?_, hpeer, hmodel⟩
  have hcounter := of_decide_eq_true (hcounters st hst)
  cases hlabel : st.label with
  | playerSignsIn playerName sessionToken userToken => exact hcounter
  | _ => trivial

/-- A registered player is offered a game that was listed for her token. -/
theorem offered_permitted_annAsks :
    ∃ history s, machine.run annAsks = .ok (history, s) ∧
      Permitted (outputs history) 1 "chess-1" ∧
      s.server.cache.hasApplication "chess-1" = true := by
  obtain ⟨history, s, peer, hrun, hpositive, hpeer, hgames, hactive⟩ := annAsks_runs
  have hgame : "chess-1" ∈ peer.model.gameIds := by
    rw [hgames]
    exact List.mem_singleton_self _
  have hoffered := offered_permitted (Machine.run_execution hrun) hpositive hpeer hgame
  rw [hactive] at hoffered
  exact ⟨history, s, hrun, hoffered⟩

theorem offered_latest_annAsks :
    ∃ history s peer, machine.run annAsks = .ok (history, s) ∧ s.peers[0]? = some peer ∧
      peer.model.Shows (DownloadableGamesModel.latest (applies 1)
        (receivedBy 0 (outputs history))) := by
  obtain ⟨history, s, peer, hrun, hpositive, hpeer, hgames, hactive⟩ := annAsks_runs
  have hlatest := offered_latest (Machine.run_execution hrun) hpositive hpeer
  rw [ActivePlayerModel.hasActivePlayer, hactive] at hlatest
  exact ⟨history, s, peer, hrun, hpeer, hlatest⟩

end Offers

end GBerry.Protocol.Catalogue
