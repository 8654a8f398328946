import GBerry.Comms.QueryDownloadableApplicationsCommand

/-!
# Requests and the commands that made them

An active request is among the ongoing requests of its command, so that it is
cancelled when the command is destroyed and does not call it afterwards.  A query
that has not been answered is an ongoing request.
-/

namespace GBerry.Comms.QuerySystem

open GBerry.Common
open GBerry.Foundation
open GBerry.Server (PlayerSessionManager)

structure Owned (s : QuerySystem) (past : List QuerySignal) : Prop where
  ongoing : ∀ (request : Nat) (req : DownloadableApplicationsRequest),
    s.requests[request]? = some req → req.active = true →
    ∃ ongoingRequests, s.commands[req.command]? = some ongoingRequests ∧
      request ∈ ongoingRequests
  active : ∀ (command : Nat) (ongoingRequests : List Nat),
    s.commands[command]? = some ongoingRequests →
    ongoingRequests.Nodup ∧ ∀ request ∈ ongoingRequests, ∃ req,
      s.requests[request]? = some req ∧ req.active = true ∧ req.command = command
  flying : ∀ request ∈ s.invocations, request ∈ s.requests
  separate : (s.requestQueue ++ s.invocations).Nodup
  freshRequest : ∀ request, request ∈ s.requests ∨ request ∈ s.requestQueue →
    request < s.nextRequest
  freshCommand : ∀ command ∈ s.commands, command < s.nextCommand
  balanced : ∀ (command : Nat) (ongoingRequests : List Nat),
    s.commands[command]? = some ongoingRequests →
    past.countP (isQuery command) =
      past.countP (isReply command) + ongoingRequests.length
  unused : ∀ command, s.nextCommand ≤ command →
    past.countP (isQuery command) = 0 ∧ past.countP (isReply command) = 0

variable {s s' : QuerySystem} {past out : List QuerySignal} {request command : Nat}
  {req : DownloadableApplicationsRequest} {details : Json}

theorem owned_start : Owned start [] where
  ongoing _ _ hreq := by simp [start] at hreq
  active _ _ hcommand := by simp [start] at hcommand
  flying _ hmem := by simp [start] at hmem
  separate := List.nodup_nil
  freshRequest _ hmem := by simp [start] at hmem
  freshCommand _ hmem := by simp [start] at hmem
  balanced _ _ hcommand := by simp [start] at hcommand
  unused _ _ := by simp

namespace Owned

theorem createCommand (h : Owned s past) : Owned s.createCommand past where
  ongoing other req hreq hactive := by
    obtain ⟨ongoingRequests, hcommand, hmem⟩ := h.ongoing other req hreq hactive
    have hold := h.freshCommand _ (QMap.mem_of_getElem? hcommand)
    refine ⟨ongoingRequests, ?_, hmem⟩
    rw [QuerySystem.createCommand, QMap.getElem?_insert, if_neg (by omega)]
    exact hcommand
  active other ongoingRequests hcommand := by
    rw [QuerySystem.createCommand, QMap.getElem?_insert] at hcommand
    split at hcommand
    · cases hcommand
      exact ⟨List.nodup_nil, by simp⟩
    · exact h.active other ongoingRequests hcommand
  flying := h.flying
  separate := h.separate
  freshRequest := h.freshRequest
  freshCommand other hmem := by
    rw [QuerySystem.createCommand, QMap.mem_insert_iff] at hmem
    rw [QuerySystem.createCommand]
    rcases hmem with rfl | hmem
    · exact Nat.lt_succ_self _
    · exact Nat.lt_succ_of_lt (h.freshCommand other hmem)
  balanced other ongoingRequests hcommand := by
    rw [QuerySystem.createCommand, QMap.getElem?_insert] at hcommand
    split at hcommand
    · rename_i heq
      cases hcommand
      obtain ⟨hqueries, hreplies⟩ := h.unused other (by omega)
      rw [hqueries, hreplies]
      rfl
    · exact h.balanced other ongoingRequests hcommand
  unused other hother := h.unused other (Nat.le_of_succ_le hother)

end Owned

section Cancelling

def inactive (req : DownloadableApplicationsRequest) : DownloadableApplicationsRequest :=
  { req with active := false }

theorem cancelAll_ok {remaining : List Nat}
    (hexist : ∀ request ∈ remaining, request ∈ s.requests) :
    ∃ requests, s.cancelAll remaining = .ok { s with requests := requests } ∧
      ∀ other : Nat, requests[other]? = s.requests[other]?.map fun req =>
        if other ∈ remaining then inactive req else req := by
  induction remaining generalizing s with
  | nil => exact ⟨s.requests, rfl, by simp⟩
  | cons request rest ih =>
      obtain ⟨req, hreq⟩ := (QMap.mem_iff _ _).mp (hexist request (by simp))
      have hcancel : s.cancel request =
          .ok { s with requests := s.requests.insert request (inactive req) } := by
        rw [cancel, hreq]
        rfl
      have hrest : ∀ other ∈ rest, other ∈ s.requests.insert request (inactive req) := by
        intro other hother
        rw [QMap.mem_insert_iff]
        exact .inr (hexist other (by simp [hother]))
      obtain ⟨requests, hall, hrequests⟩ :=
        @ih { s with requests := s.requests.insert request (inactive req) } hrest
      refine ⟨requests, by rw [cancelAll, hcancel]; exact hall, ?_⟩
      intro other
      rw [hrequests, QMap.getElem?_insert]
      by_cases heq : request = other
      · subst heq
        simp [hreq, inactive]
      · simp [Ne.symm heq]

theorem destroyCommand_owned (h : Owned s past) (command : Nat) :
    ∃ s', s.destroyCommand command = .ok s' ∧ Owned s' past := by
  unfold destroyCommand
  cases hcommand : s.commands[command]? with
  | none => exact ⟨s, rfl, h⟩
  | some ongoingRequests =>
      obtain ⟨_, hongoing⟩ := h.active command ongoingRequests hcommand
      have hexist : ∀ request ∈ ongoingRequests, request ∈ s.requests := by
        intro request hmem
        obtain ⟨req, hreq, -⟩ := hongoing request hmem
        exact QMap.mem_of_getElem? hreq
      obtain ⟨requests, hcancel, hrequests⟩ :=
        @cancelAll_ok { s with commands := s.commands.erase command } ongoingRequests hexist
      have hmem (request : Nat) : request ∈ requests ↔ request ∈ s.requests := by
        rw [QMap.mem_iff, QMap.mem_iff, ← Option.isSome_iff_exists, ← Option.isSome_iff_exists,
          hrequests, Option.isSome_map]
      refine ⟨_, hcancel, ?_⟩
      constructor
      case ongoing =>
        intro request req hreq hactive
        rw [hrequests, Option.map_eq_some_iff] at hreq
        obtain ⟨req, hold, rfl⟩ := hreq
        split at hactive
        · cases hactive
        · rename_i hother
          rw [if_neg hother]
          obtain ⟨others, hothers, hrequest⟩ := h.ongoing request req hold hactive
          refine ⟨others, ?_, hrequest⟩
          rw [QMap.getElem?_erase, if_neg]
          · exact hothers
          · rintro rfl
            cases hcommand.symm.trans hothers
            exact hother hrequest
      case active =>
        intro other others hothers
        rw [QMap.getElem?_erase, Option.ite_none_left_eq_some] at hothers
        obtain ⟨hnodup, hall⟩ := h.active other others hothers.2
        refine ⟨hnodup, fun request hrequest => ?_⟩
        obtain ⟨req, hreq, hactive, hcommandOf⟩ := hall request hrequest
        refine ⟨req, ?_, hactive, hcommandOf⟩
        rw [hrequests, hreq, Option.map_some, if_neg]
        intro hboth
        obtain ⟨req', hreq', -, hcommandOf'⟩ := hongoing request hboth
        cases hreq.symm.trans hreq'
        exact hothers.1 (hcommandOf.symm.trans hcommandOf')
      case flying => exact fun request hrequest => (hmem request).mpr (h.flying request hrequest)
      case separate => exact h.separate
      case freshRequest =>
        intro request hrequest
        rw [hmem] at hrequest
        exact h.freshRequest request hrequest
      case freshCommand =>
        intro other hother
        rw [QMap.mem_erase_iff] at hother
        exact h.freshCommand other hother.2
      case balanced =>
        intro other others hothers
        rw [QMap.getElem?_erase, Option.ite_none_left_eq_some] at hothers
        exact h.balanced other others hothers.2
      case unused => exact h.unused

end Cancelling

section Requests

/-- A request names a player only with the token of a session of this player. -/
theorem newRequest_cases (playerSessions : PlayerSessionManager) (command : Nat)
    (json : JsonObject) :
    newRequest playerSessions command json = .new command ∨
      ∃ session, playerSessions.find (Int32.ofInt (json.value "player_id").toInt) =
          some session ∧ session.isGuest = false ∧
        newRequest playerSessions command json =
          (DownloadableApplicationsRequest.new command).setUserToken
            (json.value "player_id").toInt session.userToken := by
  simp only [newRequest]
  split
  · by_cases hsession : ((playerSessions.session
        (Int32.ofInt (json.value "player_id").toInt)).isValid &&
      !(playerSessions.session (Int32.ofInt (json.value "player_id").toInt)).isGuest) = true
    · rw [if_pos hsession]
      rw [Bool.and_eq_true, Bool.not_eq_true', PlayerSessionManager.session] at hsession
      rw [PlayerSessionManager.session]
      cases hfind : playerSessions.find (Int32.ofInt (json.value "player_id").toInt) with
      | none =>
          rw [hfind] at hsession
          cases hsession.1
      | some session =>
          rw [hfind] at hsession
          exact .inr ⟨session, rfl, hsession.2, rfl⟩
    · rw [if_neg hsession]
      exact .inl rfl
  · exact .inl rfl

theorem process_owned (h : Owned s past) (playerSessions : PlayerSessionManager) (command : Nat)
    (json : JsonObject) :
    Owned (s.process playerSessions command json).1
      (past ++ (s.process playerSessions command json).2) := by
  unfold process
  cases hcommand : s.commands[command]? with
  | none => simpa using h
  | some ongoingRequests =>
      obtain ⟨hnodup, hongoing⟩ := h.active command ongoingRequests hcommand
      have hnew : s.nextRequest ∉ s.requests := fun hmem =>
        Nat.lt_irrefl _ (h.freshRequest _ (.inl hmem))
      have hother {request : Nat} (hmem : request ∈ s.requests) : request ≠ s.nextRequest := by
        rintro rfl
        exact hnew hmem
      have hmade : (newRequest playerSessions command json).command = command ∧
          (newRequest playerSessions command json).active = true := by
        rcases newRequest_cases playerSessions command json with hplain | ⟨_, _, _, htoken⟩
        · rw [hplain]
          exact ⟨rfl, rfl⟩
        · rw [htoken]
          exact ⟨rfl, rfl⟩
      obtain ⟨hcommandOf, hactiveOf⟩ := hmade
      constructor
      case ongoing =>
        intro request req hreq hactive
        rw [QMap.getElem?_insert] at hreq
        simp only [QMap.getElem?_insert]
        split at hreq
        · rename_i heq
          cases hreq
          subst heq
          exact ⟨_, by rw [hcommandOf, if_pos rfl], by simp⟩
        · obtain ⟨others, hothers, hmem⟩ := h.ongoing request req hreq hactive
          split
          · rename_i heq
            rw [heq, hcommand] at hothers
            cases hothers
            exact ⟨_, rfl, List.mem_append_left _ hmem⟩
          · exact ⟨others, hothers, hmem⟩
      case active =>
        intro other others hothers
        rw [QMap.getElem?_insert] at hothers
        simp only [QMap.getElem?_insert]
        have hkept {request : Nat} {others : List Nat} (hothers : s.commands[other]? = some others)
            (hmem : request ∈ others) : ∃ req,
            (if request = s.nextRequest then some (newRequest playerSessions command json)
              else s.requests[request]?) = some req ∧ req.active = true ∧
              req.command = other := by
          obtain ⟨req, hreq, hrest⟩ := (h.active other others hothers).2 request hmem
          exact ⟨req, by rw [if_neg (hother (QMap.mem_of_getElem? hreq)), hreq], hrest⟩
        split at hothers
        · rename_i heq
          subst heq
          cases hothers
          constructor
          · rw [List.nodup_append]
            refine ⟨hnodup, List.nodup_singleton _, ?_⟩
            intro request hmem other hlast
            rw [List.mem_singleton.mp hlast]
            obtain ⟨req, hreq, -⟩ := hongoing request hmem
            exact hother (QMap.mem_of_getElem? hreq)
          · intro request hmem
            rcases List.mem_append.mp hmem with hmem | hmem
            · exact hkept hcommand hmem
            · rw [List.mem_singleton.mp hmem, if_pos rfl]
              exact ⟨_, rfl, hactiveOf, hcommandOf⟩
        · exact ⟨(h.active other others hothers).1, fun request hmem => hkept hothers hmem⟩
      case flying =>
        intro request hmem
        rw [QMap.mem_insert_iff]
        exact .inr (h.flying request hmem)
      case separate =>
        have hunused : s.nextRequest ∉ s.requestQueue ++ s.invocations := by
          intro hmem
          rcases List.mem_append.mp hmem with hmem | hmem
          · exact Nat.lt_irrefl _ (h.freshRequest _ (.inr hmem))
          · exact hnew (h.flying _ hmem)
        rw [List.append_assoc, List.singleton_append, List.nodup_middle, List.nodup_cons]
        exact ⟨hunused, h.separate⟩
      case freshRequest =>
        intro request hmem
        simp only [QMap.mem_insert_iff, List.mem_append, List.mem_singleton] at hmem
        rcases hmem with (rfl | hmem) | hmem | rfl
        · exact Nat.lt_succ_self _
        · exact Nat.lt_succ_of_lt (h.freshRequest request (.inl hmem))
        · exact Nat.lt_succ_of_lt (h.freshRequest request (.inr hmem))
        · exact Nat.lt_succ_self _
      case freshCommand =>
        intro other hmem
        rw [QMap.mem_insert_iff] at hmem
        rcases hmem with rfl | hmem
        · exact h.freshCommand _ (QMap.mem_of_getElem? hcommand)
        · exact h.freshCommand other hmem
      case balanced =>
        intro other others hothers
        rw [QMap.getElem?_insert] at hothers
        split at hothers
        · rename_i heq
          subst heq
          cases hothers
          have hbalance := h.balanced _ ongoingRequests hcommand
          simp [isQuery, isReply, hbalance]
          omega
        · rename_i heq
          have hbalance := h.balanced other others hothers
          simp [isQuery, isReply, hbalance, Ne.symm heq]
      case unused =>
        intro other hother
        have hold := h.freshCommand _ (QMap.mem_of_getElem? hcommand)
        obtain ⟨hqueries, hreplies⟩ := h.unused other hother
        have hne : command ≠ other := by
          rintro rfl
          exact Nat.not_le_of_lt hold hother
        simp [isQuery, isReply, hqueries, hreplies, hne]

theorem Owned.execute (h : Owned s past) (hqueue : request ∈ s.requestQueue)
    (hreq : s.requests[request]? = some req) :
    Owned { s with
        requestQueue := s.requestQueue.erase request
        invocations := s.invocations ++ [request] }
      (past ++ [.asked request req.parameter]) where
  ongoing := h.ongoing
  active := h.active
  flying other hother := by
    rcases List.mem_append.mp hother with hother | hother
    · exact h.flying other hother
    · rw [List.mem_singleton.mp hother]
      exact QMap.mem_of_getElem? hreq
  separate := by
    have hperm : (s.requestQueue.erase request ++ (s.invocations ++ [request])).Perm
        (s.requestQueue ++ s.invocations) := by
      rw [← List.append_assoc]
      refine List.perm_append_comm.trans ?_
      rw [List.singleton_append, ← List.cons_append]
      exact (List.perm_cons_erase hqueue).symm.append_right _
    exact hperm.nodup_iff.mpr h.separate
  freshRequest other hother := by
    rcases hother with hother | hother
    · exact h.freshRequest other (.inl hother)
    · exact h.freshRequest other (.inr (List.mem_of_mem_erase hother))
  freshCommand := h.freshCommand
  balanced other others hothers := by
    simpa [isQuery, isReply] using h.balanced other others hothers
  unused other hother := by simpa [isQuery, isReply] using h.unused other hother

theorem executeRequest_owned (h : Owned s past)
    (hexecute : s.executeRequest request = .ok (s', out)) : Owned s' (past ++ out) := by
  unfold executeRequest at hexecute
  split at hexecute
  · rename_i hqueue
    split at hexecute
    · cases hexecute
    · rename_i req hreq
      cases hexecute
      exact h.execute hqueue hreq
  · cases hexecute
    simpa using h

theorem Owned.landed (h : Owned s past) (request : Nat) :
    Owned { s with invocations := s.invocations.erase request } past where
  ongoing := h.ongoing
  active := h.active
  flying other hother := h.flying other (List.mem_of_mem_erase hother)
  separate := h.separate.sublist (List.erase_sublist.append_left _)
  freshRequest := h.freshRequest
  freshCommand := h.freshCommand
  balanced := h.balanced
  unused := h.unused

theorem Owned.landed_notMem (h : Owned s past) (request : Nat) :
    request ∉ s.invocations.erase request :=
  (List.nodup_append.mp h.separate).2.1.not_mem_erase

theorem Owned.queued_notMem (h : Owned s past) (hqueue : request ∈ s.requestQueue) :
    request ∉ s.invocations := fun hmem =>
  (List.nodup_append.mp h.separate).2.2 request hqueue request hmem rfl

theorem Owned.delete (h : Owned s past) (hreq : s.requests[request]? = some req)
    (hinactive : req.active = false) (hlanded : request ∉ s.invocations) :
    Owned { s with requests := s.requests.erase request } past where
  ongoing other found hfound hactive := by
    rw [QMap.getElem?_erase, Option.ite_none_left_eq_some] at hfound
    exact h.ongoing other found hfound.2 hactive
  active other others hothers := by
    obtain ⟨hnodup, hall⟩ := h.active other others hothers
    refine ⟨hnodup, fun found hfound => ?_⟩
    obtain ⟨req', hreq', hactive, hcommandOf⟩ := hall found hfound
    refine ⟨req', ?_, hactive, hcommandOf⟩
    rw [QMap.getElem?_erase, if_neg]
    · exact hreq'
    · rintro rfl
      cases hreq.symm.trans hreq'
      rw [hinactive] at hactive
      cases hactive
  flying other hother := by
    rw [QMap.mem_erase_iff]
    refine ⟨?_, h.flying other hother⟩
    rintro rfl
    exact hlanded hother
  separate := h.separate
  freshRequest other hother := by
    rw [QMap.mem_erase_iff] at hother
    exact h.freshRequest other (hother.imp_left And.right)
  freshCommand := h.freshCommand
  balanced := h.balanced
  unused := h.unused

theorem Owned.answer {requests : QMap Nat DownloadableApplicationsRequest}
    {cache : DownloadableApplicationCache} {ongoingRequests : List Nat} (h : Owned s past)
    (hreq : s.requests[request]? = some req) (hactive : req.active = true)
    (hcommand : s.commands[req.command]? = some ongoingRequests)
    (hlanded : request ∉ s.invocations)
    (hothers : ∀ other, other ≠ request → requests[other]? = s.requests[other]?)
    (hanswered : ∀ req' ∈ requests[request]?, req'.active = false)
    (hqueries : ∀ command, out.countP (isQuery command) = 0)
    (hreplies : ∀ command, out.countP (isReply command) =
      if req.command = command then 1 else 0) :
    Owned { s with
        cache := cache
        commands := s.commands.insert req.command (ongoingRequests.erase request)
        requests := requests } (past ++ out) where
  ongoing other found hfound hfoundActive := by
    have hne : other ≠ request := by
      rintro rfl
      rw [hanswered found hfound] at hfoundActive
      cases hfoundActive
    rw [hothers other hne] at hfound
    obtain ⟨others, hcommands, hmem⟩ := h.ongoing other found hfound hfoundActive
    simp only [QMap.getElem?_insert]
    split
    · rename_i heq
      rw [heq, hcommand] at hcommands
      cases hcommands
      exact ⟨_, rfl, (List.mem_erase_of_ne hne).mpr hmem⟩
    · exact ⟨others, hcommands, hmem⟩
  active command others hcommands := by
    rw [QMap.getElem?_insert] at hcommands
    have hkept {others : List Nat} (hcommands : s.commands[command]? = some others) {other : Nat}
        (hmem : other ∈ others) (hne : other ≠ request) : ∃ req,
        requests[other]? = some req ∧ req.active = true ∧ req.command = command := by
      rw [hothers other hne]
      exact (h.active command others hcommands).2 other hmem
    split at hcommands
    · rename_i heq
      subst heq
      cases hcommands
      obtain ⟨hnodup, -⟩ := h.active _ ongoingRequests hcommand
      refine ⟨hnodup.erase _, fun other hmem => ?_⟩
      obtain ⟨hne, hmem⟩ := hnodup.mem_erase_iff.mp hmem
      exact hkept hcommand hmem hne
    · rename_i heq
      obtain ⟨hnodup, hall⟩ := h.active command others hcommands
      refine ⟨hnodup, fun other hmem => hkept hcommands hmem ?_⟩
      rintro rfl
      obtain ⟨req', hreq', -, hcommandOf⟩ := hall other hmem
      cases hreq.symm.trans hreq'
      exact heq hcommandOf.symm
  flying other hother := by
    have hne : other ≠ request := by
      rintro rfl
      exact hlanded hother
    rw [QMap.mem_iff, hothers other hne, ← QMap.mem_iff]
    exact h.flying other hother
  separate := h.separate
  freshRequest other hother := by
    by_cases heq : other = request
    · subst heq
      exact h.freshRequest other (.inl (QMap.mem_of_getElem? hreq))
    · rw [QMap.mem_iff, hothers other heq, ← QMap.mem_iff] at hother
      exact h.freshRequest other hother
  freshCommand other hother := by
    rw [QMap.mem_insert_iff] at hother
    rcases hother with rfl | hother
    · exact h.freshCommand _ (QMap.mem_of_getElem? hcommand)
    · exact h.freshCommand other hother
  balanced other others hcommands := by
    rw [List.countP_append, List.countP_append, hqueries, hreplies]
    rw [QMap.getElem?_insert] at hcommands
    split at hcommands
    · rename_i heq
      subst heq
      cases hcommands
      have hbalance := h.balanced _ ongoingRequests hcommand
      obtain ⟨others, hothersOf, hmem⟩ := h.ongoing request req hreq hactive
      cases hcommand.symm.trans hothersOf
      have hlength := List.length_erase_add_one hmem
      rw [if_pos rfl]
      omega
    · rename_i heq
      rw [if_neg (Ne.symm heq)]
      exact h.balanced other others hcommands
  unused other hother := by
    have hold := h.freshCommand _ (QMap.mem_of_getElem? hcommand)
    have hne : req.command ≠ other := by
      intro heq
      simp only at hother
      omega
    rw [List.countP_append, List.countP_append, hqueries, hreplies, if_neg hne]
    exact h.unused other hother

theorem removeOngoing_ok (h : Owned s past) (hreq : s.requests[request]? = some req)
    (hactive : req.active = true) :
    ∃ ongoingRequests, s.commands[req.command]? = some ongoingRequests ∧
      s.removeOngoing request req.command = .ok { s with
        commands := s.commands.insert req.command (ongoingRequests.erase request) } := by
  obtain ⟨ongoingRequests, hcommand, -⟩ := h.ongoing request req hreq hactive
  exact ⟨ongoingRequests, hcommand, by rw [removeOngoing, hcommand]⟩

theorem processRequestErrorResponse_owned (h : Owned s past)
    (hreq : s.requests[request]? = some req) (hactive : req.active = true)
    (hlanded : request ∉ s.invocations) :
    ∃ s' out, s.processRequestErrorResponse request req details = .ok (s', out) ∧
      Owned s' (past ++ out) := by
  obtain ⟨ongoingRequests, hcommand, hremove⟩ := removeOngoing_ok h hreq hactive
  refine ⟨_, _, by rw [processRequestErrorResponse, hremove], ?_⟩
  apply h.answer hreq hactive hcommand hlanded
  · intro other hne
    rw [QMap.getElem?_insert, if_neg hne]
  · intro req' hreq'
    rw [QMap.getElem?_insert, if_pos rfl] at hreq'
    cases hreq'
    rfl
  · intro command
    rfl
  · intro command
    by_cases heq : req.command = command <;> simp [isReply, heq]

theorem processRequestOkResponse_owned (h : Owned s past)
    (hreq : s.requests[request]? = some req) (hactive : req.active = true)
    (hlanded : request ∉ s.invocations) (apps : List Storage.Application) :
    ∃ s' out, s.processRequestOkResponse request req apps = .ok (s', out) ∧
      Owned s' (past ++ out) := by
  obtain ⟨ongoingRequests, hcommand, hremove⟩ := removeOngoing_ok h hreq hactive
  refine ⟨_, _, by rw [processRequestOkResponse, hremove], ?_⟩
  apply h.answer hreq hactive hcommand hlanded
  · intro other hne
    rw [QMap.getElem?_erase, if_neg hne]
  · intro req' hreq'
    rw [QMap.getElem?_erase, if_pos rfl] at hreq'
    cases hreq'
  · intro command
    rfl
  · intro command
    by_cases heq : req.command = command <;> simp [isReply, heq]

theorem requestFinishedError_owned (h : Owned s past)
    (hreq : s.requests[request]? = some req) (hlanded : request ∉ s.invocations)
    (details : Json) :
    ∃ s' out, s.requestFinishedError request details = .ok (s', out) ∧
      Owned s' (past ++ out) := by
  simp only [requestFinishedError, hreq]
  cases hactive : req.active with
  | true => exact processRequestErrorResponse_owned h hreq hactive hlanded
  | false => exact ⟨_, [], rfl, by simpa using h.delete hreq hactive hlanded⟩

theorem requestFinishedOk_owned (h : Owned s past) (hreq : s.requests[request]? = some req)
    (hlanded : request ∉ s.invocations) (headServerHost : String)
    (response : Option JsonObject) (details : Json) :
    ∃ s' out, s.requestFinishedOk request headServerHost response details = .ok (s', out) ∧
      Owned s' (past ++ out) := by
  simp only [requestFinishedOk, hreq]
  cases hactive : req.active with
  | true =>
      cases response with
      | none => exact processRequestErrorResponse_owned h hreq hactive hlanded
      | some json => exact processRequestOkResponse_owned h hreq hactive hlanded _
  | false => exact ⟨_, [], rfl, by simpa using h.delete hreq hactive hlanded⟩

theorem finishedError_owned (h : Owned s past) (request : Nat) (details : Json) :
    ∃ s' out, s.finishedError request details = .ok (s', out) ∧ Owned s' (past ++ out) := by
  unfold finishedError
  split
  · rename_i hflying
    obtain ⟨req, hreq⟩ := (QMap.mem_iff _ _).mp (h.flying request hflying)
    exact requestFinishedError_owned (h.landed request) hreq (h.landed_notMem request) details
  · exact ⟨s, [], rfl, by simpa using h⟩

theorem finishedOk_owned (h : Owned s past) (request : Nat) (headServerHost : String)
    (response : Option JsonObject) (details : Json) :
    ∃ s' out, s.finishedOk request headServerHost response details = .ok (s', out) ∧
      Owned s' (past ++ out) := by
  unfold finishedOk
  split
  · rename_i hflying
    obtain ⟨req, hreq⟩ := (QMap.mem_iff _ _).mp (h.flying request hflying)
    exact requestFinishedOk_owned (h.landed request) hreq (h.landed_notMem request) _ _ details
  · exact ⟨s, [], rfl, by simpa using h⟩

theorem noConnection_owned (h : Owned s past)
    (hnoConnection : s.noConnection request details = .ok (s', out)) :
    Owned s' (past ++ out) := by
  unfold noConnection at hnoConnection
  split at hnoConnection
  · rename_i hqueue
    cases hreq : s.requests[request]? with
    | none => simp [requestFinishedError, hreq] at hnoConnection
    | some req =>
        obtain ⟨_, _, hfinished, howned⟩ :=
          requestFinishedError_owned h hreq (h.queued_notMem hqueue) details
        cases hfinished.symm.trans hnoConnection
        exact howned
  · cases hnoConnection
    simpa using h

end Requests

section Failing

/-- The connection still has the request in its queue, and the request was deleted. -/
def Dangling (s : QuerySystem) (request : Nat) : Prop :=
  request ∈ s.requestQueue ∧ request ∉ s.requests

theorem executeRequest_error {fault : QueryFault} :
    s.executeRequest request = .error fault ↔ fault = .deletedRequest ∧ s.Dangling request := by
  rw [executeRequest, Dangling, QMap.notMem_iff]
  split
  · rename_i hqueue
    cases hreq : s.requests[request]? with
    | none => simp [hqueue, eq_comm]
    | some req => simp
  · rename_i hqueue
    simp [hqueue]

theorem noConnection_error (h : Owned s past) {fault : QueryFault} :
    s.noConnection request details = .error fault ↔
      fault = .deletedRequest ∧ s.Dangling request := by
  rw [noConnection, Dangling, QMap.notMem_iff]
  split
  · rename_i hqueue
    cases hreq : s.requests[request]? with
    | none => simp [requestFinishedError, hreq, hqueue, eq_comm]
    | some req =>
        obtain ⟨s', out, hfinished, -⟩ :=
          requestFinishedError_owned h hreq (h.queued_notMem hqueue) details
        simp [hfinished]
  · rename_i hqueue
    simp [hqueue]

end Failing

end GBerry.Comms.QuerySystem
