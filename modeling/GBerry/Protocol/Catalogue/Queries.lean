import GBerry.Comms.QueryDownloadableApplicationsCommand.Ownership
import GBerry.Protocol.Catalogue

/-!
# The queries for games

Every query of an application has been answered, or is an ongoing request of its
command.  A step fails only on a request that the head server connection keeps in
its queue although it was deleted.
-/

namespace GBerry.Protocol.Catalogue

open GBerry.Comms
open GBerry.Common
open GBerry.Foundation
open QuerySystem (Owned isQuery isReply)

variable {s s' : Catalogue} {past out : List CatalogueSignal} {history : History}
  {command request : Nat}

section Signals

theorem onServer_append : onServer (past ++ out) = onServer past ++ onServer out :=
  List.filterMap_append

theorem onServer_server (signals : List QuerySignal) :
    onServer (signals.map .server) = signals := by
  rw [onServer, List.filterMap_map]
  exact List.filterMap_some

end Signals

theorem work_ok {result : QuerySystem.Result} (h : s.work result = .ok (s', out)) :
    ∃ server signals, result = .ok (server, signals) ∧ out = signals.map .server ∧
      s' = { s with server := server, peers := send s.peers signals } := by
  cases result with
  | error fault => cases h
  | ok made =>
      cases h
      exact ⟨made.1, made.2, rfl, rfl, rfl⟩

theorem work_error {result : QuerySystem.Result} {fault : QueryFault} :
    s.work result = .error fault ↔ result = .error fault := by
  cases result with
  | error other => simp [work]
  | ok made => simp [work]

section Steps

theorem work_owned {result : QuerySystem.Result} (h : s.work result = .ok (s', out))
    (hserver : ∀ server signals, result = .ok (server, signals) →
      Owned server (onServer past ++ signals)) :
    Owned s'.server (onServer (past ++ out)) := by
  obtain ⟨server, signals, hresult, rfl, rfl⟩ := work_ok h
  rw [onServer_append, onServer_server]
  exact hserver server signals hresult

theorem deliverToServer_owned (h : Owned s.server (onServer past)) (command : Nat) :
    Owned (s.deliverToServer command).1.server
      (onServer (past ++ (s.deliverToServer command).2)) := by
  unfold deliverToServer
  split
  · simpa using h
  · simpa using h
  · split
    · rw [onServer_append, onServer_server]
      exact QuerySystem.process_owned h s.playerSessions command _
    · simpa using h

theorem deliverToClient_server (s : Catalogue) (command : Nat) :
    (s.deliverToClient command).1.server = s.server ∧
      onServer (s.deliverToClient command).2 = [] := by
  unfold deliverToClient
  split
  · exact ⟨rfl, rfl⟩
  · exact ⟨rfl, rfl⟩
  · split
    · exact ⟨rfl, rfl⟩
    · exact ⟨rfl, rfl⟩

theorem step_owned (h : Owned s.server (onServer past)) {event : CatalogueEvent}
    (hstep : s.step event = .ok (s', out)) : Owned s'.server (onServer (past ++ out)) := by
  cases event with
  | guestArrives guestName sessionToken =>
      cases hstep
      rw [List.append_nil]
      exact h
  | playerSignsIn playerName sessionToken userToken =>
      cases hstep
      rw [onServer_append]
      simpa [onServer] using h
  | playerLeaves playerId =>
      cases hstep
      rw [List.append_nil]
      exact h
  | openControlChannel =>
      cases hstep
      rw [List.append_nil]
      exact h.createCommand
  | closeControlChannel command =>
      obtain ⟨server, hdestroy, howned⟩ := QuerySystem.destroyCommand_owned h command
      rw [step, closeControlChannel, hdestroy] at hstep
      cases hstep
      simpa using howned
  | activatePlayer command playerId =>
      cases hstep
      rw [List.append_nil]
      exact h
  | requestGames command =>
      cases hstep
      rw [List.append_nil]
      exact h
  | deliverToServer command =>
      have hdelivered : s.deliverToServer command = (s', out) := Except.ok.inj hstep
      have howned := deliverToServer_owned h command
      rw [hdelivered] at howned
      exact howned
  | deliverToClient command =>
      have hdelivered : s.deliverToClient command = (s', out) := Except.ok.inj hstep
      obtain ⟨hserver, hout⟩ := deliverToClient_server s command
      rw [hdelivered] at hserver hout
      rw [onServer_append, hserver, hout, List.append_nil]
      exact h
  | executeRequest request =>
      apply work_owned hstep
      intro server signals hresult
      exact QuerySystem.executeRequest_owned h hresult
  | noConnection request details =>
      apply work_owned hstep
      intro server signals hresult
      exact QuerySystem.noConnection_owned h hresult
  | finishedOk request headServerHost response details =>
      apply work_owned hstep
      intro server signals hresult
      obtain ⟨_, _, hfinished, howned⟩ :=
        QuerySystem.finishedOk_owned h request headServerHost response details
      cases hfinished.symm.trans hresult
      exact howned
  | finishedError request details =>
      apply work_owned hstep
      intro server signals hresult
      obtain ⟨_, _, hfinished, howned⟩ :=
        QuerySystem.finishedError_owned h request details
      cases hfinished.symm.trans hresult
      exact howned

theorem owned (h : Execution machine history s) : Owned s.server (onServer (outputs history)) := by
  refine h.invariant (I := fun past s => Owned s.server (onServer (outputs past))) ?_ ?_
  · exact QuerySystem.owned_start
  · intro past s event out s' _ howned hstep
    exact step_owned howned hstep

end Steps

section Failing

def Uses (request : Nat) : CatalogueEvent → Prop
  | .executeRequest other => other = request
  | .noConnection other _ => other = request
  | _ => False

theorem step_error (h : Owned s.server (onServer past)) {event : CatalogueEvent}
    {fault : QueryFault} :
    s.step event = .error fault ↔
      fault = .deletedRequest ∧ ∃ request, s.server.Dangling request ∧ Uses request event := by
  cases event with
  | closeControlChannel command =>
      obtain ⟨server, hdestroy, -⟩ := QuerySystem.destroyCommand_owned h command
      simp [step, closeControlChannel, hdestroy, Uses]
  | executeRequest request =>
      rw [step, work_error, QuerySystem.executeRequest_error]
      simp [Uses]
  | noConnection request details =>
      rw [step, work_error, QuerySystem.noConnection_error h]
      simp [Uses]
  | finishedOk request headServerHost response details =>
      obtain ⟨_, _, hfinished, -⟩ :=
        QuerySystem.finishedOk_owned h request headServerHost response details
      rw [step, work_error, hfinished]
      simp [Uses]
  | finishedError request details =>
      obtain ⟨_, _, hfinished, -⟩ :=
        QuerySystem.finishedError_owned h request details
      rw [step, work_error, hfinished]
      simp [Uses]
  | _ => simp [step, Uses]

end Failing

/--
A query of an open control channel has been answered once, or is still ongoing,
and nothing but a deleted request in the queue of the connection makes a step fail.
-/
theorem query_answered (h : Execution machine history s) :
    (∀ (command : Nat) (ongoingRequests : List Nat),
      s.server.commands[command]? = some ongoingRequests →
      (onServer (outputs history)).countP (isQuery command) =
        (onServer (outputs history)).countP (isReply command) + ongoingRequests.length) ∧
      ∀ event fault, s.step event = .error fault ↔
        fault = .deletedRequest ∧
          ∃ request, s.server.Dangling request ∧ Uses request event :=
  ⟨(owned h).balanced, fun _ _ => step_error (owned h)⟩

def failsTwice : List CatalogueEvent :=
  [.openControlChannel, .requestGames 0, .deliverToServer 0, .requestGames 0,
    .deliverToServer 0, .noConnection 0 .null, .noConnection 0 .null]

/-- After two failed pings the first request is deleted, and still in the queue. -/
theorem query_answered_failsTwice :
    ∃ history s, machine.run failsTwice = .ok (history, s) ∧
      (onServer (outputs history)).countP (isQuery 0) =
        (onServer (outputs history)).countP (isReply 0) + 1 ∧
      s.step (.executeRequest 0) = .error .deletedRequest := by
  have hrun : ∃ history s, machine.run failsTwice = .ok (history, s) ∧
      (decide (s.server.commands[0]? = some [1]) &&
        decide (s.server.requestQueue = [0, 1]) && decide (0 ∉ s.server.requests)) = true :=
    Machine.exists_run (by decide +kernel)
  obtain ⟨history, s, hrun, hcheck⟩ := hrun
  simp only [Bool.and_eq_true, decide_eq_true_eq] at hcheck
  obtain ⟨⟨hcommand, hqueue⟩, hdeleted⟩ := hcheck
  obtain ⟨hbalanced, hfails⟩ := query_answered (Machine.run_execution hrun)
  refine ⟨history, s, hrun, hbalanced 0 [1] hcommand, ?_⟩
  apply (hfails _ _).mpr
  exact ⟨rfl, 0, ⟨by rw [hqueue]; decide, hdeleted⟩, rfl⟩

end GBerry.Protocol.Catalogue
