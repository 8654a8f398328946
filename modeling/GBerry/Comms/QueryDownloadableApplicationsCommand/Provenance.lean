import GBerry.Comms.QueryDownloadableApplicationsCommand

/-!
# Where the replies come from

A reply that lists applications repeats what the head server has listed for its
request, and all of it is in the cache from then on.
-/

namespace GBerry.Comms.QuerySystem

open GBerry.Common
open GBerry.Foundation

inductive Tells (s s' : QuerySystem) (out : List QuerySignal) (json : JsonObject) : Prop where
  | failure (details : Json) (hjson : json = failureReply details)
  | applications (request : Nat) (req : DownloadableApplicationsRequest)
      (apps : List Storage.Application) (hinvocation : request ∈ s.invocations)
      (hreq : s.requests[request]? = some req) (hlisted : .listed request apps ∈ out)
      (hcached : ∀ app ∈ apps, app.id ∈ s'.cache) (hjson : json = okReply req apps)

structure Traced (s s' : QuerySystem) (out : List QuerySignal) : Prop where
  requests : ∀ (request : Nat) (req' : DownloadableApplicationsRequest),
    s'.requests[request]? = some req' → ∃ req, s.requests[request]? = some req ∧
      req'.playerId = req.playerId ∧ req'.userToken = req.userToken
  invocations : ∀ request ∈ s'.invocations, request ∈ s.invocations ∨
    ∃ req, s.requests[request]? = some req ∧ .asked request req.parameter ∈ out
  cache : ∀ id ∈ s.cache, id ∈ s'.cache
  nextCommand : s'.nextCommand = s.nextCommand
  replies : ∀ command json, .reply command json ∈ out → Tells s s' out json

variable {s s' : QuerySystem} {out : List QuerySignal} {request command : Nat}
  {req : DownloadableApplicationsRequest} {details : Json}

section Cache

theorem mem_foldl_cacheApplication (apps : List Storage.Application)
    (cache : DownloadableApplicationCache) (id : String) :
    id ∈ apps.foldl DownloadableApplicationCache.cacheApplication cache ↔
      (∃ app ∈ apps, app.id = id) ∨ id ∈ cache := by
  induction apps generalizing cache with
  | nil => simp
  | cons app apps ih =>
      have hcached : id ∈ cache.cacheApplication app ↔ id = app.id ∨ id ∈ cache := by
        rw [DownloadableApplicationCache.cacheApplication, QMap.mem_insert_iff]
      rw [List.foldl_cons, ih, hcached, List.exists_mem_cons_iff]
      grind

end Cache

section Events

theorem Traced.refl (s : QuerySystem) : Traced s s [] where
  requests _ req' hreq' := ⟨req', hreq', rfl, rfl⟩
  invocations _ := .inl
  cache _ := id
  nextCommand := rfl
  replies _ _ hmem := by cases hmem

theorem Traced.delete (s : QuerySystem) (request : Nat) :
    Traced s { s with requests := s.requests.erase request } [] where
  requests other req' hreq' := by
    rw [QMap.getElem?_erase, Option.ite_none_left_eq_some] at hreq'
    exact ⟨req', hreq'.2, rfl, rfl⟩
  invocations _ := .inl
  cache _ := id
  nextCommand := rfl
  replies _ _ hmem := by cases hmem

theorem Traced.landed
    (h : Traced { s with invocations := s.invocations.erase request } s' out) :
    Traced s s' out where
  requests := h.requests
  invocations other hother := (h.invocations other hother).imp_left List.mem_of_mem_erase
  cache := h.cache
  nextCommand := h.nextCommand
  replies command json hmem := by
    cases h.replies command json hmem with
    | failure details hjson => exact .failure details hjson
    | applications other req apps hother hreq hlisted hcached hjson =>
        exact .applications other req apps (List.mem_of_mem_erase hother) hreq hlisted
          hcached hjson

theorem processRequestErrorResponse_traced (hreq : s.requests[request]? = some req)
    (h : s.processRequestErrorResponse request req details = .ok (s', out)) :
    Traced s s' out := by
  unfold processRequestErrorResponse removeOngoing at h
  split at h
  · cases h
  rename_i removed hremove
  split at hremove
  · cases hremove
  cases hremove
  cases h
  constructor
  case requests =>
    intro other req' hreq'
    rw [QMap.getElem?_insert] at hreq'
    split at hreq'
    · rename_i heq
      subst heq
      cases hreq'
      exact ⟨req, hreq, rfl, rfl⟩
    · exact ⟨req', hreq', rfl, rfl⟩
  case invocations => exact fun _ => .inl
  case cache => exact fun _ => id
  case nextCommand => rfl
  case replies =>
    intro command json hmem
    simp only [List.mem_singleton, QuerySignal.reply.injEq] at hmem
    exact .failure details hmem.2

theorem requestFinishedError_traced
    (h : s.requestFinishedError request details = .ok (s', out)) : Traced s s' out := by
  unfold requestFinishedError at h
  split at h
  · cases h
  rename_i req hreq
  split at h
  · exact processRequestErrorResponse_traced hreq h
  · cases h
    exact .delete s request

theorem processRequestOkResponse_cases {apps : List Storage.Application}
    (h : s.processRequestOkResponse request req apps = .ok (s', out)) :
    s'.requests = s.requests.erase request ∧ s'.invocations = s.invocations ∧
      s'.cache = apps.foldl DownloadableApplicationCache.cacheApplication s.cache ∧
      s'.nextCommand = s.nextCommand ∧
      out = [.listed request apps, .reply req.command (okReply req apps)] := by
  unfold processRequestOkResponse removeOngoing at h
  split at h
  · cases h
  rename_i removed hremove
  split at hremove
  · cases hremove
  cases hremove
  cases h
  exact ⟨rfl, rfl, rfl, rfl, rfl⟩

theorem finishedError_traced (h : s.finishedError request details = .ok (s', out)) :
    Traced s s' out := by
  unfold finishedError at h
  split at h
  · exact (requestFinishedError_traced h).landed
  · cases h
    exact .refl s

theorem noConnection_traced (h : s.noConnection request details = .ok (s', out)) :
    Traced s s' out := by
  unfold noConnection at h
  split at h
  · exact requestFinishedError_traced h
  · cases h
    exact .refl s

theorem executeRequest_traced (h : s.executeRequest request = .ok (s', out)) :
    Traced s s' out := by
  unfold executeRequest at h
  split at h
  · split at h
    · cases h
    · rename_i req hreq
      cases h
      constructor
      case requests => exact fun _ req' hreq' => ⟨req', hreq', rfl, rfl⟩
      case invocations =>
        intro other hother
        rcases List.mem_append.mp hother with hother | hother
        · exact .inl hother
        · rw [List.mem_singleton] at hother
          subst hother
          exact .inr ⟨req, hreq, by simp⟩
      case cache => exact fun _ => id
      case nextCommand => rfl
      case replies =>
        intro command json hmem
        simp at hmem
  · cases h
    exact .refl s

theorem finishedOk_traced {headServerHost : String} {response : Option JsonObject}
    (h : s.finishedOk request headServerHost response details = .ok (s', out)) :
    Traced s s' out := by
  unfold finishedOk at h
  split at h
  rotate_left
  · cases h
    exact .refl s
  rename_i hinvocation
  unfold requestFinishedOk at h
  split at h
  · cases h
  rename_i req hreq
  split at h
  · split at h
    · exact (processRequestErrorResponse_traced hreq h).landed
    · obtain ⟨hrequests, hinvocations, hcache, hnext, hout⟩ := processRequestOkResponse_cases h
      constructor
      case requests =>
        intro other req' hreq'
        rw [hrequests, QMap.getElem?_erase, Option.ite_none_left_eq_some] at hreq'
        exact ⟨req', hreq'.2, rfl, rfl⟩
      case invocations =>
        intro other hother
        rw [hinvocations] at hother
        exact .inl (List.mem_of_mem_erase hother)
      case cache =>
        intro id hid
        rw [hcache, mem_foldl_cacheApplication]
        exact .inr hid
      case nextCommand => exact hnext
      case replies =>
        intro command json hmem
        subst hout
        simp only [List.mem_cons, reduceCtorEq, QuerySignal.reply.injEq, List.not_mem_nil,
          or_false, false_or] at hmem
        refine .applications request req _ hinvocation hreq (by simp) ?_ hmem.2
        intro app happ
        rw [hcache, mem_foldl_cacheApplication]
        exact .inl ⟨app, happ, rfl⟩
  · cases h
    exact (Traced.delete _ request).landed

theorem cancel_traced (h : s.cancel request = .ok s') : Traced s s' [] := by
  unfold cancel at h
  split at h
  · cases h
  · rename_i req hreq
    cases h
    refine ⟨?_, fun _ => .inl, fun _ => id, rfl, fun _ _ hmem => by cases hmem⟩
    intro other req' hreq'
    rw [QMap.getElem?_insert] at hreq'
    split at hreq'
    · rename_i heq
      subst heq
      cases hreq'
      exact ⟨req, hreq, rfl, rfl⟩
    · exact ⟨req', hreq', rfl, rfl⟩

theorem Traced.trans {middle : QuerySystem} (hfirst : Traced s middle [])
    (hrest : Traced middle s' []) : Traced s s' [] where
  requests other req' hreq' := by
    obtain ⟨req, hreq, hplayer, htoken⟩ := hrest.requests other req' hreq'
    obtain ⟨first, hfirstReq, hplayer', htoken'⟩ := hfirst.requests other req hreq
    exact ⟨first, hfirstReq, hplayer.trans hplayer', htoken.trans htoken'⟩
  invocations other hother := by
    rcases hrest.invocations other hother with hother | ⟨_, _, hmem⟩
    · exact hfirst.invocations other hother
    · cases hmem
  cache id hid := hrest.cache id (hfirst.cache id hid)
  nextCommand := hrest.nextCommand.trans hfirst.nextCommand
  replies _ _ hmem := by cases hmem

theorem cancelAll_traced {remaining : List Nat} (h : s.cancelAll remaining = .ok s') :
    Traced s s' [] := by
  induction remaining generalizing s with
  | nil =>
      cases h
      exact .refl _
  | cons request rest ih =>
      unfold cancelAll at h
      split at h
      · cases h
      · rename_i middle hfirst
        exact (cancel_traced hfirst).trans (ih h)

theorem destroyCommand_traced (h : s.destroyCommand command = .ok s') : Traced s s' [] := by
  unfold destroyCommand at h
  split at h
  · cases h
    exact .refl _
  · have htraced := cancelAll_traced h
    exact ⟨htraced.requests, htraced.invocations, htraced.cache, htraced.nextCommand,
      fun _ _ hmem => by cases hmem⟩

end Events

end GBerry.Comms.QuerySystem
