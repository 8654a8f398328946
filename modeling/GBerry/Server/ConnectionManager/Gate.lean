import GBerry.Server.ChannelManager.Effect
import GBerry.Server.ConnectionManager

/-!
# The gate in front of the channel manager

A connection reaches the channel manager only after its gatekeeper accepted a
`PingReply`, and a connection that was discarded never does.  Both rest on the
map of gatekeepers: an entry is made when the connection is new, and the event
that settles the connection takes it out for good.
-/

namespace GBerry.Server

open GBerry.Common
open GBerry.Foundation
open ServerSideControlChannel (CHANNEL_ID)

namespace ConnectionManager

variable {β : Type} [QByteArray β] {s s' : ConnectionManager} {c : Int}

abbrev History (β : Type) :=
  List (Step ConnectionManager (ConnectionEvent β) (ConnectionSignal β))

def matchedApplication (s : ConnectionManager) (json : JsonObject) : String :=
  (s.applicationRegistry.matchCodeToApplication
    (JsonObject.value json "application_code").toString).1

/-- A `PingReply` reaches the gatekeeper of the connection while its timer runs. -/
def RepliesInTime (s : ConnectionManager) (c : Int) (json : JsonObject) :
    ConnectionEvent β → Prop
  | .incomingMessage connectionId _ msg =>
      (connectionId : Int) = c ∧
        (∃ gatekeeper, s.gatekeepers[c]? = some gatekeeper ∧ gatekeeper.timerActive) ∧
        QByteArray.fromJson msg = some json ∧ JsonObject.isCommand json "PingReply"
  | _ => False

/-- The reply has no code, or a code that matches an application. -/
def Accepts (s : ConnectionManager) (c : Int) (event : ConnectionEvent β) : Prop :=
  ∃ json, s.RepliesInTime c json event ∧
    (JsonObject.contains json "application_code" → s.matchedApplication json ≠ "")

def TimesOut (s : ConnectionManager) (c : Int) : ConnectionEvent β → Prop
  | .waitTimeout connectionId =>
      (connectionId : Int) = c ∧
        ∃ gatekeeper, s.gatekeepers[c]? = some gatekeeper ∧ gatekeeper.timerActive
  | _ => False

/-- The reply has an unknown code, or there was none in time. -/
def Discards (s : ConnectionManager) (c : Int) (event : ConnectionEvent β) : Prop :=
  s.TimesOut c event ∨ ∃ json, s.RepliesInTime c json event ∧
    JsonObject.contains json "application_code" ∧ s.matchedApplication json = ""

/-- A message of the connection is handed to a control or player channel. -/
def HandsOver (s : ConnectionManager) (c : Int) : ConnectionEvent β → Prop
  | .incomingMessage connectionId channelId msg =>
      (connectionId : Int) = c ∧ c ∉ s.gatekeepers ∧
        ¬ s.channelManager.Ignores (.processMessageFromSouth connectionId channelId msg)
  | _ => False

def AcceptedIn (c : Int) (history : History β) : Prop :=
  ∃ st ∈ history, st.pre.Accepts c st.label

def DiscardedIn (c : Int) (history : History β) : Prop :=
  ∃ st ∈ history, st.pre.Discards c st.label

def connectedId : ConnectionEvent β → Option Int
  | .applicationConnected connectionId => some connectionId
  | _ => none

def connectedIds (history : History β) : List Int :=
  history.filterMap fun st => connectedId st.label

structure Gated (history : History β) (s : ConnectionManager) : Prop where
  registered : ∀ c ∈ s.channelManager.controlChannels, AcceptedIn c history
  active : s.channelManager.activeConnectionId ≠ -1 →
    AcceptedIn s.channelManager.activeConnectionId history
  handed : ∀ newer st older, history = newer ++ st :: older →
    ∀ c, st.pre.HandsOver c st.label → AcceptedIn c older
  discarded : ∀ c, DiscardedIn c history →
    c ∉ s.channelManager.controlChannels ∧ s.channelManager.activeConnectionId ≠ c
  discarded_handed : ∀ newer st older, history = newer ++ st :: older →
    ∀ c, DiscardedIn c older → ¬ st.pre.HandsOver c st.label
  socket_open : ∀ st ∈ history, ∀ c, st.pre.Discards c st.label →
    st.post.tcpServer.sockets = st.pre.tcpServer.sockets

section Operations

structure Narrows (s s' : ConnectionManager) : Prop where
  valid : s.channelManager.Valid → s'.channelManager.Valid
  registered : s.channelManager.Valid → ∀ c ∈ s'.channelManager.controlChannels,
    c ∈ s.channelManager.controlChannels
  gatekeepers_eq : s'.gatekeepers = s.gatekeepers
  sockets_eq : s'.tcpServer.sockets = s.tcpServer.sockets

theorem Narrows.refl (s : ConnectionManager) : Narrows s s :=
  ⟨id, fun _ _ hc => hc, rfl, rfl⟩

theorem Narrows.trans {s₁ s₂ s₃ : ConnectionManager} (h : Narrows s₁ s₂)
    (h' : Narrows s₂ s₃) : Narrows s₁ s₃ where
  valid hm := h'.valid (h.valid hm)
  registered hm c hc := h.registered hm c (h'.registered (h.valid hm) c hc)
  gatekeepers_eq := h'.gatekeepers_eq.trans h.gatekeepers_eq
  sockets_eq := h'.sockets_eq.trans h.sockets_eq

omit [QByteArray β] in
theorem withChannels_ok
    {answer : Except Fault (ServerChannelManager × List (Signal β))}
    {out : List (ConnectionSignal β)} (h : s.withChannels answer = .ok (s', out)) :
    ∃ m signals, answer = .ok (m, signals) ∧ s' = { s with channelManager := m } := by
  cases answer with
  | error fault => cases h
  | ok answer =>
      simp only [withChannels, Except.ok.injEq, Prod.mk.injEq] at h
      exact ⟨answer.1, answer.2, rfl, h.1.symm⟩

theorem Effect.controlChannels_subset {m m' : ServerChannelManager}
    {op : ServerOp β} {out : List (Signal β)}
    (h : ServerChannelManager.Effect m op m' out)
    (hop : ∀ connectionId commands, op ≠ .openControlChannel connectionId commands) :
    ∀ c ∈ m'.controlChannels, c ∈ m.controlChannels := by
  intro c hc
  rcases h.mem_controlChannels hc with hold | ⟨connectionId, commands, heq, -⟩
  · exact hold
  · exact absurd heq (hop connectionId commands)

theorem withChannels_step_narrows (op : ServerOp β)
    {out : List (ConnectionSignal β)}
    (hop : ∀ connectionId commands, op ≠ .openControlChannel connectionId commands)
    (h : s.withChannels (s.channelManager.step op) = .ok (s', out)) :
    Narrows s s' := by
  obtain ⟨m, signals, hstep, rfl⟩ := withChannels_ok h
  constructor
  · intro hm
    exact hm.step hstep
  · intro hm
    exact Effect.controlChannels_subset (hm.effect hstep) hop
  · rfl
  · rfl

theorem forgetApplication_narrows {connectionId : Nat}
    {out : List (ConnectionSignal β)}
    (h : s.forgetApplication connectionId = .ok (s', out)) : Narrows s s' := by
  unfold forgetApplication at h
  split at h
  · cases h
  · rename_i s₁ signals hclosed
    cases h
    have hnarrows : Narrows s s₁ :=
      withChannels_step_narrows (.applicationClosed connectionId) (by simp) hclosed
    exact hnarrows.trans ⟨id, fun _ _ hc => hc, rfl, rfl⟩

theorem closeConnection_narrows {connectionId : Nat}
    {out : List (ConnectionSignal β)}
    (h : s.closeConnection connectionId = .ok (s', out)) : Narrows s s' := by
  unfold closeConnection at h
  split at h
  · have hforgets := forgetApplication_narrows h
    refine Narrows.trans ?_ hforgets
    exact ⟨id, fun _ _ hc => hc, rfl, rfl⟩
  · cases h
    exact .refl s

theorem applicationDisconnected_narrows {connectionId : Nat}
    {out : List (ConnectionSignal β)}
    (h : s.applicationDisconnected connectionId = .ok (s', out)) : Narrows s s' := by
  unfold applicationDisconnected at h
  split at h
  · cases h
  · rename_i hclosed
    split at h
    · cases h
    · rename_i hforgotten
      cases h
      exact (closeConnection_narrows hclosed).trans (forgetApplication_narrows hforgotten)

end Operations

section Verdicts

variable {gatekeeper : ConnectionGateKeeper} {registry : ApplicationRegistry}
  {msg : β} {json : JsonObject}

theorem verdict_waiting (h : ¬ (gatekeeper.timerActive = true ∧
    ∃ json, QByteArray.fromJson msg = some json ∧
      JsonObject.isCommand json "PingReply")) :
    (gatekeeper.incomingMessage registry msg).1 = .waiting := by
  unfold ConnectionGateKeeper.incomingMessage
  cases hjson : QByteArray.fromJson msg with
  | none => rfl
  | some json =>
      simp only [hjson, Option.some.injEq, exists_eq_left', not_and] at h
      simp only
      split
      · rename_i htimer
        have hcommand := h htimer
        rw [if_neg hcommand]
      · rfl

theorem verdict_reply (htimer : gatekeeper.timerActive = true)
    (hjson : QByteArray.fromJson msg = some json)
    (hcommand : JsonObject.isCommand json "PingReply" = true) :
    (gatekeeper.incomingMessage registry msg).1 =
      if JsonObject.contains json "application_code" then
        if (registry.matchCodeToApplication
            (JsonObject.value json "application_code").toString).1 = "" then .discarded
        else .validated (registry.matchCodeToApplication
          (JsonObject.value json "application_code").toString).1
      else .validated "" := by
  simp only [ConnectionGateKeeper.incomingMessage, hjson, htimer, hcommand, if_true]
  split
  · split <;> rfl
  · rfl

end Verdicts

section Steps

variable {event : ConnectionEvent β} {out : List (ConnectionSignal β)}
  {factory : Int → List ICommand}

structure Settles (s s' : ConnectionManager) (event : ConnectionEvent β) : Prop where
  valid : s.channelManager.Valid → s'.channelManager.Valid
  registered : s.channelManager.Valid → ∀ c ∈ s'.channelManager.controlChannels,
    c ∈ s.channelManager.controlChannels ∨ s.Accepts c event
  guarded : ∀ c ∈ s'.gatekeepers, c ∈ s.gatekeepers ∨ connectedId event = some c
  settled : ∀ c, s.Accepts c event ∨ s.Discards c event → c ∉ s'.gatekeepers
  socket_open : ∀ c, s.Discards c event → s'.tcpServer.sockets = s.tcpServer.sockets

theorem Narrows.settles (h : Narrows s s') (haccepts : ∀ c, ¬ s.Accepts c event)
    (hdiscards : ∀ c, ¬ s.Discards c event) : Settles s s' event where
  valid := h.valid
  registered hm c hc := .inl (h.registered hm c hc)
  guarded _ hc := .inl (h.gatekeepers_eq ▸ hc)
  settled c hsettles := hsettles.elim (fun h => (haccepts c h).elim)
    (fun h => (hdiscards c h).elim)
  socket_open c h := (hdiscards c h).elim

theorem not_accepts (hevent : ∀ connectionId channelId msg,
    event ≠ .incomingMessage connectionId channelId msg) : ¬ s.Accepts c event := by
  rintro ⟨json, hreplies, -⟩
  cases event with
  | incomingMessage connectionId channelId msg => exact hevent _ _ _ rfl
  | _ => exact hreplies

theorem not_discards (hevent : ∀ connectionId channelId msg,
    event ≠ .incomingMessage connectionId channelId msg)
    (htimeout : ∀ connectionId, event ≠ .waitTimeout connectionId) :
    ¬ s.Discards c event := by
  rintro (htimes | ⟨json, hreplies, -⟩)
  · cases event with
    | waitTimeout connectionId => exact htimeout _ rfl
    | _ => exact htimes
  · cases event with
    | incomingMessage connectionId channelId msg => exact hevent _ _ _ rfl
    | _ => exact hreplies

theorem onConnectionValidationFailed_settles {connectionId : Nat}
    (registry : ApplicationRegistry)
    (hfailed : { s with applicationRegistry := registry }.onConnectionValidationFailed
      connectionId = .ok (s', out))
    (haccepts : ∀ c, ¬ s.Accepts c event)
    (hdiscards : ∀ c, s.Discards c event → (connectionId : Int) = c) :
    Settles s s' event := by
  have hnarrows := closeConnection_narrows hfailed
  have hguards := hnarrows.gatekeepers_eq
  constructor
  · exact hnarrows.valid
  · intro hm c hc
    exact .inl (hnarrows.registered hm c hc)
  · intro c hc
    rw [hguards] at hc
    exact .inl ((QMap.mem_erase_iff _ _ _).mp hc).2
  · rintro c (h | h) hc
    · exact haccepts c h
    · rw [hguards] at hc
      exact ((QMap.mem_erase_iff _ _ _).mp hc).1 (hdiscards c h).symm
  · exact fun _ _ => hnarrows.sockets_eq

theorem onConnectionValidationOK_settles {connectionId : Nat} {appId : String}
    (registry : ApplicationRegistry)
    (hok : { s with applicationRegistry := registry }.onConnectionValidationOK factory
      connectionId appId = .ok (s', out))
    (haccepts : s.Accepts connectionId event)
    (hother : ∀ c, s.Accepts c event → (connectionId : Int) = c)
    (hdiscards : ∀ c, ¬ s.Discards c event) : Settles s s' event := by
  unfold onConnectionValidationOK at hok
  simp only at hok
  split at hok
  · cases hok
  · rename_i hactivated
    cases hok
    obtain ⟨m, signals, hactivate, rfl⟩ := withChannels_ok hactivated
    have hstep : (s.channelManager.openControlChannel connectionId
        (factory connectionId)).step (.activateConnection connectionId) =
          .ok (m, signals) := hactivate
    have hopened (hm : s.channelManager.Valid) :=
      hm.openControlChannel connectionId (factory connectionId)
    constructor
    · exact fun hm => (hopened hm).step hstep
    · intro hm c hc
      have heffect := (hopened hm).effect hstep
      have hold := Effect.controlChannels_subset heffect (by simp) c hc
      rcases (QMap.mem_insert_iff _ _ _ _).mp hold with rfl | hold
      · exact .inr haccepts
      · exact .inl hold
    · intro c hc
      exact .inl ((QMap.mem_erase_iff _ _ _).mp hc).2
    · rintro c (h | h) hc
      · exact ((QMap.mem_erase_iff _ _ _).mp hc).1 (hother c h).symm
      · exact hdiscards c h
    · intro c h
      exact (hdiscards c h).elim

section IncomingMessages

variable {connectionId : Nat} {channelId : Int} {msg : β}

theorem forwarded_settles (hguard : s.gatekeepers[(connectionId : Int)]? = none)
    (h : s.withChannels (s.channelManager.step
      (.processMessageFromSouth connectionId channelId msg)) = .ok (s', out)) :
    Settles s s' (.incomingMessage connectionId channelId msg) := by
  have hnarrows : Narrows s s' := withChannels_step_narrows
    (.processMessageFromSouth connectionId channelId msg) (by simp) h
  have hnever (c : Int) (json : JsonObject) : ¬ s.RepliesInTime c json
      (.incomingMessage connectionId channelId msg) := by
    rintro ⟨rfl, ⟨gatekeeper, hsome, -⟩, -⟩
    rw [hguard] at hsome
    cases hsome
  apply hnarrows.settles
  · rintro c ⟨json, hreplies, -⟩
    exact hnever c json hreplies
  · rintro c (hfalse | ⟨json, hreplies, -⟩)
    · exact hfalse
    · exact hnever c json hreplies

theorem waiting_settles {gatekeeper : ConnectionGateKeeper}
    (hguard : s.gatekeepers[(connectionId : Int)]? = some gatekeeper)
    (hreply : ¬ (gatekeeper.timerActive = true ∧
      ∃ json, QByteArray.fromJson msg = some json ∧
        JsonObject.isCommand json "PingReply")) (registry : ApplicationRegistry) :
    Settles s { s with applicationRegistry := registry }
      (.incomingMessage connectionId channelId msg) := by
  have hnever (c : Int) (json : JsonObject) : ¬ s.RepliesInTime c json
      (.incomingMessage connectionId channelId msg) := by
    rintro ⟨rfl, ⟨gatekeeper', hsome, htimer⟩, hjson, hcommand⟩
    rw [hguard] at hsome
    cases hsome
    exact hreply ⟨htimer, json, hjson, hcommand⟩
  have hnarrows : Narrows s { s with applicationRegistry := registry } :=
    ⟨id, fun _ _ hc => hc, rfl, rfl⟩
  apply hnarrows.settles
  · rintro c ⟨json, hreplies, -⟩
    exact hnever c json hreplies
  · rintro c (hfalse | ⟨json, hreplies, -⟩)
    · exact hfalse
    · exact hnever c json hreplies

section Replies

variable {json : JsonObject} (registry : ApplicationRegistry)
  (hreplies : s.RepliesInTime connectionId json
    (.incomingMessage connectionId channelId msg))

include hreplies

theorem reply_unique {c : Int} {json' : JsonObject}
    (h : s.RepliesInTime c json' (.incomingMessage connectionId channelId msg)) :
    (connectionId : Int) = c ∧ json' = json := by
  have hjson := hreplies.2.2.1
  rw [h.2.2.1, Option.some.injEq] at hjson
  exact ⟨h.1, hjson⟩

theorem accepted_settles {appId : String}
    (hmatch : JsonObject.contains json "application_code" →
      s.matchedApplication json ≠ "")
    (hok : { s with applicationRegistry := registry }.onConnectionValidationOK factory
      connectionId appId = .ok (s', out)) :
    Settles s s' (.incomingMessage connectionId channelId msg) := by
  apply onConnectionValidationOK_settles registry hok ⟨json, hreplies, hmatch⟩
  · rintro c ⟨json', hreplies', -⟩
    exact (reply_unique hreplies hreplies').1
  · rintro c (hfalse | ⟨json', hreplies', hcode, hunknown⟩)
    · exact hfalse
    · rw [(reply_unique hreplies hreplies').2] at hcode hunknown
      exact hmatch hcode hunknown

theorem discarded_settles
    (hcode : JsonObject.contains json "application_code" = true)
    (hunknown : s.matchedApplication json = "")
    (hfailed : { s with applicationRegistry := registry }.onConnectionValidationFailed
      connectionId = .ok (s', out)) :
    Settles s s' (.incomingMessage connectionId channelId msg) := by
  apply onConnectionValidationFailed_settles registry hfailed
  · rintro c ⟨json', hreplies', hmatch⟩
    rw [(reply_unique hreplies hreplies').2] at hmatch
    exact hmatch hcode hunknown
  · rintro c (hfalse | ⟨json', hreplies', -⟩)
    · exact hfalse.elim
    · exact (reply_unique hreplies hreplies').1

end Replies

theorem incomingMessage_settles
    (h : s.incomingMessage factory connectionId channelId msg = .ok (s', out)) :
    Settles s s' (.incomingMessage connectionId channelId msg) := by
  unfold incomingMessage at h
  cases hguard : s.gatekeepers[(connectionId : Int)]? with
  | none =>
      rw [hguard] at h
      exact forwarded_settles hguard h
  | some gatekeeper =>
      cases hanswer : gatekeeper.incomingMessage s.applicationRegistry msg with
      | mk verdict registry =>
      simp only [hguard, hanswer] at h
      have hverdict : (gatekeeper.incomingMessage s.applicationRegistry msg).1 =
          verdict := by rw [hanswer]
      by_cases hreply : gatekeeper.timerActive = true ∧
          ∃ json, QByteArray.fromJson msg = some json ∧
            JsonObject.isCommand json "PingReply"
      · obtain ⟨htimer, json, hjson, hcommand⟩ := hreply
        have hreplies : s.RepliesInTime connectionId json
            (.incomingMessage connectionId channelId msg) :=
          ⟨rfl, ⟨gatekeeper, hguard, htimer⟩, hjson, hcommand⟩
        rw [verdict_reply htimer hjson hcommand] at hverdict
        split at hverdict
        · rename_i hcode
          split at hverdict
          · rename_i hunknown
            subst hverdict
            exact discarded_settles registry hreplies hcode hunknown h
          · rename_i hknown
            subst hverdict
            exact accepted_settles registry hreplies (fun _ => hknown) h
        · rename_i hcode
          subst hverdict
          exact accepted_settles registry hreplies (fun hcontains => absurd hcontains hcode) h
      · rw [verdict_waiting hreply] at hverdict
        subst hverdict
        cases h
        exact waiting_settles hguard hreply registry

end IncomingMessages

theorem waitTimeout_settles {connectionId : Nat}
    (h : s.waitTimeout connectionId = .ok (s', out)) :
    Settles s s' (.waitTimeout connectionId : ConnectionEvent β) := by
  have haccepts (c : Int) : ¬ s.Accepts c (.waitTimeout connectionId :
      ConnectionEvent β) := not_accepts (by simp)
  have hidle (hnot : ¬ ∃ gatekeeper,
      s.gatekeepers[(connectionId : Int)]? = some gatekeeper ∧ gatekeeper.timerActive) :
      Settles s s (.waitTimeout connectionId : ConnectionEvent β) := by
    refine (Narrows.refl s).settles haccepts ?_
    rintro c (⟨rfl, htimes⟩ | ⟨json, hfalse, -⟩)
    · exact hnot htimes
    · exact hfalse
  unfold waitTimeout at h
  cases hguard : s.gatekeepers[(connectionId : Int)]? with
  | none =>
      rw [hguard] at h
      cases h
      exact hidle (by simp [hguard])
  | some gatekeeper =>
      simp only [hguard] at h
      split at h
      · refine onConnectionValidationFailed_settles s.applicationRegistry h haccepts ?_
        rintro c (⟨rfl, -⟩ | ⟨json, hfalse, -⟩)
        · rfl
        · exact hfalse.elim
      · rename_i htimer
        cases h
        exact hidle (by simp [hguard, htimer])

theorem socketDisconnect_narrows_channels {connectionId : Nat}
    (h : s.socketDisconnect connectionId = .ok (s', out)) :
    (s.channelManager.Valid → s'.channelManager.Valid) ∧
      (s.channelManager.Valid → ∀ c ∈ s'.channelManager.controlChannels,
        c ∈ s.channelManager.controlChannels) ∧ s'.gatekeepers = s.gatekeepers := by
  unfold socketDisconnect at h
  split at h
  · split at h
    · cases h
    · rename_i hclosed
      cases h
      have hnarrows := closeConnection_narrows hclosed
      exact ⟨hnarrows.valid, hnarrows.registered, hnarrows.gatekeepers_eq⟩
  · cases h
    exact ⟨id, fun _ _ hc => hc, rfl⟩

theorem step_settles (h : s.step factory event = .ok (s', out)) :
    Settles s s' event := by
  cases event with
  | applicationConnected connectionId =>
      cases h
      constructor
      · exact id
      · exact fun _ c hc => .inl hc
      · intro c hc
        rcases (QMap.mem_insert_iff _ _ _ _).mp hc with rfl | hold
        · exact .inr rfl
        · exact .inl hold
      · rintro c (h | h)
        · exact (not_accepts (by simp) h).elim
        · exact (not_discards (by simp) (by simp) h).elim
      · intro c h
        exact (not_discards (by simp) (by simp) h).elim
  | applicationDisconnected connectionId =>
      exact (applicationDisconnected_narrows h).settles
        (fun _ => not_accepts (by simp)) (fun _ => not_discards (by simp) (by simp))
  | incomingMessage connectionId channelId msg => exact incomingMessage_settles h
  | waitTimeout connectionId => exact waitTimeout_settles h
  | socketDisconnect connectionId =>
      have hchannels := socketDisconnect_narrows_channels h
      constructor
      · exact hchannels.1
      · exact fun hm c hc => .inl (hchannels.2.1 hm c hc)
      · exact fun c hc => .inl (hchannels.2.2 ▸ hc)
      · rintro c (h | h)
        · exact (not_accepts (by simp) h).elim
        · exact (not_discards (by simp) (by simp) h).elim
      · intro c h
        exact (not_discards (by simp) (by simp) h).elim
  | channelOperation op =>
      have hop : ∀ connectionId commands,
          op.1 ≠ .openControlChannel connectionId commands := by
        intro connectionId commands heq
        have hspontaneous := op.2
        rw [heq] at hspontaneous
        cases hspontaneous
      exact (withChannels_step_narrows op.1 hop h).settles
        (fun _ => not_accepts (by simp)) (fun _ => not_discards (by simp) (by simp))
  | insertFixedIdentificationCode appId code =>
      cases h
      have hnarrows : Narrows s { s with applicationRegistry :=
          s.applicationRegistry.insertFixedIdentificationCode appId code } :=
        ⟨id, fun _ _ hc => hc, rfl, rfl⟩
      exact hnarrows.settles
        (fun _ => not_accepts (by simp)) (fun _ => not_discards (by simp) (by simp))
  | createIdentificationCode appId elapsed =>
      cases h
      have hnarrows : Narrows s { s with applicationRegistry :=
          (s.applicationRegistry.createIdentificationCode appId elapsed).1 } :=
        ⟨id, fun _ _ hc => hc, rfl, rfl⟩
      exact hnarrows.settles
        (fun _ => not_accepts (by simp)) (fun _ => not_discards (by simp) (by simp))

end Steps

section Runs

variable {history : History β} {factory : Int → List ICommand}

theorem guarded_of_accepts {event : ConnectionEvent β} (h : s.Accepts c event) :
    c ∈ s.gatekeepers := by
  obtain ⟨json, hreplies, -⟩ := h
  cases event with
  | incomingMessage connectionId channelId msg =>
      obtain ⟨-, ⟨gatekeeper, hguard, -⟩, -⟩ := hreplies
      exact QMap.mem_of_getElem? hguard
  | _ => exact hreplies.elim

theorem guarded_of_discards {event : ConnectionEvent β} (h : s.Discards c event) :
    c ∈ s.gatekeepers := by
  rcases h with htimes | ⟨json, hreplies, -⟩
  · cases event with
    | waitTimeout connectionId =>
        obtain ⟨-, gatekeeper, hguard, -⟩ := htimes
        exact QMap.mem_of_getElem? hguard
    | _ => exact htimes.elim
  · cases event with
    | incomingMessage connectionId channelId msg =>
        obtain ⟨-, ⟨gatekeeper, hguard, -⟩, -⟩ := hreplies
        exact QMap.mem_of_getElem? hguard
    | _ => exact hreplies.elim

theorem not_discards_of_accepts {event : ConnectionEvent β} (h : s.Accepts c event) :
    ¬ s.Discards c event := by
  obtain ⟨json, hreplies, hmatch⟩ := h
  rintro (htimes | ⟨json', hreplies', hcode, hunknown⟩)
  · cases event with
    | incomingMessage connectionId channelId msg => exact htimes
    | _ => exact hreplies
  · cases event with
    | incomingMessage connectionId channelId msg =>
        have hjson := hreplies.2.2.1
        rw [hreplies'.2.2.1] at hjson
        cases hjson
        exact hmatch hcode hunknown
    | _ => exact hreplies

theorem ne_neg_one_of_discards {event : ConnectionEvent β} (h : s.Discards c event) :
    c ≠ -1 := by
  rcases h with htimes | ⟨json, hreplies, -⟩
  · cases event with
    | waitTimeout connectionId =>
        have hid := htimes.1
        omega
    | _ => exact htimes.elim
  · cases event with
    | incomingMessage connectionId channelId msg =>
        have hid := hreplies.1
        omega
    | _ => exact hreplies.elim

/-- A gatekeeper leaves the map for good when its connection is settled. -/
structure GateInvariant (history : History β) (s : ConnectionManager) : Prop where
  valid : s.channelManager.Valid
  registered : ∀ c ∈ s.channelManager.controlChannels, AcceptedIn c history
  guarded : ∀ c ∈ s.gatekeepers, c ∈ connectedIds history
  settled : ∀ c, AcceptedIn c history ∨ DiscardedIn c history →
    c ∉ s.gatekeepers ∧ c ∈ connectedIds history
  exclusive : ∀ c, AcceptedIn c history → ¬ DiscardedIn c history

theorem acceptedIn_cons
    {st : Step ConnectionManager (ConnectionEvent β) (ConnectionSignal β)} :
    AcceptedIn c (st :: history) ↔
      st.pre.Accepts c st.label ∨ AcceptedIn c history := by
  simp [AcceptedIn]

theorem discardedIn_cons
    {st : Step ConnectionManager (ConnectionEvent β) (ConnectionSignal β)} :
    DiscardedIn c (st :: history) ↔
      st.pre.Discards c st.label ∨ DiscardedIn c history := by
  simp [DiscardedIn]

omit [QByteArray β] in
theorem connectedIds_cons {c : Int}
    {st : Step ConnectionManager (ConnectionEvent β) (ConnectionSignal β)}
    (h : connectedId st.label = some c ∨ c ∈ connectedIds history) :
    c ∈ connectedIds (st :: history) := by
  rcases h with hnow | hthen
  · exact List.mem_filterMap.mpr ⟨st, List.mem_cons_self, hnow⟩
  · obtain ⟨st', hst', hid⟩ := List.mem_filterMap.mp hthen
    exact List.mem_filterMap.mpr ⟨st', List.mem_cons_of_mem _ hst', hid⟩

theorem GateInvariant.step {event : ConnectionEvent β}
    {out : List (ConnectionSignal β)} (h : GateInvariant history s)
    (hfresh : (connectedIds (⟨s, event, out, s'⟩ :: history)).Nodup)
    (hsettles : Settles s s' event) :
    GateInvariant (⟨s, event, out, s'⟩ :: history) s' := by
  have hnew (c : Int) (hid : connectedId event = some c) : c ∉ connectedIds history := by
    have hcons : connectedIds (⟨s, event, out, s'⟩ :: history) =
        c :: connectedIds history := List.filterMap_cons_some hid
    rw [hcons] at hfresh
    exact (List.nodup_cons.mp hfresh).1
  have hgone (c : Int) (hold : c ∉ s.gatekeepers) (hconnected : c ∈ connectedIds history) :
      c ∉ s'.gatekeepers := by
    intro hc
    rcases hsettles.guarded c hc with hc | hid
    · exact hold hc
    · exact hnew c hid hconnected
  constructor
  · exact hsettles.valid h.valid
  · intro c hc
    rcases hsettles.registered h.valid c hc with hold | haccepts
    · obtain ⟨st, hst, haccepts⟩ := h.registered c hold
      exact ⟨st, List.mem_cons_of_mem _ hst, haccepts⟩
    · exact ⟨_, List.mem_cons_self, haccepts⟩
  · intro c hc
    apply connectedIds_cons
    rcases hsettles.guarded c hc with hold | hid
    · exact .inr (h.guarded c hold)
    · exact .inl hid
  · intro c hsettled
    have hnow (hc : s.Accepts c event ∨ s.Discards c event) :
        c ∉ s'.gatekeepers ∧ c ∈ connectedIds (⟨s, event, out, s'⟩ :: history) := by
      refine ⟨hsettles.settled c hc, connectedIds_cons (.inr (h.guarded c ?_))⟩
      exact hc.elim guarded_of_accepts guarded_of_discards
    have hbefore (hc : AcceptedIn c history ∨ DiscardedIn c history) :
        c ∉ s'.gatekeepers ∧ c ∈ connectedIds (⟨s, event, out, s'⟩ :: history) := by
      obtain ⟨hold, hconnected⟩ := h.settled c hc
      exact ⟨hgone c hold hconnected, connectedIds_cons (.inr hconnected)⟩
    rcases hsettled with haccepted | hdiscarded
    · rcases acceptedIn_cons.mp haccepted with haccepts | haccepted
      · exact hnow (.inl haccepts)
      · exact hbefore (.inl haccepted)
    · rcases discardedIn_cons.mp hdiscarded with hdiscards | hdiscarded
      · exact hnow (.inr hdiscards)
      · exact hbefore (.inr hdiscarded)
  · intro c haccepted hdiscarded
    rcases acceptedIn_cons.mp haccepted with haccepts | haccepted
    · rcases discardedIn_cons.mp hdiscarded with hdiscards | hdiscarded
      · exact not_discards_of_accepts haccepts hdiscards
      · exact (h.settled c (.inr hdiscarded)).1 (guarded_of_accepts haccepts)
    · rcases discardedIn_cons.mp hdiscarded with hdiscards | hdiscarded
      · exact (h.settled c (.inl haccepted)).1 (guarded_of_discards hdiscards)
      · exact h.exclusive c haccepted hdiscarded

theorem gateInvariant_of_execution (h : Execution (machine β factory) history s)
    (hfresh : (connectedIds history).Nodup) : GateInvariant history s := by
  refine h.invariant (I := fun history s =>
    (connectedIds history).Nodup → GateInvariant history s) ?_ ?_ hfresh
  · intro _
    constructor
    · exact ServerChannelManager.valid_start
    · simp [machine, start, ServerChannelManager.start]
    · simp [machine, start]
    · rintro c (⟨st, hst, -⟩ | ⟨st, hst, -⟩) <;> cases hst
    · rintro c ⟨st, hst, -⟩
      cases hst
  · intro history s s' event out _ ih hstep hfresh
    have hsub : (connectedIds history).Sublist
        (connectedIds (⟨s, event, out, s'⟩ :: history)) :=
      (List.sublist_cons_self _ _).filterMap _
    exact (ih (hfresh.sublist hsub)).step hfresh (step_settles hstep)

omit [QByteArray β] in
theorem registered_of_handsOver {event : ConnectionEvent β}
    (hm : s.channelManager.Valid) (h : s.HandsOver c event) :
    c ∈ s.channelManager.controlChannels := by
  cases event with
  | incomingMessage connectionId channelId msg =>
      obtain ⟨rfl, -, hhandled⟩ := h
      simp only [ServerChannelManager.Ignores] at hhandled
      split at hhandled
      · exact not_not.mp hhandled
      · rw [not_or, not_not] at hhandled
        rw [← hhandled.1]
        exact hm.active_registered (by omega)
  | _ => exact h.elim

theorem gated_of_execution (h : Execution (machine β factory) history s)
    (hfresh : (connectedIds history).Nodup) : Gated history s := by
  have hinv := gateInvariant_of_execution h hfresh
  have hearlier {newer older : History β}
      {st : Step ConnectionManager (ConnectionEvent β) (ConnectionSignal β)}
      (hsplit : history = newer ++ st :: older) : GateInvariant older st.pre := by
    subst hsplit
    refine gateInvariant_of_execution h.of_append.1 (hfresh.sublist ?_)
    exact ((List.sublist_cons_self _ _).trans (List.sublist_append_right _ _)).filterMap _
  constructor
  · exact hinv.registered
  · intro hactive
    exact hinv.registered _ (hinv.valid.active_registered hactive)
  · intro newer st older hsplit c hhanded
    have hthen := hearlier hsplit
    exact hthen.registered c (registered_of_handsOver hthen.valid hhanded)
  · intro c hdiscarded
    have hunregistered : c ∉ s.channelManager.controlChannels := fun hc =>
      hinv.exclusive c (hinv.registered c hc) hdiscarded
    refine ⟨hunregistered, ?_⟩
    rintro rfl
    obtain ⟨st, -, hdiscards⟩ := hdiscarded
    exact hunregistered (hinv.valid.active_registered (ne_neg_one_of_discards hdiscards))
  · intro newer st older hsplit c hdiscarded hhanded
    have hthen := hearlier hsplit
    have hc := registered_of_handsOver hthen.valid hhanded
    exact hthen.exclusive c (hthen.registered c hc) hdiscarded
  · intro st hst c hdiscards
    obtain ⟨older, -, hmade⟩ := h.of_mem hst
    exact (step_settles hmade).socket_open c hdiscards

def twoApplications : List (ConnectionEvent Text) :=
  [.applicationConnected 0, .applicationConnected 1,
    .incomingMessage 0 0 (MessageFactory.createPingReply ""),
    .incomingMessage 1 0 (MessageFactory.createPingReply "unknown")]

theorem gated_twoApplications :
    ∃ history s, (machine Text fun _ => []).run twoApplications = .ok (history, s) ∧
      Gated history s :=
  ⟨_, _, rfl, gated_of_execution
    (Machine.run_execution
      (show (machine Text fun _ => []).run twoApplications = .ok (_, _) from rfl))
    (by decide)⟩

end Runs

end ConnectionManager

end GBerry.Server
