import GBerry.Comms.Console
import GBerry.Server.ConnectionManager.Gate

/-!
# Exit requests of applications

Which application a connection belongs to is known from the past: its process was
given a code, and showed it to the gatekeeper.  The registry keeps the application
id for the code, and the exit command keeps it for the connection.  The current
application is compared by its full id, which no application has as its own id.
-/

namespace GBerry.Comms.Console

open GBerry.Common
open GBerry.Foundation
open GBerry.Server
open Fallible

variable {β : Type} [QByteArray β]

/-- Who was given which code, and who showed its code on which connection. -/
structure Identities where
  byCode : QMap String Application
  byConnection : QMap Int Application

def codeShown (gatekeeper : ConnectionGateKeeper) (msg : β) : Option String :=
  match QByteArray.fromJson msg with
  | none => none
  | some json =>
      if gatekeeper.timerActive ∧ JsonObject.isCommand json "PingReply" ∧
          JsonObject.contains json "application_code" then
        some (JsonObject.value json "application_code").toString
      else none

namespace Identities

def shown (ids : Identities) (manager : ConnectionManager) (connectionId : Nat)
    (msg : β) : Identities :=
  let code := manager.gatekeepers[(connectionId : Int)]?.bind (codeShown · msg)
  { byCode := code.elim ids.byCode ids.byCode.erase
    byConnection :=
      match accepted manager connectionId msg with
      | none => ids.byConnection
      | some _ =>
          match code.bind (ids.byCode[·]?) with
          | some app => ids.byConnection.insert connectionId app
          | none => ids.byConnection.erase connectionId }

def given (ids : Identities) : ConsoleSignal β → Identities
  | .ui (.controller _ (.prepared app _ elapsed)) =>
      { ids with byCode := ids.byCode.insert (toString elapsed) app }
  | _ => ids

def after (ids : Identities)
    (st : Step Console (ConsoleEvent β × LaunchAttempts) (ConsoleSignal β)) : Identities :=
  st.out.foldl given
    (match st.label.1 with
    | .incomingMessage connectionId _ msg =>
        ids.shown st.pre.connectionManager connectionId msg
    | _ => ids)

end Identities

def identities : History β → Identities
  | [] => ⟨∅, ∅⟩
  | st :: older => (identities older).after st

/-- What an exit request on a connection of `app` should do while `current` is visible. -/
def ExitsProperly (answer : String → JsonObject → Bool × JsonObject)
    (attempts : LaunchAttempts) (s : Console) (connectionId : Nat) (msg : β)
    (app current : Application) : Prop :=
  ∃ s' out, step answer
      (.incomingMessage connectionId ServerSideControlChannel.CHANNEL_ID msg, attempts) s =
      .ok (s', out) ∧
    (app = current →
      s'.stateMachine.currentState = some .waitAppVisibleLaunchingMainUI ∧
        (s.stateMachine.currentApp.process = .Running →
          .ui (.controller .currentApp .killed) ∈ out)) ∧
    (app ≠ current → s'.stateMachine = s.stateMachine)

structure Tracked (ids : Identities) (s : Console) : Prop where
  byCode : ∀ (code : String) (app : Application), ids.byCode[code]? = some app →
    s.connectionManager.applicationRegistry.appIdByCode[code]? = some app.applicationId
  byConnection : ∀ (c : Int) (app : Application), ids.byConnection[c]? = some app →
    app.applicationId ≠ "" ∧ ∃ registry : ApplicationRegistry,
      registry.applicationIdByConnectionId c = app.applicationId ∧
        s.controlCommands[c]? = some (CommsChannelFactory.createControlChannel registry c)

section Codes

variable {s s' : ConnectionManager} {out : List (Server.ConnectionSignal β)} {c : Int}

def KeepsCodes (s s' : ConnectionManager) : Prop :=
  s'.applicationRegistry.appIdByCode = s.applicationRegistry.appIdByCode

omit [QByteArray β] in
theorem withChannels_codes {answer : Except Fault (ServerChannelManager × List (Signal β))}
    (h : s.withChannels answer = .ok (s', out)) : KeepsCodes s s' := by
  obtain ⟨m, signals, -, rfl⟩ := ConnectionManager.withChannels_ok h
  rfl

theorem forgetApplication_codes (h : s.forgetApplication c = .ok (s', out)) :
    KeepsCodes s s' := by
  unfold ConnectionManager.forgetApplication at h
  split at h
  · cases h
  · rename_i hclosed
    cases h
    have hcodes := withChannels_codes hclosed
    exact hcodes

theorem closeConnection_codes (h : s.closeConnection c = .ok (s', out)) :
    KeepsCodes s s' := by
  unfold ConnectionManager.closeConnection at h
  split at h
  · have hcodes := forgetApplication_codes h
    exact hcodes
  · cases h
    rfl

theorem applicationDisconnected_codes (h : s.applicationDisconnected c = .ok (s', out)) :
    KeepsCodes s s' := by
  unfold ConnectionManager.applicationDisconnected at h
  split at h
  · cases h
  rename_i hclosed
  split at h
  · cases h
  · rename_i hforgotten
    cases h
    exact (forgetApplication_codes hforgotten).trans (closeConnection_codes hclosed)

theorem onConnectionValidationFailed_codes
    (h : s.onConnectionValidationFailed c = .ok (s', out)) : KeepsCodes s s' := by
  unfold ConnectionManager.onConnectionValidationFailed at h
  have hcodes := closeConnection_codes h
  exact hcodes

theorem onConnectionValidationOK_codes {factory : Int → List ICommand}
    {connectionId : Nat} {applicationId : String}
    (h : s.onConnectionValidationOK factory connectionId applicationId = .ok (s', out)) :
    KeepsCodes s s' := by
  unfold ConnectionManager.onConnectionValidationOK at h
  simp only at h
  split at h
  · cases h
  · rename_i hactivated
    cases h
    have hcodes := withChannels_codes hactivated
    exact hcodes

theorem waitTimeout_codes (h : s.waitTimeout c = .ok (s', out)) : KeepsCodes s s' := by
  unfold ConnectionManager.waitTimeout at h
  split at h
  · split at h
    · exact onConnectionValidationFailed_codes h
    · cases h
      rfl
  · cases h
    rfl

theorem socketDisconnect_codes (h : s.socketDisconnect c = .ok (s', out)) :
    KeepsCodes s s' := by
  unfold ConnectionManager.socketDisconnect at h
  split at h
  · split at h
    · cases h
    · rename_i hclosed
      cases h
      have hcodes := closeConnection_codes hclosed
      exact hcodes
  · cases h
    rfl

theorem step_codes {factory : Int → List ICommand} {event : Server.ConnectionEvent β}
    (hexternal : fromNetwork event)
    (h : s.step factory event = .ok (s', out)) : KeepsCodes s s' := by
  cases event with
  | applicationConnected connectionId =>
      cases h
      rfl
  | applicationDisconnected connectionId => exact applicationDisconnected_codes h
  | incomingMessage connectionId channelId msg => cases hexternal
  | waitTimeout connectionId => exact waitTimeout_codes h
  | socketDisconnect connectionId => exact socketDisconnect_codes h
  | channelOperation op => exact withChannels_codes h
  | insertFixedIdentificationCode appId code =>
      cases h
      rfl
  | createIdentificationCode appId elapsed => cases hexternal

theorem incomingMessage_codes {factory : Int → List ICommand} {connectionId : Nat}
    {channelId : Int} {msg : β}
    (h : s.incomingMessage factory connectionId channelId msg = .ok (s', out)) :
    s'.applicationRegistry.appIdByCode =
      (s.gatekeepers[(connectionId : Int)]?.elim s.applicationRegistry
        fun gatekeeper => (gatekeeper.incomingMessage s.applicationRegistry msg).2
        ).appIdByCode := by
  unfold ConnectionManager.incomingMessage at h
  split at h
  · rename_i gatekeeper hgatekeeper
    rw [hgatekeeper, Option.elim_some]
    simp only at h
    split at h
    · cases h
      rfl
    · exact onConnectionValidationOK_codes h
    · exact onConnectionValidationFailed_codes h
  · rename_i hnone
    rw [hnone, Option.elim_none]
    exact withChannels_codes h

end Codes

section Gatekeepers

variable {gatekeeper : ConnectionGateKeeper} {registry : ApplicationRegistry} {msg : β}
  {code appId applicationId : String}

theorem matchCodeToApplication_other {other : String} (h : other ≠ code) :
    (registry.matchCodeToApplication code).2.appIdByCode[other]? =
      registry.appIdByCode[other]? := by
  unfold ApplicationRegistry.matchCodeToApplication
  split
  · simp only [QMap.getElem?_erase, if_neg h]
  · split <;> rfl

theorem incomingMessage_other (h : codeShown gatekeeper msg ≠ some code) :
    (gatekeeper.incomingMessage registry msg).2.appIdByCode[code]? =
      registry.appIdByCode[code]? := by
  unfold codeShown at h
  unfold ConnectionGateKeeper.incomingMessage
  split
  · rfl
  rename_i json hjson
  split
  · rename_i htimer
    split
    · rename_i hcommand
      split
      · rename_i hcode
        simp only [hjson, htimer, hcommand, hcode, and_self, if_true, ne_eq,
          Option.some.injEq] at h
        simp only
        split
        · exact matchCodeToApplication_other (Ne.symm h)
        · exact matchCodeToApplication_other (Ne.symm h)
      · rfl
    · rfl
  · rfl

theorem incomingMessage_shown (hcode : codeShown gatekeeper msg = some code)
    (hregistered : registry.appIdByCode[code]? = some appId)
    (h : (gatekeeper.incomingMessage registry msg).1 = .validated applicationId) :
    applicationId = appId ∧ appId ≠ "" := by
  unfold codeShown at hcode
  split at hcode
  · cases hcode
  rename_i json hjson
  split at hcode
  · rename_i hreply
    obtain ⟨htimer, hcommand, hcontains⟩ := hreply
    have hmatched : registry.matchCodeToApplication
        (JsonObject.value json "application_code").toString =
        (appId, { registry with appIdByCode := registry.appIdByCode.erase code }) := by
      rw [Option.some.inj hcode]
      simp only [ApplicationRegistry.matchCodeToApplication, hregistered]
    rw [ConnectionManager.verdict_reply htimer hjson hcommand, if_pos hcontains,
      hmatched] at h
    split at h
    · cases h
    · rename_i hne
      exact ⟨(Verdict.validated.inj h).symm, hne⟩
  · cases hcode

end Gatekeepers

section Tracking

variable {ids : Identities} {s s' : Console} {out : List (ConsoleSignal β)}
  {attempts : LaunchAttempts} {event : UIEvent}

theorem createControlChannel_createLink (registry : ApplicationRegistry) (c : Int)
    (applicationId : String) :
    (registry.createLink c applicationId).applicationIdByConnectionId c = applicationId := by
  simp [ApplicationRegistry.createLink, ApplicationRegistry.applicationIdByConnectionId]

omit [QByteArray β] in
theorem gives_or_not (signal : ConsoleSignal β) :
    (identificationCode signal = none ∧ ∀ ids : Identities, ids.given signal = ids) ∨
      ∃ name app appId elapsed,
        signal = .ui (.controller name (.prepared app appId elapsed)) := by
  cases signal with
  | connection signal => exact .inl ⟨rfl, fun _ => rfl⟩
  | ui output =>
      cases output with
      | enteredState state => exact .inl ⟨rfl, fun _ => rfl⟩
      | controller name signal =>
          cases signal with
          | prepared app appId elapsed => exact .inr ⟨name, app, appId, elapsed, rfl⟩
          | _ => exact .inl ⟨rfl, fun _ => rfl⟩

omit [QByteArray β] in
theorem Tracked.prepared {name : ControllerName} {app : Application} {appId : String}
    {elapsed : Int} (h : Tracked ids s) (happ : appId = app.applicationId) :
    Tracked (ids.given (.ui (.controller name (.prepared app appId elapsed)) :
        ConsoleSignal β))
      { s with connectionManager.applicationRegistry :=
        (s.connectionManager.applicationRegistry.createIdentificationCode appId elapsed).1 } := by
  refine ⟨?_, h.byConnection⟩
  intro code other hcode
  simp only [Identities.given, ApplicationRegistry.createIdentificationCode,
    QMap.getElem?_insert] at hcode ⊢
  split at hcode
  · rename_i heq
    cases hcode
    rw [if_pos heq, happ]
  · rename_i hne
    rw [if_neg hne]
    exact h.byCode code other hcode

omit [QByteArray β] in
theorem Tracked.codes {signals : List (ConsoleSignal β)} (h : Tracked ids s)
    (hprepared : ∀ name app appId elapsed,
      .ui (.controller name (.prepared app appId elapsed)) ∈ signals →
        appId = app.applicationId)
    (hcodes : forEach createIdentificationCode (signals.filterMap identificationCode) s =
      .ok (s', out)) : Tracked (signals.foldl Identities.given ids) s' := by
  induction signals generalizing ids s out with
  | nil =>
      cases hcodes
      exact h
  | cons signal rest ih =>
      have hrest : ∀ name app appId elapsed,
          .ui (.controller name (.prepared app appId elapsed)) ∈ rest →
            appId = app.applicationId := by
        intro name app appId elapsed hmem
        exact hprepared name app appId elapsed (List.mem_cons_of_mem signal hmem)
      rw [List.foldl_cons]
      rcases gives_or_not signal with ⟨hnone, hgiven⟩ | ⟨name, app, appId, elapsed, rfl⟩
      · rw [List.filterMap_cons_none hnone] at hcodes
        rw [hgiven]
        exact ih h hrest hcodes
      · have hcode : identificationCode (.ui (.controller name
            (.prepared app appId elapsed)) : ConsoleSignal β) = some (appId, elapsed) := rfl
        rw [List.filterMap_cons_some hcode] at hcodes
        obtain ⟨s₁, _, out₂, hcreate, hothers, rfl⟩ := andThen_ok hcodes
        cases hcreate
        have happ := hprepared name app appId elapsed List.mem_cons_self
        exact ih (h.prepared happ) hrest hothers

def Registers (s s' : Console) (out : List (ConsoleSignal β)) : Prop :=
  s'.stateMachine = s.stateMachine ∧ out = []

omit [QByteArray β] in
theorem registers_composes : Composes (Registers (β := β)) where
  refl s := ⟨rfl, rfl⟩
  trans := by
    rintro s s' s'' out out' ⟨hmachine, rfl⟩ ⟨hmachine', rfl⟩
    exact ⟨hmachine'.trans hmachine, rfl⟩

omit [QByteArray β] in
theorem createIdentificationCode_registers (codes : List (String × Int)) :
    Ensures (Registers (β := β)) (forEach createIdentificationCode codes) := by
  apply Ensures.forEach registers_composes
  intro code _
  apply Ensures.update
  intro s
  exact ⟨rfl, rfl⟩

omit [QByteArray β] in
theorem perform_ok (h : perform attempts event s = .ok (s', out)) :
    ∃ output, UIAppStateMachine.perform attempts event s.stateMachine =
        .ok (s'.stateMachine, output) ∧
      ∀ ids, Tracked ids s → Tracked (out.foldl Identities.given ids) s' := by
  obtain ⟨s₁, out₁, out₂, hmachine, hcodes, rfl⟩ := thenReact_ok h
  obtain ⟨machine, output, hperform, rfl, rfl⟩ := within_ok hmachine
  have hperform := withFault_ok hperform
  obtain ⟨hmachine', rfl⟩ := createIdentificationCode_registers _ _ _ _ hcodes
  refine ⟨output, hmachine' ▸ hperform, ?_⟩
  intro ids hids
  rw [List.append_nil]
  have hids' : Tracked ids { s with stateMachine := machine } :=
    ⟨hids.byCode, hids.byConnection⟩
  refine hids'.codes ?_ hcodes
  intro name app appId elapsed hmem
  obtain ⟨other, hother, heq⟩ := List.mem_map.mp hmem
  cases heq
  exact UIAppStateMachine.perform_prepared hperform hother

omit [QByteArray β] in
theorem onServer_ok {program : Fallible ConnectionManager (Server.ConnectionSignal β) Fault}
    (h : onServer program s = .ok (s', out)) :
    ∃ manager signals, program s.connectionManager = .ok (manager, signals) ∧
      s' = { s with connectionManager := manager } ∧ out = signals.map .connection := by
  obtain ⟨manager, signals, hprogram, rfl, rfl⟩ := within_ok h
  exact ⟨manager, signals, withFault_ok hprogram, rfl, rfl⟩

omit [QByteArray β] in
theorem given_connections (ids : Identities) (signals : List (Server.ConnectionSignal β)) :
    (signals.map ConsoleSignal.connection).foldl Identities.given ids = ids := by
  induction signals with
  | nil => rfl
  | cons signal rest ih => exact ih

theorem Tracked.shownCodes {answer : Int → List ICommand} {manager : ConnectionManager}
    {signals : List (Server.ConnectionSignal β)} {connectionId : Nat} {channelId : Int} {msg : β}
    (h : Tracked ids s)
    (hserver : s.connectionManager.incomingMessage answer connectionId channelId msg =
      .ok (manager, signals)) {code : String} {app : Application}
    (hcode : (ids.shown s.connectionManager connectionId msg).byCode[code]? = some app) :
    manager.applicationRegistry.appIdByCode[code]? = some app.applicationId := by
  rw [incomingMessage_codes hserver]
  simp only [Identities.shown] at hcode
  cases hgatekeeper : s.connectionManager.gatekeepers[(connectionId : Int)]? with
  | none =>
      simp only [hgatekeeper, Option.bind_none, Option.elim_none] at hcode ⊢
      exact h.byCode code app hcode
  | some gatekeeper =>
      simp only [hgatekeeper, Option.bind_some, Option.elim_some] at hcode ⊢
      by_cases hshown : codeShown gatekeeper msg = some code
      · simp [hshown] at hcode
      · rw [incomingMessage_other hshown]
        refine h.byCode code app ?_
        cases hother : codeShown gatekeeper msg with
        | none => simpa only [hother, Option.elim_none] using hcode
        | some other =>
            simp only [hother, Option.elim_some, QMap.getElem?_erase] at hcode
            split at hcode
            · cases hcode
            · exact hcode

theorem Tracked.shownConnection {connectionId : Nat} {msg : β} {c : Int} {app : Application}
    (h : Tracked ids s)
    (happ : (ids.shown s.connectionManager connectionId msg).byConnection[c]? = some app) :
    (ids.byConnection[c]? = some app ∧
      (c = connectionId → accepted s.connectionManager connectionId msg = none)) ∨
    (c = connectionId ∧ app.applicationId ≠ "" ∧
      accepted s.connectionManager connectionId msg = some app.applicationId) := by
  simp only [Identities.shown] at happ
  split at happ
  · rename_i hwaiting
    exact .inl ⟨happ, fun _ => hwaiting⟩
  rename_i applicationId haccepted
  have hother (hne : c ≠ connectionId) (hbefore : ids.byConnection[c]? = some app) :
      (ids.byConnection[c]? = some app ∧
        (c = connectionId → accepted s.connectionManager connectionId msg = none)) :=
    ⟨hbefore, fun heq => absurd heq hne⟩
  split at happ
  · rename_i shower hshower
    rw [QMap.getElem?_insert] at happ
    split at happ
    · rename_i heq
      cases happ
      obtain ⟨code, hcode, hgiven⟩ := Option.bind_eq_some_iff.mp hshower
      obtain ⟨gatekeeper, hgatekeeper, hshown⟩ := Option.bind_eq_some_iff.mp hcode
      have hverdict := haccepted
      simp only [accepted, hgatekeeper] at hverdict
      split at hverdict
      · rename_i hvalidated
        cases hverdict
        obtain ⟨rfl, hidentified⟩ :=
          incomingMessage_shown hshown (h.byCode code app hgiven) hvalidated
        exact .inr ⟨heq, hidentified, haccepted⟩
      · cases hverdict
    · exact .inl (hother ‹_› happ)
  · rw [QMap.getElem?_erase] at happ
    split at happ
    · cases happ
    · exact .inl (hother ‹_› happ)

theorem incomingMessage_tracked {answer : String → JsonObject → Bool × JsonObject}
    {connectionId : Nat} {channelId : Int} {msg : β} (h : Tracked ids s)
    (hstep : incomingMessage answer attempts connectionId channelId msg s = .ok (s', out)) :
    Tracked (out.foldl Identities.given (ids.shown s.connectionManager connectionId msg))
      s' := by
  unfold incomingMessage at hstep
  split at hstep
  · rename_i applicationId haccepted
    obtain ⟨s₁, _, out₂, hupdate, hrest, rfl⟩ := andThen_ok hstep
    cases hupdate
    obtain ⟨s₂, out₃, out₄, hserver, hperform, rfl⟩ := andThen_ok hrest
    obtain ⟨manager, signals, hmessage, rfl, rfl⟩ := onServer_ok hserver
    obtain ⟨output, -, htracked⟩ := perform_ok hperform
    rw [List.nil_append, List.foldl_append, given_connections]
    refine htracked _ ⟨?_, ?_⟩
    · intro code app hcode
      exact h.shownCodes hmessage hcode
    · intro c app happ
      simp only [QMap.getElem?_insert]
      rcases h.shownConnection happ with ⟨hbefore, hwaiting⟩ | ⟨rfl, hidentified, heq⟩
      · have hne : c ≠ connectionId := by
          intro heq
          rw [hwaiting heq] at haccepted
          cases haccepted
        rw [if_neg hne]
        exact h.byConnection c app hbefore
      · rw [haccepted] at heq
        cases heq
        rw [if_pos rfl]
        exact ⟨hidentified, _, createControlChannel_createLink _ _ _, rfl⟩
  · rename_i hwaiting
    obtain ⟨s₁, out₁, out₂, hserver, hrest, rfl⟩ := andThen_ok hstep
    obtain ⟨manager, signals, hmessage, rfl, rfl⟩ := onServer_ok hserver
    rw [List.foldl_append, given_connections]
    have hshown : Tracked (ids.shown s.connectionManager connectionId msg)
        { s with connectionManager := manager } := by
      refine ⟨?_, ?_⟩
      · intro code app hcode
        exact h.shownCodes hmessage hcode
      · intro c app happ
        rcases h.shownConnection happ with ⟨hbefore, -⟩ | ⟨-, -, heq⟩
        · exact h.byConnection c app hbefore
        · rw [hwaiting] at heq
          cases heq
    cases hrequest : s.request connectionId channelId msg with
    | none =>
        simp only [hrequest] at hrest
        cases hrest
        exact hshown
    | some event =>
        simp only [hrequest] at hrest
        obtain ⟨output, -, htracked⟩ := perform_ok hrest
        exact htracked _ hshown

theorem Tracked.step {answer : String → JsonObject → Bool × JsonObject}
    {label : ConsoleEvent β × LaunchAttempts} (h : Tracked ids s)
    (hstep : step answer label s = .ok (s', out)) :
    Tracked (ids.after ⟨s, label, out, s'⟩) s' := by
  obtain ⟨event, attempts⟩ := label
  cases event with
  | connection event =>
      obtain ⟨manager, signals, hserver, rfl, rfl⟩ := onServer_ok hstep
      simp only [Identities.after]
      rw [given_connections]
      refine ⟨?_, h.byConnection⟩
      intro code app hcode
      have hcodes := step_codes event.2 hserver
      rw [KeepsCodes] at hcodes
      rw [hcodes]
      exact h.byCode code app hcode
  | incomingMessage connectionId channelId msg => exact incomingMessage_tracked h hstep
  | ui event =>
      obtain ⟨output, -, htracked⟩ := perform_ok hstep
      exact htracked ids h

theorem tracked_of_execution {answer : String → JsonObject → Bool × JsonObject}
    {init : UIAppStateMachine} {history : History β}
    (h : Execution (machine β answer init) history s) : Tracked (identities history) s := by
  refine h.invariant (I := fun history s => Tracked (identities history) s) ?_ ?_
  · constructor
    · intro code app hcode
      simp [identities] at hcode
    · intro c app happ
      simp [identities] at happ
  · intro history s s' label out _ htracked hstep
    exact htracked.step hstep

end Tracking

section Exits

variable {s s' : UIAppStateMachine} {out : List UIOutput} {attempts : LaunchAttempts}
  {applicationId : String} {current : Application}

theorem applicationId_ne_id (app : Application) : app.applicationId ≠ app.id := by
  intro heq
  have hlength := congrArg String.length heq
  simp only [Application.id, String.length_append] at hlength
  have hdash : "-".length = 1 := rfl
  omega

theorem mainui_ne_id (app : Application) : "mainui" ≠ app.id := by
  intro heq
  have hchars := congrArg String.toList heq
  simp only [Application.id, String.toList_append] at hchars
  have hdash : '-' ∈ "mainui".toList := by
    rw [hchars]
    simp
  exact absurd hdash (by decide)

theorem exit_ignored (hidentified : applicationId ≠ "")
    (hcurrent : s.currentApp.app = some current) (hne : applicationId ≠ current.id) :
    UIAppStateMachine.perform attempts (.exitApplication applicationId) s = .ok (s, []) := by
  simp only [UIAppStateMachine.perform, UIAppStateMachine.exitApplication,
    ApplicationController.fullApplicationId, hcurrent, if_neg hidentified, if_neg hne]

def StaysLaunching (s s' : UIAppStateMachine) (_ : List UIOutput) : Prop :=
  s.currentState = some .waitAppVisibleLaunchingMainUI →
    s'.currentState = some .waitAppVisibleLaunchingMainUI

theorem staysLaunching_composes : Composes StaysLaunching where
  refl _ := id
  trans h h' hstate := h' (h hstate)

theorem microstep_staysLaunching (signal : UISignal)
    (hsignal : signal ∈ [UISignal.launchFailed, .died, .waitappLaunchValidated]) :
    Ensures StaysLaunching (UIAppStateMachine.microstep attempts signal) := by
  intro s s' out h hstate
  rcases UIAppStateMachine.microstep_ok h with ⟨rfl, -, -⟩ |
    ⟨state, target, hstate', htransition, -, -⟩
  · exact hstate
  · obtain rfl := Option.some.inj (hstate.symm.trans hstate')
    simp only [List.mem_cons, List.not_mem_nil, or_false] at hsignal
    rcases hsignal with rfl | rfl | rfl <;> cases htransition

theorem handle_exits
    (h : UIAppStateMachine.handle attempts .appExitRequested s = .ok (s', out))
    (hvisible : s.currentState = some .appVisible) :
    s'.currentState = some .waitAppVisibleLaunchingMainUI := by
  obtain ⟨s₁, out₁, out₂, hstep, hreact, rfl⟩ := thenReact_ok h
  refine Ensures.forEach staysLaunching_composes ?_ s₁ s' out₂ hreact ?_
  · intro signal hsignal
    exact microstep_staysLaunching signal (UIAppStateMachine.mem_reactions hsignal)
  · rcases UIAppStateMachine.microstep_ok hstep with ⟨-, -, hdropped⟩ |
      ⟨state, target, hstate, htransition, htarget, -⟩
    · cases hdropped _ hvisible
    · obtain rfl := Option.some.inj (hvisible.symm.trans hstate)
      cases htransition
      exact htarget

theorem exit_leaves (hvisible : s.currentState = some .appVisible)
    (hcurrent : s.currentApp.app = some current)
    (h : UIAppStateMachine.perform attempts (.exitApplication current.id) s =
      .ok (s', out)) : s'.currentState = some .waitAppVisibleLaunchingMainUI := by
  simp only [UIAppStateMachine.perform, UIAppStateMachine.exitApplication,
    ApplicationController.fullApplicationId, hcurrent, if_true, ite_self] at h
  exact handle_exits h hvisible

end Exits

section Requests

variable {answer : String → JsonObject → Bool × JsonObject} {attempts : LaunchAttempts}
  {s s' : Console} {out : List (ConsoleSignal β)} {connectionId : Nat} {channelId : Int}
  {msg : β} {app current : Application} {history : History β} {init : UIAppStateMachine}

theorem request_exit {ids : Identities} (h : Tracked ids s)
    (happ : ids.byConnection[(connectionId : Int)]? = some app)
    (haccepted : (connectionId : Int) ∉ s.connectionManager.gatekeepers)
    (hopen : (connectionId : Int) ∈ s.connectionManager.channelManager.controlChannels)
    (hmsg : isCommand "ExitApplication" msg = true) :
    s.request connectionId ServerSideControlChannel.CHANNEL_ID msg =
      if app.applicationId = "mainui" then none
      else some (.exitApplication app.applicationId) := by
  obtain ⟨-, registry, hlink, hcommands⟩ := h.byConnection connectionId app happ
  unfold isCommand at hmsg
  split at hmsg
  · cases hmsg
  rename_i json hjson
  simp only [JsonObject.isCommand, Bool.and_eq_true] at hmsg
  obtain ⟨hcontains, hname⟩ := hmsg
  have hexit : (JsonObject.value json "command").toString = "ExitApplication" := by
    cases hvalue : JsonObject.value json "command" with
    | string value =>
        rw [hvalue, Json.isString, beq_iff_eq] at hname
        exact hname
    | _ =>
        rw [hvalue] at hname
        cases hname
  have hgate : s.connectionManager.gatekeepers.contains (connectionId : Int) = false := by
    rw [← Bool.not_eq_true, Std.ExtTreeMap.contains_iff_mem]
    exact haccepted
  have hopen : s.connectionManager.channelManager.controlChannels.contains
      (connectionId : Int) = true := Std.ExtTreeMap.contains_iff_mem.mpr hopen
  simp only [request, hgate, hopen, Bool.false_eq_true, if_false, and_self, if_true,
    hcommands, hjson, hcontains, hexit, CommsChannelFactory.createControlChannel, hlink]
  split
  · rfl
  · rfl

theorem accepted_none {manager : ConnectionManager}
    (haccepted : (connectionId : Int) ∉ manager.gatekeepers) (msg : β) :
    accepted manager connectionId msg = none := by
  have hnone := (QMap.notMem_iff _ _).mp haccepted
  simp only [accepted, hnone]

theorem message_ok (haccepted : (connectionId : Int) ∉ s.connectionManager.gatekeepers)
    (h : step answer (.incomingMessage connectionId channelId msg, attempts) s =
      .ok (s', out)) :
    match s.request connectionId channelId msg with
    | none => s'.stateMachine = s.stateMachine
    | some event => ∃ output,
        UIAppStateMachine.perform attempts event s.stateMachine =
          .ok (s'.stateMachine, output) := by
  simp only [step, incomingMessage, accepted_none haccepted msg] at h
  obtain ⟨s₁, out₁, out₂, hserver, hrest, rfl⟩ := andThen_ok h
  obtain ⟨manager, signals, -, rfl, rfl⟩ := onServer_ok hserver
  cases hrequest : s.request connectionId channelId msg with
  | none =>
      simp only [hrequest] at hrest
      cases hrest
      rfl
  | some event =>
      simp only [hrequest] at hrest
      obtain ⟨output, hperform, -⟩ := perform_ok hrest
      exact ⟨output, hperform⟩

theorem message_ignored
    (haccepted : (connectionId : Int) ∉ s.connectionManager.gatekeepers)
    (hignored : ∀ event, s.request connectionId channelId msg = some event →
      UIAppStateMachine.perform attempts event s.stateMachine = .ok (s.stateMachine, [])) :
    ∃ s' out, step answer (.incomingMessage connectionId channelId msg, attempts) s =
      .ok (s', out) ∧ s'.stateMachine = s.stateMachine := by
  have hnone := (QMap.notMem_iff _ _).mp haccepted
  have hserver : s.connectionManager.incomingMessage (fun _ => []) connectionId channelId msg =
      s.connectionManager.withChannels (.ok
        (s.connectionManager.channelManager.processMessageFromSouth connectionId channelId
          msg)) := by
    simp only [ConnectionManager.incomingMessage, hnone]
  simp only [step, incomingMessage, accepted_none haccepted msg, andThen, onServer, within,
    withFault, hserver, ConnectionManager.withChannels]
  cases hrequest : s.request connectionId channelId msg with
  | none => exact ⟨_, _, rfl, rfl⟩
  | some event =>
      simp only [perform, thenReact, within, withFault, hignored event hrequest]
      exact ⟨_, _, rfl, rfl⟩

theorem exitsProperly_iff (h : Execution (machine β answer init) history s)
    (happ : (identities history).byConnection[(connectionId : Int)]? = some app)
    (haccepted : (connectionId : Int) ∉ s.connectionManager.gatekeepers)
    (hopen : (connectionId : Int) ∈ s.connectionManager.channelManager.controlChannels)
    (hmsg : isCommand "ExitApplication" msg = true)
    (hvisible : s.stateMachine.currentState = some .appVisible)
    (hcurrent : s.stateMachine.currentApp.app = some current) :
    ExitsProperly answer attempts s connectionId msg app current ↔
      app ≠ current ∧ app.applicationId ≠ current.id := by
  have htracked := tracked_of_execution h
  have hrequest := request_exit htracked happ haccepted hopen hmsg
  obtain ⟨hidentified, -⟩ := htracked.byConnection connectionId app happ
  constructor
  · rintro ⟨s', out, hstep, hown, hother⟩
    have hmessage := message_ok haccepted hstep
    rw [hrequest] at hmessage
    have hstays (hsame : s'.stateMachine = s.stateMachine)
        (hleft : s'.stateMachine.currentState = some .waitAppVisibleLaunchingMainUI) :
        False := by
      rw [hsame, hvisible] at hleft
      cases hleft
    by_cases hmainui : app.applicationId = "mainui"
    · simp only [if_pos hmainui] at hmessage
      refine ⟨fun heq => hstays hmessage (hown heq).1, ?_⟩
      rw [hmainui]
      exact mainui_ne_id current
    · simp only [if_neg hmainui] at hmessage
      obtain ⟨output, hperform⟩ := hmessage
      have hne : app ≠ current := by
        rintro rfl
        rw [exit_ignored hidentified hcurrent (applicationId_ne_id app)] at hperform
        have hsame := (Prod.mk.inj (Except.ok.inj hperform)).1
        exact hstays hsame.symm (hown rfl).1
      refine ⟨hne, ?_⟩
      intro heq
      rw [heq] at hperform
      exact hstays (hother hne) (exit_leaves hvisible hcurrent hperform)
  · rintro ⟨hne, hid⟩
    obtain ⟨s', out, hstep, hsame⟩ : ∃ s' out, step answer (.incomingMessage connectionId
        ServerSideControlChannel.CHANNEL_ID msg, attempts) s = .ok (s', out) ∧
        s'.stateMachine = s.stateMachine := by
      refine message_ignored haccepted ?_
      intro event hevent
      rw [hrequest] at hevent
      split at hevent
      · cases hevent
      · cases hevent
        exact exit_ignored hidentified hcurrent hid
    exact ⟨s', out, hstep, fun heq => absurd heq hne, fun _ => hsame⟩

end Requests

def prepares : LaunchAttempts := fun _ => ⟨true, 0⟩

def silent (_ : String) (_ : JsonObject) : Bool × JsonObject := (true, [])

def console : UIAppStateMachine :=
  .start ⟨"waitapp", "1"⟩ ⟨"mainui", "1"⟩ false [⟨"chess", "1"⟩]

def launches : List (ConsoleEvent Text × LaunchAttempts) :=
  [(.ui ⟨.start, rfl⟩, prepares), (.ui ⟨.processEvent .waitapp .running, rfl⟩, prepares),
    (.connection ⟨.applicationConnected 0, rfl⟩, prepares),
    (.incomingMessage 0 0 (MessageFactory.createPingReply "0"), prepares),
    (.ui ⟨.processEvent .mainui .running, rfl⟩, prepares),
    (.connection ⟨.applicationConnected 1, rfl⟩, prepares),
    (.incomingMessage 1 0 (MessageFactory.createPingReply "0"), prepares),
    (.incomingMessage 1 0 (.document [("application_id", .string "chess-1"),
      ("command", .string "LaunchApplication")]), prepares),
    (.ui ⟨.processEvent .currentApp .running, rfl⟩, prepares),
    (.connection ⟨.applicationConnected 2, rfl⟩, prepares),
    (.incomingMessage 2 0 (MessageFactory.createPingReply "0"), prepares)]

def exitMessage : Text := MessageFactory.createSimpleCommand "ExitApplication"

/-- The connections 0 and 2 are those of the wait screen and of the visible application. -/
def chessVisible (history : History Text) (s : Console) : Bool :=
  (identities history).byConnection[(0 : Int)]? = some ⟨"waitapp", "1"⟩ ∧
    (identities history).byConnection[(2 : Int)]? = some ⟨"chess", "1"⟩ ∧
    ¬ s.connectionManager.gatekeepers.contains 0 ∧
    ¬ s.connectionManager.gatekeepers.contains 2 ∧
    s.connectionManager.channelManager.controlChannels.contains 0 ∧
    s.connectionManager.channelManager.controlChannels.contains 2 ∧
    s.stateMachine.currentState = some .appVisible ∧
    s.stateMachine.currentApp.app = some ⟨"chess", "1"⟩ ∧
    s.stateMachine.currentApp.process = .Running

theorem launches_chessVisible :
    ∃ history s, (machine Text silent console).run launches = .ok (history, s) ∧
      chessVisible history s = true := by
  apply Machine.exists_run
  decide +kernel

theorem waitappExits_properly :
    ∃ history s, (machine Text silent console).run launches = .ok (history, s) ∧
      ExitsProperly silent prepares s 0 exitMessage ⟨"waitapp", "1"⟩ ⟨"chess", "1"⟩ := by
  obtain ⟨history, s, hrun, hchess⟩ := launches_chessVisible
  simp only [chessVisible, Bool.decide_and, Bool.and_eq_true, decide_eq_true_eq] at hchess
  obtain ⟨hwaitapp, -, hgate, -, hopen, -, hvisible, hcurrent, -⟩ := hchess
  refine ⟨history, s, hrun, (exitsProperly_iff (Machine.run_execution hrun) hwaitapp ?_ ?_
    (by decide) hvisible hcurrent).mpr ⟨by decide, by decide⟩⟩
  · simpa using hgate
  · simpa using hopen

/-- The visible application asks for its own exit, and nothing happens. -/
theorem chessExits_ignored :
    ∃ history s s' out, (machine Text silent console).run launches = .ok (history, s) ∧
      s.stateMachine.currentApp.app = some ⟨"chess", "1"⟩ ∧
      (identities history).byConnection[(2 : Int)]? = some ⟨"chess", "1"⟩ ∧
      step silent (.incomingMessage 2 0 exitMessage, prepares) s = .ok (s', out) ∧
      s'.stateMachine = s.stateMachine ∧
      ¬ ExitsProperly silent prepares s 2 exitMessage ⟨"chess", "1"⟩ ⟨"chess", "1"⟩ := by
  obtain ⟨history, s, hrun, hchess⟩ := launches_chessVisible
  simp only [chessVisible, Bool.decide_and, Bool.and_eq_true, decide_eq_true_eq] at hchess
  obtain ⟨-, hconnection, -, hgate, -, hopen, hvisible, hcurrent, -⟩ := hchess
  have htracked := tracked_of_execution (Machine.run_execution hrun)
  have haccepted : ((2 : Nat) : Int) ∉ s.connectionManager.gatekeepers := by
    simpa using hgate
  have hrequest : s.request 2 ServerSideControlChannel.CHANNEL_ID exitMessage =
      some (.exitApplication "chess") :=
    request_exit htracked hconnection haccepted (by simpa using hopen) (by decide)
  obtain ⟨s', out, hstep, hsame⟩ : ∃ s' out, step silent
      (.incomingMessage 2 ServerSideControlChannel.CHANNEL_ID exitMessage, prepares) s =
        .ok (s', out) ∧ s'.stateMachine = s.stateMachine := by
    refine message_ignored haccepted ?_
    intro event hevent
    cases hrequest.symm.trans hevent
    exact exit_ignored (by decide) hcurrent (by decide)
  refine ⟨history, s, s', out, hrun, hcurrent, hconnection, hstep, hsame, ?_⟩
  rintro ⟨s'', out', hstep', hown, -⟩
  cases hstep'.symm.trans hstep
  have hleft := (hown rfl).1
  rw [hsame, hvisible] at hleft
  cases hleft

end GBerry.Comms.Console
