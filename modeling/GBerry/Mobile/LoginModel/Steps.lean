import GBerry.Mobile.LoginModel

/-!
# What one event does

The state that every callback and every call leaves.  A logout, asked for or
caused by a change of the current user, is one function of the state; both
callbacks of a logout invocation do the same but for their signals.
-/

namespace GBerry.Mobile

open GBerry.Foundation GBerry.Common

def acceptedDocument {β : Type} [QByteArray β] (data : β) : Option JsonObject :=
  match QByteArray.fromJson data with
  | none => none
  | some json =>
      if (JsonObject.value json "result").toString = "ok" then some json else none

abbrev MobileStep (β : Type) := Step MobileClient (MobileEvent β) MobileOutput

theorem LoginModel.construct_pending {userModel : UserModel} {ini : QSettings}
    {m : LoginModel} (h : construct userModel ini = .ok m) :
    m.pendingLogin = false ∧ m.pendingLogout = false := by
  unfold construct at h
  dsimp only at h
  repeat' split at h
  all_goals cases h
  all_goals exact ⟨rfl, rfl⟩

namespace MobileClient

variable {c c' : MobileClient} {out : List MobileOutput}

def withLogin (c : MobileClient) (m : LoginModel) : MobileClient := { c with loginModel := m }

def sent (invocation : RESTInvocation) (c : MobileClient) : MobileClient :=
  { c with
    invocations := c.invocations.insert c.made invocation
    made := c.made + 1 }

def received (id : Nat) (c : MobileClient) : MobileClient :=
  { c with invocations := c.invocations.erase id }

def cleared (c : MobileClient) : MobileClient :=
  c.withLogin (LoginModel.saveData { c.loginModel with
    pendingLogout := true
    currentPrivateToken := ""
    currentUserToken := ""
    currentUserEmail := "" })

def beginsLogout (c : MobileClient) : Bool :=
  c.loginModel.loggedIn && !c.loginModel.pendingLogout

def loggingOut (c : MobileClient) : MobileClient :=
  if c.beginsLogout then
    if c.loginModel.currentPrivateToken = "" then c.cleared
    else c.cleared.sent (logoutInvocation c.loginModel.currentPrivateToken)
  else c

def loggedOut (c : MobileClient) : MobileClient :=
  c.withLogin { c.loginModel with loggedIn := false, pendingLogout := false }

theorem logout_eq (c : MobileClient) : ∃ out, logout c = .ok (c.loggingOut, out) := by
  unfold logout loggingOut beginsLogout
  by_cases hbegins : (c.loginModel.loggedIn && !c.loginModel.pendingLogout) = true
  · rw [if_pos hbegins, if_pos hbegins]
    by_cases htoken : c.loginModel.currentPrivateToken = ""
    · exact ⟨_, by rw [if_pos htoken, if_pos htoken]; rfl⟩
    · exact ⟨_, by rw [if_neg htoken, if_neg htoken]; rfl⟩
  · exact ⟨_, by rw [if_neg hbegins, if_neg hbegins]⟩

theorem loggingOut_of_not_begins (h : c.beginsLogout = false) : c.loggingOut = c := by
  rw [loggingOut, h, if_neg Bool.false_ne_true]

theorem loggingOut_not_begins (c : MobileClient) : c.loggingOut.beginsLogout = false := by
  unfold loggingOut
  split
  · split
    · simp [beginsLogout, cleared, withLogin, LoginModel.saveData]
    · simp [beginsLogout, cleared, withLogin, sent, LoginModel.saveData]
  · rename_i h
    simpa using h

theorem loggingOut_loggingOut (c : MobileClient) : c.loggingOut.loggingOut = c.loggingOut :=
  loggingOut_of_not_begins (loggingOut_not_begins c)

theorem onCurrentUserNameChanged_eq (c : MobileClient) :
    ∃ out, onCurrentUserNameChanged c = .ok (c.loggingOut, out) := by
  unfold onCurrentUserNameChanged
  cases hpending : c.loginModel.pendingLogout with
  | false =>
      rw [if_pos (by rfl)]
      exact logout_eq c
  | true =>
      rw [if_neg (by simp), loggingOut_of_not_begins (by simp [beginsLogout, hpending])]
      exact ⟨[], rfl⟩

theorem deliver_eq (signal : UserModelSignal) (c : MobileClient) :
    ∃ out, deliver signal c =
      .ok (if signal = .currentUserNameChanged then c.loggingOut else c, out) := by
  cases signal with
  | currentUserNameChanged =>
      obtain ⟨out, hout⟩ := onCurrentUserNameChanged_eq c
      refine ⟨[.userModel .currentUserNameChanged] ++ out, ?_⟩
      simp [deliver, Fallible.andThen, Fallible.emit, hout]
  | currentUserInfoChanged => exact ⟨_, rfl⟩
  | currentUserIsActiveChanged => exact ⟨_, rfl⟩
  | currentIsGuestChanged => exact ⟨_, rfl⟩

theorem forEach_deliver (signals : List UserModelSignal) (c : MobileClient) :
    ∃ out, Fallible.forEach deliver signals c =
      .ok (if .currentUserNameChanged ∈ signals then c.loggingOut else c, out) := by
  induction signals generalizing c with
  | nil => exact ⟨[], rfl⟩
  | cons signal signals ih =>
      obtain ⟨out₁, hfirst⟩ := deliver_eq signal c
      obtain ⟨out₂, hrest⟩ := ih (if signal = .currentUserNameChanged then c.loggingOut else c)
      refine ⟨out₁ ++ out₂, ?_⟩
      simp only [Fallible.forEach, Fallible.andThen, hfirst, hrest, List.mem_cons]
      by_cases hsignal : signal = .currentUserNameChanged
      · rw [if_pos hsignal, loggingOut_loggingOut, ite_self, if_pos (Or.inl hsignal.symm)]
      · simp only [if_neg hsignal, Ne.symm hsignal, false_or]

theorem changeUser_ok {operation : UserModel → UserModel × List UserModelSignal}
    (h : changeUser operation c = .ok (c', out)) :
    c' = if .currentUserNameChanged ∈ (operation c.userModel).2 then
        loggingOut { c with userModel := (operation c.userModel).1 }
      else { c with userModel := (operation c.userModel).1 } := by
  obtain ⟨out', hrun⟩ := forEach_deliver (operation c.userModel).2
    { c with userModel := (operation c.userModel).1 }
  have hrun' : changeUser operation c = _ := hrun
  cases h.symm.trans hrun'
  rfl

theorem doLogin_ok (h : doLogin c = .ok (c', out)) :
    ∃ email password, c.currentEmail = .ok email ∧ c.currentPassword = .ok password ∧
      c' = sent (loginInvocation email password)
        (c.withLogin { c.loginModel with pendingLogin := false }) ∧
      out = [.execute c.made (loginInvocation email password)] := by
  obtain ⟨_, _, out₂, hchange, hread, rfl⟩ := Fallible.andThen_ok h
  cases hchange
  obtain ⟨email, hemail, hread⟩ := Fallible.reading_ok hread
  obtain ⟨password, hpassword, hexecute⟩ := Fallible.reading_ok hread
  cases hexecute
  exact ⟨email, password, hemail, hpassword, rfl, rfl⟩

theorem login_ok (h : login c = .ok (c', out)) :
    ∃ userName, c.currentUserName = .ok userName ∧
      ((userName = "fail" ∧ c' = c.withLogin { c.loginModel with loggedIn := false }) ∨
        (userName = "login" ∧ c' = c.withLogin { c.loginModel with loggedIn := true }) ∨
        (userName ≠ "fail" ∧ userName ≠ "login" ∧
          if c.loginModel.loggedIn then
            c' = loggingOut (c.withLogin { c.loginModel with pendingLogin := true })
          else doLogin c = .ok (c', out))) := by
  obtain ⟨userName, hname, h⟩ := Fallible.reading_ok h
  refine ⟨userName, hname, ?_⟩
  by_cases hfail : userName = "fail"
  · rw [if_pos hfail] at h
    cases h
    exact .inl ⟨hfail, rfl⟩
  · rw [if_neg hfail] at h
    by_cases hlogin : userName = "login"
    · rw [if_pos hlogin] at h
      cases h
      exact .inr (.inl ⟨hlogin, rfl⟩)
    · rw [if_neg hlogin] at h
      refine .inr (.inr ⟨hfail, hlogin, ?_⟩)
      cases hlogged : c.loginModel.loggedIn with
      | false =>
          rw [hlogged, if_neg Bool.false_ne_true] at h
          rwa [if_neg Bool.false_ne_true]
      | true =>
          rw [hlogged, if_pos rfl] at h
          obtain ⟨_, _, _, hchange, hlogout, -⟩ := Fallible.andThen_ok h
          cases hchange
          obtain ⟨out', hrun⟩ := logout_eq
            (c.withLogin { c.loginModel with pendingLogin := true })
          cases hlogout.symm.trans hrun
          rw [if_pos rfl]

theorem start_ok {userModel : UserModel} {ini : QSettings}
    (h : start userModel ini = .ok c) :
    c.invocations = ∅ ∧ LoginModel.construct userModel ini = .ok c.loginModel ∧
      c.userModel = userModel := by
  unfold start at h
  split at h
  · cases h
  · rename_i m hconstruct
    cases h
    exact ⟨rfl, hconstruct, rfl⟩

theorem restart_ok (h : restart c = .ok (c', out)) :
    c'.invocations = ∅ ∧
      LoginModel.construct c'.userModel c.loginModel.ini = .ok c'.loginModel := by
  unfold restart at h
  split at h
  · cases h
  · rename_i c'' hstart
    cases h
    obtain ⟨hnone, hconstruct, huser⟩ := start_ok hstart
    rw [huser]
    exact ⟨hnone, hconstruct⟩

section Replies

variable {β : Type} [QByteArray β] {data : β} {id : Nat}

theorem loginInvocationFinishedError_ok {errorString : String}
    (h : loginInvocationFinishedError errorString c = .ok (c', out)) :
    c' = c.withLogin { c.loginModel with loggedIn := false } := by
  cases h
  rfl

theorem loginInvocationFinishedOk_rejected (hdata : acceptedDocument data = none) :
    ∃ errorString, loginInvocationFinishedOk data = loginInvocationFinishedError errorString := by
  unfold acceptedDocument at hdata
  cases hparse : (QByteArray.fromJson data : Option JsonObject) with
  | none =>
      refine ⟨"Failed to parse login respose", ?_⟩
      simp only [loginInvocationFinishedOk, hparse]
  | some json =>
      simp only [hparse] at hdata
      by_cases hresult : (JsonObject.value json "result").toString = "ok"
      · rw [if_pos hresult] at hdata
        cases hdata
      · refine ⟨"Login result not ok", ?_⟩
        simp only [loginInvocationFinishedOk, hparse]
        exact if_pos hresult

def loggedIn (json : JsonObject) (email : String) (c : MobileClient) : MobileClient :=
  c.withLogin { LoginModel.saveData { c.loginModel with
      currentUserToken := (JsonObject.value json "user_token").toString
      currentPrivateToken := (JsonObject.value json "private_token").toString
      currentUserEmail := email } with
    loggedIn := true }

theorem loginInvocationFinishedOk_accepted {json : JsonObject}
    (hdata : acceptedDocument data = some json)
    (h : loginInvocationFinishedOk data c = .ok (c', out)) :
    ∃ email, c.currentEmail = .ok email ∧ c' = c.loggedIn json email := by
  unfold acceptedDocument at hdata
  cases hparse : (QByteArray.fromJson data : Option JsonObject) with
  | none =>
      simp only [hparse] at hdata
      cases hdata
  | some json' =>
      simp only [hparse] at hdata
      by_cases hresult : (JsonObject.value json' "result").toString = "ok"
      · rw [if_pos hresult] at hdata
        cases hdata
        simp only [loginInvocationFinishedOk, hparse, hresult, ne_eq, not_true_eq_false,
          if_false] at h
        obtain ⟨email, hemail, hchange⟩ := Fallible.reading_ok h
        cases hchange
        exact ⟨email, hemail, rfl⟩
      · rw [if_neg hresult] at hdata
        cases hdata

theorem logoutInvocationFinishedError_ok {errorString : String}
    (h : logoutInvocationFinishedError errorString c = .ok (c', out)) :
    ∃ signals out', out = signals ++ out' ∧ doPendingLogin c.loggedOut = .ok (c', out') := by
  obtain ⟨_, _, _, hchange, hrest, rfl⟩ := Fallible.andThen_ok h
  cases hchange
  obtain ⟨_, _, out', hemit, hlogin, rfl⟩ := Fallible.andThen_ok hrest
  cases hemit
  exact ⟨_, out', rfl, hlogin⟩

theorem logoutInvocationFinishedOk_ok (h : logoutInvocationFinishedOk data c = .ok (c', out)) :
    ∃ signals out', out = signals ++ out' ∧ doPendingLogin c.loggedOut = .ok (c', out') := by
  obtain ⟨_, _, out₂, hchange, hrest, rfl⟩ := Fallible.andThen_ok h
  cases hchange
  cases hparse : (QByteArray.fromJson data : Option JsonObject) with
  | none =>
      rw [hparse] at hrest
      exact logoutInvocationFinishedError_ok hrest
  | some json =>
      rw [hparse] at hrest
      by_cases hresult : (JsonObject.value json "result").toString = "ok"
      · simp only [hresult, ne_eq, not_true_eq_false, if_false] at hrest
        obtain ⟨_, _, _, hchange, hemits, rfl⟩ := Fallible.andThen_ok hrest
        cases hchange
        obtain ⟨_, _, out', hemit, hlogin, rfl⟩ := Fallible.andThen_ok hemits
        cases hemit
        exact ⟨_, out', rfl, hlogin⟩
      · simp only [ne_eq, hresult, not_false_eq_true, if_true] at hrest
        exact logoutInvocationFinishedError_ok hrest

theorem doPendingLogin_ok (h : doPendingLogin c = .ok (c', out)) :
    (c.loginModel.pendingLogin = false ∧ c' = c) ∨
      (c.loginModel.pendingLogin = true ∧ doLogin c = .ok (c', out)) := by
  unfold doPendingLogin at h
  cases hpending : c.loginModel.pendingLogin with
  | false =>
      rw [hpending] at h
      cases h
      exact .inl ⟨rfl, rfl⟩
  | true =>
      rw [hpending, if_pos rfl] at h
      exact .inr ⟨rfl, h⟩

theorem finish_ok {callback : Purpose → MobileProgram}
    (h : finish id callback c = .ok (c', out)) :
    (c.invocations[id]? = none ∧ c' = c) ∨
      ∃ invocation, c.invocations[id]? = some invocation ∧
        callback invocation.purpose (c.received id) = .ok (c', out) := by
  unfold finish at h
  split at h
  · rename_i hnone
    cases h
    exact .inl ⟨hnone, rfl⟩
  · rename_i invocation hsome
    exact .inr ⟨invocation, hsome, h⟩

end Replies

section Effect

variable {β : Type}

def userOperation : MobileEvent β → Option (UserModel → UserModel × List UserModelSignal)
  | .selectCurrentUser userName => some fun m => (m.selectCurrentUser userName).1
  | .unselectCurrentUser => some UserModel.unselectCurrentUser
  | .setUser userInfo => some fun m => m.setUser userInfo
  | _ => none

def withUser (operation : UserModel → UserModel × List UserModelSignal) (c : MobileClient) :
    MobileClient := { c with userModel := (operation c.userModel).1 }

def changesUserName (operation : UserModel → UserModel × List UserModelSignal)
    (c : MobileClient) : Bool :=
  (operation c.userModel).2.contains .currentUserNameChanged

def finishedInvocation : MobileEvent β → Option Nat
  | .finishedOK id _ => some id
  | .finishedError id _ => some id
  | _ => none

theorem userOperation_finished {l : MobileEvent β} {id : Nat}
    (hl : finishedInvocation l = some id) : userOperation l = none := by
  cases l with
  | finishedOK id data => rfl
  | finishedError id message => rfl
  | _ => cases hl

variable [QByteArray β]

def acceptedReply : MobileEvent β → Option JsonObject
  | .finishedOK _ data => acceptedDocument data
  | _ => none

def IsTestUser (userName : String) : Prop := userName = "fail" ∨ userName = "login"

instance (userName : String) : Decidable (IsTestUser userName) :=
  inferInstanceAs (Decidable (_ ∨ _))

inductive Effect (c : MobileClient) :
    MobileEvent β → List MobileOutput → MobileClient → Prop
  | testLogin {userName : String} {out : List MobileOutput} (loggedIn : Bool) :
      c.currentUserName = .ok userName → IsTestUser userName →
      Effect c .login out (c.withLogin { c.loginModel with loggedIn := loggedIn })
  | loginLater {userName : String} {out : List MobileOutput} :
      c.currentUserName = .ok userName → ¬ IsTestUser userName →
      c.loginModel.loggedIn = true →
      Effect c .login out (c.withLogin { c.loginModel with pendingLogin := true }).loggingOut
  | loginNow {userName : String} {out : List MobileOutput} {c' : MobileClient} :
      c.currentUserName = .ok userName → ¬ IsTestUser userName →
      c.loginModel.loggedIn = false → doLogin c = .ok (c', out) → Effect c .login out c'
  | logout {out : List MobileOutput} : Effect c .logout out c.loggingOut
  | userKept {l : MobileEvent β} {out : List MobileOutput}
      {operation : UserModel → UserModel × List UserModelSignal} :
      userOperation l = some operation → c.changesUserName operation = false →
      Effect c l out (c.withUser operation)
  | userChanged {l : MobileEvent β} {out : List MobileOutput}
      {operation : UserModel → UserModel × List UserModelSignal} :
      userOperation l = some operation → c.changesUserName operation = true →
      Effect c l out (c.withUser operation).loggingOut
  | finishedBefore {l : MobileEvent β} {out : List MobileOutput} {id : Nat} :
      finishedInvocation l = some id → c.invocations[id]? = none → Effect c l out c
  | loginRefused {l : MobileEvent β} {out : List MobileOutput} {id : Nat}
      {invocation : RESTInvocation} :
      finishedInvocation l = some id → c.invocations[id]? = some invocation →
      invocation.purpose = .login → acceptedReply l = none →
      Effect c l out ((c.received id).withLogin { c.loginModel with loggedIn := false })
  | loginAccepted {l : MobileEvent β} {out : List MobileOutput} {id : Nat}
      {invocation : RESTInvocation} {json : JsonObject} {email : String} :
      finishedInvocation l = some id → c.invocations[id]? = some invocation →
      invocation.purpose = .login → acceptedReply l = some json →
      c.currentEmail = .ok email → Effect c l out ((c.received id).loggedIn json email)
  | logoutFinished {l : MobileEvent β} {id : Nat} {invocation : RESTInvocation}
      {signals out : List MobileOutput} {c' : MobileClient} :
      finishedInvocation l = some id → c.invocations[id]? = some invocation →
      invocation.purpose = .logout →
      doPendingLogin (c.received id).loggedOut = .ok (c', out) →
      Effect c l (signals ++ out) c'
  | restart {out : List MobileOutput} {c' : MobileClient} :
      MobileClient.restart c = .ok (c', out) → Effect c .restart out c'

variable {l : MobileEvent β}

theorem effect_login (h : login c = .ok (c', out)) :
    Effect c (.login : MobileEvent β) out c' := by
  obtain ⟨userName, hname, ⟨hfail, rfl⟩ | ⟨hlogin, rfl⟩ | ⟨hfail, hlogin, hrest⟩⟩ := login_ok h
  · exact .testLogin false hname (.inl hfail)
  · exact .testLogin true hname (.inr hlogin)
  · have hreal : ¬ IsTestUser userName := not_or.mpr ⟨hfail, hlogin⟩
    split at hrest
    · rename_i hlogged
      rw [hrest]
      exact .loginLater hname hreal hlogged
    · rename_i hlogged
      exact .loginNow hname hreal (Bool.eq_false_iff.mpr hlogged) hrest

theorem effect_changeUser {operation : UserModel → UserModel × List UserModelSignal}
    (hl : userOperation l = some operation) (h : changeUser operation c = .ok (c', out)) :
    Effect c l out c' := by
  have hc' := changeUser_ok h
  by_cases hname : .currentUserNameChanged ∈ (operation c.userModel).2
  · rw [if_pos hname] at hc'
    rw [hc']
    exact .userChanged hl (List.contains_iff_mem.mpr hname)
  · rw [if_neg hname] at hc'
    rw [hc']
    refine .userKept hl ?_
    simpa [changesUserName] using hname

theorem effect_finish {id : Nat} {callback : Purpose → MobileProgram}
    (hl : finishedInvocation l = some id)
    (hrefused : acceptedReply l = none →
      ∃ errorString, callback .login = loginInvocationFinishedError errorString)
    (haccepted : ∀ json, acceptedReply l = some json → ∀ {c c' out},
      callback .login c = .ok (c', out) →
        ∃ email, c.currentEmail = .ok email ∧ c' = c.loggedIn json email)
    (hlogout : ∀ {c c' out}, callback .logout c = .ok (c', out) →
      ∃ signals out', out = signals ++ out' ∧ doPendingLogin c.loggedOut = .ok (c', out'))
    (h : finish id callback c = .ok (c', out)) : Effect c l out c' := by
  rcases finish_ok h with ⟨hgone, rfl⟩ | ⟨invocation, hthere, hcallback⟩
  · exact .finishedBefore hl hgone
  cases hpurpose : invocation.purpose with
  | login =>
      rw [hpurpose] at hcallback
      cases hreply : acceptedReply l with
      | none =>
          obtain ⟨errorString, hcallback'⟩ := hrefused hreply
          rw [hcallback'] at hcallback
          rw [loginInvocationFinishedError_ok hcallback]
          exact .loginRefused hl hthere hpurpose hreply
      | some json =>
          obtain ⟨email, hemail, rfl⟩ := haccepted json hreply hcallback
          exact .loginAccepted hl hthere hpurpose hreply hemail
  | logout =>
      rw [hpurpose] at hcallback
      obtain ⟨signals, out', rfl, hlogin⟩ := hlogout hcallback
      exact .logoutFinished hl hthere hpurpose hlogin

theorem effect_of_ok (h : handle l c = .ok (c', out)) : Effect c l out c' := by
  cases l with
  | login => exact effect_login h
  | logout =>
      obtain ⟨out', hrun⟩ := logout_eq c
      cases h.symm.trans hrun
      exact .logout
  | selectCurrentUser userName =>
      simp only [handle] at h
      exact effect_changeUser rfl h
  | unselectCurrentUser =>
      simp only [handle] at h
      exact effect_changeUser rfl h
  | setUser userInfo =>
      simp only [handle] at h
      exact effect_changeUser rfl h
  | finishedOK id data =>
      refine effect_finish rfl ?_ ?_ ?_ h
      · exact loginInvocationFinishedOk_rejected
      · intro json hdata c c' out hlogin
        exact loginInvocationFinishedOk_accepted hdata hlogin
      · exact logoutInvocationFinishedOk_ok
  | finishedError id message =>
      refine effect_finish rfl ?_ ?_ ?_ h
      · exact fun _ => ⟨message, rfl⟩
      · intro json hnone
        cases hnone
      · exact logoutInvocationFinishedError_ok
  | restart => exact .restart h

end Effect

end MobileClient

end GBerry.Mobile
