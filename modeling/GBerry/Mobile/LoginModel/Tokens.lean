import GBerry.Mobile.LoginModel.Steps

/-!
# Whose tokens they are

The tokens that are reported and stored come from the last login request that was
answered with `ok`, or from the file that was there at the start.  A reply is
attributed to the user that is current when it arrives.
-/

namespace GBerry.Mobile

open GBerry.Foundation GBerry.Common

structure Credentials where
  email : String
  userToken : String
  privateToken : String
  deriving DecidableEq

def Credentials.HasToken (k : Credentials) : Prop := k.userToken ≠ "" ∨ k.privateToken ≠ ""

instance (k : Credentials) : Decidable k.HasToken := inferInstanceAs (Decidable (_ ∨ _))

namespace LoginModel

def reported (m : LoginModel) : Credentials :=
  ⟨m.currentUserEmail, m.currentUserToken, m.currentPrivateToken⟩

def stored (m : LoginModel) : Credentials :=
  ⟨m.ini.value USEREMAIL_KEY, m.ini.value USERTOKEN_KEY, m.ini.value PRIVATETOKEN_KEY⟩

theorem stored_saveData (m : LoginModel) : (saveData m).stored = m.reported := by
  simp [stored, saveData, reported, QSettings.value_setValue, USEREMAIL_KEY, USERTOKEN_KEY,
    PRIVATETOKEN_KEY]

theorem stored_ensureVersion (ini : QSettings) :
    (initial (ensureVersion ini)).stored = (initial ini).stored := by
  simp only [stored, initial, ensureVersion]
  split
  · rfl
  · simp [QSettings.value_setValue, FILE_VERSION_KEY, USEREMAIL_KEY, USERTOKEN_KEY,
      PRIVATETOKEN_KEY]

theorem construct_ok {userModel : UserModel} {ini : QSettings} {m : LoginModel}
    (h : construct userModel ini = .ok m) :
    m.stored = (initial ini).stored ∧
      ((m.loggedIn = false ∧ ¬ m.reported.HasToken) ∨
        (m.loggedIn = true ∧ m.reported = m.stored ∧
          userModel.currentEmail = .ok m.stored.email)) := by
  have hinitial : ∀ ini' : QSettings, ¬ (initial ini').reported.HasToken := by
    intro ini'
    simp [reported, initial, Credentials.HasToken]
  unfold construct at h
  split at h
  · dsimp only at h
    split at h
    · split at h
      · cases h
      · rename_i email hemail
        split at h
        · cases h
          exact ⟨stored_ensureVersion ini, .inl ⟨rfl, hinitial _⟩⟩
        · split at h
          · rename_i hsame
            cases h
            refine ⟨stored_ensureVersion ini, .inr ⟨rfl, rfl, ?_⟩⟩
            rw [hemail, hsame]
            rfl
          · cases h
            exact ⟨stored_ensureVersion ini, .inl ⟨rfl, hinitial _⟩⟩
    · cases h
      exact ⟨stored_ensureVersion ini, .inl ⟨rfl, hinitial _⟩⟩
  · cases h
    exact ⟨rfl, .inl ⟨rfl, hinitial _⟩⟩

end LoginModel

def requestEmail (invocation : RESTInvocation) : String :=
  match invocation.operation with
  | .post _ document => (JsonObject.value document "email").toString
  | .get _ _ => ""

def answerTo (invocation : RESTInvocation) (json : JsonObject) : Credentials :=
  ⟨requestEmail invocation, (JsonObject.value json "user_token").toString,
    (JsonObject.value json "private_token").toString⟩

namespace MobileClient

/-- What is reported and stored comes from the answer. -/
structure TokensBelong (answer : Credentials) (c : MobileClient) : Prop where
  reported : c.loginModel.reported.HasToken → c.loginModel.reported = answer
  stored : c.loginModel.stored.HasToken → c.loginModel.stored = answer
  restarted : ∀ c' out, restart c = .ok (c', out) → c'.loginModel.loggedIn = true →
    c'.loginModel.reported.HasToken →
      c'.loginModel.reported = answer ∧ c'.currentEmail = .ok answer.email

structure Carries (c c' : MobileClient) : Prop where
  reported : c'.loginModel.reported.HasToken →
    c'.loginModel.reported = c.loginModel.reported ∨ c'.loginModel.reported = c.loginModel.stored
  stored : c'.loginModel.stored.HasToken → c'.loginModel.stored = c.loginModel.stored

section Carrying

variable {c c' : MobileClient} {out : List MobileOutput}

theorem restart_reported (h : restart c = .ok (c', out)) :
    (c'.loginModel.loggedIn = false ∧ ¬ c'.loginModel.reported.HasToken) ∨
      (c'.loginModel.reported = c.loginModel.stored ∧
        c'.currentEmail = .ok c.loginModel.stored.email) := by
  have hconstruct := (restart_ok h).2
  obtain ⟨hstored, hreported⟩ := LoginModel.construct_ok hconstruct
  have hfile : c'.loginModel.stored = c.loginModel.stored := hstored
  rw [hfile] at hreported
  exact hreported.imp_right fun hloaded => hloaded.2

theorem tokensBelong_iff {answer : Credentials} : TokensBelong answer c ↔
    (c.loginModel.reported.HasToken → c.loginModel.reported = answer) ∧
      (c.loginModel.stored.HasToken → c.loginModel.stored = answer) := by
  constructor
  · intro h
    exact ⟨h.reported, h.stored⟩
  · rintro ⟨hreported, hstored⟩
    refine ⟨hreported, hstored, fun c' out hrestart _ htoken => ?_⟩
    rcases restart_reported hrestart with ⟨-, hnone⟩ | ⟨hsame, hemail⟩
    · exact absurd htoken hnone
    · rw [hsame] at htoken ⊢
      rw [hemail, hstored htoken]
      exact ⟨rfl, rfl⟩

theorem Carries.tokensBelong {answer : Credentials} (h : Carries c c')
    (hbelong : TokensBelong answer c) : TokensBelong answer c' := by
  rw [tokensBelong_iff] at hbelong ⊢
  obtain ⟨hreported, hstored⟩ := hbelong
  constructor
  · intro htoken
    rcases h.reported htoken with hsame | hsame
    · rw [hsame] at htoken ⊢
      exact hreported htoken
    · rw [hsame] at htoken ⊢
      exact hstored htoken
  · intro htoken
    have hsame := h.stored htoken
    rw [hsame] at htoken ⊢
    exact hstored htoken

theorem Carries.of_eq (hreported : c'.loginModel.reported = c.loginModel.reported)
    (hstored : c'.loginModel.stored = c.loginModel.stored) : Carries c c' :=
  ⟨fun _ => .inl hreported, fun _ => hstored⟩

theorem cleared_no_tokens (c : MobileClient) : ¬ c.cleared.loginModel.reported.HasToken ∧
    ¬ c.cleared.loginModel.stored.HasToken := by
  have hreported : ¬ c.cleared.loginModel.reported.HasToken := by
    simp [cleared, withLogin, LoginModel.reported, LoginModel.saveData, Credentials.HasToken]
  refine ⟨hreported, ?_⟩
  rw [cleared, withLogin, LoginModel.stored_saveData]
  exact hreported

theorem Carries.loggingOut (h : Carries c c') : Carries c c'.loggingOut := by
  obtain ⟨hreported, hstored⟩ := cleared_no_tokens c'
  unfold MobileClient.loggingOut
  split
  · split
    · exact ⟨fun htoken => absurd htoken hreported, fun htoken => absurd htoken hstored⟩
    · exact ⟨fun htoken => absurd htoken hreported, fun htoken => absurd htoken hstored⟩
  · exact h

theorem Carries.doLogin (h : doLogin c = .ok (c', out)) : Carries c c' := by
  obtain ⟨email, password, -, -, rfl, -⟩ := doLogin_ok h
  exact .of_eq rfl rfl

theorem Carries.doPendingLogin (h : doPendingLogin c.loggedOut = .ok (c', out)) :
    Carries c c' := by
  rcases doPendingLogin_ok h with ⟨-, rfl⟩ | ⟨-, hlogin⟩
  · exact .of_eq rfl rfl
  · obtain ⟨email, password, -, -, rfl, -⟩ := doLogin_ok hlogin
    exact .of_eq rfl rfl

theorem Carries.restart (h : restart c = .ok (c', out)) : Carries c c' := by
  have hconstruct := (restart_ok h).2
  obtain ⟨hstored, hreported⟩ := LoginModel.construct_ok hconstruct
  refine ⟨fun htoken => ?_, fun _ => hstored⟩
  rcases hreported with ⟨-, hnone⟩ | ⟨-, hsame, -⟩
  · exact absurd htoken hnone
  · exact .inr (hsame.trans hstored)

end Carrying

section History

variable {β : Type} [QByteArray β]

def answered (st : MobileStep β) : Option Credentials :=
  match finishedInvocation st.label, acceptedReply st.label with
  | some id, some json =>
      match st.pre.invocations[id]? with
      | some invocation =>
          if invocation.purpose = .login then some (answerTo invocation json) else none
      | none => none
  | _, _ => none

def lastAnswer (saved : Credentials) : List (MobileStep β) → Credentials
  | [] => saved
  | st :: older => (answered st).getD (lastAnswer saved older)

/-- A reply with a token arrives while the user who asked for it is current. -/
def AnswersCurrentUser (st : MobileStep β) : Prop :=
  ∀ answer ∈ answered st, answer.HasToken → st.pre.currentEmail = .ok answer.email

instance (st : MobileStep β) : Decidable (AnswersCurrentUser st) :=
  inferInstanceAs (Decidable (∀ answer ∈ answered st, _))

variable {c c' : MobileClient} {out : List MobileOutput} {l : MobileEvent β}

theorem answered_user {operation : UserModel → UserModel × List UserModelSignal}
    (hl : userOperation l = some operation) :
    answered (⟨c, l, out, c'⟩ : MobileStep β) = none := by
  cases l with
  | finishedOK id data => cases hl
  | _ => rfl

theorem answered_not_login {id : Nat} (hl : finishedInvocation l = some id)
    (hnot : ∀ invocation, c.invocations[id]? = some invocation → invocation.purpose ≠ .login) :
    answered (⟨c, l, out, c'⟩ : MobileStep β) = none := by
  cases hreply : acceptedReply l with
  | none => simp only [answered, hl, hreply]
  | some json =>
      cases hthere : c.invocations[id]? with
      | none => simp only [answered, hl, hreply, hthere]
      | some invocation =>
          simp only [answered, hl, hreply, hthere, if_neg (hnot invocation hthere)]

theorem answered_login {id : Nat} {invocation : RESTInvocation} {json : JsonObject}
    (hl : finishedInvocation l = some id) (hthere : c.invocations[id]? = some invocation)
    (hlogin : invocation.purpose = .login) (hreply : acceptedReply l = some json) :
    answered (⟨c, l, out, c'⟩ : MobileStep β) = some (answerTo invocation json) := by
  simp only [answered, hl, hreply, hthere, hlogin, if_true]

theorem carries_of_not_answered (h : Effect c l out c')
    (hnone : answered (⟨c, l, out, c'⟩ : MobileStep β) = none) : Carries c c' := by
  cases h with
  | testLogin => exact .of_eq rfl rfl
  | loginLater =>
      refine Carries.loggingOut ?_
      exact .of_eq rfl rfl
  | loginNow _ _ _ hlogin => exact .doLogin hlogin
  | logout =>
      refine Carries.loggingOut ?_
      exact .of_eq rfl rfl
  | userKept => exact .of_eq rfl rfl
  | userChanged =>
      refine Carries.loggingOut ?_
      exact .of_eq rfl rfl
  | finishedBefore => exact .of_eq rfl rfl
  | loginRefused => exact .of_eq rfl rfl
  | loginAccepted hl hthere hlogin hreply =>
      rw [answered_login hl hthere hlogin hreply] at hnone
      cases hnone
  | logoutFinished _ _ _ hlogin =>
      have hcarries := Carries.doPendingLogin hlogin
      exact ⟨hcarries.reported, hcarries.stored⟩
  | restart hrestart => exact .restart hrestart

theorem answered_ok {answer : Credentials} (h : Effect c l out c')
    (hanswer : answered (⟨c, l, out, c'⟩ : MobileStep β) = some answer) :
    ∃ email, c.currentEmail = .ok email ∧
      c'.loginModel.reported = { answer with email := email } ∧
      c'.loginModel.stored = { answer with email := email } := by
  cases h with
  | loginAccepted hl hthere hlogin hreply hemail =>
      rw [answered_login hl hthere hlogin hreply] at hanswer
      cases hanswer
      exact ⟨_, hemail, rfl, LoginModel.stored_saveData _⟩
  | userKept hl => simp [answered_user hl] at hanswer
  | userChanged hl => simp [answered_user hl] at hanswer
  | finishedBefore hl hgone =>
      rw [answered_not_login hl fun invocation hthere => by simp [hgone] at hthere] at hanswer
      cases hanswer
  | loginRefused hl hthere hlogin hreply => simp [answered, hl, hreply] at hanswer
  | logoutFinished hl hthere hlogout =>
      rw [answered_not_login hl fun invocation hthere' => ?_] at hanswer
      · cases hanswer
      · cases hthere.symm.trans hthere'
        simp [hlogout]
  | _ => cases hanswer

theorem tokensBelong_answered {answer : Credentials} (h : Effect c l out c')
    (hanswer : answered (⟨c, l, out, c'⟩ : MobileStep β) = some answer) :
    TokensBelong answer c' ↔ AnswersCurrentUser (⟨c, l, out, c'⟩ : MobileStep β) := by
  obtain ⟨email, hemail, hreported, hstored⟩ := answered_ok h hanswer
  rw [tokensBelong_iff, hreported, hstored, and_self]
  constructor
  · intro hbelong answer' hanswer' htoken
    cases hanswer.symm.trans hanswer'
    have hsame := congrArg Credentials.email (hbelong htoken)
    exact hemail.trans (congrArg Except.ok hsame)
  · intro hcurrent htoken
    have hsame : c.currentEmail = .ok answer.email := hcurrent answer hanswer htoken
    cases hemail.symm.trans hsame
    rfl

variable {init s : MobileClient} {history : List (MobileStep β)}

/--
Tokens belong to their user throughout a run exactly when no answer arrives while
another user is current.
-/
theorem tokens_belong_iff {userModel : UserModel} {ini : QSettings}
    (hstart : start userModel ini = .ok init)
    (h : Execution (machine β init) history s) :
    Execution.Always (machine β init)
        (fun history s => TokensBelong (lastAnswer init.loginModel.stored history) s) history ↔
      ∀ st ∈ history, AnswersCurrentUser st := by
  refine Execution.always_iff ?_ ?_ h
  · have hconstruct := (start_ok hstart).2.1
    refine tokensBelong_iff.mpr ⟨fun htoken => ?_, fun _ => rfl⟩
    obtain ⟨-, ⟨-, hnone⟩ | ⟨-, hsame, -⟩⟩ := LoginModel.construct_ok hconstruct
    · exact absurd htoken hnone
    · exact hsame
  · intro history s s' l out _ hbelong hstep
    cases hanswer : answered (⟨s, l, out, s'⟩ : MobileStep β) with
    | none =>
        refine iff_of_true ?_ ?_
        · rw [lastAnswer, hanswer, Option.getD_none]
          exact (carries_of_not_answered (effect_of_ok hstep) hanswer).tokensBelong hbelong
        · intro answer hsome
          rw [hanswer] at hsome
          cases hsome
    | some answer =>
        rw [lastAnswer, hanswer, Option.getD_some]
        exact tokensBelong_answered (effect_of_ok hstep) hanswer

end History

def twoUsers : UserModel where
  ini := ⟨false, ∅⟩
  users := [⟨"ada", "ada@mail", "first", false, false⟩, ⟨"bob", "bob@mail", "second", false, false⟩]
  activeUserIndex := 0
  cachedUser := UserInfo.initial

def fresh (userModel : UserModel) : MobileClient where
  userModel := userModel
  loginModel := LoginModel.initial ⟨false, ∅⟩
  invocations := ∅
  made := 0

def okReply : Text :=
  .document [("private_token", .string "abcd"), ("result", .string "ok"),
    ("user_token", .string "1234")]

theorem tokens_belong_iff_answered :
    ∃ history s, Execution (machine Text (fresh twoUsers)) history s ∧
      s.loginModel.stored = ⟨"ada@mail", "1234", "abcd"⟩ ∧
      Execution.Always (machine Text (fresh twoUsers))
        (fun history s =>
          TokensBelong (lastAnswer (fresh twoUsers).loginModel.stored history) s) history := by
  obtain ⟨history, s, hrun, hcheck⟩ : ∃ history s,
      (machine Text (fresh twoUsers)).run [.login, .finishedOK 0 okReply] = .ok (history, s) ∧
        (decide (s.loginModel.stored = ⟨"ada@mail", "1234", "abcd"⟩) &&
          history.all fun st => decide (AnswersCurrentUser st)) = true :=
    Machine.exists_run (by decide +kernel)
  simp only [Bool.and_eq_true, decide_eq_true_eq, List.all_eq_true] at hcheck
  have hexec := Machine.run_execution hrun
  have hstart : start twoUsers ⟨false, ∅⟩ = .ok (fresh twoUsers) := rfl
  exact ⟨history, s, hexec, hcheck.1, (tokens_belong_iff hstart hexec).mpr hcheck.2⟩

/-- The user is switched while the login is in flight, and the application starts again. -/
theorem switched_user_has_tokens :
    ∃ history s, start twoUsers ⟨false, ∅⟩ = .ok (fresh twoUsers) ∧
      Execution (machine Text (fresh twoUsers)) history s ∧
      lastAnswer (fresh twoUsers).loginModel.stored history = ⟨"ada@mail", "1234", "abcd"⟩ ∧
      s.loginModel.loggedIn = true ∧ s.currentEmail = .ok "bob@mail" ∧
      s.loginModel.reported = ⟨"bob@mail", "1234", "abcd"⟩ ∧
      ¬ TokensBelong (lastAnswer (fresh twoUsers).loginModel.stored history) s := by
  obtain ⟨history, s, hrun, hcheck⟩ : ∃ history s,
      (machine Text (fresh twoUsers)).run
        [.login, .selectCurrentUser "bob", .finishedOK 0 okReply, .restart] =
          .ok (history, s) ∧
        decide (lastAnswer (fresh twoUsers).loginModel.stored history =
            ⟨"ada@mail", "1234", "abcd"⟩ ∧
          s.loginModel.loggedIn = true ∧ s.currentEmail = .ok "bob@mail" ∧
          s.loginModel.reported = ⟨"bob@mail", "1234", "abcd"⟩) = true :=
    Machine.exists_run (by decide +kernel)
  rw [decide_eq_true_eq] at hcheck
  obtain ⟨hanswer, hlogged, hemail, hreported⟩ := hcheck
  refine ⟨history, s, rfl, Machine.run_execution hrun, hanswer, hlogged, hemail, hreported, ?_⟩
  intro hbelong
  have hsame := hbelong.reported (by rw [hreported]; decide)
  rw [hanswer, hreported] at hsame
  exact absurd hsame (by decide)

end MobileClient

end GBerry.Mobile
