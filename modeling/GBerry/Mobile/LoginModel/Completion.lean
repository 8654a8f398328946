import GBerry.Mobile.LoginModel.Tokens

/-!
# A logout that is pending comes to an end

While a logout is pending, no other one begins, and a login waits for it.  So
somebody has to answer: a logout that is pending must have an invocation in flight.
-/

namespace GBerry.Mobile

open GBerry.Foundation GBerry.Common

namespace MobileClient

def IsLogout (c : MobileClient) (id : Nat) : Prop :=
  ∃ invocation, c.invocations[id]? = some invocation ∧ invocation.purpose = .logout

def LogoutInFlight (c : MobileClient) : Prop := ∃ id, c.IsLogout id

structure Waiting (c : MobileClient) : Prop where
  logout : c.loginModel.pendingLogout = true → c.LogoutInFlight
  login : c.loginModel.pendingLogin = true → c.LogoutInFlight

structure OneLogout (c : MobileClient) : Prop where
  fresh : ∀ id ∈ c.invocations, id < c.made
  pending : ∀ id, c.IsLogout id → c.loginModel.pendingLogout = true
  unique : ∀ id id', c.IsLogout id → c.IsLogout id' → id = id'

section Invocations

variable {c : MobileClient} {id k : Nat} {invocation : RESTInvocation}

theorem isLogout_sent (hfresh : ∀ id ∈ c.invocations, id < c.made) :
    (c.sent invocation).IsLogout id ↔
      c.IsLogout id ∨ (id = c.made ∧ invocation.purpose = .logout) := by
  simp only [IsLogout, sent, QMap.getElem?_insert]
  by_cases hid : id = c.made
  · subst hid
    have hnone : c.invocations[c.made]? = none := by
      rw [← QMap.notMem_iff]
      intro hmem
      exact absurd (hfresh _ hmem) (Nat.lt_irrefl _)
    simp [hnone]
  · simp [hid]

theorem isLogout_received :
    (c.received k).IsLogout id ↔ id ≠ k ∧ c.IsLogout id := by
  simp only [IsLogout, received, QMap.getElem?_erase]
  by_cases hid : id = k
  · simp [hid]
  · simp [hid]

theorem LogoutInFlight.sent (hone : OneLogout c) (h : c.LogoutInFlight) :
    (c.sent invocation).LogoutInFlight := by
  obtain ⟨id, hid⟩ := h
  exact ⟨id, (isLogout_sent hone.fresh).mpr (.inl hid)⟩

theorem LogoutInFlight.received (hthere : c.invocations[k]? = some invocation)
    (hlogin : invocation.purpose = .login) (h : c.LogoutInFlight) :
    (c.received k).LogoutInFlight := by
  obtain ⟨id, hid⟩ := h
  refine ⟨id, isLogout_received.mpr ⟨?_, hid⟩⟩
  rintro rfl
  obtain ⟨invocation', hsame, hlogout⟩ := hid
  cases hthere.symm.trans hsame
  rw [hlogin] at hlogout
  cases hlogout

end Invocations

section Invariant

variable {c c' : MobileClient} {out : List MobileOutput} {id : Nat}
  {invocation : RESTInvocation}

theorem OneLogout.withLogin {m : LoginModel} (h : OneLogout c)
    (hkeep : c.loginModel.pendingLogout = true → m.pendingLogout = true) :
    OneLogout (c.withLogin m) := by
  refine ⟨h.fresh, fun id hid => ?_, h.unique⟩
  exact hkeep (h.pending id hid)

theorem OneLogout.received (h : OneLogout c) : OneLogout (c.received id) := by
  refine ⟨fun k hk => ?_, fun k hk => ?_, fun k k' hk hk' => ?_⟩
  · exact h.fresh k ((QMap.mem_erase_iff _ _ _).mp hk).2
  · exact h.pending k (isLogout_received.mp hk).2
  · exact h.unique k k' (isLogout_received.mp hk).2 (isLogout_received.mp hk').2

theorem fresh_sent (hfresh : ∀ id ∈ c.invocations, id < c.made) :
    ∀ id ∈ (c.sent invocation).invocations, id < (c.sent invocation).made := by
  intro id hid
  have hmade : (c.sent invocation).made = c.made + 1 := rfl
  rw [sent, QMap.mem_insert_iff] at hid
  rcases hid with rfl | hid
  · omega
  · have hlt := hfresh id hid
    omega

theorem OneLogout.sent_login (h : OneLogout c) (hlogin : invocation.purpose = .login) :
    OneLogout (c.sent invocation) := by
  have hsame : ∀ id, (c.sent invocation).IsLogout id → c.IsLogout id := by
    intro id hid
    rcases (isLogout_sent h.fresh).mp hid with hid | ⟨-, hlogout⟩
    · exact hid
    · rw [hlogin] at hlogout
      cases hlogout
  refine ⟨fresh_sent h.fresh, fun id hid => h.pending id (hsame id hid), ?_⟩
  intro id id' hid hid'
  exact h.unique id id' (hsame id hid) (hsame id' hid')

theorem OneLogout.sent_logout (h : OneLogout c) (hnone : ¬ c.LogoutInFlight)
    (hpending : c.loginModel.pendingLogout = true) : OneLogout (c.sent invocation) := by
  have hmade : ∀ id, (c.sent invocation).IsLogout id → id = c.made := by
    intro id hid
    rcases (isLogout_sent h.fresh).mp hid with hid | ⟨hid, -⟩
    · exact absurd ⟨id, hid⟩ hnone
    · exact hid
  refine ⟨fresh_sent h.fresh, fun _ _ => hpending, ?_⟩
  intro id id' hid hid'
  rw [hmade id hid, hmade id' hid']

theorem begins_not_inFlight (h : OneLogout c) (hbegins : c.beginsLogout = true) :
    ¬ c.LogoutInFlight := by
  rintro ⟨id, hid⟩
  have hpending := h.pending id hid
  simp [beginsLogout, hpending] at hbegins

theorem OneLogout.loggingOut (h : OneLogout c) : OneLogout c.loggingOut := by
  unfold MobileClient.loggingOut
  split
  · rename_i hbegins
    have hcleared : OneLogout c.cleared := h.withLogin fun _ => rfl
    have hnone : ¬ c.cleared.LogoutInFlight := begins_not_inFlight (c := c) h hbegins
    split
    · exact hcleared
    · exact hcleared.sent_logout hnone rfl
  · exact h

theorem OneLogout.doLogin (h : OneLogout c) (hlogin : doLogin c = .ok (c', out)) :
    OneLogout c' := by
  obtain ⟨email, password, -, -, rfl, -⟩ := doLogin_ok hlogin
  exact OneLogout.sent_login (h.withLogin id) rfl

theorem OneLogout.answered (h : OneLogout c) (hthere : c.invocations[id]? = some invocation)
    (hlogout : invocation.purpose = .logout)
    (hlogin : doPendingLogin (c.received id).loggedOut = .ok (c', out)) : OneLogout c' := by
  have hnone : ∀ k, ¬ (c.received id).IsLogout k := by
    intro k hk
    obtain ⟨hne, hk⟩ := isLogout_received.mp hk
    exact hne (h.unique k id hk ⟨invocation, hthere, hlogout⟩)
  have hone : OneLogout (c.received id).loggedOut :=
    ⟨h.received.fresh, fun k hk => absurd hk (hnone k), fun k _ hk => absurd hk (hnone k)⟩
  rcases doPendingLogin_ok hlogin with ⟨-, rfl⟩ | ⟨-, hlogin⟩
  · exact hone
  · exact hone.doLogin hlogin

theorem oneLogout_of_empty (h : c.invocations = ∅) : OneLogout c := by
  have hnot : ∀ id, ¬ c.IsLogout id := by
    rintro id ⟨invocation, hthere, -⟩
    simp [h] at hthere
  refine ⟨fun id hid => ?_, fun id hid => absurd hid (hnot id), fun id _ hid => ?_⟩
  · simp [h] at hid
  · exact absurd hid (hnot id)

theorem waiting_constructed {userModel : UserModel} {ini : QSettings}
    (h : LoginModel.construct userModel ini = .ok c.loginModel) : Waiting c := by
  obtain ⟨hlogin, hlogout⟩ := LoginModel.construct_pending h
  refine ⟨fun hwaits => ?_, fun hwaits => ?_⟩
  · rw [hlogout] at hwaits
    cases hwaits
  · rw [hlogin] at hwaits
    cases hwaits

end Invariant

section Steps

variable {β : Type} {c c' : MobileClient} {out : List MobileOutput} {l : MobileEvent β}

/-- The step asks for a logout: the call itself, a login, or a change of the current user. -/
def asksLogout (st : MobileStep β) : Bool :=
  match st.label with
  | .logout => true
  | .login =>
      match st.pre.currentUserName with
      | .ok userName => !decide (IsTestUser userName)
      | .error _ => false
  | l =>
      match userOperation l with
      | some operation => st.pre.changesUserName operation
      | none => false

/-- A logout that begins has a private token to send. -/
def HasTokenToLogOut (st : MobileStep β) : Prop :=
  asksLogout st = true → st.pre.beginsLogout = true → st.pre.loginModel.currentPrivateToken ≠ ""

instance (st : MobileStep β) : Decidable (HasTokenToLogOut st) :=
  inferInstanceAs (Decidable (_ → _ → _))

/-- Without a token to send, a logout that begins is pending for ever. -/
theorem waiting_loggingOut (hone : OneLogout c)
    (hlogout : c.loginModel.pendingLogout = true → c.LogoutInFlight)
    (hlogin : c.loginModel.pendingLogin = true →
      c.loginModel.loggedIn = true ∨ c.LogoutInFlight) :
    Waiting c.loggingOut ↔
      (c.beginsLogout = true → c.loginModel.currentPrivateToken ≠ "") := by
  cases hbegins : c.beginsLogout with
  | false =>
      rw [loggingOut_of_not_begins hbegins]
      refine iff_of_true ⟨hlogout, fun hpending => ?_⟩ (fun h => by cases h)
      rcases hlogin hpending with hlogged | hflight
      · apply hlogout
        simpa [beginsLogout, hlogged] using hbegins
      · exact hflight
  | true =>
      have hnone := begins_not_inFlight hone hbegins
      simp only [forall_const]
      constructor
      · intro hwaiting htoken
        have hcleared : c.loggingOut = c.cleared := by
          rw [loggingOut, hbegins, if_pos rfl, if_pos htoken]
        rw [hcleared] at hwaiting
        exact hnone (hwaiting.logout rfl)
      · intro htoken
        have hflight : c.loggingOut.LogoutInFlight := by
          rw [loggingOut, hbegins, if_pos rfl, if_neg htoken]
          exact ⟨c.made, (isLogout_sent hone.fresh).mpr (.inr ⟨rfl, rfl⟩)⟩
        exact ⟨fun _ => hflight, fun _ => hflight⟩

theorem asksLogout_user {operation : UserModel → UserModel × List UserModelSignal}
    (hl : userOperation l = some operation) :
    asksLogout (⟨c, l, out, c'⟩ : MobileStep β) = c.changesUserName operation := by
  cases l with
  | selectCurrentUser userName => cases hl; rfl
  | unselectCurrentUser => cases hl; rfl
  | setUser userInfo => cases hl; rfl
  | _ => cases hl

theorem asksLogout_finished {id : Nat} (hl : finishedInvocation l = some id) :
    asksLogout (⟨c, l, out, c'⟩ : MobileStep β) = false := by
  cases l with
  | finishedOK id data => rfl
  | finishedError id message => rfl
  | _ => cases hl

theorem asksLogout_login {userName : String} (hname : c.currentUserName = .ok userName) :
    asksLogout (⟨c, .login, out, c'⟩ : MobileStep β) = !decide (IsTestUser userName) := by
  simp only [asksLogout, hname]

theorem hasToken_asked (hasks : asksLogout (⟨c, l, out, c'⟩ : MobileStep β) = true) :
    HasTokenToLogOut (⟨c, l, out, c'⟩ : MobileStep β) ↔
      (c.beginsLogout = true → c.loginModel.currentPrivateToken ≠ "") := by
  simp only [HasTokenToLogOut, hasks, forall_const]

theorem hasToken_not_asked (hasks : asksLogout (⟨c, l, out, c'⟩ : MobileStep β) = false) :
    HasTokenToLogOut (⟨c, l, out, c'⟩ : MobileStep β) := by
  intro hasked
  rw [hasks] at hasked
  cases hasked

theorem waiting_doLogin (hone : OneLogout c)
    (hlogout : c.loginModel.pendingLogout = true → c.LogoutInFlight)
    (hlogin : doLogin c = .ok (c', out)) : Waiting c' := by
  obtain ⟨email, password, -, -, rfl, -⟩ := doLogin_ok hlogin
  refine ⟨fun hpending => ?_, fun hpending => ?_⟩
  · exact LogoutInFlight.sent (hone.withLogin id) (hlogout hpending)
  · cases hpending

theorem waiting_answered (hlogin : doPendingLogin c.loggedOut = .ok (c', out)) :
    Waiting c' := by
  rcases doPendingLogin_ok hlogin with ⟨hpending, rfl⟩ | ⟨-, hlogin⟩
  · refine ⟨fun hwaits => ?_, fun hwaits => ?_⟩
    · cases hwaits
    · rw [hpending] at hwaits
      cases hwaits
  · obtain ⟨email, password, -, -, rfl, -⟩ := doLogin_ok hlogin
    refine ⟨fun hwaits => ?_, fun hwaits => ?_⟩
    · cases hwaits
    · cases hwaits

def SendsLogin (st : MobileStep β) : Prop :=
  ∃ email password, st.pre.currentEmail = .ok email ∧ st.pre.currentPassword = .ok password ∧
    .execute st.pre.made (loginInvocation email password) ∈ st.out ∧
    st.post.invocations[st.pre.made]? = some (loginInvocation email password)

/-- Nobody is ignored for ever. -/
structure Served (st : MobileStep β) : Prop where
  deferred : ∀ id invocation, finishedInvocation st.label = some id →
    st.pre.invocations[id]? = some invocation → invocation.purpose = .logout →
    st.pre.loginModel.pendingLogin = true →
      SendsLogin st ∧ st.post.loginModel.pendingLogin = false
  login : ∀ userName, st.label = .login → st.pre.currentUserName = .ok userName →
    ¬ IsTestUser userName →
      SendsLogin st ∨ (st.post.loginModel.pendingLogin = true ∧ st.post.LogoutInFlight)
  logout : st.label = .logout → st.pre.loginModel.loggedIn = true → st.post.LogoutInFlight

theorem sendsLogin_doLogin {c₀ : MobileClient} {signals : List MobileOutput}
    (huser : c₀.userModel = c.userModel) (hmade : c₀.made = c.made)
    (h : doLogin c₀ = .ok (c', out)) :
    SendsLogin (⟨c, l, signals ++ out, c'⟩ : MobileStep β) ∧
      c'.loginModel.pendingLogin = false := by
  obtain ⟨email, password, hemail, hpassword, rfl, rfl⟩ := doLogin_ok h
  rw [currentEmail, huser] at hemail
  rw [currentPassword, huser] at hpassword
  refine ⟨⟨email, password, hemail, hpassword, ?_, ?_⟩, rfl⟩
  · rw [← hmade]
    exact List.mem_append_right _ List.mem_cons_self
  · change (c₀.invocations.insert c₀.made _)[c.made]? = _
    rw [QMap.getElem?_insert, if_pos hmade.symm]

theorem loggingOut_pending (hlogged : c.loginModel.loggedIn = true) :
    c.loggingOut.loginModel.pendingLogout = true := by
  cases hpending : c.loginModel.pendingLogout with
  | true =>
      rw [loggingOut_of_not_begins (by simp [beginsLogout, hpending])]
      exact hpending
  | false =>
      have hbegins : c.beginsLogout = true := by simp [beginsLogout, hlogged, hpending]
      unfold loggingOut
      rw [hbegins, if_pos rfl]
      split
      · rfl
      · rfl

theorem loggingOut_pendingLogin (c : MobileClient) :
    c.loggingOut.loginModel.pendingLogin = c.loginModel.pendingLogin := by
  unfold loggingOut
  split
  · split
    · rfl
    · rfl
  · rfl

variable [QByteArray β]

theorem oneLogout_effect (h : OneLogout c) (heffect : Effect c l out c') : OneLogout c' := by
  cases heffect with
  | testLogin => exact h.withLogin id
  | loginLater =>
      refine OneLogout.loggingOut ?_
      exact h.withLogin id
  | loginNow _ _ _ hlogin => exact h.doLogin hlogin
  | logout => exact h.loggingOut
  | userKept => exact ⟨h.fresh, h.pending, h.unique⟩
  | userChanged =>
      refine OneLogout.loggingOut ?_
      exact ⟨h.fresh, h.pending, h.unique⟩
  | finishedBefore => exact h
  | loginRefused => exact h.received.withLogin id
  | loginAccepted => exact h.received.withLogin id
  | logoutFinished _ hthere hlogout hlogin => exact h.answered hthere hlogout hlogin
  | restart hrestart =>
      exact oneLogout_of_empty (restart_ok hrestart).1

theorem waiting_effect (hone : OneLogout c) (hwaiting : Waiting c) (h : Effect c l out c') :
    Waiting c' ↔ HasTokenToLogOut (⟨c, l, out, c'⟩ : MobileStep β) := by
  cases h with
  | testLogin loggedIn hname htest =>
      refine iff_of_true ⟨hwaiting.logout, hwaiting.login⟩ (hasToken_not_asked ?_)
      rw [asksLogout_login hname]
      simpa using htest
  | loginLater hname hreal hlogged =>
      rw [hasToken_asked (by rw [asksLogout_login hname]; simpa using hreal)]
      refine waiting_loggingOut (hone.withLogin id) hwaiting.logout fun _ => ?_
      exact .inl hlogged
  | loginNow hname hreal hlogged hlogin =>
      refine iff_of_true (waiting_doLogin hone hwaiting.logout hlogin) fun _ hbegins => ?_
      simp [beginsLogout, hlogged] at hbegins
  | logout =>
      rw [hasToken_asked rfl]
      exact waiting_loggingOut hone hwaiting.logout fun hpending =>
        .inr (hwaiting.login hpending)
  | userKept hl hkept =>
      refine iff_of_true ⟨hwaiting.logout, hwaiting.login⟩ (hasToken_not_asked ?_)
      rw [asksLogout_user hl, hkept]
  | @userChanged _ _ operation hl hchanged =>
      have hone' : OneLogout (c.withUser operation) := ⟨hone.fresh, hone.pending, hone.unique⟩
      rw [hasToken_asked (by rw [asksLogout_user hl, hchanged])]
      exact waiting_loggingOut hone' hwaiting.logout fun hpending =>
        .inr (hwaiting.login hpending)
  | finishedBefore hl =>
      exact iff_of_true hwaiting (hasToken_not_asked (asksLogout_finished hl))
  | loginRefused hl hthere hlogin =>
      refine iff_of_true ⟨fun hpending => ?_, fun hpending => ?_⟩
        (hasToken_not_asked (asksLogout_finished hl))
      · exact (hwaiting.logout hpending).received hthere hlogin
      · exact (hwaiting.login hpending).received hthere hlogin
  | loginAccepted hl hthere hlogin =>
      refine iff_of_true ⟨fun hpending => ?_, fun hpending => ?_⟩
        (hasToken_not_asked (asksLogout_finished hl))
      · exact (hwaiting.logout hpending).received hthere hlogin
      · exact (hwaiting.login hpending).received hthere hlogin
  | logoutFinished hl _ _ hlogin =>
      exact iff_of_true (waiting_answered hlogin) (hasToken_not_asked (asksLogout_finished hl))
  | restart hrestart =>
      have hconstruct := (restart_ok hrestart).2
      exact iff_of_true (waiting_constructed hconstruct) (hasToken_not_asked rfl)

theorem deferred_effect {id : Nat} {invocation : RESTInvocation} (h : Effect c l out c')
    (hl : finishedInvocation l = some id) (hthere : c.invocations[id]? = some invocation)
    (hlogout : invocation.purpose = .logout) (hpending : c.loginModel.pendingLogin = true) :
    SendsLogin (⟨c, l, out, c'⟩ : MobileStep β) ∧ c'.loginModel.pendingLogin = false := by
  cases h with
  | userKept huser => simp [userOperation_finished hl] at huser
  | userChanged huser => simp [userOperation_finished hl] at huser
  | finishedBefore hl' hgone =>
      cases hl.symm.trans hl'
      rw [hthere] at hgone
      cases hgone
  | loginRefused hl' hthere' hlogin =>
      cases hl.symm.trans hl'
      cases hthere.symm.trans hthere'
      rw [hlogin] at hlogout
      cases hlogout
  | loginAccepted hl' hthere' hlogin =>
      cases hl.symm.trans hl'
      cases hthere.symm.trans hthere'
      rw [hlogin] at hlogout
      cases hlogout
  | logoutFinished hl' _ _ hdoes =>
      cases hl.symm.trans hl'
      rcases doPendingLogin_ok hdoes with ⟨hnot, -⟩ | ⟨-, hlogin⟩
      · have hnot' : c.loginModel.pendingLogin = false := hnot
        rw [hpending] at hnot'
        cases hnot'
      · refine sendsLogin_doLogin ?_ ?_ hlogin
        · rfl
        · rfl
  | _ => cases hl

theorem served_effect (h : Effect c l out c') (hwaiting : Waiting c') :
    Served (⟨c, l, out, c'⟩ : MobileStep β) := by
  refine ⟨fun id invocation => deferred_effect h, ?_, ?_⟩
  · rintro userName rfl hname hreal
    cases h with
    | testLogin loggedIn hname' htest =>
        cases hname.symm.trans hname'
        exact absurd htest hreal
    | loginLater hname' hreal' hlogged =>
        refine .inr ⟨?_, ?_⟩
        · exact loggingOut_pendingLogin _
        · exact hwaiting.logout (loggingOut_pending hlogged)
    | loginNow hname' hreal' hlogged hlogin =>
        have hsends : SendsLogin (⟨c, .login, [] ++ out, c'⟩ : MobileStep β) :=
          (sendsLogin_doLogin rfl rfl hlogin).1
        exact .inl hsends
    | userKept hl => cases hl
    | userChanged hl => cases hl
    | finishedBefore hl => cases hl
    | loginRefused hl => cases hl
    | loginAccepted hl => cases hl
    | logoutFinished hl => cases hl
  · rintro rfl hlogged
    cases h with
    | logout => exact hwaiting.logout (loggingOut_pending hlogged)
    | userKept hl => cases hl
    | userChanged hl => cases hl
    | finishedBefore hl => cases hl
    | loginRefused hl => cases hl
    | loginAccepted hl => cases hl
    | logoutFinished hl => cases hl

variable {init s : MobileClient} {history : List (MobileStep β)}

/--
All that is pending is answered throughout a run exactly when every logout that
begins has a private token.
-/
theorem logouts_complete_iff {userModel : UserModel} {ini : QSettings}
    (hstart : start userModel ini = .ok init)
    (h : Execution (machine β init) history s) :
    Execution.Always (machine β init)
        (fun history s => Waiting s ∧ ∀ st ∈ history, Served st) history ↔
      ∀ st ∈ history, HasTokenToLogOut st := by
  obtain ⟨hempty, hconstruct, -⟩ := start_ok hstart
  refine Execution.always_iff ⟨waiting_constructed hconstruct, by simp⟩ ?_ h
  intro history s s' l out hexec hbefore hstep
  obtain ⟨hwaiting, hserved⟩ := hbefore
  have heffect := effect_of_ok hstep
  have hone : OneLogout s := hexec.state_invariant (oneLogout_of_empty hempty)
    fun hone hstep => oneLogout_effect hone (effect_of_ok hstep)
  rw [← waiting_effect hone hwaiting heffect]
  constructor
  · exact fun hafter => hafter.1
  · intro hwaiting'
    refine ⟨hwaiting', List.forall_mem_cons.mpr ⟨?_, hserved⟩⟩
    exact served_effect heffect hwaiting'

end Steps

theorem logouts_complete_iff_deferred :
    ∃ history s, Execution (machine Text (fresh twoUsers)) history s ∧
      s.loginModel.pendingLogin = false ∧ 2 ∈ s.invocations ∧
      Execution.Always (machine Text (fresh twoUsers))
        (fun history s => Waiting s ∧ ∀ st ∈ history, Served st) history := by
  obtain ⟨history, s, hrun, hcheck⟩ : ∃ history s,
      (machine Text (fresh twoUsers)).run
        [.login, .finishedOK 0 okReply, .login, .finishedOK 1 okReply] = .ok (history, s) ∧
        (decide (s.loginModel.pendingLogin = false ∧ 2 ∈ s.invocations) &&
          history.all fun st => decide (HasTokenToLogOut st)) = true :=
    Machine.exists_run (by decide +kernel)
  simp only [Bool.and_eq_true, decide_eq_true_eq, List.all_eq_true] at hcheck
  have hexec := Machine.run_execution hrun
  have hstart : start twoUsers ⟨false, ∅⟩ = .ok (fresh twoUsers) := rfl
  exact ⟨history, s, hexec, hcheck.1.1, hcheck.1.2,
    (logouts_complete_iff hstart hexec).mpr hcheck.2⟩

def testUsers : UserModel where
  ini := ⟨false, ∅⟩
  users := [⟨"login", "", "", true, false⟩, ⟨"ada", "ada@mail", "first", false, false⟩]
  activeUserIndex := 0
  cachedUser := UserInfo.initial

/-- After a logout of the user for tests nobody logs in any more. -/
theorem test_user_blocks_login :
    ∃ history s, start testUsers ⟨false, ∅⟩ = .ok (fresh testUsers) ∧
      Execution (machine Text (fresh testUsers)) history s ∧
      s.currentUserName = .ok "ada" ∧ s.invocations = ∅ ∧
      s.loginModel.pendingLogin = true ∧ s.loginModel.pendingLogout = true ∧
      ¬ Waiting s := by
  obtain ⟨history, s, hrun, hcheck⟩ : ∃ history s,
      (machine Text (fresh testUsers)).run
        [.login, .logout, .selectCurrentUser "ada", .login] = .ok (history, s) ∧
        decide (s.currentUserName = .ok "ada" ∧ s.invocations.isEmpty = true ∧
          s.loginModel.pendingLogin = true ∧ s.loginModel.pendingLogout = true) = true :=
    Machine.exists_run (by decide +kernel)
  rw [decide_eq_true_eq] at hcheck
  obtain ⟨hname, hempty, hlogin, hlogout⟩ := hcheck
  have hnone : s.invocations = ∅ := Std.ExtTreeMap.isEmpty_iff.mp hempty
  refine ⟨history, s, rfl, Machine.run_execution hrun, hname, hnone, hlogin, hlogout, ?_⟩
  intro hwaiting
  obtain ⟨id, invocation, hthere, -⟩ := hwaiting.logout hlogout
  simp [hnone] at hthere

end MobileClient

end GBerry.Mobile
