import GBerry.Mobile.UserModel.Calls

/-!
# Queries by name

A query asks a cache of one user first, by the name alone, and nothing that changes
the users changes the cache.  What a query should return follows from the calls: the
user that was last set under the name, or else the one in the file.
-/

namespace GBerry.Mobile

open GBerry.Common
open GBerry.Foundation

namespace UserModel

/-- The user of the name, as it was last set or is in the file. -/
def latest (ini : QSettings) : History → String → Option UserInfo
  | [], userName => (load ini).users.find? fun user => user.userName == userName
  | st :: older, userName =>
      match st.label with
      | .setUser userInfo =>
          if userInfo.userName = userName then some userInfo else latest ini older userName
      | _ => latest ini older userName

/-- Every query by name returns what is latest, or the value for a user who is not there. -/
structure UpToDate (ini : QSettings) (history : History) (m : UserModel) : Prop where
  email : ∀ userName, (UserModel.email m userName).2 =
    (latest ini history userName).elim "" UserInfo.email
  password : ∀ userName, (UserModel.password m userName).2 =
    (latest ini history userName).elim "" UserInfo.password
  isGuest : ∀ userName, (UserModel.isGuest m userName).2 =
    (latest ini history userName).elim true UserInfo.guest
  isRememberPassword : ∀ userName, (UserModel.isRememberPassword m userName).2 =
    (latest ini history userName).elim false UserInfo.rememberPassword

/-- A user without a name is set for who has the initial values. -/
def NamelessInitial (ini : QSettings) : Prop :=
  ∀ user, (load ini).users.find? (fun user => user.userName == "") = some user →
    user = UserInfo.initial

def KeepsCached (st : Step UserModel UserModelCall UserModelOutput) : Prop :=
  ∀ userInfo, st.label = .setUser userInfo →
    userInfo.userName = st.pre.cachedUser.userName → userInfo = st.pre.cachedUser

section Lookup

variable {users : List UserInfo} {userInfo : UserInfo} {i : Nat} {userName : String}

def absentUser (userName : String) : UserInfo :=
  { UserInfo.initial with userName := userName }

def lookup (users : List UserInfo) (userName : String) : UserInfo :=
  (users.find? fun user => user.userName == userName).getD (absentUser userName)

theorem lookup_userName (users : List UserInfo) (userName : String) :
    (lookup users userName).userName = userName := by
  unfold lookup
  cases h : users.find? fun user => user.userName == userName with
  | none => rfl
  | some user =>
      have hname := List.find?_some h
      exact beq_iff_eq.mp hname

theorem find?_append_single (userName : String) :
    (users ++ [userInfo]).find? (fun user => user.userName == userName) =
      (users.find? fun user => user.userName == userName).or
        (if userInfo.userName = userName then some userInfo else none) := by
  rw [List.find?_append]
  by_cases h : userInfo.userName = userName
  · simp [h]
  · simp [h]

theorem find?_set (hfound : users.findIdx? (fun user => user.userName == userInfo.userName) =
      some i) (userName : String) :
    (users.set i userInfo).find? (fun user => user.userName == userName) =
      if userInfo.userName = userName then some userInfo
      else users.find? fun user => user.userName == userName := by
  induction users generalizing i with
  | nil => cases hfound
  | cons user users ih =>
      rw [List.findIdx?_cons] at hfound
      by_cases hname : user.userName = userInfo.userName
      · rw [if_pos (beq_iff_eq.mpr hname)] at hfound
        cases hfound
        by_cases h : userInfo.userName = userName
        · simp [h]
        · simp [h, hname]
      · rw [if_neg (by simpa using hname)] at hfound
        obtain ⟨k, hk, rfl⟩ := Option.map_eq_some_iff.mp hfound
        have hrest := ih hk
        by_cases huser : user.userName = userName
        · have hother : ¬ userInfo.userName = userName := fun h =>
            hname (huser.trans h.symm)
          simp [huser, hother]
        · simp only [List.set_cons_succ, List.find?_cons, beq_eq_false_iff_ne.mpr huser, hrest]

end Lookup

section Steps

variable {ini : QSettings} {history : History} {m m' : UserModel} {call : UserModelCall}
  {out : List UserModelOutput}

theorem Change.find? (h : Change m call m') (userName : String) :
    m'.users.find? (fun user => user.userName == userName) =
      match call with
      | .setUser userInfo =>
          if userInfo.userName = userName then some userInfo
          else m.users.find? fun user => user.userName == userName
      | _ => m.users.find? fun user => user.userName == userName := by
  cases h with
  | replaced hfound => exact find?_set hfound userName
  | @added userInfo hnone =>
      simp only [save, find?_append_single]
      split
      · rename_i heq
        have hmissing : m.users.find? (fun user => user.userName == userName) = none := by
          rw [List.findIdx?_eq_none_iff] at hnone
          rw [List.find?_eq_none]
          intro user huser
          rw [← heq, hnone user huser]
          exact Bool.false_ne_true
        rw [hmissing]
        rfl
      · rw [Option.or_none]
  | selected hfound => rfl
  | notFound => rfl
  | unselected => rfl
  | @queried call name hquery =>
      have husers : (updateCachedUser m name).1.users = m.users := by
        obtain ⟨user, hcached⟩ := @updateCachedUser_fst m name
        rw [hcached]
      rw [husers]
      cases call with
      | setUser userInfo => cases hquery
      | _ => rfl

theorem latest_of_execution (h : Execution (machine ini) history m) (userName : String) :
    latest ini history userName = m.users.find? fun user => user.userName == userName := by
  refine h.invariant (I := fun history m => latest ini history userName =
    m.users.find? fun user => user.userName == userName) rfl ?_
  intro older m m' call out _ ih hstep
  rw [(step_change hstep).find? userName, ← ih]
  cases call <;> rfl

def Cached (m : UserModel) : Prop :=
  lookup m.users m.cachedUser.userName = m.cachedUser

theorem query_snd {α : Type} (member : UserInfo → α) (absent : α) (userName : String)
    (habsent : absent = member (absentUser userName)) :
    (query m member absent userName).2 =
      if m.cachedUser.userName = userName then member m.cachedUser
      else member (lookup m.users userName) := by
  unfold query lookup
  rcases updateCachedUser_cases (m := m) userName with
    ⟨hcache, hname⟩ | ⟨hname, user, hfind, hcache⟩ | ⟨hname, hfind, hcache⟩
  · rw [hcache, if_pos hname]
  · rw [hcache, hfind, if_neg hname]
    rfl
  · rw [hcache, hfind, if_neg hname]
    exact habsent

theorem elim_eq_lookup {α : Type} (member : UserInfo → α) (absent : α) (userName : String)
    (habsent : absent = member (absentUser userName)) :
    (m.users.find? fun user => user.userName == userName).elim absent member =
      member (lookup m.users userName) := by
  unfold lookup
  cases m.users.find? fun user => user.userName == userName with
  | none => exact habsent
  | some user => rfl

theorem query_iff {α : Type} (h : Execution (machine ini) history m) (member : UserInfo → α)
    (absent : α) (habsent : ∀ userName, absent = member (absentUser userName)) :
    (∀ userName, (query m member absent userName).2 =
      (latest ini history userName).elim absent member) ↔
      member (lookup m.users m.cachedUser.userName) = member m.cachedUser := by
  have hquery : ∀ userName, (query m member absent userName).2 =
      (latest ini history userName).elim absent member ↔
      (m.cachedUser.userName = userName →
        member m.cachedUser = member (lookup m.users userName)) := by
    intro userName
    rw [latest_of_execution h, elim_eq_lookup member absent userName (habsent userName),
      query_snd member absent userName (habsent userName)]
    split
    · rename_i heq
      simp [heq]
    · rename_i hne
      simp [hne]
  simp only [hquery]
  constructor
  · intro hall
    exact (hall _ rfl).symm
  · rintro hcached _ rfl
    exact hcached.symm

theorem upToDate_iff (h : Execution (machine ini) history m) :
    UpToDate ini history m ↔ Cached m := by
  have hemail := query_iff h UserInfo.email "" fun _ => rfl
  have hpassword := query_iff h UserInfo.password "" fun _ => rfl
  have hguest := query_iff h UserInfo.guest true fun _ => rfl
  have hremember := query_iff h UserInfo.rememberPassword false fun _ => rfl
  constructor
  · intro hup
    have hname := lookup_userName m.users m.cachedUser.userName
    unfold Cached
    rw [UserInfo.mk.injEq]
    exact ⟨hname, hemail.mp hup.email, hpassword.mp hup.password, hguest.mp hup.isGuest,
      hremember.mp hup.isRememberPassword⟩
  · intro hcached
    exact ⟨hemail.mpr (congrArg _ hcached), hpassword.mpr (congrArg _ hcached),
      hguest.mpr (congrArg _ hcached), hremember.mpr (congrArg _ hcached)⟩

theorem cached_of_found {userName : String} {user : UserInfo}
    (h : m.users.find? (fun user => user.userName == userName) = some user) :
    Cached { m with cachedUser := user } := by
  have hname : user.userName = userName := by
    have hfound := List.find?_some h
    exact beq_iff_eq.mp hfound
  unfold Cached lookup
  simp only [hname, h]
  rfl

theorem Change.cachedUser {userInfo : UserInfo} (h : Change m (.setUser userInfo) m') :
    m'.cachedUser = m.cachedUser := by
  cases h with
  | replaced _ => rfl
  | added _ => rfl
  | queried hquery => cases hquery

theorem Change.setUser_cached_iff {userInfo : UserInfo} (h : Change m (.setUser userInfo) m')
    (hm : Cached m) :
    Cached m' ↔ (userInfo.userName = m.cachedUser.userName → userInfo = m.cachedUser) := by
  unfold Cached lookup at hm ⊢
  rw [h.cachedUser, h.find?]
  by_cases hname : userInfo.userName = m.cachedUser.userName
  · simp only [hname, if_true, Option.getD_some, forall_const]
  · simp only [hname, if_false, false_implies, iff_true]
    exact hm

theorem Change.cached_of_other (h : Change m call m')
    (hcall : ∀ userInfo, call ≠ .setUser userInfo) (hm : Cached m) : Cached m' := by
  cases h with
  | replaced _ => exact absurd rfl (hcall _)
  | added _ => exact absurd rfl (hcall _)
  | selected _ => exact hm
  | notFound => exact hm
  | unselected => exact hm
  | @queried _ userName _ =>
      rcases updateCachedUser_cases (m := m) userName with
        ⟨hsame, -⟩ | ⟨-, user, hfind, hfilled⟩ | ⟨-, -, hsame⟩
      · rw [hsame]
        exact hm
      · rw [hfilled]
        exact cached_of_found hfind
      · rw [hsame]
        exact hm

theorem Change.cached_iff (h : Change m call m') (hm : Cached m) :
    Cached m' ↔ KeepsCached ⟨m, call, out, m'⟩ := by
  by_cases hcall : ∃ userInfo, call = .setUser userInfo
  · obtain ⟨userInfo, rfl⟩ := hcall
    rw [h.setUser_cached_iff hm]
    constructor
    · rintro hkeeps _ ⟨⟩
      exact hkeeps
    · intro hkeeps
      exact hkeeps userInfo rfl
  · have hother := not_exists.mp hcall
    refine iff_of_true (h.cached_of_other hother hm) ?_
    intro userInfo hlabel
    exact absurd hlabel (hother userInfo)

end Steps

theorem cached_load_iff (ini : QSettings) : Cached (load ini) ↔ NamelessInitial ini := by
  have hcached : (load ini).cachedUser = UserInfo.initial := by
    unfold load
    split
    · rfl
    · rfl
  unfold Cached lookup NamelessInitial
  rw [hcached]
  change (((load ini).users.find? fun user => user.userName == "").getD UserInfo.initial) =
    UserInfo.initial ↔ _
  cases h : (load ini).users.find? fun user => user.userName == "" with
  | none => simp
  | some user => simp

theorem queries_upToDate_iff (ini : QSettings) (calls : List UserModelCall) :
    Execution.Always (machine ini) (UpToDate ini) (trace ini calls).1 ↔
      NamelessInitial ini ∧ ∀ st ∈ (trace ini calls).1, KeepsCached st := by
  have hstart : UpToDate ini [] (load ini) ↔ NamelessInitial ini :=
    (upToDate_iff .start).trans (cached_load_iff ini)
  rw [← hstart]
  refine Execution.always_iff_start ?_ (trace_execution ini calls)
  intro older m m' call out hexec hup hstep
  rw [upToDate_iff (hexec.next hstep)]
  exact (step_change hstep).cached_iff ((upToDate_iff hexec).mp hup)

def noFile : QSettings := ⟨false, ∅⟩

def ann (email : String) : UserInfo := ⟨"ann", email, "secret", false, true⟩

/-- A query, a change of the user, and the same query again. -/
def asksAgain : List UserModelCall :=
  [.setUser (ann "ann@old"), .email "ann", .setUser (ann "ann@new")]

theorem asksAgain_stale :
    ¬ Execution.Always (machine noFile) (UpToDate noFile) (trace noFile asksAgain).1 := by
  intro halways
  have hup := halways _ _ List.suffix_rfl (trace_execution noFile asksAgain)
  have hemail := hup.email "ann"
  have hold : (email (trace noFile asksAgain).2 "ann").2 = "ann@old" := by decide +kernel
  have hnew : (latest noFile (trace noFile asksAgain).1 "ann").elim "" UserInfo.email =
      "ann@new" := by decide +kernel
  rw [hold, hnew] at hemail
  revert hemail
  decide

end UserModel

end GBerry.Mobile
