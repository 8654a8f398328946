import GBerry.Foundation.Action
import GBerry.Mobile.UserModel

/-!
# The calls of a user model

What the application calls after the model was loaded from its file.  None of the
calls can fail; the accessors of the current user can, on an index that the list of
users does not have.
-/

namespace GBerry.Mobile

open GBerry.Common
open GBerry.Foundation

inductive UserModelCall where
  | setUser (userInfo : UserInfo)
  | selectCurrentUser (userName : String)
  | unselectCurrentUser
  | email (userName : String)
  | password (userName : String)
  | isGuest (userName : String)
  | isRememberPassword (userName : String)

def UserModelCall.query? : UserModelCall → Option String
  | .email userName => some userName
  | .password userName => some userName
  | .isGuest userName => some userName
  | .isRememberPassword userName => some userName
  | _ => none

inductive UserModelOutput where
  | signal (signal : UserModelSignal)
  | returnedText (value : String)
  | returnedFlag (value : Bool)
  deriving DecidableEq

namespace UserModel

def perform : UserModelCall → Action UserModel UserModelOutput
  | .setUser userInfo => fun m =>
      let (m', signals) := setUser m userInfo
      (m', signals.map .signal)
  | .selectCurrentUser userName => fun m =>
      let ((m', signals), selected) := selectCurrentUser m userName
      (m', signals.map .signal ++ [.returnedFlag selected])
  | .unselectCurrentUser => fun m =>
      let (m', signals) := unselectCurrentUser m
      (m', signals.map .signal)
  | .email userName => fun m =>
      let (m', value) := email m userName
      (m', [.returnedText value])
  | .password userName => fun m =>
      let (m', value) := password m userName
      (m', [.returnedText value])
  | .isGuest userName => fun m =>
      let (m', value) := isGuest m userName
      (m', [.returnedFlag value])
  | .isRememberPassword userName => fun m =>
      let (m', value) := isRememberPassword m userName
      (m', [.returnedFlag value])

def machine (ini : QSettings) : Machine UserModel UserModelCall UserModelOutput Empty :=
  Action.machine (load ini) perform

abbrev History := List (Step UserModel UserModelCall UserModelOutput)

def trace (ini : QSettings) (calls : List UserModelCall) : History × UserModel :=
  Action.trace (load ini) perform calls

theorem trace_execution (ini : QSettings) (calls : List UserModelCall) :
    Execution (machine ini) (trace ini calls).1 (trace ini calls).2 :=
  Action.trace_execution (load ini) perform calls

section Steps

variable {m : UserModel}

theorem query_fst {α : Type} (member : UserInfo → α) (absent : α) (userName : String) :
    (query m member absent userName).1 = (updateCachedUser m userName).1 := by
  unfold query
  split
  · rename_i h
    rw [h]
  · rename_i h
    rw [h]

theorem updateCachedUser_cases (userName : String) :
    updateCachedUser m userName = (m, true) ∧ m.cachedUser.userName = userName ∨
    (m.cachedUser.userName ≠ userName ∧
      ∃ user, m.users.find? (fun user => user.userName == userName) = some user ∧
        updateCachedUser m userName = ({ m with cachedUser := user }, true)) ∨
    (m.cachedUser.userName ≠ userName ∧
      m.users.find? (fun user => user.userName == userName) = none ∧
      updateCachedUser m userName = (m, false)) := by
  unfold updateCachedUser
  by_cases hcached : m.cachedUser.userName = userName
  · exact .inl ⟨if_pos hcached, hcached⟩
  · rw [if_neg hcached]
    cases hfind : m.users.find? fun user => user.userName == userName with
    | none => exact .inr (.inr ⟨hcached, rfl, rfl⟩)
    | some user => exact .inr (.inl ⟨hcached, user, rfl, rfl⟩)

theorem updateCachedUser_fst (userName : String) :
    ∃ user, (updateCachedUser m userName).1 = { m with cachedUser := user } := by
  rcases updateCachedUser_cases (m := m) userName with
    ⟨hsame, -⟩ | ⟨-, user, -, hfilled⟩ | ⟨-, -, hsame⟩
  · exact ⟨m.cachedUser, by rw [hsame]⟩
  · exact ⟨user, by rw [hfilled]⟩
  · exact ⟨m.cachedUser, by rw [hsame]⟩

/-- What a call does to the model: only the queries change the cache, and nothing else. -/
inductive Change (m : UserModel) : UserModelCall → UserModel → Prop
  | replaced {userInfo : UserInfo} {i : Nat}
      (hfound : m.users.findIdx? (fun user => user.userName == userInfo.userName) = some i) :
      Change m (.setUser userInfo) (save { m with users := m.users.set i userInfo })
  | added {userInfo : UserInfo}
      (hnone : m.users.findIdx? (fun user => user.userName == userInfo.userName) = none) :
      Change m (.setUser userInfo) (save { m with users := m.users ++ [userInfo] })
  | selected {userName : String} {i : Nat}
      (hfound : m.users.findIdx? (fun user => user.userName == userName) = some i) :
      Change m (.selectCurrentUser userName) (save { m with activeUserIndex := i })
  | notFound {userName : String} : Change m (.selectCurrentUser userName) m
  | unselected : Change m .unselectCurrentUser (save { m with activeUserIndex := -1 })
  | queried {call : UserModelCall} {userName : String} (hquery : call.query? = some userName) :
      Change m call (updateCachedUser m userName).1

theorem perform_change (m : UserModel) (call : UserModelCall) :
    Change m call (perform call m).1 := by
  cases call with
  | setUser userInfo =>
      simp only [perform, setUser, indexOf]
      split
      · rename_i i hfound
        exact .replaced hfound
      · rename_i hnone
        exact .added hnone
  | selectCurrentUser userName =>
      simp only [perform, selectCurrentUser, indexOf]
      split
      · rename_i i hfound
        exact .selected hfound
      · exact .notFound
  | unselectCurrentUser => exact .unselected
  | email userName =>
      simp only [perform, email, query_fst]
      exact .queried rfl
  | password userName =>
      simp only [perform, password, query_fst]
      exact .queried rfl
  | isGuest userName =>
      simp only [perform, isGuest, query_fst]
      exact .queried rfl
  | isRememberPassword userName =>
      simp only [perform, isRememberPassword, query_fst]
      exact .queried rfl

theorem step_change {ini : QSettings} {m' : UserModel} {call : UserModelCall}
    {out : List UserModelOutput} (h : (machine ini).step m call = .ok (m', out)) :
    Change m call m' := by
  obtain ⟨rfl, -⟩ := Action.machine_step h
  exact perform_change m call

end Steps

end UserModel

end GBerry.Mobile
