import GBerry.Common.QSettings
import Mathlib.Data.List.Nodup
import Mathlib.Data.Nat.Find

/-!
# The users of the mobile client

`UserModel` keeps the users in an ini file, in which they are numbered from 1,
and knows the one that is active.  The active index comes from the file; an
access with an index that the list does not have ends the program.
-/

namespace GBerry.Mobile

open GBerry.Common

structure UserInfo where
  userName : String
  email : String
  password : String
  guest : Bool
  rememberPassword : Bool
  deriving DecidableEq

def UserInfo.initial : UserInfo where
  userName := ""
  email := ""
  password := ""
  guest := true
  rememberPassword := false

inductive UserModelSignal where
  | currentUserInfoChanged
  | currentUserNameChanged
  | currentUserIsActiveChanged
  | currentIsGuestChanged
  deriving DecidableEq

inductive UserModelFault where
  | indexOutOfRange
  deriving DecidableEq

def FILE_VERSION_KEY : String := "version"
def FILE_VERSION_VALUE : String := "1"
def USERNAME_KEY : String := "username"
def EMAIL_KEY : String := "email"
def PASSWORD_KEY : String := "password"
def GUEST_KEY : String := "guest"
def REMEMBER_PASSWORD_KEY : String := "remember_password"
def LAST_ACTIVE_USER : String := "last_active_user"

/-- What both models do with the version when their file exists. -/
def ensureVersion (ini : QSettings) : QSettings :=
  if ini.contains FILE_VERSION_KEY then ini
  else ini.setValue FILE_VERSION_KEY FILE_VERSION_VALUE

structure UserModel where
  ini : QSettings
  users : List UserInfo
  activeUserIndex : Int
  cachedUser : UserInfo

namespace UserModel

section Loading

variable (ini : QSettings)

def mkkey (baseKey : String) (i : Nat) : String := baseKey ++ toString i

/-- A member of user `index`, or what the constructor sets when the key is missing. -/
def readMember {α : Type} (baseKey : String) (index : Nat) (convert : String → α)
    (initially : α) : α :=
  if ini.contains (mkkey baseKey index) then convert (ini.value (mkkey baseKey index))
  else initially

def readUser (index : Nat) : UserInfo where
  userName := ini.value (mkkey USERNAME_KEY index)
  email := readMember ini EMAIL_KEY index id UserInfo.initial.email
  password := readMember ini PASSWORD_KEY index id UserInfo.initial.password
  guest := readMember ini GUEST_KEY index QSettings.toBool UserInfo.initial.guest
  rememberPassword :=
    readMember ini REMEMBER_PASSWORD_KEY index QSettings.toBool
      UserInfo.initial.rememberPassword

def readUsers : Nat → Nat → List UserInfo
  | 0, _ => []
  | fuel + 1, index =>
      if ini.contains (mkkey USERNAME_KEY index) then
        readUser ini index :: readUsers fuel (index + 1)
      else []

/-- The subtraction is one of 32 bits. -/
def readActiveUserIndex (users : List UserInfo) : Int :=
  if ini.contains LAST_ACTIVE_USER then
    let readLastActiveUser := (QSettings.toInt (ini.value LAST_ACTIVE_USER) - 1).bmod (2 ^ 32)
    if readLastActiveUser ≤ users.length then readLastActiveUser else -1
  else -1

/-- The constructor.  A file with `n` keys has at most `n` users. -/
def load : UserModel :=
  if ini.fileExists then
    let ini := ensureVersion ini
    let users := readUsers ini (ini.values.size + 1) 1
    { ini := ini
      users := users
      activeUserIndex := readActiveUserIndex ini users
      cachedUser := UserInfo.initial }
  else
    { ini := ini, users := [], activeUserIndex := -1, cachedUser := UserInfo.initial }

variable {ini}

theorem mkkey_injective (baseKey : String) : Function.Injective (mkkey baseKey) := by
  intro i j h
  have htext : i.repr = j.repr := (String.append_right_inj baseKey).mp h
  have hdigits : Nat.toDigits 10 i = Nat.toDigits 10 j := by
    rw [← Nat.toList_repr, ← Nat.toList_repr, htext]
  rw [← @Nat.ofDigitChars_ten_toDigits i, hdigits, Nat.ofDigitChars_ten_toDigits]

theorem exists_missing (index : Nat) :
    ∃ n, n ≤ ini.values.size ∧ ini.contains (mkkey USERNAME_KEY (index + n)) = false := by
  by_contra hall
  push Not at hall
  let names := (List.range (ini.values.size + 1)).map fun i => mkkey USERNAME_KEY (index + i)
  have hnodup : names.Nodup := by
    refine List.nodup_range.map fun i j h => ?_
    exact Nat.add_left_cancel (mkkey_injective USERNAME_KEY h)
  have hsub : names ⊆ ini.values.keys := by
    intro name hname
    obtain ⟨i, hi, rfl⟩ := List.mem_map.mp hname
    have hthere := hall i (by simpa [Nat.lt_succ_iff] using hi)
    rw [Std.ExtTreeMap.mem_keys]
    simpa [QSettings.contains] using hthere
  have hlength := (List.subperm_of_subset hnodup hsub).length_le
  rw [List.length_map, List.length_range, Std.ExtTreeMap.length_keys] at hlength
  omega

theorem readUsers_eq {n fuel index : Nat} (hfuel : n < fuel)
    (hthere : ∀ i < n, ini.contains (mkkey USERNAME_KEY (index + i)) = true)
    (hmissing : ini.contains (mkkey USERNAME_KEY (index + n)) = false) :
    readUsers ini fuel index = (List.range n).map fun i => readUser ini (index + i) := by
  induction fuel generalizing n index with
  | zero => omega
  | succ fuel ih =>
      cases n with
      | zero =>
          rw [Nat.add_zero] at hmissing
          simp [readUsers, hmissing]
      | succ n =>
          have hfirst : ini.contains (mkkey USERNAME_KEY index) = true := hthere 0 (by omega)
          have hrest := @ih n (index + 1) (by omega)
            (fun i hi => by
              have h := hthere (i + 1) (by omega)
              rwa [show index + (i + 1) = index + 1 + i by omega] at h)
            (by rwa [show index + (n + 1) = index + 1 + n by omega] at hmissing)
          rw [readUsers, if_pos hfirst, hrest, List.range_succ_eq_map, List.map_cons,
            List.map_map]
          refine congrArg₂ _ rfl (List.map_congr_left fun i _ => ?_)
          simp only [Function.comp_apply]
          rw [show index + 1 + i = index + (i + 1) by omega]

theorem readUsers_size (index : Nat) :
    ∃ n, (∀ i < n, ini.contains (mkkey USERNAME_KEY (index + i)) = true) ∧
      ini.contains (mkkey USERNAME_KEY (index + n)) = false ∧
      readUsers ini (ini.values.size + 1) index =
        (List.range n).map fun i => readUser ini (index + i) := by
  have hexists := @exists_missing ini index
  have hmissing := (Nat.find_spec hexists).2
  have hsize := (Nat.find_spec hexists).1
  have hthere : ∀ i < Nat.find hexists,
      ini.contains (mkkey USERNAME_KEY (index + i)) = true := by
    intro i hi
    have hnot := Nat.find_min hexists hi
    rw [not_and, Bool.not_eq_false] at hnot
    exact hnot (by omega)
  exact ⟨_, hthere, hmissing, readUsers_eq (by omega) hthere hmissing⟩

end Loading

section Current

variable (m : UserModel)

def userAt (i : Int) : Except UserModelFault UserInfo :=
  if i < 0 then .error .indexOutOfRange
  else
    match m.users[i.toNat]? with
    | some user => .ok user
    | none => .error .indexOutOfRange

def ofCurrent {α : Type} (member : UserInfo → α) (absent : α) : Except UserModelFault α :=
  if m.activeUserIndex ≠ -1 then (userAt m m.activeUserIndex).map member else .ok absent

def currentUserName : Except UserModelFault String := ofCurrent m UserInfo.userName ""
def currentEmail : Except UserModelFault String := ofCurrent m UserInfo.email ""
def currentPassword : Except UserModelFault String := ofCurrent m UserInfo.password ""
def currentIsGuest : Except UserModelFault Bool := ofCurrent m UserInfo.guest true

def currentIsRememberPassword : Except UserModelFault Bool :=
  ofCurrent m UserInfo.rememberPassword false

end Current

section Saving

/-- The password of a user who does not want it remembered is left as it is in the file. -/
def saveUser (ini : QSettings) (numbered : UserInfo × Nat) : QSettings :=
  let (user, i) := numbered
  let ini := ini.setValue (mkkey USERNAME_KEY (i + 1)) user.userName
  let ini := ini.setValue (mkkey EMAIL_KEY (i + 1)) user.email
  let ini := ini.setValue (mkkey GUEST_KEY (i + 1)) (QSettings.ofBool user.guest)
  let ini := ini.setValue (mkkey REMEMBER_PASSWORD_KEY (i + 1))
    (QSettings.ofBool user.rememberPassword)
  if user.rememberPassword then ini.setValue (mkkey PASSWORD_KEY (i + 1)) user.password
  else ini

def save (m : UserModel) : UserModel :=
  let ini := m.users.zipIdx.foldl saveUser m.ini
  { m with ini := ini.setValue LAST_ACTIVE_USER (toString (m.activeUserIndex + 1)) }

end Saving

section Operations

variable (m : UserModel)

def indexOf (userName : String) : Option Nat :=
  m.users.findIdx? fun user => user.userName == userName

/-- The new state with the signals, and the value that is returned. -/
def selectCurrentUser (userName : String) : (UserModel × List UserModelSignal) × Bool :=
  match indexOf m userName with
  | some i =>
      ((save { m with activeUserIndex := i },
        [.currentUserIsActiveChanged, .currentUserNameChanged, .currentIsGuestChanged]), true)
  | none => ((m, []), false)

def unselectCurrentUser : UserModel × List UserModelSignal :=
  (save { m with activeUserIndex := -1 },
    [.currentUserIsActiveChanged, .currentUserNameChanged, .currentIsGuestChanged])

def setUser (userInfo : UserInfo) : UserModel × List UserModelSignal :=
  match indexOf m userInfo.userName with
  | some i =>
      (save { m with users := m.users.set i userInfo },
        if (i : Int) = m.activeUserIndex then
          [.currentUserInfoChanged, .currentUserNameChanged, .currentIsGuestChanged]
        else [])
  | none => (save { m with users := m.users ++ [userInfo] }, [])

def updateCachedUser (userName : String) : UserModel × Bool :=
  if m.cachedUser.userName = userName then (m, true)
  else
    match m.users.find? fun user => user.userName == userName with
    | some user => ({ m with cachedUser := user }, true)
    | none => (m, false)

/-- The queries by name differ in the member, and in the value for a user who is not there. -/
def query {α : Type} (member : UserInfo → α) (absent : α) (userName : String) :
    UserModel × α :=
  match updateCachedUser m userName with
  | (m', true) => (m', member m'.cachedUser)
  | (m', false) => (m', absent)

def email (userName : String) : UserModel × String := query m UserInfo.email "" userName
def password (userName : String) : UserModel × String := query m UserInfo.password "" userName
def isGuest (userName : String) : UserModel × Bool := query m UserInfo.guest true userName

def isRememberPassword (userName : String) : UserModel × Bool :=
  query m UserInfo.rememberPassword false userName

end Operations

end UserModel

end GBerry.Mobile
