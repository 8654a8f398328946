import GBerry.Mobile.UserModel.ActiveUser

/-!
# What the file of a user model holds

The keys of one user, and what `save` writes under them: a text for each member, but
none for a password that is not to be remembered.  The active user is written as a
decimal number, counted from 1.
-/

namespace GBerry.Mobile

open GBerry.Common
open GBerry.Foundation

namespace UserModel

section Keys

def written (user : UserInfo) (baseKey : String) : Option String :=
  if baseKey = USERNAME_KEY then some user.userName
  else if baseKey = EMAIL_KEY then some user.email
  else if baseKey = GUEST_KEY then some (QSettings.ofBool user.guest)
  else if baseKey = REMEMBER_PASSWORD_KEY then some (QSettings.ofBool user.rememberPassword)
  else if baseKey = PASSWORD_KEY ∧ user.rememberPassword = true then some user.password
  else none

def userKeys : List String :=
  [USERNAME_KEY, EMAIL_KEY, GUEST_KEY, REMEMBER_PASSWORD_KEY, PASSWORD_KEY]

theorem takeWhile_digits {before digits : List Char} (h : before.any Char.isDigit = false)
    (hdigits : ∀ c ∈ digits, c.isDigit = true) :
    (before ++ digits).takeWhile (fun c => !c.isDigit) = before := by
  induction before with
  | nil =>
      cases digits with
      | nil => rfl
      | cons c digits => simp [hdigits c List.mem_cons_self]
  | cons c before ih =>
      rw [List.any_cons, Bool.or_eq_false_iff] at h
      simp [h.1, ih h.2]

theorem mkkey_inj {baseKey baseKey' : String} {i j : Nat}
    (h : baseKey.toList.any Char.isDigit = false)
    (h' : baseKey'.toList.any Char.isDigit = false) :
    mkkey baseKey i = mkkey baseKey' j ↔ baseKey = baseKey' ∧ i = j := by
  constructor
  · intro heq
    have hlist := congrArg String.toList heq
    simp only [mkkey, String.toList_append] at hlist
    have hbase := congrArg (List.takeWhile fun c => !c.isDigit) hlist
    rw [takeWhile_digits h fun c hc => isDigit_of_mem_repr hc,
      takeWhile_digits h' fun c hc => isDigit_of_mem_repr hc, String.toList_inj] at hbase
    subst hbase
    exact ⟨rfl, mkkey_injective baseKey heq⟩
  · rintro ⟨rfl, rfl⟩
    rfl

theorem userKeys_letters {baseKey : String} (h : baseKey ∈ userKeys) :
    baseKey.toList.any Char.isDigit = false := by
  have hall : ∀ baseKey ∈ userKeys, baseKey.toList.any Char.isDigit = false := by decide
  exact hall baseKey h

end Keys

section Writing

variable {ini : QSettings}

theorem setValue_key (text : String) (key k : String) :
    (ini.setValue key text).values[k]? = if k = key then some text else ini.values[k]? :=
  QMap.getElem?_insert ini.values key k text

theorem saveUser_key (user : UserInfo) (i : Nat) {baseKey : String} (h : baseKey ∈ userKeys)
    (k : Nat) : (saveUser ini (user, i)).values[mkkey baseKey k]? =
      if k = i + 1 then (written user baseKey).or ini.values[mkkey baseKey k]?
      else ini.values[mkkey baseKey k]? := by
  have hkey : ∀ baseKey' ∈ userKeys, mkkey baseKey k = mkkey baseKey' (i + 1) ↔
      baseKey = baseKey' ∧ k = i + 1 := fun baseKey' h' =>
    mkkey_inj (userKeys_letters h) (userKeys_letters h')
  simp only [saveUser]
  split
  all_goals
    rename_i hremember
    simp only [setValue_key, hkey USERNAME_KEY (by decide), hkey EMAIL_KEY (by decide),
      hkey GUEST_KEY (by decide), hkey REMEMBER_PASSWORD_KEY (by decide),
      hkey PASSWORD_KEY (by decide), written, hremember]
    by_cases hk : k = i + 1
    · simp only [userKeys, List.mem_cons, List.not_mem_nil, or_false] at h
      rcases h with rfl | rfl | rfl | rfl | rfl <;> simp [hk, USERNAME_KEY, EMAIL_KEY, GUEST_KEY,
        REMEMBER_PASSWORD_KEY, PASSWORD_KEY]
    · simp [hk]

def numbered (users : List UserInfo) (n k : Nat) : Option UserInfo :=
  if n < k then users[k - 1 - n]? else none

theorem saveUsers_key (users : List UserInfo) (n : Nat) {baseKey : String}
    (h : baseKey ∈ userKeys) (k : Nat) :
    ((users.zipIdx n).foldl saveUser ini).values[mkkey baseKey k]? =
      ((numbered users n k).bind (written · baseKey)).or ini.values[mkkey baseKey k]? := by
  induction users generalizing ini n with
  | nil => simp [numbered]
  | cons user users ih =>
      rw [List.zipIdx_cons, List.foldl_cons, ih, saveUser_key user n h]
      by_cases hk : k = n + 1
      · subst hk
        simp [numbered]
      · rw [if_neg hk]
        unfold numbered
        by_cases hlt : n + 1 < k
        · have hindex : k - 1 - n = k - 1 - (n + 1) + 1 := by omega
          rw [if_pos hlt, if_pos (by omega), hindex, List.getElem?_cons_succ]
        · rw [if_neg hlt, if_neg (by omega)]

variable {m : UserModel}

theorem save_key {baseKey : String} (h : baseKey ∈ userKeys) (i : Nat) :
    (save m).ini.values[mkkey baseKey (i + 1)]? =
      ((m.users[i]?).bind (written · baseKey)).or m.ini.values[mkkey baseKey (i + 1)]? := by
  have hne : mkkey baseKey (i + 1) ≠ LAST_ACTIVE_USER :=
    mkkey_ne (by decide) baseKey (i + 1)
  simp only [save, setValue_key, if_neg hne]
  have hkey := @saveUsers_key m.ini m.users 0 baseKey h (i + 1)
  rw [hkey, numbered, if_pos (Nat.succ_pos i)]
  rfl

theorem save_active : (save m).ini.contains LAST_ACTIVE_USER = true ∧
    (save m).ini.value LAST_ACTIVE_USER = toString (m.activeUserIndex + 1) := by
  simp [save, QSettings.contains_setValue, QSettings.value_setValue]

end Writing

section Reading

variable {ini : QSettings}

theorem contains_key (key : String) : ini.contains key = (ini.values[key]?).isSome :=
  Std.ExtTreeMap.contains_eq_isSome_getElem?

theorem readMember_eq {α : Type} (baseKey : String) (i : Nat) (convert : String → α)
    (initially : α) : readMember ini baseKey i convert initially =
      (ini.values[mkkey baseKey i]?).elim initially convert := by
  unfold readMember
  rw [contains_key, QSettings.value]
  cases ini.values[mkkey baseKey i]? with
  | none => rfl
  | some text => rfl

theorem readUser_eq (i : Nat) : readUser ini i =
    { userName := (ini.values[mkkey USERNAME_KEY i]?).getD ""
      email := (ini.values[mkkey EMAIL_KEY i]?).getD ""
      password := (ini.values[mkkey PASSWORD_KEY i]?).getD ""
      guest := (ini.values[mkkey GUEST_KEY i]?).elim true QSettings.toBool
      rememberPassword :=
        (ini.values[mkkey REMEMBER_PASSWORD_KEY i]?).elim false QSettings.toBool } := by
  simp only [readUser, readMember_eq, QSettings.value]
  refine UserInfo.mk.injEq .. |>.mpr ⟨rfl, ?_, ?_, rfl, rfl⟩
  · cases ini.values[mkkey EMAIL_KEY i]? <;> rfl
  · cases ini.values[mkkey PASSWORD_KEY i]? <;> rfl

theorem readUser_congr {ini' : QSettings} {i : Nat}
    (h : ∀ baseKey ∈ userKeys,
      ini'.values[mkkey baseKey i]? = ini.values[mkkey baseKey i]?) :
    readUser ini' i = readUser ini i := by
  rw [readUser_eq, readUser_eq, h USERNAME_KEY (by decide), h EMAIL_KEY (by decide),
    h PASSWORD_KEY (by decide), h GUEST_KEY (by decide), h REMEMBER_PASSWORD_KEY (by decide)]

theorem ensureVersion_key (baseKey : String) (i : Nat) :
    (ensureVersion ini).values[mkkey baseKey i]? = ini.values[mkkey baseKey i]? := by
  unfold ensureVersion
  split
  · rfl
  · rw [setValue_key, if_neg (mkkey_ne (by decide) baseKey i)]

theorem readActiveUserIndex_eq {users : List UserInfo} {active : Int}
    (hcontains : ini.contains LAST_ACTIVE_USER = true)
    (hvalue : ini.value LAST_ACTIVE_USER = toString (active + 1))
    (hlow : -2 ^ 31 ≤ active) (hhigh : active < 2 ^ 31) (hle : active ≤ users.length) :
    readActiveUserIndex ini users = active := by
  have htext : QSettings.toInt (ini.value LAST_ACTIVE_USER) = (active + 1).bmod (2 ^ 32) := by
    rw [hvalue, QSettings.toInt_toString (by omega) (by omega)]
  have hindex : ((active + 1).bmod (2 ^ 32) - 1).bmod (2 ^ 32) = active := by
    rw [Int.bmod_sub_bmod, Int.add_sub_cancel]
    exact Int.bmod_eq_of_le (by omega) (by omega)
  simp only [readActiveUserIndex, hcontains, if_true, htext, hindex, if_pos hle]

theorem readActiveUserIndex_range (users : List UserInfo) :
    -2 ^ 31 ≤ readActiveUserIndex ini users ∧ readActiveUserIndex ini users < 2 ^ 31 ∧
      readActiveUserIndex ini users ≤ users.length := by
  have hlow := Int.le_bmod
    (x := QSettings.toInt (ini.value LAST_ACTIVE_USER) - 1) (m := 2 ^ 32) (by decide)
  have hhigh := Int.bmod_lt
    (x := QSettings.toInt (ini.value LAST_ACTIVE_USER) - 1) (m := 2 ^ 32) (by decide)
  simp only [readActiveUserIndex]
  split
  · split
    · omega
    · omega
  · omega

end Reading

end UserModel

end GBerry.Mobile
