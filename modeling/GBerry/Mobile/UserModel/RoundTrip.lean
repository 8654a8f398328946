import GBerry.Mobile.UserModel.File

/-!
# A user model and its file

What a new model reads from the file of another one.  Saving writes the members of
every user in place and never takes a password away, so that the file keeps the
password that a user had when it was last to be remembered.
-/

namespace GBerry.Mobile

open GBerry.Common
open GBerry.Foundation

namespace UserModel

/-- The user as a later model should find him. -/
def forget (user : UserInfo) : UserInfo :=
  if user.rememberPassword then user else { user with password := "" }

/-- A new model on the same file has the same users, and the same one is active. -/
structure RoundTrips (m : UserModel) : Prop where
  users : (load m.ini).users = m.users.map forget
  active : (load m.ini).activeUserIndex = m.activeUserIndex

/--
The password of user `i` when it was last to be remembered, or else the one that the
file had at first.
-/
def remembered (ini : QSettings) : History → Nat → String
  | [], i => ini.value (mkkey PASSWORD_KEY (i + 1))
  | st :: older, i =>
      match st.post.users[i]? with
      | some user =>
          if user.rememberPassword then user.password else remembered ini older i
      | none => remembered ini older i

/--
There was no user behind a gap in the file, the password of a user who is not to be
remembered was empty when it was last remembered, and the active index is one of 32 bits.
-/
structure Forgets (ini : QSettings) (history : History) (m : UserModel) : Prop where
  noGap : ini.contains (mkkey USERNAME_KEY (m.users.length + 1)) = false
  passwords : ∀ i user, m.users[i]? = some user → user.rememberPassword = false →
    remembered ini history i = ""
  active : m.activeUserIndex < 2 ^ 31

structure Filed (ini : QSettings) (history : History) (m : UserModel) : Prop where
  there : ∀ i < m.users.length, m.ini.contains (mkkey USERNAME_KEY (i + 1)) = true
  users : ∀ i user, m.users[i]? = some user →
    readUser m.ini (i + 1) = { user with password := remembered ini history i }
  passwords : ∀ i user, m.users[i]? = some user → user.rememberPassword = true →
    remembered ini history i = user.password
  stored : ∀ i, (m.ini.values[mkkey PASSWORD_KEY (i + 1)]?).getD "" = remembered ini history i
  behind : ∀ i, m.users.length ≤ i → m.ini.contains (mkkey USERNAME_KEY (i + 1)) =
    ini.contains (mkkey USERNAME_KEY (i + 1))
  index : -2 ^ 31 ≤ m.activeUserIndex ∧ m.activeUserIndex ≤ m.users.length
  active : m.ini.fileExists = true → m.activeUserIndex < 2 ^ 31 →
    ∀ users : List UserInfo, users.length = m.users.length →
      readActiveUserIndex (ensureVersion m.ini) users = m.activeUserIndex
  missing : m.ini.fileExists = false → ini.fileExists = false ∧ m.users = [] ∧
    m.activeUserIndex = -1

section Loading

variable {ini : QSettings}

theorem ensureVersion_idempotent : ensureVersion (ensureVersion ini) = ensureVersion ini := by
  have hthere : (ensureVersion ini).contains FILE_VERSION_KEY = true := by
    unfold ensureVersion
    split
    · assumption
    · rw [QSettings.contains_setValue, beq_self_eq_true, Bool.true_or]
  exact if_pos hthere

theorem readUsers_getElem? {i : Nat} {user : UserInfo}
    (h : (readUsers ini (ini.values.size + 1) 1)[i]? = some user) :
    user = readUser ini (i + 1) := by
  obtain ⟨n, -, -, hread⟩ := @readUsers_size ini 1
  rw [hread, List.getElem?_map, Option.map_eq_some_iff] at h
  obtain ⟨k, hk, rfl⟩ := h
  obtain ⟨hlt, rfl⟩ := List.getElem?_eq_some_iff.mp hk
  rw [List.getElem_range, Nat.add_comm]

theorem ensureVersion_exists (h : ini.fileExists = true) :
    (ensureVersion ini).fileExists = true := by
  unfold ensureVersion
  split
  · exact h
  · rfl

theorem load_exists (h : ini.fileExists = true) : load ini =
    { ini := ensureVersion ini
      users := readUsers (ensureVersion ini) ((ensureVersion ini).values.size + 1) 1
      activeUserIndex := readActiveUserIndex (ensureVersion ini)
        (readUsers (ensureVersion ini) ((ensureVersion ini).values.size + 1) 1)
      cachedUser := UserInfo.initial } :=
  if_pos h

theorem load_missing (h : ini.fileExists = false) : load ini =
    { ini := ini, users := [], activeUserIndex := -1, cachedUser := UserInfo.initial } :=
  if_neg (by rw [h]; exact Bool.false_ne_true)

theorem filed_start (ini : QSettings) : Filed ini [] (load ini) := by
  cases hexists : ini.fileExists with
  | true =>
      rw [load_exists hexists]
      have hstored : ∀ i, ((ensureVersion ini).values[mkkey PASSWORD_KEY (i + 1)]?).getD "" =
          remembered ini [] i := fun i => by
        rw [ensureVersion_key]
        rfl
      have hlists := readUsers_lists (ensureVersion ini)
      have hread := @readUsers_getElem? (ensureVersion ini)
      generalize readUsers (ensureVersion ini) ((ensureVersion ini).values.size + 1) 1 = users
        at hlists hread ⊢
      have hremembered : ∀ i user, users[i]? = some user →
          remembered ini [] i = user.password := by
        intro i user h
        rw [hread h, ← hstored, readUser_eq]
      refine ⟨hlists.1, ?_, fun i user h _ => hremembered i user h, hstored, ?_, ?_, ?_, ?_⟩
      · intro i user h
        rw [hremembered i user h, ← hread h]
      · intro i _
        exact contains_ensureVersion USERNAME_KEY (i + 1)
      · obtain ⟨hlow, -, hle⟩ := @readActiveUserIndex_range (ensureVersion ini) users
        exact ⟨hlow, hle⟩
      · intro _ _ users' hsame
        simp only [ensureVersion_idempotent, readActiveUserIndex, hsame]
      · intro hnot
        cases (ensureVersion_exists hexists).symm.trans hnot
  | false =>
      rw [load_missing hexists]
      exact ⟨by simp, by simp, by simp, fun i => rfl, fun i _ => rfl, by simp,
        fun h => absurd (hexists.symm.trans h) (by simp), fun _ => ⟨hexists, rfl, rfl⟩⟩

end Loading

section Steps

variable {ini : QSettings} {history : History} {m m' : UserModel} {call : UserModelCall}
  {out : List UserModelOutput}

theorem readUser_written {user : UserInfo} {ini' : QSettings} {k : Nat}
    (h : ∀ baseKey ∈ userKeys, ini'.values[mkkey baseKey k]? =
      (written user baseKey).or ini.values[mkkey baseKey k]?) :
    readUser ini' k = { user with
      password := (ini'.values[mkkey PASSWORD_KEY k]?).getD "" } := by
  rw [readUser_eq, h USERNAME_KEY (by decide), h EMAIL_KEY (by decide),
    h GUEST_KEY (by decide), h REMEMBER_PASSWORD_KEY (by decide)]
  have hname : written user USERNAME_KEY = some user.userName := rfl
  have hemail : written user EMAIL_KEY = some user.email := rfl
  have hguest : written user GUEST_KEY = some (QSettings.ofBool user.guest) := rfl
  have hremember : written user REMEMBER_PASSWORD_KEY =
      some (QSettings.ofBool user.rememberPassword) := rfl
  simp only [hname, hemail, hguest, hremember, Option.some_or, Option.getD_some,
    Option.elim_some, QSettings.toBool_ofBool]

theorem written_password (user : UserInfo) : written user PASSWORD_KEY =
    if user.rememberPassword = true then some user.password else none := by
  simp [written, PASSWORD_KEY, USERNAME_KEY, EMAIL_KEY, GUEST_KEY, REMEMBER_PASSWORD_KEY]

theorem Filed.save (h : Filed ini history m) {users : List UserInfo} {active : Int}
    (hlength : m.users.length ≤ users.length) (hlow : -2 ^ 31 ≤ active)
    (hle : active ≤ users.length) :
    Filed ini
      (⟨m, call, out, UserModel.save { m with users := users, activeUserIndex := active }⟩ ::
        history)
      (UserModel.save { m with users := users, activeUserIndex := active }) := by
  have hkey := fun baseKey (hbase : baseKey ∈ userKeys) => @save_key
    { m with users := users, activeUserIndex := active } baseKey hbase
  obtain ⟨hcontains, hvalue⟩ :=
    @save_active { m with users := users, activeUserIndex := active }
  generalize hsaved : UserModel.save { m with users := users, activeUserIndex := active } = m'
    at *
  have husers : m'.users = users := by
    rw [← hsaved]
    rfl
  have hactive : m'.activeUserIndex = active := by
    rw [← hsaved]
    rfl
  have hstored : ∀ i, (m'.ini.values[mkkey PASSWORD_KEY (i + 1)]?).getD "" =
      remembered ini (⟨m, call, out, m'⟩ :: history) i := by
    intro i
    rw [hkey PASSWORD_KEY (by decide), remembered, husers]
    cases users[i]? with
    | none => exact h.stored i
    | some user =>
        simp only [Option.bind_some, written_password]
        split
        · rfl
        · exact h.stored i
  refine ⟨?_, ?_, ?_, hstored, ?_, ?_, ?_, ?_⟩
  · intro i hi
    rw [husers] at hi
    rw [contains_key, hkey USERNAME_KEY (by decide), List.getElem?_eq_getElem hi]
    rfl
  · intro i user hi
    rw [husers] at hi
    rw [← hstored]
    refine @readUser_written m.ini _ _ _ fun baseKey hbase => ?_
    rw [hkey baseKey hbase, hi]
    rfl
  · intro i user hi hremember
    rw [remembered, hi]
    exact if_pos hremember
  · intro i hi
    rw [husers] at hi
    rw [contains_key, hkey USERNAME_KEY (by decide), List.getElem?_eq_none hi,
      ← h.behind i (by omega), contains_key]
    rfl
  · rw [hactive, husers]
    exact ⟨hlow, hle⟩
  · intro _ hhigh users' hsame
    rw [hactive] at hhigh
    obtain ⟨hvalue', hcontains'⟩ := @value_lastActive m'.ini
    rw [hactive, husers] at *
    refine readActiveUserIndex_eq (hcontains'.trans hcontains) (hvalue'.trans hvalue) hlow
      hhigh ?_
    omega
  · intro hmissing
    have hexists : m'.ini.fileExists = true := by
      rw [← hsaved]
      rfl
    cases hexists.symm.trans hmissing

theorem Filed.unsaved (h : Filed ini history m) (hini : m'.ini = m.ini)
    (husers : m'.users = m.users) (hactive : m'.activeUserIndex = m.activeUserIndex) :
    Filed ini (⟨m, call, out, m'⟩ :: history) m' := by
  have hsame : remembered ini (⟨m, call, out, m'⟩ :: history) = remembered ini history := by
    funext i
    rw [remembered, husers]
    cases hi : m.users[i]? with
    | none => rfl
    | some user =>
        simp only
        split
        · rename_i hremember
          exact (h.passwords i user hi hremember).symm
        · rfl
  obtain ⟨hthere, hread, hpasswords, hstored, hbehind, hindex, hlast, hmissing⟩ := h
  rw [← hini, ← husers, ← hactive, ← hsame] at *
  exact ⟨hthere, hread, hpasswords, hstored, hbehind, hindex, hlast, hmissing⟩

theorem Change.filed (hcall : Change m call m') (h : Filed ini history m) :
    Filed ini (⟨m, call, out, m'⟩ :: history) m' := by
  obtain ⟨hlow, hle⟩ := h.index
  cases hcall with
  | @replaced userInfo i hfound =>
      exact h.save (List.length_set ..).ge hlow (by rwa [List.length_set])
  | @added userInfo hnone =>
      have hlength : (m.users ++ [userInfo]).length = m.users.length + 1 := List.length_append
      exact h.save (by omega) hlow (by omega)
  | @selected userName i hfound =>
      have hlt := (List.findIdx?_eq_some_iff_getElem.mp hfound).1
      exact h.save (Nat.le_refl _) (by omega) (by omega)
  | notFound => exact h.unsaved rfl rfl rfl
  | unselected => exact h.save (Nat.le_refl _) (by decide) (by omega)
  | @queried _ userName hquery =>
      obtain ⟨user, hcached⟩ := @updateCachedUser_fst m userName
      rw [hcached]
      exact h.unsaved rfl rfl rfl

theorem filed_of_execution (h : Execution (machine ini) history m) : Filed ini history m :=
  h.invariant (filed_start ini) fun _ hm hstep => (step_change hstep).filed hm

end Steps

section Reloading

variable {ini : QSettings} {history : History} {m : UserModel}

theorem forget_eq_iff (user : UserInfo) {password : String}
    (h : user.rememberPassword = true → password = user.password) :
    forget user = { user with password := password } ↔
      (user.rememberPassword = false → password = "") := by
  unfold forget
  split
  · rename_i hremember
    rw [h hremember]
    exact iff_of_true rfl fun hnot => absurd hremember (by simp [hnot])
  · rename_i hremember
    rw [UserInfo.mk.injEq]
    simp [hremember, eq_comm]

theorem Filed.length_iff (h : Filed ini history m) {n : Nat} (hlists : Lists m.ini n) :
    n = m.users.length ↔ ini.contains (mkkey USERNAME_KEY (m.users.length + 1)) = false := by
  rw [← h.behind m.users.length (Nat.le_refl _)]
  constructor
  · rintro rfl
    exact hlists.2
  · intro hgap
    exact lists_unique hlists ⟨h.there, hgap⟩

theorem Filed.users_iff (h : Filed ini history m) {users : List UserInfo}
    (hlists : Lists m.ini users.length)
    (hread : ∀ i user, users[i]? = some user → user = readUser m.ini (i + 1)) :
    users = m.users.map forget ↔
      ini.contains (mkkey USERNAME_KEY (m.users.length + 1)) = false ∧
        ∀ i user, m.users[i]? = some user → user.rememberPassword = false →
          remembered ini history i = "" := by
  have hforget : ∀ i user, m.users[i]? = some user →
      (readUser m.ini (i + 1) = forget user ↔
        (user.rememberPassword = false → remembered ini history i = "")) := by
    intro i user hi
    rw [h.users i user hi, eq_comm]
    exact forget_eq_iff user (h.passwords i user hi)
  rw [← h.length_iff hlists]
  constructor
  · intro husers
    refine ⟨by rw [husers, List.length_map], fun i user hi => ?_⟩
    refine (hforget i user hi).mp (hread i (forget user) ?_).symm
    rw [husers, List.getElem?_map, hi]
    rfl
  · rintro ⟨hlength, hpasswords⟩
    refine List.ext_getElem (by rw [List.length_map, hlength]) fun i hi hi' => ?_
    have huser := List.getElem?_eq_getElem (hlength ▸ hi : i < m.users.length)
    rw [List.getElem_map, hread i users[i] (List.getElem?_eq_getElem hi)]
    exact (hforget i _ huser).mpr (hpasswords i _ huser)

theorem Filed.roundTrips_iff_forgotten (h : Filed ini history m)
    (hmissing : ini.fileExists = false → ini.values = ∅) :
    RoundTrips m ↔ Forgets ini history m := by
  cases hexists : m.ini.fileExists with
  | true =>
      have hload := load_exists hexists
      have hlists := lists_ensureVersion.mp (readUsers_lists (ensureVersion m.ini))
      have hread : ∀ i user,
          (readUsers (ensureVersion m.ini) ((ensureVersion m.ini).values.size + 1) 1)[i]? =
            some user → user = readUser m.ini (i + 1) := by
        intro i user hi
        rw [readUsers_getElem? hi]
        exact readUser_congr fun baseKey _ => ensureVersion_key baseKey (i + 1)
      generalize readUsers (ensureVersion m.ini) ((ensureVersion m.ini).values.size + 1) 1 =
        users at hload hlists hread
      have husers := h.users_iff hlists hread
      have hlength := h.length_iff hlists
      constructor
      · rintro ⟨hsame, hactive⟩
        rw [hload] at hsame hactive
        obtain ⟨hgap, hpasswords⟩ := husers.mp hsame
        obtain ⟨-, hhigh, -⟩ := @readActiveUserIndex_range (ensureVersion m.ini) users
        exact ⟨hgap, hpasswords, hactive ▸ hhigh⟩
      · rintro ⟨hgap, hpasswords, hhigh⟩
        have hsame := husers.mpr ⟨hgap, hpasswords⟩
        have hactive := h.active hexists hhigh users (hlength.mpr hgap)
        exact ⟨by rw [hload, hsame], by rw [hload, hactive]⟩
  | false =>
      obtain ⟨hfirst, husers, hactive⟩ := h.missing hexists
      have hload := load_missing hexists
      refine iff_of_true ⟨by rw [hload, husers, List.map_nil], by rw [hload, hactive]⟩ ?_
      refine ⟨?_, by simp [husers], by omega⟩
      simp [QSettings.contains, hmissing hfirst]

end Reloading

theorem roundTrips_iff (file : Option (QMap String String)) (calls : List UserModelCall) :
    RoundTrips (trace (.ofFile file) calls).2 ↔
      Forgets (.ofFile file) (trace (.ofFile file) calls).1 (trace (.ofFile file) calls).2 := by
  refine (filed_of_execution (trace_execution (.ofFile file) calls)).roundTrips_iff_forgotten ?_
  cases file with
  | none => intro _; rfl
  | some values => simp [QSettings.ofFile]

def annRemembered (rememberPassword : Bool) : UserInfo :=
  ⟨"ann", "ann@home", "secret", false, rememberPassword⟩

def rememberedOnce : List UserModelCall :=
  [.setUser (annRemembered true), .setUser (annRemembered false)]

theorem rememberedOnce_kept :
    ¬ RoundTrips (trace (.ofFile none) rememberedOnce).2 := by
  intro h
  have hread : (load (trace (.ofFile none) rememberedOnce).2.ini).users.map UserInfo.password =
      ["secret"] := by
    decide +kernel
  have hforget : ((trace (.ofFile none) rememberedOnce).2.users.map forget).map
      UserInfo.password = [""] := by
    decide +kernel
  rw [h.users, hforget] at hread
  revert hread
  decide

end UserModel

end GBerry.Mobile
