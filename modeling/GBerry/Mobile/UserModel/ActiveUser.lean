import GBerry.Mobile.UserModel.Calls

/-!
# The index of the active user

The index is read from the file and checked once, against the number of users that
the file lists.  The check lets the number itself pass, and negative indices.
-/

namespace GBerry.Mobile

open GBerry.Common
open GBerry.Foundation

namespace UserModel

/-- The active user is there, or there is none, and no accessor reads beyond the list. -/
structure InBounds (m : UserModel) : Prop where
  index : m.activeUserIndex = -1 ∨ 0 ≤ m.activeUserIndex ∧ m.activeUserIndex < m.users.length
  userName : ∃ value, currentUserName m = .ok value
  email : ∃ value, currentEmail m = .ok value
  password : ∃ value, currentPassword m = .ok value
  isGuest : ∃ value, currentIsGuest m = .ok value
  isRememberPassword : ∃ value, currentIsRememberPassword m = .ok value

def Lists (ini : QSettings) (n : Nat) : Prop :=
  (∀ i < n, ini.contains (mkkey USERNAME_KEY (i + 1)) = true) ∧
    ini.contains (mkkey USERNAME_KEY (n + 1)) = false

def lastActiveUser (ini : QSettings) : Int :=
  (QSettings.toInt (ini.value LAST_ACTIVE_USER) - 1).bmod (2 ^ 32)

/-- The last active user of the file is none, or at least not the one after the last. -/
def ActiveValid (ini : QSettings) : Prop :=
  ini.fileExists = true → ini.contains LAST_ACTIVE_USER = true →
    ∀ n, Lists ini n → -1 ≤ lastActiveUser ini ∧ lastActiveUser ini ≠ n

section Keys

theorem isDigit_of_mem_repr {i : Nat} {c : Char} (h : c ∈ (toString i).toList) :
    c.isDigit = true := by
  have hrepr : (toString i).toList = Nat.toDigits 10 i := Nat.toList_repr
  rw [hrepr] at h
  exact Nat.isDigit_of_mem_toDigits (by decide) (by decide) h

theorem repr_ne_nil (i : Nat) : (toString i).toList ≠ [] := by
  have hrepr : (toString i).toList = Nat.toDigits 10 i := Nat.toList_repr
  rw [hrepr]
  exact Nat.toDigits_ne_nil

theorem mkkey_ne {key : String} (h : key.toList.any Char.isDigit = false)
    (baseKey : String) (i : Nat) : mkkey baseKey i ≠ key := by
  rintro rfl
  obtain ⟨c, digits, hdigits⟩ := List.exists_cons_of_ne_nil (repr_ne_nil i)
  have hmem : c ∈ (toString i).toList := by
    rw [hdigits]
    exact List.mem_cons_self
  have hnot := List.any_eq_false.mp h c (by
    rw [mkkey, String.toList_append]
    exact List.mem_append_right _ hmem)
  exact hnot (isDigit_of_mem_repr hmem)

theorem contains_ensureVersion {ini : QSettings} (baseKey : String) (i : Nat) :
    (ensureVersion ini).contains (mkkey baseKey i) = ini.contains (mkkey baseKey i) := by
  unfold ensureVersion
  split
  · rfl
  · have hne := @mkkey_ne FILE_VERSION_KEY (by decide) baseKey i
    rw [QSettings.contains_setValue, beq_eq_false_iff_ne.mpr hne, Bool.false_or]

end Keys

section Loading

variable {ini : QSettings}

theorem lists_unique {n k : Nat} (h : Lists ini n) (h' : Lists ini k) : n = k := by
  obtain ⟨hthere, hmissing⟩ := h
  obtain ⟨hthere', hmissing'⟩ := h'
  rcases Nat.lt_trichotomy n k with hlt | heq | hgt
  · cases hmissing.symm.trans (hthere' n hlt)
  · exact heq
  · cases hmissing'.symm.trans (hthere k hgt)

theorem lists_ensureVersion {n : Nat} : Lists (ensureVersion ini) n ↔ Lists ini n := by
  simp only [Lists, contains_ensureVersion]

theorem readUsers_lists (ini : QSettings) :
    Lists ini (readUsers ini (ini.values.size + 1) 1).length := by
  obtain ⟨n, hthere, hmissing, hread⟩ := @readUsers_size ini 1
  rw [hread, List.length_map, List.length_range]
  refine ⟨fun i hi => ?_, ?_⟩
  · rw [Nat.add_comm]
    exact hthere i hi
  · rw [Nat.add_comm]
    exact hmissing

theorem value_lastActive :
    (ensureVersion ini).value LAST_ACTIVE_USER = ini.value LAST_ACTIVE_USER ∧
      (ensureVersion ini).contains LAST_ACTIVE_USER = ini.contains LAST_ACTIVE_USER := by
  unfold ensureVersion
  split
  · exact ⟨rfl, rfl⟩
  · rw [QSettings.value_setValue, if_neg (by decide), QSettings.contains_setValue]
    exact ⟨rfl, rfl⟩

theorem index_load_iff (ini : QSettings) :
    ((load ini).activeUserIndex = -1 ∨
      0 ≤ (load ini).activeUserIndex ∧ (load ini).activeUserIndex < (load ini).users.length) ↔
      ActiveValid ini := by
  unfold load
  split
  · rename_i hexists
    have hlists := lists_ensureVersion.mp (readUsers_lists (ensureVersion ini))
    obtain ⟨hvalue, hcontains⟩ := @value_lastActive ini
    simp only [readActiveUserIndex, hvalue, hcontains]
    generalize (readUsers (ensureVersion ini) ((ensureVersion ini).values.size + 1) 1) = users
      at hlists ⊢
    by_cases hsaved : ini.contains LAST_ACTIVE_USER = true
    · have hvalid : ActiveValid ini ↔
          -1 ≤ lastActiveUser ini ∧ lastActiveUser ini ≠ users.length := by
        constructor
        · intro h
          exact h hexists hsaved users.length hlists
        · intro h _ _ n hn
          rw [lists_unique hn hlists]
          exact h
      rw [hvalid, if_pos hsaved]
      have hread : (QSettings.toInt (ini.value LAST_ACTIVE_USER) - 1).bmod (2 ^ 32) =
          lastActiveUser ini := rfl
      rw [hread]
      split
      · omega
      · omega
    · rw [if_neg hsaved]
      exact iff_of_true (.inl rfl) fun _ h => absurd h hsaved
  · rename_i hmissing
    exact iff_of_true (.inl rfl) fun h => absurd h hmissing

end Loading

section Accessors

variable {m : UserModel}

theorem ofCurrent_ok {α : Type} (member : UserInfo → α) (absent : α)
    (h : m.activeUserIndex = -1 ∨
      0 ≤ m.activeUserIndex ∧ m.activeUserIndex < m.users.length) :
    ∃ value, ofCurrent m member absent = .ok value := by
  unfold ofCurrent
  split
  · rename_i hactive
    obtain ⟨hlow, hhigh⟩ := h.resolve_left hactive
    have hindex : m.activeUserIndex.toNat < m.users.length := by omega
    refine ⟨member m.users[m.activeUserIndex.toNat], ?_⟩
    rw [userAt, if_neg (by omega), List.getElem?_eq_getElem hindex]
    rfl
  · exact ⟨absent, rfl⟩

theorem inBounds_iff : InBounds m ↔
    m.activeUserIndex = -1 ∨ 0 ≤ m.activeUserIndex ∧ m.activeUserIndex < m.users.length := by
  refine ⟨InBounds.index, fun h => ?_⟩
  exact ⟨h, ofCurrent_ok _ _ h, ofCurrent_ok _ _ h, ofCurrent_ok _ _ h, ofCurrent_ok _ _ h,
    ofCurrent_ok _ _ h⟩

theorem Change.inBounds {m' : UserModel} {call : UserModelCall} (h : Change m call m')
    (hm : InBounds m) : InBounds m' := by
  have hindex := inBounds_iff.mp hm
  refine inBounds_iff.mpr ?_
  cases h with
  | @replaced userInfo i hfound =>
      simp only [save, List.length_set]
      exact hindex
  | added hnone =>
      simp only [save, List.length_append, List.length_singleton]
      omega
  | @selected userName i hfound =>
      have hlt := (List.findIdx?_eq_some_iff_getElem.mp hfound).1
      simp only [save]
      omega
  | notFound => exact hindex
  | unselected => exact .inl rfl
  | @queried _ userName hquery =>
      obtain ⟨user, hcached⟩ := @updateCachedUser_fst m userName
      rw [hcached]
      exact hindex

end Accessors

theorem activeUser_inBounds_iff (ini : QSettings) (calls : List UserModelCall) :
    Execution.Always (machine ini) (fun _ m => InBounds m) (trace ini calls).1 ↔
      ActiveValid ini := by
  rw [Execution.always_iff_start (C := fun _ => True) ?_ (trace_execution ini calls)]
  · rw [and_iff_left fun _ _ => trivial, ← index_load_iff]
    exact inBounds_iff
  · intro older m m' call out _ hm hstep
    exact iff_of_true ((step_change hstep).inBounds hm) trivial

def activeAfterLast : QSettings :=
  (QSettings.mk false ∅ |>.setValue (mkkey USERNAME_KEY 1) "ann").setValue LAST_ACTIVE_USER "2"

theorem activeAfterLast_outOfBounds :
    ¬ Execution.Always (machine activeAfterLast) (fun _ m => InBounds m)
      (trace activeAfterLast []).1 := by
  intro halways
  have hstart := halways [] (load activeAfterLast) List.nil_suffix .start
  have hindex : ¬ ((load activeAfterLast).activeUserIndex = -1 ∨
      0 ≤ (load activeAfterLast).activeUserIndex ∧
        (load activeAfterLast).activeUserIndex < (load activeAfterLast).users.length) := by
    decide +kernel
  exact hindex hstart.index

end UserModel

end GBerry.Mobile
