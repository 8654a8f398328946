import GBerry.Foundation.Execution
import GBerry.Server.ApplicationRegistry

/-!
# Identification codes

A code is what the clock says when an application is launched, and nothing checks that
it is new.  A code that is issued twice, or that is also a fixed code, identifies the
wrong application, or identifies one again.
-/

namespace GBerry.Server.ApplicationRegistry

open GBerry.Common
open GBerry.Foundation

inductive RegistryEvent where
  | insertFixedIdentificationCode (appId code : String)
  | createIdentificationCode (appId : String) (elapsed : Int)
  | matchCodeToApplication (code : String)

inductive RegistryAnswer where
  | code (code : String)
  | application (appId : String)
  deriving DecidableEq

def perform (r : ApplicationRegistry) :
    RegistryEvent → ApplicationRegistry × List RegistryAnswer
  | .insertFixedIdentificationCode appId code =>
      (r.insertFixedIdentificationCode appId code, [])
  | .createIdentificationCode appId elapsed =>
      ((r.createIdentificationCode appId elapsed).1,
        [.code (r.createIdentificationCode appId elapsed).2])
  | .matchCodeToApplication code =>
      ((r.matchCodeToApplication code).2, [.application (r.matchCodeToApplication code).1])

def machine : Machine ApplicationRegistry RegistryEvent RegistryAnswer Empty where
  init := start
  step r event := .ok (r.perform event)

abbrev History := List (Step ApplicationRegistry RegistryEvent RegistryAnswer)

def identifies (r : ApplicationRegistry) (code : String) : String :=
  (r.matchCodeToApplication code).1

/-- The codes that were issued and not matched since, each with its application. -/
def outstanding : History → List (String × String)
  | [] => []
  | st :: older =>
      match st.label with
      | .createIdentificationCode appId elapsed => (toString elapsed, appId) :: outstanding older
      | .matchCodeToApplication code =>
          (outstanding older).filter fun issued => issued.1 ≠ code
      | .insertFixedIdentificationCode _ _ => outstanding older

def IsOutstanding (code : String) (history : History) : Prop :=
  ∃ appId, (code, appId) ∈ outstanding history

instance (code : String) (history : History) : Decidable (IsOutstanding code history) :=
  decidable_of_iff (code ∈ (outstanding history).map Prod.fst) (by simp [IsOutstanding])

/-- The codes that were matched after they were issued, and not issued again since. -/
def spent : History → List String
  | [] => []
  | st :: older =>
      match st.label with
      | .createIdentificationCode _ elapsed =>
          (spent older).filter fun code => code ≠ toString elapsed
      | .matchCodeToApplication code =>
          if IsOutstanding code older then code :: spent older else spent older
      | .insertFixedIdentificationCode _ _ => spent older

/-- What codes are for: each is the code of its application, and is so once. -/
structure Identifies (history : History) (r : ApplicationRegistry) : Prop where
  outstanding : ∀ code appId, (code, appId) ∈ outstanding history → r.identifies code = appId
  once : ∀ code ∈ spent history, r.identifies code = ""

/-- No fixed code stands for another application once a code is issued. -/
def KeepsFixed (st : Step ApplicationRegistry RegistryEvent RegistryAnswer) : Prop :=
  ∀ appId elapsed, st.label = .createIdentificationCode appId elapsed →
    ∀ code ∈ st.pre.appIdByFixedCode, st.post.identifies code = st.pre.identifies code

/--
The code that is issued is new, or is that of the same application already.  The code
that is matched, when it was issued, is no fixed code, and none that was matched
becomes one.
-/
def Unmistakable (older : History)
    (st : Step ApplicationRegistry RegistryEvent RegistryAnswer) : Prop :=
  match st.label with
  | .createIdentificationCode appId elapsed =>
      IsOutstanding (toString elapsed) older ∨ toString elapsed ∈ st.pre.appIdByFixedCode →
        st.pre.identifies (toString elapsed) = appId
  | .matchCodeToApplication code =>
      IsOutstanding code older → (st.pre.appIdByFixedCode[code]?).getD "" = ""
  | .insertFixedIdentificationCode appId code => code ∈ spent older → appId = ""

section Lookup

variable (r : ApplicationRegistry)

theorem identifies_eq (code : String) :
    r.identifies code =
      (r.appIdByCode[code]?).getD ((r.appIdByFixedCode[code]?).getD "") := by
  unfold identifies matchCodeToApplication
  cases r.appIdByCode[code]? with
  | some appId => rfl
  | none => cases r.appIdByFixedCode[code]? <;> rfl

theorem identifies_fixed {code : String} (hcode : code ∉ r.appIdByCode) :
    r.identifies code = (r.appIdByFixedCode[code]?).getD "" := by
  rw [identifies_eq, (QMap.notMem_iff _ _).mp hcode, Option.getD_none]

theorem matched_appIdByCode (code : String) :
    (r.matchCodeToApplication code).2.appIdByCode = r.appIdByCode.erase code := by
  unfold matchCodeToApplication
  split
  · rfl
  · rename_i hnone
    have herase : r.appIdByCode.erase code = r.appIdByCode := by
      refine Std.ExtTreeMap.ext_getElem? fun other => ?_
      rw [QMap.getElem?_erase]
      split
      · rename_i heq
        rw [heq, hnone]
      · rfl
    rw [herase]
    split <;> rfl

theorem matched_appIdByFixedCode (code : String) :
    (r.matchCodeToApplication code).2.appIdByFixedCode = r.appIdByFixedCode := by
  unfold matchCodeToApplication
  split
  · rfl
  · split <;> rfl

theorem identifies_created (appId : String) (elapsed : Int) (code : String) :
    (r.createIdentificationCode appId elapsed).1.identifies code =
      if code = toString elapsed then appId else r.identifies code := by
  simp only [identifies_eq, createIdentificationCode, QMap.getElem?_insert]
  split <;> rfl

theorem identifies_matched (code other : String) :
    (r.matchCodeToApplication code).2.identifies other =
      if other = code then (r.appIdByFixedCode[code]?).getD "" else r.identifies other := by
  rw [identifies_eq, identifies_eq, matched_appIdByCode, matched_appIdByFixedCode,
    QMap.getElem?_erase]
  split
  · rename_i heq
    rw [heq, Option.getD_none]
  · rfl

theorem identifies_inserted (appId code other : String) :
    (r.insertFixedIdentificationCode appId code).identifies other =
      if other = code ∧ other ∉ r.appIdByCode then appId else r.identifies other := by
  simp only [identifies_eq, insertFixedIdentificationCode, QMap.getElem?_insert,
    QMap.notMem_iff]
  cases r.appIdByCode[other]? with
  | some _ => simp
  | none =>
      by_cases heq : other = code
      · simp [heq]
      · simp [heq]

end Lookup

section Runs

variable {older history : History} {r r' : ApplicationRegistry} {event : RegistryEvent}
  {out : List RegistryAnswer}

theorem isOutstanding_created {appId code : String} {elapsed : Int} :
    IsOutstanding code (⟨r, .createIdentificationCode appId elapsed, out, r'⟩ :: older) ↔
      code = toString elapsed ∨ IsOutstanding code older := by
  simp only [IsOutstanding, outstanding, List.mem_cons, Prod.mk.injEq, exists_or]
  exact or_congr_left ⟨fun ⟨_, heq, _⟩ => heq, fun heq => ⟨appId, heq, rfl⟩⟩

theorem mem_outstanding_matched {appId code other : String} :
    (other, appId) ∈ outstanding (⟨r, .matchCodeToApplication code, out, r'⟩ :: older) ↔
      (other, appId) ∈ outstanding older ∧ other ≠ code := by
  simp [outstanding]

theorem isOutstanding_matched {code other : String} :
    IsOutstanding other (⟨r, .matchCodeToApplication code, out, r'⟩ :: older) ↔
      IsOutstanding other older ∧ other ≠ code := by
  simp only [IsOutstanding, mem_outstanding_matched, exists_and_right]

theorem mem_spent_created {appId code : String} {elapsed : Int} :
    code ∈ spent (⟨r, .createIdentificationCode appId elapsed, out, r'⟩ :: older) ↔
      code ∈ spent older ∧ code ≠ toString elapsed := by
  simp [spent]

theorem mem_spent_matched {code other : String} :
    other ∈ spent (⟨r, .matchCodeToApplication code, out, r'⟩ :: older) ↔
      other = code ∧ IsOutstanding code older ∨ other ∈ spent older := by
  by_cases h : IsOutstanding code older
  · simp [spent, h]
  · simp [spent, h]

theorem not_outstanding_of_spent {code : String} (h : code ∈ spent history) :
    ¬ IsOutstanding code history := by
  induction history with
  | nil => cases h
  | cons st older ih =>
      obtain ⟨r, event, out, r'⟩ := st
      cases event with
      | insertFixedIdentificationCode _ _ => exact ih h
      | createIdentificationCode appId elapsed =>
          obtain ⟨hspent, hne⟩ := mem_spent_created.mp h
          rw [isOutstanding_created]
          exact not_or.mpr ⟨hne, ih hspent⟩
      | matchCodeToApplication other =>
          rw [isOutstanding_matched]
          rintro ⟨hold, hne⟩
          rcases mem_spent_matched.mp h with ⟨heq, -⟩ | hspent
          · exact hne heq
          · exact ih hspent hold

def Keeps (history : History) (r : ApplicationRegistry) : Prop :=
  ∀ code, code ∈ r.appIdByCode ↔ IsOutstanding code history

theorem Keeps.perform (h : Keeps older r) (event : RegistryEvent) (out : List RegistryAnswer) :
    Keeps (⟨r, event, out, (r.perform event).1⟩ :: older) (r.perform event).1 := by
  intro code
  cases event with
  | insertFixedIdentificationCode _ _ => exact h code
  | createIdentificationCode appId elapsed =>
      rw [isOutstanding_created, ← h code]
      exact QMap.mem_insert_iff _ _ _ _
  | matchCodeToApplication other =>
      rw [isOutstanding_matched, ← h code]
      simp only [ApplicationRegistry.perform, matched_appIdByCode, QMap.mem_erase_iff]
      exact and_comm

theorem step_ok (h : machine.step r event = .ok (r', out)) : r' = (r.perform event).1 := by
  have hperform : r.perform event = (r', out) := Except.ok.inj h
  rw [hperform]

abbrev made (r : ApplicationRegistry) (event : RegistryEvent) (out : List RegistryAnswer) :
    Step ApplicationRegistry RegistryEvent RegistryAnswer :=
  ⟨r, event, out, (r.perform event).1⟩

theorem inserted_iff (hkeeps : Keeps older r) (hbefore : Identifies older r)
    (appId code : String) (out : List RegistryAnswer) :
    Identifies (made r (.insertFixedIdentificationCode appId code) out :: older)
        (r.insertFixedIdentificationCode appId code) ↔
      Unmistakable older (made r (.insertFixedIdentificationCode appId code) out) := by
  have hafter := r.identifies_inserted appId code
  constructor
  · intro hidentifies hspent
    have hfree := (hkeeps code).not.mpr (not_outstanding_of_spent hspent)
    have hnone := hidentifies.once code hspent
    rwa [hafter, if_pos ⟨rfl, hfree⟩] at hnone
  · intro hcondition
    refine ⟨?_, ?_⟩
    · intro other issuedTo hissued
      have hkept := (hkeeps other).mpr ⟨issuedTo, hissued⟩
      rw [hafter, if_neg fun hnew => hnew.2 hkept]
      exact hbefore.outstanding other issuedTo hissued
    · intro other hspent
      rw [hafter]
      split
      · rename_i hnew
        exact hcondition (hnew.1 ▸ hspent)
      · exact hbefore.once other hspent

theorem created_iff (hbefore : Identifies older r) (appId : String) (elapsed : Int)
    (out : List RegistryAnswer) :
    Identifies (made r (.createIdentificationCode appId elapsed) out :: older)
        (r.createIdentificationCode appId elapsed).1 ∧
        KeepsFixed (made r (.createIdentificationCode appId elapsed) out) ↔
      Unmistakable older (made r (.createIdentificationCode appId elapsed) out) := by
  have hafter := r.identifies_created appId elapsed
  constructor
  · rintro ⟨hidentifies, hfixed⟩ (⟨issuedTo, hissued⟩ | hknown)
    · have hnow := hidentifies.outstanding _ issuedTo (List.mem_cons_of_mem _ hissued)
      have hthen := hbefore.outstanding _ issuedTo hissued
      rw [hafter, if_pos rfl] at hnow
      exact hthen.trans hnow.symm
    · have hsame := hfixed appId elapsed rfl _ hknown
      simp only [perform, hafter, if_pos] at hsame
      exact hsame.symm
  · intro hcondition
    refine ⟨⟨?_, ?_⟩, ?_⟩
    · intro other issuedTo hissued
      rw [hafter]
      rcases List.mem_cons.mp hissued with hnew | hold
      · cases hnew
        exact if_pos rfl
      · have hthen := hbefore.outstanding other issuedTo hold
        split
        · rename_i heq
          subst heq
          exact (hcondition (.inl ⟨issuedTo, hold⟩)).symm.trans hthen
        · exact hthen
    · intro other hspent
      obtain ⟨hspent, hne⟩ := mem_spent_created.mp hspent
      rw [hafter, if_neg hne]
      exact hbefore.once other hspent
    · rintro _ _ ⟨⟩ other hknown
      simp only [perform, hafter]
      split
      · rename_i heq
        subst heq
        exact (hcondition (.inr hknown)).symm
      · rfl

theorem matched_iff (hkeeps : Keeps older r) (hbefore : Identifies older r) (code : String)
    (out : List RegistryAnswer) :
    Identifies (made r (.matchCodeToApplication code) out :: older)
        (r.matchCodeToApplication code).2 ↔
      Unmistakable older (made r (.matchCodeToApplication code) out) := by
  have hafter := r.identifies_matched code
  constructor
  · intro hidentifies hissued
    have hnone := hidentifies.once code (mem_spent_matched.mpr (.inl ⟨rfl, hissued⟩))
    rwa [hafter, if_pos rfl] at hnone
  · intro hcondition
    refine ⟨?_, ?_⟩
    · intro other issuedTo hissued
      obtain ⟨hold, hne⟩ := mem_outstanding_matched.mp hissued
      rw [hafter, if_neg hne]
      exact hbefore.outstanding other issuedTo hold
    · intro other hspent
      rw [hafter]
      rcases mem_spent_matched.mp hspent with ⟨rfl, hissued⟩ | hold
      · rw [if_pos rfl]
        exact hcondition hissued
      · have hnone := hbefore.once other hold
        split
        · rename_i heq
          subst heq
          have hfree := (hkeeps other).not.mpr (not_outstanding_of_spent hold)
          rwa [identifies_fixed r hfree] at hnone
        · exact hnone

/-- What one event leaves true of the codes, and when. -/
theorem identifies_iff (hkeeps : Keeps older r) (hbefore : Identifies older r)
    (event : RegistryEvent) (out : List RegistryAnswer) :
    Identifies (made r event out :: older) (r.perform event).1 ∧
        KeepsFixed (made r event out) ↔ Unmistakable older (made r event out) := by
  cases event with
  | insertFixedIdentificationCode appId code =>
      exact (and_iff_left nofun).trans (inserted_iff hkeeps hbefore appId code out)
  | createIdentificationCode appId elapsed => exact created_iff hbefore appId elapsed out
  | matchCodeToApplication code =>
      exact (and_iff_left nofun).trans (matched_iff hkeeps hbefore code out)

end Runs

/-- The codes do what they are for exactly when every one can be told from the others. -/
theorem codes_identify_iff {history : History} {r : ApplicationRegistry}
    (h : Execution machine history r) :
    Execution.EachStep
        (fun older st => Identifies (st :: older) st.post ∧ KeepsFixed st) history ↔
      Execution.EachStep Unmistakable history := by
  refine Execution.eachStep_iff_of_invariant
    (I := fun history r => Keeps history r ∧ Identifies history r) ?_ ?_ ?_ h
  · refine ⟨?_, nofun, nofun⟩
    intro code
    simp [machine, start, IsOutstanding, outstanding]
  · rintro older r r' event out ⟨hkeeps, hbefore⟩ hstep
    obtain rfl := step_ok hstep
    exact identifies_iff hkeeps hbefore event out
  · rintro older r r' event out ⟨hkeeps, -⟩ hstep hafter
    obtain rfl := step_ok hstep
    exact ⟨hkeeps.perform event out, hafter.1⟩

def launchesApart : List RegistryEvent :=
  [.insertFixedIdentificationCode "mainui" "mainui", .createIdentificationCode "chess" 0,
    .createIdentificationCode "go" 7, .matchCodeToApplication "0"]

theorem launchesApart_identify :
    ∃ history r, machine.run launchesApart = .ok (history, r) ∧
      Execution.EachStep
        (fun older st => Identifies (st :: older) st.post ∧ KeepsFixed st) history := by
  refine ⟨_, _, rfl, (codes_identify_iff (Machine.run_execution
    (show machine.run launchesApart = .ok (_, _) from rfl))).mpr ⟨?_, ?_, ?_, nofun, trivial⟩⟩
  · intro _
    rfl
  · intro hknown
    exact absurd hknown (by decide)
  · intro hknown
    exact absurd hknown (by decide)

/-- Two applications that are launched at once get one code. -/
theorem launchesAtOnce_confused :
    ∃ history r, machine.run
        [.createIdentificationCode "chess" 0, .createIdentificationCode "go" 0] =
          .ok (history, r) ∧
      ¬ Execution.EachStep
        (fun older st => Identifies (st :: older) st.post ∧ KeepsFixed st) history := by
  refine ⟨_, _, rfl, ?_⟩
  rintro ⟨⟨hidentifies, -⟩, -⟩
  have hchess := hidentifies.outstanding "0" "chess" (by decide)
  exact absurd hchess (by decide)

end GBerry.Server.ApplicationRegistry
