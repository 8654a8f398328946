import GBerry.Foundation.ValueSemantics
import GBerry.Lib.Result

/-!
# Results as values

Errors, reasons, metas and results share their data until they are written.  Their
assignment operators copy what the accessors of the other object return, and these do not
return all of it: the descriptions come without the mark, and the metas of a reason are
not copied.
-/

namespace GBerry.Lib

open GBerry.Foundation GBerry.Common

section Texts

variable {text : String}

theorem unmarked_of_not_localizable (h : localizable text = false) : unmarked text = text := by
  simp [unmarked, h]

theorem l10nKey_of_not_localizable (h : localizable text = false) : l10nKey text = "" := by
  simp [l10nKey, h]

/-- The key of a text does not survive that its mark is removed. -/
theorem l10nKey_unmarked (h : localizable text = true) :
    l10nKey (unmarked text) ≠ l10nKey text := by
  have hle : 4 ≤ text.toList.length := (List.isPrefixOf_iff_prefix.mp h).length_le
  have hunmarked : (unmarked text).toList.length = text.toList.length - 4 := by
    simp [unmarked, h]
  have hkey : l10nKey text = text := by simp [l10nKey, h]
  rw [hkey]
  intro heq
  cases hagain : localizable (unmarked text) with
  | false =>
      have hempty : text = "" := by rw [← heq, l10nKey_of_not_localizable hagain]
      simp [hempty] at hle
  | true =>
      have hsame : unmarked text = text := by simpa [l10nKey, hagain] using heq
      rw [hsame] at hunmarked
      omega

end Texts

namespace Error

def setters : List (Error → Error → Error) :=
  [fun err d => { d with code := err.code },
    fun err d => { d with name := err.name },
    fun err d => { d with text := err.description },
    fun err d => { d with l10nContext := err.errorL10nContext }]

def valueClass : ValueClass Error Empty where
  setters := setters
  change := Empty.elim
  self_assigned _ := rfl

structure Same (a b : Error) : Prop where
  code : b.code = a.code
  name : b.name = a.name
  description : b.description = a.description
  localizable : b.localizable = a.localizable
  errorL10nKey : b.errorL10nKey = a.errorL10nKey
  errorL10nContext : b.errorL10nContext = a.errorL10nContext

theorem same_assigned (err d : Error) :
    Same err (valueClass.assigned err d) ↔ err.localizable = false := by
  have hassigned : valueClass.assigned err d =
      ⟨err.code, err.name, unmarked err.text, err.l10nContext⟩ := rfl
  rw [hassigned]
  constructor
  · intro hsame
    rw [← Bool.not_eq_true]
    intro hlocalizable
    exact l10nKey_unmarked hlocalizable hsame.errorL10nKey
  · intro hplain
    rw [unmarked_of_not_localizable hplain]
    exact ⟨rfl, rfl, rfl, rfl, rfl, rfl⟩

end Error

namespace Meta

def valid (m : Meta) : Bool := !m.key.isEmpty

def setters : List (Meta → Meta → Meta) :=
  [fun other d => { d with key := other.key },
    fun other d => { d with value := other.value },
    fun other d => { d with l10nContext := other.l10nContext }]

/-- `metaString` is not a `const` function: it changes nothing, but the data is no longer shared. -/
def valueClass : ValueClass Meta Unit where
  setters := setters
  change _ m := m
  self_assigned _ := rfl

structure Same (a b : Meta) : Prop where
  key : b.key = a.key
  value : b.value = a.value
  l10nKey : b.l10nKey = a.l10nKey
  l10nContext : b.l10nContext = a.l10nContext
  metaString : b.metaString = a.metaString
  localizable : b.localizable = a.localizable
  valid : b.valid = a.valid

/-- `metas[item.key()] = item` leaves the item itself in a map. -/
theorem assigned_eq (other d : Meta) : valueClass.assigned other d = other := rfl

theorem same_assigned (other d : Meta) : Same other (valueClass.assigned other d) := by
  rw [assigned_eq]
  exact ⟨rfl, rfl, rfl, rfl, rfl, rfl, rfl⟩

end Meta

namespace Reason

def metaList (reason : Reason) : List Meta := reason.metas.values

def setters : List (Reason → Reason → Reason) :=
  [fun other d => { d with code := other.code },
    fun other d => { d with text := other.description },
    fun other d => { d with l10nContext := other.l10nContext }]

def valueClass : ValueClass Reason Meta where
  setters := setters
  change m reason := reason.addMeta m
  self_assigned _ := rfl

structure Same (a b : Reason) : Prop where
  code : b.code = a.code
  description : b.description = a.description
  l10nKey : b.l10nKey = a.l10nKey
  l10nContext : b.l10nContext = a.l10nContext
  localizable : b.localizable = a.localizable
  metaList : b.metaList = a.metaList
  hasMeta : ∀ key, b.hasMeta key = a.hasMeta key
  metaOf : ∀ key, b.metaOf key = a.metaOf key

/-- The accessors of the metas tell the maps apart. -/
theorem metas_eq {a b : Reason} (hhas : ∀ key, b.hasMeta key = a.hasMeta key)
    (hmeta : ∀ key, b.metaOf key = a.metaOf key) : b.metas = a.metas := by
  refine Std.ExtTreeMap.ext_getElem? fun key => ?_
  have hsome : b.metas[key]?.isSome = a.metas[key]?.isSome := by
    simpa only [hasMeta, Std.ExtTreeMap.contains_eq_isSome_getElem?] using hhas key
  have hvalue : b.metas[key]?.getD Meta.initial = a.metas[key]?.getD Meta.initial := hmeta key
  cases hb : b.metas[key]? with
  | none =>
      cases ha : a.metas[key]? with
      | none => rfl
      | some m' => simp [hb, ha] at hsome
  | some m =>
      cases ha : a.metas[key]? with
      | none => simp [hb, ha] at hsome
      | some m' => simpa [hb, ha] using hvalue

theorem same_assigned (other d : Reason) : Same other (valueClass.assigned other d) ↔
    other.localizable = false ∧ other.metas = d.metas := by
  have hassigned : valueClass.assigned other d =
      ⟨other.code, unmarked other.text, other.l10nContext, d.metas⟩ := rfl
  rw [hassigned]
  constructor
  · intro hsame
    refine ⟨?_, (metas_eq hsame.hasMeta hsame.metaOf).symm⟩
    rw [← Bool.not_eq_true]
    intro hlocalizable
    exact l10nKey_unmarked hlocalizable hsame.l10nKey
  · rintro ⟨hplain, hmetas⟩
    rw [unmarked_of_not_localizable hplain, ← hmetas]
    exact ⟨rfl, rfl, rfl, rfl, rfl, rfl, fun _ => rfl, fun _ => rfl⟩

end Reason

namespace Result

section Accessors

variable (result : Result)

def hasSubresults : Bool := !result.subresults.isEmpty

def metaList : List Meta := result.metas.values

def metaValue (key : String) : String :=
  if result.hasMeta key then (result.metaOf key).value else ""

def hasReasons : Bool := !result.reasons.isEmpty

end Accessors

inductive Item
  | err (item : Error)
  | metaItem (item : Meta)
  | reason (item : Reason)
  | result (item : Result)

/-- `operator <<`, of an item that is not the result itself. -/
def add (result : Result) : Item → Result
  | .err item => result.addError item
  | .metaItem item => result.addMeta item
  | .reason item => result.addReason item
  | .result item => result.addResult item

def setters : List (Result → Result → Result) :=
  [fun other d => { d with errors := other.errors },
    fun other d => { d with metas := other.metas },
    fun other d => { d with reasons := other.reasons },
    fun other d => { d with subresults := other.subresults }]

def valueClass : ValueClass Result Item where
  setters := setters
  change item result := result.add item
  self_assigned _ := rfl

structure Same (a b : Result) : Prop where
  hasErrors : b.hasErrors = a.hasErrors
  errors : b.errors = a.errors
  hasSubresults : b.hasSubresults = a.hasSubresults
  subresults : b.subresults = a.subresults
  metaList : b.metaList = a.metaList
  hasMeta : ∀ key, b.hasMeta key = a.hasMeta key
  metaValue : ∀ key, b.metaValue key = a.metaValue key
  metaOf : ∀ key, b.metaOf key = a.metaOf key
  hasReasons : b.hasReasons = a.hasReasons
  reasons : b.reasons = a.reasons

theorem same_assigned (other d : Result) : Same other (valueClass.assigned other d) := by
  have hassigned : valueClass.assigned other d = other := by
    cases other with
    | mk errors metas reasons subresults => rfl
  rw [hassigned]
  exact ⟨rfl, rfl, rfl, rfl, rfl, fun _ => rfl, fun _ => rfl, fun _ => rfl, rfl, rfl⟩

end Result

/--
Metas and results are values.  Errors are as long as no error is assigned that can be
localized, and reasons as long as the assigned one cannot be localized either and has the
metas of the one it is assigned to.
-/
theorem value_semantics_iff {ν : Type*} [DecidableEq ν] :
    (∀ history d, Execution (Error.valueClass.machine ν) history d →
      ((∀ st ∈ history, ValueClass.Semantics Error.Same st) ↔
        ∀ st ∈ history, ValueClass.GoodAssignment
          (fun err _ => err.localizable = false) st)) ∧
    (∀ history d, Execution (Reason.valueClass.machine ν) history d →
      ((∀ st ∈ history, ValueClass.Semantics Reason.Same st) ↔
        ∀ st ∈ history, ValueClass.GoodAssignment
          (fun other d => other.localizable = false ∧ other.metas = d.metas) st)) ∧
    (∀ history d, Execution (Meta.valueClass.machine ν) history d →
      ∀ st ∈ history, ValueClass.Semantics Meta.Same st) ∧
    ∀ history d, Execution (Result.valueClass.machine ν) history d →
      ∀ st ∈ history, ValueClass.Semantics Result.Same st := by
  refine ⟨?_, ?_, ?_, ?_⟩
  · intro history d h
    exact ValueClass.semantics_iff Error.same_assigned h
  · intro history d h
    exact ValueClass.semantics_iff Reason.same_assigned h
  · intro history d h
    exact ValueClass.semantics_of_same Meta.same_assigned h
  · intro history d h
    exact ValueClass.semantics_of_same Result.same_assigned h

theorem value_semantics_iff_plainErrors : ∃ history d,
    (Error.valueClass.machine Nat).run
        [.construct 0 (Error.make 1 "Download" "Download failed"),
          .construct 1 (Error.make 2 "Other" ""), .copy 2 1, .assign 1 0, .assign 2 1,
          .destroy 1] = .ok (history, d) ∧
      ∀ st ∈ history, ValueClass.Semantics Error.Same st := by
  obtain ⟨history, d, hrun, hcheck⟩ : ∃ history d,
      (Error.valueClass.machine Nat).run
        [.construct 0 (Error.make 1 "Download" "Download failed"),
          .construct 1 (Error.make 2 "Other" ""), .copy 2 1, .assign 1 0, .assign 2 1,
          .destroy 1] = .ok (history, d) ∧
        (history.all fun st => match st.label with
          | .assign _ w => (st.pre.read w).all fun err => !err.localizable
          | _ => true) = true :=
    Machine.exists_run (by decide +kernel)
  refine ⟨history, d, hrun, ?_⟩
  refine (value_semantics_iff.1 history d (Machine.run_execution hrun)).mpr ?_
  intro st hst v w err _ hlabel herr _
  have hplain := List.all_eq_true.mp hcheck st hst
  rw [hlabel] at hplain
  simpa [herr] using hplain

/-- Another error is assigned one that can be localized. -/
theorem assignment_loses_key : ∃ history d,
    (Error.valueClass.machine Nat).run
        [.construct 0 (Error.make 1 "Download" "TXT_Download failed"),
          .construct 1 (Error.make 2 "Other" ""), .assign 1 0] = .ok (history, d) ∧
      ¬ ∀ st ∈ history, ValueClass.Semantics Error.Same st := by
  obtain ⟨history, d, hrun, hcheck⟩ : ∃ history d,
      (Error.valueClass.machine Nat).run
        [.construct 0 (Error.make 1 "Download" "TXT_Download failed"),
          .construct 1 (Error.make 2 "Other" ""), .assign 1 0] = .ok (history, d) ∧
        (history.any fun st => decide (st.label = .assign 1 0 ∧
          st.pre.read 0 = some (Error.make 1 "Download" "TXT_Download failed") ∧
          (st.post.read 1).map Error.errorL10nKey = some "")) = true :=
    Machine.exists_run (by decide +kernel)
  refine ⟨history, d, hrun, fun hall => ?_⟩
  obtain ⟨st, hst, hdone⟩ := List.any_eq_true.mp hcheck
  obtain ⟨hlabel, hsource, htarget⟩ := of_decide_eq_true hdone
  obtain ⟨err, hread, hsame⟩ := (hall st hst).assigned 1 0 _ hlabel hsource
  rw [hread, Option.map_some, Option.some.injEq, hsame.errorL10nKey] at htarget
  exact absurd htarget (by decide +kernel)

end GBerry.Lib
