import GBerry.Common.QMap
import GBerry.Common.QString

/-!
# Settings in an ini file

`QSettings` keeps a value for every key, as the text that stands for it in the
file.  A file that was never written does not exist.
-/

namespace GBerry.Common

structure QSettings where
  fileExists : Bool
  values : QMap String String

namespace QSettings

def ofFile (file : Option (QMap String String)) : QSettings where
  fileExists := file.isSome
  values := file.getD ∅

def contains (ini : QSettings) (key : String) : Bool := ini.values.contains key

def value (ini : QSettings) (key : String) : String := (ini.values[key]?).getD ""

def setValue (ini : QSettings) (key text : String) : QSettings :=
  { fileExists := true, values := ini.values.insert key text }

def toBool (text : String) : Bool :=
  !(text.toLower == "" || text.toLower == "0" || text.toLower == "false")

/-- `QVariant::toInt` of such a value: a number of 64 bits, cut to 32. -/
def toInt (text : String) : Int :=
  match QString.integer? (QString.trimmed text.toList) with
  | some n => if -2 ^ 63 ≤ n ∧ n < 2 ^ 63 then n.bmod (2 ^ 32) else 0
  | none => 0

def ofBool (b : Bool) : String := if b then "true" else "false"

theorem toBool_ofBool (b : Bool) : toBool (ofBool b) = b := by
  cases b <;> decide +kernel

theorem toInt_toString {n : Int} (hlow : -2 ^ 63 ≤ n) (hhigh : n < 2 ^ 63) :
    toInt (toString n) = n.bmod (2 ^ 32) := by
  simp only [toInt, QString.integer?_toString]
  exact if_pos ⟨hlow, hhigh⟩

variable (ini : QSettings) (key text : String)

theorem contains_setValue (k : String) :
    (ini.setValue key text).contains k = (k == key || ini.contains k) := by
  rw [Bool.eq_iff_iff]
  simp only [contains, setValue, Std.ExtTreeMap.contains_iff_mem, QMap.mem_insert_iff,
    Bool.or_eq_true, beq_iff_eq]

theorem value_setValue (k : String) :
    (ini.setValue key text).value k = if k = key then text else ini.value k := by
  rw [value, setValue, QMap.getElem?_insert]
  by_cases h : k = key
  · rw [if_pos h, if_pos h, Option.getD_some]
  · rw [if_neg h, if_neg h, value]

end QSettings

end GBerry.Common
