import Mathlib.Algebra.Group.Int.Defs
import Mathlib.Algebra.GroupWithZero.Nat
import Mathlib.Data.List.Basic
import Mathlib.Data.Rat.Defs

/-!
# JSON values and message texts

The part of `QJsonValue`, `QJsonObject` and `QJsonDocument` that the console
uses.  The text format itself belongs to Qt: a text is a value of an arbitrary
type of byte arrays, written by `toJson` and read back by `fromJson`.
-/

namespace GBerry.Common

/-- A `QJsonValue`.  The fields of an object are listed in the order of their keys. -/
inductive Json where
  | null
  | bool (value : Bool)
  | number (value : Rat)
  | string (value : String)
  | array (values : List Json)
  | object (fields : List (String × Json))

abbrev JsonObject := List (String × Json)

namespace Json

/--
The values a document can hold exactly: the keys of every object are listed in
increasing order, and the numbers are whole and exact in a double.
-/
inductive Normal : Json → Prop
  | null : Normal .null
  | bool (value : Bool) : Normal (.bool value)
  | number (value : Int) : value.natAbs ≤ 2 ^ 53 → Normal (.number value)
  | string (value : String) : Normal (.string value)
  | array {values : List Json} : (∀ v ∈ values, Normal v) → Normal (.array values)
  | object {fields : List (String × Json)} :
      (fields.map Prod.fst).Pairwise (· < ·) → (∀ f ∈ fields, Normal f.2) →
      Normal (.object fields)

/-- `QJsonValue::toString`: the empty string for every other type. -/
def toString : Json → String
  | .string value => value
  | _ => ""

/-- `QJsonValue::toInt` on a 32-bit `int`: 0 when the value is not such a number. -/
def toInt : Json → Int
  | .number value =>
      if value.den = 1 ∧ -2 ^ 31 ≤ value.num ∧ value.num < 2 ^ 31 then value.num
      else 0
  | _ => 0

def toBool : Json → Bool
  | .bool value => value
  | _ => false

def toObject : Json → JsonObject
  | .object fields => fields
  | _ => []

def isObject : Json → Bool
  | .object _ => true
  | _ => false

def isString (value : Json) (s : String) : Bool :=
  match value with
  | .string t => t == s
  | _ => false

end Json

namespace JsonObject

def contains (json : JsonObject) (key : String) : Bool :=
  (json.lookup key).isSome

/-- `QJsonObject::operator[]`; the undefined value of a missing key reads as null. -/
def value (json : JsonObject) (key : String) : Json :=
  (json.lookup key).getD .null

def isCommand (json : JsonObject) (name : String) : Bool :=
  contains json "command" && (value json "command").isString name

def Normal (json : JsonObject) : Prop := Json.Normal (.object json)

theorem isCommand_cons_command (name s : String) (fields : JsonObject) :
    isCommand (("command", .string s) :: fields) name = (s == name) := by
  simp [isCommand, contains, value, Json.isString]

theorem isCommand_unique {json : JsonObject} {name name' : String}
    (h : isCommand json name = true) (h' : isCommand json name' = true) :
    name = name' := by
  simp only [isCommand, Bool.and_eq_true] at h h'
  generalize value json "command" = v at h h'
  cases v <;> simp [Json.isString] at h h'
  exact h.2.symm.trans h'.2

theorem isCommand_other {json : JsonObject} {name name' : String}
    (h : isCommand json name = true) (hne : name ≠ name') :
    isCommand json name' = false := by
  cases hother : isCommand json name' with
  | false => rfl
  | true => exact absurd (isCommand_unique h hother) hne

end JsonObject

/--
Byte arrays that can hold message texts.  `fromJson` is
`QJsonDocument::fromJson(..).object()`, and `none` when the parser reports an
error; `toJson` is `QJsonDocument(..).toJson()`; `toQString` is the conversion
`QString(const QByteArray&)` and `toLatin1` is `QString::toLatin1`.  The one law
is that a document that was written is read back unchanged.
-/
class QByteArray (β : Type) where
  fromJson : β → Option JsonObject
  toJson : JsonObject → β
  toQString : β → String
  toLatin1 : String → β
  fromJson_toJson : ∀ json, JsonObject.Normal json → fromJson (toJson json) = some json

/--
Texts up to what they denote: the text of a document, or the bytes of a string
that is no document.
-/
inductive Text where
  | document (json : JsonObject)
  | plain (s : String)

instance : QByteArray Text where
  fromJson
    | .document json => some json
    | .plain _ => none
  toJson := .document
  toQString
    | .document _ => ""
    | .plain s => s
  toLatin1 := .plain
  fromJson_toJson _ _ := rfl

end GBerry.Common
