import GBerry.Foundation.Action
import GBerry.Foundation.Fallible
import Mathlib.Data.Rat.Defs

/-!
# JavaScript values and exceptions

The values that a program meets in a message, with the conversions that may throw.
A value that was read from a text has no functions as members, so that an object with
a member of the name of a method has no such method.
-/

namespace GBerry.Foundation

inductive JsError where
  | typeError
  | referenceError
  deriving DecidableEq

abbrev Random := {r : Rat // 0 ≤ r ∧ r < 1}

def Random.zero : Random := ⟨0, by decide⟩

inductive JsValue where
  | undefined
  | null
  | bool (value : Bool)
  /-- A number, given by what `toString` makes of it. -/
  | number (text : String)
  | string (value : String)
  | array (values : List JsValue)
  | object (fields : List (String × JsValue))

namespace JsValue

def hasMember (fields : List (String × JsValue)) (name : String) : Bool :=
  fields.any fun field => field.1 == name

def member (fields : List (String × JsValue)) (name : String) : JsValue :=
  (fields.lookup name).getD undefined

def isNullish : JsValue → Bool
  | undefined => true
  | null => true
  | _ => false

mutual

/-- The conversion to a string, as for `String(value)` or a property key. -/
def text : JsValue → Except JsError String
  | undefined => .ok "undefined"
  | null => .ok "null"
  | bool value => .ok (if value then "true" else "false")
  | number text => .ok text
  | string value => .ok value
  | array values =>
      match elementTexts values with
      | .error e => .error e
      | .ok texts => .ok (",".intercalate texts)
  | object fields =>
      if hasMember fields "toString" then .error .typeError else .ok "[object Object]"

/-- The parts that `join` puts together; it leaves `undefined` and `null` empty. -/
def elementTexts : List JsValue → Except JsError (List String)
  | [] => .ok []
  | value :: rest =>
      match (if isNullish value then .ok "" else text value), elementTexts rest with
      | .error e, _ => .error e
      | _, .error e => .error e
      | .ok first, .ok texts => .ok (first :: texts)

end

def callToString : JsValue → Except JsError String
  | undefined => .error .typeError
  | null => .error .typeError
  | value => value.text

/-- The call `value.hasOwnProperty(name)`, of a name that no array or string has. -/
def hasOwnProperty (name : String) : JsValue → Except JsError Bool
  | undefined => .error .typeError
  | null => .error .typeError
  | object fields =>
      if hasMember fields "hasOwnProperty" then .error .typeError
      else .ok (hasMember fields name)
  | _ => .ok false

/-- `value[name]`, of a value other than `undefined` and `null`, and such a name. -/
def get (name : String) : JsValue → JsValue
  | object fields => member fields name
  | _ => undefined

/-- `===` of two values that are not one array or object. -/
def strictEquals : JsValue → JsValue → Bool
  | undefined, undefined => true
  | null, null => true
  | bool a, bool b => a == b
  | number a, number b => a == b
  | string a, string b => a == b
  | _, _ => false

def objectPrototype : List String :=
  ["constructor", "toString", "toLocaleString", "valueOf", "hasOwnProperty", "isPrototypeOf",
    "propertyIsEnumerable", "__defineGetter__", "__defineSetter__", "__proto__"]

def arrayPrototype : List String :=
  ["length", "concat", "join", "pop", "push", "reverse", "shift", "slice", "sort", "splice",
    "unshift", "indexOf", "lastIndexOf", "every", "some", "forEach", "map", "filter", "reduce",
    "reduceRight"] ++ objectPrototype

theorem strictEquals_number {value : JsValue} {text : String} :
    strictEquals value (number text) = true ↔ value = number text := by
  cases value <;> simp [strictEquals]

theorem strictEquals_string {value : JsValue} {s : String} :
    strictEquals value (string s) = true ↔ value = string s := by
  cases value <;> simp [strictEquals]

section ParseInt

def isWhiteSpace (c : Char) : Bool :=
  let n := c.toNat
  (9 ≤ n && n ≤ 13) || n = 0x20 || n = 0xA0 || n = 0x1680 || n = 0x180E ||
    (0x2000 ≤ n && n ≤ 0x200A) || n = 0x2028 || n = 0x2029 || n = 0x202F || n = 0x205F ||
    n = 0x3000 || n = 0xFEFF

def digit? (c : Char) : Option Nat :=
  if '0' ≤ c ∧ c ≤ '9' then some (c.toNat - '0'.toNat)
  else if 'a' ≤ c ∧ c ≤ 'z' then some (c.toNat - 'a'.toNat + 10)
  else if 'A' ≤ c ∧ c ≤ 'Z' then some (c.toNat - 'A'.toNat + 10)
  else none

/-- The number that the first digits make, or `none` without any. -/
def leadingDigits (radix : Nat) (seen : Option Nat) : List Char → Option Nat
  | [] => seen
  | c :: rest =>
      match digit? c with
      | some d =>
          if d < radix then leadingDigits radix (some (seen.getD 0 * radix + d)) rest else seen
      | none => seen

def unsigned : List Char → Option Nat
  | '0' :: 'x' :: rest => leadingDigits 16 none rest
  | '0' :: 'X' :: rest => leadingDigits 16 none rest
  | digits => leadingDigits 10 none digits

/-- `parseInt` of a string; `none` is `NaN`. -/
def parseInt (s : String) : Option Int :=
  match s.toList.dropWhile isWhiteSpace with
  | '-' :: rest => (unsigned rest).map fun n => -(n : Int)
  | '+' :: rest => (unsigned rest).map fun n => (n : Int)
  | digits => (unsigned digits).map fun n => (n : Int)

end ParseInt

end JsValue

/-- What is documented of `Array.prototype.sort`: it need not be stable. -/
structure ArraySort {α : Type*} (before : α → α → Prop) (sort : List α → List α) : Prop where
  perm : ∀ l, (sort l).Perm l
  pairwise : ∀ l, (sort l).Pairwise before

namespace Fallible

variable {σ ω ε : Type*} {thrown : ε → ω} {program : Fallible σ ω ε} {s : σ}

/-- A call whose exception nobody catches, and which has changed nothing before it throws. -/
def uncaught (thrown : ε → ω) (program : Fallible σ ω ε) : Action σ ω := fun s =>
  match program s with
  | .error e => (s, [thrown e])
  | .ok result => result

theorem uncaught_ok {result : σ × List ω} (h : program s = .ok result) :
    uncaught thrown program s = result := by
  unfold uncaught
  rw [h]

theorem uncaught_error {e : ε} (h : program s = .error e) :
    uncaught thrown program s = (s, [thrown e]) := by
  unfold uncaught
  rw [h]

end Fallible

end GBerry.Foundation
