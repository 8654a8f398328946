import GBerry.Common.MessageFactory
import GBerry.Foundation.Utf8

/-!
# The conversions of `QString`

Byte arrays whose bytes are known: `toLatin1` writes Latin-1, and the
constructor from a `QByteArray` reads UTF-8 up to the first 0 byte (it counts
the bytes with `qstrnlen`).  Splitting, and decimal numbers.
-/

namespace GBerry.Common

open GBerry.Foundation

class UnicodeByteArray (β : Type) extends QByteArray β where
  bytes : β → List UInt8
  ofBytes : List UInt8 → β
  bytes_ofBytes : ∀ l, bytes (ofBytes l) = l
  toLatin1_eq : ∀ s : String, toLatin1 s = ofBytes (encodeLatin1 s.toList)
  toQString_eq : ∀ b, toQString b = String.ofList (decodeUtf8 (untilZero (bytes b)))

def toUtf8 {β : Type} [UnicodeByteArray β] (s : String) : β :=
  UnicodeByteArray.ofBytes (encodeUtf8 s.toList)

section

variable {β : Type} [UnicodeByteArray β]

theorem toQString_of_bytes {b : β} {s : String}
    (h : UnicodeByteArray.bytes b = encodeUtf8 s.toList) :
    QByteArray.toQString b = String.ofList (s.toList.takeWhile (· != '\x00')) := by
  rw [UnicodeByteArray.toQString_eq, h, decodeUtf8_untilZero]

theorem toQString_plain {b : β} {s : String}
    (h : UnicodeByteArray.bytes b = encodeUtf8 s.toList) (hs : IsPlainAscii s.toList) :
    QByteArray.toQString b = s := by
  rw [toQString_of_bytes h, takeWhile_plain hs.2, String.ofList_toList]

theorem toLatin1_ascii {s : String} (h : IsAscii s.toList) :
    QByteArray.toLatin1 s = (toUtf8 s : β) := by
  rw [UnicodeByteArray.toLatin1_eq, toUtf8, encodeLatin1_ascii h]

theorem toQString_toLatin1_plain {s : String} (h : IsPlainAscii s.toList) :
    QByteArray.toQString (QByteArray.toLatin1 s : β) = s := by
  rw [toLatin1_ascii h.1]
  exact toQString_plain (UnicodeByteArray.bytes_ofBytes _) h

/-- Reading a text, writing what was read with `toLatin1` and reading that back. -/
theorem isPlainAscii_of_relayed {b : β} {s : String}
    (hb : UnicodeByteArray.bytes b = encodeUtf8 s.toList)
    (h : QByteArray.toQString (QByteArray.toLatin1 (QByteArray.toQString b) : β) = s) :
    IsPlainAscii s.toList := by
  refine IsPlainAscii.of_takeWhile ?_
  have hlist := congrArg String.toList h
  rwa [toQString_of_bytes hb, UnicodeByteArray.toQString_eq, UnicodeByteArray.toLatin1_eq,
    UnicodeByteArray.bytes_ofBytes, String.toList_ofList, String.toList_ofList] at hlist

end

inductive ByteText where
  | document (json : JsonObject)
  | plain (bytes : List UInt8)

instance : UnicodeByteArray ByteText where
  fromJson
    | .document json => some json
    | .plain _ => none
  toJson := .document
  fromJson_toJson _ _ := rfl
  bytes
    | .document _ => []
    | .plain bytes => bytes
  ofBytes := .plain
  bytes_ofBytes _ := rfl
  toLatin1 s := .plain (encodeLatin1 s.toList)
  toLatin1_eq _ := rfl
  toQString
    | .document _ => ""
    | .plain bytes => String.ofList (decodeUtf8 (untilZero bytes))
  toQString_eq b := by cases b <;> rfl

namespace QString

/-- `QString::split`, which keeps the empty parts. -/
def split (s : String) (sep : Char) : List String :=
  (s.toList.splitOn sep).map String.ofList

def isSpace (c : Char) : Bool :=
  (9 ≤ c.toNat && c.toNat ≤ 13) || (0x2000 ≤ c.toNat && c.toNat ≤ 0x200a) ||
    [0x20, 0x85, 0xa0, 0x1680, 0x2028, 0x2029, 0x202f, 0x205f, 0x3000].contains c.toNat

def decimal (digits : List Char) : Nat :=
  digits.foldl (fun n c => 10 * n + (c.toNat - '0'.toNat)) 0

def decimal? (digits : List Char) : Option Nat :=
  if digits ≠ [] ∧ digits.all Char.isDigit = true then some (decimal digits) else none

def trimmed (s : List Char) : List Char :=
  ((s.dropWhile isSpace).reverse.dropWhile isSpace).reverse

def integer? : List Char → Option Int
  | '-' :: digits => (decimal? digits).map fun n : Nat => -(n : Int)
  | '+' :: digits => (decimal? digits).map Int.ofNat
  | digits => (decimal? digits).map Int.ofNat

/-- `QString::toInt`: 0 when the text is not a decimal number of 32 bits. -/
def toInt (s : String) : Int :=
  match integer? (trimmed s.toList) with
  | some n => if -2 ^ 31 ≤ n ∧ n < 2 ^ 31 then n else 0
  | none => 0

theorem not_isSpace_of_isDigit {c : Char} (h : c.isDigit = true) : isSpace c = false := by
  simp only [Char.isDigit, ge_iff_le, Bool.and_eq_true, decide_eq_true_eq,
    UInt32.le_iff_toNat_le] at h
  have hlow : 48 ≤ c.toNat := h.1
  have hhigh : c.toNat ≤ 57 := h.2
  simp only [isSpace, List.contains_eq_mem, List.mem_cons, List.not_mem_nil, or_false]
  simp only [Bool.or_eq_false_iff, Bool.and_eq_false_imp, decide_eq_true_eq,
    decide_eq_false_iff_not]
  omega

theorem trimmed_solid {s : List Char} (h : ∀ c ∈ s, isSpace c = false) : trimmed s = s := by
  have hkept : ∀ l : List Char, (∀ c ∈ l, isSpace c = false) → l.dropWhile isSpace = l := by
    intro l hl
    cases l with
    | nil => rfl
    | cons c l => simp [hl c List.mem_cons_self]
  rw [trimmed, hkept s h, hkept s.reverse fun c hc => h c (List.mem_reverse.mp hc),
    List.reverse_reverse]

theorem trimmed_digits {digits : List Char} (h : digits.all Char.isDigit = true) :
    trimmed digits = digits := by
  refine trimmed_solid fun c hc => not_isSpace_of_isDigit ?_
  exact List.all_eq_true.mp h c hc

theorem integer?_digits {digits : List Char} (hne : digits ≠ [])
    (hdigits : digits.all Char.isDigit = true) :
    integer? digits = some (decimal digits : Int) := by
  have hnumber : decimal? digits = some (decimal digits) := if_pos ⟨hne, hdigits⟩
  unfold integer?
  split
  · cases hdigits
  · cases hdigits
  · rw [hnumber]
    rfl

theorem decimal_toDigits (n : Nat) : decimal (Nat.toDigits 10 n) = n := by
  rw [decimal, ← Nat.ofDigitChars_eq_foldl, Nat.ofDigitChars_ten_toDigits]

theorem all_isDigit_toDigits (n : Nat) : (Nat.toDigits 10 n).all Char.isDigit = true := by
  rw [List.all_eq_true]
  intro c hc
  exact Nat.isDigit_of_mem_toDigits (by decide) (by decide) hc

theorem integer?_toString (n : Int) : integer? (trimmed (toString n).toList) = some n := by
  cases n with
  | ofNat n =>
      have htext : (toString (Int.ofNat n)).toList = Nat.toDigits 10 n := Nat.toList_repr
      rw [htext, trimmed_digits (all_isDigit_toDigits n),
        integer?_digits Nat.toDigits_ne_nil (all_isDigit_toDigits n), decimal_toDigits]
      rfl
  | negSucc n =>
      have htext : (toString (Int.negSucc n)).toList = '-' :: Nat.toDigits 10 (n + 1) := by
        have hrepr : (toString (n + 1)).toList = Nat.toDigits 10 (n + 1) := Nat.toList_repr
        rw [← hrepr]
        exact String.toList_append
      have hsolid : ∀ c ∈ '-' :: Nat.toDigits 10 (n + 1), isSpace c = false := by
        intro c hc
        rcases List.mem_cons.mp hc with rfl | hdigit
        · decide
        · exact not_isSpace_of_isDigit
            (List.all_eq_true.mp (all_isDigit_toDigits (n + 1)) c hdigit)
      have hnumber : decimal? (Nat.toDigits 10 (n + 1)) = some (n + 1) := by
        rw [decimal?, if_pos ⟨Nat.toDigits_ne_nil, all_isDigit_toDigits (n + 1)⟩,
          decimal_toDigits]
      rw [htext, trimmed_solid hsolid]
      simp only [integer?, hnumber, Option.map_some, Option.some.injEq]
      omega

theorem toInt_digits {s : String} (hne : s.toList ≠ [])
    (hdigits : s.toList.all Char.isDigit = true) (hsmall : decimal s.toList < 2 ^ 31) :
    toInt s = (decimal s.toList : Int) := by
  simp only [toInt, trimmed_digits hdigits, integer?_digits hne hdigits]
  exact if_pos (by omega)

end QString

end GBerry.Common
