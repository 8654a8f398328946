import Mathlib.Algebra.GroupWithZero.Nat
import Mathlib.Data.List.Basic
import Mathlib.Data.List.TakeWhile

/-!
# UTF-8 and Latin-1

Both encodings of a text, and the decoder of UTF-8 that puts a replacement
character in the place of a byte that starts no character.  A decoded text is
never longer than its bytes, counted in UTF-16 units; when it is as long, every
byte was ASCII or was replaced.  A reader that stops at the first 0 byte cuts a
text at its first U+0000.
-/

namespace GBerry.Foundation

def encodeUtf8 (text : List Char) : List UInt8 := text.flatMap String.utf8EncodeChar

def replacement : Char := '\uFFFD'

/-- The first `skip` bytes belong to a character that was decoded already. -/
def decodeFrom : Nat → List UInt8 → List Char
  | _, [] => []
  | 0, byte :: bytes =>
      match (byte :: bytes).toByteArray.utf8DecodeChar? 0 with
      | some c => c :: decodeFrom (c.utf8Size - 1) bytes
      | none => replacement :: decodeFrom 0 bytes
  | skip + 1, _ :: bytes => decodeFrom skip bytes

def decodeUtf8 (bytes : List UInt8) : List Char := decodeFrom 0 bytes

def utf16Size (c : Char) : Nat := if c.val ≤ 0xFFFF then 1 else 2

def utf16Length (text : List Char) : Nat := (text.map utf16Size).sum

/-- Latin-1 has a question mark for every UTF-16 unit that it does not have. -/
def latin1Char (c : Char) : List UInt8 :=
  if c.val ≤ 0xFF then [c.val.toUInt8] else List.replicate (utf16Size c) 0x3F

def encodeLatin1 (text : List Char) : List UInt8 := text.flatMap latin1Char

def IsAscii (text : List Char) : Prop := ∀ c ∈ text, c.val ≤ 0x7F

def untilZero (bytes : List UInt8) : List UInt8 := bytes.takeWhile (· != 0)

def IsPlainAscii (text : List Char) : Prop := IsAscii text ∧ ∀ c ∈ text, c ≠ '\x00'

section Lengths

variable {c : Char} {text : List Char} {bytes : List UInt8}

theorem utf16Size_le (c : Char) : utf16Size c ≤ c.utf8Size := by
  have hpos := c.utf8Size_pos
  unfold utf16Size
  split
  · omega
  · rename_i hlarge
    have hfour := Char.utf8Size_eq_four_iff.mpr (UInt32.not_le.mp hlarge)
    omega

theorem utf16Size_lt (h : 0x7F < c.val) : utf16Size c < c.utf8Size := by
  have hone : c.utf8Size ≠ 1 := by
    intro hone
    exact absurd (Char.utf8Size_eq_one_iff.mp hone) (UInt32.not_le.mpr h)
  have hpos := c.utf8Size_pos
  unfold utf16Size
  split
  · omega
  · rename_i hlarge
    have hfour := Char.utf8Size_eq_four_iff.mpr (UInt32.not_le.mp hlarge)
    omega

theorem length_latin1Char (c : Char) : (latin1Char c).length = utf16Size c := by
  unfold latin1Char
  split
  · rename_i hsmall
    have hbmp : c.val ≤ 0xFFFF := UInt32.le_trans hsmall (by decide)
    simp [utf16Size, hbmp]
  · simp

theorem length_encodeLatin1 (text : List Char) :
    (encodeLatin1 text).length = utf16Length text := by
  induction text with
  | nil => rfl
  | cons c text ih =>
      simp only [encodeLatin1, utf16Length] at ih
      simp [encodeLatin1, utf16Length, length_latin1Char, ih]

theorem utf8Size_le_length (h : bytes.toByteArray.utf8DecodeChar? 0 = some c) :
    c.utf8Size ≤ bytes.length := by
  have hle := ByteArray.le_size_of_utf8DecodeChar?_eq_some h
  simpa using hle

theorem utf16Length_decodeFrom (skip : Nat) (bytes : List UInt8)
    (hskip : skip ≤ bytes.length) :
    utf16Length (decodeFrom skip bytes) + skip ≤ bytes.length := by
  induction bytes generalizing skip with
  | nil =>
      have hzero : skip = 0 := by simpa using hskip
      subst hzero
      exact Nat.le_refl _
  | cons byte bytes ih =>
      cases skip with
      | zero =>
          simp only [decodeFrom]
          split
          · rename_i c hc
            have hsize := utf8Size_le_length hc
            have hutf16 := utf16Size_le c
            have hpos := c.utf8Size_pos
            simp only [List.length_cons] at hsize
            have hrest := ih (c.utf8Size - 1) (by omega)
            simp only [utf16Length, List.map_cons, List.sum_cons, List.length_cons] at hrest ⊢
            omega
          · have hrest := ih 0 (Nat.zero_le _)
            have hsize : utf16Size replacement = 1 := rfl
            simp only [utf16Length, List.map_cons, List.sum_cons, List.length_cons] at hrest ⊢
            omega
      | succ skip =>
          simp only [decodeFrom, List.length_cons] at hskip ⊢
          have hrest := ih skip (by omega)
          omega

theorem mem_decodeFrom (skip : Nat) (bytes : List UInt8) (hskip : skip ≤ bytes.length)
    (hlength : utf16Length (decodeFrom skip bytes) + skip = bytes.length) :
    ∀ c ∈ decodeFrom skip bytes, c.val ≤ 0x7F ∨ c = replacement := by
  induction bytes generalizing skip with
  | nil => simp [decodeFrom]
  | cons byte bytes ih =>
      cases skip with
      | zero =>
          simp only [decodeFrom] at hlength ⊢
          split at hlength
          · rename_i c hc
            have hsize := utf8Size_le_length hc
            have hutf16 := utf16Size_le c
            have hpos := c.utf8Size_pos
            simp only [List.length_cons] at hsize
            have hrest := utf16Length_decodeFrom (c.utf8Size - 1) bytes (by omega)
            simp only [utf16Length, List.map_cons, List.sum_cons, List.length_cons]
              at hrest hlength
            have hascii : c.val ≤ 0x7F := by
              by_contra hlarge
              have hlt := utf16Size_lt (UInt32.not_le.mp hlarge)
              omega
            simp only [List.forall_mem_cons]
            refine ⟨.inl hascii, ih (c.utf8Size - 1) (by omega) ?_⟩
            simp only [utf16Length]
            omega
          · have hsize : utf16Size replacement = 1 := rfl
            simp only [utf16Length, List.map_cons, List.sum_cons, List.length_cons] at hlength
            simp only [List.forall_mem_cons]
            refine ⟨.inr trivial, ih 0 (Nat.zero_le _) ?_⟩
            simp only [utf16Length]
            omega
      | succ skip =>
          simp only [decodeFrom, List.length_cons] at hskip hlength ⊢
          exact ih skip (by omega) (by omega)

end Lengths

section RoundTrips

variable {c : Char} {text : List Char} {bytes : List UInt8}

theorem decodeFrom_append (skipped bytes : List UInt8) :
    decodeFrom skipped.length (skipped ++ bytes) = decodeFrom 0 bytes := by
  induction skipped with
  | nil => rfl
  | cons byte skipped ih => exact ih

theorem decodeUtf8_encodeChar (c : Char) (bytes : List UInt8) :
    decodeUtf8 (String.utf8EncodeChar c ++ bytes) = c :: decodeUtf8 bytes := by
  have hlength := String.length_utf8EncodeChar c
  have hdecode : (String.utf8EncodeChar c ++ bytes).toByteArray.utf8DecodeChar? 0 = some c := by
    rw [List.toByteArray_append]
    exact ByteArray.utf8DecodeChar?_utf8EncodeChar_append
  cases hencoded : String.utf8EncodeChar c with
  | nil =>
      have hpos := c.utf8Size_pos
      rw [hencoded] at hlength
      simp only [List.length_nil] at hlength
      omega
  | cons byte rest =>
      rw [hencoded] at hlength hdecode
      have hskip : c.utf8Size - 1 = rest.length := by
        simp only [List.length_cons] at hlength
        omega
      rw [List.cons_append] at hdecode ⊢
      simp only [decodeUtf8, decodeFrom, hdecode, hskip, decodeFrom_append]

theorem decodeUtf8_encodeUtf8 (text : List Char) : decodeUtf8 (encodeUtf8 text) = text := by
  induction text with
  | nil => rfl
  | cons c text ih =>
      have hstep := decodeUtf8_encodeChar c (encodeUtf8 text)
      rw [ih] at hstep
      exact hstep

theorem latin1Char_ascii (h : c.val ≤ 0x7F) : latin1Char c = String.utf8EncodeChar c := by
  have hsmall : c.val ≤ 0xFF := UInt32.le_trans h (by decide)
  rw [latin1Char, if_pos hsmall,
    String.utf8EncodeChar_eq_singleton (Char.utf8Size_eq_one_iff.mpr h)]

theorem encodeLatin1_ascii (h : IsAscii text) : encodeLatin1 text = encodeUtf8 text := by
  induction text with
  | nil => rfl
  | cons c text ih =>
      have hhere := latin1Char_ascii (h c List.mem_cons_self)
      have hothers := ih fun c' hc' => h c' (List.mem_cons_of_mem _ hc')
      simp only [encodeLatin1, encodeUtf8] at hothers
      simp only [encodeLatin1, encodeUtf8, List.flatMap_cons, hhere, hothers]

def questioned (c : Char) : Char := if c = replacement then '?' else c

theorem encodeLatin1_questioned (text : List Char) :
    encodeLatin1 (text.map questioned) = encodeLatin1 text := by
  induction text with
  | nil => rfl
  | cons c text ih =>
      have hhere : latin1Char (questioned c) = latin1Char c := by
        unfold questioned
        split
        · rename_i hreplacement
          subst hreplacement
          rfl
        · rfl
      simp only [encodeLatin1] at ih
      simp only [encodeLatin1, List.map_cons, List.flatMap_cons, hhere, ih]

/-- Written in Latin-1 and read as UTF-8, only ASCII texts come back. -/
theorem decodeUtf8_encodeLatin1 (text : List Char) :
    decodeUtf8 (encodeLatin1 text) = text ↔ IsAscii text := by
  constructor
  · intro h
    have hlength : utf16Length (decodeUtf8 (encodeLatin1 text)) + 0 =
        (encodeLatin1 text).length := by
      rw [h, length_encodeLatin1]
      rfl
    have hmem := mem_decodeFrom 0 (encodeLatin1 text) (Nat.zero_le _) hlength
    rw [show decodeFrom 0 (encodeLatin1 text) = text from h] at hmem
    have hquestioned : IsAscii (text.map questioned) := by
      intro c hc
      obtain ⟨c', hc', rfl⟩ := List.mem_map.mp hc
      unfold questioned
      split
      · decide
      · rename_i hne
        exact (hmem c' hc').resolve_right hne
    have heq : text = text.map questioned := by
      calc text = decodeUtf8 (encodeLatin1 text) := h.symm
        _ = decodeUtf8 (encodeUtf8 (text.map questioned)) := by
            rw [← encodeLatin1_questioned, encodeLatin1_ascii hquestioned]
        _ = text.map questioned := decodeUtf8_encodeUtf8 _
    rw [heq]
    exact hquestioned
  · intro h
    rw [encodeLatin1_ascii h]
    exact decodeUtf8_encodeUtf8 text

end RoundTrips

section ZeroBytes

variable {c : Char} {text : List Char} {bytes : List UInt8}

theorem untilZero_append {nonzero : List UInt8} (h : ∀ b ∈ nonzero, b ≠ 0) :
    untilZero (nonzero ++ bytes) = nonzero ++ untilZero bytes := by
  refine List.takeWhile_append_of_pos ?_
  simpa using h

/-- Only U+0000 has a 0 byte in UTF-8. -/
theorem utf8EncodeChar_ne_zero (h : c ≠ '\x00') : ∀ b ∈ String.utf8EncodeChar c, b ≠ 0 := by
  have hpos : c.val.toNat ≠ 0 := fun hzero => h (Char.ext (UInt32.toNat_inj.mp hzero))
  have hbyte : ∀ n, n % 256 ≠ 0 → UInt8.ofNat n ≠ 0 := by
    intro n hn heq
    exact hn (by simpa using congrArg UInt8.toNat heq)
  intro b hb
  simp only [String.utf8EncodeChar] at hb
  split at hb
  · obtain rfl := List.mem_singleton.mp hb
    exact hbyte _ (by omega)
  · split at hb
    · simp only [List.mem_cons, List.not_mem_nil, or_false] at hb
      rcases hb with rfl | rfl <;> exact hbyte _ (by omega)
    · split at hb <;> simp only [List.mem_cons, List.not_mem_nil, or_false] at hb
      · rcases hb with rfl | rfl | rfl <;> exact hbyte _ (by omega)
      · rcases hb with rfl | rfl | rfl | rfl <;> exact hbyte _ (by omega)

/-- Cut at the first 0 byte, a text ends before its first U+0000. -/
theorem untilZero_encodeUtf8 (text : List Char) :
    untilZero (encodeUtf8 text) = encodeUtf8 (text.takeWhile (· != '\x00')) := by
  induction text with
  | nil => rfl
  | cons c text ih =>
      by_cases hnull : c = '\x00'
      · subst hnull
        rfl
      · have hkept : (c :: text).takeWhile (· != '\x00') =
            c :: text.takeWhile (· != '\x00') := List.takeWhile_cons_of_pos (by simpa using hnull)
        rw [hkept]
        calc untilZero (encodeUtf8 (c :: text))
            = String.utf8EncodeChar c ++ untilZero (encodeUtf8 text) :=
              untilZero_append (utf8EncodeChar_ne_zero hnull)
          _ = encodeUtf8 (c :: text.takeWhile (· != '\x00')) := by
              rw [ih]
              rfl

theorem decodeUtf8_untilZero (text : List Char) :
    decodeUtf8 (untilZero (encodeUtf8 text)) = text.takeWhile (· != '\x00') := by
  rw [untilZero_encodeUtf8, decodeUtf8_encodeUtf8]

theorem takeWhile_plain (h : ∀ c ∈ text, c ≠ '\x00') :
    text.takeWhile (· != '\x00') = text := by
  rw [List.takeWhile_eq_self_iff]
  simpa using h

theorem utf16Length_append (text more : List Char) :
    utf16Length (text ++ more) = utf16Length text + utf16Length more := by
  simp [utf16Length]

theorem utf16Size_pos (c : Char) : 0 < utf16Size c := by
  unfold utf16Size
  split <;> decide

theorem eq_nil_of_utf16Length (h : utf16Length text = 0) : text = [] := by
  cases text with
  | nil => rfl
  | cons c text =>
      have hpos := utf16Size_pos c
      simp only [utf16Length, List.map_cons, List.sum_cons] at h
      omega

/--
Cut at the first U+0000, written in Latin-1, cut at the first 0 byte and read as UTF-8: only
the ASCII texts without U+0000 come back, as nothing may get shorter on the way.
-/
theorem IsPlainAscii.of_takeWhile
    (h : decodeUtf8 (untilZero (encodeLatin1 (text.takeWhile (· != '\x00')))) = text) :
    IsPlainAscii text := by
  have hsplit := List.takeWhile_append_dropWhile (p := (· != '\x00')) (l := text)
  generalize hdropped : text.dropWhile (· != '\x00') = dropped at hsplit
  generalize hcut : text.takeWhile (· != '\x00') = cut at h hsplit
  have hread := utf16Length_decodeFrom 0 (untilZero (encodeLatin1 cut)) (Nat.zero_le _)
  have hprefix : untilZero (encodeLatin1 cut) <+: encodeLatin1 cut := List.takeWhile_prefix _
  have hlength := hprefix.length_le
  rw [length_encodeLatin1] at hlength
  rw [show decodeFrom 0 (untilZero (encodeLatin1 cut)) = text from h, ← hsplit,
    utf16Length_append] at hread
  have hnothing : dropped = [] := eq_nil_of_utf16Length (by omega)
  have hwhole : untilZero (encodeLatin1 cut) = encodeLatin1 cut := by
    refine hprefix.eq_of_length ?_
    rw [length_encodeLatin1]
    omega
  have heq : cut = text := by rw [← hsplit, hnothing, List.append_nil]
  refine ⟨(decodeUtf8_encodeLatin1 text).mp ?_, ?_⟩
  · rw [hwhole, heq] at h
    exact h
  · intro c hc
    rw [← heq, ← hcut] at hc
    simpa using List.mem_takeWhile_imp hc

end ZeroBytes

end GBerry.Foundation
