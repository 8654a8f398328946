import GBerry.Lib.ResultMessageFormatter

/-!
# The expansion of placeholders

The loop goes through the placeholders of the message, and replaces each of them in a
copy in which earlier values stand already.  The message as a template, with its
placeholders as holes, says what a simultaneous substitution is.
-/

namespace GBerry.Lib

open GBerry.Common
open GBerry.Foundation

namespace ResultMessageFormatter

/-- With so many characters to skip, which belong to a placeholder. -/
def tokensFrom : Nat → List Char → List (Token (List Char) Char)
  | _, [] => []
  | skip + 1, _ :: rest => tokensFrom skip rest
  | 0, c :: rest =>
      match placeholderAt (c :: rest) with
      | some key => .hole key :: tokensFrom (key.length + 2) rest
      | none => .lit c :: tokensFrom 0 rest

def tokens (msg : List Char) : List (Token (List Char) Char) := tokensFrom 0 msg

def keysOf (msg : List Char) : List (List Char) := holes (tokens msg)

def metaString? (metas : Metas) (key : List Char) : Option (List Char) :=
  if metas.hasMeta (String.ofList key) then
    some (metas.metaOf (String.ofList key)).metaString.toList
  else none

def substituted (msg : List Char) (metas : Metas) (keys : List (List Char)) : List Char :=
  substitute placeholder (limited (metaString? metas) keys) (tokens msg)

def passes (tr : Translator) (msg : List Char) (metas : Metas) :
    Nat → Option (Nat × List Char)
  | 0 => some (0, msg)
  | n + 1 => (passes tr msg metas n).bind (expandPass tr msg metas false)

/--
The loop ends with the simultaneous substitution, and each pass substitutes the
placeholders of the message itself and nothing in the text that was put in before.
-/
structure Simultaneous (tr : Translator) (msg : List Char) (metas : Metas) : Prop where
  ends : expandLoop tr msg metas false (msg.length + 1) (0, msg) =
    some (expand tr msg metas false)
  result : expand tr msg metas false =
    substitute placeholder (metaString? metas) (tokens msg)
  once : ∀ n pos m, passes tr msg metas n = some (pos, m) →
    m = substituted msg metas ((keysOf msg).take n)

/--
Before each pass for a key that is defined, the placeholder of the key stands in the
copy only where the message still has it, or its value is the placeholder itself.
-/
def NoNewPlaceholders (msg : List Char) (metas : Metas) : Prop :=
  ∀ n key value, (keysOf msg)[n]? = some key → metaString? metas key = some value →
    value = placeholder key ∨
      occurrences (placeholder key) (substituted msg metas ((keysOf msg).take n)) =
        openHoles ((keysOf msg).take n) key (tokens msg)

section Tokens

variable {text key : List Char} {c : Char} {rest : List Char}

theorem tokensFrom_skip (skip : Nat) (text : List Char) :
    tokensFrom skip text = tokens (text.drop skip) := by
  induction text generalizing skip with
  | nil =>
      rw [List.drop_nil]
      cases skip with
      | zero => rfl
      | succ skip => rfl
  | cons c rest ih =>
      cases skip with
      | zero => rfl
      | succ skip => exact ih skip

theorem tokens_hole (h : placeholderAt (c :: rest) = some key) :
    tokens (c :: rest) = .hole key :: tokens ((c :: rest).drop (matchedLength key)) := by
  rw [tokens, tokensFrom, h]
  exact congrArg _ (tokensFrom_skip (key.length + 2) rest)

theorem tokens_lit (h : placeholderAt (c :: rest) = none) :
    tokens (c :: rest) = .lit c :: tokens rest := by
  rw [tokens, tokensFrom, h]
  rfl

theorem placeholderAt_some (h : placeholderAt text = some key) :
    text = placeholder key ++ text.drop (matchedLength key) ∧ ∀ c ∈ key, isKeyChar c = true := by
  unfold placeholderAt at h
  split at h
  · rename_i rest
    split at h
    · rename_i c key' rest' htake hdrop
      cases h
      have hrest := List.takeWhile_append_dropWhile (p := isKeyChar) (l := rest)
      rw [htake, hdrop] at hrest
      refine ⟨?_, fun c hc => ?_⟩
      · rw [← hrest]
        simp [placeholder, matchedLength]
      · rw [← htake] at hc
        exact List.all_eq_true.mp List.all_takeWhile c hc
    · cases h
  · cases h

theorem substitute_tokens (text : List Char) :
    substitute placeholder (fun _ => none) (tokens text) = text := by
  induction hlength : text.length using Nat.strongRecOn generalizing text with
  | ind length ih =>
      cases text with
      | nil => rfl
      | cons c rest =>
          rw [List.length_cons] at hlength
          cases hplaceholder : placeholderAt (c :: rest) with
          | none =>
              rw [tokens_lit hplaceholder, substitute, ih rest.length (by omega) rest rfl]
          | some key =>
              have hshort : ((c :: rest).drop (matchedLength key)).length < length := by
                rw [List.length_drop, List.length_cons, matchedLength]
                omega
              rw [tokens_hole hplaceholder, substitute, ih _ hshort _ rfl]
              exact (placeholderAt_some hplaceholder).1.symm

theorem keysOf_chars (hkey : key ∈ keysOf text) : ∀ c ∈ key, isKeyChar c = true := by
  induction hlength : text.length using Nat.strongRecOn generalizing text with
  | ind length ih =>
      cases text with
      | nil => cases hkey
      | cons c rest =>
          rw [List.length_cons] at hlength
          rw [keysOf] at hkey
          cases hplaceholder : placeholderAt (c :: rest) with
          | none =>
              rw [tokens_lit hplaceholder] at hkey
              exact ih rest.length (by omega) hkey rfl
          | some other =>
              have hshort : ((c :: rest).drop (matchedLength other)).length < length := by
                rw [List.length_drop, List.length_cons, matchedLength]
                omega
              rw [tokens_hole hplaceholder] at hkey
              rcases List.mem_cons.mp hkey with rfl | hmem
              · exact (placeholderAt_some hplaceholder).2
              · exact ih _ hshort hmem rfl

theorem placeholder_head (hkey : ∀ c ∈ key, isKeyChar c = true) :
    '#' ∉ '{' :: (key ++ ['}']) := by
  intro hmem
  rcases List.mem_cons.mp hmem with hbrace | hmem
  · revert hbrace
    decide
  · rcases List.mem_append.mp hmem with hin | hbrace
    · have hnot : isKeyChar '#' = false := by decide
      cases hnot.symm.trans (hkey '#' hin)
    · revert hbrace
      decide

theorem length_keysOf (text : List Char) : (keysOf text).length ≤ text.length := by
  induction hlength : text.length using Nat.strongRecOn generalizing text with
  | ind length ih =>
      cases text with
      | nil => exact Nat.zero_le _
      | cons c rest =>
          rw [List.length_cons] at hlength
          rw [keysOf]
          cases hplaceholder : placeholderAt (c :: rest) with
          | none =>
              have hrest := ih rest.length (by omega) rest rfl
              rw [tokens_lit hplaceholder]
              exact Nat.le_trans hrest (by omega)
          | some other =>
              have hdropped : ((c :: rest).drop (matchedLength other)).length < length := by
                rw [List.length_drop, List.length_cons, matchedLength]
                omega
              have hrest := ih _ hdropped _ rfl
              rw [tokens_hole hplaceholder, holes, List.length_cons]
              exact Nat.le_trans (Nat.succ_le_succ hrest) hdropped

theorem keysOf_indexIn (text : List Char) :
    keysOf text = match indexIn text with
      | none => []
      | some (index, key) => key :: keysOf (text.drop (index + matchedLength key)) := by
  induction text with
  | nil => rfl
  | cons c rest ih =>
      rw [indexIn]
      cases hplaceholder : placeholderAt (c :: rest) with
      | some key =>
          simp only [Nat.zero_add]
          rw [keysOf, tokens_hole hplaceholder]
          rfl
      | none =>
          rw [keysOf, tokens_lit hplaceholder, holes]
          refine ih.trans ?_
          cases indexIn rest with
          | none => rfl
          | some found =>
              obtain ⟨index, key⟩ := found
              simp only [Option.map_some]
              rw [show index + 1 + matchedLength key = index + matchedLength key + 1 by omega,
                List.drop_succ_cons]

end Tokens

section Passes

variable {tr : Translator} {msg : List Char} {metas : Metas}

def fill (metas : Metas) (m key : List Char) : List Char :=
  match metaString? metas key with
  | some value => replaceAll (placeholder key) value m
  | none => m

theorem expandPass_eq (pos : Nat) (m : List Char) :
    expandPass tr msg metas false (pos, m) =
      (indexIn (msg.drop pos)).map fun (index, key) =>
        (pos + index + matchedLength key, fill metas m key) := by
  simp only [expandPass]
  cases indexIn (msg.drop pos) with
  | none => rfl
  | some found =>
      obtain ⟨index, key⟩ := found
      simp only [Option.map_some, fill, metaString?, metaStr, Bool.false_and]
      split
      · rfl
      · rfl

theorem expandPass_keys (pos : Nat) (m : List Char) :
    match keysOf (msg.drop pos) with
    | [] => expandPass tr msg metas false (pos, m) = none
    | key :: keys => ∃ pos', keysOf (msg.drop pos') = keys ∧
        expandPass tr msg metas false (pos, m) = some (pos', fill metas m key) := by
  rw [expandPass_eq, keysOf_indexIn]
  cases indexIn (msg.drop pos) with
  | none => rfl
  | some found =>
      obtain ⟨index, key⟩ := found
      refine ⟨pos + index + matchedLength key, ?_, rfl⟩
      rw [List.drop_drop, Nat.add_assoc]

theorem expandLoop_eq {fuel : Nat} (pos : Nat) (m : List Char)
    (hfuel : (keysOf (msg.drop pos)).length < fuel) :
    expandLoop tr msg metas false fuel (pos, m) =
      some ((keysOf (msg.drop pos)).foldl (fill metas) m) := by
  induction fuel generalizing pos m with
  | zero => omega
  | succ fuel ih =>
      have hpass := @expandPass_keys tr msg metas pos m
      rw [expandLoop]
      cases hkeys : keysOf (msg.drop pos) with
      | nil =>
          rw [hkeys] at hpass
          rw [hpass]
          rfl
      | cons key keys =>
          rw [hkeys] at hpass hfuel
          obtain ⟨pos', hrest, hstep⟩ := hpass
          rw [hstep]
          simp only [List.length_cons] at hfuel
          have hnext := ih pos' (fill metas m key) (by rw [hrest]; omega)
          rw [hrest] at hnext
          exact hnext

theorem expandLoop_ends : expandLoop tr msg metas false (msg.length + 1) (0, msg) =
    some ((keysOf msg).foldl (fill metas) msg) :=
  expandLoop_eq 0 msg (Nat.lt_succ_of_le (length_keysOf msg))

theorem expand_eq : expand tr msg metas false = (keysOf msg).foldl (fill metas) msg := by
  rw [expand, expandLoop_ends]
  rfl

theorem passes_some {n : Nat} {pos : Nat} {m : List Char}
    (h : passes tr msg metas n = some (pos, m)) :
    keysOf (msg.drop pos) = (keysOf msg).drop n ∧
      m = ((keysOf msg).take n).foldl (fill metas) msg := by
  induction n generalizing pos m with
  | zero =>
      cases h
      exact ⟨rfl, rfl⟩
  | succ n ih =>
      obtain ⟨⟨before, m'⟩, hbefore, hstep⟩ := Option.bind_eq_some_iff.mp h
      obtain ⟨hkeys, hcopy⟩ := ih hbefore
      have hpass := @expandPass_keys tr msg metas before m'
      cases hleft : keysOf (msg.drop before) with
      | nil =>
          rw [hleft, hstep] at hpass
          cases hpass
      | cons key keys =>
          rw [hleft] at hpass
          obtain ⟨pos', hrest, hsome⟩ := hpass
          cases hstep.symm.trans hsome
          have hdrop : (keysOf msg).drop n = key :: keys := hkeys.symm.trans hleft
          have hlt : n < (keysOf msg).length := by
            by_contra hge
            rw [List.drop_eq_nil_of_le (by omega)] at hdrop
            cases hdrop
          rw [List.drop_eq_getElem_cons hlt, List.cons.injEq] at hdrop
          refine ⟨hrest.trans hdrop.2.symm, ?_⟩
          rw [List.take_add_one, List.getElem?_eq_getElem hlt, hdrop.1, hcopy]
          simp

theorem passes_isSome {n : Nat} (hn : n ≤ (keysOf msg).length) :
    ∃ pos m, passes tr msg metas n = some (pos, m) := by
  induction n with
  | zero => exact ⟨0, msg, rfl⟩
  | succ n ih =>
      obtain ⟨pos, m, hbefore⟩ := ih (by omega)
      have hkeys := (passes_some hbefore).1
      have hpass := @expandPass_keys tr msg metas pos m
      rw [hkeys, List.drop_eq_getElem_cons (by omega)] at hpass
      obtain ⟨pos', -, hstep⟩ := hpass
      exact ⟨pos', _, by rw [passes, hbefore]; exact hstep⟩

/-- The copies of all passes are substitutions of the message. -/
theorem once_iff : (∀ n pos m, passes tr msg metas n = some (pos, m) →
      m = substituted msg metas ((keysOf msg).take n)) ↔
    ∀ n ≤ (keysOf msg).length, ((keysOf msg).take n).foldl (fill metas) msg =
      substituted msg metas ((keysOf msg).take n) := by
  constructor
  · intro honce n hn
    obtain ⟨pos, m, hpasses⟩ := @passes_isSome tr msg metas n hn
    rw [← (passes_some hpasses).2]
    exact honce n pos m hpasses
  · intro hall n pos m hpasses
    rw [(passes_some hpasses).2]
    rcases Nat.le_total n (keysOf msg).length with hle | hge
    · exact hall n hle
    · rw [List.take_of_length_le hge]
      have hlast := hall (keysOf msg).length (Nat.le_refl _)
      rwa [List.take_length] at hlast

theorem fill_substituted_iff {keys : List (List Char)} {key : List Char}
    (hkey : key ∈ keysOf msg) :
    fill metas (substituted msg metas keys) key = substituted msg metas (keys ++ [key]) ↔
      ∀ value, metaString? metas key = some value → value = placeholder key ∨
        occurrences (placeholder key) (substituted msg metas keys) =
          openHoles keys key (tokens msg) := by
  unfold fill
  cases hvalue : metaString? metas key with
  | none =>
      have hsame : limited (metaString? metas) (keys ++ [key]) =
          limited (metaString? metas) keys := by
        funext other
        unfold limited
        by_cases heq : other = key
        · rw [heq, hvalue, ite_self, ite_self]
        · simp [heq]
      simp [substituted, hsame]
  | some value =>
      have hhead := placeholder_head (keysOf_chars hkey)
      have hreplace := @replaceAll_substitute_iff (List Char) Char _ _ placeholder
        (metaString? metas) key '#' ('{' :: (key ++ ['}'])) value keys rfl hhead hvalue
        (tokens msg)
      simp only [Option.some.injEq, forall_eq']
      exact hreplace

theorem substituted_nil : substituted msg metas [] = msg := by
  have hnone : limited (metaString? metas) [] = fun _ => none := by
    funext key
    exact if_neg (by simp)
  rw [substituted, hnone, substitute_tokens]

theorem substituted_all :
    substituted msg metas (keysOf msg) =
      substitute placeholder (metaString? metas) (tokens msg) := by
  refine substitute_congr fun key hkey => ?_
  have hmem : key ∈ keysOf msg := hkey
  rw [limited, if_pos hmem]

end Passes

theorem simultaneous_iff (tr : Translator) (msg : List Char) (metas : Metas) :
    Simultaneous tr msg metas ↔ NoNewPlaceholders msg metas := by
  have hpasses := @once_iff tr msg metas
  have hnext : ∀ {n key}, (keysOf msg)[n]? = some key →
      (keysOf msg).take (n + 1) = (keysOf msg).take n ++ [key] := by
    intro n key hkey
    rw [List.take_add_one, hkey]
    rfl
  constructor
  · intro h n key value hkey hvalue
    have honce := hpasses.mp h.once
    obtain ⟨hlt, -⟩ := List.getElem?_eq_some_iff.mp hkey
    have hthis := honce n (by omega)
    have hthen := honce (n + 1) hlt
    rw [hnext hkey, List.foldl_append, hthis] at hthen
    exact (fill_substituted_iff (List.mem_of_getElem? hkey)).mp hthen value hvalue
  · intro h
    have hall : ∀ n ≤ (keysOf msg).length, ((keysOf msg).take n).foldl (fill metas) msg =
        substituted msg metas ((keysOf msg).take n) := by
      intro n hn
      induction n with
      | zero => exact substituted_nil.symm
      | succ n ih =>
          have hkey := List.getElem?_eq_getElem (by omega : n < (keysOf msg).length)
          rw [hnext hkey, List.foldl_append, ih (by omega)]
          exact (fill_substituted_iff (List.mem_of_getElem? hkey)).mpr fun value hvalue =>
            h n _ value hkey hvalue
    refine ⟨?_, ?_, hpasses.mpr hall⟩
    · rw [expandLoop_ends, expand_eq]
    · have hlast := hall (keysOf msg).length (Nat.le_refl _)
      rw [List.take_length] at hlast
      rw [expand_eq, hlast, substituted_all]

/-- The value of the first key looks like the placeholder of the second one. -/
def chainedMetas : Metas :=
  .ofResult ((Result.empty.addMeta (.make "a" "#\x7bb\x7d")).addMeta (.make "b" "x"))

def untranslated : Translator := ⟨fun _ msg => msg, false⟩

theorem chained_expandedTwice :
    ¬ Simultaneous untranslated (placeholder ['a'] ++ ' ' :: placeholder ['b']) chainedMetas := by
  intro h
  have hresult := h.result
  rw [expand_eq] at hresult
  revert hresult
  decide +kernel

end ResultMessageFormatter

end GBerry.Lib
