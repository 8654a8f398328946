import Mathlib.Data.List.Basic

/-!
# Receivers of framed messages

A sender writes one frame for each message; the bytes arrive in chunks that
may end anywhere.  A receiver is described by the bytes of the unfinished frame
that it holds: it has to wait while the frame is unfinished and to emit the
message when its last byte is there.  From these two local facts the results
below follow for every list of messages and every way of cutting the stream.
-/

namespace GBerry.Foundation

variable {ρ α μ ω : Type*}

/--
`p` is what has arrived of the frame of the first of these messages: a proper
prefix of it, and nothing when no message is left.
-/
def Unfinished (encode : μ → List α) : List μ → List α → Prop
  | [], p => p = []
  | m :: _, p => p <+: encode m ∧ p ≠ encode m

theorem Unfinished.nil {encode : μ → List α} (hne : ∀ m, encode m ≠ []) {msgs : List μ} :
    Unfinished encode msgs [] := by
  cases msgs with
  | nil => rfl
  | cons m msgs => exact ⟨List.nil_prefix, (hne m).symm⟩

theorem Unfinished.of_complete {encode : μ → List α} {todo : List μ} {p : List α}
    (hp : Unfinished encode todo p) (hall : p = todo.flatMap encode) :
    todo = [] ∧ p = [] := by
  cases todo with
  | nil => exact ⟨rfl, hp⟩
  | cons m todo =>
      rw [List.flatMap_cons] at hall
      have hlen : p.length ≤ (encode m).length := hp.1.length_le
      have hrest : todo.flatMap encode = [] := by
        apply List.eq_nil_of_length_eq_zero
        rw [hall, List.length_append] at hlen
        omega
      rw [hrest, List.append_nil] at hall
      exact absurd hall hp.2

theorem exists_unfinished {encode : μ → List α}
    {msgs : List μ} {bytes : List α} (h : bytes <+: msgs.flatMap encode) :
    ∃ done todo p, msgs = done ++ todo ∧ bytes = done.flatMap encode ++ p ∧
      Unfinished encode todo p := by
  induction msgs generalizing bytes with
  | nil => exact ⟨[], [], bytes, rfl, rfl, List.prefix_nil.mp h⟩
  | cons m msgs ih =>
      by_cases hlen : (encode m).length ≤ bytes.length
      · obtain ⟨rest, rfl⟩ : encode m <+: bytes :=
          List.prefix_of_prefix_length_le (List.prefix_append _ _) h hlen
        rw [List.flatMap_cons, List.prefix_append_right_inj] at h
        obtain ⟨done, todo, p, rfl, rfl, hp⟩ := ih h
        exact ⟨m :: done, todo, p, rfl, by simp, hp⟩
      · have hpre : bytes <+: encode m :=
          List.prefix_of_prefix_length_le h (List.prefix_append _ _) (by omega)
        refine ⟨[], m :: msgs, bytes, rfl, rfl, hpre, ?_⟩
        rintro rfl
        exact hlen (Nat.le_refl _)

def AtSplits {β : Type*} (Q : List β → β → List β → Prop) (l : List β) : Prop :=
  ∀ before x after, l = before ++ x :: after → Q before x after

section Splits

variable {β : Type*} {Q : List β → β → List β → Prop}

theorem atSplits_nil : AtSplits Q [] := by
  intro before x after h
  simp at h

theorem atSplits_cons {x : β} {l : List β} :
    AtSplits Q (x :: l) ↔ Q [] x l ∧ AtSplits (fun before => Q (x :: before)) l := by
  constructor
  · intro h
    refine ⟨h [] x l rfl, fun before y after hl => h (x :: before) y after ?_⟩
    rw [hl, List.cons_append]
  · rintro ⟨hx, hl⟩ before y after heq
    cases before with
    | nil =>
        cases heq
        exact hx
    | cons z before =>
        cases heq
        exact hl before y after rfl

theorem atSplits_append {l l' : List β} :
    AtSplits Q (l ++ l') ↔
      AtSplits (fun before x after => Q before x (after ++ l')) l ∧
        AtSplits (fun before => Q (l ++ before)) l' := by
  induction l generalizing Q with
  | nil => simp [atSplits_nil]
  | cons x l ih => simp only [List.cons_append, atSplits_cons, ih, and_assoc]

theorem atSplits_congr {Q' : List β → β → List β → Prop} {l : List β}
    (h : ∀ before x after, l = before ++ x :: after → (Q before x after ↔ Q' before x after)) :
    AtSplits Q l ↔ AtSplits Q' l :=
  forall₄_congr h

end Splits

structure FramedReader (ρ α μ ω : Type*) where
  encode : μ → List α
  signal : μ → ω
  receive : ρ → List α → ρ × List ω
  /-- The reader has seen exactly these bytes of an unfinished frame. -/
  Holds : List α → ρ → Prop
  encode_ne_nil : ∀ m, encode m ≠ []
  quiet : ∀ {r}, Holds [] r → receive r [] = (r, [])
  wait : ∀ {m p r} c, Holds p r → p ++ c <+: encode m → p ++ c ≠ encode m →
    ∃ r', receive r c = (r', []) ∧ Holds (p ++ c) r'
  finish : ∀ {m p r} c rest, Holds p r → p <+: encode m → p ≠ encode m →
    p ++ c = encode m ++ rest →
    ∃ r₀, Holds [] r₀ ∧
      receive r c = ((receive r₀ rest).1, signal m :: (receive r₀ rest).2)

namespace FramedReader

variable (R : FramedReader ρ α μ ω)

def feed (r : ρ) : List (List α) → ρ × List ω
  | [] => (r, [])
  | c :: chunks =>
      let (r', signals) := R.receive r c
      let (r'', signals') := feed r' chunks
      (r'', signals ++ signals')

theorem unfinished_nil (msgs : List μ) : Unfinished R.encode msgs [] :=
  .nil R.encode_ne_nil

/--
One chunk: the messages whose frames it completes are emitted, in order, and
the reader holds what is left over.  The induction is on the messages to come;
`finish` leads from one of them to the next.
-/
theorem receive_frames {msgs : List μ} {p : List α} {r : ρ} {c : List α}
    (hr : R.Holds p r) (hp : Unfinished R.encode msgs p)
    (hc : p ++ c <+: msgs.flatMap R.encode) :
    ∃ done todo p' r', msgs = done ++ todo ∧
      p ++ c = done.flatMap R.encode ++ p' ∧ Unfinished R.encode todo p' ∧
      R.receive r c = (r', done.map R.signal) ∧ R.Holds p' r' := by
  induction msgs generalizing p r c with
  | nil =>
      obtain rfl : p = [] := hp
      obtain rfl : c = [] := by simpa using hc
      exact ⟨[], [], [], r, rfl, rfl, rfl, R.quiet hr, hr⟩
  | cons m msgs ih =>
      by_cases hlen : (R.encode m).length ≤ (p ++ c).length
      · have hm : R.encode m <+: p ++ c :=
          List.prefix_of_prefix_length_le (List.prefix_append _ _) hc hlen
        obtain ⟨rest, hrest⟩ := hm
        obtain ⟨r₀, hidle, hreceive⟩ := R.finish c rest hr hp.1 hp.2 hrest.symm
        have hrest' : [] ++ rest <+: msgs.flatMap R.encode := by
          rw [← hrest, List.flatMap_cons, List.prefix_append_right_inj] at hc
          exact hc
        obtain ⟨done, todo, p', r', hmsgs, hbytes, hopen, hnext, hholds⟩ :=
          ih hidle (R.unfinished_nil msgs) hrest'
        refine ⟨m :: done, todo, p', r', by rw [hmsgs]; rfl, ?_, hopen, ?_, hholds⟩
        · rw [← hrest, List.flatMap_cons, List.append_assoc, ← hbytes]
          rfl
        · rw [hreceive, hnext, List.map_cons]
      · have hpre : p ++ c <+: R.encode m :=
          List.prefix_of_prefix_length_le hc (List.prefix_append _ _) (by omega)
        have hne : p ++ c ≠ R.encode m := fun h =>
          hlen (Nat.le_of_eq (by rw [h]))
        obtain ⟨r', hreceive, hholds⟩ := R.wait c hr hpre hne
        exact ⟨[], m :: msgs, p ++ c, r', rfl, rfl, ⟨hpre, hne⟩, hreceive, hholds⟩

theorem feed_frames {chunks : List (List α)} {msgs : List μ} {p : List α} {r : ρ}
    (hr : R.Holds p r) (hp : Unfinished R.encode msgs p)
    (hc : p ++ chunks.flatten <+: msgs.flatMap R.encode) :
    ∃ done todo p' r', msgs = done ++ todo ∧
      p ++ chunks.flatten = done.flatMap R.encode ++ p' ∧
      Unfinished R.encode todo p' ∧ R.feed r chunks = (r', done.map R.signal) ∧
      R.Holds p' r' := by
  induction chunks generalizing msgs p r with
  | nil => exact ⟨[], msgs, p, r, rfl, by simp, hp, rfl, hr⟩
  | cons c chunks ih =>
      rw [List.flatten_cons, ← List.append_assoc] at hc
      obtain ⟨done, todo, p', r', rfl, hbytes, hopen, hreceive, hholds⟩ :=
        R.receive_frames hr hp ((List.prefix_append _ _).trans hc)
      have hc' : p' ++ chunks.flatten <+: todo.flatMap R.encode := by
        rw [hbytes, List.flatMap_append, List.append_assoc,
          List.prefix_append_right_inj] at hc
        exact hc
      obtain ⟨done', todo', p'', r'', rfl, hbytes', hopen', hfeed, hholds'⟩ :=
        ih hholds hopen hc'
      refine ⟨done ++ done', todo', p'', r'', by simp, ?_, hopen', ?_, hholds'⟩
      · rw [List.flatten_cons, ← List.append_assoc, hbytes, List.append_assoc,
          hbytes', List.flatMap_append, List.append_assoc]
      · simp only [feed, hreceive, hfeed, List.map_append]

/-- **However the stream is cut, exactly the messages sent are emitted.** -/
theorem feed_complete {chunks : List (List α)} {msgs : List μ} {r : ρ}
    (hr : R.Holds [] r) (hc : chunks.flatten = msgs.flatMap R.encode) :
    ∃ r', R.feed r chunks = (r', msgs.map R.signal) ∧ R.Holds [] r' := by
  have hall : [] ++ chunks.flatten <+: msgs.flatMap R.encode :=
    ⟨[], by rw [List.append_nil, List.nil_append, hc]⟩
  obtain ⟨done, todo, p', r', rfl, hbytes, hopen, hfeed, hholds⟩ :=
    R.feed_frames hr (R.unfinished_nil msgs) hall
  have hleft : p' = todo.flatMap R.encode := by
    rw [List.nil_append, hc, List.flatMap_append] at hbytes
    exact (List.append_cancel_left hbytes).symm
  obtain ⟨rfl, rfl⟩ := hopen.of_complete hleft
  exact ⟨r', by simpa using hfeed, hholds⟩

end FramedReader

end GBerry.Foundation
