import GBerry.Common.MessageReader
import Mathlib.Data.List.Forall2

/-!
# Frames with any body

A frame has two lengths, the size of its body and the length that the body
starts with.  `socketReadyRead` waits for the first and reads by the second, so
how much a frame takes from the stream depends on both.
-/

namespace GBerry.Common

open GBerry.Foundation QDataStream

/-- What a peer can put on the stream: a header, and a body of the announced size. -/
structure Frame where
  channelId : UInt32
  body : Bytes
  large : 4 ≤ body.length
  fits : body.length < 2 ^ 32

namespace Frame

def encode (f : Frame) : Bytes :=
  putUInt32 f.body.length ++ putUInt32 f.channelId.toNat ++ f.body

def size (f : Frame) : Nat := 8 + f.body.length

def innerLength (f : Frame) : Nat := (getUInt32 f.body).1

def signal (f : Frame) : Int32 × Bytes := (f.channelId.toInt32, (getByteArray f.body).1)

/--
The inner length takes exactly the body: it fits, or it stands for a null array
without bytes, or it asks for more than there is when there is nothing else.
-/
def ReadExactly (f : Frame) (nothingElse : Prop) : Prop :=
  f.innerLength = f.body.length - 4 ∨
    (f.innerLength = 0xffffffff ∧ f.body.length = 4) ∨
    (f.body.length - 4 < f.innerLength ∧ f.innerLength ≠ 0xffffffff ∧ nothingElse)

/-- A frame as `write` makes it is delivered with its channel id and its payload. -/
def Delivered (f : Frame) (signal : Int32 × Bytes) : Prop :=
  ∀ payload, f.body = writeBytes payload → signal = (f.channelId.toInt32, payload)

theorem encode_length (f : Frame) : f.encode.length = f.size := by
  simp only [encode, List.length_append, putUInt32_length, size]

theorem encode_ne_nil (f : Frame) : f.encode ≠ [] := by
  intro hnil
  have hlength := f.encode_length
  rw [hnil, size, List.length_nil] at hlength
  omega

theorem getByteArray_body (f : Frame) (rest : Bytes) :
    getByteArray (f.body ++ rest) =
      if f.innerLength = 0xffffffff then ([], f.body.drop 4 ++ rest)
      else if f.body.length - 4 + rest.length < f.innerLength then ([], [])
      else ((f.body.drop 4 ++ rest).take f.innerLength,
        (f.body.drop 4 ++ rest).drop f.innerLength) := by
  obtain ⟨channelId, body, large, fits⟩ := f
  match body, large with
  | b₃ :: b₂ :: b₁ :: b₀ :: tail, _ =>
      simp only [getByteArray, innerLength, List.cons_append, getUInt32, List.length_cons,
        List.length_append, List.drop_succ_cons, List.drop_zero]
      rfl

theorem left_length_iff (f : Frame) (rest : Bytes) :
    (getByteArray (f.body ++ rest)).2.length = rest.length ↔
      f.ReadExactly (rest = []) := by
  have hlarge := f.large
  have hfits := f.fits
  rw [getByteArray_body, ReadExactly, ← List.length_eq_zero_iff]
  split
  · simp only [List.length_append, List.length_drop]
    omega
  · split
    · simp only [List.length_nil]
      omega
    · simp only [List.length_append, List.length_drop]
      omega

theorem left_length_le (f : Frame) (rest : Bytes) :
    (getByteArray (f.body ++ rest)).2.length ≤ (f.body ++ rest).length := by
  refine (getByteArray_length_lt fun hnil => ?_).le
  have hlarge := f.large
  rw [(List.append_eq_nil_iff.mp hnil).1] at hlarge
  cases hlarge

theorem getByteArray_exact {f : Frame} {rest : Bytes} (h : f.ReadExactly (rest = [])) :
    getByteArray (f.body ++ rest) = (f.signal.2, rest) := by
  have hfits := f.fits
  have hbody := getByteArray_body f []
  rw [List.append_nil] at hbody
  rw [signal, hbody, getByteArray_body]
  rcases h with hexact | ⟨hnull, hempty⟩ | ⟨hover, hnull, rfl⟩
  · have hlength : (f.body.drop 4).length = f.innerLength := by
      rw [List.length_drop, hexact]
    rw [if_neg (by omega), if_neg (by omega), if_neg (by omega),
      if_neg (by simp only [List.length_nil]; omega), ← hlength, List.take_left,
      List.drop_left, List.take_left]
  · have hnothing : f.body.drop 4 = [] := List.drop_eq_nil_of_le (by omega)
    rw [if_pos hnull, if_pos hnull, hnothing]
    rfl
  · rw [if_neg hnull, if_pos (by simpa using hover)]

theorem delivered_signal (f : Frame) : f.Delivered f.signal := by
  intro payload hbody
  have hfits := f.fits
  have hlen : payload.length < 2 ^ 32 - 1 := by
    rw [hbody, MessageReader.writeBytes_length] at hfits
    omega
  have hget := getByteArray_writeBytes hlen []
  rw [List.append_nil] at hget
  rw [signal, hbody, hget]

theorem ReadExactly.congr {f : Frame} {p q : Prop} (h : p ↔ q) :
    f.ReadExactly p ↔ f.ReadExactly q := by
  rw [ReadExactly, ReadExactly, h]

end Frame

namespace MessageReader

/-! ## The bytes that a frame takes -/

theorem getByteArray_buffer_lt {r r' : MessageReader} (hheader : r.readHeader = some r')
    (hmore : (getByteArray r'.buffer).2 ≠ []) :
    (getByteArray r'.buffer).2.length < r.buffer.length := by
  have hle := readHeader_length_le hheader
  by_cases hnil : r'.buffer = []
  · rw [hnil] at hmore
    exact absurd rfl hmore
  · have hlt := getByteArray_length_lt hnil
    omega

/--
How many bytes each frame takes that `socketReadyRead` reads: its header, and
what reading the byte array consumed.
-/
def taken (r : MessageReader) : List Nat :=
  match _hheader : r.readHeader with
  | none => []
  | some r' =>
      if r'.buffer.length < r'.blockSize then []
      else
        let body := getByteArray r'.buffer
        let size := 8 + (r'.buffer.length - body.2.length)
        if _hmore : body.2 = [] then [size]
        else size :: taken ⟨0, 0, body.1, body.2⟩
termination_by r.buffer.length
decreasing_by exact getByteArray_buffer_lt _hheader _hmore

def receiveTaken (r : MessageReader) (chunk : Bytes) : List Nat :=
  { r with buffer := r.buffer ++ chunk }.taken

def feedTaken (r : MessageReader) : List Bytes → List Nat
  | [] => []
  | chunk :: chunks => r.receiveTaken chunk ++ (r.receive chunk).1.feedTaken chunks

theorem taken_length (r : MessageReader) : r.taken.length = r.socketReadyRead.2.length := by
  induction r using taken.induct with
  | case1 r hheader =>
      rw [taken, socketReadyRead, hheader]
      rfl
  | case2 r r' hheader hshort =>
      rw [taken, socketReadyRead, hheader]
      simp only [if_pos hshort, List.length_nil]
  | case3 r r' hheader hshort body hmore =>
      change (getByteArray r'.buffer).2 = [] at hmore
      rw [taken, socketReadyRead, hheader]
      simp only [if_neg hshort, dif_pos hmore, List.length_singleton]
  | case4 r r' hheader hshort body hmore ih =>
      change (getByteArray r'.buffer).2 ≠ [] at hmore
      rw [taken, socketReadyRead, hheader]
      simp only [if_neg hshort, dif_neg hmore, List.length_cons, ih, body]

theorem receiveTaken_nil {r r' : MessageReader} {c : Bytes} (h : r.receive c = (r', [])) :
    r.receiveTaken c = [] := by
  rw [receiveTaken, ← List.length_eq_zero_iff, taken_length]
  exact congrArg (fun result => result.2.length) h

theorem receiveTaken_frame {p c q : Bytes} {r : MessageReader} {size : Nat} {id : UInt32}
    (hr : Holds p r) (hfits : size < 2 ^ 32)
    (hpc : p ++ c = putUInt32 size ++ putUInt32 id.toNat ++ q) (hq : size ≤ q.length) :
    r.receiveTaken c =
      (8 + (q.length - (getByteArray q).2.length)) ::
        (⟨0, 0, (getByteArray q).1, []⟩ : MessageReader).receiveTaken (getByteArray q).2 := by
  have hheader := readHeader_of_holds hr hfits hpc
  have hidle : Holds [] (⟨0, 0, (getByteArray q).1, []⟩ : MessageReader) :=
    .inl ⟨by simp, rfl, rfl⟩
  rw [receiveTaken, taken, hheader]
  simp only [if_neg (Nat.not_lt.mpr hq)]
  by_cases hrest : (getByteArray q).2 = []
  · rw [dif_pos hrest, hrest, receiveTaken_nil (receive_quiet hidle)]
  · rw [dif_neg hrest]
    rfl

theorem receive_rest {todo : List Frame} {p c : Bytes} {r : MessageReader} (hr : Holds p r)
    (hrest : Unfinished Frame.encode todo (p ++ c)) :
    ∃ r', r.receive c = (r', []) ∧ Holds (p ++ c) r' := by
  cases todo with
  | nil =>
      obtain ⟨rfl, rfl⟩ := List.append_eq_nil_iff.mp hrest
      exact ⟨r, receive_quiet hr, hr⟩
  | cons f todo =>
      obtain ⟨hpre, hne⟩ := hrest
      have hlarge := f.large
      refine receive_unfinished hr ?_ f.fits hpre hne
      intro hnil
      simp [hnil] at hlarge

theorem receive_done {done todo : List Frame} {p p' c : Bytes} {r : MessageReader}
    (hr : Holds p r) (hbytes : p ++ c = done.flatMap Frame.encode ++ p')
    (hp' : Unfinished Frame.encode todo p') :
    (AtSplits (fun _ f after => f.ReadExactly (after.flatMap Frame.encode ++ p' = [])) done →
        ∃ r', r.receive c = (r', done.map Frame.signal) ∧
          r.receiveTaken c = done.map Frame.size ∧ Holds p' r') ∧
      (r.receiveTaken c <+: (done ++ todo).map Frame.size →
        AtSplits (fun _ f after => f.ReadExactly (after.flatMap Frame.encode ++ p' = [])) done) := by
  induction done generalizing p c r with
  | nil =>
      rw [List.flatMap_nil, List.nil_append] at hbytes
      subst hbytes
      refine ⟨fun _ => ?_, fun _ => atSplits_nil⟩
      obtain ⟨r', hreceive, hholds⟩ := receive_rest hr hp'
      exact ⟨r', hreceive, receiveTaken_nil hreceive, hholds⟩
  | cons f done ih =>
      have hpc : p ++ c = putUInt32 f.body.length ++ putUInt32 f.channelId.toNat ++
          (f.body ++ (done.flatMap Frame.encode ++ p')) := by
        rw [hbytes, List.flatMap_cons, Frame.encode]
        simp only [List.append_assoc]
      have hq : f.body.length ≤ (f.body ++ (done.flatMap Frame.encode ++ p')).length := by
        simp
      have hidle (data : Bytes) : Holds [] (⟨0, 0, data, []⟩ : MessageReader) :=
        .inl ⟨by simp, rfl, rfl⟩
      rw [receive_frame hr f.fits hpc hq, receiveTaken_frame hr f.fits hpc hq, atSplits_cons]
      constructor
      · rintro ⟨hexact, hall⟩
        rw [Frame.getByteArray_exact hexact]
        obtain ⟨r', hreceive, htaken, hholds⟩ :=
          (ih (c := done.flatMap Frame.encode ++ p') (hidle f.signal.2) rfl).1 hall
        refine ⟨r', ?_, ?_, hholds⟩
        · rw [hreceive]
          rfl
        · rw [htaken, List.map_cons, Frame.size]
          simp
      · intro hstarts
        rw [List.cons_append, List.map_cons, List.cons_prefix_cons] at hstarts
        obtain ⟨hsize, hstarts⟩ := hstarts
        have hexact : f.ReadExactly (done.flatMap Frame.encode ++ p' = []) := by
          have hle := f.left_length_le (done.flatMap Frame.encode ++ p')
          rw [← f.left_length_iff]
          simp only [Frame.size, List.length_append] at hsize hle ⊢
          omega
        rw [Frame.getByteArray_exact hexact] at hstarts
        exact ⟨hexact,
          (ih (c := done.flatMap Frame.encode ++ p') (hidle f.signal.2) rfl).2 hstarts⟩

theorem unfinished_length_lt {frames before after : List Frame} {f : Frame} {p : Bytes}
    (hp : Unfinished Frame.encode frames p) (hframes : frames = before ++ f :: after) :
    p.length < ((before ++ [f]).flatMap Frame.encode).length := by
  have hshorter {g : Frame} {rest : List Frame} (hfirst : frames = g :: rest) :
      p.length < g.encode.length := by
    subst hfirst
    exact lt_of_le_of_ne hp.1.length_le fun h => hp.2 (hp.1.eq_of_length h)
  cases before with
  | nil => simpa using hshorter hframes
  | cons g before =>
      have hlt := hshorter hframes
      simp only [List.cons_append, List.flatMap_cons, List.length_append]
      omega

def EndsChunk (p : Bytes) (chunks : List Bytes) (before : List Frame) (f : Frame) : Prop :=
  ∃ n, p.length + (chunks.take n).flatten.length = ((before ++ [f]).flatMap Frame.encode).length

/-- The first chunk ends those of its frames after which it has nothing. -/
theorem readExactly_cons_iff {done todo : List Frame} {p p' c : Bytes} {chunks : List Bytes}
    (hp : Unfinished Frame.encode (done ++ todo) p)
    (hbytes : p ++ c = done.flatMap Frame.encode ++ p') :
    AtSplits (fun before f _ => f.ReadExactly (EndsChunk p (c :: chunks) before f))
        (done ++ todo) ↔
      AtSplits (fun _ f after => f.ReadExactly (after.flatMap Frame.encode ++ p' = [])) done ∧
        AtSplits (fun before f _ => f.ReadExactly (EndsChunk p' chunks before f)) todo := by
  have hlength := congrArg List.length hbytes
  simp only [List.length_append] at hlength
  rw [atSplits_append]
  refine and_congr (atSplits_congr fun before f after hdone => ?_)
    (atSplits_congr fun before f after htodo => ?_)
  · refine Frame.ReadExactly.congr ?_
    have hsplit : done ++ todo = before ++ f :: (after ++ todo) := by simp [hdone]
    have hlt := unfinished_length_lt hp hsplit
    subst hdone
    rw [← List.length_eq_zero_iff]
    simp only [EndsChunk, List.flatMap_append, List.flatMap_cons, List.flatMap_nil,
      List.append_nil, List.length_append] at hlength hlt ⊢
    constructor
    · rintro ⟨n, hn⟩
      cases n with
      | zero =>
          simp only [List.take_zero, List.flatten_nil, List.length_nil] at hn
          omega
      | succ n =>
          simp only [List.take_succ_cons, List.flatten_cons, List.length_append] at hn
          omega
    · intro hnothing
      refine ⟨1, ?_⟩
      simp only [List.take_succ_cons, List.take_zero, List.flatten_cons, List.flatten_nil,
        List.append_nil]
      omega
  · refine Frame.ReadExactly.congr ?_
    have hsplit : done ++ todo = (done ++ before) ++ f :: after := by simp [htodo]
    have hlt := unfinished_length_lt hp hsplit
    simp only [EndsChunk, List.flatMap_append, List.flatMap_cons, List.flatMap_nil,
      List.append_nil, List.length_append] at hlt ⊢
    constructor
    · rintro ⟨n, hn⟩
      cases n with
      | zero =>
          simp only [List.take_zero, List.flatten_nil, List.length_nil] at hn
          omega
      | succ n =>
          simp only [List.take_succ_cons, List.flatten_cons, List.length_append] at hn
          exact ⟨n, by omega⟩
    · rintro ⟨n, hn⟩
      refine ⟨n + 1, ?_⟩
      simp only [List.take_succ_cons, List.flatten_cons, List.length_append]
      omega

theorem feed_frames_iff {frames : List Frame} {p : Bytes} {r : MessageReader}
    {chunks : List Bytes} (hr : Holds p r) (hp : Unfinished Frame.encode frames p)
    (hbytes : p ++ chunks.flatten = frames.flatMap Frame.encode) :
    (r.feedTaken chunks = frames.map Frame.size ↔
        AtSplits (fun before f _ => f.ReadExactly (EndsChunk p chunks before f)) frames) ∧
      (r.feedTaken chunks = frames.map Frame.size →
        (r.feed chunks).2 = frames.map Frame.signal) := by
  induction chunks generalizing frames p r with
  | nil =>
      rw [List.flatten_nil, List.append_nil] at hbytes
      obtain ⟨rfl, -⟩ := hp.of_complete hbytes
      exact ⟨iff_of_true rfl atSplits_nil, fun _ => rfl⟩
  | cons c chunks ih =>
      rw [List.flatten_cons, ← List.append_assoc] at hbytes
      have hpre : p ++ c <+: frames.flatMap Frame.encode := ⟨chunks.flatten, hbytes⟩
      obtain ⟨done, todo, p', rfl, hdone, hp'⟩ := exists_unfinished hpre
      have hrest : p' ++ chunks.flatten = todo.flatMap Frame.encode := by
        rw [hdone, List.flatMap_append, List.append_assoc] at hbytes
        exact List.append_cancel_left hbytes
      obtain ⟨hgood, hstarts⟩ := receive_done hr hdone hp'
      rw [readExactly_cons_iff hp hdone, feedTaken, feed]
      by_cases hnow :
          AtSplits (fun _ f after => f.ReadExactly (after.flatMap Frame.encode ++ p' = [])) done
      · obtain ⟨r', hreceive, htaken, hholds⟩ := hgood hnow
        obtain ⟨hiff, hsignals⟩ := ih hholds hp' hrest
        rw [hreceive, htaken, List.map_append, List.append_cancel_left_eq, hiff]
        refine ⟨(and_iff_right hnow).symm, fun hlater => ?_⟩
        simp only [hsignals (hiff.mpr hlater), List.map_append]
      · have hdiffers : r.receiveTaken c ++ (r.receive c).1.feedTaken chunks ≠
            (done ++ todo).map Frame.size :=
          fun heq => hnow (hstarts ⟨_, heq⟩)
        exact ⟨iff_of_false hdiffers fun h => hnow h.1, fun h => absurd h hdiffers⟩

/--
Every frame takes its own bytes, and the well-formed ones are delivered, in
exactly these streams: the inner lengths are those of the bodies, up to a null
array and up to inner lengths that are too large at the end of a chunk.
-/
theorem feed_inStep_iff (frames : List Frame) (chunks : List Bytes)
    (hchunks : chunks.flatten = frames.flatMap Frame.encode) :
    (start.feedTaken chunks = frames.map Frame.size ∧
        List.Forall₂ Frame.Delivered frames (start.feed chunks).2) ↔
      ∀ before f after, frames = before ++ f :: after →
        f.ReadExactly (∃ n, (chunks.take n).flatten.length =
          ((before ++ [f]).flatMap Frame.encode).length) := by
  have hstart : Holds [] start := .inl ⟨by simp, rfl, rfl⟩
  have hnone : Unfinished Frame.encode frames [] := .nil Frame.encode_ne_nil
  obtain ⟨hiff, hsignals⟩ := feed_frames_iff hstart hnone hchunks
  have hcondition : (∀ before f after, frames = before ++ f :: after →
      f.ReadExactly (∃ n, (chunks.take n).flatten.length =
        ((before ++ [f]).flatMap Frame.encode).length)) ↔
      AtSplits (fun before f _ => f.ReadExactly (EndsChunk [] chunks before f)) frames := by
    simp only [EndsChunk, List.length_nil, Nat.zero_add]
    rfl
  rw [hcondition, ← hiff]
  refine and_iff_left_of_imp fun htaken => ?_
  rw [hsignals htaken, List.forall₂_map_right_iff, List.forall₂_same]
  exact fun f _ => f.delivered_signal

/-- A body of eight bytes with an inner length of 2, and then a frame as `write` makes it. -/
def shortInnerLength : List Frame :=
  [⟨1, [0, 0, 0, 2, 104, 105, 0, 0], by decide, by decide⟩,
    ⟨2, [0, 0, 0, 1, 33], by decide, by decide⟩]

theorem shortInnerLength_outOfStep :
    ¬ ∀ (frames : List Frame) (chunks : List Bytes),
      chunks.flatten = frames.flatMap Frame.encode →
      start.feedTaken chunks = frames.map Frame.size ∧
        List.Forall₂ Frame.Delivered frames (start.feed chunks).2 := by
  intro h
  have hstart : Holds [] start := .inl ⟨by simp, rfl, rfl⟩
  have hnone : Unfinished Frame.encode shortInnerLength [] := .nil Frame.encode_ne_nil
  have htaken := (h shortInnerLength [shortInnerLength.flatMap Frame.encode] (by simp)).1
  have hread := (feed_frames_iff hstart hnone (by simp)).1.mp htaken [] _ _ rfl
  rcases hread with hexact | ⟨hnull, -⟩ | ⟨hover, -⟩
  · exact absurd hexact (by decide)
  · exact absurd hnull (by decide)
  · exact absurd hover (by decide)

/-- An inner length that asks for more than there is yet, and then a frame as `write` makes it. -/
def longInnerLength : List Frame :=
  [⟨1, [0, 0, 0, 200, 104], by decide, by decide⟩, ⟨2, [0, 0, 0, 1, 33], by decide, by decide⟩]

theorem feed_inStep_iff_longInnerLength :
    start.feedTaken (longInnerLength.map Frame.encode) = longInnerLength.map Frame.size ∧
      List.Forall₂ Frame.Delivered longInnerLength
        (start.feed (longInnerLength.map Frame.encode)).2 := by
  refine (feed_inStep_iff longInnerLength _ (by decide)).mpr ?_
  rintro (_ | ⟨first, _ | ⟨second, before⟩⟩) f after hsplit
  · cases hsplit
    exact .inr (.inr ⟨by decide, by decide, 1, by decide⟩)
  · cases hsplit
    exact .inl (by decide)
  · simp [longInnerLength] at hsplit

end MessageReader

end GBerry.Common
