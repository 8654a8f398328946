import GBerry.Foundation.Framing
import Mathlib.Tactic.Ring

/-!
# Length-prefixed messages on a TCP stream

`MessageReader` writes and reads the frames of one connection: the length of
the body, the channel id, and the body, which is the payload with a length
prefix of its own.  `QDataStream` is big-endian and prefixes a byte array with
its 32-bit length.
-/

namespace GBerry.Common

open GBerry.Foundation

abbrev Bytes := List UInt8

namespace QDataStream

/-- `operator<<(quint32)`: the four bytes of the number modulo `2 ^ 32`. -/
def putUInt32 (n : Nat) : Bytes :=
  [UInt8.ofNat (n / 16777216), UInt8.ofNat (n / 65536), UInt8.ofNat (n / 256),
    UInt8.ofNat n]

/-- `operator>>(quint32)`: short input is consumed and reads as 0. -/
def getUInt32 : Bytes → Nat × Bytes
  | b₃ :: b₂ :: b₁ :: b₀ :: rest =>
      (16777216 * b₃.toNat + 65536 * b₂.toNat + 256 * b₁.toNat + b₀.toNat, rest)
  | _ => (0, [])

def writeBytes (data : Bytes) : Bytes := putUInt32 data.length ++ data

/--
`operator>>(QByteArray&)`: the length `0xffffffff` stands for a null array, and
an array longer than what is there is read as empty, with all bytes consumed.
-/
def getByteArray (device : Bytes) : Bytes × Bytes :=
  let (len, rest) := getUInt32 device
  if len = 0xffffffff then ([], rest)
  else if rest.length < len then ([], [])
  else (rest.take len, rest.drop len)

theorem getUInt32_length_le (device : Bytes) :
    (getUInt32 device).2.length ≤ device.length := by
  unfold getUInt32
  split
  · simp only [List.length_cons]
    omega
  · simp

theorem getUInt32_length_lt {device : Bytes} (h : device ≠ []) :
    (getUInt32 device).2.length < device.length := by
  unfold getUInt32
  split
  · simp only [List.length_cons]
    omega
  · simpa using List.length_pos_iff.mpr h

theorem getByteArray_length_lt {device : Bytes} (h : device ≠ []) :
    (getByteArray device).2.length < device.length := by
  have hlt := getUInt32_length_lt h
  simp only [getByteArray]
  split
  · exact hlt
  · split
    · simpa using List.length_pos_iff.mpr h
    · simp only [List.length_drop]
      omega

@[simp] theorem putUInt32_length (n : Nat) : (putUInt32 n).length = 4 := rfl

theorem getUInt32_putUInt32 {n : Nat} (h : n < 2 ^ 32) (rest : Bytes) :
    getUInt32 (putUInt32 n ++ rest) = (n, rest) := by
  simp only [putUInt32, List.cons_append, List.nil_append, getUInt32,
    UInt8.toNat_ofNat', Prod.mk.injEq, and_true]
  omega

theorem getByteArray_writeBytes {data : Bytes} (h : data.length < 2 ^ 32 - 1)
    (rest : Bytes) : getByteArray (writeBytes data ++ rest) = (data, rest) := by
  have hlen : data.length < 2 ^ 32 := by omega
  have hnull : data.length ≠ 0xffffffff := by omega
  have hshort : ¬(data ++ rest).length < data.length := by simp
  simp only [getByteArray, writeBytes, List.append_assoc,
    getUInt32_putUInt32 hlen, if_neg hnull, if_neg hshort, List.take_left,
    List.drop_left]

end QDataStream

open QDataStream

structure Message where
  channelId : Int32
  payload : Bytes
  fits : payload.length + 4 < 2 ^ 32

/-- `buffer` is what `_socket` has received and not yet handed out. -/
structure MessageReader where
  blockSize : Nat
  channelId : Nat
  data : Bytes
  buffer : Bytes

namespace MessageReader

def start : MessageReader := ⟨0, 0, [], []⟩

def readHeader (r : MessageReader) : Option MessageReader :=
  if r.blockSize = 0 then
    if r.buffer.length < 8 then none
    else
      let (blockSize, rest) := getUInt32 r.buffer
      let (channelId, rest) := getUInt32 rest
      some { r with blockSize := blockSize, channelId := channelId, buffer := rest }
  else some r

theorem readHeader_length_le {r r' : MessageReader} (h : r.readHeader = some r') :
    r'.buffer.length ≤ r.buffer.length := by
  unfold readHeader at h
  split at h
  · split at h
    · simp at h
    · have hsize := getUInt32_length_le r.buffer
      have hchannel := getUInt32_length_le (getUInt32 r.buffer).2
      simp only [Option.some.injEq] at h
      subst h
      exact hchannel.trans hsize
  · simp only [Option.some.injEq] at h
    subst h
    exact Nat.le_refl _

/--
`socketReadyRead`: emits `received(channelId, data)` for every frame that is
complete.  The recursion is the source's own, on what is left in the buffer.
-/
def socketReadyRead (r : MessageReader) : MessageReader × List (Int32 × Bytes) :=
  match _hheader : r.readHeader with
  | none => (r, [])
  | some r' =>
      if r'.buffer.length < r'.blockSize then (r', [])
      else
        let body := getByteArray r'.buffer
        let done : MessageReader := ⟨0, 0, body.1, body.2⟩
        let signal := ((UInt32.ofNat r'.channelId).toInt32, body.1)
        if _hmore : done.buffer = [] then (done, [signal])
        else
          let next := done.socketReadyRead
          (next.1, signal :: next.2)
termination_by r.buffer.length
decreasing_by
  have hle := readHeader_length_le _hheader
  by_cases hnil : r'.buffer = []
  · exact absurd (by simp [done, body, hnil, getByteArray, getUInt32]) _hmore
  · have hlt := getByteArray_length_lt hnil
    show (getByteArray r'.buffer).2.length < r.buffer.length
    omega

def write (channelId : Int32) (msg : Bytes) : Bytes :=
  let block := putUInt32 0 ++ putUInt32 channelId.toUInt32.toNat ++ writeBytes msg
  putUInt32 (block.length - 8) ++ block.drop 4

def receive (r : MessageReader) (chunk : Bytes) :
    MessageReader × List (Int32 × Bytes) :=
  { r with buffer := r.buffer ++ chunk }.socketReadyRead

def feed (r : MessageReader) : List Bytes → MessageReader × List (Int32 × Bytes)
  | [] => (r, [])
  | chunk :: chunks =>
      let (r', signals) := r.receive chunk
      let (r'', signals') := feed r' chunks
      (r'', signals ++ signals')

/-! ## The reader holds the bytes of an unfinished frame -/

def frame (m : Message) : Bytes := write m.channelId m.payload

def header (m : Message) : Bytes :=
  putUInt32 (m.payload.length + 4) ++ putUInt32 m.channelId.toUInt32.toNat

theorem frame_eq (m : Message) : frame m = header m ++ writeBytes m.payload := by
  have hsize : (putUInt32 0 ++ putUInt32 m.channelId.toUInt32.toNat ++
      writeBytes m.payload).length - 8 = m.payload.length + 4 := by
    simp [writeBytes]
    omega
  have hdrop : (putUInt32 0 ++ putUInt32 m.channelId.toUInt32.toNat ++
      writeBytes m.payload).drop 4 =
        putUInt32 m.channelId.toUInt32.toNat ++ writeBytes m.payload := rfl
  show putUInt32 ((putUInt32 0 ++ putUInt32 m.channelId.toUInt32.toNat ++
      writeBytes m.payload).length - 8) ++ (putUInt32 0 ++
      putUInt32 m.channelId.toUInt32.toNat ++ writeBytes m.payload).drop 4 = _
  rw [hsize, hdrop, header, List.append_assoc]

@[simp] theorem header_length (m : Message) : (header m).length = 8 := rfl

@[simp] theorem writeBytes_length (data : Bytes) :
    (writeBytes data).length = data.length + 4 := by
  simp [writeBytes]
  omega

/--
`p` is what the reader has seen of a frame: it waits for the header, or the
header is in `_blockSize` and `_channelId` and the rest still in the buffer.
-/
def Holds (p : Bytes) (r : MessageReader) : Prop :=
  (p.length < 8 ∧ r.blockSize = 0 ∧ r.buffer = p) ∨
  (r.blockSize ≠ 0 ∧ r.blockSize < 2 ^ 32 ∧ r.channelId < 2 ^ 32 ∧
    p = putUInt32 r.blockSize ++ putUInt32 r.channelId ++ r.buffer)

theorem holds_nil {r : MessageReader} (h : Holds [] r) :
    r.blockSize = 0 ∧ r.buffer = [] := by
  rcases h with ⟨-, hsize, hbuffer⟩ | ⟨-, -, -, hp⟩
  · exact ⟨hsize, hbuffer⟩
  · simp [putUInt32] at hp

theorem readHeader_of_holds {p c q : Bytes} {r : MessageReader} {size : Nat} {id : UInt32}
    (hr : Holds p r) (hfits : size < 2 ^ 32)
    (hpc : p ++ c = putUInt32 size ++ putUInt32 id.toNat ++ q) :
    ({ r with buffer := r.buffer ++ c } : MessageReader).readHeader =
      some ⟨size, id.toNat, r.data, q⟩ := by
  rcases hr with ⟨-, hsize, rfl⟩ | ⟨hsize, hbound, hchannel, hp⟩
  · have hlen : ¬(r.buffer ++ c).length < 8 := by
      simp only [hpc, List.length_append, putUInt32_length]
      omega
    simp only [readHeader, hsize, if_pos, if_neg hlen]
    rw [hpc, List.append_assoc, getUInt32_putUInt32 hfits]
    simp only [getUInt32_putUInt32 (UInt32.toNat_lt _)]
  · have hprefix : putUInt32 r.blockSize ++ putUInt32 r.channelId =
        putUInt32 size ++ putUInt32 id.toNat := by
      have hq : putUInt32 r.blockSize ++ putUInt32 r.channelId ++
          (r.buffer ++ c) = putUInt32 size ++ putUInt32 id.toNat ++ q := by
        rw [← List.append_assoc, ← hp, hpc]
      exact (List.append_inj hq rfl).1
    have hq : r.buffer ++ c = q := by
      rw [hp, List.append_assoc, hprefix] at hpc
      exact List.append_cancel_left hpc
    have hhead : putUInt32 r.blockSize = putUInt32 size ∧
        putUInt32 r.channelId = putUInt32 id.toNat :=
      List.append_inj hprefix rfl
    have hblock : r.blockSize = size := by
      have hget := congrArg (fun bytes => (getUInt32 (bytes ++ [])).1) hhead.1
      simpa only [getUInt32_putUInt32 hbound, getUInt32_putUInt32 hfits] using hget
    have hid : r.channelId = id.toNat := by
      have hget := congrArg (fun bytes => (getUInt32 (bytes ++ [])).1) hhead.2
      simpa only [getUInt32_putUInt32 hchannel,
        getUInt32_putUInt32 (UInt32.toNat_lt _)] using hget
    simp only [readHeader, if_neg hsize, hq]
    rw [hblock, hid]

theorem receive_quiet {r : MessageReader} (h : Holds [] r) :
    r.receive [] = (r, []) := by
  obtain ⟨hsize, hbuffer⟩ := holds_nil h
  have hheader : ({ r with buffer := r.buffer ++ [] } : MessageReader).readHeader =
      none := by
    simp [readHeader, hsize, hbuffer]
  rw [receive, socketReadyRead, hheader]
  simp

theorem receive_unfinished {p c body : Bytes} {r : MessageReader} {id : UInt32}
    (hr : Holds p r) (hbody : body ≠ []) (hfits : body.length < 2 ^ 32)
    (hpre : p ++ c <+: putUInt32 body.length ++ putUInt32 id.toNat ++ body)
    (hne : p ++ c ≠ putUInt32 body.length ++ putUInt32 id.toNat ++ body) :
    ∃ r', r.receive c = (r', []) ∧ Holds (p ++ c) r' := by
  have hlt := lt_of_le_of_ne hpre.length_le fun h => hne (hpre.eq_of_length h)
  simp only [List.length_append, putUInt32_length] at hlt
  by_cases hshort : (p ++ c).length < 8
  · rcases hr with ⟨-, hsize, rfl⟩ | ⟨-, -, -, rfl⟩
    · have hheader :
          ({ r with buffer := r.buffer ++ c } : MessageReader).readHeader = none := by
        simp only [readHeader, hsize, if_pos, if_pos hshort]
      refine ⟨{ r with buffer := r.buffer ++ c }, ?_, .inl ⟨hshort, hsize, rfl⟩⟩
      rw [receive, socketReadyRead, hheader]
    · simp only [List.length_append, putUInt32_length] at hshort
      omega
  · obtain ⟨q, hq⟩ : putUInt32 body.length ++ putUInt32 id.toNat <+: p ++ c :=
      List.prefix_of_prefix_length_le (List.prefix_append _ _) hpre
        (by simpa using Nat.not_lt.mp hshort)
    have hheader := readHeader_of_holds hr hfits hq.symm
    have hshorter : q.length < body.length := by
      have hlength := congrArg List.length hq
      simp only [List.length_append, putUInt32_length] at hlength
      omega
    refine ⟨⟨body.length, id.toNat, r.data, q⟩, ?_,
      .inr ⟨by simpa using hbody, hfits, UInt32.toNat_lt _, hq.symm⟩⟩
    rw [receive, socketReadyRead, hheader]
    simp only [if_pos hshorter]

theorem receive_frame {p c q : Bytes} {r : MessageReader} {size : Nat} {id : UInt32}
    (hr : Holds p r) (hfits : size < 2 ^ 32)
    (hpc : p ++ c = putUInt32 size ++ putUInt32 id.toNat ++ q) (hq : size ≤ q.length) :
    r.receive c =
      (((⟨0, 0, (getByteArray q).1, []⟩ : MessageReader).receive (getByteArray q).2).1,
        (id.toInt32, (getByteArray q).1) ::
          ((⟨0, 0, (getByteArray q).1, []⟩ : MessageReader).receive (getByteArray q).2).2) := by
  have hheader := readHeader_of_holds hr hfits hpc
  have hidle : Holds [] (⟨0, 0, (getByteArray q).1, []⟩ : MessageReader) :=
    .inl ⟨by simp, rfl, rfl⟩
  rw [receive, socketReadyRead, hheader]
  simp only [if_neg (Nat.not_lt.mpr hq), UInt32.ofNat_toNat]
  by_cases hrest : (getByteArray q).2 = []
  · rw [dif_pos hrest, hrest, receive_quiet hidle]
  · rw [dif_neg hrest]
    rfl

theorem receive_wait {p : Bytes} {r : MessageReader} {m : Message} (c : Bytes)
    (hr : Holds p r) (hpre : p ++ c <+: frame m) (hne : p ++ c ≠ frame m) :
    ∃ r', r.receive c = (r', []) ∧ Holds (p ++ c) r' := by
  rw [frame_eq, header, ← writeBytes_length] at hpre hne
  refine receive_unfinished hr ?_ (by simpa using m.fits) hpre hne
  intro hnil
  simpa using congrArg List.length hnil

theorem receive_finish {p : Bytes} {r : MessageReader} {m : Message}
    (c rest : Bytes) (hr : Holds p r) (_hpre : p <+: frame m) (_hne : p ≠ frame m)
    (hpc : p ++ c = frame m ++ rest) :
    ∃ r₀, Holds [] r₀ ∧ r.receive c =
      ((r₀.receive rest).1, (m.channelId, m.payload) :: (r₀.receive rest).2) := by
  rw [frame_eq, header, List.append_assoc] at hpc
  have hlen : m.payload.length < 2 ^ 32 - 1 := by
    have hfits := m.fits
    omega
  have hget := getByteArray_writeBytes hlen rest
  have hread := receive_frame hr m.fits hpc (by simp)
  rw [hget] at hread
  exact ⟨⟨0, 0, m.payload, []⟩, .inl ⟨by simp, rfl, rfl⟩, hread⟩

def framed : FramedReader MessageReader UInt8 Message (Int32 × Bytes) where
  encode := frame
  signal m := (m.channelId, m.payload)
  receive := receive
  Holds := Holds
  encode_ne_nil m h := by
    have hlen := congrArg List.length h
    simp [frame_eq] at hlen
  quiet := receive_quiet
  wait := receive_wait
  finish := receive_finish

theorem feed_eq (r : MessageReader) (chunks : List Bytes) :
    r.feed chunks = framed.feed r chunks := by
  induction chunks generalizing r with
  | nil => rfl
  | cons chunk chunks ih => simp only [feed, FramedReader.feed, ih, framed]

/--
However the stream of the written frames is cut, a fresh reader emits exactly
the messages, in order, and ends between two frames with nothing unread.  After
each chunk it has emitted the messages whose last byte is there, and no others:
what is left over is a proper prefix of the next frame.
-/
theorem feed_written (msgs : List Message) (chunks : List Bytes)
    (hchunks : chunks.flatten = msgs.flatMap fun m => write m.channelId m.payload) :
    (∃ r, start.feed chunks = (r, msgs.map fun m => (m.channelId, m.payload)) ∧
      r.blockSize = 0 ∧ r.buffer = []) ∧
    ∀ n, ∃ done todo p, msgs = done ++ todo ∧
      (chunks.take n).flatten =
        (done.flatMap fun m => write m.channelId m.payload) ++ p ∧
      Unfinished (fun m : Message => write m.channelId m.payload) todo p ∧
      (start.feed (chunks.take n)).2 = done.map fun m => (m.channelId, m.payload) := by
  have hstart : framed.Holds [] start := .inl ⟨by simp, rfl, rfl⟩
  constructor
  · obtain ⟨r, hfeed, hholds⟩ := framed.feed_complete hstart hchunks
    obtain ⟨hsize, hbuffer⟩ := holds_nil hholds
    exact ⟨r, by rw [feed_eq, hfeed]; rfl, hsize, hbuffer⟩
  · intro n
    have htake : (chunks.take n).flatten <+: msgs.flatMap framed.encode := by
      have hsplit := congrArg List.flatten (List.take_append_drop n chunks)
      rw [List.flatten_append, hchunks] at hsplit
      exact ⟨_, hsplit⟩
    obtain ⟨done, todo, p, r, hmsgs, hbytes, hopen, hfeed, -⟩ :=
      framed.feed_frames hstart (framed.unfinished_nil msgs) htake
    exact ⟨done, todo, p, hmsgs, hbytes, hopen, by rw [feed_eq, hfeed]; rfl⟩

theorem feed_written_two_frames :
    ∃ r, start.feed [[0, 0, 0, 6, 0], [0, 0, 1, 0, 0, 0, 2, 104, 105, 0, 0],
        [0, 4, 255, 255, 255, 255, 0, 0, 0], [0]] =
      (r, [(1, [104, 105]), (-1, [])]) ∧ r.blockSize = 0 ∧ r.buffer = [] :=
  (feed_written [⟨1, [104, 105], by decide⟩, ⟨-1, [], by decide⟩]
    [[0, 0, 0, 6, 0], [0, 0, 1, 0, 0, 0, 2, 104, 105, 0, 0],
      [0, 4, 255, 255, 255, 255, 0, 0, 0], [0]] (by decide)).1

end MessageReader

end GBerry.Common
