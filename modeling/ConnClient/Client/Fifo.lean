/-
  `stream.cpp` — the buffer with its memory, and what it is for.

  There are three levels.  `StreamMem` is the class as it is written: a block from `malloc`, the three
  numbers, and the copies between them.  `Stream` (`ConnClient.Client.Stream`) forgets the block behind
  the used bytes, and every operation of `StreamMem` is the one of `Stream` (`Holds`).  And a `Stream`
  is a queue: `queueStep` says what each operation means for the bytes that are to be read.

      bytes written  →  [ read | to be read | room granted | rest of the block ]
                        0     rpos_        size_                          capacity_

  The user writes at `End` himself and tells `AddSize` how many, so the stream is a queue only for a
  user who stays within what room was made for.  `grant` keeps account of that beside the stream: room
  that was made stays, whatever else is done, until it is written to, and `Serves.room` is the
  invariant that the account is covered by the block.

  `stream_fifo` puts them together for every sequence of operations of a user who writes no more than
  room was made for.  An `int` of the source is a number here: what a user asks for stays below
  `2^31`.
-/
import ConnClient.Lib.Memory
import ConnClient.Lib.Run
import ConnClient.Client.Stream

namespace ConnClient

open ConnClient.Lib

/-! ## The memory -/

/-- A block from `malloc`, of any content: nothing may be read that was not written. -/
abbrev Malloc := (n : Nat) → { block : List Byte // block.length = n }

/-- `Stream`, with its memory. -/
structure StreamMem where
  buf : List Byte
  rpos : Nat
  size : Nat
  capacity : Nat

namespace StreamMem

/-- `Stream::Stream` -/
def new (malloc : Malloc) : StreamMem := ⟨(malloc growBlock).1, 0, 0, growBlock⟩

/-- `Stream::Len` -/
def len (m : StreamMem) : Nat := m.size - m.rpos

/-- The `Len` bytes at `Buf`. -/
def content (m : StreamMem) : List Byte := (m.buf.drop m.rpos).take m.len

/-- `Stream::Shrink` -/
def shrink (m : StreamMem) : StreamMem :=
  if m.rpos > 0 then
    let readableLen := m.size - m.rpos
    { m with
      buf := overwrite 0 ((m.buf.drop m.rpos).take readableLen) m.buf
      rpos := 0
      size := readableLen }
  else m

/-- `Stream::EnsureWritable` -/
def ensureWritable (malloc : Malloc) (dataLen : Int) (m : StreamMem) : Int × StreamMem :=
  if dataLen ≤ 0 then (0, m)
  else
    let m := m.shrink
    let expectSize := m.size + dataLen.toNat
    if expectSize > streamMaxSize then (-1, m)
    else if m.capacity < expectSize then
      let capacity := Stream.roundup expectSize growBlock
      let newBuf := (malloc capacity).1
      let newBuf := if m.size > 0 then overwrite 0 (m.buf.take m.size) newBuf else newBuf
      (0, { m with buf := newBuf, capacity := capacity })
    else (0, m)

/-- `Stream::Append` -/
def append (malloc : Malloc) (data : List Byte) (m : StreamMem) : Int × StreamMem :=
  let (ret, m) := m.ensureWritable malloc data.length
  if ret ≠ 0 then (-1, m)
  else (0, { m with buf := overwrite m.size data m.buf, size := m.size + data.length })

/-- `Stream::Skip` -/
def skip (offset : Int) (m : StreamMem) : StreamMem :=
  if offset < 0 then m
  else if m.rpos + offset.toNat < m.size then { m with rpos := m.rpos + offset.toNat }
  else { m with rpos := 0, size := 0 }

/-- `Stream::Reset` -/
def reset (m : StreamMem) : StreamMem := { m with rpos := 0, size := 0 }

/-- Bytes written at `Stream::End`. -/
def putEnd (bytes : List Byte) (m : StreamMem) : StreamMem :=
  { m with buf := overwrite m.size bytes m.buf }

/-- `Stream::AddSize` -/
def addSize (n : Nat) (m : StreamMem) : StreamMem :=
  if m.size + n ≤ m.capacity then { m with size := m.size + n } else m

end StreamMem

/-! ## The used bytes -/

/-- The block holds these used bytes, and the numbers are the same.  What is behind the used bytes
    is not said. -/
structure Holds (m : StreamMem) (s : Stream) : Prop where
  used : m.buf.take m.size = s.bytes
  rpos : m.rpos = s.rpos
  size : m.size = s.size
  capacity : m.capacity = s.capacity
  /-- `capacity_` is the length of the block. -/
  block : m.buf.length = m.capacity

variable {m : StreamMem} {s : Stream}

theorem Holds.size_le (h : Holds m s) : m.size ≤ m.buf.length := by
  rw [h.block, h.capacity, h.size]
  exact s.size_le

theorem Holds.len (h : Holds m s) : m.len = s.len := by
  rw [StreamMem.len, Stream.len, h.rpos, h.size]

/-- The unread bytes are the same. -/
theorem Holds.content (h : Holds m s) : m.content = s.buf := by
  rw [StreamMem.content, StreamMem.len, Stream.buf, ← h.used, ← h.rpos, List.drop_take]

theorem holds_new (malloc : Malloc) : Holds (.new malloc) .new := by
  constructor
  · rfl
  · rfl
  · rfl
  · rfl
  · exact (malloc growBlock).2

theorem Holds.shrink (h : Holds m s) : Holds m.shrink s.shrink := by
  rw [StreamMem.shrink, Stream.shrink, h.rpos]
  by_cases hread : s.rpos > 0
  · rw [if_pos hread, if_pos hread]
    -- `memmove` to the front: source and target may overlap, and the result is as if they did not
    have hcontent : (m.buf.drop s.rpos).take (m.size - s.rpos) = s.bytes.drop s.rpos := by
      have hbuf := h.content
      rwa [StreamMem.content, StreamMem.len, h.rpos] at hbuf
    have hlen : (s.bytes.drop s.rpos).length = m.size - s.rpos := by
      rw [List.length_drop, h.size, Stream.size]
    constructor
    · show (overwrite 0 ((m.buf.drop s.rpos).take (m.size - s.rpos)) m.buf).take (m.size - s.rpos) = _
      rw [hcontent, ← hlen]
      exact take_overwrite_zero _ _
    · rfl
    · exact hlen.symm
    · exact h.capacity
    · have hle := h.size_le
      refine (length_overwrite ?_).trans h.block
      rw [hcontent, hlen]
      omega
  · rw [if_neg hread, if_neg hread]
    exact h

/-- The bytes are copied to a larger block. -/
theorem Holds.grown (h : Holds m s) (malloc : Malloc) {capacity : Nat}
    (hle : s.bytes.length ≤ capacity) :
    Holds
      { m with
        buf := if s.size > 0 then overwrite 0 (m.buf.take s.size) (malloc capacity).1
          else (malloc capacity).1
        size := s.size
        capacity := capacity }
      { s with capacity := capacity, size_le := hle } := by
  have hused : m.buf.take s.size = s.bytes := by rw [← h.size, h.used]
  have hblock := (malloc capacity).2
  rw [hused]
  constructor
  · show List.take s.size (if s.size > 0 then _ else _) = s.bytes
    by_cases hpos : s.size > 0
    · rw [if_pos hpos]
      exact take_overwrite_zero s.bytes (malloc capacity).1
    · have hzero : s.size = 0 := Nat.eq_zero_of_not_pos hpos
      rw [if_neg hpos, hzero, List.take_zero]
      exact (List.length_eq_zero_iff.mp hzero).symm
  · exact h.rpos
  · rfl
  · rfl
  · show List.length (if s.size > 0 then _ else _) = capacity
    split
    · refine (length_overwrite ?_).trans hblock
      rw [hblock, Nat.zero_add]
      exact hle
    · exact hblock

/-- **Room is made, or refused, alike.** -/
theorem Holds.ensureWritable (h : Holds m s) (malloc : Malloc) (dataLen : Int) :
    Holds (m.ensureWritable malloc dataLen).2 (s.ensureWritable dataLen).2
      ∧ (m.ensureWritable malloc dataLen).1 = if (s.ensureWritable dataLen).1 then 0 else -1 := by
  have hshrink := h.shrink
  rw [StreamMem.ensureWritable, Stream.ensureWritable]
  by_cases hneg : dataLen ≤ 0
  · rw [if_pos hneg, if_pos hneg]
    exact ⟨h, rfl⟩
  rw [if_neg hneg, if_neg hneg]
  dsimp only
  rw [hshrink.size, hshrink.capacity]
  -- both levels come to the same three decisions, on the same numbers
  by_cases hbig : s.shrink.size + dataLen.toNat > streamMaxSize
  · rw [if_pos hbig, if_pos hbig]
    exact ⟨hshrink, rfl⟩
  rw [if_neg hbig, if_neg hbig]
  by_cases hcap : s.shrink.capacity < s.shrink.size + dataLen.toNat
  · rw [if_pos hcap, if_pos hcap]
    have hle := Nat.le_trans (Nat.le_add_right _ _)
      (Stream.le_roundup (s.shrink.size + dataLen.toNat))
    exact ⟨hshrink.grown malloc hle, rfl⟩
  · rw [if_neg hcap, if_neg hcap]
    exact ⟨hshrink, rfl⟩

/-- Bytes written where there is room for them. -/
theorem Holds.write (h : Holds m s) {bytes : List Byte} (hroom : s.size + bytes.length ≤ s.capacity) :
    Holds ((m.putEnd bytes).addSize bytes.length) (s.addSize bytes) := by
  have hfits : m.size + bytes.length ≤ m.buf.length := by
    rw [h.block, h.capacity, h.size]
    exact hroom
  have hadd : (m.putEnd bytes).addSize bytes.length
      = { m with buf := overwrite m.size bytes m.buf, size := m.size + bytes.length } := by
    refine if_pos ?_
    show m.size + bytes.length ≤ m.capacity
    rw [← h.block]
    exact hfits
  rw [hadd, Stream.addSize, dif_pos hroom]
  constructor
  · show (overwrite m.size bytes m.buf).take (m.size + bytes.length) = s.bytes ++ bytes
    rw [take_overwrite h.size_le, h.used]
  · exact h.rpos
  · show m.size + bytes.length = (s.bytes ++ bytes).length
    rw [h.size, List.length_append, Stream.size]
  · exact h.capacity
  · exact (length_overwrite hfits).trans h.block

theorem Holds.skip (h : Holds m s) (offset : Int) : Holds (m.skip offset) (s.skip offset) := by
  rw [StreamMem.skip, Stream.skip, h.rpos, h.size]
  by_cases hneg : offset < 0
  · rw [if_pos hneg, if_pos hneg]
    exact h
  rw [if_neg hneg, if_neg hneg]
  by_cases hlt : s.rpos + offset.toNat < s.size
  · rw [if_pos hlt, dif_pos hlt]
    exact ⟨h.size ▸ h.used, rfl, rfl, h.capacity, h.block⟩
  · rw [if_neg hlt, dif_neg hlt]
    exact ⟨rfl, rfl, rfl, h.capacity, h.block⟩

theorem Holds.reset (h : Holds m s) : Holds m.reset s.reset :=
  ⟨rfl, rfl, rfl, h.capacity, h.block⟩

/-- Appending is making room and writing. -/
theorem append_eq {malloc : Malloc} {data : List Byte}
    (hret : (m.ensureWritable malloc data.length).1 = 0)
    (hroom : (m.ensureWritable malloc data.length).2.size + data.length
      ≤ (m.ensureWritable malloc data.length).2.capacity) :
    m.append malloc data
      = (0, ((m.ensureWritable malloc data.length).2.putEnd data).addSize data.length) := by
  rw [StreamMem.append]
  generalize m.ensureWritable malloc data.length = r at hret hroom ⊢
  obtain ⟨ret, m'⟩ := r
  change ret = 0 at hret
  dsimp only at hroom ⊢
  rw [if_neg (fun h => h hret), StreamMem.addSize]
  exact congrArg _ (if_pos hroom).symm

theorem append_refused {malloc : Malloc} {data : List Byte}
    (hret : (m.ensureWritable malloc data.length).1 ≠ 0) :
    m.append malloc data = (-1, (m.ensureWritable malloc data.length).2) := by
  rw [StreamMem.append]
  generalize m.ensureWritable malloc data.length = r at hret ⊢
  obtain ⟨ret, m'⟩ := r
  exact if_pos hret

/-! ## The queue -/

/-- What is done with a stream. -/
inductive StreamOp where
  | ensureWritable (malloc : Malloc) (dataLen : Int)
  /-- The bytes are put at `End`, and `AddSize` is told how many. -/
  | write (bytes : List Byte)
  | append (malloc : Malloc) (data : List Byte)
  | skip (offset : Int)
  | shrink
  | reset

/-- The result, zero for a function that has none, and the stream. -/
def StreamOp.run : StreamOp → StreamMem → Int × StreamMem
  | .ensureWritable malloc dataLen, m => m.ensureWritable malloc dataLen
  | .write bytes, m => (0, (m.putEnd bytes).addSize bytes.length)
  | .append malloc data, m => m.append malloc data
  | .skip offset, m => (0, m.skip offset)
  | .shrink, m => (0, m.shrink)
  | .reset, m => (0, m.reset)

/-- What it means for the queue of bytes, with this result. -/
def StreamOp.queueStep (ret : Int) : StreamOp → List Byte → List Byte
  | .write bytes, q => q ++ bytes
  | .append _ data, q => if ret = 0 then q ++ data else q
  | .skip offset, q => q.drop offset.toNat
  | .reset, _ => []
  | .ensureWritable .., q => q
  | .shrink, q => q

/-- How many bytes the user may write then: what room was made for, less what was written. -/
def StreamOp.grant (ret : Int) : StreamOp → Nat → Nat
  | .ensureWritable _ dataLen, n => if ret = 0 then max n dataLen.toNat else n
  | .write bytes, n => n - bytes.length
  | .append _ data, n => if ret = 0 then n - data.length else n
  | .skip _, n => n
  | .shrink, n => n
  | .reset, n => n

/-- A stream, its user and the queue it should be. -/
structure StreamUse where
  stream : StreamMem
  granted : Nat
  queue : List Byte

/-- One operation. -/
def StreamOp.step (op : StreamOp) (t : StreamUse) : Except Empty StreamUse :=
  let r := op.run t.stream
  .ok ⟨r.2, op.grant r.1 t.granted, op.queueStep r.1 t.queue⟩

/-- What a user may ask for: arguments that are not negative, sums below `2^31`, and no more bytes
    written than room was made for. -/
def Allowed (t : StreamUse) : StreamOp → Prop
  | .ensureWritable _ dataLen => 0 ≤ dataLen ∧ t.stream.size + dataLen < 2 ^ 31
  | .write bytes => bytes.length ≤ t.granted
  | .append _ data => t.stream.size + data.length < 2 ^ 31
  | .skip offset => 0 ≤ offset ∧ t.stream.size + offset < 2 ^ 31
  | .shrink => True
  | .reset => True

instance (t : StreamUse) : (op : StreamOp) → Decidable (Allowed t op)
  | .ensureWritable _ dataLen =>
    inferInstanceAs (Decidable (0 ≤ dataLen ∧ t.stream.size + dataLen < 2 ^ 31))
  | .write bytes => inferInstanceAs (Decidable (bytes.length ≤ t.granted))
  | .append _ data => inferInstanceAs (Decidable (t.stream.size + data.length < 2 ^ 31))
  | .skip offset => inferInstanceAs (Decidable (0 ≤ offset ∧ t.stream.size + offset < 2 ^ 31))
  | .shrink => .isTrue trivial
  | .reset => .isTrue trivial

/-- A stream just constructed. -/
def NewStream (t : StreamUse) : Prop := ∃ malloc, t = ⟨.new malloc, 0, []⟩

/-- What a user gets to. -/
abbrev StreamRuns : StreamUse → Prop := Reach StreamOp.step NewStream Allowed

/-- **The invariant**: the stream holds the queue, and the room that was promised, in a block that
    is not too large. -/
structure Serves (t : StreamUse) (s : Stream) : Prop where
  holds : Holds t.stream s
  max : s.capacity ≤ streamMaxSize
  room : s.size + t.granted ≤ s.capacity
  queue : s.buf = t.queue

theorem serves_new (malloc : Malloc) : Serves ⟨.new malloc, 0, []⟩ .new :=
  ⟨holds_new malloc, by decide, Nat.zero_le _, rfl⟩

theorem Serves.ensureWritable {t : StreamUse} (h : Serves t s) (malloc : Malloc) (dataLen : Int) :
    let r := t.stream.ensureWritable malloc dataLen
    Serves ⟨r.2, StreamOp.grant r.1 (.ensureWritable malloc dataLen) t.granted, t.queue⟩
      (s.ensureWritable dataLen).2 := by
  obtain ⟨hholds, hret⟩ := h.holds.ensureWritable malloc dataLen
  have hkept := Stream.room_kept h.room dataLen
  constructor
  · exact hholds
  · exact Stream.capacity_ensureWritable h.max dataLen
  · show _ + (if (t.stream.ensureWritable malloc dataLen).1 = 0 then _ else _) ≤ _
    rw [hret]
    by_cases hroom : (s.ensureWritable dataLen).1 = true
    · have hgranted := Stream.granted_ensureWritable hroom
      rw [hroom, if_pos rfl, if_pos rfl]
      omega
    · rw [if_neg hroom, if_neg (by decide)]
      exact hkept
  · exact (Stream.buf_ensureWritable dataLen s).trans h.queue

/-- Bytes are written into room that is there. -/
theorem Serves.write {t : StreamUse} (h : Serves t s) {bytes : List Byte}
    (hroom : s.size + bytes.length ≤ s.capacity) :
    Serves ⟨(t.stream.putEnd bytes).addSize bytes.length, t.granted - bytes.length,
      t.queue ++ bytes⟩ (s.addSize bytes) := by
  have hfits := h.room
  constructor
  · exact h.holds.write hroom
  · rw [Stream.addSize, dif_pos hroom]
    exact h.max
  · rw [Stream.addSize, dif_pos hroom]
    show (s.bytes ++ bytes).length + (t.granted - bytes.length) ≤ s.capacity
    rw [List.length_append]
    change s.bytes.length + t.granted ≤ s.capacity at hfits
    change s.bytes.length + bytes.length ≤ s.capacity at hroom
    omega
  · rw [Stream.buf_addSize hroom, h.queue]

/-- An append is both, or neither. -/
theorem Serves.append {t : StreamUse} (h : Serves t s) (malloc : Malloc) (data : List Byte) :
    let r := t.stream.append malloc data
    ∃ s', Serves ⟨r.2, StreamOp.grant r.1 (.append malloc data) t.granted,
      StreamOp.queueStep r.1 (.append malloc data) t.queue⟩ s' := by
  dsimp only
  obtain ⟨hholds, hret⟩ := h.holds.ensureWritable malloc data.length
  have hkept := Stream.room_kept h.room data.length
  have hmax := Stream.capacity_ensureWritable h.max data.length
  have hbuf := (Stream.buf_ensureWritable data.length s).trans h.queue
  have hmade : Serves ⟨_, t.granted, t.queue⟩ (s.ensureWritable data.length).2 :=
    ⟨hholds, hmax, hkept, hbuf⟩
  by_cases hroom : (s.ensureWritable data.length).1 = true
  · rw [hroom, if_pos rfl] at hret
    have hfits := Stream.granted_ensureWritable hroom
    have hmem : (t.stream.ensureWritable malloc data.length).2.size + data.length
        ≤ (t.stream.ensureWritable malloc data.length).2.capacity := by
      rw [hholds.size, hholds.capacity]
      exact hfits
    rw [append_eq hret hmem]
    exact ⟨_, hmade.write hfits⟩
  · rw [if_neg hroom] at hret
    have hne : (t.stream.ensureWritable malloc data.length).1 ≠ 0 := by
      rw [hret]
      decide
    rw [append_refused hne]
    exact ⟨_, hmade⟩

/-- **Every operation serves.**  One case for each. -/
theorem serves_step {op : StreamOp} {t t' : StreamUse} (h : Serves t s) (hop : Allowed t op)
    (hr : op.step t = .ok t') : ∃ s', Serves t' s' := by
  have hroom := h.room
  cases op with
  | ensureWritable malloc dataLen =>
    cases hr
    exact ⟨_, h.ensureWritable malloc dataLen⟩
  | write bytes =>
    cases hr
    have hle : bytes.length ≤ t.granted := hop
    exact ⟨_, h.write (Nat.le_trans (Nat.add_le_add_left hle _) hroom)⟩
  | append malloc data =>
    cases hr
    exact h.append malloc data
  | skip offset =>
    cases hr
    obtain ⟨hpos, -⟩ := hop
    obtain ⟨hcap, hsize⟩ := Stream.skip_fits offset s
    refine ⟨s.skip offset, h.holds.skip offset, ?_, ?_, ?_⟩
    · rw [hcap]
      exact h.max
    · rw [hcap]
      exact Nat.le_trans (Nat.add_le_add_right hsize _) hroom
    · rw [Stream.buf_skip hpos, h.queue]
      rfl
  | shrink =>
    cases hr
    have hcap := Stream.capacity_shrink s
    refine ⟨s.shrink, h.holds.shrink, ?_, ?_, ?_⟩
    · rw [hcap]
      exact h.max
    · rw [hcap, Stream.size_shrink]
      exact Nat.le_trans (Nat.add_le_add_right (Nat.sub_le ..) _) hroom
    · exact (Stream.buf_shrink s).trans h.queue
  | reset =>
    cases hr
    refine ⟨s.reset, h.holds.reset, h.max, ?_, rfl⟩
    show 0 + t.granted ≤ s.capacity
    omega

theorem StreamRuns.serves {t : StreamUse} (h : StreamRuns t) : ∃ s, Serves t s := by
  refine h.inv (I := fun t => ∃ s, Serves t s) ?_ ?_
  · rintro t ⟨malloc, rfl⟩
    exact ⟨.new, serves_new malloc⟩
  · rintro t t' op - ⟨s, hs⟩ hop hr
    exact serves_step hs hop hr

/-! ## The buffer is a queue -/

/-- The bytes to be read are the queue, and the positions lie in order inside the block. -/
theorem Serves.inOrder {t : StreamUse} {s : Stream} (h : Serves t s) :
    t.stream.content = t.queue ∧ t.stream.rpos ≤ t.stream.size ∧
      t.stream.size ≤ t.stream.capacity ∧ t.stream.capacity ≤ streamMaxSize ∧
      t.stream.buf.length = t.stream.capacity := by
  refine ⟨h.holds.content.trans h.queue, ?_, ?_, ?_, h.holds.block⟩
  · rw [h.holds.rpos, h.holds.size]
    exact s.rpos_le
  · rw [h.holds.size, h.holds.capacity]
    exact s.size_le
  · rw [h.holds.capacity]
    exact h.max

/-- Room is made if it fits, and is there then; room refused changes no byte. -/
theorem Serves.makesRoom {t : StreamUse} {s : Stream} (h : Serves t s) (malloc : Malloc)
    {dataLen : Int} (hpos : 0 < dataLen) :
    let r := t.stream.ensureWritable malloc dataLen
    (r.1 = 0 ∨ r.1 = -1) ∧ (r.1 = 0 ↔ t.stream.len + dataLen ≤ streamMaxSize) ∧
      (r.1 = 0 → dataLen ≤ (r.2.capacity : Int) - r.2.size) ∧
      (r.1 ≠ 0 → r.2.content = t.stream.content) := by
  obtain ⟨hholds, hret⟩ := h.holds.ensureWritable malloc dataLen
  have hfst := Stream.ensureWritable_fst hpos s
  dsimp only
  rw [hret, h.holds.len, hholds.capacity, hholds.size, hholds.content, h.holds.content]
  by_cases hroom : (s.ensureWritable dataLen).1 = true
  · have hgranted := Stream.granted_ensureWritable hroom
    have hle := hfst.mp hroom
    rw [hroom, if_pos rfl]
    refine ⟨Or.inl rfl, ⟨fun _ => ?_, fun _ => rfl⟩, fun _ => ?_, fun h => absurd rfl h⟩
    · omega
    · omega
  · have hgt := fun h => hroom (hfst.mpr h)
    rw [if_neg hroom]
    refine ⟨Or.inr rfl, ⟨fun h => ?_, fun h => ?_⟩, fun h => ?_, fun _ => ?_⟩
    · exact absurd h (by decide)
    · exact absurd (by omega) hgt
    · exact absurd h (by decide)
    · exact Stream.buf_ensureWritable dataLen s

/-- An append that is refused was refused its room. -/
theorem Serves.append_keeps {t : StreamUse} {s : Stream} (h : Serves t s) (malloc : Malloc)
    {data : List Byte} (hrefused : (t.stream.append malloc data).1 ≠ 0) :
    (t.stream.append malloc data).2.content = t.stream.content := by
  obtain ⟨hholds, hret⟩ := h.holds.ensureWritable malloc data.length
  have hne : (t.stream.ensureWritable malloc data.length).1 ≠ 0 := by
    intro hzero
    rw [hzero] at hret
    refine hrefused (congrArg Prod.fst (append_eq hzero ?_))
    rw [hholds.size, hholds.capacity]
    refine Stream.granted_ensureWritable ?_
    by_contra hroom
    rw [if_neg hroom] at hret
    exact absurd hret (by decide)
  rw [append_refused hne, hholds.content, h.holds.content]
  exact Stream.buf_ensureWritable _ s

/-- **A stream is a queue of bytes.**  Whatever its user does, the bytes to be read are the queue, the
    positions are in order and inside the block, and the block is at most `stream_max_size` long.
    Room is made exactly if what is to be read and what is asked for fit the maximum; then it is
    there.  Room refused, or an append, changes no byte. -/
theorem stream_fifo :
    (∀ t, StreamRuns t → t.stream.content = t.queue ∧ t.stream.rpos ≤ t.stream.size ∧
      t.stream.size ≤ t.stream.capacity ∧ t.stream.capacity ≤ streamMaxSize ∧
      t.stream.buf.length = t.stream.capacity) ∧
    (∀ t malloc (dataLen : Int), StreamRuns t → 0 < dataLen → t.stream.size + dataLen < 2 ^ 31 →
      let r := t.stream.ensureWritable malloc dataLen
      (r.1 = 0 ∨ r.1 = -1) ∧ (r.1 = 0 ↔ t.stream.len + dataLen ≤ streamMaxSize) ∧
      (r.1 = 0 → dataLen ≤ (r.2.capacity : Int) - r.2.size) ∧
      (r.1 ≠ 0 → r.2.content = t.stream.content)) ∧
    (∀ t malloc data, StreamRuns t → t.stream.size + data.length < 2 ^ 31 →
      let r := t.stream.append malloc data
      r.1 ≠ 0 → r.2.content = t.stream.content) := by
  refine ⟨fun t ht => ?_, fun t malloc dataLen ht hpos _ => ?_, fun t malloc data ht _ => ?_⟩
  · obtain ⟨s, hs⟩ := StreamRuns.serves ht
    exact hs.inOrder
  · obtain ⟨s, hs⟩ := StreamRuns.serves ht
    exact hs.makesRoom malloc hpos
  · obtain ⟨s, hs⟩ := StreamRuns.serves ht
    exact fun hrefused => hs.append_keeps malloc hrefused

/-- A `malloc` that clears its blocks. -/
def calloc : Malloc := fun n => ⟨List.replicate n 0, List.length_replicate⟩

/-- Room for five bytes is made and three are written, one is skipped, two are appended. -/
theorem stream_fifo_sample : ∃ t, StreamRuns t ∧ t.queue = [2, 3, 4, 5] ∧
    t.stream.content = t.queue ∧ (t.stream.ensureWritable calloc 7).1 = 0 ∧
    (t.stream.ensureWritable calloc (2 ^ 24)).2.content = t.stream.content := by
  have hrun : (exec StreamOp.step (fun t op => decide (Allowed t op))
      [.ensureWritable calloc 5, .write [1, 2, 3], .skip 1, .append calloc [4, 5]]
      ⟨.new calloc, 0, []⟩).map
      (fun t => (t.queue, t.stream.size, t.stream.len)) = some ([2, 3, 4, 5], 4, 4) := by
    decide +kernel
  obtain ⟨t, ht, hrun⟩ := Option.map_eq_some_iff.mp hrun
  simp only [Prod.mk.injEq] at hrun
  obtain ⟨hqueue, hsize, hlen⟩ := hrun
  have h : StreamRuns t :=
    .of_exec (fun _ _ => of_decide_eq_true) _ (.start ⟨calloc, rfl⟩) ht
  have hmax : streamMaxSize = 2 ^ 24 := rfl
  refine ⟨t, h, hqueue, (stream_fifo.1 t h).1, ?_, ?_⟩
  · refine (stream_fifo.2.1 t calloc 7 h (by decide) (by omega)).2.1.mpr ?_
    omega
  · obtain ⟨-, hiff, -, hrefused⟩ := stream_fifo.2.1 t calloc (2 ^ 24) h (by decide) (by omega)
    refine hrefused fun hzero => ?_
    have hle := hiff.mp hzero
    omega

end ConnClient
