/-
  `stream.cpp` — the byte buffers of the client.

  A `Stream` is a block of `capacity` bytes of which the first `size` are in use and the first
  `rpos` of these have been read.  Only the used bytes are kept here (`bytes`, so `size` is their
  number); that the read position lies inside them and that they fit the block is part of the type.
  Allocation succeeds.
-/
import ConnClient.Lib.Bytes

namespace ConnClient

open ConnClient.Lib

def growBlock : Nat := 64 * 1024
def streamMaxSize : Nat := 16 * 1024 * 1024

/-- `Stream`. -/
structure Stream where
  bytes : List Byte
  rpos : Nat
  capacity : Nat
  rpos_le : rpos ≤ bytes.length
  size_le : bytes.length ≤ capacity

namespace Stream

/-- `Stream::Stream` -/
def new : Stream := ⟨[], 0, growBlock, Nat.le_refl _, Nat.zero_le _⟩

/-- `Stream::size` -/
def size (s : Stream) : Nat := s.bytes.length

/-- `Stream::Buf`, up to `End`: the bytes not yet read. -/
def buf (s : Stream) : List Byte := s.bytes.drop s.rpos

/-- `Stream::Len` -/
def len (s : Stream) : Nat := s.size - s.rpos

/-- `Stream::Shrink`: the read bytes are dropped. -/
def shrink (s : Stream) : Stream :=
  if s.rpos > 0 then
    { bytes := s.bytes.drop s.rpos, rpos := 0, capacity := s.capacity, rpos_le := Nat.zero_le _
      size_le := by
        rw [List.length_drop]
        exact Nat.le_trans (Nat.sub_le ..) s.size_le }
  else s

/-- `ROUNDUP` -/
def roundup (x y : Nat) : Nat := (x + (y - 1)) / y * y

theorem le_roundup (x : Nat) : x ≤ roundup x growBlock := by
  rw [roundup, growBlock]
  omega

/-- `Stream::EnsureWritable`: `false` for `-1`, the buffer cannot take `dataLen` more bytes. -/
def ensureWritable (dataLen : Int) (s : Stream) : Bool × Stream :=
  if dataLen ≤ 0 then (true, s)
  else
    let s := s.shrink
    let expectSize := s.size + dataLen.toNat
    if expectSize > streamMaxSize then (false, s)
    else if s.capacity < expectSize then
      (true, { s with
        capacity := roundup expectSize growBlock
        size_le := Nat.le_trans (Nat.le_add_right ..) (le_roundup expectSize) })
    else (true, s)

/-- `Stream::Skip` -/
def skip (offset : Int) (s : Stream) : Stream :=
  if offset < 0 then s
  else if h : s.rpos + offset.toNat < s.size then
    { s with rpos := s.rpos + offset.toNat, rpos_le := Nat.le_of_lt h }
  else { s with bytes := [], rpos := 0, rpos_le := Nat.le_refl _, size_le := Nat.zero_le _ }

/-- `Stream::Reset` -/
def reset (s : Stream) : Stream :=
  { s with bytes := [], rpos := 0, rpos_le := Nat.le_refl _, size_le := Nat.zero_le _ }

/-- `Stream::AddSize`, after the bytes `written` were put at `End`. -/
def addSize (written : List Byte) (s : Stream) : Stream :=
  if h : s.size + written.length ≤ s.capacity then
    { s with
      bytes := s.bytes ++ written
      rpos_le := by
        rw [List.length_append]
        exact Nat.le_trans s.rpos_le (Nat.le_add_right ..)
      size_le := by
        rw [List.length_append]
        exact h }
  else s

/-! ## What the operations do to the unread bytes -/

@[simp] theorem length_buf (s : Stream) : s.buf.length = s.len := List.length_drop

@[simp] theorem buf_new : new.buf = [] := rfl

@[simp] theorem buf_reset (s : Stream) : s.reset.buf = [] := rfl

@[simp] theorem len_reset (s : Stream) : s.reset.len = 0 := rfl

theorem buf_shrink (s : Stream) : s.shrink.buf = s.buf := by
  rw [shrink]
  split <;> rfl

/-- Nothing read stays in front after `Shrink`. -/
theorem rpos_shrink (s : Stream) : s.shrink.rpos = 0 := by
  rw [shrink]
  split
  · rfl
  · omega

theorem size_shrink (s : Stream) : s.shrink.size = s.len := by
  rw [shrink, len]
  split
  · exact List.length_drop
  · omega

theorem capacity_shrink (s : Stream) : s.shrink.capacity = s.capacity := by
  rw [shrink]
  split
  · rfl
  · rfl

/-- A larger block holds the same bytes.  (It is stated for any capacity so that comparing the two
    blocks does not compute one.) -/
theorem buf_grown (s : Stream) (capacity : Nat) (h : s.bytes.length ≤ capacity) :
    ({ s with capacity := capacity, size_le := h } : Stream).buf = s.buf := rfl

theorem room_grown {s : Stream} {capacity n : Nat} (h : s.bytes.length ≤ capacity)
    (hrpos : s.rpos = 0) (hroom : s.size + n ≤ capacity) :
    ({ s with capacity := capacity, size_le := h } : Stream).rpos = 0 ∧
    ({ s with capacity := capacity, size_le := h } : Stream).size + n ≤ capacity :=
  ⟨hrpos, hroom⟩

theorem capacity_grown {s : Stream} {capacity n : Nat} (h : s.bytes.length ≤ capacity)
    (hle : capacity ≤ n) : ({ s with capacity := capacity, size_le := h } : Stream).capacity ≤ n :=
  hle

/-- **Making room changes no byte.** -/
theorem buf_ensureWritable (dataLen : Int) (s : Stream) :
    (s.ensureWritable dataLen).2.buf = s.buf := by
  rw [ensureWritable]
  split
  · rfl
  · dsimp only
    split
    · exact buf_shrink s
    · split
      · exact (buf_grown s.shrink _ _).trans (buf_shrink s)
      · exact buf_shrink s

/-- Room is refused exactly when the unread bytes and the new ones exceed the maximum. -/
theorem ensureWritable_fst {dataLen : Int} (h : 0 < dataLen) (s : Stream) :
    (s.ensureWritable dataLen).1 = true ↔ s.len + dataLen.toNat ≤ streamMaxSize := by
  have hpos : ¬ dataLen ≤ 0 := by omega
  rw [ensureWritable, if_neg hpos, ← size_shrink]
  dsimp only
  by_cases hbig : s.shrink.size + dataLen.toNat > streamMaxSize
  · rw [if_pos hbig]
    exact ⟨fun h => (nomatch h), fun h => absurd h (Nat.not_le_of_lt hbig)⟩
  · rw [if_neg hbig]
    refine ⟨fun _ => Nat.le_of_not_lt hbig, fun _ => ?_⟩
    split <;> rfl

/-- The room that was made is there, behind the unread bytes. -/
theorem room_ensureWritable {dataLen : Int} {s : Stream} (h : 0 < dataLen)
    (hroom : (s.ensureWritable dataLen).1 = true) :
    (s.ensureWritable dataLen).2.rpos = 0 ∧
    (s.ensureWritable dataLen).2.size + dataLen.toNat ≤ (s.ensureWritable dataLen).2.capacity := by
  have hpos : ¬ dataLen ≤ 0 := by omega
  rw [ensureWritable_fst h, ← size_shrink] at hroom
  rw [ensureWritable, if_neg hpos]
  dsimp only
  rw [if_neg (Nat.not_lt_of_le hroom)]
  split
  · exact room_grown _ (rpos_shrink s) (le_roundup _)
  · rename_i hcap
    exact ⟨rpos_shrink s, Nat.le_of_not_lt hcap⟩

/-- The same for any length: what is not positive needs no room. -/
theorem granted_ensureWritable {dataLen : Int} {s : Stream}
    (hroom : (s.ensureWritable dataLen).1 = true) :
    (s.ensureWritable dataLen).2.size + dataLen.toNat ≤ (s.ensureWritable dataLen).2.capacity := by
  by_cases h : 0 < dataLen
  · exact (room_ensureWritable h hroom).2
  · rw [Int.toNat_of_nonpos (Int.not_lt.mp h), Nat.add_zero]
    exact (s.ensureWritable dataLen).2.size_le

/-- Room that was there stays there. -/
theorem room_kept {n : Nat} {s : Stream} (h : s.size + n ≤ s.capacity) (dataLen : Int) :
    (s.ensureWritable dataLen).2.size + n ≤ (s.ensureWritable dataLen).2.capacity := by
  have hshrink : s.shrink.size + n ≤ s.shrink.capacity := by
    rw [size_shrink, capacity_shrink, len]
    omega
  rw [ensureWritable]
  split
  · exact h
  dsimp only
  split
  · exact hshrink
  split
  · rename_i hcap
    have hle := Nat.le_trans (Nat.le_of_lt hcap) (le_roundup (s.shrink.size + dataLen.toNat))
    exact (room_grown _ (rpos_shrink s) (Nat.le_trans hshrink hle)).2
  · exact hshrink

/-- The maximum is a whole number of blocks. -/
theorem roundup_le {x : Nat} (h : x ≤ streamMaxSize) : roundup x growBlock ≤ streamMaxSize := by
  rw [streamMaxSize] at h ⊢
  rw [roundup, growBlock]
  omega

/-- The block does not outgrow the maximum. -/
theorem capacity_ensureWritable {s : Stream} (h : s.capacity ≤ streamMaxSize) (dataLen : Int) :
    (s.ensureWritable dataLen).2.capacity ≤ streamMaxSize := by
  have hshrink : s.shrink.capacity ≤ streamMaxSize := by
    rw [capacity_shrink]
    exact h
  rw [ensureWritable]
  split
  · exact h
  dsimp only
  split
  · exact hshrink
  split
  · rename_i hsmall _
    exact capacity_grown _ (roundup_le (Nat.le_of_not_lt hsmall))
  · exact hshrink

/-- **Bytes put where there is room are the new end.** -/
theorem buf_addSize {s : Stream} {written : List Byte} (h : s.size + written.length ≤ s.capacity) :
    (s.addSize written).buf = s.buf ++ written := by
  rw [addSize, dif_pos h]
  exact List.drop_append_of_le_length s.rpos_le

/-- In particular into the room that was made. -/
theorem buf_addSize_ensureWritable {dataLen : Int} {s : Stream} {written : List Byte}
    (h : 0 < dataLen) (hroom : (s.ensureWritable dataLen).1 = true)
    (hlen : written.length ≤ dataLen.toNat) :
    ((s.ensureWritable dataLen).2.addSize written).buf = s.buf ++ written := by
  obtain ⟨-, hcap⟩ := room_ensureWritable h hroom
  rw [buf_addSize (by omega), buf_ensureWritable]

/-- **Skipping what is buffered drops exactly that.** -/
theorem buf_skip {offset : Int} (h : 0 ≤ offset) (s : Stream) :
    (s.skip offset).buf = s.buf.drop offset.toNat := by
  have hpos : ¬ offset < 0 := by omega
  rw [skip, if_neg hpos]
  by_cases hlt : s.rpos + offset.toNat < s.size
  · rw [dif_pos hlt]
    show s.bytes.drop (s.rpos + offset.toNat) = _
    rw [buf, List.drop_drop]
  · rw [dif_neg hlt]
    have hge : s.bytes.length ≤ s.rpos + offset.toNat := Nat.le_of_not_lt hlt
    show [] = (s.bytes.drop s.rpos).drop offset.toNat
    rw [List.drop_drop, List.drop_eq_nil_of_le hge]

/-- The used bytes do not grow by skipping, and the block is kept. -/
theorem skip_fits (offset : Int) (s : Stream) :
    (s.skip offset).capacity = s.capacity ∧ (s.skip offset).size ≤ s.size := by
  rw [skip]
  split
  · exact ⟨rfl, Nat.le_refl _⟩
  split
  · exact ⟨rfl, Nat.le_refl _⟩
  · exact ⟨rfl, Nat.zero_le _⟩

/-! ## How many bytes are unread -/

theorem len_skip {offset : Int} (h : 0 ≤ offset) (s : Stream) :
    (s.skip offset).len = s.len - offset.toNat := by
  rw [← length_buf, buf_skip h, List.length_drop, length_buf]

/-- A negative offset is ignored. -/
theorem skip_negative {offset : Int} (h : offset < 0) (s : Stream) : s.skip offset = s := if_pos h

/-- Skipping in an empty buffer leaves it empty. -/
theorem len_skip_of_empty {s : Stream} (hs : s.len = 0) (offset : Int) : (s.skip offset).len = 0 := by
  by_cases h : offset < 0
  · rw [skip_negative h, hs]
  · rw [len_skip (Int.not_lt.mp h), hs, Nat.zero_sub]

theorem len_addSize_ensureWritable {dataLen : Int} {s : Stream} {written : List Byte}
    (h : 0 < dataLen) (hroom : (s.ensureWritable dataLen).1 = true)
    (hlen : written.length ≤ dataLen.toNat) :
    ((s.ensureWritable dataLen).2.addSize written).len = s.len + written.length := by
  rw [← length_buf, buf_addSize_ensureWritable h hroom hlen, List.length_append, length_buf]

end Stream

end ConnClient
