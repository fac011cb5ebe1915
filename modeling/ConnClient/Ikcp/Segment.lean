/-
  `ikcp.h` / `ikcp.cpp` — integers, segments and their wire format.

  The protocol's integers are fixed-width machine words, so they are bit vectors here; times and
  sequence numbers are compared by `itimediff`, the sign of the wrapped difference.  A segment's
  `len` is the length of its `data` (the two are set together wherever a segment is made), so it
  is a function and not a field.

  The wire format of this fork is 19 bytes of header followed by the payload:

      conv:4  cmd:1  frg:2  wnd:2  ts:4  sn:2  una:2  len:2  data

  `sn`, `una` and `wnd` are 32-bit in memory and truncated to 16 bits on the wire; `getId` is how
  a receiver rebuilds the upper half from a nearby 32-bit base.
-/
import ConnClient.Lib.Bytes
import ConnClient.Lib.Serial

namespace ConnClient.Ikcp

open ConnClient.Lib

/-! ## Integers and constants -/

abbrev IUINT8 := BitVec 8
abbrev IUINT16 := BitVec 16
abbrev IUINT32 := BitVec 32

def ikcpRtoNdl : Int := 30
def ikcpRtoMin : Int := 100
def ikcpRtoDef : Int := 200
def ikcpRtoMax : Int := 60000
def ikcpCmdPush : IUINT8 := 81
def ikcpCmdAck : IUINT8 := 82
def ikcpCmdWask : IUINT8 := 83
def ikcpCmdWins : IUINT8 := 84
def ikcpCmdDups : IUINT8 := 85
def ikcpAskSend : IUINT32 := 1
def ikcpAskTell : IUINT32 := 2
def ikcpWndSnd : IUINT32 := 32
def ikcpWndRcv : IUINT32 := 128
def ikcpMtuDef : Nat := 1400
def ikcpInterval : IUINT32 := 100
def ikcpOverhead : Nat := 19
def ikcpDeadlink : IUINT32 := 20
def ikcpThreshInit : IUINT32 := 2
def ikcpThreshMin : IUINT32 := 2
def ikcpProbeInit : IUINT32 := 7000
def ikcpProbeLimit : IUINT32 := 120000
def ikcpIntervalLost : IUINT32 := 3000
def ikcpDupsendWaitDefault : IUINT32 := 30
def ikcpDupsendWndOnDefault : IUINT32 := 30
def ikcpDupsendLen : Nat := 32

/-- `_imin_` -/
def imin (a b : IUINT32) : IUINT32 := if a ≤ b then a else b

/-- `_imax_` -/
def imax (a b : IUINT32) : IUINT32 := if a ≥ b then a else b

/-- `_imax_` is at least either. -/
theorem le_imax (a b : IUINT32) : b.toNat ≤ (imax a b).toNat := by
  unfold imax
  split
  · assumption
  · exact Nat.le_refl _

/-- `_itimediff`: the signed 32-bit difference. -/
def itimediff (later earlier : IUINT32) : Int := sdiff later earlier

/-- A signed difference, by cases on the wrapped one. -/
theorem itimediff_cases (a b : IUINT32) :
    (a - b).toNat < 2 ^ 31 ∧ itimediff a b = (a - b).toNat
      ∨ 2 ^ 31 ≤ (a - b).toNat ∧ itimediff a b = ((a - b).toNat : Int) - 2 ^ 32 := by
  have hcond := BitVec.toInt_eq_toNat_cond (a - b)
  rw [itimediff, Lib.sdiff]
  omega

theorem itimediff_self (a : IUINT32) : itimediff a a = 0 := by
  rw [itimediff, Lib.sdiff, BitVec.sub_self, BitVec.toInt_zero]

/-! ## Segments -/

/-- `IKCPSEG`. -/
structure IKCPSEG where
  conv : IUINT32 := 0
  cmd : IUINT8 := 0
  frg : IUINT32 := 0
  wnd : IUINT32 := 0
  ts : IUINT32 := 0
  sn : IUINT32 := 0
  una : IUINT32 := 0
  resendts : IUINT32 := 0
  rto : IUINT32 := 0
  fastack : IUINT32 := 0
  xmit : IUINT32 := 0
  lost : IUINT32 := 0
  dupsendcount : IUINT32 := 0
  firstTs : IUINT32 := 0
  data : List Byte := []
  deriving DecidableEq

/-- `seg->len`. -/
def IKCPSEG.len (seg : IKCPSEG) : Nat := seg.data.length

/-! ## Encoding and decoding (least significant byte first) -/

def ikcpEncode8u (c : IUINT8) : List Byte := [c]
def ikcpEncode16u (w : IUINT16) : List Byte := toLE 2 w.toNat
def ikcpEncode32u (l : IUINT32) : List Byte := toLE 4 l.toNat

/-- The decoders take the pointer and give the value and the advanced pointer. -/
def ikcpDecode8u (p : List Byte) : IUINT8 × List Byte := (p.headD 0, p.drop 1)
def ikcpDecode16u (p : List Byte) : IUINT16 × List Byte :=
  (BitVec.ofNat 16 (ofLE (p.take 2)), p.drop 2)
def ikcpDecode32u (p : List Byte) : IUINT32 × List Byte :=
  (BitVec.ofNat 32 (ofLE (p.take 4)), p.drop 4)

/-- `ikcp_encode_seg`: the header only; the callers append the payload. -/
def ikcpEncodeSeg (seg : IKCPSEG) : List Byte :=
  ikcpEncode32u seg.conv ++ ikcpEncode8u seg.cmd ++ ikcpEncode16u (seg.frg.setWidth 16)
    ++ ikcpEncode16u (seg.wnd.setWidth 16) ++ ikcpEncode32u seg.ts
    ++ ikcpEncode16u (seg.sn.setWidth 16) ++ ikcpEncode16u (seg.una.setWidth 16)
    ++ ikcpEncode16u (BitVec.ofNat 16 seg.len)

/-- A segment as it stands in a datagram. -/
def ikcpSegBytes (seg : IKCPSEG) : List Byte := ikcpEncodeSeg seg ++ seg.data

/-- The header fields `pvp_ikcp_input` reads for one segment. -/
structure SegHead where
  conv : IUINT32
  cmd : IUINT8
  frg : IUINT16
  wnd : IUINT16
  ts : IUINT32
  tmpSn : IUINT16
  tmpUna : IUINT16
  len : IUINT16
  deriving DecidableEq

/-- The header at the pointer, and the pointer past it. -/
def ikcpDecodeHead (p : List Byte) : SegHead × List Byte :=
  let (conv, p) := ikcpDecode32u p
  let (cmd, p) := ikcpDecode8u p
  let (frg, p) := ikcpDecode16u p
  let (wnd, p) := ikcpDecode16u p
  let (ts, p) := ikcpDecode32u p
  let (tmpSn, p) := ikcpDecode16u p
  let (tmpUna, p) := ikcpDecode16u p
  let (len, p) := ikcpDecode16u p
  (⟨conv, cmd, frg, wnd, ts, tmpSn, tmpUna, len⟩, p)

/-- `get_id`: the 32-bit number near `base` whose low half is `id`.  The comparisons are between
    64-bit signed values; the corrections wrap. -/
def getId (base : IUINT32) (id : IUINT16) : IUINT32 :=
  let id : IUINT32 := id.setWidth 32 ||| (base &&& ~~~(0xffff : IUINT32))
  if (id.toNat : Int) < (base.toNat : Int) - 0x8000 then id + 0x10000
  else if (id.toNat : Int) > (base.toNat : Int) + 0x8000 then id - 0x10000
  else id

/-! ## The header round trip -/

@[simp] theorem length_ikcpEncode8u (c : IUINT8) : (ikcpEncode8u c).length = 1 := rfl

@[simp] theorem length_ikcpEncode16u (w : IUINT16) : (ikcpEncode16u w).length = 2 :=
  length_toLE 2 _

@[simp] theorem length_ikcpEncode32u (l : IUINT32) : (ikcpEncode32u l).length = 4 :=
  length_toLE 4 _

@[simp] theorem length_ikcpEncodeSeg (seg : IKCPSEG) :
    (ikcpEncodeSeg seg).length = ikcpOverhead := by
  simp only [ikcpEncodeSeg, List.length_append, length_ikcpEncode8u, length_ikcpEncode16u,
    length_ikcpEncode32u]
  rfl

@[simp] theorem length_ikcpSegBytes (seg : IKCPSEG) :
    (ikcpSegBytes seg).length = ikcpOverhead + seg.len := by
  rw [ikcpSegBytes, List.length_append, length_ikcpEncodeSeg, IKCPSEG.len]

/-- A field comes back, and the pointer stands behind it. -/
@[simp] theorem ikcpDecode8u_encode (c : IUINT8) (rest : List Byte) :
    ikcpDecode8u (ikcpEncode8u c ++ rest) = (c, rest) := rfl

@[simp] theorem ikcpDecode16u_encode (w : IUINT16) (rest : List Byte) :
    ikcpDecode16u (ikcpEncode16u w ++ rest) = (w, rest) := by
  have hv : ofLE (toLE 2 w.toNat) = w.toNat := ofLE_toLE_of_lt w.isLt
  rw [ikcpDecode16u, ikcpEncode16u, take_toLE_append, drop_toLE_append, hv,
    BitVec.ofNat_toNat, BitVec.setWidth_eq]

@[simp] theorem ikcpDecode32u_encode (l : IUINT32) (rest : List Byte) :
    ikcpDecode32u (ikcpEncode32u l ++ rest) = (l, rest) := by
  have hv : ofLE (toLE 4 l.toNat) = l.toNat := ofLE_toLE_of_lt l.isLt
  rw [ikcpDecode32u, ikcpEncode32u, take_toLE_append, drop_toLE_append, hv,
    BitVec.ofNat_toNat, BitVec.setWidth_eq]

/-- The header of a segment as a receiver sees it: the 32-bit fields that travel in 16 bits are
    truncated. -/
def IKCPSEG.head (seg : IKCPSEG) : SegHead :=
  ⟨seg.conv, seg.cmd, seg.frg.setWidth 16, seg.wnd.setWidth 16, seg.ts, seg.sn.setWidth 16,
    seg.una.setWidth 16, BitVec.ofNat 16 seg.len⟩

/-- **The header round trip**: the decoder reads back every field the encoder wrote, in the
    encoder's order, and stops exactly where the payload starts. -/
theorem ikcpDecodeHead_encode (seg : IKCPSEG) (rest : List Byte) :
    ikcpDecodeHead (ikcpEncodeSeg seg ++ rest) = (seg.head, rest) := by
  simp only [ikcpEncodeSeg, List.append_assoc, ikcpDecodeHead, ikcpDecode32u_encode,
    ikcpDecode8u_encode, ikcpDecode16u_encode]
  rfl

end ConnClient.Ikcp
