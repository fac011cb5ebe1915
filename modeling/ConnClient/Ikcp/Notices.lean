/-
  What a sender tells the other side.

  Every segment of a datagram says two things about the receiving half of the block it comes from: `una`,
  below which everything was received, and how much room there is; and an acknowledgement says that one
  number was.  Both travel in 16 bits.  `Note` is what is meant, in numbers that do not wrap, and
  `Noted` that a segment says so.

  What a call of a sender does to the numbers of `snd_buf` and puts on the wire is `Tells`: it gives out the
  next `n` numbers, keeps a segment under each of them, lets none go, and sends none under a number that
  it has not given out.  The last is read off the lists of `ConnClient.Ikcp.Layout`.

  All datagrams of one call carry one note.  `una` and the window are read when the call starts, and nothing is
  received while it sends; the acknowledgements are spread over its datagrams, and a note names them all, which
  is more than any one of the datagrams says and still true.

  Every sender is proved by one rule (`Tells.of_middle`): there is a block in the middle, behind the transfer
  from `snd_queue` and before the copies, and what is sent is copied from it.
-/
import ConnClient.Ikcp.Layout

namespace ConnClient.Ikcp

open ConnClient.Lib

/-! ## Notes -/

/-- What a datagram says of its sender: `rcv_nxt`, the numbers acknowledged, and the window offered. -/
structure Note where
  una : Nat
  acks : List Nat
  wnd : Nat

/-- A segment says what the note says, and its data is numbered from at most `0x7fff` below `base`,
    the number that comes next when the call is done. -/
structure Noted (conv : IUINT32) (base : Nat) (note : Note) (seg : IKCPSEG) : Prop where
  accepted : Accepted conv seg
  una : seg.una = BitVec.ofNat 32 note.una
  wnd : seg.wnd.toNat = note.wnd
  ack : seg.cmd = ikcpCmdAck → ∃ n ∈ note.acks, seg.sn = BitVec.ofNat 32 n
  data : seg.cmd = ikcpCmdPush ∨ seg.cmd = ikcpCmdDups →
    ∃ n, n < base ∧ base ≤ n + 0x7fff ∧ seg.sn = BitVec.ofNat 32 n

/-- What `k` says, whose `rcv_nxt` stands for `rcvNum` and whose `acklist` for `owed`. -/
def IKCPCB.note (k : IKCPCB) (rcvNum : Nat) (owed : List Nat) : Note where
  una := rcvNum
  acks := owed
  wnd := (ikcpWndUnused k).toNat

/-! ## Where the segments come from -/

section Members

variable {k : IKCPCB} {seg : IKCPSEG}

theorem mem_ackSegs (h : seg ∈ ackSegs k) :
    Control k seg ∧ (seg.cmd = ikcpCmdAck → seg.sn ∈ (acks k).map Prod.fst) := by
  obtain ⟨pair, hpair, rfl⟩ := List.mem_map.mp h
  exact ⟨⟨rfl, Or.inl rfl, rfl, rfl, rfl, rfl⟩, fun _ => List.mem_map_of_mem hpair⟩

/-- The local `seg` is a control segment whatever it was used for. -/
theorem probeSeg_control (k : IKCPCB) : Control k (probeSeg k) := by
  rw [probeSeg]
  cases hlast : (ackSegs k).getLast? with
  | none => exact controlSeg_control
  | some seg => exact (mem_ackSegs (List.mem_of_getLast? hlast)).1

theorem mem_probeSegs (h : seg ∈ probeSegs k) : Control k seg ∧ seg.cmd ≠ ikcpCmdAck := by
  obtain ⟨hconv, -, hwnd, huna, hfrg, hdata⟩ := probeSeg_control k
  have hask : ikcpCmdWask ≠ ikcpCmdAck := by decide
  have htell : ikcpCmdWins ≠ ikcpCmdAck := by decide
  rw [probeSegs] at h
  rcases List.mem_append.mp h with h | h
  · split at h
    · rw [List.mem_singleton.mp h]
      exact ⟨⟨hconv, Or.inr (Or.inl rfl), hwnd, huna, hfrg, hdata⟩, hask⟩
    · exact absurd h List.not_mem_nil
  · split at h
    · rw [List.mem_singleton.mp h]
      exact ⟨⟨hconv, Or.inr (Or.inr rfl), hwnd, huna, hfrg, hdata⟩, htell⟩
    · exact absurd h List.not_mem_nil

/-- What is transmitted is a segment of `snd_buf`. -/
theorem mem_dueSegs (hpush : ∀ s ∈ (transferred k).sndBuf, s.cmd = ikcpCmdPush) (h : seg ∈ dueSegs k) :
    ∃ s ∈ (transferred k).sndBuf, Copy k s seg := by
  obtain ⟨s, hs, hseg⟩ := List.mem_filterMap.mp h
  refine ⟨s, hs, ?_⟩
  -- whatever it is due for, only the stamps are new: number, mark and data are those of `snd_buf`
  have hcopy : ∀ due, Copy k s (stamped (flushArgs k (ikcpWndUnused k)) k.rcvNxt
      (dueSegment (flushArgs k (ikcpWndUnused k)) k s due)) := by
    intro due
    have hkey := dueSegment_key (flushArgs k (ikcpWndUnused k)) k s due
    have hcmd : (dueSegment (flushArgs k (ikcpWndUnused k)) k s due).cmd = s.cmd :=
      congrArg (fun e => e.2.1) hkey
    have hnumbered := congrArg (fun e => e.2.2) hkey
    refine ⟨congrArg Prod.fst hkey, Or.inl (hcmd.trans (hpush s hs)), hnumbered, ?_, rfl, rfl⟩
    show (dueSegment (flushArgs k (ikcpWndUnused k)) k s due).frg = s.frg
    cases due with
    | _ => rfl
  rw [transmission] at hseg
  cases hdue : segmentDue (flushArgs k (ikcpWndUnused k)) s with
  | no =>
    rw [hdue] at hseg
    cases hseg
  | _ =>
    rw [hdue] at hseg
    cases hseg
    exact hcopy _

theorem mem_copySegs (h : seg ∈ copySegs k) : ∃ s ∈ (transferred k).sndBuf, Copy k s seg := by
  obtain ⟨s, hs, rfl⟩ := List.mem_map.mp h
  exact ⟨s, (List.mem_filter.mp (List.mem_of_mem_take hs)).1, rfl, Or.inr rfl, rfl, rfl, rfl, rfl⟩

/-- **The segments of a flush** are control segments, and copies of what is in `snd_buf` after the
    transfer. -/
theorem mem_flushSegs (hpush : ∀ s ∈ (transferred k).sndBuf, s.cmd = ikcpCmdPush) (h : seg ∈ flushSegs k) :
    (Control k seg ∧ (seg.cmd = ikcpCmdAck → seg.sn ∈ (acks k).map Prod.fst))
      ∨ ∃ s ∈ (transferred k).sndBuf, Copy k s seg := by
  rw [flushSegs] at h
  rcases List.mem_append.mp h with h | h
  · rcases List.mem_append.mp h with h | h
    · rcases List.mem_append.mp h with h | h
      · exact Or.inl (mem_ackSegs h)
      · obtain ⟨hc, hne⟩ := mem_probeSegs h
        exact Or.inl ⟨hc, fun he => absurd he hne⟩
    · exact Or.inr (mem_dueSegs hpush h)
  · exact Or.inr (mem_copySegs h)

/-- What the fast path transfers is data. -/
theorem mem_newSegs (h : seg ∈ newSegs k) : Copy k seg seg := by
  obtain ⟨s, hs, rfl⟩ := List.mem_map.mp h
  have hnew : ∀ (sn : IUINT32) (queue : List IKCPSEG),
      ∀ s ∈ numberSegments k k.current (ikcpWndUnused k) sn queue,
        s.cmd = ikcpCmdPush ∧ s.wnd = ikcpWndUnused k ∧ s.una = k.rcvNxt := by
    intro sn queue
    induction queue generalizing sn with
    | nil => exact fun s hs => absurd hs List.not_mem_nil
    | cons old rest ih =>
      intro s hs
      rcases List.mem_cons.mp hs with rfl | hs
      · exact ⟨rfl, rfl, rfl⟩
      · exact ih _ s hs
  obtain ⟨hcmd, hwnd, huna⟩ := hnew _ _ s hs
  exact ⟨rfl, Or.inl hcmd, rfl, rfl, hwnd, huna⟩

/-- **The segments of the fast path**, in the same way; `snd_buf` holds what is transferred behind what it
    held before. -/
theorem mem_sendExSegs (h : seg ∈ sendExSegs k) :
    (Control k seg ∧ (seg.cmd = ikcpCmdAck → seg.sn ∈ (acks k).map Prod.fst))
      ∨ ∃ s ∈ k.sndBuf ++ newSegs k, Copy k s seg := by
  rw [sendExSegs] at h
  rcases List.mem_append.mp h with h | h
  · rcases List.mem_append.mp h with h | h
    · exact Or.inl (mem_ackSegs h)
    · exact Or.inr ⟨seg, List.mem_append_right _ h, mem_newSegs h⟩
  · -- copies only where `dupsendcount` asks for them, and of what stood in front only
    split at h
    · exact absurd h List.not_mem_nil
    · obtain ⟨s, hs, rfl⟩ := List.mem_map.mp h
      have hold := List.mem_reverse.mp (List.mem_of_mem_take ((topUp_front _ _).subset hs))
      exact Or.inr ⟨s, List.mem_append_left _ hold, rfl, Or.inr rfl, rfl, rfl, rfl, rfl⟩

end Members

/-! ## What they say -/

section Noting

variable {ln : Link} {log : List (Nat × List Byte)} {una sndNum rcvNum : Nat} {owed : List Nat}
  {k m : IKCPCB} {seg s : IKCPSEG}

theorem noted_control (hc : Control k seg) (hack : seg.cmd = ikcpCmdAck → seg.sn ∈ (acks k).map Prod.fst)
    (hnxt : k.rcvNxt = BitVec.ofNat 32 rcvNum) (howed : (acks k).map Prod.fst = owed.map (BitVec.ofNat 32))
    (base : Nat) : Noted k.conv base (k.note rcvNum owed) seg := by
  constructor
  · refine ⟨hc.conv, ?_, ?_⟩
    · rw [IKCPSEG.len, hc.data]
      decide
    · rcases hc.cmd with h | h | h
      · exact Or.inr (Or.inl h)
      · exact Or.inr (Or.inr (Or.inl h))
      · exact Or.inr (Or.inr (Or.inr (Or.inl h)))
  · exact hc.una.trans hnxt
  · exact congrArg BitVec.toNat hc.wnd
  · intro hcmd
    have hsn := hack hcmd
    rw [howed] at hsn
    obtain ⟨n, hn, he⟩ := List.mem_map.mp hsn
    exact ⟨n, hn, he.symm⟩
  · intro hcmd
    -- a control segment has no data
    exfalso
    rcases hc.cmd with h | h | h <;> rw [h] at hcmd <;> exact absurd hcmd (by decide)

/-- `m` is the block as it holds the segment that is copied. -/
theorem noted_copy (h : SndOk ln log una sndNum m.sndHalf) (hs : s ∈ m.sndBuf) (hc : Copy k s seg)
    (hnxt : k.rcvNxt = BitVec.ofNat 32 rcvNum) : Noted ln.conv sndNum (k.note rcvNum owed) seg := by
  -- the number that the segment has in the log
  obtain ⟨n, hlo, hhi, hkey⟩ := h.entry hs
  have hnear := h.near
  have hlen := h.len
  have hnumbered : seg.numbered = logEntry log n := hc.numbered.trans (congrArg (fun e => e.2.2) hkey)
  have hwire := wireOk_of_numbered h.fits (hc.conv.trans (congrArg Prod.fst hkey)) hc.cmd hnumbered hlo
    (by omega) (by omega)
  constructor
  · exact hwire.accepted
  · exact hc.una.trans hnxt
  · exact congrArg BitVec.toNat hc.wnd
  · intro hack
    exfalso
    rcases hc.cmd with h | h <;> rw [h] at hack <;> exact absurd hack (by decide)
  · exact fun _ => ⟨n, hhi, by omega, congrArg Prod.fst hnumbered⟩

end Noting

/-! ## The numbers given out -/

/-- `n` numbers from `m` on, as the block has them. -/
def serials (m n : Nat) : List IUINT32 := (List.range' m n).map (BitVec.ofNat 32)

theorem serials_succ (m n : Nat) : serials m (n + 1) = BitVec.ofNat 32 m :: serials (m + 1) n := by
  rw [serials, serials, List.range'_succ, List.map_cons]

theorem numberSegments_sn (k : IKCPCB) (current wnd : IUINT32) (m : Nat) (queue : List IKCPSEG) :
    (numberSegments k current wnd (BitVec.ofNat 32 m) queue).map IKCPSEG.sn = serials m queue.length := by
  induction queue generalizing m with
  | nil => rfl
  | cons seg rest ih =>
    have hnext : (BitVec.ofNat 32 m : IUINT32) + 1 = BitVec.ofNat 32 (m + 1) := (BitVec.ofNat_add ..).symm
    rw [numberSegments, List.map_cons, hnext, ih, List.length_cons, serials_succ]

section Numbers

variable {ln : Link} {log : List (Nat × List Byte)} {una sndNum : Nat} {k : IKCPCB}

/-- The window of `0x7fff` leaves that much room. -/
theorem SndOk.room (h : SndOk ln log una sndNum k.sndHalf) : windowRoom k (sendCwnd k) ≤ 0x7fff := by
  have hle := h.le
  have hnear := h.near
  have hcwnd : (sendCwnd k).toNat ≤ 0x7fff := Nat.le_trans (sendCwnd_le k).1 h.wnd
  have hu : k.sndUna = BitVec.ofNat 32 una := h.sndUna
  have hn : k.sndNxt = BitVec.ofNat 32 sndNum := h.sndNxt
  have hc : k.sndUna + sendCwnd k = BitVec.ofNat 32 (una + (sendCwnd k).toNat) := by
    rw [hu, BitVec.ofNat_add, BitVec.ofNat_toNat, BitVec.setWidth_eq]
  rw [windowRoom, hc, hn, itimediff_ofNat (by omega) (by omega)]
  omega

/-- Two counts that the counter of one block stands for are one, as both are within half a turn of
    where it started. -/
theorem SndOk.count {una' sndNum' n : Nat} {k' : IKCPCB} (h : SndOk ln log una sndNum k.sndHalf)
    (h' : SndOk ln log una' sndNum' k'.sndHalf) (hle : sndNum ≤ sndNum') (hnear : sndNum' ≤ sndNum + 0x7fff)
    (hn : n ≤ 0x7fff) (hnxt : k'.sndNxt = k.sndNxt + BitVec.ofNat 32 n) : sndNum' = sndNum + n := by
  have hx : k.sndNxt = BitVec.ofNat 32 sndNum := h.sndNxt
  have hx' : k'.sndNxt = BitVec.ofNat 32 sndNum' := h'.sndNxt
  rw [hx, hx', ← BitVec.ofNat_add] at hnxt
  -- equal in 32 bits, and less than `2 ^ 32` apart
  have hmod := congrArg BitVec.toNat hnxt
  rw [BitVec.toNat_ofNat, BitVec.toNat_ofNat] at hmod
  omega

end Numbers


/-! ## The senders -/

/-- What is known of the segments is known of the datagrams they were packed into. -/
theorem packed_of_datagrams {G : IKCPSEG → Prop} {cap : Nat} {segs : List IKCPSEG}
    {sent : List (IKCPCB × List Byte)} (hsent : sent.map Prod.snd = datagrams (pack cap segSize segs))
    (hsegs : ∀ seg ∈ segs, G seg) : ∀ e ∈ sent, Packed G e.2 := by
  intro e he
  have hmem : e.2 ∈ datagrams (pack cap segSize segs) := hsent ▸ List.mem_map_of_mem he
  obtain ⟨box, hbox, hbytes⟩ := List.mem_map.mp hmem
  have hflat : (pack cap segSize segs).flatten = segs := flatten_pack segs
  refine ⟨box, hbytes.symm, fun seg hseg => hsegs seg ?_⟩
  rw [← hflat]
  exact List.mem_flatten_of_mem hbox hseg

/-- A sender gave out `n` numbers: a segment is kept under each, none is let go, and what was output
    says what the note says; `acklist` is as it was, or was sent.  The log may have grown by a
    message, the numbers follow it. -/
structure Tells (ln : Link) (log : List (Nat × List Byte)) (una sndNum n : Nat) (note : Note) (k : IKCPCB)
    (r : IKCPCB × List (IKCPCB × List Byte)) : Prop where
  ok : SndOk ln log una (sndNum + n) r.1.sndHalf
  numbers : r.1.sndBuf.map IKCPSEG.sn = k.sndBuf.map IKCPSEG.sn ++ serials sndNum n
  half : r.1.rcvHalf = k.rcvHalf
  desk : acks r.1 = acks k ∨ acks r.1 = []
  sent : ∀ e ∈ r.2, Packed (Noted ln.conv (sndNum + n) note) e.2

/-- The loop over `dup_segs` numbers nothing. -/
theorem flushDups_numbers (a : FlushArgs) (is : List Nat) (out : Out) :
    (flushDups a is out).kcp.sndBuf.map IKCPSEG.sn = out.kcp.sndBuf.map IKCPSEG.sn
      ∧ (flushDups a is out).kcp.sndNxt = out.kcp.sndNxt := by
  induction is generalizing out with
  | nil => exact ⟨rfl, rfl⟩
  | cons i is ih =>
    rw [flushDups]
    cases hi : out.kcp.sndBuf[i]? with
    | none => exact ih out
    | some seg =>
      dsimp only
      generalize hroom : makeRoom (ikcpOverhead + seg.len) out = out'
      have hkcp : out'.kcp = out.kcp := hroom ▸ makeRoom_kcp _ out
      -- a copy writes its own count and time, and no number
      obtain ⟨hnumbers, hnxt⟩ := ih (sendDup i (stamped a out'.kcp.rcvNxt
        { seg with xmit := seg.xmit + 1, dupsendcount := seg.dupsendcount + 1 }) out')
      have hi' : out'.kcp.sndBuf[i]? = some seg := hkcp ▸ hi
      constructor
      · refine hnumbers.trans ((sendDup_numbers hi' ?_).trans ?_)
        · rfl
        · rw [hkcp]
      · rw [hnxt, ← hkcp]
        rfl

/-- Nor does the data loop of a flush, nor what follows it. -/
theorem pvpIkcpFlush_numbers {k : IKCPCB} (h : k.updated = true) :
    (pvpIkcpFlush k).1.sndBuf.map IKCPSEG.sn = (transferred k).sndBuf.map IKCPSEG.sn
      ∧ (pvpIkcpFlush k).1.sndNxt = (transferred k).sndNxt := by
  obtain ⟨tsProbe, probeWait, hhead⟩ := flushHead_transferred k
  let kcp := (flushHead k).2.kcp
  let a := flushArgs kcp (ikcpWndUnused k)
  let st := flushData a kcp.sndBuf.length 0 { out := (flushHead k).2 }
  have hbuf : kcp.sndBuf = (transferred k).sndBuf := by
    show (flushHead k).2.kcp.sndBuf = _
    rw [hhead]
  have hnxt : kcp.sndNxt = (transferred k).sndNxt := by
    show (flushHead k).2.kcp.sndNxt = _
    rw [hhead]
  -- the data loop: one round keeps the numbers, whatever is due
  have hdata : st.out.kcp.sndBuf.map IKCPSEG.sn = kcp.sndBuf.map IKCPSEG.sn
      ∧ st.out.kcp.sndNxt = kcp.sndNxt := by
    refine flushData_rule (P := fun _ st => st.out.kcp.sndBuf.map IKCPSEG.sn = kcp.sndBuf.map IKCPSEG.sn
      ∧ st.out.kcp.sndNxt = kcp.sndNxt) (fun i segment st h hi => ?_) _ 0 _ (Nat.zero_add _) ⟨rfl, rfl⟩
    obtain ⟨_, _, _, _, _, _, hset⟩ := flushSegment_eq a i segment st
    constructor
    · rw [flushSegment_numbers hi, h.1]
    · rw [hset, ← h.2]
  obtain ⟨hdups, hdnxt⟩ := flushDups_numbers a st.dupSegs st.out
  have hflush : (pvpIkcpFlush k).1 = flushTail (flushHead k).1 a.resent st.change st.lost
      (flushDups a st.dupSegs st.out).kcp := by
    rw [← ikcpOutput_kcp, pvpIkcpFlush, if_neg (by rw [h]; exact Bool.noConfusion)]
  obtain ⟨_, _, _, _, hset⟩ := flushTail_eq (flushHead k).1 a.resent st.change st.lost
    (flushDups a st.dupSegs st.out).kcp
  rw [hflush, hset]
  constructor
  · show (flushDups a st.dupSegs st.out).kcp.sndBuf.map IKCPSEG.sn = _
    rw [hdups, hdata.1, hbuf]
  · show (flushDups a st.dupSegs st.out).kcp.sndNxt = _
    rw [hdnxt, hdata.2, hnxt]

section Telling

variable {ln : Link} {log : List (Nat × List Byte)} {una sndNum rcvNum : Nat} {owed : List Nat} {k : IKCPCB}

/-- A block that was not flushed yet: nothing is given out, and nothing is sent. -/
theorem Tells.nothing {note : Note} {k' : IKCPCB} (h : SndOk ln log una sndNum k'.sndHalf)
    (hbuf : k'.sndBuf.map IKCPSEG.sn = k.sndBuf.map IKCPSEG.sn) (hrcv : k'.rcvHalf = k.rcvHalf)
    (hacks : acks k' = acks k) : Tells ln log una sndNum 0 note k (k', []) := by
  refine ⟨h, ?_, hrcv, Or.inl hacks, fun e he => absurd he List.not_mem_nil⟩
  rw [hbuf]
  exact (List.append_nil _).symm

/-- Control segments of `k`, and copies of what the block `m` holds, say what the note says. -/
theorem noted_middle {m : IKCPCB} {segs : List IKCPSEG} (h : SndOk ln log una sndNum k.sndHalf) {base : Nat}
    (hmid : SndOk ln log una base m.sndHalf)
    (hsegs : ∀ seg ∈ segs, (Control k seg ∧ (seg.cmd = ikcpCmdAck → seg.sn ∈ (acks k).map Prod.fst))
      ∨ ∃ s ∈ m.sndBuf, Copy k s seg)
    (hrcv : k.rcvNxt = BitVec.ofNat 32 rcvNum) (howed : (acks k).map Prod.fst = owed.map (BitVec.ofNat 32)) :
    ∀ seg ∈ segs, Noted ln.conv base (k.note rcvNum owed) seg := by
  intro seg hseg
  rcases hsegs seg hseg with ⟨hc, hack⟩ | ⟨s, hs, hc⟩
  · have hconv : k.conv = ln.conv := h.conv
    rw [← hconv]
    exact noted_control hc hack hrcv howed _
  · exact noted_copy hmid hs hc hrcv

/-- What stands between: the block behind the transfer, of whose segments copies were sent. -/
theorem Tells.of_middle {r : IKCPCB × List (IKCPCB × List Byte)} {m : IKCPCB} {n cap : Nat}
    {segs new : List IKCPSEG} (h : SndOk ln log una sndNum k.sndHalf)
    (hsends : Sends ln log una sndNum k r)
    (hbuf : m.sndBuf = k.sndBuf ++ new) (hnew : new.map IKCPSEG.sn = serials sndNum n) (hn : n ≤ 0x7fff)
    (hnxt : m.sndNxt = k.sndNxt + BitVec.ofNat 32 n)
    (hend : r.1.sndBuf.map IKCPSEG.sn = m.sndBuf.map IKCPSEG.sn ∧ r.1.sndNxt = m.sndNxt)
    (hcount : r.1.ackcount = 0)
    (hsent : r.2.map Prod.snd = datagrams (pack cap segSize segs))
    (hnoted : ∀ seg ∈ segs, Noted ln.conv (sndNum + n) (k.note rcvNum owed) seg) :
    Tells ln log una sndNum n (k.note rcvNum owed) k r := by
  have hle := h.le
  obtain ⟨N, hN, hok, hhalf, -⟩ := hsends
  have hNnear := hok.near
  -- `Sends` knows the counter, the middle block how many were moved; the two agree
  have hsame : N = sndNum + n := h.count hok hN (by omega) hn (hend.2.trans hnxt)
  subst hsame
  have hacks : acks r.1 = [] := by
    rw [acks, hcount]
    rfl
  refine ⟨hok, ?_, hhalf, Or.inr hacks, packed_of_datagrams hsent hnoted⟩
  rw [hend.1, hbuf, List.map_append, hnew]

/-- The block behind the transfer of a flush: as many were numbered as the window had room for. -/
theorem transferred_ok (h : SndOk ln log una sndNum k.sndHalf) :
    SndOk ln log una (sndNum + min k.sndQueue.length (windowRoom k (sendCwnd k))) (transferred k).sndHalf := by
  have hle := h.le
  obtain ⟨hs, hr⟩ := sendCwnd_le k
  have hmove := moveSndQueue_take k.current (ikcpWndUnused k) (sendCwnd k) k.sndQueue (k := k) rfl
  have hkeeps := (moveSndQueue_keeps (sndKept_emitter h.conv) k.current (ikcpWndUnused k) k.sndQueue rfl hs
    hr (⟨⟨sndNum, Nat.le_refl _, h⟩, rfl⟩ : SndKept ln log una sndNum k k)).1
  rw [hmove] at hkeeps
  obtain ⟨⟨M, hM, hmok⟩, -⟩ := hkeeps
  have hnear := hmok.near
  have hn := Nat.le_trans (Nat.min_le_right k.sndQueue.length (windowRoom k (sendCwnd k))) h.room
  have hsame : M = sndNum + min k.sndQueue.length (windowRoom k (sendCwnd k)) :=
    h.count hmok hM (by omega) hn rfl
  rw [← hsame]
  exact hmok

/-- **The segments of a flush** say what the block is. -/
theorem flushSegs_noted (h : SndOk ln log una sndNum k.sndHalf) (hrcv : k.rcvNxt = BitVec.ofNat 32 rcvNum)
    (howed : (acks k).map Prod.fst = owed.map (BitVec.ofNat 32)) :
    ∀ seg ∈ flushSegs k, Noted ln.conv (sndNum + min k.sndQueue.length (windowRoom k (sendCwnd k)))
      (k.note rcvNum owed) seg := by
  have hmid := transferred_ok h
  have hpush : ∀ s ∈ (transferred k).sndBuf, s.cmd = ikcpCmdPush := by
    intro s hs
    obtain ⟨_, -, -, hkey⟩ := hmid.entry hs
    exact congrArg (fun e => e.2.1) hkey
  exact noted_middle h hmid (fun seg hseg => mem_flushSegs hpush hseg) hrcv howed

/-- **`pvp_ikcp_flush`**, updated, gives out as many numbers as the window has room for. -/
theorem pvpIkcpFlush_tells_of (hup : k.updated = true) (h : SndOk ln log una sndNum k.sndHalf)
    (hrcv : k.rcvNxt = BitVec.ofNat 32 rcvNum)
    (howed : (acks k).map Prod.fst = owed.map (BitVec.ofNat 32)) :
    Tells ln log una sndNum (min k.sndQueue.length (windowRoom k (sendCwnd k))) (k.note rcvNum owed) k
      (pvpIkcpFlush k) := by
  let n := min k.sndQueue.length (windowRoom k (sendCwnd k))
  have hn : n ≤ 0x7fff := Nat.le_trans (Nat.min_le_right _ _) h.room
  -- the new numbers are consecutive, from `snd_nxt` on
  have hnums : (numberSegments k k.current (ikcpWndUnused k) k.sndNxt (k.sndQueue.take n)).map IKCPSEG.sn
      = serials sndNum n := by
    have hsn : k.sndNxt = BitVec.ofNat 32 sndNum := h.sndNxt
    rw [hsn, numberSegments_sn, List.length_take, Nat.min_eq_left (Nat.min_le_left _ _)]
  obtain ⟨cwnd, -, hdesk⟩ := pvpIkcpFlush_desk hup
  exact .of_middle h (pvpIkcpFlush_ok h) rfl hnums hn rfl (pvpIkcpFlush_numbers hup)
    (congrArg Desk.ackcount hdesk) (pvpIkcpFlush_laid hup) (flushSegs_noted h hrcv howed)

/-- **`pvp_ikcp_flush`** -/
theorem pvpIkcpFlush_tells (h : SndOk ln log una sndNum k.sndHalf)
    (hrcv : k.rcvNxt = BitVec.ofNat 32 rcvNum)
    (howed : (acks k).map Prod.fst = owed.map (BitVec.ofNat 32)) :
    ∃ n, Tells ln log una sndNum n (k.note rcvNum owed) k (pvpIkcpFlush k) := by
  by_cases hup : k.updated = true
  · exact ⟨_, pvpIkcpFlush_tells_of hup h hrcv howed⟩
  · rw [pvpIkcpFlush, if_pos (Bool.eq_false_of_not_eq_true hup)]
    exact ⟨0, .nothing h rfl rfl rfl⟩

/-- What stands before the flush of an update is no matter of what is told. -/
theorem updateHead_note (k : IKCPCB) (current : IUINT32) :
    (updateHead k current).2.sndHalf = k.sndHalf ∧ (updateHead k current).2.rcvHalf = k.rcvHalf
      ∧ (updateHead k current).2.sndBuf = k.sndBuf ∧ acks (updateHead k current).2 = acks k
      ∧ (updateHead k current).2.note = k.note := by
  obtain ⟨tsFlush, dupsendOn, hhead⟩ := updateHead_eq k current
  have hhalf : (updateHead k current).2.rcvHalf = k.rcvHalf := by
    rw [hhead]
    rfl
  refine ⟨?_, hhalf, ?_, ?_, ?_⟩
  · rw [hhead]
    rfl
  · rw [hhead]
  · rw [hhead]
    rfl
  · funext rcvNum owed
    rw [IKCPCB.note, IKCPCB.note, ikcpWndUnused_congr hhalf]

/-- Nor is what stands behind it. -/
theorem Tells.update {n : Nat} {current : IUINT32} {r : IKCPCB × List (IKCPCB × List Byte)}
    (h : Tells ln log una sndNum n ((updateHead k current).2.note rcvNum owed) (updateHead k current).2 r) :
    Tells ln log una sndNum n (k.note rcvNum owed) k (pvpIkcpUpdateLost r.1 current, r.2) := by
  obtain ⟨-, hhalf, hbuf, hacks, hnote⟩ := updateHead_note k current
  obtain ⟨hok, hnumbers, hrcv, hdesk, hsent⟩ := h
  obtain ⟨_, _, _, _, hlost⟩ := pvpIkcpUpdateLost_eq r.1 current
  rw [hlost]
  exact ⟨hok, hbuf ▸ hnumbers, hrcv.trans hhalf, hacks ▸ hdesk, hnote ▸ hsent⟩

/-- **`pvp_ikcp_update`** -/
theorem pvpIkcpUpdate_tells (h : SndOk ln log una sndNum k.sndHalf)
    (hrcv : k.rcvNxt = BitVec.ofNat 32 rcvNum)
    (howed : (acks k).map Prod.fst = owed.map (BitVec.ofNat 32)) (current : IUINT32) :
    ∃ n, Tells ln log una sndNum n (k.note rcvNum owed) k (pvpIkcpUpdate k current) := by
  obtain ⟨hsnd, hhalf, -, hacks, -⟩ := updateHead_note k current
  let k' := (updateHead k current).2
  have h' : SndOk ln log una sndNum k'.sndHalf := hsnd ▸ h
  have hrcv' : k'.rcvNxt = BitVec.ofNat 32 rcvNum := (congrArg RcvHalf.rcvNxt hhalf).trans hrcv
  have hmid : ∃ n, Tells ln log una sndNum n (k'.note rcvNum owed) k'
      (if (updateHead k current).1 then pvpIkcpFlush k' else (k', [])) := by
    split
    · exact pvpIkcpFlush_tells h' hrcv' (hacks ▸ howed)
    · exact ⟨0, .nothing h' rfl rfl rfl⟩
  obtain ⟨n, hn⟩ := hmid
  exact ⟨n, hn.update⟩

/-- The copies of the fast path number nothing.  Induction on the position. -/
theorem sendExDups_numbers (current wnd : IUINT32) (i n : Nat) (out : Out) :
    (sendExDups current wnd i n out).kcp.sndBuf.map IKCPSEG.sn = out.kcp.sndBuf.map IKCPSEG.sn
      ∧ (sendExDups current wnd i n out).kcp.sndNxt = out.kcp.sndNxt := by
  induction i generalizing n out with
  | zero => exact ⟨rfl, rfl⟩
  | succ i ih =>
    rw [sendExDups]
    cases hi : out.kcp.sndBuf[i]? with
    | none => exact ⟨rfl, rfl⟩
    | some seg =>
      dsimp only
      split
      · exact ⟨rfl, rfl⟩
      split
      · exact ⟨rfl, rfl⟩
      · obtain ⟨hnumbers, hnxt⟩ := ih (n + 1) (sendDup i { seg with
          ts := current, wnd := wnd, una := out.kcp.rcvNxt, xmit := seg.xmit + 1 } out)
        refine ⟨hnumbers.trans (sendDup_numbers hi ?_), hnxt⟩
        rfl

/-- The block of the fast path in front of its copies. -/
theorem fastData_kept (h : SndOk ln log una sndNum k.sndHalf) :
    ∃ sndNum', sndNum ≤ sndNum' ∧ SndOk ln log una sndNum' (fastData k).kcp.sndHalf := by
  have hem : Emitter k (SndKept ln log una sndNum k) (WireOk ln.conv log una) := sndKept_emitter h.conv
  have hstart : SndKept ln log una sndNum k k := ⟨⟨sndNum, Nat.le_refl _, h⟩, rfl⟩
  have hacks : Emitting (SndKept ln log una sndNum k) (WireOk ln.conv log una) (afterAcks k) :=
    Emitting.upd hem (flushAcks_emits hem k.ackcount 0 (_, _) controlSeg_control (.start hstart)).2 rfl
  have hkcp := afterAcks_kcp k
  obtain ⟨hs, hr⟩ := sendCwnd_le k
  have hloop : Emitting (SndKept ln log una sndNum k) (WireOk ln.conv log una) (fastData k) :=
    sendExLoop_emits hem (a := ⟨k.current, 0, sendRtomin k, ikcpWndUnused k⟩) rfl k.sndQueue
      (by rw [hkcp]) (by rw [hkcp]; exact hs) (by rw [hkcp]; exact hr) hacks
  exact hloop.block.1

/-- **`pvp_ikcp_send_ex`** past `pvp_ikcp_send`: `k` is the block at the time given. -/
theorem sendExFlush_tells {kcp : IKCPCB} {current : IUINT32}
    (hk : (if current.toNat > 0 then { kcp with current := current } else kcp) = k)
    (h : SndOk ln log una sndNum k.sndHalf) (hrcv : k.rcvNxt = BitVec.ofNat 32 rcvNum)
    (howed : (acks k).map Prod.fst = owed.map (BitVec.ofNat 32)) :
    ∃ n, Tells ln log una sndNum n (k.note rcvNum owed) k
      ((sendExFlush kcp current).kcp, (sendExFlush kcp current).sent) := by
  -- the middle block is `fastData k`: acknowledged and transferred, nothing copied yet
  obtain ⟨-, hbuf, hnxt, -⟩ := fastData_launched k
  let n := (k.sndQueue.take (windowRoom k (sendCwnd k))).length
  have hn : n ≤ 0x7fff := by
    have hroom := h.room
    show (k.sndQueue.take _).length ≤ _
    rw [List.length_take]
    omega
  have hnums : (newSegs k).map IKCPSEG.sn = serials sndNum n := by
    have hsn : k.sndNxt = BitVec.ofNat 32 sndNum := h.sndNxt
    have hsame : IKCPSEG.sn ∘ launched k = IKCPSEG.sn := rfl
    rw [newSegs, launchedFrom, List.map_map, hsame, hsn, numberSegments_sn]
  have hlen : (newSegs k).length = n := by
    have hmap := congrArg List.length hnums
    rw [List.length_map, serials, List.length_map, List.length_range'] at hmap
    exact hmap
  rw [hlen] at hnxt
  -- the copies number nothing
  have hends : (sendExFlush kcp current).kcp.sndBuf.map IKCPSEG.sn = (fastData k).kcp.sndBuf.map IKCPSEG.sn
      ∧ (sendExFlush kcp current).kcp.sndNxt = (fastData k).kcp.sndNxt := by
    rw [sendExFlush_fast hk, ikcpOutput_kcp]
    split
    · exact sendExDups_numbers ..
    · exact ⟨rfl, rfl⟩
  have hsame : kcp.sndHalf = k.sndHalf ∧ kcp.rcvHalf = k.rcvHalf := by
    rw [← hk]
    split <;> exact ⟨rfl, rfl⟩
  have hsends : Sends ln log una sndNum k ((sendExFlush kcp current).kcp, (sendExFlush kcp current).sent) := by
    have hkcp : SndOk ln log una sndNum kcp.sndHalf := hsame.1 ▸ h
    obtain ⟨N, hN, hok, hhalf, hsent⟩ := sendExFlush_ok hkcp current
    exact ⟨N, hN, hok, hhalf.trans hsame.2, hsent⟩
  have hbuf : (fastData k).kcp.sndBuf = k.sndBuf ++ newSegs k := hbuf
  have hmid : SndOk ln log una (sndNum + n) (fastData k).kcp.sndHalf := by
    obtain ⟨M, hM, hmok⟩ := fastData_kept h
    have hle := h.le
    have hnear := hmok.near
    have hM' : M = sndNum + n := h.count hmok hM (by omega) hn hnxt
    rw [← hM']
    exact hmok
  refine ⟨n, .of_middle h hsends hbuf hnums hn hnxt hends
    (congrArg Desk.ackcount (sendExFlush_desk kcp current)) (sendExFlush_laid hk)
    (noted_middle h hmid (fun seg hseg => ?_) hrcv howed)⟩
  rw [hbuf]
  exact mem_sendExSegs hseg

/-- **`pvp_ikcp_send`**: the message is queued or refused, and nothing is sent. -/
theorem pvpIkcpSend_tells (hmss : ln.mss < 2 ^ 16) (h : SndOk ln log una sndNum k.sndHalf) (note : Note)
    (msg : List Byte) (current : IUINT32) :
    ∃ more, Tells ln (log ++ more) una sndNum 0 note k ((pvpIkcpSend k msg current).2, []) := by
  obtain ⟨hhalf, hsend⟩ := pvpIkcpSend_ok hmss h msg current
  have hdesk := pvpIkcpSend_desk k msg current
  obtain ⟨_, _, _, hset⟩ := pvpIkcpSend_eq k msg current
  have hbuf : (pvpIkcpSend k msg current).2.sndBuf = k.sndBuf := by rw [hset]
  have hok : ∃ more, SndOk ln (log ++ more) una sndNum (pvpIkcpSend k msg current).2.sndHalf := by
    rcases hsend with ⟨-, hs⟩ | ⟨-, -, hs⟩
    · exact ⟨[], by rw [List.append_nil]; exact hs⟩
    · exact ⟨_, hs⟩
  obtain ⟨more, hok⟩ := hok
  exact ⟨more, .nothing hok (by rw [hbuf]) hhalf (congrArg Desk.acks hdesk)⟩

/-- **`pvp_ikcp_send_ex`**: what is sent tells. -/
theorem pvpIkcpSendEx_tells (hmss : ln.mss < 2 ^ 16) (h : SndOk ln log una sndNum k.sndHalf)
    (hrcv : k.rcvNxt = BitVec.ofNat 32 rcvNum)
    (howed : (acks k).map Prod.fst = owed.map (BitVec.ofNat 32)) (msg : List Byte) (current : IUINT32) :
    ∃ n more, Tells ln (log ++ more) una sndNum n (k.note rcvNum owed) k (pvpIkcpSendEx k msg current).2 := by
  obtain ⟨more, hquiet⟩ := pvpIkcpSend_tells hmss h (k.note rcvNum owed) msg current
  have hacks : acks (pvpIkcpSend k msg current).2 = acks k := congrArg Desk.acks (pvpIkcpSend_desk k msg current)
  have hbuf : (pvpIkcpSend k msg current).2.sndBuf = k.sndBuf := by
    obtain ⟨_, _, _, hset⟩ := pvpIkcpSend_eq k msg current
    rw [hset]
  rw [pvpIkcpSendEx]
  generalize pvpIkcpSend k msg current = r at hquiet hacks hbuf
  obtain ⟨ret, k₁⟩ := r
  have hok : SndOk ln (log ++ more) una sndNum k₁.sndHalf := hquiet.ok
  have hhalf : k₁.rcvHalf = k.rcvHalf := hquiet.half
  dsimp only at hquiet hacks hbuf ⊢
  split
  · -- Refused.
    exact ⟨0, more, hquiet⟩
  split
  · -- Not updated yet: the message waits.
    exact ⟨0, more, hquiet⟩
  · generalize hk : (if current.toNat > 0 then { k₁ with current := current } else k₁) = k₀
    have hsame : k₀.sndHalf = k₁.sndHalf ∧ k₀.rcvHalf = k₁.rcvHalf ∧ acks k₀ = acks k₁ := by
      rw [← hk]
      split <;> exact ⟨rfl, rfl, rfl⟩
    obtain ⟨hsnd₀, hrcv₀, hacks₀⟩ := hsame
    have hbuf₀ : k₀.sndBuf = k₁.sndBuf := by
      rw [← hk]
      split <;> rfl
    have hhalf₀ : k₀.rcvHalf = k.rcvHalf := hrcv₀.trans hhalf
    have hnxt₀ : k₀.rcvNxt = BitVec.ofNat 32 rcvNum := (congrArg RcvHalf.rcvNxt hhalf₀).trans hrcv
    obtain ⟨n, hn⟩ := sendExFlush_tells hk (hsnd₀ ▸ hok) hnxt₀ (by rw [hacks₀, hacks]; exact howed)
    have hnote : k₀.note rcvNum owed = k.note rcvNum owed := by
      rw [IKCPCB.note, IKCPCB.note, ikcpWndUnused_congr hhalf₀]
    refine ⟨n, more, hn.ok, ?_, hn.half.trans hhalf₀, ?_, hnote ▸ hn.sent⟩
    · rw [← hbuf, ← hbuf₀]
      exact hn.numbers
    · rw [← hacks, ← hacks₀]
      exact hn.desk

end Telling

end ConnClient.Ikcp
