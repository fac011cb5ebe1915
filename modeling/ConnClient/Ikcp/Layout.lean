/-
  What the senders put on the wire, said without their loops.

  `pvp_ikcp_flush` walks `snd_buf` by positions, changes segments in place, remembers some of them in a
  table of 32, and gives the buffer away whenever the next segment would exceed the `mtu`.  What comes out
  is plain: four lists of segments, one behind the other,

  1. an acknowledgement for every pair of `acklist` (`ackSegs`);
  2. the question and the answer about the window, if they are due (`probeSegs`);
  3. every segment of `snd_buf` that is due, in the order of `snd_buf` (`dueSegs`);
  4. a copy of the first 32 that are not due and may be repeated (`copySegs`);

  and this list is packed greedily into datagrams of at most `mtu` bytes (`ConnClient.Lib.Packing`), which
  is into as few as can be.  `pvp_ikcp_send_ex` does the same with other lists: what it sends of data is
  what it has just transferred, and it repeats the older segments from the last one back as long as the
  copies fit the open datagram.

  The transfer in front of this moves exactly as many segments as the window has room for
  (`moveSndQueue_take`).

  `Laid` is what every part of a sender keeps: the segments so far are those the packing was given, and the
  buffer is its open box.  A part that adds segments is proved for whatever was laid before it, so the parts
  are put one behind the other as they stand in the source.  Nothing is asked of the sizes: a segment of more
  than `mtu` bytes would get a datagram of its own, and only the bound at the end asks that there is none.
-/
import ConnClient.Lib.Packing
import ConnClient.Ikcp.Copies

namespace ConnClient.Ikcp

open ConnClient.Lib

/-! ## The transfer -/

/-- How many numbers the window `cwnd` has left: the signed difference the source tests, when it is
    below nought. -/
def windowRoom (kcp : IKCPCB) (cwnd : IUINT32) : Nat :=
  (-itimediff kcp.sndNxt (kcp.sndUna + cwnd)).toNat

/-- A transfer takes one number of the room. -/
theorem windowRoom_next {k k' : IKCPCB} {cwnd : IUINT32} (hopen : itimediff k.sndNxt (k.sndUna + cwnd) < 0)
    (hnxt : k'.sndNxt = k.sndNxt + 1) (huna : k'.sndUna = k.sndUna) :
    windowRoom k cwnd = windowRoom k' cwnd + 1 := by
  -- one step towards the end of the window, which is not passed
  have hnext : itimediff (k.sndNxt + 1) (k.sndUna + cwnd) = itimediff k.sndNxt (k.sndUna + cwnd) + 1 := by
    have hcases := itimediff_cases k.sndNxt (k.sndUna + cwnd)
    have hcases' := itimediff_cases (k.sndNxt + 1) (k.sndUna + cwnd)
    have hsub : k.sndNxt + 1 - (k.sndUna + cwnd) = k.sndNxt - (k.sndUna + cwnd) + 1 := by ring
    have hone : (1 : IUINT32).toNat = 1 := rfl
    rw [hsub, BitVec.toNat_add, hone] at hcases'
    omega
  rw [windowRoom, windowRoom, hnxt, huna, hnext]
  omega

theorem windowRoom_closed {k : IKCPCB} {cwnd : IUINT32}
    (hclosed : ¬ itimediff k.sndNxt (k.sndUna + cwnd) < 0) : windowRoom k cwnd = 0 := by
  rw [windowRoom]
  omega

/-- The segments of `snd_queue` as they enter `snd_buf`, the first one under the number `sn`. -/
def numberSegments (kcp : IKCPCB) (current wnd : IUINT32) : IUINT32 → List IKCPSEG → List IKCPSEG
  | _, [] => []
  | sn, seg :: rest =>
    { newSegment kcp current wnd seg with sn := sn } :: numberSegments kcp current wnd (sn + 1) rest

theorem numberSegments_congr {k k' : IKCPCB} (hconv : k'.conv = k.conv) (hnxt : k'.rcvNxt = k.rcvNxt)
    (hrto : k'.rxRto = k.rxRto) (current wnd sn : IUINT32) (queue : List IKCPSEG) :
    numberSegments k' current wnd sn queue = numberSegments k current wnd sn queue := by
  induction queue generalizing sn with
  | nil => rfl
  | cons seg rest ih => rw [numberSegments, numberSegments, ih, newSegment, newSegment, hconv, hnxt, hrto]

/-- The block after `n` transfers: `n` segments change lists, and get the next numbers. -/
def transferTo (current wnd : IUINT32) (n : Nat) (kcp : IKCPCB) : IKCPCB :=
  { kcp with
    sndQueue := kcp.sndQueue.drop n
    sndBuf := kcp.sndBuf ++ numberSegments kcp current wnd kcp.sndNxt (kcp.sndQueue.take n)
    nsndQue := kcp.nsndQue - n
    nsndBuf := kcp.nsndBuf + n
    sndNxt := kcp.sndNxt + BitVec.ofNat 32 n }

theorem transferTo_zero (current wnd : IUINT32) (kcp : IKCPCB) : transferTo current wnd 0 kcp = kcp := by
  have hnxt : kcp.sndNxt + BitVec.ofNat 32 0 = kcp.sndNxt := BitVec.add_zero _
  rw [transferTo, List.take_zero, numberSegments, List.append_nil, hnxt]
  rfl

theorem transferTo_succ (current wnd : IUINT32) (n : Nat) {kcp : IKCPCB} {seg : IKCPSEG}
    {rest : List IKCPSEG} (hq : kcp.sndQueue = seg :: rest) :
    transferTo current wnd n (moveSegment current wnd seg rest kcp) = transferTo current wnd (n + 1) kcp := by
  have hnxt : kcp.sndNxt + BitVec.ofNat 32 (n + 1) = kcp.sndNxt + 1 + BitVec.ofNat 32 n := by
    rw [BitVec.ofNat_add, BitVec.add_comm (BitVec.ofNat 32 n), ← BitVec.add_assoc]
    rfl
  have hque : kcp.nsndQue - (n + 1) = kcp.nsndQue - 1 - n := by omega
  have hcount : kcp.nsndBuf + (n + 1) = kcp.nsndBuf + 1 + n := by omega
  have hrest : numberSegments (moveSegment current wnd seg rest kcp) current wnd (kcp.sndNxt + 1) (rest.take n)
      = numberSegments kcp current wnd (kcp.sndNxt + 1) (rest.take n) := by
    apply numberSegments_congr
    · rfl
    · rfl
    · rfl
  have hmoved : (moveSegment current wnd seg rest kcp).sndBuf
      ++ numberSegments (moveSegment current wnd seg rest kcp) current wnd (kcp.sndNxt + 1) (rest.take n)
        = kcp.sndBuf ++ numberSegments kcp current wnd kcp.sndNxt ((seg :: rest).take (n + 1)) := by
    rw [hrest, List.take_succ_cons, numberSegments]
    show (kcp.sndBuf ++ [newSegment kcp current wnd seg]) ++ _ = _
    rw [List.append_assoc]
    rfl
  rw [transferTo, transferTo, hq, hnxt, hque, hcount, ← hmoved]
  rfl

/-- **The transfer moves as many segments as the window has room for**, or all of them.  Induction on
    the segments of `snd_queue`: each transfer takes one number of the room. -/
theorem moveSndQueue_take (current wnd cwnd : IUINT32) (queue : List IKCPSEG) {k : IKCPCB}
    (hq : k.sndQueue = queue) : moveSndQueue current wnd cwnd queue k
      = transferTo current wnd (min queue.length (windowRoom k cwnd)) k := by
  induction queue generalizing k with
  | nil => rw [moveSndQueue, List.length_nil, Nat.zero_min, transferTo_zero]
  | cons seg rest ih =>
    rw [moveSndQueue]
    by_cases hopen : itimediff k.sndNxt (k.sndUna + cwnd) < 0
    · have hroom : windowRoom k cwnd = windowRoom (moveSegment current wnd seg rest k) cwnd + 1 :=
        windowRoom_next hopen rfl rfl
      have hmin : min (seg :: rest).length (windowRoom k cwnd)
          = min rest.length (windowRoom (moveSegment current wnd seg rest k) cwnd) + 1 := by
        rw [List.length_cons, hroom]
        omega
      rw [if_pos hopen, ih rfl, transferTo_succ current wnd _ hq, hmin]
    · rw [if_neg hopen, windowRoom_closed hopen, Nat.min_zero, transferTo_zero]

theorem moveSndQueue_mtu (current wnd cwnd : IUINT32) (queue : List IKCPSEG) (k : IKCPCB) :
    (moveSndQueue current wnd cwnd queue k).mtu = k.mtu := by
  obtain ⟨_, _, _, _, _, hmove, -⟩ := moveSndQueue_eq current wnd cwnd queue k
  rw [hmove]

/-! ## The buffer -/

/-- The bytes a segment takes. -/
def segSize (seg : IKCPSEG) : Nat := ikcpOverhead + seg.len

theorem length_flatMap_segBytes (segs : List IKCPSEG) :
    (segs.flatMap ikcpSegBytes).length = load segSize segs := by
  induction segs with
  | nil => rfl
  | cons seg segs ih =>
    rw [List.flatMap_cons, List.length_append, ih, length_ikcpSegBytes]
    rfl

/-- Datagrams, each with its segments. -/
def datagrams (boxes : List (List IKCPSEG)) : List (List Byte) := boxes.map (List.flatMap ikcpSegBytes)

/-- A sender at work has put `segs` into datagrams of at most `mtu` bytes: the closed ones were
    output, and the open one lies in `ptr`. -/
structure Laid (mtu : Nat) (segs : List IKCPSEG) (out : Out) : Prop where
  cap : out.kcp.mtu = mtu
  sent : out.sent.map Prod.snd = datagrams (fill mtu segSize segs).closed
  ptr : out.ptr = (fill mtu segSize segs).last.flatMap ikcpSegBytes

section Laying

variable {mtu : Nat} {segs : List IKCPSEG} {out : Out}

theorem Laid.start (k : IKCPCB) : Laid k.mtu [] { kcp := k } := ⟨rfl, rfl, rfl⟩

theorem Laid.upd (h : Laid mtu segs out) {f : IKCPCB → IKCPCB} (hf : (f out.kcp).mtu = out.kcp.mtu) :
    Laid mtu segs (out.upd f) :=
  ⟨hf.trans h.cap, h.sent, h.ptr⟩

theorem Laid.length (h : Laid mtu segs out) :
    out.ptr.length = load segSize (fill mtu segSize segs).last := by
  rw [h.ptr, length_flatMap_segBytes]

/-- An output closes the box; an empty one is not output, as there is nothing to close. -/
theorem Laid.output (h : Laid mtu segs out) :
    (ikcpOutput out).sent.map Prod.snd = datagrams (fill mtu segSize segs).close
      ∧ (ikcpOutput out).ptr = [] := by
  have hptr := h.ptr
  rw [ikcpOutput]
  unfold Boxes.close
  cases hlast : (fill mtu segSize segs).last with
  | nil =>
    rw [hlast] at hptr
    have hzero : out.ptr.length = 0 := congrArg List.length hptr
    rw [if_pos hzero]
    exact ⟨h.sent, hptr⟩
  | cons seg rest =>
    -- every segment has a header, so a box with a segment has bytes
    have hpos : ¬ out.ptr.length = 0 := by
      have hlen := h.length
      rw [hlast, load, List.map_cons, List.sum_cons, segSize, ikcpOverhead] at hlen
      omega
    rw [if_neg hpos]
    refine ⟨?_, rfl⟩
    show (out.sent ++ [(out.kcp, out.ptr)]).map Prod.snd = datagrams (_ ++ [_])
    rw [datagrams, List.map_append, List.map_append, h.sent, List.map_singleton, List.map_singleton, hptr,
      hlast]
    rfl

/-- **A segment behind the room made for it** goes where the packing puts it. -/
theorem Laid.put (h : Laid mtu segs out) (seg : IKCPSEG) :
    Laid mtu (segs ++ [seg]) ((makeRoom (ikcpOverhead + seg.len) out).put (ikcpSegBytes seg)) := by
  have hlen := h.length
  obtain ⟨hsent, hempty⟩ := h.output
  constructor
  · rw [put_kcp, makeRoom_kcp]
    exact h.cap
  · rw [fill_snoc, Boxes.put, ← hlen, segSize, makeRoom, h.cap]
    split
    · exact hsent
    · exact h.sent
  · rw [fill_snoc, Boxes.put, ← hlen, segSize, makeRoom, h.cap]
    split
    · show (ikcpOutput out).ptr ++ ikcpSegBytes seg = [seg].flatMap ikcpSegBytes
      rw [hempty, List.flatMap_singleton, List.nil_append]
    · show out.ptr ++ ikcpSegBytes seg = ((fill mtu segSize segs).last ++ [seg]).flatMap ikcpSegBytes
      rw [List.flatMap_append, List.flatMap_singleton, h.ptr]

/-- A segment that fits. -/
theorem Laid.fits (h : Laid mtu segs out) {seg : IKCPSEG}
    (hfits : ¬ out.ptr.length + (ikcpOverhead + seg.len) > out.kcp.mtu) :
    Laid mtu (segs ++ [seg]) (out.put (ikcpSegBytes seg)) := by
  have hput := h.put seg
  rw [makeRoom, if_neg hfits] at hput
  exact hput

/-- The sender is done. -/
theorem Laid.done (h : Laid mtu segs out) :
    (ikcpOutput out).sent.map Prod.snd = datagrams (pack mtu segSize segs) := h.output.1

end Laying

/-! ## The segments of a flush -/

/-- The local `seg` of a sender with a pair of `acklist`. -/
def ackSeg (seg : IKCPSEG) (pair : IUINT32 × IUINT32) : IKCPSEG :=
  { seg with sn := pair.1, ts := pair.2 }

/-- The acknowledgements. -/
def ackSegs (kcp : IKCPCB) : List IKCPSEG := (acks kcp).map (ackSeg (controlSeg kcp))

/-- The local `seg` behind the acknowledgements: it keeps the last pair, so a probing command
    carries its `sn` and `ts`. -/
def probeSeg (kcp : IKCPCB) : IKCPSEG := (ackSegs kcp).getLast?.getD (controlSeg kcp)

/-- The probing commands that are due, as `updateProbe` leaves the bits when the remote window is
    looked at. -/
def probeSegs (kcp : IKCPCB) : List IKCPSEG :=
  let probe := (updateProbe { kcp with ackcount := 0 }).probe
  (if probe &&& ikcpAskSend ≠ 0 then [{ probeSeg kcp with cmd := ikcpCmdWask }] else [])
    ++ if probe &&& ikcpAskTell ≠ 0 then [{ probeSeg kcp with cmd := ikcpCmdWins }] else []

/-- The block behind the transfer. -/
def transferred (kcp : IKCPCB) : IKCPCB :=
  transferTo kcp.current (ikcpWndUnused kcp) (min kcp.sndQueue.length (windowRoom kcp (sendCwnd kcp))) kcp

/-- A segment as it is transmitted, if it is due: for the first time, after its timeout, or passed
    by acknowledgements. -/
def transmission (a : FlushArgs) (kcp : IKCPCB) (segment : IKCPSEG) : Option IKCPSEG :=
  match segmentDue a segment with
  | .no => none
  | due => some (stamped a kcp.rcvNxt (dueSegment a kcp segment due))

/-- The transmissions. -/
def dueSegs (kcp : IKCPCB) : List IKCPSEG :=
  (transferred kcp).sndBuf.filterMap (transmission (flushArgs kcp (ikcpWndUnused kcp)) kcp)

/-- A redundant copy. -/
def copySeg (a : FlushArgs) (una : IUINT32) (segment : IKCPSEG) : IKCPSEG :=
  { stamped a una { segment with xmit := segment.xmit + 1, dupsendcount := segment.dupsendcount + 1 } with
    cmd := ikcpCmdDups }

/-- The copies.  `dup_segs` has room for 32 of them, the rest wait for the next flush. -/
def copySegs (kcp : IKCPCB) : List IKCPSEG :=
  (((transferred kcp).sndBuf.filter fun seg => CopyDue kcp seg).take ikcpDupsendLen).map
    (copySeg (flushArgs kcp (ikcpWndUnused kcp)) kcp.rcvNxt)

/-- **All segments of a flush**, in order. -/
def flushSegs (kcp : IKCPCB) : List IKCPSEG :=
  ackSegs kcp ++ probeSegs kcp ++ dueSegs kcp ++ copySegs kcp

/-! ## In front of the data loop -/

section Head

variable {mtu : Nat} {segs : List IKCPSEG}

/-- A control segment is its header. -/
theorem Laid.control {out : Out} (h : Laid mtu segs out) {seg : IKCPSEG} (hdata : seg.data = []) :
    Laid mtu (segs ++ [seg]) ((makeRoom ikcpOverhead out).put (ikcpEncodeSeg seg)) := by
  have hput := h.put seg
  have hlen : seg.len = 0 := congrArg List.length hdata
  rw [hlen, ← ikcpSegBytes_control hdata] at hput
  exact hput

/-- The acknowledgement loop.  Induction on the pairs that are left, the next one being number `i`. -/
theorem flushAcks_laid (n i : Nat) {s : IKCPSEG × Out} (hdata : s.1.data = []) (h : Laid mtu segs s.2) :
    Laid mtu (segs ++ ((List.range' i n).map (ikcpAckGet s.2.kcp)).map (ackSeg s.1)) (flushAcks n i s).2
      ∧ (flushAcks n i s).1
        = ((((List.range' i n).map (ikcpAckGet s.2.kcp)).map (ackSeg s.1)).getLast?).getD s.1 := by
  induction n generalizing i s segs with
  | zero =>
    constructor
    · rw [List.range'_zero, List.map_nil, List.map_nil, List.append_nil]
      exact h
    · rfl
  | succ n ih =>
    obtain ⟨seg, out⟩ := s
    let pair := ikcpAckGet out.kcp i
    let next := (makeRoom ikcpOverhead out).put (ikcpEncodeSeg (ackSeg seg pair))
    have hkcp : (makeRoom ikcpOverhead out).kcp = out.kcp := makeRoom_kcp ikcpOverhead out
    have hround : flushAcks (n + 1) i (seg, out) = flushAcks n (i + 1) (ackSeg seg pair, next) := by
      rw [flushAcks, hkcp]
      rfl
    have hnext : next.kcp = out.kcp := hkcp
    obtain ⟨hlaid, hlast⟩ := ih (i + 1) (s := (ackSeg seg pair, next)) hdata (h.control hdata)
    rw [hnext] at hlaid hlast
    rw [hround, List.range'_succ, List.map_cons, List.map_cons]
    constructor
    · rw [List.append_cons]
      exact hlaid
    · rw [hlast, List.getLast?_cons]
      rfl

theorem flushProbe_laid (ask : IUINT32) (cmd : IUINT8) {s : IKCPSEG × Out} (hdata : s.1.data = [])
    (h : Laid mtu segs s.2) :
    Laid mtu (segs ++ if s.2.kcp.probe &&& ask ≠ 0 then [{ s.1 with cmd := cmd }] else [])
      (flushProbe ask cmd s).2 := by
  obtain ⟨seg, out⟩ := s
  rw [flushProbe]
  dsimp only
  split
  · have hcontrol : Laid mtu (segs ++ [{ seg with cmd := cmd }])
        ((makeRoom ikcpOverhead out).put (ikcpEncodeSeg { seg with cmd := cmd })) := h.control hdata
    exact hcontrol
  · rw [List.append_nil]
    exact h

/-- The segments of `pvp_ikcp_flush` in front of the data loop. -/
theorem flushHead_laid (k : IKCPCB) : Laid k.mtu (ackSegs k ++ probeSegs k) (flushHead k).2 := by
  let s₁ := flushAcks k.ackcount 0 (controlSeg k, { kcp := k })
  obtain ⟨hacks, hlast⟩ := flushAcks_laid k.ackcount 0 (s := (controlSeg k, { kcp := k })) rfl (.start k)
  rw [List.nil_append, ← List.range_eq_range'] at hacks
  rw [← List.range_eq_range'] at hlast
  have hacks : Laid k.mtu (ackSegs k) s₁.2 := hacks
  have hlast : s₁.1 = probeSeg k := hlast
  have hdata : (probeSeg k).data = [] := by
    rw [probeSeg]
    cases hsegs : (ackSegs k).getLast? with
    | none => rfl
    | some seg =>
      obtain ⟨pair, -, rfl⟩ := List.mem_map.mp (List.mem_of_getLast? hsegs)
      rfl
  let out₂ := s₁.2.upd fun kcp => updateProbe { kcp with ackcount := 0 }
  have hkcp : s₁.2.kcp = k := flushAcks_kcp ..
  have hout : out₂.kcp = updateProbe { k with ackcount := 0 } := by
    show updateProbe { s₁.2.kcp with ackcount := 0 } = _
    rw [hkcp]
  have h₂ : Laid k.mtu (ackSegs k) out₂ := by
    refine hacks.upd ?_
    obtain ⟨_, _, _, hset⟩ := updateProbe_eq { s₁.2.kcp with ackcount := 0 }
    rw [hset]
  -- a probing command changes the command of the local and nothing else
  have hprobe : ∀ {s : IKCPSEG × Out} (ask : IUINT32) (cmd : IUINT8),
      (flushProbe ask cmd s).1.data = s.1.data
        ∧ ∀ cmd', { (flushProbe ask cmd s).1 with cmd := cmd' } = { s.1 with cmd := cmd' } := by
    intro s ask cmd
    obtain ⟨seg, out⟩ := s
    rw [flushProbe]
    split
    · exact ⟨rfl, fun _ => rfl⟩
    · exact ⟨rfl, fun _ => rfl⟩
  let s₃ := flushProbe ikcpAskSend ikcpCmdWask (s₁.1, out₂)
  have hask := flushProbe_laid ikcpAskSend ikcpCmdWask (s := (s₁.1, out₂)) (hlast ▸ hdata) h₂
  obtain ⟨hdata₃, hseg₃⟩ := hprobe (s := (s₁.1, out₂)) ikcpAskSend ikcpCmdWask
  have hkcp₃ : s₃.2.kcp = out₂.kcp := flushProbe_kcp ..
  have htell := flushProbe_laid ikcpAskTell ikcpCmdWins (s := s₃) (hdata₃.trans (hlast ▸ hdata)) hask
  rw [hkcp₃, hseg₃, List.append_assoc] at htell
  dsimp only at htell
  rw [hout, hlast] at htell
  -- the transfer that follows puts nothing on the wire
  rw [flushHead]
  refine Laid.upd (htell.upd rfl) ?_
  exact moveSndQueue_mtu ..

/-- What the data loop finds. -/
theorem flushHead_transferred (k : IKCPCB) : ∃ tsProbe probeWait, (flushHead k).2.kcp
    = { transferred k with ackcount := 0, tsProbe := tsProbe, probeWait := probeWait, probe := 0 } := by
  obtain ⟨tsProbe, probeWait, hhead⟩ := flushHead_kcp k
  refine ⟨tsProbe, probeWait, hhead.trans ?_⟩
  let kcp := { k with ackcount := 0, tsProbe := tsProbe, probeWait := probeWait, probe := 0 }
  have htake := moveSndQueue_take k.current (ikcpWndUnused k) (sendCwnd k) k.sndQueue (k := kcp) rfl
  have hnumber : ∀ queue, numberSegments kcp k.current (ikcpWndUnused k) k.sndNxt queue
      = numberSegments k k.current (ikcpWndUnused k) k.sndNxt queue := by
    apply numberSegments_congr
    · rfl
    · rfl
    · rfl
  rw [htake, transferTo, transferred, transferTo, ← hnumber]
  rfl

end Head

/-! ## The data loop -/

/-- A segment that the data loop would keep for a copy, if there is room in `dup_segs`. -/
def repeatable (a : FlushArgs) (kcp : IKCPCB) (segment : IKCPSEG) : Bool :=
  segmentDue a segment == .no && wantsDup a kcp segment 0

/-- The data loop in front of number `i`, started with the block `k` behind `segs`: the segments
    before it were transmitted if they were due, and the first of the others are in `dup_segs`.  The
    segments from `i` on are still those of `k` (`rest`), and so are those kept for a copy
    (`found`): a transmission writes at its own position only. -/
structure Transmitted (a : FlushArgs) (k : IKCPCB) (segs : List IKCPSEG) (i : Nat) (st : FlushSt) :
    Prop where
  laid : Laid k.mtu (segs ++ (k.sndBuf.take i).filterMap (transmission a k)) st.out
  rest : st.out.kcp.sndBuf.drop i = k.sndBuf.drop i
  una : st.out.kcp.rcvNxt = k.rcvNxt
  rto : st.out.kcp.rxRto = k.rxRto
  nodelay : st.out.kcp.nodelay = k.nodelay
  switch : st.out.kcp.dupsendOn = k.dupsendOn
  copies : st.out.kcp.dupsendcount = k.dupsendcount
  wait : st.out.kcp.dupsendWait = k.dupsendWait
  kept : st.dupSegs.filterMap (fun j => k.sndBuf[j]?)
    = ((k.sndBuf.take i).filter (repeatable a k)).take ikcpDupsendLen
  count : st.dupSegs.length = (((k.sndBuf.take i).filter (repeatable a k)).take ikcpDupsendLen).length
  nodup : st.dupSegs.Nodup
  found : ∀ j ∈ st.dupSegs, j < i ∧ st.out.kcp.sndBuf[j]? = k.sndBuf[j]?

section Data

variable {a : FlushArgs} {k : IKCPCB} {segs : List IKCPSEG} {i : Nat} {st : FlushSt} {segment : IKCPSEG}

/-- A transmission changes its own position only. -/
theorem flushSegment_other (a : FlushArgs) (i : Nat) (segment : IKCPSEG) (st : FlushSt) {j : Nat}
    (hj : i ≠ j) : (flushSegment a i segment st).out.kcp.sndBuf[j]? = st.out.kcp.sndBuf[j]? := by
  have hsend : ∀ segment' due, (sendSegment i segment'
      (st.out.upd fun kcp => dueKcp segment kcp due)).kcp.sndBuf[j]? = st.out.kcp.sndBuf[j]? := by
    intro segment' due
    obtain ⟨new, hnew⟩ := sendSegment_buf i segment' (st.out.upd fun kcp => dueKcp segment kcp due)
    rw [hnew, upd_kcp, (dueKcp_ground segment st.out.kcp due).2, List.getElem?_set_ne hj]
  rw [flushSegment]
  split
  · split
    · rfl
    · rfl
  · exact hsend _ _

theorem dueSegment_congr {k' : IKCPCB} (hrto : k'.rxRto = k.rxRto) (hnodelay : k'.nodelay = k.nodelay)
    (due : Due) : dueSegment a k' segment due = dueSegment a k segment due := by
  cases due with
  | first => rw [dueSegment, dueSegment, hrto]
  | timeout => rw [dueSegment, dueSegment, hrto, hnodelay]
  | fastack => rfl
  | no => rfl

/-- A segment that is due. -/
theorem Laid.send {mtu : Nat} {out : Out} (h : Laid mtu segs out) (i : Nat) (segment segment' : IKCPSEG)
    (due : Due) : Laid mtu (segs ++ [segment'])
      (sendSegment i segment' (out.upd fun kcp => dueKcp segment kcp due)) := by
  have hdue : (dueKcp segment out.kcp due).mtu = out.kcp.mtu := by
    obtain ⟨_, _, _, _, hset⟩ := dueKcp_eq segment out.kcp due
    rw [hset]
  rw [sendSegment]
  refine Laid.upd (Laid.put (Laid.upd (h.upd hdue) ?_) segment') ?_
  · rfl
  · rfl

/-- The tests for a copy are those with an empty `dup_segs`, and that for room in it. -/
theorem wantsDup_room (a : FlushArgs) (kcp : IKCPCB) (segment : IKCPSEG) (n : Nat) :
    wantsDup a kcp segment n = (wantsDup a kcp segment 0 && decide (n < ikcpDupsendLen)) := by
  have hzero : decide (0 < ikcpDupsendLen) = true := by decide
  rw [wantsDup, wantsDup, hzero]
  cases decide (n < ikcpDupsendLen) <;> simp

theorem take_snoc {α : Type} (l : List α) (x : α) (n : Nat) :
    (l ++ [x]).take n = l.take n ++ if l.length < n then [x] else [] := by
  rw [List.take_append]
  congr 1
  split
  · obtain ⟨m, hm⟩ : ∃ m, n - l.length = m + 1 := ⟨n - l.length - 1, by omega⟩
    rw [hm, List.take_succ_cons, List.take_nil]
  · have hzero : n - l.length = 0 := by omega
    rw [hzero, List.take_zero]

theorem Transmitted.next (h : Transmitted a k segs i st) (hi : st.out.kcp.sndBuf[i]? = some segment) :
    k.sndBuf[i]? = some segment ∧ k.sndBuf.take (i + 1) = k.sndBuf.take i ++ [segment] := by
  have hfound : k.sndBuf[i]? = some segment := by
    have hhead := congrArg List.head? h.rest
    rw [List.head?_drop, List.head?_drop, hi] at hhead
    exact hhead.symm
  refine ⟨hfound, ?_⟩
  rw [List.take_add_one, hfound]
  rfl

/-- What a round puts on the wire. -/
theorem Transmitted.lays (h : Transmitted a k segs i st) (hi : st.out.kcp.sndBuf[i]? = some segment) :
    Laid k.mtu (segs ++ (k.sndBuf.take (i + 1)).filterMap (transmission a k))
      (flushSegment a i segment st).out := by
  have hsend : ∀ due, Laid k.mtu (segs ++ (k.sndBuf.take i).filterMap (transmission a k)
      ++ [stamped a k.rcvNxt (dueSegment a k segment due)])
      (sendSegment i (stamped a st.out.kcp.rcvNxt (dueSegment a st.out.kcp segment due))
        (st.out.upd fun kcp => dueKcp segment kcp due)) := by
    intro due
    rw [h.una, dueSegment_congr h.rto h.nodelay]
    exact h.laid.send i segment _ due
  -- one segment adds its transmission, or nothing
  have hone : [segment].filterMap (transmission a k)
      = match segmentDue a segment with
        | .no => []
        | due => [stamped a k.rcvNxt (dueSegment a k segment due)] := by
    rw [List.filterMap_cons, List.filterMap_nil, transmission]
    cases segmentDue a segment <;> rfl
  rw [(h.next hi).2, List.filterMap_append, ← List.append_assoc, hone, flushSegment]
  cases hdue : segmentDue a segment with
  | no =>
    dsimp only
    rw [List.append_nil]
    split
    · exact h.laid
    · exact h.laid
  | first => exact hsend .first
  | timeout => exact hsend .timeout
  | fastack => exact hsend .fastack

/-- What a round keeps for a copy. -/
theorem Transmitted.keeps (h : Transmitted a k segs i st) (segment : IKCPSEG) :
    (flushSegment a i segment st).dupSegs = st.dupSegs
      ++ if repeatable a k segment = true ∧ st.dupSegs.length < ikcpDupsendLen then [i] else [] := by
  -- the tests read settings that no round changes
  have hwants : wantsDup a st.out.kcp segment st.dupSegs.length
      = (wantsDup a k segment 0 && decide (st.dupSegs.length < ikcpDupsendLen)) := by
    rw [wantsDup_room, wantsDup, h.switch, h.copies, h.wait, ← wantsDup]
  rw [flushSegment, repeatable]
  cases hdue : segmentDue a segment with
  | no =>
    dsimp only
    rw [hwants]
    by_cases hcopy : wantsDup a k segment 0 = true
    · by_cases hlt : st.dupSegs.length < ikcpDupsendLen
      · simp [hcopy, hlt]
      · simp [hcopy, hlt]
    · simp [hcopy]
  | first => exact (List.append_nil _).symm
  | timeout => exact (List.append_nil _).symm
  | fastack => exact (List.append_nil _).symm

/-- **A round of the data loop.** -/
theorem Transmitted.round (h : Transmitted a k segs i st) (hi : st.out.kcp.sndBuf[i]? = some segment) :
    Transmitted a k segs (i + 1) (flushSegment a i segment st) := by
  obtain ⟨_, _, _, _, _, _, hset⟩ := flushSegment_eq a i segment st
  obtain ⟨hfound, htake⟩ := h.next hi
  have hrest : (flushSegment a i segment st).out.kcp.sndBuf.drop (i + 1) = k.sndBuf.drop (i + 1) := by
    rw [(flushSegment_buf a i segment st).2, ← List.drop_drop, h.rest, List.drop_drop]
  have hold : ∀ j ∈ st.dupSegs, j < i + 1
      ∧ (flushSegment a i segment st).out.kcp.sndBuf[j]? = k.sndBuf[j]? := by
    intro j hj
    obtain ⟨hlt, hsame⟩ := h.found j hj
    refine ⟨by omega, ?_⟩
    rw [flushSegment_other a i segment st (by omega), hsame]
  -- room in the table is room among the first 32 that qualify
  have hroom : st.dupSegs.length < ikcpDupsendLen
      ↔ ((k.sndBuf.take i).filter (repeatable a k)).length < ikcpDupsendLen := by
    rw [h.count, List.length_take]
    omega
  have hkeeps := h.keeps segment
  have hfilter : ((k.sndBuf.take (i + 1)).filter (repeatable a k)).take ikcpDupsendLen
      = ((k.sndBuf.take i).filter (repeatable a k)).take ikcpDupsendLen
        ++ if repeatable a k segment = true ∧ st.dupSegs.length < ikcpDupsendLen then [segment] else [] := by
    rw [htake, List.filter_append, List.filter_cons, List.filter_nil]
    by_cases hcopy : repeatable a k segment = true
    · simp only [hcopy, hroom, if_true, true_and]
      exact take_snoc _ _ _
    · simp [hcopy]
  -- a segment that is kept for a copy was not transmitted in this round
  have hno : repeatable a k segment = true → (flushSegment a i segment st).out.kcp.sndBuf[i]? = k.sndBuf[i]? := by
    intro hcopy
    have hdue : segmentDue a segment = .no := by
      rw [repeatable, Bool.and_eq_true] at hcopy
      exact eq_of_beq hcopy.1
    rw [flushSegment, hdue]
    dsimp only
    split
    · rw [hi, hfound]
    · rw [hi, hfound]
  constructor
  · exact h.lays hi
  · exact hrest
  · rw [hset]
    exact h.una
  · rw [hset]
    exact h.rto
  · rw [hset]
    exact h.nodelay
  · rw [hset]
    exact h.switch
  · rw [hset]
    exact h.copies
  · rw [hset]
    exact h.wait
  · rw [hkeeps, hfilter, List.filterMap_append, h.kept]
    split
    · rw [List.filterMap_cons_some hfound, List.filterMap_nil]
    · rfl
  · rw [hkeeps, hfilter, List.length_append, List.length_append, h.count]
    split
    · rfl
    · rfl
  · rw [hkeeps]
    split
    · refine List.nodup_append.mpr ⟨h.nodup, List.nodup_singleton i, fun j hj l hl => ?_⟩
      rw [List.mem_singleton.mp hl]
      exact Nat.ne_of_lt (h.found j hj).1
    · rw [List.append_nil]
      exact h.nodup
  · intro j hj
    rw [hkeeps] at hj
    rcases List.mem_append.mp hj with hj | hj
    · exact hold j hj
    · split at hj
      · rename_i hcopy
        rw [List.mem_singleton.mp hj]
        exact ⟨Nat.lt_succ_self i, hno hcopy.1⟩
      · exact absurd hj List.not_mem_nil

/-! ## The copies -/

/-- The loop over `dup_segs`, at positions whose segments are those of `k`.  The positions are
    distinct, so no copy is made of a segment that was just changed by another one. -/
theorem flushDups_laid {is : List Nat} (hnodup : is.Nodup) {out : Out} (h : Laid k.mtu segs out)
    (huna : out.kcp.rcvNxt = k.rcvNxt) (hfound : ∀ j ∈ is, out.kcp.sndBuf[j]? = k.sndBuf[j]?) :
    Laid k.mtu (segs ++ (is.filterMap fun j => k.sndBuf[j]?).map (copySeg a k.rcvNxt))
      (flushDups a is out) := by
  induction is generalizing out segs with
  | nil =>
    rw [List.filterMap_nil, List.map_nil, List.append_nil]
    exact h
  | cons i is ih =>
    obtain ⟨hnew, hnodup⟩ := List.nodup_cons.mp hnodup
    have hi := hfound i (List.mem_cons_self ..)
    rw [flushDups, hi]
    cases hseg : k.sndBuf[i]? with
    | none =>
      rw [List.filterMap_cons_none hseg]
      exact ih hnodup h huna fun j hj => hfound j (List.mem_cons_of_mem _ hj)
    | some seg =>
      have hroom : (makeRoom (ikcpOverhead + seg.len) out).kcp = out.kcp := makeRoom_kcp _ out
      dsimp only
      rw [List.filterMap_cons_some hseg, List.map_cons, List.append_cons, hroom, huna]
      refine ih hnodup ?_ ?_ ?_
      · have hput := h.put (copySeg a k.rcvNxt seg)
        exact ⟨hput.cap, hput.sent, hput.ptr⟩
      · show (makeRoom (ikcpOverhead + seg.len) out).kcp.rcvNxt = k.rcvNxt
        rw [hroom, huna]
      · intro j hj
        have hne : i ≠ j := fun he => hnew (he ▸ hj)
        show ((makeRoom (ikcpOverhead + seg.len) out).kcp.sndBuf.set i _)[j]? = _
        rw [hroom, List.getElem?_set_ne hne]
        exact hfound j (List.mem_cons_of_mem _ hj)

end Data

/-! ## `pvp_ikcp_flush` -/

/-- **`pvp_ikcp_flush`, without its loops**: the acknowledgements, the probing commands, the segments that
    are due and the copies, packed into as few datagrams as can be. -/
theorem pvpIkcpFlush_laid {k : IKCPCB} (h : k.updated = true) :
    (pvpIkcpFlush k).2.map Prod.snd = datagrams (pack k.mtu segSize (flushSegs k)) := by
  obtain ⟨tsProbe, probeWait, hhead⟩ := flushHead_transferred k
  let a := flushArgs k (ikcpWndUnused k)
  let kcp := (flushHead k).2.kcp
  have hkcp : kcp = { transferred k with
      ackcount := 0, tsProbe := tsProbe, probeWait := probeWait, probe := 0 } := hhead
  have hargs : flushArgs kcp (ikcpWndUnused k) = a := by
    rw [hkcp]
    rfl
  have hmtu : kcp.mtu = k.mtu := by
    rw [hkcp]
    rfl
  have hbuf : kcp.sndBuf = (transferred k).sndBuf := by
    rw [hkcp]
  have htransmission : transmission a kcp = transmission a k := by
    funext segment
    rw [hkcp, transmission, transmission]
    cases segmentDue a segment <;> rfl
  -- the test of the loop is that of `CopyDue`, on the same settings
  have hcopy : ∀ seg, repeatable a kcp seg = decide (CopyDue k seg) := by
    intro seg
    rw [Bool.eq_iff_iff, decide_eq_true_iff, repeatable, Bool.and_eq_true, beq_iff_eq, hkcp]
    rfl
  -- the loop, from the head to the end of `snd_buf`
  let st := flushData a kcp.sndBuf.length 0 { out := (flushHead k).2 }
  have hst : Transmitted a kcp (ackSegs k ++ probeSegs k) (0 + kcp.sndBuf.length) st := by
    refine flushData_rule (fun i segment st h hi => Transmitted.round h hi) _ 0 _ (Nat.zero_add _) ?_
    refine ⟨?_, rfl, rfl, rfl, rfl, rfl, rfl, rfl, rfl, rfl, List.nodup_nil, ?_⟩
    · rw [List.take_zero, List.filterMap_nil, List.append_nil, hmtu]
      exact flushHead_laid k
    · exact fun j hj => absurd hj List.not_mem_nil
  have hlaid := hst.laid
  have hkept := hst.kept
  rw [Nat.zero_add, List.take_length, htransmission, hbuf] at hlaid
  rw [Nat.zero_add, List.take_length, hbuf, funext hcopy] at hkept
  have huna : kcp.rcvNxt = k.rcvNxt := by
    rw [hkcp]
    rfl
  -- the copies, and then what is left in the buffer
  have hdups := flushDups_laid (a := a) hst.nodup hlaid hst.una fun j hj => (hst.found j hj).2
  rw [hbuf, hkept, huna, hmtu] at hdups
  have hflush : (pvpIkcpFlush k).2 = (ikcpOutput (flushDups a st.dupSegs st.out)).sent := by
    rw [pvpIkcpFlush, if_neg (by rw [h]; exact Bool.noConfusion)]
    show (ikcpOutput (flushDups (flushArgs kcp _) (flushData (flushArgs kcp _) _ 0 _).dupSegs
      (flushData (flushArgs kcp _) _ 0 _).out)).sent = _
    rw [hargs]
  rw [hflush, hdups.done]
  rfl

/-! ## `pvp_ikcp_send_ex` -/

/-- A segment as the fast path sends it first. -/
def launched (kcp : IKCPCB) (seg : IKCPSEG) : IKCPSEG :=
  let rto : IUINT32 := BitVec.ofInt 32 kcp.rxRto
  { seg with
    firstTs := kcp.current, xmit := 1, rto := rto, resendts := kcp.current + rto + sendRtomin kcp,
    ts := kcp.current }

/-- What the loop of the fast path sends of `queue` with the block `kcp`, its locals being of `k`. -/
def launchedFrom (k : IKCPCB) (queue : List IKCPSEG) (kcp : IKCPCB) : List IKCPSEG :=
  (numberSegments k k.current (ikcpWndUnused k) kcp.sndNxt
    (queue.take (windowRoom kcp (sendCwnd k)))).map (launched k)

/-- What the fast path transfers, as it sends it: as many as the window has room for, under the next
    numbers. -/
def newSegs (kcp : IKCPCB) : List IKCPSEG := launchedFrom kcp kcp.sndQueue kcp

/-- A redundant copy of the fast path. -/
def backSeg (kcp : IKCPCB) (seg : IKCPSEG) : IKCPSEG :=
  { seg with
    ts := kcp.current, wnd := ikcpWndUnused kcp, una := kcp.rcvNxt, xmit := seg.xmit + 1
    cmd := ikcpCmdDups }

/-- The bytes in the open datagram once the acknowledgements and the new segments are written. -/
def openLoad (kcp : IKCPCB) : Nat := load segSize (fill kcp.mtu segSize (ackSegs kcp ++ newSegs kcp)).last

/-- The copies of the fast path: of the older segments, from the last one back, as many as are asked
    for and fit the open datagram.  The walk ends at the first that does not fit (`topUp`). -/
def backSegs (kcp : IKCPCB) : List IKCPSEG :=
  (topUp segSize (kcp.mtu - openLoad kcp) (kcp.sndBuf.reverse.take kcp.dupsendcount.toNat)).map (backSeg kcp)

/-- **All segments of the fast path**, in order.  The older segments are looked at only if something
    new was sent. -/
def sendExSegs (kcp : IKCPCB) : List IKCPSEG :=
  ackSegs kcp ++ newSegs kcp ++ if newSegs kcp = [] then [] else backSegs kcp

section Fast

variable {mtu : Nat} {segs : List IKCPSEG}

/-- The acknowledgements of the fast path. -/
theorem afterAcks_laid (k : IKCPCB) : Laid k.mtu (ackSegs k) (afterAcks k) := by
  obtain ⟨hacks, -⟩ := flushAcks_laid k.ackcount 0 (s := (controlSeg k, { kcp := k })) rfl (.start k)
  rw [List.nil_append, ← List.range_eq_range'] at hacks
  exact hacks.upd rfl

/-- Between `out` and `out'`, the fast path has sent `sent` behind `segs`. -/
structure Launched (k : IKCPCB) (segs sent : List IKCPSEG) (out out' : Out) : Prop where
  laid : Laid k.mtu (segs ++ sent) out'
  sndBuf : out'.kcp.sndBuf = out.kcp.sndBuf ++ sent
  nxt : out'.kcp.sndNxt = out.kcp.sndNxt + BitVec.ofNat 32 sent.length
  una : out'.kcp.rcvNxt = out.kcp.rcvNxt

theorem Launched.nothing {k : IKCPCB} {sent : List IKCPSEG} {out : Out} (h : Laid k.mtu segs out)
    (hsent : sent = []) : Launched k segs sent out out := by
  rw [hsent]
  refine ⟨?_, (List.append_nil _).symm, (BitVec.add_zero _).symm, rfl⟩
  rw [List.append_nil]
  exact h

/-- The loop, by induction on the segments of `snd_queue`. -/
theorem sendExLoop_laid (k : IKCPCB) (queue : List IKCPSEG) {out : Out} (h : Laid k.mtu segs out)
    (hconv : out.kcp.conv = k.conv) (huna : out.kcp.rcvNxt = k.rcvNxt) (hrto : out.kcp.rxRto = k.rxRto) :
    Launched k segs (launchedFrom k queue out.kcp) out
      (sendExLoop k.current (ikcpWndUnused k) (sendCwnd k) (sendRtomin k) queue out) := by
  let a := flushArgs k (ikcpWndUnused k)
  induction queue generalizing out segs with
  | nil =>
    refine .nothing h ?_
    rw [launchedFrom, List.take_nil, numberSegments, List.map_nil]
  | cons seg rest ih =>
    -- room for one more: it is moved, stamped and sent in one round
    by_cases hopen : itimediff out.kcp.sndNxt (out.kcp.sndUna + sendCwnd k) < 0
    · have hfirst : firstSent a out.kcp seg
          = launched k { newSegment k a.current a.wnd seg with sn := out.kcp.sndNxt } := by
        rw [firstSent, launched, newSegment, newSegment, hconv, huna, hrto]
        rfl
      have hkcp := sendExRound_kcp a seg rest out
      have hround : Laid k.mtu (segs ++ [firstSent a out.kcp seg]) (sendExRound a seg rest out) := by
        rw [sendExRound]
        exact Laid.put (h.upd rfl) (firstSent a out.kcp seg)
      have hsent : launchedFrom k (seg :: rest) out.kcp = firstSent a out.kcp seg
          :: launchedFrom k rest (sendExRound a seg rest out).kcp := by
        have hroom : windowRoom out.kcp (sendCwnd k)
            = windowRoom (sendExRound a seg rest out).kcp (sendCwnd k) + 1 := by
          rw [hkcp]
          exact windowRoom_next hopen rfl rfl
        rw [launchedFrom, launchedFrom, hroom, List.take_succ_cons, numberSegments, List.map_cons, hfirst, hkcp]
        rfl
      have hloop : sendExLoop k.current (ikcpWndUnused k) (sendCwnd k) (sendRtomin k) (seg :: rest) out
          = sendExLoop k.current (ikcpWndUnused k) (sendCwnd k) (sendRtomin k) rest
            (sendExRound a seg rest out) := sendExLoop_cons (a := a) hopen
      obtain ⟨hlaid, hbuf, hnxt, huna'⟩ := ih hround (by rw [hkcp]; exact hconv) (by rw [hkcp]; exact huna)
        (by rw [hkcp]; exact hrto)
      have hone : (sendExRound a seg rest out).kcp.sndNxt = out.kcp.sndNxt + 1 := by
        rw [hkcp]
        rfl
      have hsame : (sendExRound a seg rest out).kcp.rcvNxt = out.kcp.rcvNxt := by
        rw [hkcp]
        rfl
      rw [sendExRound_sndBuf, List.append_assoc] at hbuf
      rw [List.append_assoc] at hlaid
      rw [hloop, hsent]
      refine ⟨hlaid, hbuf, ?_, huna'.trans hsame⟩
      rw [hnxt, hone, List.length_cons, Nat.add_comm, BitVec.ofNat_add, ← BitVec.add_assoc]
      rfl
    · rw [sendExLoop, if_neg hopen]
      refine .nothing h ?_
      rw [launchedFrom, windowRoom_closed hopen, List.take_zero, numberSegments, List.map_nil]

/-- The walk back: the copies fit.  Induction on the position. -/
theorem sendExDups_laid {k : IKCPCB} (i n : Nat) {out : Out} (h : Laid mtu segs out)
    (huna : out.kcp.rcvNxt = k.rcvNxt) (hlen : i ≤ out.kcp.sndBuf.length) :
    Laid mtu (segs ++ (topUp segSize (mtu - out.ptr.length)
        ((out.kcp.sndBuf.take i).reverse.take (out.kcp.dupsendcount.toNat - n))).map (backSeg k))
      (sendExDups k.current (ikcpWndUnused k) i n out) := by
  induction i generalizing n out segs with
  | zero =>
    rw [List.take_zero, List.reverse_nil, List.take_nil, topUp, List.map_nil, List.append_nil]
    exact h
  | succ i ih =>
    have hi : out.kcp.sndBuf[i]? = some out.kcp.sndBuf[i] := List.getElem?_eq_getElem hlen
    have htake : (out.kcp.sndBuf.take (i + 1)).reverse
        = out.kcp.sndBuf[i] :: (out.kcp.sndBuf.take i).reverse := by
      rw [List.take_add_one, hi, Option.toList_some, List.reverse_append]
      rfl
    have hcap := h.cap
    rw [sendExDups, hi]
    dsimp only
    rw [htake]
    generalize out.kcp.sndBuf[i] = seg at hi
    -- no room in the datagram: the walk ends, as `topUp` does
    by_cases hfull : out.ptr.length + (ikcpOverhead + seg.len) > out.kcp.mtu
    · have hnone : topUp segSize (mtu - out.ptr.length)
          ((seg :: (out.kcp.sndBuf.take i).reverse).take (out.kcp.dupsendcount.toNat - n)) = [] := by
        cases out.kcp.dupsendcount.toNat - n with
        | zero => rfl
        | succ m =>
          have hbig : segSize seg > mtu - out.ptr.length := by
            rw [segSize, ikcpOverhead] at *
            omega
          rw [List.take_succ_cons, topUp, if_pos hbig]
      rw [if_pos hfull, hnone, List.map_nil, List.append_nil]
      exact h
    rw [if_neg hfull]
    -- enough copies
    by_cases hmany : n ≥ out.kcp.dupsendcount.toNat
    · have hzero : out.kcp.dupsendcount.toNat - n = 0 := by omega
      rw [if_pos hmany, hzero, List.take_zero, topUp, List.map_nil, List.append_nil]
      exact h
    · rw [if_neg hmany, huna]
      let copy := { seg with
        ts := k.current, wnd := ikcpWndUnused k, una := k.rcvNxt, xmit := seg.xmit + 1 }
      -- the copy fits, so it is put without making room
      have hput : Laid mtu (segs ++ [backSeg k seg]) (sendDup i copy out) := by
        have hfits : Laid mtu (segs ++ [backSeg k seg]) (out.put (ikcpSegBytes (backSeg k seg))) :=
          h.fits hfull
        exact ⟨hfits.cap, hfits.sent, hfits.ptr⟩
      have hptr : (sendDup i copy out).ptr.length = out.ptr.length + segSize seg := by
        show (out.ptr ++ ikcpSegBytes (backSeg k seg)).length = _
        rw [List.length_append, length_ikcpSegBytes]
        rfl
      have hbuf : (sendDup i copy out).kcp.sndBuf.take i = out.kcp.sndBuf.take i :=
        List.take_set_of_le (Nat.le_refl i)
      have hsame : (sendDup i copy out).kcp.sndBuf.length = out.kcp.sndBuf.length := List.length_set
      have hrest := ih (n + 1) hput huna (by omega)
      obtain ⟨m, hm⟩ : ∃ m, out.kcp.dupsendcount.toNat - n = m + 1 :=
        ⟨out.kcp.dupsendcount.toNat - n - 1, by omega⟩
      have hm' : (sendDup i copy out).kcp.dupsendcount.toNat - (n + 1) = m := by
        show out.kcp.dupsendcount.toNat - (n + 1) = m
        omega
      have hfits : ¬ segSize seg > mtu - out.ptr.length := by
        rw [segSize]
        omega
      rw [hptr, hbuf, hm', List.append_assoc] at hrest
      rw [hm, List.take_succ_cons, topUp, if_neg hfits, List.map_cons, Nat.sub_sub]
      exact hrest

/-- The fast path in front of its copies. -/
theorem fastData_launched (k : IKCPCB) : Launched k (ackSegs k) (newSegs k) { kcp := k } (fastData k) := by
  have hkcp := afterAcks_kcp k
  obtain ⟨hlaid, hbuf, hnxt, huna⟩ := sendExLoop_laid k k.sndQueue (afterAcks_laid k) (by rw [hkcp])
    (by rw [hkcp]) (by rw [hkcp])
  rw [hkcp] at hlaid hbuf hnxt huna
  exact ⟨hlaid, hbuf, hnxt, huna⟩

/-- **`pvp_ikcp_send_ex` past `pvp_ikcp_send`, without its loops.** -/
theorem sendExFlush_laid {k kcp : IKCPCB} {current : IUINT32}
    (hk : (if current.toNat > 0 then { kcp with current := current } else kcp) = k) :
    (sendExFlush kcp current).sent.map Prod.snd = datagrams (pack k.mtu segSize (sendExSegs k)) := by
  obtain ⟨hlaid, hbuf, -, huna⟩ := fastData_launched k
  have hbuf : (fastData k).kcp.sndBuf = k.sndBuf ++ newSegs k := hbuf
  rw [sendExFlush_fast hk, sendExSegs]
  by_cases hnone : newSegs k = []
  · have hsame : ¬ k.sndBuf.length < (fastData k).kcp.sndBuf.length := by
      rw [hbuf, hnone, List.append_nil]
      exact Nat.lt_irrefl _
    rw [if_neg hsame, if_pos hnone, List.append_nil]
    exact hlaid.done
  · have hmore : k.sndBuf.length < (fastData k).kcp.sndBuf.length := by
      have hpos := List.length_pos_of_ne_nil hnone
      rw [hbuf, List.length_append]
      omega
    have hdups := sendExDups_laid (k := k) k.sndBuf.length 0 hlaid huna (Nat.le_of_lt hmore)
    have hcount := (fastData_added k).dupsendcount
    rw [hbuf, List.take_left, hcount, Nat.sub_zero, hlaid.length] at hdups
    rw [if_pos hmore, if_neg hnone]
    exact hdups.done

/-- **The copies of the fast path take no datagram of their own.** -/
theorem length_sendExSegs (k : IKCPCB) : (pack k.mtu segSize (sendExSegs k)).length
    = (pack k.mtu segSize (ackSegs k ++ newSegs k)).length := by
  have hbare : ∀ {copies : List IKCPSEG}, copies = [] →
      (pack k.mtu segSize (ackSegs k ++ newSegs k ++ copies)).length
        = (pack k.mtu segSize (ackSegs k ++ newSegs k)).length := by
    rintro _ rfl
    rw [List.append_nil]
  rw [sendExSegs]
  split
  · exact hbare rfl
  rename_i hnew
  cases hcopies : backSegs k with
  | nil => exact hbare rfl
  | cons seg copies =>
    let last := (fill k.mtu segSize (ackSegs k ++ newSegs k)).last
    -- together they fit what is left of the open datagram
    have hload : load segSize (backSegs k) ≤ k.mtu - load segSize last := by
      have hsame : (segSize ∘ backSeg k) = segSize := rfl
      rw [backSegs, load, List.map_map, hsame]
      exact load_topUp _ _
    rw [hcopies] at hload
    have hpos : 0 < load segSize (seg :: copies) := by
      rw [load, List.map_cons, List.sum_cons, segSize, ikcpOverhead]
      omega
    refine length_pack_fits (List.append_ne_nil_of_right_ne_nil _ hnew) ?_
    show load segSize last + _ ≤ k.mtu
    omega

end Fast

/-! ## The datagrams -/

/-- What greedy packing makes of segments: no datagram is empty, and none has more than `mtu` bytes if no
    segment has. -/
theorem datagrams_pack (mtu : Nat) (segs : List IKCPSEG) :
    (∀ d ∈ datagrams (pack mtu segSize segs), d ≠ [])
      ∧ ((∀ seg ∈ segs, segSize seg ≤ mtu) → ∀ d ∈ datagrams (pack mtu segSize segs), d.length ≤ mtu) := by
  constructor
  · intro d hd hempty
    obtain ⟨box, hbox, rfl⟩ := List.mem_map.mp hd
    cases hfirst : box with
    | nil => exact pack_ne_nil segs box hbox hfirst
    | cons seg rest =>
      have hlen := congrArg List.length hempty
      rw [hfirst, length_flatMap_segBytes, load, List.map_cons, List.sum_cons, segSize, ikcpOverhead,
        List.length_nil] at hlen
      omega
  · intro hfit d hd
    obtain ⟨box, hbox, rfl⟩ := List.mem_map.mp hd
    rw [length_flatMap_segBytes]
    exact load_pack hfit box hbox

/-- **What a flush sends**: the packing of its segments, in which no datagram is empty and none has more
    than `mtu` bytes if no segment has; and no other cut of them into datagrams of the `mtu` takes fewer. -/
theorem flush_datagrams {k : IKCPCB} (h : k.updated = true) :
    (pvpIkcpFlush k).2.map Prod.snd = datagrams (pack k.mtu segSize (flushSegs k))
      ∧ (∀ d ∈ (pvpIkcpFlush k).2.map Prod.snd, d ≠ [])
      ∧ ((∀ seg ∈ flushSegs k, segSize seg ≤ k.mtu) →
        ∀ d ∈ (pvpIkcpFlush k).2.map Prod.snd, d.length ≤ k.mtu)
      ∧ ∀ boxes : List (List IKCPSEG), boxes.flatten = flushSegs k →
        (∀ box ∈ boxes, load segSize box ≤ k.mtu) → (pvpIkcpFlush k).2.length ≤ boxes.length := by
  have hlaid := pvpIkcpFlush_laid h
  obtain ⟨hnonempty, hbound⟩ := datagrams_pack k.mtu (flushSegs k)
  rw [← hlaid] at hnonempty hbound
  refine ⟨hlaid, hnonempty, hbound, fun boxes hboxes hfit => ?_⟩
  have hlen := congrArg List.length hlaid
  rw [List.length_map, datagrams, List.length_map, ← hboxes] at hlen
  rw [hlen]
  exact pack_fewest hfit

/-- A block that was configured for `count` copies. -/
def dupBlock (count : Int) : IKCPCB :=
  pvpIkcpSetdupsend (pvpIkcpNodelay (pvpIkcpCreate 7) 1 10 0 1) count 0 0 0 0

/-- A block with a segment in flight that may be repeated once, an acknowledgement due, and the question
    about its window to be answered. -/
def sampleBusy : IKCPCB :=
  let k := (pvpIkcpUpdate (dupBlock 1) 10).1
  let k := (pvpIkcpSendEx k [1, 2] 20).2.1
  (pvpIkcpInput k (ikcpSegBytes { conv := 7, cmd := ikcpCmdPush, wnd := 32, data := [9] }
    ++ ikcpSegBytes { conv := 7, cmd := ikcpCmdWask, wnd := 32 }) 30).2

/-- With a second message queued, at the time of a flush. -/
def sampleDue : IKCPCB := (updateHead (pvpIkcpSend sampleBusy [3] 50).2 60).2

/-- The acknowledgement, the answer, the new segment and the copy leave together. -/
theorem flush_datagrams_mixed :
    (flushSegs sampleDue).map IKCPSEG.cmd = [ikcpCmdAck, ikcpCmdWins, ikcpCmdPush, ikcpCmdDups]
      ∧ (pvpIkcpFlush sampleDue).2.length ≤ 1
      ∧ ∀ d ∈ (pvpIkcpFlush sampleDue).2.map Prod.snd, d.length ≤ 1400 := by
  have hup : sampleDue.updated = true := by decide +kernel
  have hmtu : sampleDue.mtu = 1400 := by decide +kernel
  obtain ⟨-, -, hbound, hfewest⟩ := flush_datagrams hup
  rw [hmtu] at hbound hfewest
  refine ⟨by decide +kernel, ?_, hbound (by decide +kernel)⟩
  refine hfewest [flushSegs sampleDue] (List.flatten_singleton ..) fun box hbox => ?_
  rw [List.mem_singleton.mp hbox]
  decide +kernel

/-- The block in which `pvp_ikcp_send_ex` sends a message. -/
def sendExBlock (kcp : IKCPCB) (msg : List Byte) (current : IUINT32) : IKCPCB :=
  let kcp := (pvpIkcpSend kcp msg current).2
  if current.toNat > 0 then { kcp with current := current } else kcp

/-- **What the fast path sends**, with a message that is taken and a block in use: the packing of its
    segments, bounded as that of a flush; the copies are as many as are asked for and fit the open
    datagram; and although they ride along, no cut of the rest takes fewer datagrams. -/
theorem sendEx_datagrams {kcp k : IKCPCB} {msg : List Byte} {current : IUINT32}
    (hk : sendExBlock kcp msg current = k) (hret : (pvpIkcpSend kcp msg current).1 = 0)
    (hup : k.updated = true) :
    (pvpIkcpSendEx kcp msg current).2.2.map Prod.snd = datagrams (pack k.mtu segSize (sendExSegs k))
      ∧ (∀ d ∈ (pvpIkcpSendEx kcp msg current).2.2.map Prod.snd, d ≠ [])
      ∧ ((∀ seg ∈ sendExSegs k, segSize seg ≤ k.mtu) →
        ∀ d ∈ (pvpIkcpSendEx kcp msg current).2.2.map Prod.snd, d.length ≤ k.mtu)
      ∧ (∀ front, front <+: k.sndBuf.reverse.take k.dupsendcount.toNat →
        openLoad k + load segSize front ≤ k.mtu → front.map (backSeg k) <+: backSegs k)
      ∧ ∀ boxes : List (List IKCPSEG), boxes.flatten = ackSegs k ++ newSegs k →
        (∀ box ∈ boxes, load segSize box ≤ k.mtu) →
          (pvpIkcpSendEx kcp msg current).2.2.length ≤ boxes.length := by
  have hup' : (pvpIkcpSend kcp msg current).2.updated = true := by
    rw [← hk, sendExBlock] at hup
    split at hup
    · exact hup
    · exact hup
  have hsent : (pvpIkcpSendEx kcp msg current).2.2
      = (sendExFlush (pvpIkcpSend kcp msg current).2 current).sent := by
    rw [pvpIkcpSendEx]
    dsimp only
    rw [if_neg (not_not_intro hret), if_neg (by rw [hup']; exact Bool.noConfusion)]
  have hlaid := sendExFlush_laid hk
  obtain ⟨hnonempty, hbound⟩ := datagrams_pack k.mtu (sendExSegs k)
  rw [← hlaid] at hnonempty hbound
  rw [hsent]
  refine ⟨hlaid, hnonempty, hbound, fun front hfront hload => ?_, fun boxes hboxes hfit => ?_⟩
  · exact (topUp_most hfront (by omega)).map _
  have hlen := congrArg List.length hlaid
  rw [List.length_map, datagrams, List.length_map, length_sendExSegs, ← hboxes] at hlen
  rw [hlen]
  exact pack_fewest hfit

/-- A second message, sent at once, takes the acknowledgement and a copy of the first one along. -/
theorem sendEx_datagrams_mixed :
    (sendExSegs (sendExBlock sampleBusy [3] 50)).map IKCPSEG.cmd = [ikcpCmdAck, ikcpCmdPush, ikcpCmdDups]
      ∧ (pvpIkcpSendEx sampleBusy [3] 50).2.2.length ≤ 1
      ∧ ∀ d ∈ (pvpIkcpSendEx sampleBusy [3] 50).2.2.map Prod.snd, d.length ≤ 1400 := by
  have hret : (pvpIkcpSend sampleBusy [3] 50).1 = 0 := by decide +kernel
  have hup : (sendExBlock sampleBusy [3] 50).updated = true := by decide +kernel
  have hmtu : (sendExBlock sampleBusy [3] 50).mtu = 1400 := by decide +kernel
  obtain ⟨-, -, hbound, -, hfewest⟩ := sendEx_datagrams rfl hret hup
  rw [hmtu] at hbound hfewest
  refine ⟨by decide +kernel, ?_, hbound (by decide +kernel)⟩
  refine hfewest [_] (List.flatten_singleton ..) fun box hbox => ?_
  rw [List.mem_singleton.mp hbox]
  decide +kernel

end ConnClient.Ikcp
