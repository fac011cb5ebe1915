/-
  `ikcp.cpp` — `pvp_ikcp_input` and the `ikcp_parse_*` functions it drives.

  The loop of `pvp_ikcp_input` is split in two.  `parseSeg` is what one round reads and checks: the
  header at the pointer, `conv` before `len` before `cmd`; it looks at nothing of the control block
  but `conv`, which no operation changes.  `inputSeg` is what one round does with a segment that
  passed.  `inputLoop` strings them together and keeps the state changes of the segments before an
  offending one, as the source does.
-/
import ConnClient.Ikcp.Queue

namespace ConnClient.Ikcp

open ConnClient.Lib

/-! ## Acknowledgements -/

/-- `ikcp_update_rtt`, called with `rtt > 0`. -/
def ikcpUpdateRtt (kcp : IKCPCB) (rtt : Int) : IKCPCB :=
  let (srtt, rttval) :=
    if kcp.rxSrtt = 0 then (rtt, rtt.tdiv 2)
    else
      let delta := if rtt - kcp.rxSrtt < 0 then -(rtt - kcp.rxSrtt) else rtt - kcp.rxSrtt
      let srtt := (7 * kcp.rxSrtt + rtt).tdiv 8
      (if srtt < 1 then 1 else srtt, (3 * kcp.rxRttval + delta).tdiv 4)
  let rto := srtt + max (kcp.interval.toNat : Int) (4 * rttval)
  let minrto : Int := (BitVec.ofInt 32 kcp.rxMinrto).toNat
  { kcp with curRtt := rtt, rxSrtt := srtt, rxRttval := rttval,
             rxRto := min (max minrto rto) ikcpRtoMax }

/-- `ikcp_shrink_buf` -/
def ikcpShrinkBuf (kcp : IKCPCB) : IKCPCB :=
  match kcp.sndBuf with
  | seg :: _ => { kcp with sndUna := seg.sn }
  | [] => { kcp with sndUna := kcp.sndNxt }

theorem ikcpShrinkBuf_eq (kcp : IKCPCB) :
    ∃ sndUna, ikcpShrinkBuf kcp = { kcp with sndUna := sndUna } := by
  rw [ikcpShrinkBuf]
  split <;> exact ⟨_, rfl⟩

/-- The timing of an acknowledged segment. -/
def ackRtt (kcp : IKCPCB) (seg : IKCPSEG) : IKCPCB :=
  let rtt := itimediff kcp.current seg.firstTs
  if rtt > 0 then ikcpUpdateRtt kcp rtt else kcp

theorem ackRtt_eq (kcp : IKCPCB) (seg : IKCPSEG) :
    ∃ curRtt rxSrtt rxRttval rxRto, ackRtt kcp seg
      = { kcp with curRtt := curRtt, rxSrtt := rxSrtt, rxRttval := rxRttval, rxRto := rxRto } := by
  rw [ackRtt]
  split <;> exact ⟨_, _, _, _, rfl⟩

/-- The search loop of `ikcp_parse_ack`: the segment numbered `sn`, if it comes before the first
    larger number, and the other segments. -/
def findAck (sn : IUINT32) : List IKCPSEG → Option (IKCPSEG × List IKCPSEG)
  | [] => none
  | seg :: rest =>
    if sn = seg.sn then some (seg, rest)
    else if itimediff sn seg.sn < 0 then none
    else (findAck sn rest).map fun (found, rest) => (found, seg :: rest)

/-- `ikcp_parse_ack` -/
def ikcpParseAck (kcp : IKCPCB) (sn : IUINT32) : IKCPCB :=
  if itimediff sn kcp.sndUna < 0 ∨ itimediff sn kcp.sndNxt ≥ 0 then kcp
  else
    match findAck sn kcp.sndBuf with
    | none => kcp
    | some (seg, rest) =>
      { ackRtt kcp seg with sndBuf := rest, nsndBuf := kcp.nsndBuf - 1 }

theorem ikcpParseAck_eq (kcp : IKCPCB) (sn : IUINT32) :
    ∃ curRtt rxSrtt rxRttval rxRto sndBuf nsndBuf, ikcpParseAck kcp sn
      = { kcp with curRtt := curRtt, rxSrtt := rxSrtt, rxRttval := rxRttval, rxRto := rxRto,
                   sndBuf := sndBuf, nsndBuf := nsndBuf } := by
  rw [ikcpParseAck]
  split
  · exact ⟨_, _, _, _, _, _, rfl⟩
  split
  · exact ⟨_, _, _, _, _, _, rfl⟩
  · rename_i seg rest _
    obtain ⟨curRtt, rxSrtt, rxRttval, rxRto, hset⟩ := ackRtt_eq kcp seg
    rw [hset]
    exact ⟨_, _, _, _, _, _, rfl⟩

/-- The loop of `ikcp_parse_una`, on the segments of `snd_buf`. -/
def parseUnaLoop (una : IUINT32) : List IKCPSEG → IKCPCB → IKCPCB
  | [], kcp => { kcp with sndBuf := [] }
  | seg :: rest, kcp =>
    if itimediff una seg.sn > 0 then
      parseUnaLoop una rest { ackRtt kcp seg with sndBuf := rest, nsndBuf := kcp.nsndBuf - 1 }
    else { kcp with sndBuf := seg :: rest }

/-- Recursion on the segments of `snd_buf`. -/
theorem parseUnaLoop_eq (una : IUINT32) : ∀ (buf : List IKCPSEG) (kcp : IKCPCB),
    ∃ curRtt rxSrtt rxRttval rxRto sndBuf nsndBuf, parseUnaLoop una buf kcp
      = { kcp with curRtt := curRtt, rxSrtt := rxSrtt, rxRttval := rxRttval, rxRto := rxRto,
                   sndBuf := sndBuf, nsndBuf := nsndBuf }
  | [], _ => ⟨_, _, _, _, _, _, rfl⟩
  | seg :: rest, kcp => by
    rw [parseUnaLoop]
    split
    · obtain ⟨curRtt, rxSrtt, rxRttval, rxRto, hone⟩ := ackRtt_eq kcp seg
      rw [hone]
      obtain ⟨curRtt', rxSrtt', rxRttval', rxRto', sndBuf, nsndBuf, hrest⟩ := parseUnaLoop_eq una rest
        { kcp with curRtt := curRtt, rxSrtt := rxSrtt, rxRttval := rxRttval, rxRto := rxRto,
                   sndBuf := rest, nsndBuf := kcp.nsndBuf - 1 }
      exact ⟨curRtt', rxSrtt', rxRttval', rxRto', sndBuf, nsndBuf, hrest⟩
    · exact ⟨_, _, _, _, _, _, rfl⟩

/-- `ikcp_parse_una` -/
def ikcpParseUna (kcp : IKCPCB) (una : IUINT32) : IKCPCB := parseUnaLoop una kcp.sndBuf kcp

/-- The loop of `ikcp_parse_fastack`: every older segment was overtaken once more. -/
def fastackLoop (sn : IUINT32) : List IKCPSEG → List IKCPSEG
  | [] => []
  | seg :: rest =>
    if itimediff sn seg.sn < 0 then seg :: rest
    else if sn ≠ seg.sn then { seg with fastack := seg.fastack + 1 } :: fastackLoop sn rest
    else seg :: fastackLoop sn rest

/-- `ikcp_parse_fastack` -/
def ikcpParseFastack (kcp : IKCPCB) (sn : IUINT32) : IKCPCB :=
  if itimediff sn kcp.sndUna < 0 ∨ itimediff sn kcp.sndNxt ≥ 0 then kcp
  else { kcp with sndBuf := fastackLoop sn kcp.sndBuf }

theorem ikcpParseFastack_eq (kcp : IKCPCB) (sn : IUINT32) :
    ∃ sndBuf, ikcpParseFastack kcp sn = { kcp with sndBuf := sndBuf } := by
  rw [ikcpParseFastack]
  split <;> exact ⟨_, rfl⟩

/-! ## Data -/

/-- The backward scan of `ikcp_parse_data` over `rcv_buf`, given in reverse: `none` when the number
    is already held, else the list (still in reverse) with the segment put in its place. -/
def insertRev (newseg : IKCPSEG) : List IKCPSEG → Option (List IKCPSEG)
  | [] => some [newseg]
  | seg :: before =>
    if seg.sn = newseg.sn then none
    else if itimediff newseg.sn seg.sn > 0 then some (newseg :: seg :: before)
    else (insertRev newseg before).map (seg :: ·)

/-- `ikcp_parse_data` -/
def ikcpParseData (kcp : IKCPCB) (newseg : IKCPSEG) : IKCPCB :=
  if itimediff newseg.sn (kcp.rcvNxt + kcp.rcvWnd) ≥ 0 ∨ itimediff newseg.sn kcp.rcvNxt < 0 then kcp
  else
    let kcp := match insertRev newseg kcp.rcvBuf.reverse with
      | none => kcp
      | some rev => { kcp with rcvBuf := rev.reverse, nrcvBuf := kcp.nrcvBuf + 1 }
    moveRcvBuf kcp.rcvBuf kcp

theorem ikcpParseData_eq (kcp : IKCPCB) (newseg : IKCPSEG) :
    ∃ rcvBuf nrcvBuf rcvQueue nrcvQue rcvNxt, ikcpParseData kcp newseg
      = { kcp with rcvBuf := rcvBuf, nrcvBuf := nrcvBuf, rcvQueue := rcvQueue, nrcvQue := nrcvQue,
                   rcvNxt := rcvNxt } := by
  rw [ikcpParseData]
  split
  · exact ⟨_, _, _, _, _, rfl⟩
  · generalize hk : (match insertRev newseg kcp.rcvBuf.reverse with
      | none => kcp
      | some rev => { kcp with rcvBuf := rev.reverse, nrcvBuf := kcp.nrcvBuf + 1 }) = k
    obtain ⟨rcvBuf, nrcvBuf, rcvQueue, nrcvQue, rcvNxt, hset⟩ := moveRcvBuf_eq k.rcvBuf k
    dsimp only
    rw [hset, ← hk]
    split <;> exact ⟨_, _, _, _, _, rfl⟩

/-! ## One segment of a datagram -/

/-- What one round of the loop of `pvp_ikcp_input` finds at the pointer. -/
inductive Parsed where
  /-- Fewer bytes than a header: the loop ends. -/
  | stop
  /-- An offending segment: the function returns this value. -/
  | fail (ret : Int)
  /-- A segment, its payload, and the bytes behind it. -/
  | seg (head : SegHead) (payload rest : List Byte)

/-- The reads and checks of one round. -/
def parseSeg (conv : IUINT32) (data : List Byte) : Parsed :=
  if data.length < ikcpOverhead then .stop
  else if (ikcpDecode32u data).1 ≠ conv then .fail (-1)
  else
    let (head, data) := ikcpDecodeHead data
    if data.length < head.len.toNat then .fail (-2)
    else if head.cmd ≠ ikcpCmdPush ∧ head.cmd ≠ ikcpCmdAck ∧ head.cmd ≠ ikcpCmdWask
        ∧ head.cmd ≠ ikcpCmdWins ∧ head.cmd ≠ ikcpCmdDups then .fail (-3)
    else .seg head (data.take head.len.toNat) (data.drop head.len.toNat)

/-- The locals `flag` and `maxack` of `pvp_ikcp_input`, beside the block. -/
structure InputSt where
  kcp : IKCPCB
  flag : Bool
  maxack : IUINT32

/-- The branch for a data segment (`IKCP_CMD_PUSH` or `IKCP_CMD_DUPS`). -/
def inputData (kcp : IKCPCB) (head : SegHead) (una : IUINT32) (payload : List Byte) : IKCPCB :=
  let sn := getId kcp.rcvNxt head.tmpSn
  if itimediff sn (kcp.rcvNxt + kcp.rcvWnd) < 0 then
    let kcp := if head.cmd = ikcpCmdPush ∨ kcp.dupack ≠ 0 then ikcpAckPush kcp sn head.ts else kcp
    if itimediff sn kcp.rcvNxt ≥ 0 then
      ikcpParseData kcp
        { conv := head.conv, cmd := head.cmd, frg := head.frg.setWidth 32,
          wnd := head.wnd.setWidth 32, ts := head.ts, sn := sn, una := una, data := payload }
    else kcp
  else kcp

theorem inputData_eq (kcp : IKCPCB) (head : SegHead) (una : IUINT32) (payload : List Byte) :
    ∃ acklist ackcount ackblock rcvBuf nrcvBuf rcvQueue nrcvQue rcvNxt,
      inputData kcp head una payload
        = { kcp with acklist := acklist, ackcount := ackcount, ackblock := ackblock,
                     rcvBuf := rcvBuf, nrcvBuf := nrcvBuf, rcvQueue := rcvQueue,
                     nrcvQue := nrcvQue, rcvNxt := rcvNxt } := by
  obtain ⟨acklist, ackcount, ackblock, hpush⟩ : ∃ acklist ackcount ackblock,
      (if head.cmd = ikcpCmdPush ∨ kcp.dupack ≠ 0 then
        ikcpAckPush kcp (getId kcp.rcvNxt head.tmpSn) head.ts else kcp)
        = { kcp with acklist := acklist, ackcount := ackcount, ackblock := ackblock } := by
    split
    · exact ikcpAckPush_eq ..
    · exact ⟨_, _, _, rfl⟩
  rw [inputData]
  dsimp only
  rw [hpush]
  split
  · split
    · obtain ⟨rcvBuf, nrcvBuf, rcvQueue, nrcvQue, rcvNxt, hset⟩ := ikcpParseData_eq
        { kcp with acklist := acklist, ackcount := ackcount, ackblock := ackblock } _
      exact ⟨acklist, ackcount, ackblock, rcvBuf, nrcvBuf, rcvQueue, nrcvQue, rcvNxt, hset⟩
    · exact ⟨acklist, ackcount, ackblock, _, _, _, _, _, rfl⟩
  · exact ⟨_, _, _, _, _, _, _, _, rfl⟩

/-- What one round does with a segment that passed the checks. -/
def inputSeg (st : InputSt) (head : SegHead) (payload : List Byte) : InputSt :=
  let una := getId st.kcp.sndNxt head.tmpUna
  let kcp := { st.kcp with rmtWnd := head.wnd.setWidth 32 }
  let kcp := ikcpShrinkBuf (ikcpParseUna kcp una)
  if head.cmd = ikcpCmdAck then
    let sn := getId kcp.sndNxt head.tmpSn
    let kcp := ikcpShrinkBuf (ikcpParseAck kcp sn)
    if st.flag = false then { kcp := kcp, flag := true, maxack := sn }
    else { kcp := kcp, flag := true,
           maxack := if itimediff sn st.maxack > 0 then sn else st.maxack }
  else if head.cmd = ikcpCmdPush ∨ head.cmd = ikcpCmdDups then
    { st with kcp := inputData kcp head una payload }
  else if head.cmd = ikcpCmdWask then
    { st with kcp := { kcp with probe := kcp.probe ||| ikcpAskTell } }
  else { st with kcp := kcp }

/-- The loop of `pvp_ikcp_input`, at most `n` rounds: `none` when it ran to its end, else the value
    returned from inside it.  Each round takes at least a header, so `data.length` rounds are
    enough. -/
def inputLoop : Nat → List Byte → InputSt → Option Int × InputSt
  | 0, _, st => (none, st)
  | n + 1, data, st =>
    match parseSeg st.kcp.conv data with
    | .stop => (none, st)
    | .fail ret => (some ret, st)
    | .seg head payload rest => inputLoop n rest (inputSeg st head payload)

/-! ## The whole input -/

/-- `cwnd` and `incr` after one growth: slow start below `ssthresh`, congestion avoidance above. -/
def growCwnd (kcp : IKCPCB) : IUINT32 × IUINT32 :=
  let mss : IUINT32 := BitVec.ofNat 32 kcp.mss
  if kcp.cwnd < kcp.ssthresh then (kcp.cwnd + 1, kcp.incr + mss)
  else
    let incr := if kcp.incr < mss then mss else kcp.incr
    let incr := incr + (mss * mss / incr + mss / 16)
    (if (kcp.cwnd + 1) * mss ≤ incr then kcp.cwnd + 1 else kcp.cwnd, incr)

/-- The congestion window grows, up to the peer's window, when `snd_una` advanced. -/
def inputCwnd (kcp : IKCPCB) (una : IUINT32) : IKCPCB :=
  if itimediff kcp.sndUna una > 0 ∧ kcp.cwnd < kcp.rmtWnd then
    let (cwnd, incr) := growCwnd kcp
    if cwnd > kcp.rmtWnd then
      { kcp with cwnd := kcp.rmtWnd, incr := kcp.rmtWnd * BitVec.ofNat 32 kcp.mss }
    else { kcp with cwnd := cwnd, incr := incr }
  else kcp

theorem inputCwnd_eq (kcp : IKCPCB) (una : IUINT32) :
    ∃ cwnd incr, inputCwnd kcp una = { kcp with cwnd := cwnd, incr := incr } := by
  rw [inputCwnd]
  split
  · dsimp only
    split <;> exact ⟨_, _, rfl⟩
  · exact ⟨_, _, rfl⟩

/-- The statements before the loop: the time, and the state left by a dead link. -/
def inputEnter (kcp : IKCPCB) (current : IUINT32) : IKCPCB :=
  let kcp := if current.toNat > 0 then { kcp with current := current } else kcp
  if kcp.state = -1 then { kcp with state := 0, xmit := 0 } else kcp

theorem inputEnter_eq (kcp : IKCPCB) (current : IUINT32) :
    ∃ now state xmit, inputEnter kcp current
      = { kcp with current := now, state := state, xmit := xmit } := by
  rw [inputEnter]
  split <;> split <;> exact ⟨_, _, _, rfl⟩

/-- `pvp_ikcp_input`, for non-null data of `size` bytes. -/
def pvpIkcpInput (kcp : IKCPCB) (data : List Byte) (current : IUINT32) : Int × IKCPCB :=
  let kcp := inputEnter kcp current
  let una := kcp.sndUna
  if data.length < ikcpOverhead then (-1, kcp)
  else
    match inputLoop data.length data { kcp := kcp, flag := false, maxack := 0 } with
    | (some ret, st) => (ret, st.kcp)
    | (none, st) =>
      let kcp := if st.flag then ikcpParseFastack st.kcp st.maxack else st.kcp
      (0, inputCwnd kcp una)

end ConnClient.Ikcp
