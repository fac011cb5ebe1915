/-
  `ikcp.cpp` — the senders: `pvp_ikcp_flush`, `pvp_ikcp_send_ex` and `pvp_ikcp_update`.

  A sender packs segments into `kcp->buffer` and gives the buffer away with `ikcp_output` whenever
  the next segment would exceed the `mtu`, and once at its end.  It changes the block between two
  such calls (`ackcount`, `probe`, the transmission counts of the segments), and what it has changed
  BEFORE a call decides what anything called from there finds.  So a sender's state is an `Out`: the
  block as it stands, the bytes between `buffer` and `ptr`, and every output made so far together
  with the block at the moment of the call.

  The loops run over positions of `snd_buf`: the source holds pointers into the list, and nothing a
  sender does after its transfer loop moves a segment.
-/
import ConnClient.Ikcp.Input

namespace ConnClient.Ikcp

open ConnClient.Lib

/-! ## The output buffer -/

/-- The state of a sender. -/
structure Out where
  kcp : IKCPCB
  /-- The bytes from `buffer` up to `ptr`. -/
  ptr : List Byte := []
  /-- The outputs made, oldest first: the block at the call, and the datagram. -/
  sent : List (IKCPCB × List Byte) := []

/-- `ikcp_output` on the whole buffer, and `ptr = buffer`.  An empty buffer is not output. -/
def ikcpOutput (out : Out) : Out :=
  if out.ptr.length = 0 then out
  else { out with ptr := [], sent := out.sent ++ [(out.kcp, out.ptr)] }

/-- `if (size + need > (int)kcp->mtu) …` in front of every segment. -/
def makeRoom (need : Nat) (out : Out) : Out :=
  if out.ptr.length + need > out.kcp.mtu then ikcpOutput out else out

/-- The encoded bytes go behind `ptr`. -/
def Out.put (bytes : List Byte) (out : Out) : Out := { out with ptr := out.ptr ++ bytes }

/-- The block changes while the buffer stays. -/
def Out.upd (f : IKCPCB → IKCPCB) (out : Out) : Out := { out with kcp := f out.kcp }

/-! ## Acknowledgements and probes -/

/-- The local `seg` of the senders. -/
def controlSeg (kcp : IKCPCB) : IKCPSEG :=
  { conv := kcp.conv, cmd := ikcpCmdAck, wnd := ikcpWndUnused kcp, una := kcp.rcvNxt }

/-- The acknowledgement loop: `n` pairs are left, the next one is number `i`.  The local `seg` keeps
    the last pair. -/
def flushAcks : Nat → Nat → IKCPSEG × Out → IKCPSEG × Out
  | 0, _, s => s
  | n + 1, i, (seg, out) =>
    let out := makeRoom ikcpOverhead out
    let seg := { seg with sn := (ikcpAckGet out.kcp i).1, ts := (ikcpAckGet out.kcp i).2 }
    flushAcks n (i + 1) (seg, out.put (ikcpEncodeSeg seg))

/-- The next, longer wait between two questions to a peer whose window is closed. -/
def nextProbeWait (wait : IUINT32) : IUINT32 :=
  let wait := if wait < ikcpProbeInit then ikcpProbeInit else wait
  let wait := wait + wait / 2
  if wait > ikcpProbeLimit then ikcpProbeLimit else wait

/-- When to ask a peer whose window is closed. -/
def updateProbe (kcp : IKCPCB) : IKCPCB :=
  if kcp.rmtWnd = 0 then
    if kcp.probeWait = 0 then
      { kcp with probeWait := ikcpProbeInit, tsProbe := kcp.current + ikcpProbeInit }
    else if itimediff kcp.current kcp.tsProbe ≥ 0 then
      { kcp with probeWait := nextProbeWait kcp.probeWait
                 tsProbe := kcp.current + nextProbeWait kcp.probeWait
                 probe := kcp.probe ||| ikcpAskSend }
    else kcp
  else { kcp with tsProbe := 0, probeWait := 0 }

theorem updateProbe_eq (kcp : IKCPCB) : ∃ tsProbe probeWait probe,
    updateProbe kcp = { kcp with tsProbe := tsProbe, probeWait := probeWait, probe := probe } := by
  rw [updateProbe]
  split
  · split
    · exact ⟨_, _, _, rfl⟩
    · split <;> exact ⟨_, _, _, rfl⟩
  · exact ⟨_, _, _, rfl⟩

/-- A probing command, if the block's `probe` asks for it. -/
def flushProbe (ask : IUINT32) (cmd : IUINT8) (s : IKCPSEG × Out) : IKCPSEG × Out :=
  let (seg, out) := s
  if out.kcp.probe &&& ask ≠ 0 then
    let seg := { seg with cmd := cmd }
    (seg, (makeRoom ikcpOverhead out).put (ikcpEncodeSeg seg))
  else (seg, out)

/-! ## The transfer of `snd_queue` to `snd_buf` -/

/-- The window a sender computes. -/
def sendCwnd (kcp : IKCPCB) : IUINT32 :=
  let cwnd := imin kcp.sndWnd kcp.rmtWnd
  if kcp.nocwnd = 0 then imin kcp.cwnd cwnd else cwnd

/-- `rtomin` -/
def sendRtomin (kcp : IKCPCB) : IUINT32 :=
  if kcp.nodelay = 0 then BitVec.ofInt 32 (kcp.rxRto >>> (3 : Nat)) else 0

/-- What the transfer makes of a queued segment. -/
def newSegment (kcp : IKCPCB) (current wnd : IUINT32) (seg : IKCPSEG) : IKCPSEG :=
  { seg with
    conv := kcp.conv, cmd := ikcpCmdPush, wnd := wnd, ts := current, sn := kcp.sndNxt,
    una := kcp.rcvNxt, resendts := current, rto := BitVec.ofInt 32 kcp.rxRto, fastack := 0,
    xmit := 0, lost := 0, dupsendcount := 0, firstTs := 0 }

/-- One transfer: `seg`, the head of `snd_queue`, is appended to `snd_buf`. -/
def moveSegment (current wnd : IUINT32) (seg : IKCPSEG) (rest : List IKCPSEG) (kcp : IKCPCB) :
    IKCPCB :=
  { kcp with
    sndQueue := rest
    sndBuf := kcp.sndBuf ++ [newSegment kcp current wnd seg]
    nsndQue := kcp.nsndQue - 1
    nsndBuf := kcp.nsndBuf + 1
    sndNxt := kcp.sndNxt + 1 }

/-- The transfer loop of `pvp_ikcp_flush`.  Recursion on the segments of `snd_queue`. -/
def moveSndQueue (current wnd cwnd : IUINT32) : List IKCPSEG → IKCPCB → IKCPCB
  | [], kcp => kcp
  | seg :: rest, kcp =>
    if itimediff kcp.sndNxt (kcp.sndUna + cwnd) < 0 then
      moveSndQueue current wnd cwnd rest (moveSegment current wnd seg rest kcp)
    else kcp

/-- What the transfers change: new segments stand behind the others. -/
theorem moveSndQueue_eq (current wnd cwnd : IUINT32) (queue : List IKCPSEG) (k : IKCPCB) :
    ∃ rest new nsndQue nsndBuf sndNxt, moveSndQueue current wnd cwnd queue k
        = { k with sndQueue := rest, sndBuf := k.sndBuf ++ new, nsndQue := nsndQue,
                   nsndBuf := nsndBuf, sndNxt := sndNxt }
      ∧ ∀ seg ∈ new, seg.xmit = 0 := by
  induction queue generalizing k with
  | nil =>
    refine ⟨k.sndQueue, [], k.nsndQue, k.nsndBuf, k.sndNxt, ?_, fun _ hs => absurd hs List.not_mem_nil⟩
    rw [List.append_nil, moveSndQueue]
  | cons seg queue ih =>
    rw [moveSndQueue]
    split
    · obtain ⟨rest, new, nsndQue, nsndBuf, sndNxt, h, hnew⟩ := ih (moveSegment current wnd seg queue k)
      refine ⟨rest, newSegment k current wnd seg :: new, nsndQue, nsndBuf, sndNxt, ?_, fun s hs => ?_⟩
      · rw [h, moveSegment, List.append_assoc]
        rfl
      · rcases List.mem_cons.mp hs with rfl | hs
        · rfl
        · exact hnew s hs
    · refine ⟨k.sndQueue, [], k.nsndQue, k.nsndBuf, k.sndNxt, ?_, fun _ hs => absurd hs List.not_mem_nil⟩
      rw [List.append_nil]

/-! ## Data segments -/

/-- The locals of `pvp_ikcp_flush` that its data loop reads. -/
structure FlushArgs where
  current : IUINT32
  resent : IUINT32
  rtomin : IUINT32
  wnd : IUINT32

/-- What the `if` chain at the top of the data loop makes of a segment. -/
inductive Due where
  | first
  | timeout
  | fastack
  | no
  deriving DecidableEq

/-- Which branch of the chain is taken. -/
def segmentDue (a : FlushArgs) (segment : IKCPSEG) : Due :=
  if segment.xmit = 0 then .first
  else if itimediff a.current segment.resendts ≥ 0 then .timeout
  else if segment.fastack ≥ a.resent then .fastack
  else .no

theorem segmentDue_first {a : FlushArgs} {segment : IKCPSEG} :
    segmentDue a segment = .first ↔ segment.xmit = 0 := by
  rw [segmentDue]
  constructor
  · intro hdue
    by_contra hold
    rw [if_neg hold] at hdue
    split at hdue
    · cases hdue
    · split at hdue <;> cases hdue
  · exact fun hnew => if_pos hnew

theorem segmentDue_timeout {a : FlushArgs} {segment : IKCPSEG} (hdue : segmentDue a segment = .timeout) :
    segment.xmit ≠ 0 ∧ itimediff a.current segment.resendts ≥ 0 := by
  rw [segmentDue] at hdue
  split at hdue
  · cases hdue
  rename_i hold
  split at hdue
  · rename_i hts
    exact ⟨hold, hts⟩
  · split at hdue <;> cases hdue

/-- The assignments of the branch to the segment. -/
def dueSegment (a : FlushArgs) (kcp : IKCPCB) (segment : IKCPSEG) : Due → IKCPSEG
  | .first =>
    let rto : IUINT32 := BitVec.ofInt 32 kcp.rxRto
    { segment with xmit := segment.xmit + 1, firstTs := a.current, rto := rto,
                   resendts := a.current + rto + a.rtomin }
  | .timeout =>
    let rto := segment.rto
      + BitVec.ofInt 32 (if kcp.nodelay = 0 then kcp.rxRto else kcp.rxRto.tdiv 2)
    { segment with xmit := segment.xmit + 1, rto := rto, resendts := a.current + rto,
                   lost := if segment.lost = 0 then 1 else segment.lost }
  | .fastack =>
    { segment with xmit := segment.xmit + 1, fastack := 0,
                   resendts := a.current + segment.rto }
  | .no => segment

/-- The assignments of the branch to the block. -/
def dueKcp (segment : IKCPSEG) (kcp : IKCPCB) : Due → IKCPCB
  | .first => { kcp with cursendcount := kcp.cursendcount + 1 }
  | .timeout =>
    let kcp := { kcp with xmit := kcp.xmit + 1 }
    if segment.lost = 0 then
      { kcp with totallostcount := kcp.totallostcount + 1, curlostcount := kcp.curlostcount + 1 }
    else kcp
  | .fastack => { kcp with xmit := kcp.xmit + 1 }
  | .no => kcp

theorem dueKcp_eq (segment : IKCPSEG) (kcp : IKCPCB) (due : Due) :
    ∃ xmit cursendcount totallostcount curlostcount, dueKcp segment kcp due
      = { kcp with xmit := xmit, cursendcount := cursendcount, totallostcount := totallostcount,
                   curlostcount := curlostcount } := by
  cases due with
  | timeout =>
    rw [dueKcp]
    split <;> exact ⟨_, _, _, _, rfl⟩
  | _ => exact ⟨_, _, _, _, rfl⟩

/-- The block and the locals `change`, `lost` and `dup_segs` (as positions in `snd_buf`). -/
structure FlushSt where
  out : Out
  change : Bool := false
  lost : Bool := false
  dupSegs : List Nat := []

/-- Whether the data loop keeps a segment that is not due for a redundant copy. -/
def wantsDup (a : FlushArgs) (kcp : IKCPCB) (segment : IKCPSEG) (dupIdx : Nat) : Bool :=
  kcp.dupsendOn && decide (segment.dupsendcount < kcp.dupsendcount)
    && decide (dupIdx < ikcpDupsendLen)
    && (decide (itimediff a.current segment.ts ≥ kcp.dupsendWait.toNat)
      || decide (itimediff a.current segment.ts < 0))

/-- The `if (needsend)` block: the stamped segment `segment`, number `i` of `snd_buf`, is put into
    the buffer. -/
def sendSegment (i : Nat) (segment : IKCPSEG) (out : Out) : Out :=
  let out := out.upd fun kcp => { kcp with sndBuf := kcp.sndBuf.set i segment }
  let out := (makeRoom (ikcpOverhead + segment.len) out).put (ikcpSegBytes segment)
  out.upd fun kcp =>
    { kcp with
      sndBuf := if segment.cmd = ikcpCmdDups then
          kcp.sndBuf.set i { segment with cmd := ikcpCmdPush }
        else kcp.sndBuf
      state := if segment.xmit ≥ kcp.deadLink then -1 else kcp.state }

/-- The stamps every transmission carries. -/
def stamped (a : FlushArgs) (una : IUINT32) (segment : IKCPSEG) : IKCPSEG :=
  { segment with ts := a.current, wnd := a.wnd, una := una }

/-- One round of the data loop, at `segment`, number `i` of `snd_buf`. -/
def flushSegment (a : FlushArgs) (i : Nat) (segment : IKCPSEG) (st : FlushSt) : FlushSt :=
  match segmentDue a segment with
  | .no =>
    if wantsDup a st.out.kcp segment st.dupSegs.length then
      { st with dupSegs := st.dupSegs ++ [i] }
    else st
  | due =>
    { st with
      out := sendSegment i (stamped a st.out.kcp.rcvNxt (dueSegment a st.out.kcp segment due))
        (st.out.upd fun kcp => dueKcp segment kcp due)
      change := st.change || due == .fastack
      lost := st.lost || due == .timeout }

/-- The data loop: `n` segments are left, the next one is number `i`. -/
def flushData (a : FlushArgs) : Nat → Nat → FlushSt → FlushSt
  | 0, _, st => st
  | n + 1, i, st =>
    match st.out.kcp.sndBuf[i]? with
    | none => st
    | some segment => flushData a n (i + 1) (flushSegment a i segment st)

/-- A redundant copy of a segment goes out, and the segment's command is restored. -/
def sendDup (i : Nat) (segment : IKCPSEG) (out : Out) : Out :=
  (out.upd fun kcp =>
    { kcp with sndBuf := kcp.sndBuf.set i { segment with cmd := ikcpCmdPush }
               xmit := kcp.xmit + 1 }).put
    (ikcpSegBytes { segment with cmd := ikcpCmdDups })

/-- The loop over `dup_segs`.  Here the room is made before the segment is changed. -/
def flushDups (a : FlushArgs) : List Nat → Out → Out
  | [], out => out
  | i :: is, out =>
    match out.kcp.sndBuf[i]? with
    | none => flushDups a is out
    | some dupSeg =>
      let out := makeRoom (ikcpOverhead + dupSeg.len) out
      flushDups a is (sendDup i (stamped a out.kcp.rcvNxt
        { dupSeg with xmit := dupSeg.xmit + 1, dupsendcount := dupSeg.dupsendcount + 1 }) out)

/-! ## `pvp_ikcp_flush` -/

/-- Everything before the data loop; `seg.wnd` and the window come with it. -/
def flushHead (kcp : IKCPCB) : IUINT32 × Out :=
  let seg := controlSeg kcp
  let (seg, out) := flushAcks kcp.ackcount 0 (seg, { kcp := kcp })
  let out := out.upd fun kcp => updateProbe { kcp with ackcount := 0 }
  let (_, out) := flushProbe ikcpAskTell ikcpCmdWins (flushProbe ikcpAskSend ikcpCmdWask (seg, out))
  let out := out.upd fun kcp => { kcp with probe := 0 }
  let cwnd := sendCwnd out.kcp
  (cwnd, out.upd fun k => moveSndQueue kcp.current (ikcpWndUnused kcp) cwnd k.sndQueue k)

/-- The locals computed between the transfer and the data loop. -/
def flushArgs (kcp : IKCPCB) (wnd : IUINT32) : FlushArgs where
  current := kcp.current
  resent := if kcp.fastresend > 0 then BitVec.ofInt 32 kcp.fastresend else 0xffffffff
  rtomin := sendRtomin kcp
  wnd := wnd

/-- `if (x < IKCP_THRESH_MIN) x = IKCP_THRESH_MIN` -/
def atLeastThreshMin (x : IUINT32) : IUINT32 := if x < ikcpThreshMin then ikcpThreshMin else x

/-- The tail when a segment was overtaken: back to half of what is in flight. -/
def tailChange (resent : IUINT32) (change : Bool) (kcp : IKCPCB) : IKCPCB :=
  if change then
    let ssthresh := atLeastThreshMin ((kcp.sndNxt - kcp.sndUna) / 2)
    { kcp with ssthresh := ssthresh, cwnd := ssthresh + resent,
               incr := (ssthresh + resent) * BitVec.ofNat 32 kcp.mss, curRtt := 490 }
  else kcp

/-- The tail when a segment was lost: back to slow start. -/
def tailLost (cwnd : IUINT32) (lost : Bool) (kcp : IKCPCB) : IKCPCB :=
  if lost then
    { kcp with ssthresh := atLeastThreshMin (cwnd / 2), cwnd := 1, incr := BitVec.ofNat 32 kcp.mss,
               curRtt := 490 }
  else kcp

/-- The window is never left empty. -/
def tailFloor (kcp : IKCPCB) : IKCPCB :=
  if kcp.cwnd < 1 then { kcp with cwnd := 1, incr := BitVec.ofNat 32 kcp.mss } else kcp

/-- The tail of `pvp_ikcp_flush`. -/
def flushTail (cwnd resent : IUINT32) (change lost : Bool) (kcp : IKCPCB) : IKCPCB :=
  tailFloor (tailLost cwnd lost (tailChange resent change kcp))

/-- It is about the congestion window, and forgets the round trip time. -/
theorem flushTail_eq (cwnd resent : IUINT32) (change lost : Bool) (kcp : IKCPCB) :
    ∃ ssthresh cwnd' incr curRtt, flushTail cwnd resent change lost kcp
      = { kcp with ssthresh := ssthresh, cwnd := cwnd', incr := incr, curRtt := curRtt } := by
  rw [flushTail, tailFloor, tailLost, tailChange]
  split <;> split <;> split <;> exact ⟨_, _, _, _, rfl⟩

/-- `pvp_ikcp_flush`: the block at the end, and the outputs on the way. -/
def pvpIkcpFlush (kcp : IKCPCB) : IKCPCB × List (IKCPCB × List Byte) :=
  if kcp.updated = false then (kcp, [])
  else
    let (cwnd, out) := flushHead kcp
    let a := flushArgs out.kcp (ikcpWndUnused kcp)
    let st := flushData a out.kcp.sndBuf.length 0 { out := out }
    let out := ikcpOutput (flushDups a st.dupSegs st.out)
    (flushTail cwnd a.resent st.change st.lost out.kcp, out.sent)

/-! ## `pvp_ikcp_send_ex` -/

/-- The first transmission of the segment just transferred, number `i` of `snd_buf`. -/
def countSent (i : Nat) (segment : IKCPSEG) (kcp : IKCPCB) : IKCPCB :=
  { kcp with sndBuf := kcp.sndBuf.set i segment
             cursendcount := kcp.cursendcount + 1
             xmit := kcp.xmit + 1 }

/-- The transfer loop of `pvp_ikcp_send_ex`: a transferred segment is sent at once.  Recursion on the
    segments of `snd_queue`. -/
def sendExLoop (current wnd cwnd rtomin : IUINT32) : List IKCPSEG → Out → Out
  | [], out => out
  | seg :: rest, out =>
    if itimediff out.kcp.sndNxt (out.kcp.sndUna + cwnd) < 0 then
      let rto : IUINT32 := BitVec.ofInt 32 out.kcp.rxRto
      let segment := { newSegment out.kcp current wnd seg with
        firstTs := current, xmit := 1, rto := rto, resendts := current + rto + rtomin,
        ts := current }
      let i := out.kcp.sndBuf.length
      let out := out.upd fun kcp => countSent i segment (moveSegment current wnd seg rest kcp)
      sendExLoop current wnd cwnd rtomin rest
        ((makeRoom (ikcpOverhead + segment.len) out).put (ikcpSegBytes segment))
    else out

/-- The walk back from the first segment sent: `i` segments of `snd_buf` stand before the position
    reached, and `n` redundant copies were made.  It ends where a copy would not fit. -/
def sendExDups (current wnd : IUINT32) : Nat → Nat → Out → Out
  | 0, _, out => out
  | i + 1, n, out =>
    match out.kcp.sndBuf[i]? with
    | none => out
    | some dupSeg =>
      if out.ptr.length + (ikcpOverhead + dupSeg.len) > out.kcp.mtu then out
      else if n ≥ out.kcp.dupsendcount.toNat then out
      else
        sendExDups current wnd i (n + 1) (sendDup i
          { dupSeg with ts := current, wnd := wnd, una := out.kcp.rcvNxt,
                        xmit := dupSeg.xmit + 1 } out)

/-- `pvp_ikcp_send_ex`, past `pvp_ikcp_send`: what was queued is sent as far as the window goes. -/
def sendExFlush (kcp : IKCPCB) (current : IUINT32) : Out :=
  let kcp := if current.toNat > 0 then { kcp with current := current } else kcp
  let current := kcp.current
  let cwnd := sendCwnd kcp
  let rtomin := sendRtomin kcp
  let segWnd := ikcpWndUnused kcp
  let (_, out) := flushAcks kcp.ackcount 0 (controlSeg kcp, { kcp := kcp })
  let out := out.upd fun kcp => { kcp with ackcount := 0 }
  let first := out.kcp.sndBuf.length
  let out := sendExLoop current segWnd cwnd rtomin out.kcp.sndQueue out
  let out := if first < out.kcp.sndBuf.length then sendExDups current segWnd first 0 out else out
  ikcpOutput out

/-- `pvp_ikcp_send_ex` -/
def pvpIkcpSendEx (kcp : IKCPCB) (buffer : List Byte) (current : IUINT32) :
    Int × IKCPCB × List (IKCPCB × List Byte) :=
  let (ret, kcp) := pvpIkcpSend kcp buffer current
  if ret ≠ 0 then (ret, kcp, [])
  else if kcp.updated = false then (0, kcp, [])
  else
    let out := sendExFlush kcp current
    (0, out.kcp, out.sent)

/-! ## `pvp_ikcp_update` and `pvp_ikcp_check` -/

/-- `pvp_ikcp_update_lost` -/
def pvpIkcpUpdateLost (kcp : IKCPCB) (current : IUINT32) : IKCPCB :=
  let kcp := if kcp.tsLost = 0 then { kcp with tsLost := current } else kcp
  let slap := itimediff current kcp.tsLost
  if slap > kcp.intervalLost.toNat ∨ slap < 0 then
    let kcp := { kcp with tsLost := kcp.current }
    if kcp.cursendcount = 0 then kcp
    else { kcp with lastlostrate := kcp.curlostcount * 100 / kcp.cursendcount,
                    cursendcount := 0, curlostcount := 0 }
  else kcp

theorem pvpIkcpUpdateLost_eq (kcp : IKCPCB) (current : IUINT32) :
    ∃ tsLost lastlostrate cursendcount curlostcount, pvpIkcpUpdateLost kcp current
      = { kcp with tsLost := tsLost, lastlostrate := lastlostrate, cursendcount := cursendcount,
                   curlostcount := curlostcount } := by
  rw [pvpIkcpUpdateLost]
  generalize hk : (if kcp.tsLost = 0 then _ else _ : IKCPCB) = k
  have htime : ∃ tsLost, k = { kcp with tsLost := tsLost } := by
    rw [← hk]
    split <;> exact ⟨_, rfl⟩
  obtain ⟨tsLost, rfl⟩ := htime
  dsimp only
  split
  · split <;> exact ⟨_, _, _, _, rfl⟩
  · exact ⟨_, _, _, _, rfl⟩

/-- `pvp_ikcp_update_dupsend_on` -/
def pvpIkcpUpdateDupsendOn (kcp : IKCPCB) : IKCPCB :=
  if kcp.dupsendDynamic = 0 then { kcp with dupsendOn := true }
  else if kcp.cwnd < kcp.ssthresh then
    { kcp with dupsendOn := decide (kcp.cwnd < kcp.dupsendWndOn) }
  else { kcp with dupsendOn := decide (kcp.cwnd < kcp.ssthresh + kcp.dupsendWndOn) }

theorem pvpIkcpUpdateDupsendOn_switch (kcp : IKCPCB) :
    ∃ switch, pvpIkcpUpdateDupsendOn kcp = { kcp with dupsendOn := switch } := by
  rw [pvpIkcpUpdateDupsendOn]
  split
  · exact ⟨_, rfl⟩
  · split <;> exact ⟨_, rfl⟩

/-- `pvp_ikcp_update` up to the computation of `slap`. -/
def updateEnter (kcp : IKCPCB) (current : IUINT32) : IKCPCB :=
  let kcp := { kcp with current := current }
  let kcp := if kcp.updated = false then { kcp with updated := true, tsFlush := current } else kcp
  if kcp.dupsendcount > 0 then pvpIkcpUpdateDupsendOn kcp else kcp

theorem updateEnter_eq (kcp : IKCPCB) (current : IUINT32) :
    ∃ tsFlush dupsendOn, updateEnter kcp current
      = { kcp with current := current, updated := true, tsFlush := tsFlush, dupsendOn := dupsendOn } := by
  rw [updateEnter]
  generalize hk : (if kcp.updated = false then _ else _ : IKCPCB) = k
  have hfirst : ∃ tsFlush, k = { kcp with current := current, updated := true, tsFlush := tsFlush } := by
    rw [← hk]
    split
    · exact ⟨_, rfl⟩
    · rename_i hold
      rw [← eq_true_of_ne_false hold]
      exact ⟨_, rfl⟩
  obtain ⟨tsFlush, rfl⟩ := hfirst
  obtain ⟨switch, hswitch⟩ := pvpIkcpUpdateDupsendOn_switch
    { kcp with current := current, updated := true, tsFlush := tsFlush }
  dsimp only
  rw [hswitch]
  split <;> exact ⟨_, _, rfl⟩

/-- `slap`, with `ts_flush` set anew when it is far off. -/
def updateSlap (kcp : IKCPCB) : Int × IKCPCB :=
  let slap := itimediff kcp.current kcp.tsFlush
  if slap ≥ 10000 ∨ slap < -10000 then (0, { kcp with tsFlush := kcp.current }) else (slap, kcp)

/-- The time of the next flush. -/
def nextFlush (kcp : IKCPCB) : IKCPCB :=
  if itimediff kcp.current (kcp.tsFlush + kcp.interval) ≥ 0 then
    { kcp with tsFlush := kcp.current + kcp.interval }
  else { kcp with tsFlush := kcp.tsFlush + kcp.interval }

/-- `pvp_ikcp_update` up to the flush: the new block, and whether to flush. -/
def updateHead (kcp : IKCPCB) (current : IUINT32) : Bool × IKCPCB :=
  let (slap, kcp) := updateSlap (updateEnter kcp current)
  if slap ≥ 0 then (true, nextFlush kcp) else (false, kcp)

theorem updateHead_eq (kcp : IKCPCB) (current : IUINT32) :
    ∃ tsFlush dupsendOn, (updateHead kcp current).2
      = { kcp with current := current, updated := true, tsFlush := tsFlush, dupsendOn := dupsendOn } := by
  have hnext : ∀ k : IKCPCB, ∃ tsFlush, nextFlush k = { k with tsFlush := tsFlush } := by
    intro k
    rw [nextFlush]
    split <;> exact ⟨_, rfl⟩
  obtain ⟨tsFlush, dupsendOn, henter⟩ := updateEnter_eq kcp current
  have hslap : ∃ tsFlush, (updateSlap (updateEnter kcp current)).2 = { kcp with
      current := current, updated := true, tsFlush := tsFlush, dupsendOn := dupsendOn } := by
    rw [henter, updateSlap]
    dsimp only
    split <;> exact ⟨_, rfl⟩
  obtain ⟨tsFlush', hslap⟩ := hslap
  rw [updateHead]
  generalize updateSlap (updateEnter kcp current) = r at hslap
  obtain ⟨slap, k⟩ := r
  dsimp only at hslap ⊢
  subst hslap
  split
  · obtain ⟨tsFlush'', hset⟩ := hnext { kcp with
      current := current, updated := true, tsFlush := tsFlush', dupsendOn := dupsendOn }
    exact ⟨tsFlush'', dupsendOn, hset⟩
  · exact ⟨tsFlush', dupsendOn, rfl⟩

/-- `pvp_ikcp_update` -/
def pvpIkcpUpdate (kcp : IKCPCB) (current : IUINT32) : IKCPCB × List (IKCPCB × List Byte) :=
  let (flush, kcp) := updateHead kcp current
  let (kcp, sent) := if flush then pvpIkcpFlush kcp else (kcp, [])
  (pvpIkcpUpdateLost kcp current, sent)

/-- The loop of `pvp_ikcp_check` over `snd_buf`: `none` when a segment is due now, else the
    shortest time to one. -/
def checkLoop (kcp : IKCPCB) (current : IUINT32) : List IKCPSEG → Int → Option Int
  | [], tmPacket => some tmPacket
  | seg :: rest, tmPacket =>
    let diff := itimediff seg.resendts current
    if diff ≤ 0 then none
    else
      let tmPacket := if diff < tmPacket then diff else tmPacket
      if kcp.dupsendOn ∧ seg.dupsendcount < kcp.dupsendcount then
        let diff := itimediff (seg.ts + kcp.dupsendWait) current
        if diff ≤ 0 then none
        else checkLoop kcp current rest (if diff < tmPacket then diff else tmPacket)
      else checkLoop kcp current rest tmPacket

/-- `pvp_ikcp_check` -/
def pvpIkcpCheck (kcp : IKCPCB) (current : IUINT32) : IUINT32 :=
  if kcp.updated = false then current
  else
    let tsFlush := if itimediff current kcp.tsFlush ≥ 10000 ∨ itimediff current kcp.tsFlush < -10000
      then current else kcp.tsFlush
    if itimediff current tsFlush ≥ 0 then current
    else
      let tmFlush := itimediff tsFlush current
      match checkLoop kcp current kcp.sndBuf 0x7fffffff with
      | none => current
      | some tmPacket =>
        let minimal : IUINT32 := BitVec.ofInt 32 (if tmPacket < tmFlush then tmPacket else tmFlush)
        current + (if minimal ≥ kcp.interval then kcp.interval else minimal)

end ConnClient.Ikcp
