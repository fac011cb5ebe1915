/-
  `ikcp.h` / `ikcp.cpp` — the control block, its creation and its configuration.

  What is modelled of `IKCPCB`: every field a function below reads.  The queues are lists in queue
  order.  `mtu`, `mss`, the four queue counters, `ackcount` and `ackblock` are `IUINT32` in the header
  and natural numbers here: `mtu` is only ever set from a non-negative `int`, and the others count
  what is in memory, the nodes of a list or the pairs of `acklist`.  The `rx_*` fields are C `int`s
  whose arithmetic has no defined overflow; they are integers.  The sending buffer `kcp->buffer` lives in
  the senders (`ConnClient.Ikcp.Flush`), because nothing reads it between calls.  Logging, the
  `user`/`output`/`writelog` pointers and the fields nothing reads (`ts_recent`, `ts_lastack`,
  `start_ms`, `logmask`) are left out; allocation succeeds.

  `acklist` is the C array: pairs `(sn, ts)` laid out flat in a block of `2 * ackblock` words, of
  which the first `2 * ackcount` are in use.  `acks` is the list of pairs it stands for.
-/
import ConnClient.Ikcp.Segment

namespace ConnClient.Ikcp

open ConnClient.Lib

/-- `IKCPCB`. -/
structure IKCPCB where
  conv : IUINT32
  mtu : Nat
  mss : Nat
  state : IUINT32
  sndUna : IUINT32
  sndNxt : IUINT32
  rcvNxt : IUINT32
  ssthresh : IUINT32
  rxRttval : Int
  rxSrtt : Int
  rxRto : Int
  rxMinrto : Int
  curRtt : Int
  sndWnd : IUINT32
  rcvWnd : IUINT32
  rmtWnd : IUINT32
  cwnd : IUINT32
  probe : IUINT32
  current : IUINT32
  interval : IUINT32
  tsFlush : IUINT32
  xmit : IUINT32
  nrcvBuf : Nat
  nsndBuf : Nat
  nrcvQue : Nat
  nsndQue : Nat
  nodelay : Int
  updated : Bool
  tsProbe : IUINT32
  probeWait : IUINT32
  deadLink : IUINT32
  incr : IUINT32
  sndQueue : List IKCPSEG
  rcvQueue : List IKCPSEG
  sndBuf : List IKCPSEG
  rcvBuf : List IKCPSEG
  acklist : List IUINT32
  ackcount : Nat
  ackblock : Nat
  fastresend : Int
  nocwnd : Int
  stream : Int
  dupsendcount : IUINT32
  dupsendDynamic : Int
  dupsendOn : Bool
  dupsendWait : IUINT32
  dupsendWndOn : IUINT32
  totallostcount : IUINT32
  dupack : Int
  lastlostrate : IUINT32
  curlostcount : IUINT32
  cursendcount : IUINT32
  tsLost : IUINT32
  intervalLost : IUINT32

/-- `pvp_ikcp_create`. -/
def pvpIkcpCreate (conv : IUINT32) : IKCPCB where
  conv := conv
  mtu := ikcpMtuDef
  mss := ikcpMtuDef - ikcpOverhead
  state := 0
  sndUna := 0
  sndNxt := 0
  rcvNxt := 0
  ssthresh := ikcpThreshInit
  rxRttval := 0
  rxSrtt := 0
  rxRto := ikcpRtoDef
  rxMinrto := ikcpRtoMin
  curRtt := 0
  sndWnd := ikcpWndSnd
  rcvWnd := ikcpWndRcv
  rmtWnd := ikcpWndRcv
  cwnd := ikcpWndSnd
  probe := 0
  current := 0
  interval := ikcpInterval
  tsFlush := ikcpInterval
  xmit := 0
  nrcvBuf := 0
  nsndBuf := 0
  nrcvQue := 0
  nsndQue := 0
  nodelay := 0
  updated := false
  tsProbe := 0
  probeWait := 0
  deadLink := ikcpDeadlink
  incr := 0
  sndQueue := []
  rcvQueue := []
  sndBuf := []
  rcvBuf := []
  acklist := []
  ackcount := 0
  ackblock := 0
  fastresend := 0
  nocwnd := 0
  stream := 0
  dupsendcount := 0
  dupsendDynamic := 0
  dupsendOn := false
  dupsendWait := ikcpDupsendWaitDefault
  dupsendWndOn := ikcpDupsendWndOnDefault
  totallostcount := 0
  dupack := 0
  lastlostrate := 0
  curlostcount := 0
  cursendcount := 0
  tsLost := 0
  intervalLost := ikcpIntervalLost

/-! ## Configuration -/

/-- `pvp_ikcp_setmtu`: refuses a small value and leaves the block as it is. -/
def pvpIkcpSetmtu (kcp : IKCPCB) (mtu : Int) : Int × IKCPCB :=
  if mtu < 50 ∨ mtu < ikcpOverhead then (-1, kcp)
  else (0, { kcp with mtu := mtu.toNat, mss := mtu.toNat - ikcpOverhead })

/-- The clamp of `ikcp_interval` and `pvp_ikcp_nodelay`. -/
def clampInterval (lo hi interval : Int) : Int :=
  if interval > hi then hi else if interval < lo then lo else interval

/-- `pvp_ikcp_interval_lost` -/
def pvpIkcpIntervalLost (kcp : IKCPCB) (interval : Int) : IKCPCB :=
  { kcp with intervalLost := BitVec.ofInt 32 (clampInterval 1000 60000 interval) }

/-- `pvp_ikcp_nodelay` -/
def pvpIkcpNodelay (kcp : IKCPCB) (nodelay interval resend nc : Int) : IKCPCB :=
  let kcp := if nodelay ≥ 0 then
      { kcp with nodelay := nodelay, rxMinrto := if nodelay ≠ 0 then ikcpRtoNdl else ikcpRtoMin }
    else kcp
  let kcp := if interval ≥ 0 then
      { kcp with interval := BitVec.ofInt 32 (clampInterval 10 5000 interval) }
    else kcp
  let kcp := if resend ≥ 0 then { kcp with fastresend := resend } else kcp
  if nc ≥ 0 then { kcp with nocwnd := nc } else kcp

/-- What it sets. -/
theorem pvpIkcpNodelay_eq (kcp : IKCPCB) (nodelay interval resend nc : Int) :
    ∃ nodelay' rxMinrto interval' fastresend nocwnd, pvpIkcpNodelay kcp nodelay interval resend nc
      = { kcp with nodelay := nodelay', rxMinrto := rxMinrto, interval := interval',
                   fastresend := fastresend, nocwnd := nocwnd } := by
  rw [pvpIkcpNodelay]
  split <;> split <;> split <;> split <;> exact ⟨_, _, _, _, _, rfl⟩

/-- `pvp_ikcp_wndsize` -/
def pvpIkcpWndsize (kcp : IKCPCB) (sndwnd rcvwnd : Int) : IKCPCB :=
  let kcp := if sndwnd > 0 then { kcp with sndWnd := BitVec.ofInt 32 sndwnd } else kcp
  if rcvwnd > 0 then { kcp with rcvWnd := imax (BitVec.ofInt 32 rcvwnd) ikcpWndRcv } else kcp

/-- What it sets. -/
theorem pvpIkcpWndsize_eq (kcp : IKCPCB) (sndwnd rcvwnd : Int) :
    ∃ sndWnd rcvWnd, pvpIkcpWndsize kcp sndwnd rcvwnd
      = { kcp with sndWnd := sndWnd, rcvWnd := rcvWnd } := by
  rw [pvpIkcpWndsize]
  split <;> split <;> exact ⟨_, _, rfl⟩

/-- `pvp_ikcp_setdupsend` -/
def pvpIkcpSetdupsend (kcp : IKCPCB) (count dupack dupDynamic dupWait dupWndOn : Int) : IKCPCB :=
  { kcp with
    dupsendcount := BitVec.ofInt 32 count
    dupack := dupack
    dupsendDynamic := dupDynamic
    dupsendWait := if dupWait ≤ 0 ∨ dupWait > 100 then ikcpDupsendWaitDefault
      else BitVec.ofInt 32 dupWait
    dupsendWndOn := if dupWndOn ≤ 0 ∨ dupWndOn > 512 then ikcpDupsendWndOnDefault
      else BitVec.ofInt 32 dupWndOn }

/-! ## The pending acknowledgements -/

/-- The doubling loop of `ikcp_ack_push`, from `newblock = 8`; `newsize` rounds are more than it
    can take. -/
def ackNewblock (newsize : Nat) : Nat → Nat → Nat
  | 0, newblock => newblock
  | n + 1, newblock =>
    if newblock < newsize then ackNewblock newsize n (newblock <<< 1) else newblock

/-- `ikcp_ack_push`: a full block is replaced by a larger one with the used words copied over; then
    the pair is stored behind them. -/
def ikcpAckPush (kcp : IKCPCB) (sn ts : IUINT32) : IKCPCB :=
  let newsize := kcp.ackcount + 1
  let kcp := if newsize > kcp.ackblock then
      let newblock := ackNewblock newsize newsize 8
      { kcp with
        acklist := kcp.acklist.take (kcp.ackcount * 2)
          ++ List.replicate (newblock * 2 - kcp.ackcount * 2) 0
        ackblock := newblock }
    else kcp
  { kcp with
    acklist := (kcp.acklist.set (kcp.ackcount * 2) sn).set (kcp.ackcount * 2 + 1) ts
    ackcount := kcp.ackcount + 1 }

theorem ikcpAckPush_eq (kcp : IKCPCB) (sn ts : IUINT32) :
    ∃ acklist ackcount ackblock, ikcpAckPush kcp sn ts
      = { kcp with acklist := acklist, ackcount := ackcount, ackblock := ackblock } := by
  rw [ikcpAckPush]
  split <;> exact ⟨_, _, _, rfl⟩

/-- `ikcp_ack_get` -/
def ikcpAckGet (kcp : IKCPCB) (p : Nat) : IUINT32 × IUINT32 :=
  (kcp.acklist.getD (p * 2 + 0) 0, kcp.acklist.getD (p * 2 + 1) 0)

/-- The pairs waiting to be acknowledged, oldest first. -/
def acks (kcp : IKCPCB) : List (IUINT32 × IUINT32) :=
  (List.range kcp.ackcount).map (ikcpAckGet kcp)

/-- `ikcp_wnd_unused` -/
def ikcpWndUnused (kcp : IKCPCB) : IUINT32 :=
  if kcp.nrcvQue < kcp.rcvWnd.toNat then BitVec.ofNat 32 (kcp.rcvWnd.toNat - kcp.nrcvQue) else 0

end ConnClient.Ikcp
