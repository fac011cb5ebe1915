/-
  `ikcp.cpp` — the two ends the application sees: `pvp_ikcp_send`, `pvp_ikcp_recv` and
  `pvp_ikcp_peeksize`.

  `pvp_ikcp_send` cuts a message into fragments of at most `mss` bytes and numbers them downwards
  in `frg`, the last one `0`; `pvp_ikcp_recv` takes fragments off `rcv_queue` up to the next `0`.
  Between them stands the transfer of `rcv_buf` into `rcv_queue` (`moveRcvBuf`), shared with
  `ikcp_parse_data`.
-/
import ConnClient.Ikcp.Control

namespace ConnClient.Ikcp

open ConnClient.Lib

/-! ## Sending -/

/-- The fragment loop of `pvp_ikcp_send`: `n` fragments are still to be made of `buffer`. -/
def sendFragments (mss : Nat) (stream : Int) : Nat → List Byte → List IKCPSEG
  | 0, _ => []
  | n + 1, buffer =>
    let size := if buffer.length > mss then mss else buffer.length
    { frg := if stream = 0 then BitVec.ofNat 32 n else 0, data := buffer.take size : IKCPSEG }
      :: sendFragments mss stream n (buffer.drop size)

/-- The streaming-mode prelude of `pvp_ikcp_send`: the last queued segment is topped up from the
    buffer; what is left of the buffer is returned. -/
def sendStreamAppend (kcp : IKCPCB) (buffer : List Byte) : IKCPCB × List Byte :=
  match kcp.sndQueue.getLast? with
  | none => (kcp, buffer)
  | some old =>
    if old.len < kcp.mss then
      let extend := min buffer.length (kcp.mss - old.len)
      ({ kcp with
        sndQueue := kcp.sndQueue.dropLast
          ++ [{ frg := 0, data := old.data ++ buffer.take extend : IKCPSEG }] },
       buffer.drop extend)
    else (kcp, buffer)

/-- The number of fragments a message of `len` bytes takes. -/
def fragmentCount (mss len : Nat) : Nat :=
  if len ≤ mss then 1 else (len + mss - 1) / mss

/-- The rest of `pvp_ikcp_send`, past streaming mode: refuse a message of too many fragments, queue
    the others. -/
def sendQueue (kcp : IKCPCB) (buffer : List Byte) : Int × IKCPCB :=
  let count := fragmentCount kcp.mss buffer.length
  if count ≥ 10000 then (-2, kcp)
  else
    (0, { kcp with
      sndQueue := kcp.sndQueue ++ sendFragments kcp.mss kcp.stream count buffer
      nsndQue := kcp.nsndQue + count })

/-- `pvp_ikcp_send`, for a non-null buffer of `len` bytes (so the test `len < 0` has no case). -/
def pvpIkcpSend (kcp : IKCPCB) (buffer : List Byte) (current : IUINT32) : Int × IKCPCB :=
  let kcp := if current.toNat > 0 then { kcp with current := current } else kcp
  if kcp.stream ≠ 0 then
    let (kcp, buffer) := sendStreamAppend kcp buffer
    if buffer.length = 0 then (0, kcp) else sendQueue kcp buffer
  else sendQueue kcp buffer

/-- It sets the clock, and changes the queue. -/
theorem pvpIkcpSend_eq (kcp : IKCPCB) (buffer : List Byte) (current : IUINT32) :
    ∃ now sndQueue nsndQue, (pvpIkcpSend kcp buffer current).2
      = { kcp with current := now, sndQueue := sndQueue, nsndQue := nsndQue } := by
  have hqueue : ∀ (k : IKCPCB) msg, ∃ sndQueue nsndQue,
      (sendQueue k msg).2 = { k with sndQueue := sndQueue, nsndQue := nsndQue } := by
    intro k msg
    rw [sendQueue]
    split <;> exact ⟨_, _, rfl⟩
  have happend : ∀ (k : IKCPCB) msg, ∃ sndQueue,
      (sendStreamAppend k msg).1 = { k with sndQueue := sndQueue } := by
    intro k msg
    rw [sendStreamAppend]
    split
    · exact ⟨_, rfl⟩
    · split <;> exact ⟨_, rfl⟩
  obtain ⟨now, hnow⟩ : ∃ now, (if current.toNat > 0 then { kcp with current := current } else kcp)
      = { kcp with current := now } := by
    split <;> exact ⟨_, rfl⟩
  rw [pvpIkcpSend]
  dsimp only
  rw [hnow]
  obtain ⟨sndQueue, hset⟩ := happend { kcp with current := now } buffer
  split
  · split
    · exact ⟨now, sndQueue, _, hset⟩
    · obtain ⟨sndQueue', nsndQue, hset'⟩ := hqueue (sendStreamAppend { kcp with current := now } buffer).1
        (sendStreamAppend { kcp with current := now } buffer).2
      rw [hset', hset]
      exact ⟨now, sndQueue', nsndQue, rfl⟩
  · obtain ⟨sndQueue', nsndQue, hset'⟩ := hqueue { kcp with current := now } buffer
    exact ⟨now, sndQueue', nsndQue, hset'⟩

/-- `pvp_ikcp_waitsnd` -/
def pvpIkcpWaitsnd (kcp : IKCPCB) : Nat := kcp.nsndBuf + kcp.nsndQue

/-! ## Receiving -/

/-- The transfer loop: segments leave `rcv_buf` for `rcv_queue` while the first one is the next
    in order and the queue has room.  Recursion on the segments of `rcv_buf`. -/
def moveRcvBuf : List IKCPSEG → IKCPCB → IKCPCB
  | [], kcp => { kcp with rcvBuf := [] }
  | seg :: rest, kcp =>
    if seg.sn = kcp.rcvNxt ∧ kcp.nrcvQue < kcp.rcvWnd.toNat then
      moveRcvBuf rest { kcp with
        rcvBuf := rest
        nrcvBuf := kcp.nrcvBuf - 1
        rcvQueue := kcp.rcvQueue ++ [seg]
        nrcvQue := kcp.nrcvQue + 1
        rcvNxt := kcp.rcvNxt + 1 }
    else { kcp with rcvBuf := seg :: rest }

/-- Recursion on the segments. -/
theorem moveRcvBuf_eq : ∀ (buf : List IKCPSEG) (kcp : IKCPCB),
    ∃ rcvBuf nrcvBuf rcvQueue nrcvQue rcvNxt, moveRcvBuf buf kcp
      = { kcp with rcvBuf := rcvBuf, nrcvBuf := nrcvBuf, rcvQueue := rcvQueue, nrcvQue := nrcvQue,
                   rcvNxt := rcvNxt }
  | [], _ => ⟨_, _, _, _, _, rfl⟩
  | seg :: rest, kcp => by
    rw [moveRcvBuf]
    split
    · obtain ⟨rcvBuf, nrcvBuf, rcvQueue, nrcvQue, rcvNxt, hset⟩ := moveRcvBuf_eq rest { kcp with
        rcvBuf := rest
        nrcvBuf := kcp.nrcvBuf - 1
        rcvQueue := kcp.rcvQueue ++ [seg]
        nrcvQue := kcp.nrcvQue + 1
        rcvNxt := kcp.rcvNxt + 1 }
      rw [hset]
      exact ⟨rcvBuf, nrcvBuf, rcvQueue, nrcvQue, rcvNxt, rfl⟩
    · exact ⟨_, _, _, _, _, rfl⟩

/-- The summing loop of `pvp_ikcp_peeksize`: lengths up to and including the first `frg = 0`. -/
def peekLength : List IKCPSEG → Nat
  | [] => 0
  | seg :: rest => if seg.frg = 0 then seg.len else seg.len + peekLength rest

/-- `pvp_ikcp_peeksize` -/
def pvpIkcpPeeksize (kcp : IKCPCB) : Int :=
  match kcp.rcvQueue with
  | [] => -1
  | seg :: _ =>
    if seg.frg = 0 then seg.len
    else if kcp.nrcvQue < seg.frg.toNat + 1 then -1
    else peekLength kcp.rcvQueue

/-- The merge loop of `pvp_ikcp_recv` (not peeking): the bytes of the fragments up to `frg = 0`,
    the fragments behind them, and how many were taken. -/
def mergeFragments : List IKCPSEG → List Byte × List IKCPSEG × Nat
  | [] => ([], [], 0)
  | seg :: rest =>
    if seg.frg = 0 then (seg.data, rest, 1)
    else
      let (bytes, rest', n) := mergeFragments rest
      (seg.data ++ bytes, rest', n + 1)

/-- What `pvp_ikcp_recv` gives back: the return value, and the bytes put into the buffer. -/
structure Recv where
  ret : Int
  bytes : List Byte

/-- `pvp_ikcp_recv` with a buffer of `|len|` bytes; a negative `len` only peeks. -/
def pvpIkcpRecv (kcp : IKCPCB) (len : Int) : Recv × IKCPCB :=
  if kcp.rcvQueue = [] then (⟨-1, []⟩, kcp)
  else
    let peeksize := pvpIkcpPeeksize kcp
    if peeksize < 0 then (⟨-2, []⟩, kcp)
    else if peeksize > len.natAbs then (⟨-3, []⟩, kcp)
    else
      let recover := kcp.nrcvQue ≥ kcp.rcvWnd.toNat
      let (bytes, rest, n) := mergeFragments kcp.rcvQueue
      let kcp := if len < 0 then kcp
        else { kcp with rcvQueue := rest, nrcvQue := kcp.nrcvQue - n }
      let kcp := moveRcvBuf kcp.rcvBuf kcp
      let kcp := if kcp.nrcvQue < kcp.rcvWnd.toNat ∧ recover then
          { kcp with probe := kcp.probe ||| ikcpAskTell }
        else kcp
      (⟨bytes.length, bytes⟩, kcp)

/-- It takes from the receiving side alone, and may ask to tell the window. -/
theorem pvpIkcpRecv_eq (kcp : IKCPCB) (len : Int) :
    ∃ rcvBuf nrcvBuf rcvQueue nrcvQue rcvNxt probe, (pvpIkcpRecv kcp len).2
      = { kcp with rcvBuf := rcvBuf, nrcvBuf := nrcvBuf, rcvQueue := rcvQueue, nrcvQue := nrcvQue,
                   rcvNxt := rcvNxt, probe := probe } := by
  rw [pvpIkcpRecv]
  split
  · exact ⟨_, _, _, _, _, _, rfl⟩
  dsimp only
  split
  · exact ⟨_, _, _, _, _, _, rfl⟩
  split
  · exact ⟨_, _, _, _, _, _, rfl⟩
  generalize hk : (if len < 0 then kcp else _) = k
  obtain ⟨rcvBuf, nrcvBuf, rcvQueue, nrcvQue, rcvNxt, hset⟩ := moveRcvBuf_eq k.rcvBuf k
  rw [hset]
  subst hk
  split <;> split <;> exact ⟨_, _, _, _, _, _, rfl⟩

end ConnClient.Ikcp
