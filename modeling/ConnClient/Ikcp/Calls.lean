/-
  The calls of a control block, and the invariants of its runs.

  A run is any sequence of calls on a block that was created and configured: messages, datagrams with
  any bytes, any times, and the configuration that may change later (the `mtu` is fixed at creation).

  `pvp_ikcp_input` does three things to a block, and each of the ends of the block is concerned with
  one of them: acknowledgements let segments go (`Settled`), data is taken in (`ikcp_parse_data`), and
  the rest leaves the ground as it is.  `Digest` is what that asks of an invariant; `SndInv` is what
  all calls ask of an invariant of the sending end.

  Nothing is assumed of the bytes of a datagram here, nor of the times, nor of where a datagram is
  given up.  What a string of arbitrary bytes can do to a block is bounded by the functions that read
  it, and that is all an invariant of one block gets to know: each `Digest` has to hold its ground
  against any `una`, any acknowledged `sn`, and any data inside the window.

  What a sender outputs is described beside the invariant (`Labels`, `Outputs`): of every datagram,
  the block at the moment of its output and a property of its segments.
-/
import ConnClient.Ikcp.Delivery

namespace ConnClient.Ikcp

open ConnClient.Lib

/-! ## Calls -/

/-- A call on a block. -/
inductive Call where
  | send (msg : List Byte) (current : IUINT32)
  | sendEx (msg : List Byte) (current : IUINT32)
  | update (current : IUINT32)
  | flush
  /-- With a buffer of `|len|` bytes; a negative `len` peeks. -/
  | recv (len : Int)
  | input (data : List Byte) (current : IUINT32)
  | nodelay (nodelay interval resend nc : Int)
  | wndsize (sndwnd rcvwnd : Int)
  | setdupsend (count dupack dupDynamic dupWait dupWndOn : Int)
  | intervalLost (interval : Int)
  /-- The assignments of `KcpSession::CreateKCP`. -/
  | fields (rxMinrto fastresend : Int)

/-- What a call leaves and outputs. -/
def Call.run (k : IKCPCB) : Call → IKCPCB × List (IKCPCB × List Byte)
  | .send msg current => ((pvpIkcpSend k msg current).2, [])
  | .sendEx msg current => (pvpIkcpSendEx k msg current).2
  | .update current => pvpIkcpUpdate k current
  | .flush => pvpIkcpFlush k
  | .recv len => ((pvpIkcpRecv k len).2, [])
  | .input data current => ((pvpIkcpInput k data current).2, [])
  | .nodelay on interval resend nc => (pvpIkcpNodelay k on interval resend nc, [])
  | .wndsize sndwnd rcvwnd => (pvpIkcpWndsize k sndwnd rcvwnd, [])
  | .setdupsend count dupack dupDynamic dupWait dupWndOn =>
    (pvpIkcpSetdupsend k count dupack dupDynamic dupWait dupWndOn, [])
  | .intervalLost interval => (pvpIkcpIntervalLost k interval, [])
  | .fields rxMinrto fastresend => ({ k with rxMinrto := rxMinrto, fastresend := fastresend }, [])

/-- No call stops. -/
def callStep (c : Call) (k : IKCPCB) : Except Unit IKCPCB := .ok (c.run k).1

/-- The blocks that runs of the calls in `C` get to. -/
abbrev Runs (init : IKCPCB → Prop) (C : Call → Prop) : IKCPCB → Prop :=
  Reach callStep init fun _ c => C c

/-- The windows stay as they were set. -/
def KeepsWindow (c : Call) : Prop := ∀ sndwnd rcvwnd, c ≠ .wndsize sndwnd rcvwnd

/-- **The invariant rule for blocks.** -/
theorem Runs.inv {init : IKCPCB → Prop} {C : Call → Prop} {I : IKCPCB → Prop}
    (h0 : ∀ k, init k → I k) (hcall : ∀ k c, I k → C c → I (c.run k).1) {k : IKCPCB}
    (h : Runs init C k) : I k :=
  Reach.inv h0 (fun k _ c _ hi hc hs => Except.ok.inj hs ▸ hcall k c hi hc) h

/-- Fewer starts, and fewer calls. -/
theorem Runs.mono {init init' : IKCPCB → Prop} {C C' : Call → Prop} (hinit : ∀ k, init k → init' k)
    (hC : ∀ c, C c → C' c) {k : IKCPCB} (h : Runs init C k) : Runs init' C' k := by
  induction h with
  | start h => exact .start (hinit _ h)
  | step _ hc hs ih => exact .step ih (hC _ hc) hs

/-! ## Letting segments go -/

/-- `k'` is `k` after some segments of `snd_buf` were let go, and nothing else but timing. -/
structure Forgot (k k' : IKCPCB) : Prop where
  snd : k'.sndHalf = { k.sndHalf with sndBuf := k'.sndBuf.map IKCPSEG.key }
  rest : k'.ground = { k.ground with snd := k'.sndHalf, nsndBuf := k'.nsndBuf }
  sub : (k'.sndBuf.map IKCPSEG.key).Sublist (k.sndBuf.map IKCPSEG.key)
  count : k.nsndBuf = k.sndBuf.length → k'.nsndBuf = k'.sndBuf.length

/-- `k'` is `k` after acknowledgements: `snd_una` stands at what is left, and the window of the peer
    is either the old one or one that was read from 16 bits. -/
structure Settled (k k' : IKCPCB) : Prop where
  snd : k'.sndHalf = { k.sndHalf with
    sndUna := k'.sndUna
    sndBuf := k'.sndBuf.map IKCPSEG.key }
  rest : k'.ground = { k.ground with snd := k'.sndHalf, nsndBuf := k'.nsndBuf, rmtWnd := k'.rmtWnd }
  sub : (k'.sndBuf.map IKCPSEG.key).Sublist (k.sndBuf.map IKCPSEG.key)
  count : k.nsndBuf = k.sndBuf.length → k'.nsndBuf = k'.sndBuf.length
  una : k'.sndUna = (k'.sndBuf.head?.map IKCPSEG.sn).getD k'.sndNxt
  rmtWnd : k'.rmtWnd = k.rmtWnd ∨ k'.rmtWnd.toNat < 2 ^ 16

/-- Nothing had to go. -/
theorem Forgot.refl (k : IKCPCB) : Forgot k k := ⟨rfl, rfl, List.Sublist.refl _, id⟩

theorem Forgot.trans {a b c : IKCPCB} (h : Forgot a b) (h' : Forgot b c) : Forgot a c := by
  refine ⟨?_, ?_, h'.sub.trans h.sub, fun hc => h'.count (h.count hc)⟩
  · rw [h'.snd, h.snd]
  · rw [h'.rest, h.rest]

theorem ackRtt_ground (k : IKCPCB) (seg : IKCPSEG) :
    (ackRtt k seg).ground = k.ground ∧ (ackRtt k seg).sndBuf = k.sndBuf := by
  obtain ⟨_, _, _, _, hset⟩ := ackRtt_eq k seg
  rw [hset]
  exact ⟨rfl, rfl⟩

/-- One segment of `snd_buf` leaves: it was there, and the others stay. -/
theorem forgot_one {k : IKCPCB} {seg : IKCPSEG} {rest : List IKCPSEG}
    (hsub : rest.Sublist k.sndBuf) (hlen : rest.length + 1 = k.sndBuf.length) :
    Forgot k { ackRtt k seg with sndBuf := rest, nsndBuf := k.nsndBuf - 1 } := by
  obtain ⟨hground, -⟩ := ackRtt_ground k seg
  have hsnd := congrArg Ground.snd hground
  refine ⟨?_, ?_, hsub.map _, fun hc => ?_⟩
  · show ({ (ackRtt k seg).sndHalf with sndBuf := rest.map IKCPSEG.key } : SndHalf) = _
    rw [show (ackRtt k seg).sndHalf = k.sndHalf from hsnd]
  · show ({ (ackRtt k seg).ground with
      snd := { (ackRtt k seg).sndHalf with sndBuf := rest.map IKCPSEG.key }
      nsndBuf := k.nsndBuf - 1 } : Ground) = _
    rw [hground]
    rfl
  · show k.nsndBuf - 1 = rest.length
    omega

/-- Recursion on the segments of `snd_buf`, as in the loop. -/
theorem parseUnaLoop_forgot (una : IUINT32) :
    ∀ (buf : List IKCPSEG) {k : IKCPCB}, k.sndBuf = buf → Forgot k (parseUnaLoop una buf k)
  | [], k, hb => by
    unfold parseUnaLoop
    rw [← hb]
    exact .refl k
  | seg :: rest, k, hb => by
    unfold parseUnaLoop
    split
    · refine Forgot.trans (forgot_one ?_ ?_) (parseUnaLoop_forgot una rest rfl)
      · rw [hb]
        exact List.sublist_cons_self seg rest
      · rw [hb]
        rfl
    · rw [← hb]
      exact .refl k

/-- The segment found leaves alone. -/
theorem findAck_length (sn : IUINT32) {buf rest : List IKCPSEG} {seg : IKCPSEG}
    (h : findAck sn buf = some (seg, rest)) : rest.length + 1 = buf.length := by
  induction buf generalizing seg rest with
  | nil => cases h
  | cons s buf ih =>
    rw [findAck] at h
    split at h
    · cases h
      rfl
    · split at h
      · cases h
      · obtain ⟨⟨seg', rest'⟩, hrec, he⟩ := Option.map_eq_some_iff.mp h
        cases he
        exact congrArg (· + 1) (ih hrec)

theorem ikcpParseAck_forgot (k : IKCPCB) (sn : IUINT32) : Forgot k (ikcpParseAck k sn) := by
  unfold ikcpParseAck
  split
  · exact .refl k
  · split
    · exact .refl k
    · rename_i seg rest hfound
      exact forgot_one (findAck_sublist sn _ _ _ hfound) (findAck_length sn hfound)

/-- `ikcp_shrink_buf` settles what was forgotten. -/
theorem Forgot.settled {k k' : IKCPCB} (h : Forgot k k') : Settled k (ikcpShrinkBuf k') := by
  have hshrink : ikcpShrinkBuf k'
      = { k' with sndUna := (k'.sndBuf.head?.map IKCPSEG.sn).getD k'.sndNxt } := by
    unfold ikcpShrinkBuf
    split <;> rename_i hb <;> rw [hb] <;> rfl
  rw [hshrink]
  have hrmt : k'.rmtWnd = k.rmtWnd := congrArg Ground.rmtWnd h.rest
  refine ⟨?_, ?_, h.sub, h.count, rfl, Or.inl hrmt⟩
  · show ({ k'.sndHalf with sndUna := _ } : SndHalf) = _
    rw [h.snd]
  · show ({ k'.ground with snd := { k'.sndHalf with sndUna := _ } } : Ground) = _
    rw [h.rest, hrmt]
    rfl

/-- What every segment of a datagram does first: the peer's window, and its `una`. -/
theorem settled_una (k : IKCPCB) (wnd : IUINT16) (una : IUINT32) :
    Settled k (ikcpShrinkBuf (ikcpParseUna { k with rmtWnd := wnd.setWidth 32 } una)) := by
  have hforgot := parseUnaLoop_forgot una k.sndBuf (k := { k with rmtWnd := wnd.setWidth 32 }) rfl
  have hs := hforgot.settled
  refine ⟨hs.snd, hs.rest, hs.sub, hs.count, hs.una, Or.inr ?_⟩
  have hrmt : (ikcpShrinkBuf (ikcpParseUna { k with rmtWnd := wnd.setWidth 32 } una)).rmtWnd
      = wnd.setWidth 32 := by
    refine Eq.trans ?_ (congrArg Ground.rmtWnd hforgot.rest)
    unfold ikcpShrinkBuf
    split <;> rfl
  rw [hrmt, BitVec.toNat_setWidth]
  have hlt := wnd.isLt
  omega

/-! ## Taking data in -/

theorem ikcpAckPush_ground (k : IKCPCB) (sn ts : IUINT32) : (ikcpAckPush k sn ts).ground = k.ground := by
  obtain ⟨_, _, _, hset⟩ := ikcpAckPush_eq k sn ts
  rw [hset]
  rfl

/-- The sending end is not concerned. -/
theorem ikcpParseData_sending (k : IKCPCB) (seg : IKCPSEG) :
    (ikcpParseData k seg).ground = { k.ground with
      rcv := (ikcpParseData k seg).rcvHalf
      nrcvBuf := (ikcpParseData k seg).nrcvBuf } := by
  obtain ⟨_, _, _, _, _, hset⟩ := ikcpParseData_eq k seg
  rw [hset]
  rfl

theorem pvpIkcpRecv_sending (k : IKCPCB) (len : Int) :
    (pvpIkcpRecv k len).2.ground = { k.ground with
      rcv := (pvpIkcpRecv k len).2.rcvHalf
      nrcvBuf := (pvpIkcpRecv k len).2.nrcvBuf } := by
  obtain ⟨_, _, _, _, _, _, hset⟩ := pvpIkcpRecv_eq k len
  rw [hset]
  rfl

/-! ## Invariants of `pvp_ikcp_input` -/

/-- **What a datagram asks of an invariant**: that it is about the ground alone, survives any loss
    of segments that leaves `snd_una` at the first of the rest, and survives data inside the window.
    -/
structure Digest (P : IKCPCB → Prop) : Prop where
  same {k k' : IKCPCB} : P k → k'.ground = k.ground → P k'
  settle {k k' : IKCPCB} : P k → Settled k k' → P k'
  data {k : IKCPCB} {seg : IKCPSEG} : P k → itimediff seg.sn (k.rcvNxt + k.rcvWnd) < 0 →
    itimediff seg.sn k.rcvNxt ≥ 0 → P (ikcpParseData k seg)

section Digesting

variable {P I : IKCPCB → Prop} {k : IKCPCB}

theorem Digest.inputData (hd : Digest P) (h : P k) (head : SegHead) (una : IUINT32)
    (payload : List Byte) : P (inputData k head una payload) := by
  unfold Ikcp.inputData
  dsimp only
  generalize getId k.rcvNxt head.tmpSn = sn
  by_cases hwnd : itimediff sn (k.rcvNxt + k.rcvWnd) < 0
  · rw [if_pos hwnd]
    -- the acknowledgement, pushed or not, is no part of the ground
    generalize hk : (if head.cmd = ikcpCmdPush ∨ k.dupack ≠ 0 then ikcpAckPush k sn head.ts else k)
      = k'
    have hground : k'.ground = k.ground := by
      rw [← hk]
      split
      · exact ikcpAckPush_ground ..
      · rfl
    have h' : P k' := hd.same h hground
    have hnxt : k'.rcvNxt = k.rcvNxt := congrArg (fun g => g.rcv.rcvNxt) hground
    have hrcv : k'.rcvWnd = k.rcvWnd := congrArg (fun g => g.rcv.rcvWnd) hground
    split
    · rename_i hold
      exact hd.data h' (by rw [hnxt, hrcv]; exact hwnd) hold
    · exact h'
  · rw [if_neg hwnd]
    exact h

/-- **One segment.** -/
theorem Digest.inputSeg (hd : Digest P) {st : InputSt} (h : P st.kcp) (head : SegHead)
    (payload : List Byte) : P (inputSeg st head payload).kcp := by
  -- every segment acknowledges up to its `una` first; its command is looked at behind that
  have huna := hd.settle h (settled_una st.kcp head.wnd (getId st.kcp.sndNxt head.tmpUna))
  have hack : ∀ {k} sn, P k → P (ikcpShrinkBuf (ikcpParseAck k sn)) := fun sn hk =>
    hd.settle hk (ikcpParseAck_forgot _ sn).settled
  unfold Ikcp.inputSeg
  dsimp only
  split
  · split <;> exact hack _ huna
  split
  · exact hd.inputData huna head _ payload
  split
  · exact hd.same huna rfl
  · exact huna

/-- The loop.  Induction on its rounds. -/
theorem Digest.inputLoop (hd : Digest P) :
    ∀ (n : Nat) (data : List Byte) {st : InputSt}, P st.kcp → P (inputLoop n data st).2.kcp
  | 0, _, _, h => h
  | n + 1, data, st, h => by
    unfold Ikcp.inputLoop
    split
    · exact h
    · exact h
    · exact hd.inputLoop n _ (hd.inputSeg h _ _)

theorem inputEnter_ground (k : IKCPCB) (current : IUINT32) :
    (inputEnter k current).ground = k.ground := by
  obtain ⟨_, _, _, hset⟩ := inputEnter_eq k current
  rw [hset]
  rfl

theorem ikcpParseFastack_ground (k : IKCPCB) (sn : IUINT32) :
    (ikcpParseFastack k sn).ground = k.ground := by
  unfold ikcpParseFastack
  split
  · rfl
  · show ({ k.ground with snd := { k.sndHalf with
      sndBuf := (fastackLoop sn k.sndBuf).map IKCPSEG.key } } : Ground) = _
    rw [fastackLoop_key]
    rfl

theorem inputCwnd_ground (k : IKCPCB) (una : IUINT32) : (inputCwnd k una).ground = k.ground := by
  obtain ⟨_, _, hset⟩ := inputCwnd_eq k una
  rw [hset]
  rfl

/-- **A datagram**, whatever its bytes and wherever it is given up. -/
theorem Digest.input (hd : Digest P) (h : P k) (data : List Byte) (current : IUINT32) :
    P (pvpIkcpInput k data current).2 := by
  have henter : P (inputEnter k current) := hd.same h (inputEnter_ground k current)
  let st : InputSt := { kcp := inputEnter k current, flag := false, maxack := 0 }
  have hst : P st.kcp := henter
  have hloop := hd.inputLoop data.length data hst
  unfold pvpIkcpInput
  dsimp only
  split
  · exact henter
  generalize Ikcp.inputLoop data.length data _ = r at hloop
  obtain ⟨ret, st⟩ := r
  cases ret with
  -- a datagram that is given up leaves the block as the segments before made it
  | some ret => exact hloop
  | none =>
    have hend : P (if st.flag then ikcpParseFastack st.kcp st.maxack else st.kcp) := by
      split
      · exact hd.same hloop (ikcpParseFastack_ground ..)
      · exact hloop
    exact hd.same hend (inputCwnd_ground ..)

/-! ## Invariants of the sending end -/

/-- **What the calls ask of an invariant of the sending end.** The receiving half may change in any
    way; streaming mode is off; and the two ways in which segments come to be, `queue` and `move`,
    are the steps to think about. -/
structure SndInv (I : IKCPCB → Prop) : Prop where
  sending {k k' : IKCPCB} : I k →
    k'.ground = { k.ground with rcv := k'.rcvHalf, nrcvBuf := k'.nrcvBuf } → I k'
  settle {k k' : IKCPCB} : I k → Settled k k' → I k'
  stream {k : IKCPCB} : I k → k.stream = 0
  push {k : IKCPCB} {seg : IKCPSEG} : I k → seg ∈ k.sndBuf → seg.cmd = ikcpCmdPush
  move {k : IKCPCB} {seg : IKCPSEG} {rest : List IKCPSEG} {cwnd : IUINT32} :
    I k → k.sndQueue = seg :: rest → cwnd.toNat ≤ k.sndWnd.toNat → cwnd.toNat ≤ k.rmtWnd.toNat →
      itimediff k.sndNxt (k.sndUna + cwnd) < 0 →
      ∀ current wnd, I (moveSegment current wnd seg rest k)
  queue {k : IKCPCB} {buffer : List Byte} : I k → fragmentCount k.mss buffer.length < 10000 →
    I { k with
      sndQueue := k.sndQueue
        ++ sendFragments k.mss k.stream (fragmentCount k.mss buffer.length) buffer
      nsndQue := k.nsndQue + fragmentCount k.mss buffer.length }

theorem SndInv.same (hi : SndInv I) {k k' : IKCPCB} (h : I k) (he : k'.ground = k.ground) : I k' := by
  refine hi.sending h ?_
  have hrcv : k'.rcvHalf = k.rcvHalf := congrArg Ground.rcv he
  have hnrcv : k'.nrcvBuf = k.nrcvBuf := congrArg Ground.nrcvBuf he
  rw [he, hrcv, hnrcv]
  rfl

/-- No call sets the `mtu`. -/
theorem SndInv.withMtu (hi : SndInv I) (mtu : Nat) : SndInv fun k => I k ∧ k.mtu = mtu where
  sending h he := ⟨hi.sending h.1 he, (congrArg Ground.mtu he).trans h.2⟩
  settle h hs := ⟨hi.settle h.1 hs, (congrArg Ground.mtu hs.rest).trans h.2⟩
  stream h := hi.stream h.1
  push h hs := hi.push h.1 hs
  move h hq hs hr hopen current wnd := ⟨hi.move h.1 hq hs hr hopen current wnd, h.2⟩
  queue h hcount := ⟨hi.queue h.1 hcount, h.2⟩

theorem SndInv.digest (hi : SndInv I) : Digest I where
  same := hi.same
  settle := hi.settle
  data h _ _ := hi.sending h (ikcpParseData_sending ..)

theorem SndInv.send (hi : SndInv I) (h : I k) (msg : List Byte) (current : IUINT32) :
    I (pvpIkcpSend k msg current).2 ∧ (pvpIkcpSend k msg current).2.conv = k.conv
      ∧ (pvpIkcpSend k msg current).2.mtu = k.mtu
      ∧ (pvpIkcpSend k msg current).2.rcvHalf = k.rcvHalf := by
  unfold pvpIkcpSend
  generalize hk : (if current.toNat > 0 then { k with current := current } else k) = k'
  have h' : I k' ∧ k'.conv = k.conv ∧ k'.mtu = k.mtu ∧ k'.rcvHalf = k.rcvHalf := by
    rw [← hk]
    split
    · exact ⟨hi.same h rfl, rfl, rfl, rfl⟩
    · exact ⟨h, rfl, rfl, rfl⟩
  dsimp only
  rw [if_neg (not_not_intro (hi.stream h'.1))]
  unfold sendQueue
  dsimp only
  split
  · exact h'
  · rename_i hcount
    exact ⟨hi.queue h'.1 (Nat.lt_of_not_le hcount), h'.2⟩

/-- A property of the segments a block sends: it depends on little of the block, and control segments
    and copies have it. -/
structure Labels (I : IKCPCB → Prop) (G : IKCPCB → IKCPSEG → Prop) : Prop where
  congr {k k' : IKCPCB} {seg : IKCPSEG} : k.rcvHalf = k'.rcvHalf → k.conv = k'.conv →
    k.mss = k'.mss → G k seg → G k' seg
  control {k : IKCPCB} {seg : IKCPSEG} : I k → Control k seg → G k seg
  data {k₀ k : IKCPCB} {seg copy : IKCPSEG} : I k → k.conv = k₀.conv → k.mss = k₀.mss →
    seg ∈ k.sndBuf → Copy k₀ seg copy → G k₀ copy

/-- Nothing need be said of them. -/
theorem labels_true (I : IKCPCB → Prop) : Labels I fun _ _ => True :=
  ⟨fun _ _ _ _ => trivial, fun _ _ => trivial, fun _ _ _ _ _ => trivial⟩

/-- What is known of an output of a call on `k`. -/
structure Output (I : IKCPCB → Prop) (G : IKCPCB → IKCPSEG → Prop) (k : IKCPCB)
    (e : IKCPCB × List Byte) : Prop where
  block : I e.1
  conv : e.1.conv = k.conv
  mtu : e.1.mtu = k.mtu
  rcv : e.1.rcvHalf = k.rcvHalf
  packed : Packed (G e.1) e.2
  pos : 0 < e.2.length
  short : Roomy I → e.2.length ≤ e.1.mtu

/-- A call left a block with the invariant, and so did every output. -/
def Outputs (I : IKCPCB → Prop) (G : IKCPCB → IKCPSEG → Prop) (k : IKCPCB)
    (r : IKCPCB × List (IKCPCB × List Byte)) : Prop :=
  I r.1 ∧ ∀ e ∈ r.2, Output I G k e

theorem Outputs.nothing {G : IKCPCB → IKCPSEG → Prop} {k' : IKCPCB} (h : I k') :
    Outputs I G k (k', []) :=
  ⟨h, fun _ he => absurd he List.not_mem_nil⟩

/-- What stays as it is while a sender called on `k₀` is at work. -/
def Working (I : IKCPCB → Prop) (k₀ k : IKCPCB) : Prop :=
  I k ∧ k.rcvHalf = k₀.rcvHalf ∧ k.conv = k₀.conv ∧ k.mss = k₀.mss ∧ k.mtu = k₀.mtu

theorem SndInv.emitter (hi : SndInv I) {G : IKCPCB → IKCPSEG → Prop} (hG : Labels I G) {k₀ : IKCPCB}
    (h₀ : I k₀) : Emitter k₀ (Working I k₀) (G k₀) where
  same := by
    rintro k k' ⟨h, hrcv, hconv, hmss, hmtu⟩ he
    exact ⟨hi.same h he, (congrArg Ground.rcv he).trans hrcv,
      (congrArg (fun g => g.snd.conv) he).trans hconv,
      (congrArg (fun g => g.snd.mss) he).trans hmss, (congrArg Ground.mtu he).trans hmtu⟩
  half h := h.2.1
  push h hs := hi.push h.1 hs
  move h hq hs hr hopen current wnd := ⟨hi.move h.1 hq hs hr hopen current wnd, h.2⟩
  control hc := hG.control h₀ hc
  data h hs hc := hG.data h.1 h.2.2.1 h.2.2.2.1 hs hc

/-- What a sender emits, it outputs. -/
theorem Emitted.output {G : IKCPCB → IKCPSEG → Prop} (hG : Labels I G) {k₀ : IKCPCB}
    (hconv : k₀.conv = k.conv) (hmtu : k₀.mtu = k.mtu) (hhalf : k₀.rcvHalf = k.rcvHalf)
    {e : IKCPCB × List Byte} (h : Emitted (Working I k₀) (G k₀) e) : Output I G k e := by
  obtain ⟨⟨hI, hrcv, hc, hmss, hm⟩, hpacked, hpos, hshort⟩ := h
  refine ⟨hI, hc.trans hconv, hm.trans hmtu, hrcv.trans hhalf, hpacked.mono fun seg hs =>
    hG.congr hrcv.symm hc.symm hmss.symm hs, hpos, fun hr => hshort fun k hk => hr k hk.1⟩

theorem SndInv.flush (hi : SndInv I) {G : IKCPCB → IKCPSEG → Prop} (hG : Labels I G) {k₀ : IKCPCB}
    (h₀ : I k₀) (hconv : k₀.conv = k.conv) (hmtu : k₀.mtu = k.mtu)
    (hhalf : k₀.rcvHalf = k.rcvHalf) : Outputs I G k (pvpIkcpFlush k₀) := by
  obtain ⟨hend, hsent⟩ := pvpIkcpFlush_emits (hi.emitter hG h₀) ⟨h₀, rfl, rfl, rfl, rfl⟩
  exact ⟨hend.1, fun e he => (hsent e he).output hG hconv hmtu hhalf⟩

theorem SndInv.update (hi : SndInv I) {G : IKCPCB → IKCPSEG → Prop} (hG : Labels I G) (h : I k)
    (current : IUINT32) : Outputs I G k (pvpIkcpUpdate k current) := by
  have hground := updateHead_ground k current
  unfold pvpIkcpUpdate
  generalize updateHead k current = r at hground
  obtain ⟨flush, k₀⟩ := r
  have h₀ : I k₀ := hi.same h hground
  have hmid : Outputs I G k (if flush then pvpIkcpFlush k₀ else (k₀, [])) := by
    split
    · exact hi.flush hG h₀ (congrArg (fun g => g.snd.conv) hground) (congrArg Ground.mtu hground)
        (congrArg Ground.rcv hground)
    · exact .nothing h₀
  exact ⟨hi.same hmid.1 (pvpIkcpUpdateLost_ground ..), hmid.2⟩

theorem SndInv.sendEx (hi : SndInv I) {G : IKCPCB → IKCPSEG → Prop} (hG : Labels I G) (h : I k)
    (msg : List Byte) (current : IUINT32) : Outputs I G k (pvpIkcpSendEx k msg current).2 := by
  obtain ⟨hsend, hconv, hmtu, hhalf⟩ := hi.send h msg current
  unfold pvpIkcpSendEx
  generalize pvpIkcpSend k msg current = r at hsend hconv hmtu hhalf
  obtain ⟨ret, k₁⟩ := r
  dsimp only at hsend hconv hmtu hhalf ⊢
  split
  · exact .nothing hsend
  split
  · exact .nothing hsend
  generalize hk : (if current.toNat > 0 then { k₁ with current := current } else k₁) = k₀
  have h₀ : I k₀ ∧ k₀.conv = k.conv ∧ k₀.mtu = k.mtu ∧ k₀.rcvHalf = k.rcvHalf := by
    rw [← hk]
    split
    · exact ⟨hi.same hsend rfl, hconv, hmtu, hhalf⟩
    · exact ⟨hsend, hconv, hmtu, hhalf⟩
  -- the sender works on the block at the time given, past `pvp_ikcp_send`
  have hend := sendExFlush_emits (hi.emitter hG h₀.1) ⟨h₀.1, rfl, rfl, rfl, rfl⟩ hk
  exact ⟨hend.block.1, fun e he => (hend.sent e he).output hG h₀.2.1 h₀.2.2.1 h₀.2.2.2⟩

/-- **Every call keeps an invariant of the sending end**, if a change of the window does, and has it at
    every output. -/
theorem SndInv.run (hi : SndInv I) {G : IKCPCB → IKCPSEG → Prop} (hG : Labels I G) (h : I k)
    (c : Call) (hwnd : ∀ s r, c = .wndsize s r → I (pvpIkcpWndsize k s r)) :
    Outputs I G k (c.run k) := by
  cases c with
  | send msg current => exact .nothing (hi.send h msg current).1
  | sendEx msg current => exact hi.sendEx hG h msg current
  | update current => exact hi.update hG h current
  | flush => exact hi.flush hG h rfl rfl rfl
  | recv len => exact .nothing (hi.sending h (pvpIkcpRecv_sending k len))
  | input data current => exact .nothing (hi.digest.input h data current)
  | nodelay on interval resend nc =>
    obtain ⟨_, _, _, _, _, hset⟩ := pvpIkcpNodelay_eq k on interval resend nc
    rw [Call.run, hset]
    exact .nothing (hi.same h rfl)
  | wndsize s r => exact .nothing (hwnd s r rfl)
  | setdupsend => exact .nothing (hi.same h rfl)
  | intervalLost => exact .nothing (hi.same h rfl)
  | fields => exact .nothing (hi.same h rfl)

end Digesting

end ConnClient.Ikcp
