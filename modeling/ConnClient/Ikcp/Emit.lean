/-
  What a sender does, seen from its block and from the wire.

  Between two outputs a sender does three things to its block: it changes fields that nobody asks
  about (`Ground` lists the others), it stamps segments of `snd_buf`, and it moves the head of
  `snd_queue` into `snd_buf` while the window is open.  Between two outputs it does two things to its
  buffer: it appends a control segment, or a copy of a segment of `snd_buf`.

  So what is to be shown of a sender comes down to what `Emitter` asks of a property `P` of blocks
  and a property `G` of segments: `P` says nothing beyond the ground, is kept by one transfer, and
  makes control segments and copies satisfy `G`.  Then the whole sender keeps `P`, has it at every
  output, and outputs strings of segments with `G` (`Emitted`); and if every segment fits the `mtu`
  (`Roomy`), so does every datagram.

  1. **The ground.**  A key of a segment is all of it that no transmission changes; the ground of a
     block is its receiving half, its sending half with the segments cut down to their keys, and its
     counters.  Stamping a segment, or counting it, leaves the ground as it was (`map_set_eq`).

  2. **The walk.**  `Emitting P G` is the invariant of a sender in the middle of its work.  The
     functions are walked in the order in which they call each other: the buffer, a control segment,
     a transmission, a copy, then each loop by one induction whose step is the lemma before it.

  3. **Both senders.**  `pvp_ikcp_flush` and `pvp_ikcp_send_ex` are put together from these.  What is
     asked of them later is an instance of `Emitter`, where it is about each segment by itself.

  `P` is required at every OUTPUT and not at the end alone, because the callback of the source runs in
  the middle of a flush and sees the block as it is there.
-/
import ConnClient.Ikcp.Wire
import ConnClient.Ikcp.Receiver

namespace ConnClient.Ikcp

open ConnClient.Lib

/-! ## The ground of a block -/

/-- A segment of `snd_buf`, without what the transmissions change: its time stamp, window and `una`,
    its timers and its counts. -/
def IKCPSEG.key (seg : IKCPSEG) : IUINT32 × IUINT8 × IUINT32 × Option (Nat × List Byte) :=
  (seg.conv, seg.cmd, seg.numbered)

/-- The fields of the sending half, with each queued segment cut down to its fragment and each
    segment in flight to its key. -/
structure SndHalf where
  conv : IUINT32
  mss : Nat
  stream : Int
  sndWnd : IUINT32
  sndUna : IUINT32
  sndNxt : IUINT32
  sndQueue : List (Nat × List Byte)
  sndBuf : List (IUINT32 × IUINT8 × IUINT32 × Option (Nat × List Byte))

def IKCPCB.sndHalf (kcp : IKCPCB) : SndHalf :=
  ⟨kcp.conv, kcp.mss, kcp.stream, kcp.sndWnd, kcp.sndUna, kcp.sndNxt,
    kcp.sndQueue.map IKCPSEG.unit, kcp.sndBuf.map IKCPSEG.key⟩

/-- What a sender changes by a transfer only.  The counters of the queues are here as the source
    keeps them, beside the queues. -/
structure Ground where
  snd : SndHalf
  rcv : RcvHalf
  mtu : Nat
  rmtWnd : IUINT32
  nsndBuf : Nat
  nsndQue : Nat
  nrcvBuf : Nat

def IKCPCB.ground (kcp : IKCPCB) : Ground :=
  ⟨kcp.sndHalf, kcp.rcvHalf, kcp.mtu, kcp.rmtWnd, kcp.nsndBuf, kcp.nsndQue, kcp.nrcvBuf⟩

/-- Replacing an element by one with the same image does not change the images. -/
theorem map_set_eq {α β : Type} {f : α → β} {l : List α} {i : Nat} {a b : α} (h : l[i]? = some a)
    (hf : f b = f a) : (l.set i b).map f = l.map f := by
  rw [List.map_set, hf]
  apply List.ext_getElem?
  intro j
  by_cases hij : i = j
  · subst hij
    rw [List.getElem?_set, List.getElem?_map, h, if_pos rfl, List.length_map,
      if_pos (List.getElem?_eq_some_iff.mp h).1]
    rfl
  · rw [List.getElem?_set, if_neg hij]

theorem updateProbe_ground (kcp : IKCPCB) : (updateProbe kcp).ground = kcp.ground := by
  obtain ⟨_, _, _, hset⟩ := updateProbe_eq kcp
  rw [hset]
  rfl

theorem dueKcp_ground (segment : IKCPSEG) (kcp : IKCPCB) (due : Due) :
    (dueKcp segment kcp due).ground = kcp.ground ∧ (dueKcp segment kcp due).sndBuf = kcp.sndBuf := by
  obtain ⟨_, _, _, _, hset⟩ := dueKcp_eq segment kcp due
  rw [hset]
  exact ⟨rfl, rfl⟩

/-- What the `if` chain assigns leaves the key alone. -/
theorem dueSegment_key (a : FlushArgs) (kcp : IKCPCB) (segment : IKCPSEG) (due : Due) :
    (dueSegment a kcp segment due).key = segment.key := by
  cases due <;> rfl

theorem flushTail_ground (cwnd resent : IUINT32) (change lost : Bool) (kcp : IKCPCB) :
    (flushTail cwnd resent change lost kcp).ground = kcp.ground := by
  obtain ⟨_, _, _, _, hset⟩ := flushTail_eq cwnd resent change lost kcp
  rw [hset]
  rfl

theorem pvpIkcpUpdateLost_ground (kcp : IKCPCB) (current : IUINT32) :
    (pvpIkcpUpdateLost kcp current).ground = kcp.ground := by
  obtain ⟨_, _, _, _, hset⟩ := pvpIkcpUpdateLost_eq kcp current
  rw [hset]
  rfl

theorem updateHead_ground (kcp : IKCPCB) (current : IUINT32) :
    (updateHead kcp current).2.ground = kcp.ground := by
  obtain ⟨_, _, hset⟩ := updateHead_eq kcp current
  rw [hset]
  rfl

/-- The window a sender computes is within its own and its peer's. -/
theorem sendCwnd_le (kcp : IKCPCB) :
    (sendCwnd kcp).toNat ≤ kcp.sndWnd.toNat ∧ (sendCwnd kcp).toNat ≤ kcp.rmtWnd.toNat := by
  have hmin : ∀ a b : IUINT32, (imin a b).toNat ≤ a.toNat ∧ (imin a b).toNat ≤ b.toNat := by
    intro a b
    unfold imin
    split
    · rename_i hle
      exact ⟨Nat.le_refl _, hle⟩
    · rename_i hle
      have := BitVec.not_le.mp hle
      exact ⟨Nat.le_of_lt this, Nat.le_refl _⟩
  unfold sendCwnd
  split
  · exact ⟨Nat.le_trans (hmin _ _).2 (hmin _ _).1, Nat.le_trans (hmin _ _).2 (hmin _ _).2⟩
  · exact hmin _ _

/-- The window a block offers is the receiving half's. -/
theorem ikcpWndUnused_congr {k k' : IKCPCB} (h : k.rcvHalf = k'.rcvHalf) :
    ikcpWndUnused k = ikcpWndUnused k' := by
  have hwnd : k.rcvWnd = k'.rcvWnd := congrArg RcvHalf.rcvWnd h
  have hque : k.nrcvQue = k'.nrcvQue := congrArg RcvHalf.nrcvQue h
  unfold ikcpWndUnused
  rw [hwnd, hque]

/-- The acknowledgement loop does not change the block.  Induction on the pairs that are left. -/
theorem flushAcks_kcp :
    ∀ (n i : Nat) (s : IKCPSEG × Out), (flushAcks n i s).2.kcp = s.2.kcp
  | 0, _, _ => rfl
  | n + 1, i, (_, out) => (flushAcks_kcp n (i + 1) (_, _)).trans (makeRoom_kcp ikcpOverhead out)

theorem flushProbe_kcp (ask : IUINT32) (cmd : IUINT8) (s : IKCPSEG × Out) :
    (flushProbe ask cmd s).2.kcp = s.2.kcp := by
  rw [flushProbe]
  dsimp only
  split
  · rw [put_kcp, makeRoom_kcp]
  · rfl

/-- What stands before the data loop of a flush, as its block shows it. -/
theorem flushHead_kcp (k : IKCPCB) : ∃ tsProbe probeWait, (flushHead k).2.kcp
    = moveSndQueue k.current (ikcpWndUnused k) (sendCwnd k) k.sndQueue
        { k with ackcount := 0, tsProbe := tsProbe, probeWait := probeWait, probe := 0 } := by
  let s := flushAcks k.ackcount 0 (controlSeg k, { kcp := k })
  let out := s.2.upd fun kcp => updateProbe { kcp with ackcount := 0 }
  have hs : s.2.kcp = k := flushAcks_kcp ..
  obtain ⟨tsProbe, probeWait, probe, hprobe⟩ := updateProbe_eq { k with ackcount := 0 }
  have hout : out.kcp = { k with
      ackcount := 0, tsProbe := tsProbe, probeWait := probeWait, probe := probe } := by
    show updateProbe { s.2.kcp with ackcount := 0 } = _
    rw [hs, hprobe]
  -- neither of the two probing commands touches the block
  have hasked : (flushProbe ikcpAskTell ikcpCmdWins
      (flushProbe ikcpAskSend ikcpCmdWask (s.1, out))).2.kcp = out.kcp := by
    rw [flushProbe_kcp, flushProbe_kcp]
  refine ⟨tsProbe, probeWait, ?_⟩
  rw [flushHead]
  dsimp only
  rw [upd_kcp, upd_kcp, hasked, hout]
  rfl

/-- Everything before the data loop of a flush. -/
theorem flushHead_eq (k : IKCPCB) :
    ∃ tsProbe probeWait rest new nsndQue nsndBuf sndNxt, (flushHead k).2.kcp
        = { k with ackcount := 0, tsProbe := tsProbe, probeWait := probeWait, probe := 0,
                   sndQueue := rest, sndBuf := k.sndBuf ++ new, nsndQue := nsndQue,
                   nsndBuf := nsndBuf, sndNxt := sndNxt }
      ∧ ∀ seg ∈ new, seg.xmit = 0 := by
  obtain ⟨tsProbe, probeWait, hhead⟩ := flushHead_kcp k
  obtain ⟨rest, new, nsndQue, nsndBuf, sndNxt, hmove, hnew⟩ := moveSndQueue_eq k.current
    (ikcpWndUnused k) (sendCwnd k) k.sndQueue
    { k with ackcount := 0, tsProbe := tsProbe, probeWait := probeWait, probe := 0 }
  exact ⟨tsProbe, probeWait, rest, new, nsndQue, nsndBuf, sndNxt, hhead.trans hmove, hnew⟩

/-- What a round of the data loop changes. -/
theorem flushSegment_eq (a : FlushArgs) (i : Nat) (segment : IKCPSEG) (st : FlushSt) :
    ∃ sndBuf state xmit cursendcount totallostcount curlostcount, (flushSegment a i segment st).out.kcp
      = { st.out.kcp with sndBuf := sndBuf, state := state, xmit := xmit,
                          cursendcount := cursendcount, totallostcount := totallostcount,
                          curlostcount := curlostcount } := by
  have hsend : ∀ segment' due, ∃ sndBuf state xmit cursendcount totallostcount curlostcount,
      (sendSegment i segment' (st.out.upd fun kcp => dueKcp segment kcp due)).kcp
        = { st.out.kcp with sndBuf := sndBuf, state := state, xmit := xmit,
                            cursendcount := cursendcount, totallostcount := totallostcount,
                            curlostcount := curlostcount } := by
    intro segment' due
    obtain ⟨xmit, cursendcount, totallostcount, curlostcount, hdue⟩ := dueKcp_eq segment st.out.kcp due
    rw [sendSegment, upd_kcp, put_kcp, makeRoom_kcp, upd_kcp, upd_kcp, hdue]
    exact ⟨_, _, _, _, _, _, rfl⟩
  rw [flushSegment]
  split
  · split <;> exact ⟨_, _, _, _, _, _, rfl⟩
  · exact hsend _ _

/-- A round of the data loop keeps at most its own position, behind the others. -/
theorem flushSegment_dupSegs (a : FlushArgs) (segment : IKCPSEG) {i : Nat} {st : FlushSt} {Q : Nat → Prop}
    (hnodup : st.dupSegs.Nodup) (hdups : ∀ j ∈ st.dupSegs, j < i ∧ Q j)
    (hnew : segmentDue a segment = .no →
      wantsDup a st.out.kcp segment st.dupSegs.length = true → Q i) :
    (flushSegment a i segment st).dupSegs.Nodup
      ∧ ∀ j ∈ (flushSegment a i segment st).dupSegs, j < i + 1 ∧ Q j := by
  have hold : ∀ j ∈ st.dupSegs, j < i + 1 ∧ Q j := by
    intro j hj
    obtain ⟨hlt, hQ⟩ := hdups j hj
    exact ⟨Nat.lt_succ_of_lt hlt, hQ⟩
  rw [flushSegment]
  split
  · rename_i hdue
    split
    · rename_i hwants
      constructor
      · -- every position kept before is smaller than this one
        refine List.nodup_append.mpr ⟨hnodup, List.nodup_singleton i, fun j hj l hl => ?_⟩
        rw [List.mem_singleton.mp hl]
        exact Nat.ne_of_lt (hdups j hj).1
      · intro j hj
        rcases List.mem_append.mp hj with hj | hj
        · exact hold j hj
        · rw [List.mem_singleton.mp hj]
          exact ⟨Nat.lt_succ_self i, hnew hdue hwants⟩
    · exact ⟨hnodup, hold⟩
  · exact ⟨hnodup, hold⟩

/-! ## One round of the loop of `pvp_ikcp_send_ex` -/

/-- A segment as it is transferred and first sent. -/
def firstSent (a : FlushArgs) (kcp : IKCPCB) (seg : IKCPSEG) : IKCPSEG :=
  let rto : IUINT32 := BitVec.ofInt 32 kcp.rxRto
  { newSegment kcp a.current a.wnd seg with
    firstTs := a.current, xmit := 1, rto := rto, resendts := a.current + rto + a.rtomin,
    ts := a.current }

theorem firstSent_cmd (a : FlushArgs) (kcp : IKCPCB) (seg : IKCPSEG) :
    (firstSent a kcp seg).cmd = ikcpCmdPush := rfl

/-- The segment is transferred, and sent. -/
def sendExRound (a : FlushArgs) (seg : IKCPSEG) (rest : List IKCPSEG) (out : Out) : Out :=
  let segment := firstSent a out.kcp seg
  let moved := out.upd fun kcp =>
    countSent out.kcp.sndBuf.length segment (moveSegment a.current a.wnd seg rest kcp)
  (makeRoom (ikcpOverhead + segment.len) moved).put (ikcpSegBytes segment)

theorem sendExLoop_cons {a : FlushArgs} {cwnd : IUINT32} {seg : IKCPSEG} {rest : List IKCPSEG}
    {out : Out} (hopen : itimediff out.kcp.sndNxt (out.kcp.sndUna + cwnd) < 0) :
    sendExLoop a.current a.wnd cwnd a.rtomin (seg :: rest) out
      = sendExLoop a.current a.wnd cwnd a.rtomin rest (sendExRound a seg rest out) := by
  rw [sendExLoop, if_pos hopen]
  rfl

theorem sendExRound_kcp (a : FlushArgs) (seg : IKCPSEG) (rest : List IKCPSEG) (out : Out) :
    (sendExRound a seg rest out).kcp = countSent out.kcp.sndBuf.length (firstSent a out.kcp seg)
      (moveSegment a.current a.wnd seg rest out.kcp) := by
  rw [sendExRound, put_kcp, makeRoom_kcp, upd_kcp]

theorem sendExRound_sndBuf (a : FlushArgs) (seg : IKCPSEG) (rest : List IKCPSEG) (out : Out) :
    (sendExRound a seg rest out).kcp.sndBuf = out.kcp.sndBuf ++ [firstSent a out.kcp seg] := by
  rw [sendExRound_kcp]
  show (out.kcp.sndBuf ++ [newSegment out.kcp a.current a.wnd seg]).set out.kcp.sndBuf.length _ = _
  rw [List.set_append_right _ _ (Nat.le_refl _), Nat.sub_self]
  rfl

/-! ## What is asked of the two properties -/

/-- A control segment of a sender called on `k₀`: the window and the `una` are those of the moment
    of the call, for the receiving half stands still while a sender works. -/
structure Control (k₀ : IKCPCB) (seg : IKCPSEG) : Prop where
  conv : seg.conv = k₀.conv
  cmd : seg.cmd = ikcpCmdAck ∨ seg.cmd = ikcpCmdWask ∨ seg.cmd = ikcpCmdWins
  wnd : seg.wnd = ikcpWndUnused k₀
  una : seg.una = k₀.rcvNxt
  frg : seg.frg = 0
  data : seg.data = []

/-- `copy` is `seg` as a sender called on `k₀` puts it on the wire. -/
structure Copy (k₀ : IKCPCB) (seg copy : IKCPSEG) : Prop where
  conv : copy.conv = seg.conv
  cmd : copy.cmd = ikcpCmdPush ∨ copy.cmd = ikcpCmdDups
  numbered : copy.numbered = seg.numbered
  frg : copy.frg = seg.frg
  wnd : copy.wnd = ikcpWndUnused k₀
  una : copy.una = k₀.rcvNxt

/-- **What makes `P` an invariant of a sender called on `k₀`, and `G` a property of what it sends.**
    `same`, `half` and `push` say what `P` may depend on and what it must know; `move` is the only
    step an instance has to think about, and gets all that the loop checked before it; `control` and
    `data` turn what the sender writes into `G`. -/
structure Emitter (k₀ : IKCPCB) (P : IKCPCB → Prop) (G : IKCPSEG → Prop) : Prop where
  same {k k' : IKCPCB} : P k → k'.ground = k.ground → P k'
  half {k : IKCPCB} : P k → k.rcvHalf = k₀.rcvHalf
  push {k : IKCPCB} {seg : IKCPSEG} : P k → seg ∈ k.sndBuf → seg.cmd = ikcpCmdPush
  move {k : IKCPCB} {seg : IKCPSEG} {rest : List IKCPSEG} {cwnd : IUINT32} :
    P k → k.sndQueue = seg :: rest → cwnd.toNat ≤ k.sndWnd.toNat → cwnd.toNat ≤ k.rmtWnd.toNat →
      itimediff k.sndNxt (k.sndUna + cwnd) < 0 →
      ∀ current wnd, P (moveSegment current wnd seg rest k)
  control {seg : IKCPSEG} : Control k₀ seg → G seg
  data {k : IKCPCB} {seg copy : IKCPSEG} : P k → seg ∈ k.sndBuf → Copy k₀ seg copy → G copy

/-- Two invariants of one sender. -/
theorem Emitter.and {k₀ : IKCPCB} {P P' : IKCPCB → Prop} {G G' : IKCPSEG → Prop}
    (h : Emitter k₀ P G) (h' : Emitter k₀ P' G') :
    Emitter k₀ (fun k => P k ∧ P' k) fun seg => G seg ∧ G' seg where
  same hk he := ⟨h.same hk.1 he, h'.same hk.2 he⟩
  half hk := h.half hk.1
  push hk hs := h.push hk.1 hs
  move hk hq hs hr hopen current wnd :=
    ⟨h.move hk.1 hq hs hr hopen current wnd, h'.move hk.2 hq hs hr hopen current wnd⟩
  control hc := ⟨h.control hc, h'.control hc⟩
  data hk hs hc := ⟨h.data hk.1 hs hc, h'.data hk.2 hs hc⟩

/-- Every segment fits a datagram.  It is a hypothesis of the bound on datagrams alone, so that an
    instance which does not care about lengths need not show it. -/
def Roomy (P : IKCPCB → Prop) : Prop :=
  ∀ k, P k → ikcpOverhead ≤ k.mtu ∧ ∀ seg ∈ k.sndBuf, ikcpOverhead + seg.len ≤ k.mtu

/-- What is known of an output: the block the callback sees, and the string it is given, which is
    never empty. -/
structure Emitted (P : IKCPCB → Prop) (G : IKCPSEG → Prop) (e : IKCPCB × List Byte) : Prop where
  block : P e.1
  packed : Packed G e.2
  pos : 0 < e.2.length
  short : Roomy P → e.2.length ≤ e.1.mtu

/-- What is known of a sender at work. -/
structure Emitting (P : IKCPCB → Prop) (G : IKCPSEG → Prop) (out : Out) : Prop where
  block : P out.kcp
  ptr : Packed G out.ptr
  short : Roomy P → out.ptr.length ≤ out.kcp.mtu
  sent : ∀ e ∈ out.sent, Emitted P G e

section Emission

variable {k₀ : IKCPCB} {P : IKCPCB → Prop} {G : IKCPSEG → Prop} {out : Out}

theorem Emitting.start {k : IKCPCB} (h : P k) : Emitting P G { kcp := k } :=
  ⟨h, packed_nil, fun _ => Nat.zero_le _, fun _ he => absurd he List.not_mem_nil⟩

/-! ## The buffer -/

theorem Emitting.output (h : Emitting P G out) : Emitting P G (ikcpOutput out) := by
  unfold ikcpOutput
  by_cases hempty : out.ptr.length = 0
  · rw [if_pos hempty]
    exact h
  · rw [if_neg hempty]
    refine ⟨h.block, packed_nil, fun _ => Nat.zero_le _, fun e he => ?_⟩
    rcases List.mem_append.mp he with he | he
    · exact h.sent e he
    · rw [List.mem_singleton.mp he]
      exact ⟨h.block, h.ptr, Nat.pos_of_ne_zero hempty, h.short⟩

theorem Emitting.makeRoom (h : Emitting P G out) (need : Nat) :
    Emitting P G (makeRoom need out) := by
  unfold Ikcp.makeRoom
  split
  · exact h.output
  · exact h

/-- The room that was made is there. -/
theorem room_makeRoom {need : Nat} (h : need ≤ out.kcp.mtu) :
    (makeRoom need out).ptr.length + need ≤ (makeRoom need out).kcp.mtu := by
  rw [makeRoom_kcp]
  unfold makeRoom
  split
  · unfold ikcpOutput
    split
    · omega
    · show 0 + need ≤ _
      omega
  · omega

theorem Emitting.put (h : Emitting P G out) {seg : IKCPSEG} (hg : G seg)
    (hroom : Roomy P → out.ptr.length + (ikcpOverhead + seg.len) ≤ out.kcp.mtu) :
    Emitting P G (out.put (ikcpSegBytes seg)) := by
  refine ⟨h.block, h.ptr.snoc hg, fun hr => ?_, h.sent⟩
  show (out.ptr ++ ikcpSegBytes seg).length ≤ _
  rw [List.length_append, length_ikcpSegBytes]
  exact hroom hr

/-- The block changes, and of it at least the `mtu` stays. -/
theorem Emitting.become (h : Emitting P G out) {f : IKCPCB → IKCPCB} (hP : P (f out.kcp))
    (hmtu : (f out.kcp).mtu = out.kcp.mtu) : Emitting P G (out.upd f) :=
  ⟨hP, h.ptr, fun hr => Nat.le_trans (h.short hr) (Nat.le_of_eq hmtu.symm), h.sent⟩

/-- What a sender leaves, and what it outputs. -/
def Emits (P : IKCPCB → Prop) (G : IKCPSEG → Prop) (r : IKCPCB × List (IKCPCB × List Byte)) : Prop :=
  P r.1 ∧ ∀ e ∈ r.2, Emitted P G e

theorem Emits.nothing {k : IKCPCB} (h : P k) : Emits P G (k, []) :=
  ⟨h, fun _ he => absurd he List.not_mem_nil⟩

/-- A segment with the key of one of `snd_buf` has its length. -/
theorem len_of_key {new old : IKCPSEG} (hkey : new.key = old.key) : new.len = old.len := by
  have hnum : new.numbered = old.numbered := congrArg (fun k => k.2.2) hkey
  have hunit : new.unit = old.unit := Option.some.inj (congrArg Prod.snd hnum)
  exact congrArg (fun u => u.2.length) hunit

theorem controlSeg_control : Control k₀ (controlSeg k₀) :=
  ⟨rfl, Or.inl rfl, rfl, rfl, rfl, rfl⟩

variable (hem : Emitter k₀ P G)
include hem

theorem Emitting.upd (h : Emitting P G out) {f : IKCPCB → IKCPCB}
    (hf : (f out.kcp).ground = out.kcp.ground) : Emitting P G (out.upd f) :=
  h.become (hem.same h.block hf) (congrArg Ground.mtu hf)

/-! ## Acknowledgements and probes -/

/-- A control segment is appended behind the room made for it. -/
theorem Emitting.control (h : Emitting P G out) {seg : IKCPSEG} (hc : Control k₀ seg) :
    Emitting P G ((Ikcp.makeRoom ikcpOverhead out).put (ikcpEncodeSeg seg)) := by
  rw [ikcpSegBytes_control hc.data]
  refine (h.makeRoom _).put (hem.control hc) fun hr => ?_
  have hlen : seg.len = 0 := congrArg List.length hc.data
  rw [hlen]
  exact room_makeRoom (hr _ h.block).1

/-- The acknowledgement loop.  Induction on the pairs that are left. -/
theorem flushAcks_emits :
    ∀ (n i : Nat) (s : IKCPSEG × Out), Control k₀ s.1 → Emitting P G s.2 →
      Control k₀ (flushAcks n i s).1 ∧ Emitting P G (flushAcks n i s).2
  | 0, _, _, hc, h => ⟨hc, h⟩
  | n + 1, i, (seg, out), hc, h => by
    have hc' : Control k₀ { seg with
        sn := (ikcpAckGet (Ikcp.makeRoom ikcpOverhead out).kcp i).1
        ts := (ikcpAckGet (Ikcp.makeRoom ikcpOverhead out).kcp i).2 } :=
      ⟨hc.conv, hc.cmd, hc.wnd, hc.una, hc.frg, hc.data⟩
    exact flushAcks_emits n (i + 1) (_, _) hc' (h.control hem hc')

theorem flushProbe_emits {ask : IUINT32} {cmd : IUINT8} {s : IKCPSEG × Out}
    (hcmd : cmd = ikcpCmdAck ∨ cmd = ikcpCmdWask ∨ cmd = ikcpCmdWins) (hc : Control k₀ s.1)
    (h : Emitting P G s.2) :
    Control k₀ (flushProbe ask cmd s).1 ∧ Emitting P G (flushProbe ask cmd s).2 := by
  obtain ⟨seg, out⟩ := s
  unfold flushProbe
  dsimp only
  split
  · have hc' : Control k₀ { seg with cmd := cmd } := ⟨hc.conv, hcmd, hc.wnd, hc.una, hc.frg, hc.data⟩
    exact ⟨hc', h.control hem hc'⟩
  · exact ⟨hc, h⟩

/-! ## Data segments -/

/-- Replacing a segment of `snd_buf` by one with the same key. -/
theorem Emitting.set (h : Emitting P G out) {i : Nat} {old new : IKCPSEG}
    (hi : out.kcp.sndBuf[i]? = some old) (hkey : new.key = old.key) {f : IKCPCB → IKCPCB}
    (hf : ∀ kcp, (f kcp).ground = { kcp.ground with snd := { kcp.sndHalf with
      sndBuf := (kcp.sndBuf.set i new).map IKCPSEG.key } }) : Emitting P G (out.upd f) := by
  refine h.upd hem ?_
  rw [hf, map_set_eq hi hkey]
  rfl

/-- A segment with the key of one of `snd_buf`, stamped and under either data command. -/
theorem Emitting.copy (h : Emitting P G out) {i : Nat} {old new : IKCPSEG}
    (hi : out.kcp.sndBuf[i]? = some old) (hkey : new.key = old.key)
    (hwnd : new.wnd = ikcpWndUnused k₀) (huna : new.una = out.kcp.rcvNxt) {cmd : IUINT8}
    (hcmd : cmd = ikcpCmdPush ∨ cmd = ikcpCmdDups) : G { new with cmd := cmd } := by
  have hnum : new.numbered = old.numbered := congrArg (fun k => k.2.2) hkey
  have hunit : new.unit = old.unit := Option.some.inj (congrArg Prod.snd hnum)
  refine hem.data h.block (List.mem_of_getElem? hi) ⟨congrArg Prod.fst hkey, hcmd, hnum, ?_, hwnd, ?_⟩
  · exact BitVec.eq_of_toNat_eq (congrArg Prod.fst hunit)
  · exact huna.trans (congrArg RcvHalf.rcvNxt (hem.half h.block))

/-- **A transmission.** -/
theorem sendSegment_emits (h : Emitting P G out) {i : Nat} {old new : IKCPSEG}
    (hi : out.kcp.sndBuf[i]? = some old) (hkey : new.key = old.key)
    (hwnd : new.wnd = ikcpWndUnused k₀) (huna : new.una = out.kcp.rcvNxt) :
    Emitting P G (sendSegment i new out) := by
  -- a segment of `snd_buf` has the plain command, so the branch that restores it is not taken
  have hcmd : new.cmd = ikcpCmdPush :=
    (congrArg (fun k => k.2.1) hkey).trans (hem.push h.block (List.mem_of_getElem? hi))
  have hnot : ¬ new.cmd = ikcpCmdDups := by rw [hcmd]; decide
  have hg : G new := by
    have hcopy := h.copy hem hi hkey hwnd huna (Or.inl hcmd)
    exact hcopy
  have hset : Emitting P G (out.upd fun kcp => { kcp with sndBuf := kcp.sndBuf.set i new }) :=
    h.set hem hi hkey fun _ => rfl
  simp only [sendSegment, if_neg hnot]
  refine Emitting.upd hem ?_ rfl
  refine (hset.makeRoom _).put hg fun hr => room_makeRoom ?_
  rw [len_of_key hkey]
  exact (hr _ h.block).2 _ (List.mem_of_getElem? hi)

/-- **A redundant copy**, where there is room for it. -/
theorem sendDup_emits (h : Emitting P G out) {i : Nat} {old new : IKCPSEG}
    (hi : out.kcp.sndBuf[i]? = some old) (hkey : new.key = old.key)
    (hwnd : new.wnd = ikcpWndUnused k₀) (huna : new.una = out.kcp.rcvNxt)
    (hroom : Roomy P → out.ptr.length + (ikcpOverhead + new.len) ≤ out.kcp.mtu) :
    Emitting P G (sendDup i new out) := by
  have hcmd : new.cmd = ikcpCmdPush :=
    (congrArg (fun k => k.2.1) hkey).trans (hem.push h.block (List.mem_of_getElem? hi))
  -- the command is changed for the wire and put back in the block
  have hkey' : IKCPSEG.key { new with cmd := ikcpCmdPush } = old.key := by
    rw [← hkey, IKCPSEG.key, IKCPSEG.key, hcmd]
    rfl
  have hset : Emitting P G (out.upd fun kcp => { kcp with
      sndBuf := kcp.sndBuf.set i { new with cmd := ikcpCmdPush }
      xmit := kcp.xmit + 1 }) := h.set hem hi hkey' fun _ => rfl
  exact hset.put (h.copy hem hi hkey hwnd huna (Or.inr rfl)) hroom

theorem flushSegment_emits {a : FlushArgs} (ha : a.wnd = ikcpWndUnused k₀) {i : Nat}
    {segment : IKCPSEG} {st : FlushSt} (h : Emitting P G st.out)
    (hi : st.out.kcp.sndBuf[i]? = some segment) : Emitting P G (flushSegment a i segment st).out := by
  -- what the `if` chain assigns to the segment leaves its key, and what it assigns to the block
  -- leaves the ground
  have hsend : ∀ due, Emitting P G (sendSegment i
      (stamped a st.out.kcp.rcvNxt (dueSegment a st.out.kcp segment due))
      (st.out.upd fun kcp => dueKcp segment kcp due)) := by
    intro due
    obtain ⟨hground, hbuf⟩ := dueKcp_ground segment st.out.kcp due
    have hold : (st.out.upd fun kcp => dueKcp segment kcp due).kcp.sndBuf[i]? = some segment := by
      rw [upd_kcp, hbuf]
      exact hi
    have hnxt : st.out.kcp.rcvNxt = (dueKcp segment st.out.kcp due).rcvNxt :=
      (congrArg (fun g => g.rcv.rcvNxt) hground).symm
    exact sendSegment_emits hem (h.upd hem hground) hold (dueSegment_key a _ segment due) ha hnxt
  unfold flushSegment
  split
  · split <;> exact h
  · exact hsend _

/-- The data loop.  Induction on the segments that are left. -/
theorem flushData_emits {a : FlushArgs} (ha : a.wnd = ikcpWndUnused k₀) :
    ∀ (n i : Nat) (st : FlushSt), Emitting P G st.out → Emitting P G (flushData a n i st).out
  | 0, _, _, h => h
  | n + 1, i, st, h => by
    unfold flushData
    split
    · exact h
    · rename_i segment hi
      exact flushData_emits ha n (i + 1) _ (flushSegment_emits hem ha h hi)

/-- The loop over `dup_segs`.  Induction on the list. -/
theorem flushDups_emits {a : FlushArgs} (ha : a.wnd = ikcpWndUnused k₀) :
    ∀ (is : List Nat) (out : Out), Emitting P G out → Emitting P G (flushDups a is out)
  | [], _, h => h
  | i :: is, out, h => by
    unfold flushDups
    split
    · exact flushDups_emits ha is out h
    · rename_i dupSeg hi
      have hold : (Ikcp.makeRoom (ikcpOverhead + dupSeg.len) out).kcp.sndBuf[i]? = some dupSeg := by
        rw [makeRoom_kcp]
        exact hi
      -- the room was made just before the copy
      refine flushDups_emits ha is _ (sendDup_emits hem (h.makeRoom _) hold rfl ha rfl fun hr => ?_)
      exact room_makeRoom ((hr _ h.block).2 _ (List.mem_of_getElem? hi))

/-- The walk back over the older segments.  Induction on the position. -/
theorem sendExDups_emits {current wnd : IUINT32} (hwnd : wnd = ikcpWndUnused k₀) :
    ∀ (i n : Nat) (out : Out), Emitting P G out → Emitting P G (sendExDups current wnd i n out)
  | 0, _, _, h => h
  | i + 1, n, out, h => by
    unfold sendExDups
    split
    · exact h
    · rename_i dupSeg hi
      split
      · exact h
      · -- here no room is made: the walk ends at the first copy that does not fit
        rename_i hroom
        split
        · exact h
        · exact sendExDups_emits hwnd i (n + 1) _
            (sendDup_emits hem h hi rfl hwnd rfl fun _ => Nat.le_of_not_lt hroom)

/-! ## Transfers -/

/-- The transfer loop of `pvp_ikcp_flush`.  Recursion on the segments of `snd_queue`. -/
theorem moveSndQueue_keeps (current wnd : IUINT32) {cwnd : IUINT32} :
    ∀ (queue : List IKCPSEG) {k : IKCPCB}, k.sndQueue = queue → cwnd.toNat ≤ k.sndWnd.toNat →
      cwnd.toNat ≤ k.rmtWnd.toNat → P k → P (moveSndQueue current wnd cwnd queue k)
        ∧ (moveSndQueue current wnd cwnd queue k).mtu = k.mtu
  | [], _, _, _, _, h => ⟨h, rfl⟩
  | seg :: rest, k, hq, hs, hr, h => by
    unfold moveSndQueue
    by_cases hwnd : itimediff k.sndNxt (k.sndUna + cwnd) < 0
    · rw [if_pos hwnd]
      exact moveSndQueue_keeps current wnd rest rfl hs hr (hem.move h hq hs hr hwnd current wnd)
    · rw [if_neg hwnd]
      exact ⟨h, rfl⟩

/-- **One round of the loop of `pvp_ikcp_send_ex`.** -/
theorem sendExRound_emits {a : FlushArgs} (hwnd : a.wnd = ikcpWndUnused k₀) {cwnd : IUINT32}
    {seg : IKCPSEG} {rest : List IKCPSEG} (hq : out.kcp.sndQueue = seg :: rest)
    (hs : cwnd.toNat ≤ out.kcp.sndWnd.toNat) (hr : cwnd.toNat ≤ out.kcp.rmtWnd.toNat)
    (hopen : itimediff out.kcp.sndNxt (out.kcp.sndUna + cwnd) < 0) (h : Emitting P G out) :
    G (firstSent a out.kcp seg) ∧ Emitting P G (sendExRound a seg rest out) := by
  have hkey : (firstSent a out.kcp seg).key = (newSegment out.kcp a.current a.wnd seg).key := rfl
  -- the transfer first, which `Emitter.move` allows; then the new last segment is stamped
  have hmoved : Emitting P G (out.upd (moveSegment a.current a.wnd seg rest)) :=
    h.become (hem.move h.block hq hs hr hopen a.current a.wnd) rfl
  have hi : (out.upd (moveSegment a.current a.wnd seg rest)).kcp.sndBuf[out.kcp.sndBuf.length]?
      = some (newSegment out.kcp a.current a.wnd seg) := by
    show (out.kcp.sndBuf ++ [newSegment out.kcp a.current a.wnd seg])[out.kcp.sndBuf.length]? = _
    rw [List.getElem?_append_right (Nat.le_refl _), Nat.sub_self]
    rfl
  have hg : G (firstSent a out.kcp seg) :=
    hmoved.copy hem hi hkey hwnd rfl (Or.inl (firstSent_cmd a out.kcp seg))
  have hsent : Emitting P G ((out.upd (moveSegment a.current a.wnd seg rest)).upd
      (countSent out.kcp.sndBuf.length (firstSent a out.kcp seg))) := hmoved.set hem hi hkey fun _ => rfl
  refine ⟨hg, (hsent.makeRoom (ikcpOverhead + (firstSent a out.kcp seg).len)).put hg
    fun hroomy => room_makeRoom ?_⟩
  rw [len_of_key hkey]
  exact (hroomy _ hmoved.block).2 _ (List.mem_of_getElem? hi)

/-- The whole loop.  Induction on the segments of `snd_queue`. -/
theorem sendExLoop_emits {a : FlushArgs} (hwnd : a.wnd = ikcpWndUnused k₀) {cwnd : IUINT32}
    (queue : List IKCPSEG) (hq : out.kcp.sndQueue = queue)
    (hs : cwnd.toNat ≤ out.kcp.sndWnd.toNat) (hr : cwnd.toNat ≤ out.kcp.rmtWnd.toNat)
    (h : Emitting P G out) :
    Emitting P G (sendExLoop a.current a.wnd cwnd a.rtomin queue out) := by
  induction queue generalizing out with
  | nil => exact h
  | cons seg rest ih =>
    by_cases hopen : itimediff out.kcp.sndNxt (out.kcp.sndUna + cwnd) < 0
    · obtain ⟨-, hround⟩ := sendExRound_emits hem hwnd hq hs hr hopen h
      rw [sendExLoop_cons hopen]
      refine ih ?_ ?_ ?_ hround
      · rw [sendExRound_kcp]
        rfl
      · rw [sendExRound_kcp]
        exact hs
      · rw [sendExRound_kcp]
        exact hr
    · rw [sendExLoop, if_neg hopen]
      exact h

/-! ## The senders -/

/-- Everything of `pvp_ikcp_flush` before its data loop. -/
theorem flushHead_emits (h : P k₀) : Emitting P G (flushHead k₀).2 := by
  let s1 := flushAcks k₀.ackcount 0 (controlSeg k₀, { kcp := k₀ })
  obtain ⟨hc1, h1⟩ : Control k₀ s1.1 ∧ Emitting P G s1.2 :=
    flushAcks_emits hem k₀.ackcount 0 (_, _) controlSeg_control (.start h)
  let out2 := s1.2.upd fun kcp => updateProbe { kcp with ackcount := 0 }
  have h2 : Emitting P G out2 := h1.upd hem (updateProbe_ground _)
  let s3 := flushProbe ikcpAskSend ikcpCmdWask (s1.1, out2)
  obtain ⟨hc3, h3⟩ : Control k₀ s3.1 ∧ Emitting P G s3.2 :=
    flushProbe_emits hem (Or.inr (Or.inl rfl)) hc1 h2
  let s4 := flushProbe ikcpAskTell ikcpCmdWins s3
  have h4 : Emitting P G s4.2 := (flushProbe_emits hem (Or.inr (Or.inr rfl)) hc3 h3).2
  let out5 := s4.2.upd fun kcp => { kcp with probe := 0 }
  have h5 : Emitting P G out5 := h4.upd hem rfl
  obtain ⟨hs, hr⟩ := sendCwnd_le out5.kcp
  obtain ⟨h6, hmtu⟩ := moveSndQueue_keeps hem k₀.current (ikcpWndUnused k₀) out5.kcp.sndQueue rfl hs
    hr h5.block
  exact h5.become h6 hmtu

/-- **`pvp_ikcp_flush`** -/
theorem pvpIkcpFlush_emits (h : P k₀) : Emits P G (pvpIkcpFlush k₀) := by
  unfold pvpIkcpFlush
  split
  · exact .nothing h
  · have hhead := flushHead_emits hem h
    let a := flushArgs (flushHead k₀).2.kcp (ikcpWndUnused k₀)
    let st := flushData a (flushHead k₀).2.kcp.sndBuf.length 0 { out := (flushHead k₀).2 }
    have hdata : Emitting P G st.out := flushData_emits hem rfl _ _ _ hhead
    have hend : Emitting P G (ikcpOutput (flushDups a st.dupSegs st.out)) :=
      (flushDups_emits hem rfl _ _ hdata).output
    exact ⟨hem.same hend.block (flushTail_ground ..), hend.sent⟩

/-- **`pvp_ikcp_send_ex`**, past `pvp_ikcp_send`: `k₀` is the block at the time given. -/
theorem sendExFlush_emits {kcp : IKCPCB} {current : IUINT32} (h : P k₀)
    (hk : (if current.toNat > 0 then { kcp with current := current } else kcp) = k₀) :
    Emitting P G (sendExFlush kcp current) := by
  unfold sendExFlush
  rw [hk]
  let s1 := flushAcks k₀.ackcount 0 (controlSeg k₀, { kcp := k₀ })
  have h1 : Emitting P G s1.2 :=
    (flushAcks_emits hem k₀.ackcount 0 (_, _) controlSeg_control (.start h)).2
  let out2 := s1.2.upd fun kcp => { kcp with ackcount := 0 }
  have h2 : Emitting P G out2 := h1.upd hem rfl
  have hkcp : s1.2.kcp = k₀ := flushAcks_kcp ..
  obtain ⟨hs, hr⟩ := sendCwnd_le k₀
  have h3 : Emitting P G (sendExLoop k₀.current (ikcpWndUnused k₀) (sendCwnd k₀) (sendRtomin k₀)
      out2.kcp.sndQueue out2) := by
    refine sendExLoop_emits hem (a := ⟨k₀.current, 0, sendRtomin k₀, ikcpWndUnused k₀⟩) rfl _ rfl
      ?_ ?_ h2
    · show _ ≤ s1.2.kcp.sndWnd.toNat
      rw [hkcp]
      exact hs
    · show _ ≤ s1.2.kcp.rmtWnd.toNat
      rw [hkcp]
      exact hr
  -- the walk over the older segments follows only where something was transferred
  refine Emitting.output ?_
  split
  · exact sendExDups_emits hem rfl _ 0 _ h3
  · exact h3

end Emission

end ConnClient.Ikcp
