/-
  Why a flush that is called from inside a flush has less to say.

  `backlog` bounds what a block can still make a flush send while the time stands still: the due
  acknowledgements, the probing commands, and for every segment the transmissions its counters allow.
  Every command and every segment that a flush puts into its buffer lowers it, and — the
  acknowledgements apart — lowers it BEFORE the next output is made.  So at every output of a flush
  whose acknowledgements fit one datagram, the block has a smaller backlog than it had at the start
  (`pvpIkcpFlush_drains`).

  The acknowledgements are the exception: `ackcount` is cleared behind the loop that sends them.  If
  they do not fit one datagram, the first output is made from the very block the flush was called on
  (`pvpIkcpFlush_full`).

  The weights are chosen so that each branch of the data loop loses more than it can gain.  A fast
  retransmission clears `fastack` and may look due by its timeout afterwards, so being overtaken weighs more
  than any timeout.  A copy raises `xmit`, which may wrap to nought and make the segment look new, so a copy
  weighs more than a first transmission.  Nothing is assumed of the counters but the settings' ranges.
-/
import ConnClient.Ikcp.Emit
import ConnClient.Ikcp.Tuning

namespace ConnClient.Ikcp

open ConnClient.Lib

/-! ## The backlog -/

/-- `resent` -/
def Tuning.resent (t : Tuning) : IUINT32 :=
  if t.fastresend > 0 then BitVec.ofInt 32 t.fastresend else 0xffffffff

/-- The first transmission, or the retransmissions for a timeout.  A timeout lengthens `rto` and is
    over, unless the sum comes out negative; then it is due again, and after less than `2 ^ 32 - rto`
    such steps the sum is past the wrap. -/
def Tuning.dueBacklog (t : Tuning) (seg : IKCPSEG) : Nat :=
  if seg.xmit = 0 then 2
  else if itimediff t.current seg.resendts ≥ 0 then 4 + (-seg.rto).toNat
  else 0

/-- The transmissions a segment's counters allow: one for having been overtaken, the due ones, and
    the redundant copies. -/
def Tuning.segBacklog (t : Tuning) (seg : IKCPSEG) : Nat :=
  (if seg.fastack ≥ t.resent then 2 ^ 34 else 0) + t.dueBacklog seg
    + 8 * (t.dupsendcount.toNat - seg.dupsendcount.toNat)

/-- It is time to ask for the peer's window. -/
abbrev AskDue (kcp : IKCPCB) : Prop :=
  kcp.rmtWnd = 0 ∧ kcp.probeWait ≠ 0 ∧ itimediff kcp.current kcp.tsProbe ≥ 0

/-- The probing commands: one asked for, and a question that is due. -/
def askBacklog (kcp : IKCPCB) : Nat :=
  (if kcp.probe = 0 then 0 else 1) + if AskDue kcp then 2 else 0

/-- What a segment of `snd_queue` counts: more than it will count in `snd_buf`. -/
def Tuning.queueBacklog (t : Tuning) : Nat := 3 + 8 * t.dupsendcount.toNat

/-- What a flush may still send: acknowledgements, commands, the segments of `snd_queue` as if they
    were new, and those of `snd_buf`. -/
def IKCPCB.backlog (kcp : IKCPCB) : Nat :=
  kcp.ackcount + askBacklog kcp + kcp.sndQueue.length * kcp.tuning.queueBacklog
    + (kcp.sndBuf.map kcp.tuning.segBacklog).sum

variable {t : Tuning} {seg : IKCPSEG}

/-- Changing one summand. -/
theorem sum_map_set {α : Type} (f : α → Nat) {b : α} :
    ∀ {l : List α} {i : Nat} {a : α}, l[i]? = some a →
      ((l.set i b).map f).sum + f a = (l.map f).sum + f b
  | [], _, _, h => nomatch h
  | _ :: l, 0, _, h => by
    cases h
    simp only [List.set_cons_zero, List.map_cons, List.sum_cons]
    omega
  | c :: l, i + 1, a, h => by
    have ih : ((l.set i b).map f).sum + f a = (l.map f).sum + f b := sum_map_set f h
    simp only [List.set_cons_succ, List.map_cons, List.sum_cons]
    omega

/-! ## One segment -/

/-- `resent` is no less than one. -/
theorem Tuning.Sane.resent_pos (h : t.Sane) : ¬ (0 : IUINT32) ≥ t.resent := by
  have hlt := h.resend
  unfold Tuning.resent
  split
  · intro hge
    have hnat : (BitVec.ofInt 32 t.fastresend).toNat = t.fastresend.toNat := by
      rw [BitVec.toNat_ofInt]
      omega
    have : (BitVec.ofInt 32 t.fastresend).toNat ≤ 0 := hge
    omega
  · decide

/-- A time that lies `d` ahead is reached only if `d` is negative as a difference: more than half a
    turn. -/
theorem itimediff_ahead (now d : IUINT32) :
    itimediff now (now + d) ≥ 0 ↔ (-d).toNat < 2 ^ 31 := by
  have hneg : now - (now + d) = -d := by
    bv_omega
  unfold itimediff Lib.sdiff
  rw [hneg, BitVec.toInt_eq_toNat_cond]
  split <;> omega

theorem dueBacklog_le (t : Tuning) (seg : IKCPSEG) : t.dueBacklog seg < 2 ^ 33 := by
  have := (-seg.rto).isLt
  unfold Tuning.dueBacklog
  split
  · omega
  split <;> omega

/-- The locals of a flush under these settings. -/
structure ArgsOk (t : Tuning) (a : FlushArgs) : Prop where
  current : a.current = t.current
  resent : a.resent = t.resent
  rtomin : a.rtomin.toNat ≤ 7500

/-- A small timeout is ahead. -/
theorem dueBacklog_ahead {d : IUINT32} (hx : seg.xmit ≠ 0) (hts : seg.resendts = t.current + d)
    (h0 : 0 < d.toNat) (h1 : d.toNat < 2 ^ 31) : t.dueBacklog seg = 0 := by
  have hno : ¬ itimediff t.current seg.resendts ≥ 0 := by
    rw [hts, itimediff_ahead]
    bv_omega
  unfold Tuning.dueBacklog
  rw [if_neg hx, if_neg hno]

/-- A timeout that is lengthened is over, or nearer to the wrap. -/
theorem dueBacklog_timeout {rto d : IUINT32} (hts : seg.resendts = t.current + (rto + d))
    (hrto : seg.rto = rto + d) (h0 : 0 < d.toNat) (h1 : d.toNat ≤ 60000) :
    t.dueBacklog seg < 4 + (-rto).toNat := by
  unfold Tuning.dueBacklog
  split
  · omega
  split
  · rename_i hdue
    rw [hts, itimediff_ahead] at hdue
    rw [hrto]
    bv_omega
  · omega

/-- The timing of a sane block, as it is added to times. -/
theorem rto_toNat {kcp : IKCPCB} (h : kcp.tuning.Sane) :
    (BitVec.ofInt 32 kcp.rxRto).toNat = kcp.rxRto.toNat := by
  have h1 : 10 ≤ kcp.rxRto := h.rto_ge
  have h2 : kcp.rxRto ≤ 60000 := h.rto_le
  rw [BitVec.toNat_ofInt]
  omega

/-- The first transmission gives a segment a deadline ahead. -/
theorem firstSend_backlog {a : FlushArgs} {kcp : IKCPCB} (hs : kcp.tuning.Sane)
    (ha : ArgsOk kcp.tuning a) (hx : seg.xmit = 0) :
    kcp.tuning.segBacklog (dueSegment a kcp seg .first) < kcp.tuning.segBacklog seg := by
  have h1 : 10 ≤ kcp.rxRto := hs.rto_ge
  have h2 : kcp.rxRto ≤ 60000 := hs.rto_le
  have hrto := rto_toNat hs
  have hmin := ha.rtomin
  have hold : kcp.tuning.dueBacklog seg = 2 := if_pos hx
  -- the new deadline is at most 67.5 seconds ahead, so it is not reached
  have hnew : kcp.tuning.dueBacklog (dueSegment a kcp seg .first) = 0 := by
    refine dueBacklog_ahead (d := BitVec.ofInt 32 kcp.rxRto + a.rtomin) ?_ ?_ ?_ ?_
    · show seg.xmit + 1 ≠ 0
      rw [hx]
      decide
    · show a.current + BitVec.ofInt 32 kcp.rxRto + a.rtomin = _
      rw [ha.current, BitVec.add_assoc]
    · bv_omega
    · bv_omega
  unfold Tuning.segBacklog
  rw [hold, hnew]
  show (if seg.fastack ≥ _ then _ else _) + 0 + 8 * (_ - seg.dupsendcount.toNat) < _
  omega

/-- A timeout moves the deadline by the `rto` of the segment, which has grown. -/
theorem timeout_backlog {a : FlushArgs} {kcp : IKCPCB} (hs : kcp.tuning.Sane)
    (ha : ArgsOk kcp.tuning a) (hx : ¬ seg.xmit = 0)
    (hlate : itimediff kcp.tuning.current seg.resendts ≥ 0) :
    kcp.tuning.segBacklog (dueSegment a kcp seg .timeout) < kcp.tuning.segBacklog seg := by
  have h1 : 10 ≤ kcp.rxRto := hs.rto_ge
  have h2 : kcp.rxRto ≤ 60000 := hs.rto_le
  have hold : kcp.tuning.dueBacklog seg = 4 + (-seg.rto).toNat := by
    unfold Tuning.dueBacklog
    rw [if_neg hx, if_pos hlate]
  have hnew : kcp.tuning.dueBacklog (dueSegment a kcp seg .timeout) < 4 + (-seg.rto).toNat := by
    -- by how much `rto` grows, in either mode: at least 5, at most a minute
    let step : Int := if kcp.nodelay = 0 then kcp.rxRto else kcp.rxRto.tdiv 2
    have hstep : 5 ≤ step ∧ step ≤ 60000 := by
      show 5 ≤ (if kcp.nodelay = 0 then kcp.rxRto else kcp.rxRto.tdiv 2)
        ∧ (if kcp.nodelay = 0 then kcp.rxRto else kcp.rxRto.tdiv 2) ≤ 60000
      split
      · omega
      · rw [Int.tdiv_eq_ediv_of_nonneg (by omega)]
        omega
    have hnat : (BitVec.ofInt 32 step).toNat = step.toNat := by
      rw [BitVec.toNat_ofInt]
      omega
    refine dueBacklog_timeout (d := BitVec.ofInt 32 step) ?_ rfl ?_ ?_
    · show a.current + _ = _
      rw [ha.current]
    · omega
    · omega
  unfold Tuning.segBacklog
  rw [hold]
  show (if seg.fastack ≥ _ then _ else _) + _ + 8 * (_ - seg.dupsendcount.toNat) < _
  omega

/-- A fast retransmission clears `fastack`. -/
theorem fastResend_backlog {a : FlushArgs} {kcp : IKCPCB} (hs : kcp.tuning.Sane)
    (hfast : seg.fastack ≥ kcp.tuning.resent) :
    kcp.tuning.segBacklog (dueSegment a kcp seg .fastack) < kcp.tuning.segBacklog seg := by
  have hnew := dueBacklog_le kcp.tuning (dueSegment a kcp seg .fastack)
  have hzero : ¬ (dueSegment a kcp seg .fastack).fastack ≥ kcp.tuning.resent := hs.resent_pos
  unfold Tuning.segBacklog
  rw [if_pos hfast, if_neg hzero]
  show _ + _ + 8 * (_ - seg.dupsendcount.toNat) < _
  omega

/-- **A segment that is due** counts less once it is sent, whichever branch takes it. -/
theorem dueSegment_backlog {a : FlushArgs} {kcp : IKCPCB} {due : Due} (hs : kcp.tuning.Sane)
    (ha : ArgsOk kcp.tuning a) (hdue : segmentDue a seg = due) (hno : due ≠ .no) :
    kcp.tuning.segBacklog (dueSegment a kcp seg due) < kcp.tuning.segBacklog seg := by
  rw [segmentDue, ha.current, ha.resent] at hdue
  by_cases hx : seg.xmit = 0
  · rw [if_pos hx] at hdue
    subst hdue
    exact firstSend_backlog hs ha hx
  rw [if_neg hx] at hdue
  by_cases hlate : itimediff kcp.tuning.current seg.resendts ≥ 0
  · rw [if_pos hlate] at hdue
    subst hdue
    exact timeout_backlog hs ha hx hlate
  rw [if_neg hlate] at hdue
  by_cases hfast : seg.fastack ≥ kcp.tuning.resent
  · rw [if_pos hfast] at hdue
    subst hdue
    exact fastResend_backlog hs hfast
  · rw [if_neg hfast] at hdue
    exact absurd hdue.symm hno

/-- A redundant copy of a segment that was sent. -/
def copied (ts wnd una : IUINT32) (seg : IKCPSEG) : IKCPSEG :=
  { seg with
    ts := ts, wnd := wnd, una := una, xmit := seg.xmit + 1, dupsendcount := seg.dupsendcount + 1 }

/-- **A redundant copy** is counted, even if the transmission count wraps and the segment looks
    new. -/
theorem copied_backlog (ts wnd una : IUINT32) (hx : seg.xmit ≠ 0)
    (h : seg.dupsendcount < t.dupsendcount) :
    t.segBacklog (copied ts wnd una seg) < t.segBacklog seg := by
  have hcount : (seg.dupsendcount + 1).toNat = seg.dupsendcount.toNat + 1 := by
    bv_omega
  have hlt : seg.dupsendcount.toNat < t.dupsendcount.toNat := h
  have hdue : t.dueBacklog (copied ts wnd una seg) ≤ t.dueBacklog seg + 2 := by
    unfold Tuning.dueBacklog
    rw [if_neg hx]
    split
    · omega
    · exact Nat.le_add_right _ 2
  unfold Tuning.segBacklog
  show (if seg.fastack ≥ _ then _ else _) + _ + 8 * (_ - (seg.dupsendcount + 1).toNat) < _
  rw [hcount]
  omega

/-- A segment of `snd_buf` that counts less. -/
theorem set_backlog {kcp : IKCPCB} {i : Nat} {old : IKCPSEG} (new : IKCPSEG)
    (hi : kcp.sndBuf[i]? = some old)
    (hlt : kcp.tuning.segBacklog new < kcp.tuning.segBacklog old) :
    ({ kcp with sndBuf := kcp.sndBuf.set i new } : IKCPCB).backlog < kcp.backlog := by
  have hsum := sum_map_set kcp.tuning.segBacklog (b := new) hi
  unfold IKCPCB.backlog
  show kcp.ackcount + askBacklog kcp + kcp.sndQueue.length * kcp.tuning.queueBacklog
    + ((kcp.sndBuf.set i new).map kcp.tuning.segBacklog).sum < _
  omega

/-! ## What a flush keeps -/

/-- A flush called on `k` that has come to `out`, with the outputs `pre` made first: what it put
    into the buffer, and what it output, is not in the backlog any more.  With an empty buffer
    nothing need have been sent yet (`le`), with anything in it the backlog is smaller (`lt`). -/
structure Drains (k : IKCPCB) (pre : List (IKCPCB × List Byte)) (out : Out) : Prop where
  kept : Keeps k out.kcp
  le : out.kcp.backlog ≤ k.backlog
  lt : out.ptr ≠ [] → out.kcp.backlog < k.backlog
  sent : ∀ e ∈ out.sent, Keeps k e.1 ∧ (AcksFit k → e.1.backlog < k.backlog)
  grows : pre <+: out.sent

section Draining

variable {k : IKCPCB} {pre : List (IKCPCB × List Byte)} {out : Out}

theorem Drains.output (h : Drains k pre out) : Drains k pre (ikcpOutput out) := by
  unfold ikcpOutput
  split
  · exact h
  · rename_i hne
    have hlt := h.lt fun hnil => hne (List.length_eq_zero_iff.mpr hnil)
    refine ⟨h.kept, h.le, fun hnil => absurd rfl hnil, fun e he => ?_,
      h.grows.trans (List.prefix_append ..)⟩
    rcases List.mem_append.mp he with he | he
    · exact h.sent e he
    · rw [List.mem_singleton.mp he]
      exact ⟨h.kept, fun _ => hlt⟩

theorem Drains.makeRoom (h : Drains k pre out) (need : Nat) : Drains k pre (makeRoom need out) := by
  unfold Ikcp.makeRoom
  split
  · exact h.output
  · exact h

/-- What is put into the buffer must have been counted. -/
theorem Drains.put (h : Drains k pre out) (hlt : out.kcp.backlog < k.backlog) (bytes : List Byte) :
    Drains k pre (out.put bytes) :=
  ⟨h.kept, h.le, fun _ => hlt, h.sent, h.grows⟩

theorem Drains.upd (h : Drains k pre out) {f : IKCPCB → IKCPCB} (hk : Keeps out.kcp (f out.kcp))
    (hle : (f out.kcp).backlog ≤ out.kcp.backlog) : Drains k pre (out.upd f) :=
  ⟨h.kept.trans hk, Nat.le_trans hle h.le, fun hne => Nat.lt_of_le_of_lt hle (h.lt hne), h.sent,
    h.grows⟩

/-! ## The data loop and the redundant copies -/

/-- **A transmission.** -/
theorem sendSegment_drains (h : Drains k pre out) {i : Nat} {old new : IKCPSEG}
    (hi : out.kcp.sndBuf[i]? = some old)
    (hlt : out.kcp.tuning.segBacklog new < out.kcp.tuning.segBacklog old) :
    Drains k pre (sendSegment i new out) := by
  have hset := set_backlog new hi hlt
  have h₁ : Drains k pre (out.upd fun kcp => { kcp with sndBuf := kcp.sndBuf.set i new }) :=
    h.upd ⟨rfl, Nat.le_refl _⟩ (Nat.le_of_lt hset)
  have h₂ := h₁.makeRoom (ikcpOverhead + new.len)
  -- counted first, then made room for, then put: an output in between is made of the smaller
  -- backlog
  have h₃ := h₂.put (by rw [makeRoom_kcp]; exact Nat.lt_of_lt_of_le hset h.le) (ikcpSegBytes new)
  unfold sendSegment
  refine h₃.upd ⟨rfl, Nat.le_refl _⟩ (Nat.le_of_eq ?_)
  -- the command of the segment is restored, which is not counted
  rw [put_kcp, makeRoom_kcp]
  have hmem : (out.kcp.sndBuf.set i new)[i]? = some new := by
    rw [List.getElem?_set_self (List.getElem?_eq_some_iff.mp hi).1]
  have hrestore : (((out.kcp.sndBuf.set i new).set i { new with cmd := ikcpCmdPush }).map
      out.kcp.tuning.segBacklog).sum = ((out.kcp.sndBuf.set i new).map out.kcp.tuning.segBacklog).sum := by
    have hsum : _ + out.kcp.tuning.segBacklog new
        = _ + out.kcp.tuning.segBacklog { new with cmd := ikcpCmdPush } :=
      sum_map_set out.kcp.tuning.segBacklog hmem
    exact Nat.add_right_cancel hsum
  by_cases hcmd : new.cmd = ikcpCmdDups
  · rw [if_pos hcmd]
    unfold IKCPCB.backlog
    dsimp only [Out.upd]
    exact congrArg _ hrestore
  · rw [if_neg hcmd]
    rfl

theorem dueKcp_backlog (segment : IKCPSEG) (kcp : IKCPCB) (due : Due) :
    (dueKcp segment kcp due).backlog = kcp.backlog ∧ Keeps kcp (dueKcp segment kcp due)
      ∧ (dueKcp segment kcp due).sndBuf = kcp.sndBuf := by
  obtain ⟨_, _, _, _, hset⟩ := dueKcp_eq segment kcp due
  rw [hset]
  exact ⟨rfl, ⟨rfl, Nat.le_refl _⟩, rfl⟩

/-- A segment that was sent, and may be sent once more. -/
def Wanting (out : Out) (j : Nat) : Prop :=
  ∃ seg, out.kcp.sndBuf[j]? = some seg ∧ seg.xmit ≠ 0 ∧ seg.dupsendcount < out.kcp.dupsendcount

/-- The data loop in front of number `i`: the positions it keeps are behind it, each once, and their
    segments still want a copy when the loop over `dup_segs` comes to them. -/
structure DataOk (k : IKCPCB) (pre : List (IKCPCB × List Byte)) (i : Nat) (st : FlushSt) : Prop where
  drains : Drains k pre st.out
  nodup : st.dupSegs.Nodup
  wanting : ∀ j ∈ st.dupSegs, j < i ∧ Wanting st.out j

/-- Transmitting number `i` is nothing to the others. -/
theorem Wanting.sendSegment {i j : Nat} {segment : IKCPSEG} (h : Wanting out j) (hne : i ≠ j) :
    Wanting (sendSegment i segment out) j := by
  obtain ⟨seg, hj, hx, hlt⟩ := h
  have hbuf : (Ikcp.sendSegment i segment out).kcp.sndBuf[j]? = out.kcp.sndBuf[j]? := by
    unfold Ikcp.sendSegment
    dsimp only [Out.upd]
    rw [put_kcp, makeRoom_kcp]
    split
    · rw [List.getElem?_set_ne hne, List.getElem?_set_ne hne]
    · rw [List.getElem?_set_ne hne]
  have hcount : (Ikcp.sendSegment i segment out).kcp.dupsendcount = out.kcp.dupsendcount := by
    unfold Ikcp.sendSegment
    dsimp only [Out.upd]
    rw [put_kcp, makeRoom_kcp]
  exact ⟨seg, hbuf.trans hj, hx, hcount.symm ▸ hlt⟩

/-- **A round of the data loop.** -/
theorem flushSegment_drains {a : FlushArgs} {i : Nat} {segment : IKCPSEG} {st : FlushSt}
    (hs : k.tuning.Sane) (ha : ArgsOk k.tuning a) (h : DataOk k pre i st)
    (hi : st.out.kcp.sndBuf[i]? = some segment) :
    DataOk k pre (i + 1) (flushSegment a i segment st) := by
  have ht := h.drains.kept.tuning
  by_cases hno : segmentDue a segment = .no
  · -- a segment that is not due was sent, and a copy is wanted below the limit only
    have hnew : wantsDup a st.out.kcp segment st.dupSegs.length = true → Wanting st.out i := by
      intro hwants
      refine ⟨segment, hi, fun hx => ?_, ?_⟩
      · rw [segmentDue_first.mpr hx] at hno
        cases hno
      · unfold wantsDup at hwants
        simp only [Bool.and_eq_true, decide_eq_true_eq] at hwants
        exact hwants.1.1.2
    obtain ⟨hnodup, hwanting⟩ := flushSegment_dupSegs a segment h.nodup h.wanting fun _ => hnew
    have hout : (flushSegment a i segment st).out = st.out := by
      unfold flushSegment
      rw [hno]
      dsimp only
      split <;> rfl
    exact ⟨hout.symm ▸ h.drains, hnodup, fun j hj => hout.symm ▸ hwanting j hj⟩
  · unfold flushSegment
    split
    · exact absurd (by assumption) hno
    obtain ⟨hb, hk, hbuf⟩ := dueKcp_backlog segment st.out.kcp (segmentDue a segment)
    have hupd : Drains k pre (st.out.upd fun kcp => dueKcp segment kcp (segmentDue a segment)) :=
      h.drains.upd hk (Nat.le_of_eq hb)
    have hold : (st.out.upd fun kcp => dueKcp segment kcp (segmentDue a segment)).kcp.sndBuf[i]?
        = some segment := hbuf.symm ▸ hi
    refine ⟨sendSegment_drains hupd hold ?_, h.nodup, fun j hj => ?_⟩
    · have hlt := @dueSegment_backlog segment a st.out.kcp _ (ht.symm ▸ hs) (ht.symm ▸ ha) rfl hno
      rw [upd_kcp, hk.tuning]
      exact hlt
    · obtain ⟨hji, seg, hj, hx, hlt⟩ := h.wanting j hj
      refine ⟨Nat.lt_succ_of_lt hji, Wanting.sendSegment ⟨seg, ?_, hx, ?_⟩ (Nat.ne_of_gt hji)⟩
      · rw [upd_kcp, hbuf]
        exact hj
      · rw [upd_kcp, show (dueKcp segment st.out.kcp _).dupsendcount = st.out.kcp.dupsendcount from
          congrArg Tuning.dupsendcount hk.tuning]
        exact hlt

/-- The data loop.  Induction on the segments that are left. -/
theorem flushData_drains {a : FlushArgs} (hs : k.tuning.Sane) (ha : ArgsOk k.tuning a) :
    ∀ (n i : Nat) (st : FlushSt), DataOk k pre i st → ∃ j, DataOk k pre j (flushData a n i st)
  | 0, i, _, h => ⟨i, h⟩
  | n + 1, i, st, h => by
    unfold flushData
    split
    · exact ⟨i, h⟩
    · rename_i segment hi
      exact flushData_drains hs ha n (i + 1) _ (flushSegment_drains hs ha h hi)

/-- The redundant copies.  Induction on their positions. -/
theorem flushDups_drains {a : FlushArgs} :
    ∀ (is : List Nat) {out : Out}, is.Nodup → (∀ j ∈ is, Wanting out j) → Drains k pre out →
      Drains k pre (flushDups a is out)
  | [], _, _, _, h => h
  | i :: is, out, hnd, hw, h => by
    obtain ⟨hi, hnd⟩ := List.nodup_cons.mp hnd
    obtain ⟨seg, hseg, hx, hlt⟩ := hw i (List.mem_cons_self ..)
    unfold flushDups
    rw [hseg]
    dsimp only
    have hroom := h.makeRoom (ikcpOverhead + seg.len)
    have hkcp := makeRoom_kcp (ikcpOverhead + seg.len) out
    generalize Ikcp.makeRoom (ikcpOverhead + seg.len) out = o at hroom hkcp ⊢
    rw [← hkcp] at hseg hlt
    -- the copy goes out, and the segment counts it
    have hcount := copied_backlog (t := o.kcp.tuning) a.current a.wnd o.kcp.rcvNxt hx hlt
    have hset := set_backlog { copied a.current a.wnd o.kcp.rcvNxt seg with cmd := ikcpCmdPush } hseg
      hcount
    have hdup := (hroom.upd (f := fun kcp => { kcp with
      sndBuf := kcp.sndBuf.set i { copied a.current a.wnd o.kcp.rcvNxt seg with cmd := ikcpCmdPush }
      xmit := kcp.xmit + 1 }) ⟨rfl, Nat.le_refl _⟩ (Nat.le_of_lt hset)).put
        (Nat.lt_of_lt_of_le hset hroom.le)
        (ikcpSegBytes { copied a.current a.wnd o.kcp.rcvNxt seg with cmd := ikcpCmdDups })
    refine flushDups_drains is hnd (fun j hj => ?_) hdup
    obtain ⟨seg', hseg', hx', hlt'⟩ := hw j (List.mem_cons_of_mem _ hj)
    refine ⟨seg', ?_, hx', ?_⟩
    · show (o.kcp.sndBuf.set i _)[j]? = _
      rw [List.getElem?_set_ne (fun hij : i = j => hi (hij.symm ▸ hj)), hkcp]
      exact hseg'
    · show _ < o.kcp.dupsendcount
      rw [hkcp]
      exact hlt'

/-! ## The acknowledgements -/

/-- What is output is output from the block as it is.  Induction on the pairs that are left. -/
theorem flushAcks_sent :
    ∀ (n i : Nat) (s : IKCPSEG × Out) (e : IKCPCB × List Byte), e ∈ (flushAcks n i s).2.sent →
      e ∈ s.2.sent ∨ e.1 = s.2.kcp
  | 0, _, _, _, he => Or.inl he
  | n + 1, i, (_, out), e, he => by
    rcases flushAcks_sent n (i + 1) (_, _) e he with he | he
    · rw [show (Out.put _ (Ikcp.makeRoom ikcpOverhead out)).sent
          = (Ikcp.makeRoom ikcpOverhead out).sent from rfl, Ikcp.makeRoom] at he
      split at he
      · unfold ikcpOutput at he
        split at he
        · exact Or.inl he
        · rcases List.mem_append.mp he with he | he
          · exact Or.inl he
          · rw [List.mem_singleton.mp he]
            exact Or.inr rfl
      · exact Or.inl he
    · exact Or.inr (he.trans (makeRoom_kcp ikcpOverhead out))

/-- Acknowledgements that fit are put into the buffer.  Induction on the pairs that are left. -/
theorem flushAcks_fits :
    ∀ (n i : Nat) (s : IKCPSEG × Out), s.2.ptr.length + ikcpOverhead * n ≤ s.2.kcp.mtu →
      ∃ bytes, (flushAcks n i s).2 = s.2.put bytes ∧ bytes.length = ikcpOverhead * n
  | 0, _, (_, out), _ => ⟨[], by rw [Out.put, List.append_nil]; rfl, rfl⟩
  | n + 1, i, (seg, out), h => by
    dsimp only at h
    rw [Nat.mul_succ] at h
    have hroom : Ikcp.makeRoom ikcpOverhead out = out := if_neg (by omega)
    unfold flushAcks
    dsimp only
    rw [hroom]
    generalize hseg : { seg with sn := (ikcpAckGet out.kcp i).1, ts := (ikcpAckGet out.kcp i).2 } = seg'
    obtain ⟨bytes, hput, hlen⟩ := flushAcks_fits n (i + 1) (seg', out.put (ikcpEncodeSeg seg')) (by
      show (out.ptr ++ ikcpEncodeSeg seg').length + ikcpOverhead * n ≤ out.kcp.mtu
      rw [List.length_append, length_ikcpEncodeSeg]
      omega)
    refine ⟨ikcpEncodeSeg seg' ++ bytes, ?_, ?_⟩
    · rw [hput]
      show ({ out with ptr := (out.ptr ++ ikcpEncodeSeg seg') ++ bytes } : Out) = _
      rw [List.append_assoc]
      rfl
    · rw [List.length_append, length_ikcpEncodeSeg, hlen, Nat.mul_succ, Nat.add_comm]

/-- Outputs are only added.  Induction on the pairs that are left. -/
theorem flushAcks_grows :
    ∀ (n i : Nat) (s : IKCPSEG × Out), s.2.sent <+: (flushAcks n i s).2.sent
  | 0, _, _ => List.prefix_refl _
  | n + 1, i, (_, out) => by
    refine List.IsPrefix.trans ?_ (flushAcks_grows n (i + 1) (_, _))
    show out.sent <+: (Ikcp.makeRoom ikcpOverhead out).sent
    unfold Ikcp.makeRoom ikcpOutput
    split
    · split
      · exact List.prefix_refl _
      · exact List.prefix_append ..
    · exact List.prefix_refl _

/-- **Acknowledgements that do not fit** are output before anything about the block has changed.
    Induction on the pairs that are left. -/
theorem flushAcks_full :
    ∀ (n i : Nat) (s : IKCPSEG × Out), 50 ≤ s.2.kcp.mtu → s.2.ptr.length ≤ s.2.kcp.mtu →
      s.2.kcp.mtu < s.2.ptr.length + ikcpOverhead * n →
      ∃ data, data ≠ [] ∧ data.length ≤ s.2.kcp.mtu
        ∧ s.2.sent ++ [(s.2.kcp, data)] <+: (flushAcks n i s).2.sent
  | 0, _, (_, out), _, h, hfull => by
    dsimp only at h hfull
    omega
  | n + 1, i, (seg, out), hmtu, h, hfull => by
    dsimp only at hmtu h hfull
    rw [Nat.mul_succ] at hfull
    have hstep : flushAcks (n + 1) i (seg, out) = flushAcks n (i + 1)
        (_, (Ikcp.makeRoom ikcpOverhead out).put (ikcpEncodeSeg _)) := rfl
    rw [hstep]
    -- this pair has no room, so the buffer is output, with the block as it was; or it has, and a
    -- later one has none
    by_cases hroom : out.ptr.length + ikcpOverhead > out.kcp.mtu
    · have hne : out.ptr.length ≠ 0 := by
        unfold ikcpOverhead at hroom
        omega
      rw [show Ikcp.makeRoom ikcpOverhead out
          = { out with ptr := [], sent := out.sent ++ [(out.kcp, out.ptr)] } from
        (if_pos hroom).trans (if_neg hne)]
      exact ⟨out.ptr, fun hnil => hne (congrArg List.length hnil), h, flushAcks_grows n (i + 1)
        (_, (⟨out.kcp, [], out.sent ++ [(out.kcp, out.ptr)]⟩ : Out).put (ikcpEncodeSeg _))⟩
    · rw [show Ikcp.makeRoom ikcpOverhead out = out from if_neg hroom]
      refine flushAcks_full n (i + 1) (_, out.put (ikcpEncodeSeg _)) hmtu ?_ ?_
      · show (out.ptr ++ ikcpEncodeSeg _).length ≤ out.kcp.mtu
        rw [List.length_append, length_ikcpEncodeSeg]
        omega
      · show out.kcp.mtu < (out.ptr ++ ikcpEncodeSeg _).length + _
        rw [List.length_append, length_ikcpEncodeSeg]
        omega

/-! ## The probing commands -/

/-- The next wait is not longer than the limit. -/
theorem nextProbeWait_le (wait : IUINT32) : (nextProbeWait wait).toNat ≤ 120000 := by
  unfold nextProbeWait
  dsimp only
  generalize (if wait < ikcpProbeInit then ikcpProbeInit else wait) = w
  generalize w + w / 2 = v
  split
  · decide
  · rename_i hle
    exact Nat.not_lt.mp hle

/-- Asking when it is due sets the next time to ask, which lies ahead: the question that was due
    weighs two, the command that asks it weighs one. -/
theorem askBacklog_updateProbe (k : IKCPCB) : askBacklog (updateProbe k) ≤ askBacklog k := by
  have hahead : ∀ d : IUINT32, d.toNat ≤ 120000 →
      ¬ (d ≠ 0 ∧ itimediff k.current (k.current + d) ≥ 0) := by
    rintro d hle ⟨hne, hdue⟩
    rw [itimediff_ahead] at hdue
    bv_omega
  unfold updateProbe
  by_cases hwnd : k.rmtWnd = 0
  · rw [if_pos hwnd]
    by_cases hwait : k.probeWait = 0
    · rw [if_pos hwait]
      have hno : ¬ AskDue { k with
          probeWait := ikcpProbeInit, tsProbe := k.current + ikcpProbeInit } :=
        fun h => hahead ikcpProbeInit (by decide) h.2
      unfold askBacklog
      rw [if_neg hno]
      dsimp only
      omega
    · rw [if_neg hwait]
      by_cases hdue : itimediff k.current k.tsProbe ≥ 0
      · rw [if_pos hdue]
        have hno : ¬ AskDue { k with
            probeWait := nextProbeWait k.probeWait
            tsProbe := k.current + nextProbeWait k.probeWait
            probe := k.probe ||| ikcpAskSend } :=
          fun h => hahead _ (nextProbeWait_le _) h.2
        unfold askBacklog
        rw [if_neg hno, if_pos (show AskDue k from ⟨hwnd, hwait, hdue⟩)]
        split <;> omega
      · apply Nat.le_of_eq
        rw [if_neg hdue]
  · rw [if_neg hwnd]
    have hno : ¬ AskDue { k with tsProbe := 0, probeWait := 0 } := fun h => hwnd h.1
    unfold askBacklog
    rw [if_neg hno]
    dsimp only
    omega

theorem updateProbe_backlog (k : IKCPCB) :
    (updateProbe k).backlog ≤ k.backlog ∧ Keeps k (updateProbe k) := by
  have hask := askBacklog_updateProbe k
  obtain ⟨h1, h2, h3, h4⟩ : (updateProbe k).tuning = k.tuning ∧ (updateProbe k).ackcount = k.ackcount
      ∧ (updateProbe k).sndQueue = k.sndQueue ∧ (updateProbe k).sndBuf = k.sndBuf := by
    obtain ⟨_, _, _, hset⟩ := updateProbe_eq k
    rw [hset]
    exact ⟨rfl, rfl, rfl, rfl⟩
  refine ⟨?_, h1, Nat.le_of_eq h2⟩
  unfold IKCPCB.backlog
  rw [h1, h2, h3, h4]
  omega

/-- A flush called on `k` between its acknowledgements and its data: `k₁` is the block, and at most
    `m` probing commands stand behind the acknowledgements. -/
structure Asking (k k₁ : IKCPCB) (pre : List (IKCPCB × List Byte)) (m : Nat) (out : Out) : Prop where
  kcp : out.kcp = k₁
  kept : Keeps k k₁
  le : k₁.backlog + k.ackcount ≤ k.backlog
  len : AcksFit k → out.ptr.length ≤ ikcpOverhead * k.ackcount + ikcpOverhead * m
  asked : out.ptr ≠ [] → 0 < k.ackcount ∨ k₁.probe ≠ 0
  sent : ∀ e ∈ out.sent, Keeps k e.1 ∧ (AcksFit k → e.1.backlog < k.backlog)
  grows : pre <+: out.sent

/-- **A probing command**: one datagram has room for both, so an output in front of one is an output
    of acknowledgements. -/
theorem flushProbe_asking {k₁ : IKCPCB} {m : Nat} {s : IKCPSEG × Out} (hs : k.tuning.Sane)
    (hm : m ≤ 1) (h : Asking k k₁ pre m s.2) (ask : IUINT32) (cmd : IUINT8) :
    Asking k k₁ pre (m + 1) (flushProbe ask cmd s).2 := by
  have hmore : ikcpOverhead * m ≤ ikcpOverhead * (m + 1) := Nat.mul_le_mul_left _ (Nat.le_succ m)
  obtain ⟨seg, out⟩ := s
  unfold flushProbe
  dsimp only at h ⊢
  by_cases hask : out.kcp.probe &&& ask ≠ 0
  · rw [if_pos hask]
    have hprobe : k₁.probe ≠ 0 := by
      rw [h.kcp] at hask
      intro hz
      rw [hz] at hask
      exact hask (by simp)
    dsimp only
    unfold Ikcp.makeRoom
    split
    · rename_i hfull
      have hmtu : 50 ≤ out.kcp.mtu := by
        rw [h.kcp, show k₁.mtu = k.mtu from congrArg Tuning.mtu h.kept.tuning]
        exact hs.mtu_ge
      have hne : out.ptr.length ≠ 0 := by
        unfold ikcpOverhead at hfull
        omega
      rw [show ikcpOutput out = { out with ptr := [], sent := out.sent ++ [(out.kcp, out.ptr)] } from
        if_neg hne]
      refine ⟨h.kcp, h.kept, h.le, fun _ => ?_, fun _ => Or.inr hprobe, fun e he => ?_,
        h.grows.trans (List.prefix_append ..)⟩
      · show ([] ++ ikcpEncodeSeg _).length ≤ _
        rw [List.nil_append, length_ikcpEncodeSeg, Nat.mul_succ]
        omega
      · rcases List.mem_append.mp he with he | he
        · exact h.sent e he
        · rw [List.mem_singleton.mp he]
          refine ⟨h.kcp ▸ h.kept, fun hfit => ?_⟩
          -- two commands would fit, so there are acknowledgements in the buffer
          have hlen := h.len hfit
          have hle := h.le
          have hm' : ikcpOverhead * m ≤ 19 := Nat.mul_le_mul_left 19 hm
          rw [h.kcp]
          unfold ikcpOverhead at hlen hfull hm'
          show k₁.backlog < k.backlog
          omega
    · refine ⟨h.kcp, h.kept, h.le, fun hfit => ?_, fun _ => Or.inr hprobe, h.sent, h.grows⟩
      have hlen := h.len hfit
      show (out.ptr ++ ikcpEncodeSeg _).length ≤ _
      rw [List.length_append, length_ikcpEncodeSeg, Nat.mul_succ]
      omega
  · rw [if_neg hask]
    exact ⟨h.kcp, h.kept, h.le, fun hfit => Nat.le_trans (h.len hfit) (by omega), h.asked,
      h.sent, h.grows⟩

/-! ## The transfer -/

theorem newSegment_backlog (hs : k.tuning.Sane) (current wnd : IUINT32) (seg : IKCPSEG) :
    k.tuning.segBacklog (newSegment k current wnd seg) < k.tuning.queueBacklog := by
  unfold Tuning.segBacklog Tuning.queueBacklog
  rw [if_neg (show ¬ (newSegment k current wnd seg).fastack ≥ k.tuning.resent from hs.resent_pos),
    show k.tuning.dueBacklog (newSegment k current wnd seg) = 2 from if_pos rfl]
  show 0 + 2 + 8 * (_ - (0 : IUINT32).toNat) < _
  rw [show (0 : IUINT32).toNat = 0 from rfl]
  omega

/-- The transfer loop.  Recursion on the segments of `snd_queue`. -/
theorem moveSndQueue_backlog (current wnd cwnd : IUINT32) :
    ∀ (queue : List IKCPSEG) {k : IKCPCB}, k.sndQueue = queue → k.tuning.Sane →
      (moveSndQueue current wnd cwnd queue k).backlog ≤ k.backlog
        ∧ Keeps k (moveSndQueue current wnd cwnd queue k)
  | [], k, _, _ => ⟨Nat.le_refl _, .refl k⟩
  | seg :: rest, k, hq, hs => by
    unfold moveSndQueue
    split
    · obtain ⟨hle, hk⟩ := moveSndQueue_backlog current wnd cwnd rest
        (k := moveSegment current wnd seg rest k) rfl hs
      have hmove : Keeps k (moveSegment current wnd seg rest k) := ⟨rfl, Nat.le_refl _⟩
      refine ⟨Nat.le_trans hle ?_, hmove.trans hk⟩
      have hnew := newSegment_backlog hs current wnd seg
      have hmul := Nat.succ_mul rest.length k.tuning.queueBacklog
      unfold IKCPCB.backlog
      rw [hq]
      show k.ackcount + askBacklog k + rest.length * k.tuning.queueBacklog
        + ((k.sndBuf ++ [newSegment k current wnd seg]).map k.tuning.segBacklog).sum ≤ _
      rw [List.map_append, List.sum_append, List.length_cons, List.map_singleton, List.sum_singleton,
        hmul]
      omega
    · exact ⟨Nat.le_refl _, .refl k⟩

/-! ## `pvp_ikcp_flush` -/

/-- The outputs of the acknowledgement loop. -/
def ackOutputs (k : IKCPCB) : List (IKCPCB × List Byte) :=
  (flushAcks k.ackcount 0 (controlSeg k, { kcp := k })).2.sent

/-- Behind the acknowledgements, where `ackcount` is cleared. -/
theorem flushAcks_asking (k : IKCPCB) :
    Asking k (updateProbe { k with ackcount := 0 }) (ackOutputs k) 0
      ((flushAcks k.ackcount 0 (controlSeg k, { kcp := k })).2.upd
        fun kcp => updateProbe { kcp with ackcount := 0 }) := by
  let out := (flushAcks k.ackcount 0 (controlSeg k, { kcp := k })).2
  have hkcp : out.kcp = k := flushAcks_kcp ..
  have hsent : ∀ e ∈ out.sent, e.1 = k := fun e he =>
    (flushAcks_sent _ _ _ e he).resolve_left List.not_mem_nil
  -- acknowledgements that fit are all in the buffer, and nothing was output
  have hfits : AcksFit k → out.sent = [] ∧ out.ptr.length ≤ ikcpOverhead * k.ackcount := by
    intro hfit
    obtain ⟨bytes, hput, hlen⟩ := flushAcks_fits k.ackcount 0 (controlSeg k, { kcp := k })
      (by rw [show ([] : List Byte).length = 0 from rfl, Nat.zero_add]; exact hfit)
    exact ⟨congrArg Out.sent hput, by rw [show out = _ from hput]; exact Nat.le_of_eq hlen⟩
  have hptr : out.ptr ≠ [] → 0 < k.ackcount := by
    intro hne
    by_contra hz
    have hzero : k.ackcount = 0 := by omega
    refine hne ?_
    show (flushAcks k.ackcount 0 (controlSeg k, { kcp := k })).2.ptr = []
    rw [hzero]
    rfl
  obtain ⟨hle, hk₁⟩ := updateProbe_backlog { k with ackcount := 0 }
  -- clearing `ackcount` takes as much off the backlog as there were pairs
  have hcount : ({ k with ackcount := 0 } : IKCPCB).backlog + k.ackcount = k.backlog := by
    unfold IKCPCB.backlog
    show 0 + askBacklog k + k.sndQueue.length * k.tuning.queueBacklog
      + (k.sndBuf.map k.tuning.segBacklog).sum + k.ackcount = _
    omega
  have hkeep : Keeps k { k with ackcount := 0 } := ⟨rfl, Nat.zero_le _⟩
  refine ⟨?_, hkeep.trans hk₁, hcount ▸ Nat.add_le_add_right hle _, fun hfit => ?_,
    fun hne => Or.inl (hptr hne), fun e he => ?_, List.prefix_refl _⟩
  · show updateProbe { out.kcp with ackcount := 0 } = _
    rw [hkcp]
  · exact Nat.le_trans (hfits hfit).2 (Nat.le_add_right _ _)
  · refine ⟨hsent e he ▸ .refl k, fun hfit => ?_⟩
    have he' : e ∈ ([] : List (IKCPCB × List Byte)) := (hfits hfit).1 ▸ he
    exact absurd he' List.not_mem_nil

/-- Behind both probes, where `probe` is cleared. -/
theorem Asking.drains {k₁ : IKCPCB} (h : Asking k k₁ pre 2 out) :
    Drains k pre (out.upd fun kcp => { kcp with probe := 0 }) := by
  have hkcp := h.kcp
  have hle₁ := h.le
  have hzero : ({ out.kcp with probe := 0 } : IKCPCB).backlog + (if k₁.probe = 0 then 0 else 1)
      = k₁.backlog := by
    rw [hkcp]
    unfold IKCPCB.backlog askBacklog
    show k₁.ackcount + (0 + if AskDue k₁ then 2 else 0)
      + k₁.sndQueue.length * k₁.tuning.queueBacklog
      + (k₁.sndBuf.map k₁.tuning.segBacklog).sum + _ = _
    omega
  refine ⟨h.kept.trans ?_, ?_, fun hne => ?_, h.sent, h.grows⟩
  · rw [upd_kcp, hkcp]
    exact ⟨rfl, Nat.le_refl _⟩
  · show ({ out.kcp with probe := 0 } : IKCPCB).backlog ≤ k.backlog
    omega
  · show ({ out.kcp with probe := 0 } : IKCPCB).backlog < k.backlog
    rcases h.asked hne with hpos | hprobe
    · omega
    · rw [if_neg hprobe] at hzero
      omega

/-- Everything before the data loop. -/
theorem flushHead_drains (hs : k.tuning.Sane) : Drains k (ackOutputs k) (flushHead k).2 := by
  let s₁ := flushAcks k.ackcount 0 (controlSeg k, { kcp := k })
  let s₂ : IKCPSEG × Out := (s₁.1, s₁.2.upd fun kcp => updateProbe { kcp with ackcount := 0 })
  have hasked : Asking k (updateProbe { k with ackcount := 0 }) (ackOutputs k) 1
      (flushProbe ikcpAskSend ikcpCmdWask s₂).2 :=
    flushProbe_asking hs (Nat.zero_le 1) (flushAcks_asking k) ikcpAskSend ikcpCmdWask
  have hdrain := (flushProbe_asking hs (Nat.le_refl 1) hasked ikcpAskTell ikcpCmdWins).drains
  obtain ⟨hmove, hkmove⟩ := moveSndQueue_backlog k.current (ikcpWndUnused k)
    (flushHead k).1 _ rfl (hdrain.kept.sane hs)
  exact hdrain.upd hkmove hmove

/-- The locals of a flush. -/
theorem flushArgs_ok {kcp : IKCPCB} (h : Keeps k kcp) (hs : k.tuning.Sane) (wnd : IUINT32) :
    ArgsOk k.tuning (flushArgs kcp wnd) := by
  have h1 : 10 ≤ k.rxRto := hs.rto_ge
  have h2 : k.rxRto ≤ 60000 := hs.rto_le
  refine ⟨congrArg Tuning.current h.tuning, ?_, ?_⟩
  · show kcp.tuning.resent = _
    rw [h.tuning]
  · show (sendRtomin kcp).toNat ≤ 7500
    unfold sendRtomin
    split
    · rw [show kcp.rxRto = k.rxRto from congrArg Tuning.rxRto h.tuning, BitVec.toNat_ofInt,
        Int.shiftRight_eq_div_pow]
      omega
    · decide

/-- The tail changes the congestion window. -/
theorem flushTail_keeps (cwnd resent : IUINT32) (change lost : Bool) (k : IKCPCB) :
    Keeps k (flushTail cwnd resent change lost k) := by
  obtain ⟨_, _, _, _, hset⟩ := flushTail_eq cwnd resent change lost k
  rw [hset]
  exact ⟨rfl, Nat.le_refl _⟩

/-- **`pvp_ikcp_flush`**: at every output there is less to say than at the start, if the
    acknowledgements fit one datagram. -/
theorem pvpIkcpFlush_drains (hs : k.tuning.Sane) :
    Keeps k (pvpIkcpFlush k).1
      ∧ (∀ e ∈ (pvpIkcpFlush k).2, Keeps k e.1 ∧ (AcksFit k → e.1.backlog < k.backlog))
      ∧ ackOutputs k <+: (pvpIkcpFlush k).2 := by
  have hhead := flushHead_drains hs
  unfold pvpIkcpFlush
  rw [if_neg (show ¬ k.updated = false from fun hf => nomatch hf.symm.trans hs.updated)]
  generalize flushHead k = r at hhead ⊢
  obtain ⟨cwnd, out⟩ := r
  dsimp only at hhead ⊢
  have hargs := flushArgs_ok hhead.kept hs (ikcpWndUnused k)
  obtain ⟨j, hdata⟩ := flushData_drains hs hargs out.kcp.sndBuf.length 0 { out := out }
    ⟨hhead, List.nodup_nil, nofun⟩
  -- the copies, and the output behind them
  have hend := (flushDups_drains (a := flushArgs out.kcp (ikcpWndUnused k)) _ hdata.nodup
    (fun j hj => (hdata.wanting j hj).2) hdata.drains).output
  exact ⟨hend.kept.trans (flushTail_keeps ..), hend.sent, hend.grows⟩

/-- **A flush whose acknowledgements do not fit** makes its first output from the block it was called
    on. -/
theorem pvpIkcpFlush_full (hs : k.tuning.Sane) (hfull : ¬ AcksFit k) :
    ∃ data rest, (pvpIkcpFlush k).2 = (k, data) :: rest ∧ data ≠ [] ∧ data.length ≤ k.mtu := by
  obtain ⟨-, -, hgrows⟩ := pvpIkcpFlush_drains hs
  obtain ⟨data, hne, hlen, hfirst⟩ := flushAcks_full k.ackcount 0 (controlSeg k, { kcp := k })
    hs.mtu_ge (Nat.zero_le _) (by
      rw [show ([] : List Byte).length = 0 from rfl, Nat.zero_add]
      exact Nat.not_le.mp hfull)
  obtain ⟨rest, hrest⟩ := List.IsPrefix.trans hfirst hgrows
  exact ⟨data, rest, hrest.symm, hne, hlen⟩

/-! ## `pvp_ikcp_update` -/

theorem updateHead_tuning (k : IKCPCB) (now : IUINT32) :
    (updateHead k now).2.tuning = { k.tuning with updated := true, current := now }
      ∧ (updateHead k now).2.ackcount = k.ackcount := by
  obtain ⟨_, _, hset⟩ := updateHead_eq k now
  rw [hset]
  exact ⟨rfl, rfl⟩

theorem pvpIkcpUpdateLost_tuning (k : IKCPCB) (now : IUINT32) :
    (pvpIkcpUpdateLost k now).tuning = k.tuning ∧ (pvpIkcpUpdateLost k now).ackcount = k.ackcount := by
  obtain ⟨_, _, _, _, hset⟩ := pvpIkcpUpdateLost_eq k now
  rw [hset]
  exact ⟨rfl, rfl⟩

/-- An update first of all makes the block an updated one; then it is a flush or nothing. -/
theorem pvpIkcpUpdate_heirs (now : IUINT32) (hs : Tuning.Sane { k.tuning with updated := true }) :
    ∃ j : IKCPCB, j.tuning.Sane ∧ (AcksFit k → AcksFit j) ∧ Heirs j (pvpIkcpUpdate k now)
      ∧ (pvpIkcpUpdate k now).1.tuning = { k.tuning with updated := true, current := now } := by
  obtain ⟨htuning, hacks⟩ := updateHead_tuning k now
  have hlost : ∀ j : IKCPCB, Heir j (pvpIkcpUpdateLost j now) := by
    intro j
    obtain ⟨ht, ha⟩ := pvpIkcpUpdateLost_tuning j now
    exact Keeps.heir ⟨ht, Nat.le_of_eq ha⟩
  unfold pvpIkcpUpdate
  generalize updateHead k now = r at htuning hacks
  obtain ⟨flush, j⟩ := r
  dsimp only at htuning hacks
  have hsane : j.tuning.Sane :=
    htuning ▸ ⟨hs.updated, hs.mtu_ge, hs.mtu_le, hs.interval, hs.rto_ge, hs.rto_le, hs.resend⟩
  refine ⟨j, hsane, fun hfit => ?_, ?_⟩
  · have hmtu : j.mtu = k.mtu := congrArg Tuning.mtu htuning
    unfold AcksFit at hfit ⊢
    rw [hmtu, hacks]
    exact hfit
  · cases flush with
    | false => exact ⟨(hlost j).heirs, (pvpIkcpUpdateLost_tuning j now).1.trans htuning⟩
    | true =>
      obtain ⟨hkept, hsent, -⟩ := pvpIkcpFlush_drains hsane
      refine ⟨⟨hkept.heir.trans (hlost _), fun e he => (hsent e he).1.heir⟩, ?_⟩
      exact (pvpIkcpUpdateLost_tuning _ now).1.trans (hkept.tuning.trans htuning)

/-- **An update** sets the clock, and no other setting. -/
theorem pvpIkcpUpdate_tuning (now : IUINT32) (hs : Tuning.Sane { k.tuning with updated := true }) :
    (pvpIkcpUpdate k now).1.tuning = { k.tuning with updated := true, current := now } := by
  obtain ⟨-, -, -, -, htuning⟩ := pvpIkcpUpdate_heirs now hs
  exact htuning

end Draining

end ConnClient.Ikcp
