/-
  One datagram over, and one back.

  Nothing tells a sender that a datagram got lost; it finds out by sending again and by being told.
  This module says what one side learns from one datagram of the other side, when it arrives at once:

  * it is read in time, if the receiver is not too far behind (`Abreast.timely`);
  * data up to the next number in order is acknowledged (`pvpIkcpInput_acked`), and a question about
    the window is remembered (`pvpIkcpInput_asked`);
  * the one that is told learns the window (`pvpIkcpInput_rmtWnd`), and forgets the head of `snd_buf`
    when `una` is beyond it (`pvpIkcpInput_pops`).

  And it says how the datagram comes about: there is a time at which `pvp_ikcp_update` flushes and
  whatever waits for a time is due (`updateHead_time`); what is in `flushSegs` is on the wire then
  (`flush_carries`); and among it is the head of `snd_buf` (`head_due`), the question to a peer whose
  window is closed (`wask_due`), and the answer to it (`answer_due`).

  A datagram may hold anything besides the segment that matters, so most of these facts come in three
  steps: what the one segment brings about, that no other segment of the datagram undoes it, and that
  what follows the loop does not either (`inputSegs_meets`).
-/
import ConnClient.Lib.Progress
import ConnClient.Ikcp.Retention

namespace ConnClient.Ikcp

open ConnClient.Lib

/-! ## The segments of a datagram, one after the other -/

section Rounds

variable {P Q : InputSt → Prop} {segs : List IKCPSEG}

/-- What each segment keeps, all of them keep. -/
theorem inputSegs_rule (h : ∀ st, ∀ seg ∈ segs, P st → P (inputSeg st seg.head seg.data)) {st : InputSt}
    (h0 : P st) : P (inputSegs segs st) := by
  induction segs generalizing st with
  | nil => exact h0
  | cons seg segs ih =>
    refine ih (fun st' s hs => h st' s (List.mem_cons_of_mem _ hs)) ?_
    exact h st seg (List.mem_cons_self ..) h0

/-- What one of the segments brings about, and each of them keeps, holds at the end. -/
theorem inputSegs_meets {seg : IKCPSEG} (hseg : seg ∈ segs)
    (hP : ∀ st, ∀ s ∈ segs, P st → P (inputSeg st s.head s.data))
    (hat : ∀ st, P st → Q (inputSeg st seg.head seg.data))
    (hQ : ∀ st, ∀ s ∈ segs, Q st → Q (inputSeg st s.head s.data)) {st : InputSt} (h0 : P st) :
    Q (inputSegs segs st) := by
  obtain ⟨front, rest, rfl⟩ := List.append_of_mem hseg
  -- those in front of it, the segment itself, those behind it
  have hsplit : inputSegs (front ++ seg :: rest) st
      = inputSegs rest (inputSeg (inputSegs front st) seg.head seg.data) := List.foldl_append ..
  rw [hsplit]
  refine inputSegs_rule (fun st' s hs => hQ st' s ?_) (hat _ ?_)
  · exact List.mem_append_right _ (List.mem_cons_of_mem _ hs)
  · exact inputSegs_rule (fun st' s hs => hP st' s (List.mem_append_left _ hs)) h0

end Rounds

/-- The whole of `pvp_ikcp_input`, for a datagram with a segment. -/
theorem pvpIkcpInput_segs {conv : IUINT32} {k : IKCPCB} (hconv : k.conv = conv) {segs : List IKCPSEG}
    (hsegs : ∀ seg ∈ segs, Accepted conv seg) (hne : segs ≠ []) (current : IUINT32) :
    let st := inputSegs segs { kcp := inputEnter k current, flag := false, maxack := 0 }
    (pvpIkcpInput k (segs.flatMap ikcpSegBytes) current).2
      = inputCwnd (if st.flag then ikcpParseFastack st.kcp st.maxack else st.kcp) (inputEnter k current).sndUna := by
  have hconv' : (inputEnter k current).conv = conv :=
    (congrArg (fun g => g.snd.conv) (inputEnter_ground k current)).trans hconv
  have hlen : ¬ (segs.flatMap ikcpSegBytes).length < ikcpOverhead := by
    cases segs with
    | nil => exact absurd rfl hne
    | cons seg segs =>
      rw [List.flatMap_cons, List.length_append, length_ikcpSegBytes]
      omega
  have hloop := inputLoop_packed inputSeg_conv segs _
    { kcp := inputEnter k current, flag := false, maxack := 0 } (length_segs_le segs) hconv' hsegs
  rw [pvpIkcpInput]
  dsimp only
  rw [if_neg hlen, hloop]

/-! ## The one that is asked -/

/-- A block that is not far behind: it received nothing from `base` on, and has all but `0x7fff` of
    what is below.  `base` is the number the other side gives out next; so near to it, a number cut
    to 16 bits is rebuilt as it was. -/
structure Abreast (conv : IUINT32) (base sndNum rcvNum : Nat) (k : IKCPCB) : Prop where
  reading : Reading conv sndNum rcvNum k
  below : k.has rcvNum ⊆ Set.Iio base
  close : base ≤ rcvNum + 0x7fff

section Asked

variable {conv : IUINT32} {base sndNum rcvNum : Nat} {note : Note} {k : IKCPCB} {segs : List IKCPSEG}

theorem Abreast.le (h : Abreast conv base sndNum rcvNum k) : rcvNum ≤ base := by
  by_contra hlt
  exact absurd (h.below (Or.inl (Nat.lt_of_not_le hlt))) (Nat.lt_irrefl base)

/-- **One segment**: it is in time, and the block stays abreast: it may take in a number, but none
    from `base` on. -/
theorem Abreast.seg {st : InputSt} (h : Abreast conv base sndNum rcvNum st.kcp) (hnote : note.Near sndNum)
    {seg : IKCPSEG} (hseg : Noted conv base note seg) :
    (seg.head.cmd = ikcpCmdPush ∨ seg.head.cmd = ikcpCmdDups →
        near base seg.head.tmpSn - rcvNum > -0x8000 ∧ near base seg.head.tmpSn - rcvNum < 0x8000)
      ∧ Abreast conv base sndNum (rcvNum + off st.kcp.rcvNxt (inputSeg st seg.head seg.data).kcp.rcvNxt)
        (inputSeg st seg.head seg.data).kcp := by
  have hle := h.le
  have hclose := h.close
  have htimely : seg.head.cmd = ikcpCmdPush ∨ seg.head.cmd = ikcpCmdDups →
      near base seg.head.tmpSn - rcvNum > -0x8000 ∧ near base seg.head.tmpSn - rcvNum < 0x8000 := by
    intro hd
    -- a number below `base` and near it, so the 16 bits of it say which it is
    obtain ⟨n, hlt, hnear, hsn⟩ := hseg.data hd
    have htmp : seg.head.tmpSn = BitVec.ofNat 16 n := by
      show seg.sn.setWidth 16 = _
      rw [hsn, BitVec.setWidth_ofNat_of_le (by decide)]
    rw [htmp, near_ofNat (by omega) (by omega)]
    omega
  obtain ⟨news, hread⟩ := inputSeg_read h.reading hnote hseg htimely
  refine ⟨htimely, h.reading.seg seg, ?_, by omega⟩
  exact hread.gains.trans (Set.union_subset h.below (Set.Subset.refl _))

/-- **A datagram of the other side, fresh, is in time.**  Induction on its segments; `n` bounds the rounds. -/
theorem Abreast.timely (hnote : note.Near sndNum) (hsegs : ∀ seg ∈ segs, Noted conv base note seg) (n : Nat)
    {st : InputSt} (h : Abreast conv base sndNum rcvNum st.kcp) :
    timely base n (segs.flatMap ikcpSegBytes) rcvNum st = true := by
  induction segs generalizing n rcvNum st with
  | nil =>
    cases n with
    | zero => rfl
    | succ n =>
      rw [List.flatMap_nil, Ikcp.timely, parseSeg_nil]
  | cons seg segs ih =>
    cases n with
    | zero => rfl
    | succ n =>
      have hseg := hsegs seg (List.mem_cons_self ..)
      obtain ⟨hnow, hnext⟩ := h.seg hnote hseg
      rw [List.flatMap_cons, Ikcp.timely, h.reading.conv, parseSeg_segBytes hseg.accepted]
      dsimp only
      rw [Bool.and_eq_true]
      constructor
      · -- data has to be near, and only data
        by_cases hd : seg.head.cmd = ikcpCmdPush ∨ seg.head.cmd = ikcpCmdDups
        · obtain ⟨hlo, hhi⟩ := hnow hd
          rw [decide_eq_true hlo, decide_eq_true hhi, Bool.and_self, Bool.or_true]
        · have hcmd : (seg.head.cmd == ikcpCmdPush || seg.head.cmd == ikcpCmdDups) = false := by
            rw [Bool.or_eq_false_iff, beq_eq_false_iff_ne, beq_eq_false_iff_ne]
            exact not_or.mp hd
          rw [hcmd]
          rfl
      · exact ih (fun s hs => hsegs s (List.mem_cons_of_mem _ hs)) n hnext

/-- Data up to the next number in order is to be acknowledged: it is in front of the end of the
    window, however long ago it was received. -/
theorem Abreast.acked (h : Abreast conv base sndNum rcvNum k) {seg : IKCPSEG} (hpush : seg.head.cmd = ikcpCmdPush)
    {n : Nat} (hsn : seg.sn = BitVec.ofNat 32 n) (hn : n ≤ rcvNum) (hnear : base ≤ n + 0x7fff)
    (hwnd : 0 < k.rcvWnd.toNat ∧ k.rcvWnd.toNat ≤ 0x7fff) :
    BitVec.ofNat 32 n ∈ (acked k seg.head).map Prod.fst := by
  have hle := h.le
  have hid : getId k.rcvNxt seg.head.tmpSn = BitVec.ofNat 32 n := by
    have htmp : seg.head.tmpSn = BitVec.ofNat 16 n := by
      show seg.sn.setWidth 16 = _
      rw [hsn, BitVec.setWidth_ofNat_of_le (by decide)]
    rw [htmp, h.reading.rcvNxt, getId_ofNat (by omega) (by omega)]
  have hin : itimediff (BitVec.ofNat 32 n) (k.rcvNxt + k.rcvWnd) < 0 := by
    have hend : k.rcvNxt + k.rcvWnd = BitVec.ofNat 32 (rcvNum + k.rcvWnd.toNat) := by
      rw [h.reading.rcvNxt, BitVec.ofNat_add, BitVec.ofNat_toNat, BitVec.setWidth_eq]
    rw [hend, itimediff_ofNat (by omega) (by omega)]
    omega
  rw [Ikcp.acked, hid, if_pos ⟨Or.inl hpush, hin⟩]
  exact List.mem_singleton.mpr rfl

/-- What stands before the loop changes none of it. -/
theorem Abreast.enter (h : Abreast conv base sndNum rcvNum k) (current : IUINT32) :
    Abreast conv base sndNum rcvNum (inputEnter k current) := by
  have halike := inputEnter_alike k current
  have hground := inputEnter_ground k current
  refine ⟨⟨?_, ?_, ?_, ?_, ?_⟩, ?_, h.close⟩
  · exact (congrArg (fun g => g.snd.conv) hground).trans h.reading.conv
  · exact rcvWindowed_digest.same h.reading.rcv hground
  · rw [inputEnter_desk]
    exact h.reading.fits
  · exact halike.nxt.trans h.reading.sndNxt
  · exact (congrArg RcvHalf.rcvNxt halike.half).trans h.reading.rcvNxt
  · rw [has_congr halike.half]
    exact h.below

/-- **What is asked to be acknowledged** is in `acklist` behind the datagram. -/
theorem pvpIkcpInput_acked (h : Abreast conv base sndNum rcvNum k) (hnote : note.Near sndNum)
    (hsegs : ∀ seg ∈ segs, Noted conv base note seg) {seg : IKCPSEG} (hseg : seg ∈ segs)
    (hpush : seg.cmd = ikcpCmdPush) {n : Nat} (hsn : seg.sn = BitVec.ofNat 32 n) (hn : n ≤ rcvNum)
    (hnear : base ≤ n + 0x7fff) (hwnd : 0 < k.rcvWnd.toNat ∧ k.rcvWnd.toNat ≤ 0x7fff) (current : IUINT32) :
    BitVec.ofNat 32 n ∈ (acks (pvpIkcpInput k (segs.flatMap ikcpSegBytes) current).2).map Prod.fst := by
  -- between two segments: the counter has not gone back, the block is abreast, the window is the
  -- same
  let P : InputSt → Prop := fun st =>
    ∃ r, rcvNum ≤ r ∧ Abreast conv base sndNum r st.kcp ∧ st.kcp.rcvWnd = k.rcvWnd
  let Q : InputSt → Prop := fun st => P st ∧ BitVec.ofNat 32 n ∈ (acks st.kcp).map Prod.fst
  have hround : ∀ st, ∀ s ∈ segs, P st → P (inputSeg st s.head s.data) := by
    rintro st s hs ⟨r, hr, habreast, hsame⟩
    obtain ⟨-, hnext⟩ := habreast.seg hnote (hsegs s hs)
    exact ⟨_, by omega, hnext, (rcvWnd_digest k.rcvWnd).inputSeg hsame s.head s.data⟩
  have hacks : ∀ st, ∀ s : IKCPSEG, P st →
      acks (inputSeg st s.head s.data).kcp = acks st.kcp ++ acked st.kcp s.head := by
    rintro st s ⟨r, -, habreast, -⟩
    exact inputSeg_acks habreast.reading.fits s.head s.data
  have hne : segs ≠ [] := List.ne_nil_of_mem hseg
  have henter := h.enter current
  have hloop : Q (inputSegs segs { kcp := inputEnter k current, flag := false, maxack := 0 }) := by
    -- the segment pushes its pair, and the pairs that are there stay in front of others
    refine inputSegs_meets (P := P) hseg hround (fun st hst => ?_) (fun st s hs hst => ?_) ?_
    · refine ⟨hround st seg hseg hst, ?_⟩
      obtain ⟨r, hr, habreast, hsame⟩ := hst
      rw [hacks st seg ⟨r, hr, habreast, hsame⟩, List.map_append]
      exact List.mem_append_right _ (habreast.acked hpush hsn (by omega) hnear (hsame ▸ hwnd))
    · refine ⟨hround st s hs hst.1, ?_⟩
      rw [hacks st s hst.1, List.map_append]
      exact List.mem_append_left _ hst.2
    · refine ⟨rcvNum, Nat.le_refl _, henter, ?_⟩
      exact congrArg (fun g => g.rcv.rcvWnd) (inputEnter_ground k current)
  rw [pvpIkcpInput_segs h.reading.conv (fun s hs => (hsegs s hs).accepted) hne]
  rw [(inputTail_alike _ _).acks]
  exact hloop.2

/-- What a segment says of the window, and what it asks.  Every segment says a window; only
    `IKCP_CMD_WASK` asks, and nothing takes a question back. -/
theorem inputSeg_told (st : InputSt) (head : SegHead) (payload : List Byte) :
    (inputSeg st head payload).kcp.rmtWnd = head.wnd.setWidth 32
      ∧ (inputSeg st head payload).kcp.probe
        = st.kcp.probe ||| if head.cmd = ikcpCmdWask then ikcpAskTell else 0 := by
  -- the window is set first, and `una` has nothing to do with either
  have hafter : (afterUna st head).rmtWnd = head.wnd.setWidth 32 ∧ (afterUna st head).probe = st.kcp.probe := by
    obtain ⟨_, hshrink⟩ := ikcpShrinkBuf_eq (ikcpParseUna { st.kcp with rmtWnd := head.wnd.setWidth 32 }
      (getId st.kcp.sndNxt head.tmpUna))
    obtain ⟨_, _, _, _, _, _, huna⟩ := parseUnaLoop_eq (getId st.kcp.sndNxt head.tmpUna) st.kcp.sndBuf
      { st.kcp with rmtWnd := head.wnd.setWidth 32 }
    rw [afterUna, hshrink, ikcpParseUna, huna]
    exact ⟨rfl, rfl⟩
  have hzero : ∀ x : IUINT32, x = x ||| 0 := fun x => BitVec.or_zero.symm
  rw [inputSeg]
  dsimp only
  generalize hk : afterUna st head = k at hafter
  rw [afterUna] at hk
  rw [hk]
  obtain ⟨hwnd, hprobe⟩ := hafter
  -- the four kinds of segment: an acknowledgement, data, a question, and an answer
  by_cases hack : head.cmd = ikcpCmdAck
  · have hother : ¬ head.cmd = ikcpCmdWask := by
      rw [hack]
      decide
    have hshrink : ∀ sn, (ikcpShrinkBuf (ikcpParseAck k sn)).rmtWnd = k.rmtWnd
        ∧ (ikcpShrinkBuf (ikcpParseAck k sn)).probe = k.probe := by
      intro sn
      obtain ⟨_, hset⟩ := ikcpShrinkBuf_eq (ikcpParseAck k sn)
      obtain ⟨_, _, _, _, _, _, hparse⟩ := ikcpParseAck_eq k sn
      rw [hset, hparse]
      exact ⟨rfl, rfl⟩
    rw [if_pos hack, if_neg hother, ← hzero, ← hwnd, ← hprobe]
    split
    · exact hshrink _
    · exact hshrink _
  rw [if_neg hack]
  by_cases hdata : head.cmd = ikcpCmdPush ∨ head.cmd = ikcpCmdDups
  · have hother : ¬ head.cmd = ikcpCmdWask := by
      rcases hdata with hcmd | hcmd <;> rw [hcmd] <;> decide
    obtain ⟨_, _, _, _, _, _, _, _, hset⟩ := inputData_eq k head (getId st.kcp.sndNxt head.tmpUna) payload
    rw [if_pos hdata, if_neg hother, ← hzero, hset]
    exact ⟨hwnd, hprobe⟩
  rw [if_neg hdata]
  by_cases hask : head.cmd = ikcpCmdWask
  · rw [if_pos hask, if_pos hask, ← hprobe]
    exact ⟨hwnd, rfl⟩
  · rw [if_neg hask, if_neg hask, ← hzero]
    exact ⟨hwnd, hprobe⟩

/-- What follows the loop is about neither. -/
theorem inputTail_told (st : InputSt) (una : IUINT32) :
    let k := inputCwnd (if st.flag then ikcpParseFastack st.kcp st.maxack else st.kcp) una
    k.rmtWnd = st.kcp.rmtWnd ∧ k.probe = st.kcp.probe := by
  obtain ⟨_, hfast⟩ := ikcpParseFastack_eq st.kcp st.maxack
  have hstep : (if st.flag then ikcpParseFastack st.kcp st.maxack else st.kcp).rmtWnd = st.kcp.rmtWnd
      ∧ (if st.flag then ikcpParseFastack st.kcp st.maxack else st.kcp).probe = st.kcp.probe := by
    split
    · rw [hfast]
      exact ⟨rfl, rfl⟩
    · exact ⟨rfl, rfl⟩
  obtain ⟨_, _, hset⟩ := inputCwnd_eq (if st.flag then ikcpParseFastack st.kcp st.maxack else st.kcp) una
  dsimp only
  rw [hset]
  exact hstep

/-- The block is to tell its window. -/
def IKCPCB.Asked (k : IKCPCB) : Prop := k.probe &&& ikcpAskTell ≠ 0

/-- **A question about the window** is remembered until it is answered. -/
theorem pvpIkcpInput_asked (hconv : k.conv = conv) (hsegs : ∀ seg ∈ segs, Accepted conv seg) {seg : IKCPSEG}
    (hseg : seg ∈ segs) (hask : seg.cmd = ikcpCmdWask) (current : IUINT32) :
    (pvpIkcpInput k (segs.flatMap ikcpSegBytes) current).2.Asked := by
  -- a flag that is set stays set when others are put beside it
  have hor : ∀ x y : IUINT32, x &&& ikcpAskTell ≠ 0 ∨ y &&& ikcpAskTell ≠ 0 → (x ||| y) &&& ikcpAskTell ≠ 0 := by
    intro x y h hzero
    rw [BitVec.and_or_distrib_right] at hzero
    obtain ⟨hx, hy⟩ := BitVec.or_eq_zero_iff.mp hzero
    exact h.elim (fun h => h hx) fun h => h hy
  have hloop : (inputSegs segs { kcp := inputEnter k current, flag := false, maxack := 0 }).kcp.Asked := by
    refine inputSegs_meets (P := fun _ => True) (Q := fun st => st.kcp.Asked) hseg (fun _ _ _ _ => trivial)
      (fun st _ => ?_) (fun st s _ hst => ?_) trivial
    · have hcmd : seg.head.cmd = ikcpCmdWask := hask
      rw [IKCPCB.Asked, (inputSeg_told st seg.head seg.data).2, if_pos hcmd]
      exact hor _ _ (Or.inr (by decide))
    · rw [IKCPCB.Asked, (inputSeg_told st s.head s.data).2]
      exact hor _ _ (Or.inl hst)
  rw [pvpIkcpInput_segs hconv hsegs (List.ne_nil_of_mem hseg), IKCPCB.Asked, (inputTail_told _ _).2]
  exact hloop

end Asked

/-! ## The one that is told -/

section Told

variable {conv : IUINT32} {base sndNum rcvNum : Nat} {note : Note} {k : IKCPCB} {segs : List IKCPSEG}

/-- **The window** is what the datagram says.  Each of its segments says the same one, so the last
    has the last word and it does not matter. -/
theorem pvpIkcpInput_rmtWnd (hconv : k.conv = conv) (hsegs : ∀ seg ∈ segs, Noted conv base note seg)
    (hne : segs ≠ []) (hwnd : note.wnd < 2 ^ 16) (current : IUINT32) :
    (pvpIkcpInput k (segs.flatMap ikcpSegBytes) current).2.rmtWnd.toNat = note.wnd := by
  have hround : ∀ st, ∀ seg ∈ segs, (inputSeg st seg.head seg.data).kcp.rmtWnd.toNat = note.wnd := by
    intro st seg hseg
    have hsaid : seg.wnd.toNat = note.wnd := (hsegs seg hseg).wnd
    rw [(inputSeg_told st seg.head seg.data).1]
    show ((seg.wnd.setWidth 16).setWidth 32).toNat = note.wnd
    -- it travels in 16 bits, which it fits
    rw [BitVec.toNat_setWidth, BitVec.toNat_setWidth, hsaid]
    omega
  obtain ⟨seg, hseg⟩ := List.exists_mem_of_ne_nil _ hne
  rw [pvpIkcpInput_segs hconv (fun s hs => (hsegs s hs).accepted) hne, (inputTail_told _ _).1]
  exact inputSegs_meets (P := fun _ => True) (Q := fun st => st.kcp.rmtWnd.toNat = note.wnd) hseg
    (fun _ _ _ _ => trivial) (fun st _ => hround st seg hseg) (fun st s hs _ => hround st s hs) trivial

/-- Numbers that are fewer are of fewer segments. -/
theorem LetsGo.length_le {gone : IUINT32 → Prop} {k' : IKCPCB} (h : LetsGo gone k k') :
    k'.sndBuf.length ≤ k.sndBuf.length := by
  have hle := h.sub.length_le
  rw [List.length_map, List.length_map] at hle
  exact hle

/-- A `una` beyond the head of `snd_buf` takes it away. -/
theorem afterUna_pops {st : InputSt} {head : SegHead} {seg : IKCPSEG} {rest : List IKCPSEG}
    (hbuf : st.kcp.sndBuf = seg :: rest) (huna : itimediff (getId st.kcp.sndNxt head.tmpUna) seg.sn > 0) :
    (afterUna st head).sndBuf.length ≤ rest.length := by
  rw [afterUna, ikcpParseUna]
  dsimp only
  rw [hbuf, parseUnaLoop, if_pos huna]
  exact ((parseUnaLoop_letsGo _ rest _ rfl).trans (ikcpShrinkBuf_letsGo _)).length_le

/-- **The head of `snd_buf`** leaves when `una` is beyond it: the first segment of the datagram says so. -/
theorem pvpIkcpInput_pops (h : Reading conv sndNum rcvNum k) (hnote : note.Near sndNum)
    (hsegs : ∀ seg ∈ segs, Noted conv base note seg) (hne : segs ≠ []) {seg : IKCPSEG} {rest : List IKCPSEG}
    (hbuf : k.sndBuf = seg :: rest) {n : Nat} (hsn : seg.sn = BitVec.ofNat 32 n) (hlt : n < note.una)
    (hnear : note.una ≤ n + 0x7fff) (current : IUINT32) :
    (pvpIkcpInput k (segs.flatMap ikcpSegBytes) current).2.sndBuf.length ≤ rest.length := by
  have henter := inputEnter_alike k current
  obtain ⟨_, _, _, hset⟩ := inputEnter_eq k current
  cases segs with
  | nil => exact absurd rfl hne
  | cons first segs =>
    have hfirst := hsegs first (List.mem_cons_self ..)
    let st : InputSt := { kcp := inputEnter k current, flag := false, maxack := 0 }
    -- the first segment takes the head, and those after it put nothing back
    have hpops : (inputSeg st first.head first.data).kcp.sndBuf.length ≤ rest.length := by
      have hbuf' : st.kcp.sndBuf = seg :: rest := by
        show (inputEnter k current).sndBuf = _
        rw [hset]
        exact hbuf
      refine Nat.le_trans (inputSeg_afterUna st first.head first.data).length_le (afterUna_pops hbuf' ?_)
      have hnxt : st.kcp.sndNxt = BitVec.ofNat 32 sndNum := henter.nxt.trans h.sndNxt
      rw [hfirst.una_eq hnote hnxt, hsn, itimediff_ofNat (by omega) (by omega)]
      omega
    have hloop : (inputSegs (first :: segs) st).kcp.sndBuf.length ≤ rest.length := by
      show (inputSegs segs (inputSeg st first.head first.data)).kcp.sndBuf.length ≤ _
      exact inputSegs_rule (P := fun st => st.kcp.sndBuf.length ≤ rest.length)
        (fun st s _ hst => Nat.le_trans (inputSeg_letsGo st s.head s.data).length_le hst) hpops
    have hbufs := congrArg List.length (inputTail_alike (inputSegs (first :: segs) st)
      (inputEnter k current).sndUna).buf
    rw [List.length_map, List.length_map] at hbufs
    rw [pvpIkcpInput_segs h.conv (fun s hs => (hsegs s hs).accepted) hne, hbufs]
    exact hloop

end Told

/-! ## The time of a flush -/

section Time

variable (k : IKCPCB)

/-- The first update sets the time of the flush to its own. -/
theorem updateEnter_flushAt (current : IUINT32) : (updateEnter k current).current = current
    ∧ (updateEnter k current).tsFlush = if k.updated = false then current else k.tsFlush := by
  rw [updateEnter]
  generalize hk : (if k.updated = false then _ else _ : IKCPCB) = k'
  have hclock : k'.current = current ∧ k'.tsFlush = if k.updated = false then current else k.tsFlush := by
    rw [← hk]
    split
    · exact ⟨rfl, rfl⟩
    · exact ⟨rfl, rfl⟩
  obtain ⟨_, hset⟩ := pvpIkcpUpdateDupsendOn_switch k'
  rw [hset]
  split
  · exact hclock
  · exact hclock

/-- A flush is put off for at most ten seconds: with the time of the flush further away than that,
    the clock is taken to have jumped, and the flush is now. -/
theorem updateHead_flushes {current : IUINT32} (h : itimediff current k.tsFlush ≥ 0
    ∨ itimediff current k.tsFlush < -10000) : (updateHead k current).1 = true := by
  obtain ⟨hcurrent, hflush⟩ := updateEnter_flushAt k current
  have hslap : (updateSlap (updateEnter k current)).1 ≥ 0 := by
    rw [updateSlap, hcurrent, hflush]
    by_cases hfirst : k.updated = false
    · rw [if_pos hfirst, itimediff_self]
      split
      · exact Int.le_refl 0
      · exact Int.le_refl 0
    · rw [if_neg hfirst]
      split
      · exact Int.le_refl 0
      · omega
  rw [updateHead]
  generalize updateSlap (updateEnter k current) = r at hslap
  obtain ⟨slap, k'⟩ := r
  dsimp only at hslap ⊢
  rw [if_pos hslap]

/-- **There is a time from `ts` on at which `pvp_ikcp_update` flushes**: `ts` itself, or twenty
    seconds later.  If the flush is not due at `ts`, it is due within ten seconds of it, and twenty
    seconds later it still counts as past. -/
theorem updateHead_time (ts : IUINT32) :
    ∃ current, itimediff current ts ≥ 0 ∧ (updateHead k current).1 = true := by
  by_cases hnow : itimediff ts k.tsFlush ≥ 0 ∨ itimediff ts k.tsFlush < -10000
  · exact ⟨ts, by rw [itimediff_self], updateHead_flushes k hnow⟩
  · have hcases := itimediff_cases ts k.tsFlush
    have hlater := itimediff_cases (ts + 20000) k.tsFlush
    have hts := itimediff_cases (ts + 20000) ts
    have hadd : (20000 : IUINT32).toNat = 20000 := rfl
    have hsum : ts + 20000 - k.tsFlush = ts - k.tsFlush + 20000 := by ring
    have hdiff : ts + 20000 - ts = 20000 := by ring
    rw [hsum, BitVec.toNat_add, hadd] at hlater
    rw [hdiff, hadd] at hts
    exact ⟨ts + 20000, by omega, updateHead_flushes k (Or.inl (by omega))⟩

end Time

/-! ## What is flushed then -/

section Flushed

variable {k : IKCPCB}

/-- A segment of a flush is in one of its datagrams, between others of them.  The datagrams are the
    packing of `flushSegs`. -/
theorem flush_carries (hup : k.updated = true) {seg : IKCPSEG} (hseg : seg ∈ flushSegs k) :
    ∃ segs, segs.flatMap ikcpSegBytes ∈ (pvpIkcpFlush k).2.map Prod.snd ∧ seg ∈ segs ∧ segs ⊆ flushSegs k := by
  have hflat : (pack k.mtu segSize (flushSegs k)).flatten = flushSegs k := flatten_pack _
  have hin : seg ∈ (pack k.mtu segSize (flushSegs k)).flatten := by
    rw [hflat]
    exact hseg
  obtain ⟨segs, hbox, hmem⟩ := List.mem_flatten.mp hin
  refine ⟨segs, ?_, hmem, fun s hs => ?_⟩
  · rw [pvpIkcpFlush_laid hup]
    exact List.mem_map_of_mem hbox
  · rw [← hflat]
    exact List.mem_flatten_of_mem hbox hs

/-- **The head of `snd_buf`** is sent when its time has come. -/
theorem head_due {seg : IKCPSEG} {rest : List IKCPSEG} (hbuf : k.sndBuf = seg :: rest)
    (hpush : seg.cmd = ikcpCmdPush) (hdue : itimediff k.current seg.resendts ≥ 0) :
    ∃ s ∈ flushSegs k, s.cmd = ikcpCmdPush ∧ s.sn = seg.sn := by
  let a := flushArgs k (ikcpWndUnused k)
  have hmem : seg ∈ (transferred k).sndBuf := by
    show seg ∈ k.sndBuf ++ _
    rw [hbuf]
    exact List.mem_append_left _ (List.mem_cons_self ..)
  -- it was never sent, or its time has come
  have hnot : segmentDue a seg ≠ .no := by
    have hlate : itimediff a.current seg.resendts ≥ 0 := hdue
    rw [segmentDue, if_pos hlate]
    split
    · exact fun h => Due.noConfusion h
    · exact fun h => Due.noConfusion h
  -- what is stamped on a segment that is due is neither its command nor its number
  have hkey : ∀ due, (stamped a k.rcvNxt (dueSegment a k seg due)).cmd = seg.cmd
      ∧ (stamped a k.rcvNxt (dueSegment a k seg due)).sn = seg.sn := by
    intro due
    have hkey := dueSegment_key a k seg due
    exact ⟨congrArg (fun e => e.2.1) hkey, congrArg (fun e => e.2.2.1) hkey⟩
  have hsent : ∀ s, transmission a k seg = some s → s ∈ flushSegs k := by
    intro s hs
    have hdue : s ∈ dueSegs k := List.mem_filterMap.mpr ⟨seg, hmem, hs⟩
    exact List.mem_append_left _ (List.mem_append_right _ hdue)
  cases hcase : segmentDue a seg with
  | no => exact absurd hcase hnot
  | first =>
    refine ⟨_, hsent (stamped a k.rcvNxt (dueSegment a k seg .first)) ?_, (hkey _).1.trans hpush, (hkey _).2⟩
    rw [transmission, hcase]
  | timeout =>
    refine ⟨_, hsent (stamped a k.rcvNxt (dueSegment a k seg .timeout)) ?_, (hkey _).1.trans hpush, (hkey _).2⟩
    rw [transmission, hcase]
  | fastack =>
    refine ⟨_, hsent (stamped a k.rcvNxt (dueSegment a k seg .fastack)) ?_, (hkey _).1.trans hpush, (hkey _).2⟩
    rw [transmission, hcase]

/-- **The question** is sent when the window of the other side is closed, and its time has come. -/
theorem wask_due (hclosed : k.rmtWnd = 0) (hwait : k.probeWait ≠ 0) (hdue : itimediff k.current k.tsProbe ≥ 0) :
    ∃ s ∈ flushSegs k, s.cmd = ikcpCmdWask := by
  -- the window is closed and the question was put off until now, so it is asked
  have hprobe : (updateProbe { k with ackcount := 0 }).probe = k.probe ||| ikcpAskSend := by
    rw [updateProbe]
    dsimp only
    rw [if_pos hclosed, if_neg hwait, if_pos hdue]
  have hset : (updateProbe { k with ackcount := 0 }).probe &&& ikcpAskSend ≠ 0 := by
    rw [hprobe, BitVec.and_or_distrib_right, BitVec.and_self]
    intro hzero
    exact absurd (BitVec.or_eq_zero_iff.mp hzero).2 (by decide)
  refine ⟨{ probeSeg k with cmd := ikcpCmdWask }, ?_, rfl⟩
  have hin : { probeSeg k with cmd := ikcpCmdWask } ∈ probeSegs k := by
    rw [probeSegs]
    dsimp only
    rw [if_pos hset]
    exact List.mem_append_left _ (List.mem_cons_self ..)
  exact List.mem_append_left _ (List.mem_append_left _ (List.mem_append_right _ hin))

/-- **An answer** is sent at the next flush: to data, or to a question. -/
theorem answer_due (h : acks k ≠ [] ∨ k.Asked) : ∃ s, s ∈ flushSegs k := by
  rcases h with hacks | hasked
  · -- each pair is an acknowledgement
    obtain ⟨pair, hpair⟩ := List.exists_mem_of_ne_nil _ hacks
    have hin : ackSeg (controlSeg k) pair ∈ ackSegs k := List.mem_map_of_mem hpair
    exact ⟨_, List.mem_append_left _ (List.mem_append_left _ (List.mem_append_left _ hin))⟩
  · -- and a question that waits for its answer is not dropped by a question of one's own
    have hkeeps : (updateProbe { k with ackcount := 0 }).probe &&& ikcpAskTell ≠ 0 := by
      rw [updateProbe]
      split
      · split
        · exact hasked
        · split
          · intro hzero
            rw [BitVec.and_or_distrib_right] at hzero
            exact hasked (BitVec.or_eq_zero_iff.mp hzero).1
          · exact hasked
      · exact hasked
    have hin : { probeSeg k with cmd := ikcpCmdWins } ∈ probeSegs k := by
      rw [probeSegs]
      dsimp only
      rw [if_pos hkeeps]
      exact List.mem_append_right _ (List.mem_cons_self ..)
    exact ⟨_, List.mem_append_left _ (List.mem_append_left _ (List.mem_append_right _ hin))⟩

end Flushed

/-! ## What a flush leaves -/

/-- What a block knows of the windows, and when it will ask. -/
structure Outlook where
  updated : Bool
  sndWnd : IUINT32
  rmtWnd : IUINT32
  tsProbe : IUINT32
  probeWait : IUINT32

/-- The outlook of a block. -/
def IKCPCB.outlook (k : IKCPCB) : Outlook := ⟨k.updated, k.sndWnd, k.rmtWnd, k.tsProbe, k.probeWait⟩

section Left

variable {k : IKCPCB}

/-- The head of a flush decides about the question, and that is all it does to the outlook. -/
theorem flushHead_outlook (k : IKCPCB) :
    (flushHead k).2.kcp.outlook = (updateProbe { k with ackcount := 0 }).outlook := by
  let s := flushAcks k.ackcount 0 (controlSeg k, { kcp := k })
  let out := s.2.upd fun kcp => updateProbe { kcp with ackcount := 0 }
  have hs : s.2.kcp = k := flushAcks_kcp ..
  have hout : out.kcp = updateProbe { k with ackcount := 0 } := by
    show updateProbe { s.2.kcp with ackcount := 0 } = _
    rw [hs]
  have hasked : (flushProbe ikcpAskTell ikcpCmdWins (flushProbe ikcpAskSend ikcpCmdWask (s.1, out))).2.kcp
      = out.kcp := by
    rw [flushProbe_kcp, flushProbe_kcp]
  have hmoved : ∀ (cwnd : IUINT32) (k' : IKCPCB),
      (moveSndQueue k.current (ikcpWndUnused k) cwnd k'.sndQueue k').outlook = k'.outlook := by
    intro cwnd k'
    obtain ⟨_, _, _, _, _, hset, -⟩ := moveSndQueue_eq k.current (ikcpWndUnused k) cwnd k'.sndQueue k'
    rw [hset]
    rfl
  rw [flushHead]
  refine (hmoved _ _).trans ?_
  show IKCPCB.outlook (flushProbe ikcpAskTell ikcpCmdWins
    (flushProbe ikcpAskSend ikcpCmdWask (s.1, out))).2.kcp = _
  rw [hasked, hout]

/-- The copies are no matter of it.  Induction on their positions. -/
theorem flushDups_outlook (a : FlushArgs) (is : List Nat) (out : Out) :
    (flushDups a is out).kcp.outlook = out.kcp.outlook := by
  induction is generalizing out with
  | nil => rfl
  | cons i is ih =>
    rw [flushDups]
    split
    · exact ih out
    · refine (ih _).trans ?_
      show IKCPCB.outlook (makeRoom _ out).kcp = _
      rw [makeRoom_kcp]

/-- **`pvp_ikcp_flush`** changes nothing of it but the time of the next question. -/
theorem pvpIkcpFlush_outlook (hup : k.updated = true) :
    (pvpIkcpFlush k).1.outlook = (updateProbe { k with ackcount := 0 }).outlook := by
  let kcp := (flushHead k).2.kcp
  let a := flushArgs kcp (ikcpWndUnused k)
  let st := flushData a kcp.sndBuf.length 0 { out := (flushHead k).2 }
  have hdata : st.out.kcp.outlook = kcp.outlook := by
    refine flushData_rule (P := fun _ st => st.out.kcp.outlook = kcp.outlook) (fun i segment st h _ => ?_) _ 0 _
      (Nat.zero_add _) rfl
    obtain ⟨_, _, _, _, _, _, hset⟩ := flushSegment_eq a i segment st
    rw [hset]
    exact h
  have hflush : (pvpIkcpFlush k).1 = flushTail (flushHead k).1 a.resent st.change st.lost
      (flushDups a st.dupSegs st.out).kcp := by
    rw [← ikcpOutput_kcp, pvpIkcpFlush, if_neg (by rw [hup]; exact Bool.noConfusion)]
  obtain ⟨_, _, _, _, hset⟩ := flushTail_eq (flushHead k).1 a.resent st.change st.lost
    (flushDups a st.dupSegs st.out).kcp
  rw [hflush, hset]
  show IKCPCB.outlook (flushDups a st.dupSegs st.out).kcp = _
  rw [flushDups_outlook, hdata]
  exact flushHead_outlook k

/-- What waits is counted, whether in `snd_queue` or in `snd_buf`; a sender only moves it from the
    one to the other. -/
theorem Tells.waits {ln : Link} {log : List (Nat × List Byte)} {una sndNum n : Nat} {note : Note}
    {r : IKCPCB × List (IKCPCB × List Byte)} (h : SndOk ln log una sndNum k.sndHalf)
    (ht : Tells ln log una sndNum n note k r) (hk : Sending k) (hr : Sending r.1) :
    pvpIkcpWaitsnd r.1 = pvpIkcpWaitsnd k := by
  have hqueue : ∀ {m : Nat} {k' : IKCPCB}, SndOk ln log una m k'.sndHalf →
      k'.sndQueue.length = log.length - m := by
    intro m k' h'
    have hlen := congrArg List.length h'.queue
    rw [List.length_drop] at hlen
    exact (List.length_map IKCPSEG.unit).symm.trans hlen
  have hbuf := congrArg List.length ht.numbers
  rw [serials, List.length_append, List.length_map, List.length_map, List.length_map, List.length_range'] at hbuf
  have hlen := ht.ok.len
  have hbefore := hqueue h
  have hbehind := hqueue ht.ok
  rw [pvpIkcpWaitsnd, pvpIkcpWaitsnd, hk.nsndBuf, hk.nsndQue, hr.nsndBuf, hr.nsndQue]
  omega

/-- With nothing in flight, `snd_una` is `snd_nxt`. -/
theorem Sending.una_of_empty (hs : Sending k) (hbuf : k.sndBuf = []) : k.sndUna = k.sndNxt := by
  have hhead := hs.windowed.una
  rw [numbers_sndHalf, hbuf] at hhead
  exact hhead

/-- **An empty `snd_buf` is filled** when no window is closed. -/
theorem flush_fills (hup : k.updated = true) (hs : Sending k) (hopen : Open k) (hbuf : k.sndBuf = [])
    (hqueue : k.sndQueue ≠ []) (hsnd : k.sndWnd ≠ 0) (hrmt : k.rmtWnd ≠ 0) :
    (pvpIkcpFlush k).1.sndBuf ≠ [] := by
  have hpos : ∀ {x : IUINT32}, x ≠ 0 → 0 < x.toNat := by
    intro x hx
    refine Nat.pos_of_ne_zero fun hzero => hx ?_
    exact BitVec.eq_of_toNat_eq hzero
  -- no window is closed, so there is room for one segment at least
  have hcwnd : 0 < (sendCwnd k).toNat := by
    have hmin : ∀ a b : IUINT32, 0 < a.toNat → 0 < b.toNat → 0 < (imin a b).toNat := by
      intro a b ha hb
      rw [imin]
      split
      · exact ha
      · exact hb
    have hwnds := hmin _ _ (hpos hsnd) (hpos hrmt)
    rw [sendCwnd]
    split
    · exact hmin _ _ hopen hwnds
    · exact hwnds
  -- nothing is in flight: the window is all room
  have hroom : windowRoom k (sendCwnd k) = (sendCwnd k).toNat := by
    have huna := hs.una_of_empty hbuf
    have hle := (sendCwnd_le k).2
    have hlt := hs.rmtWnd
    have hcases := itimediff_cases k.sndNxt (k.sndNxt + sendCwnd k)
    have hback : k.sndNxt - (k.sndNxt + sendCwnd k) = -sendCwnd k := by ring
    rw [hback, BitVec.toNat_neg] at hcases
    rw [windowRoom, huna]
    omega
  -- `snd_buf` is what it was, which is nothing, and what was transferred
  have hlen := congrArg List.length (pvpIkcpFlush_numbers hup).1
  rw [List.length_map, List.length_map, transferred, transferTo] at hlen
  dsimp only at hlen
  have hnew := congrArg List.length (numberSegments_sn k k.current (ikcpWndUnused k) k.sndNxt.toNat
    (k.sndQueue.take (min k.sndQueue.length (windowRoom k (sendCwnd k)))))
  rw [BitVec.ofNat_toNat, BitVec.setWidth_eq, serials, List.length_map, List.length_map, List.length_range',
    List.length_take] at hnew
  have hpart := List.length_pos_of_ne_nil hqueue
  rw [List.length_append, hnew, hroom] at hlen
  intro hnone
  rw [hnone, List.length_nil] at hlen
  omega

/-- **An empty `snd_buf` stays empty** while the window of the other side is closed. -/
theorem flush_empty (hup : k.updated = true) (hs : Sending k) (hbuf : k.sndBuf = []) (hclosed : k.rmtWnd = 0) :
    (pvpIkcpFlush k).1.sndBuf = [] := by
  -- the window to send is never wider than that of the other side
  have hcwnd : sendCwnd k = 0 := by
    have hle := (sendCwnd_le k).2
    rw [hclosed] at hle
    exact BitVec.eq_of_toNat_eq (Nat.le_zero.mp hle)
  have hroom : windowRoom k (sendCwnd k) = 0 := by
    have huna := hs.una_of_empty hbuf
    have hzero : k.sndNxt + 0 = k.sndNxt := BitVec.add_zero _
    rw [windowRoom, huna, hcwnd, hzero, itimediff_self]
    rfl
  have hnumbers := (pvpIkcpFlush_numbers hup).1
  rw [transferred, transferTo, hroom, Nat.min_zero, List.take_zero, numberSegments, List.append_nil, hbuf] at hnumbers
  exact List.map_eq_nil_iff.mp hnumbers

end Left

/-! ## A flush in time -/

section Update

variable {k : IKCPCB} {current : IUINT32}

/-- An update whose time has come is a flush, and then the counting of losses. -/
theorem pvpIkcpUpdate_flush (hflush : (updateHead k current).1 = true) :
    pvpIkcpUpdate k current = (pvpIkcpUpdateLost (pvpIkcpFlush (updateHead k current).2).1 current,
      (pvpIkcpFlush (updateHead k current).2).2) := by
  rw [pvpIkcpUpdate]
  generalize updateHead k current = r at hflush
  obtain ⟨flush, k'⟩ := r
  dsimp only at hflush ⊢
  rw [if_pos hflush]

theorem updateHead_outlook (k : IKCPCB) (current : IUINT32) :
    (updateHead k current).2.outlook = { k.outlook with updated := true } := by
  obtain ⟨_, _, hhead⟩ := updateHead_eq k current
  rw [hhead]
  rfl

theorem pvpIkcpUpdateLost_outlook (k : IKCPCB) (current : IUINT32) :
    (pvpIkcpUpdateLost k current).outlook = k.outlook := by
  obtain ⟨_, _, _, _, hset⟩ := pvpIkcpUpdateLost_eq k current
  rw [hset]
  rfl

/-- **`pvp_ikcp_update`** does not touch the windows, flush or not. -/
theorem pvpIkcpUpdate_windows (k : IKCPCB) (current : IUINT32) :
    (pvpIkcpUpdate k current).1.sndWnd = k.sndWnd ∧ (pvpIkcpUpdate k current).1.rmtWnd = k.rmtWnd := by
  have hhead := updateHead_outlook k current
  have hmid : ∀ k' : IKCPCB, (updateProbe { k' with ackcount := 0 }).outlook.sndWnd = k'.outlook.sndWnd
      ∧ (updateProbe { k' with ackcount := 0 }).outlook.rmtWnd = k'.outlook.rmtWnd := by
    intro k'
    obtain ⟨_, _, _, hset⟩ := updateProbe_eq { k' with ackcount := 0 }
    rw [hset]
    exact ⟨rfl, rfl⟩
  have hup : (updateHead k current).2.updated = true := congrArg Outlook.updated hhead
  have hlost : ∀ k' : IKCPCB, (pvpIkcpUpdateLost k' current).sndWnd = k'.sndWnd
      ∧ (pvpIkcpUpdateLost k' current).rmtWnd = k'.rmtWnd := fun k' =>
    ⟨congrArg Outlook.sndWnd (pvpIkcpUpdateLost_outlook k' current),
      congrArg Outlook.rmtWnd (pvpIkcpUpdateLost_outlook k' current)⟩
  have hsnd : (updateHead k current).2.sndWnd = k.sndWnd := congrArg Outlook.sndWnd hhead
  have hrmt : (updateHead k current).2.rmtWnd = k.rmtWnd := congrArg Outlook.rmtWnd hhead
  rw [pvpIkcpUpdate]
  dsimp only
  rw [(hlost _).1, (hlost _).2]
  split
  · have hflush := pvpIkcpFlush_outlook hup
    obtain ⟨hsnd', hrmt'⟩ := hmid (updateHead k current).2
    constructor
    · exact (congrArg Outlook.sndWnd hflush).trans (hsnd'.trans hsnd)
    · exact (congrArg Outlook.rmtWnd hflush).trans (hrmt'.trans hrmt)
  · exact ⟨hsnd, hrmt⟩

/-- A block that finds the window closed will ask: the flush that finds it so sets the time of the
    question. -/
theorem pvpIkcpUpdate_waits (hflush : (updateHead k current).1 = true) (hclosed : k.rmtWnd = 0)
    (hwait : k.probeWait = 0) : (pvpIkcpUpdate k current).1.probeWait ≠ 0 := by
  have hhead := updateHead_outlook k current
  have hup : (updateHead k current).2.updated = true := congrArg Outlook.updated hhead
  have hrmt : (updateHead k current).2.rmtWnd = 0 := (congrArg Outlook.rmtWnd hhead).trans hclosed
  have hnone : (updateHead k current).2.probeWait = 0 := (congrArg Outlook.probeWait hhead).trans hwait
  have hend : (pvpIkcpUpdate k current).1.outlook
      = (updateProbe { (updateHead k current).2 with ackcount := 0 }).outlook := by
    rw [pvpIkcpUpdate_flush hflush, ← pvpIkcpFlush_outlook hup]
    exact pvpIkcpUpdateLost_outlook _ current
  have hprobe : (pvpIkcpUpdate k current).1.probeWait
      = (updateProbe { (updateHead k current).2 with ackcount := 0 }).probeWait := congrArg Outlook.probeWait hend
  have hinit : (updateProbe { (updateHead k current).2 with ackcount := 0 }).probeWait = ikcpProbeInit := by
    rw [updateProbe]
    dsimp only
    rw [if_pos hrmt, if_pos hnone]
  rw [hprobe, hinit]
  decide

/-- What an update that flushes puts into `snd_buf`. -/
theorem pvpIkcpUpdate_buf (hflush : (updateHead k current).1 = true) :
    (pvpIkcpUpdate k current).1.sndBuf = (pvpIkcpFlush (updateHead k current).2).1.sndBuf := by
  obtain ⟨_, _, _, _, hset⟩ := pvpIkcpUpdateLost_eq (pvpIkcpFlush (updateHead k current).2).1 current
  rw [pvpIkcpUpdate_flush hflush, hset]

/-- What was said of a flush, of an update that flushes. -/
theorem pvpIkcpUpdate_fills (hflush : (updateHead k current).1 = true) (hs : Sending k) (hopen : Open k)
    (hbuf : k.sndBuf = []) (hqueue : k.sndQueue ≠ []) (hsnd : k.sndWnd ≠ 0) (hrmt : k.rmtWnd ≠ 0) :
    (pvpIkcpUpdate k current).1.sndBuf ≠ [] := by
  obtain ⟨_, _, hset⟩ := updateHead_eq k current
  rw [pvpIkcpUpdate_buf hflush, hset]
  exact flush_fills rfl ⟨hs.windowed, hs.rmtWnd, hs.nsndBuf, hs.nsndQue⟩ hopen hbuf hqueue hsnd hrmt

theorem pvpIkcpUpdate_empty (hflush : (updateHead k current).1 = true) (hs : Sending k) (hbuf : k.sndBuf = [])
    (hclosed : k.rmtWnd = 0) : (pvpIkcpUpdate k current).1.sndBuf = [] := by
  obtain ⟨_, _, hset⟩ := updateHead_eq k current
  rw [pvpIkcpUpdate_buf hflush, hset]
  exact flush_empty rfl ⟨hs.windowed, hs.rmtWnd, hs.nsndBuf, hs.nsndQue⟩ hbuf hclosed

/-- What is on its way when an update flushes.  `owed` are the numbers that were to be acknowledged;
    all of them are in the datagrams, and none is owed any more. -/
structure Flushes (ln : Link) (log : List (Nat × List Byte)) (una sndNum rcvNum n : Nat) (owed : List Nat)
    (k : IKCPCB) (current : IUINT32) : Prop where
  tells : Tells ln log una sndNum n (k.note rcvNum owed) k (pvpIkcpUpdate k current)
  cleared : acks (pvpIkcpUpdate k current).1 = []
  carries : ∀ seg ∈ flushSegs (updateHead k current).2, ∃ segs : List IKCPSEG,
    segs.flatMap ikcpSegBytes ∈ (pvpIkcpUpdate k current).2.map Prod.snd ∧ seg ∈ segs
      ∧ ∀ s ∈ segs, Noted ln.conv (sndNum + n) (k.note rcvNum owed) s

/-- **An update that flushes** sends what is due, and all of it says what the block is. -/
theorem pvpIkcpUpdate_flushes {ln : Link} {log : List (Nat × List Byte)} {una sndNum rcvNum : Nat}
    {owed : List Nat} (hflush : (updateHead k current).1 = true) (h : SndOk ln log una sndNum k.sndHalf)
    (hrcv : k.rcvNxt = BitVec.ofNat 32 rcvNum)
    (howed : (acks k).map Prod.fst = owed.map (BitVec.ofNat 32)) :
    ∃ n, Flushes ln log una sndNum rcvNum n owed k current := by
  obtain ⟨hsnd, hhalf, -, hacks, hnote⟩ := updateHead_note k current
  have hup : (updateHead k current).2.updated = true := congrArg Outlook.updated (updateHead_outlook k current)
  have h' : SndOk ln log una sndNum (updateHead k current).2.sndHalf := hsnd ▸ h
  have hrcv' : (updateHead k current).2.rcvNxt = BitVec.ofNat 32 rcvNum :=
    (congrArg RcvHalf.rcvNxt hhalf).trans hrcv
  have howed' : (acks (updateHead k current).2).map Prod.fst = owed.map (BitVec.ofNat 32) := hacks ▸ howed
  have htells := (pvpIkcpFlush_tells_of hup h' hrcv' howed').update
  have hnoted := flushSegs_noted h' hrcv' howed'
  rw [← pvpIkcpUpdate_flush hflush] at htells
  rw [hnote] at hnoted
  refine ⟨_, htells, ?_, fun seg hseg => ?_⟩
  · obtain ⟨_, -, hdesk⟩ := pvpIkcpFlush_desk hup
    have hcount : (pvpIkcpUpdate k current).1.ackcount = 0 := by
      rw [pvpIkcpUpdate_flush hflush]
      exact (congrArg Desk.ackcount (pvpIkcpUpdateLost_desk _ current)).trans (congrArg Desk.ackcount hdesk)
    rw [acks, hcount]
    rfl
  · -- the datagram of a due segment, all of whose segments say the same note
    obtain ⟨segs, hsent, hmem, hsub⟩ := flush_carries hup hseg
    refine ⟨segs, ?_, hmem, fun s hs => hnoted s (hsub hs)⟩
    rw [pvpIkcpUpdate_flush hflush]
    exact hsent

end Update

/-! ## Calls without a new message -/

section Quiet

variable {k : IKCPCB}

/-- A datagram does not change how much may be in flight. -/
theorem sndWnd_digest (wnd : IUINT32) : Digest fun k => k.sndWnd = wnd where
  same h he := (congrArg (fun g => g.snd.sndWnd) he).trans h
  settle h hs := (congrArg SndHalf.sndWnd hs.snd).trans h
  data := by
    intro k seg h _ _
    exact (congrArg (fun g => g.snd.sndWnd) (ikcpParseData_sending k seg)).trans h

/-- Nor what is in `snd_queue`. -/
theorem nsndQue_digest (n : Nat) : Digest fun k => k.nsndQue = n where
  same h he := (congrArg Ground.nsndQue he).trans h
  settle h hs := (congrArg Ground.nsndQue hs.rest).trans h
  data := by
    intro k seg h _ _
    exact (congrArg Ground.nsndQue (ikcpParseData_sending k seg)).trans h

/-- It takes segments out of `snd_buf`, and counts them. -/
theorem nsndBuf_digest (n : Nat) : Digest fun k => k.nsndBuf = k.sndBuf.length ∧ k.nsndBuf ≤ n where
  same := by
    rintro k k' ⟨hlen, hle⟩ he
    have hbuf : k'.nsndBuf = k.nsndBuf := congrArg Ground.nsndBuf he
    have hbufs := congrArg (fun g => g.snd.sndBuf.length) he
    simp only [IKCPCB.ground, IKCPCB.sndHalf, List.length_map] at hbufs
    exact ⟨by omega, by omega⟩
  settle := by
    rintro k k' ⟨hlen, hle⟩ hs
    have hcount := hs.count hlen
    have hsub := hs.sub.length_le
    rw [List.length_map, List.length_map] at hsub
    exact ⟨hcount, by omega⟩
  data := by
    rintro k seg ⟨hlen, hle⟩ - -
    obtain ⟨_, _, _, _, _, hset⟩ := ikcpParseData_eq k seg
    rw [hset]
    exact ⟨hlen, hle⟩

/-- **A datagram** makes what waits no more. -/
theorem pvpIkcpInput_waits (hs : Sending k) (data : List Byte) (current : IUINT32) :
    pvpIkcpWaitsnd (pvpIkcpInput k data current).2 ≤ pvpIkcpWaitsnd k := by
  have hque := (nsndQue_digest k.nsndQue).input rfl data current
  have hbuf := (nsndBuf_digest k.nsndBuf).input ⟨hs.nsndBuf, Nat.le_refl _⟩ data current
  rw [pvpIkcpWaitsnd, pvpIkcpWaitsnd]
  omega

/-- A message takes at least one segment of `rcv_queue`. -/
theorem mergeFragments_pos {queue : List IKCPSEG} (h : queue ≠ []) : 0 < (mergeFragments queue).2.2 := by
  cases queue with
  | nil => exact absurd rfl h
  | cons seg rest =>
    rw [mergeFragments]
    split
    · exact Nat.one_pos
    · exact Nat.succ_pos _

/-- **A message that is handed out** leaves less to hand out: its fragments are gone, and what moves
    up from `rcv_buf` was there before. -/
theorem pvpIkcpRecv_shrinks (hpeek : pvpIkcpPeeksize k ≥ 0) :
    (pvpIkcpRecv k (pvpIkcpPeeksize k)).2.rcvQueue.length + (pvpIkcpRecv k (pvpIkcpPeeksize k)).2.rcvBuf.length
      < k.rcvQueue.length + k.rcvBuf.length := by
  have hne : k.rcvQueue ≠ [] := by
    intro hnone
    have hneg : pvpIkcpPeeksize k = -1 := by rw [pvpIkcpPeeksize, hnone]
    omega
  obtain ⟨hrest, hle⟩ := mergeFragments_drop k.rcvQueue
  have hpos := mergeFragments_pos hne
  let k₁ : IKCPCB := { k with
    rcvQueue := (mergeFragments k.rcvQueue).2.1
    nrcvQue := k.nrcvQue - (mergeFragments k.rcvQueue).2.2 }
  have hmove := congrArg List.length (moveRcvBuf_append k₁.rcvBuf k₁)
  have hless : k₁.rcvQueue.length < k.rcvQueue.length := by
    show (mergeFragments k.rcvQueue).2.1.length < _
    rw [hrest, List.length_drop]
    omega
  have hsame : k₁.rcvBuf.length = k.rcvBuf.length := rfl
  rw [List.length_append, List.length_append] at hmove
  have hend : (moveRcvBuf k₁.rcvBuf k₁).rcvQueue.length + (moveRcvBuf k₁.rcvBuf k₁).rcvBuf.length
      < k.rcvQueue.length + k.rcvBuf.length := by omega
  rw [pvpIkcpRecv, if_neg hne]
  dsimp only
  rw [if_neg (Int.not_lt.mpr hpeek), if_neg (by omega), if_neg (Int.not_lt.mpr hpeek)]
  split
  · exact hend
  · exact hend

end Quiet

end ConnClient.Ikcp
