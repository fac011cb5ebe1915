/-
  What a control block does with arriving bytes does not depend on the time.

  `pvp_ikcp_input` is given the current time, and times the acknowledged segments with it.  None of
  that reaches its return value, the messages `pvp_ikcp_recv` gives out, or the fields these come
  from — the `Intake`.  Two blocks that agree in it agree after the same input, whatever the clocks
  say.  Every lemma is about a pair of blocks, and says that the branches fall alike and agreement is kept.

  A block just created has nothing to send, so its first update outputs nothing (`Quiet`).
-/
import ConnClient.Ikcp.Delivery

namespace ConnClient.Ikcp

open ConnClient.Lib

/-- The fields arriving bytes depend on.  `snd_nxt` is among them although it is about sending:
    `una` and the acknowledged numbers are rebuilt from it. -/
structure Intake where
  conv : IUINT32
  sndNxt : IUINT32
  rcv : RcvHalf

def IKCPCB.intake (kcp : IKCPCB) : Intake := ⟨kcp.conv, kcp.sndNxt, kcp.rcvHalf⟩

variable {k k' : IKCPCB}

theorem Settles.intake (h : Settles k k') : k'.intake = k.intake := by
  unfold IKCPCB.intake
  rw [h.conv, h.nxt, h.rcv]

/-- Agreement, field by field. -/
theorem intake_eq_iff : k.intake = k'.intake ↔ k.conv = k'.conv ∧ k.sndNxt = k'.sndNxt
    ∧ k.rcvNxt = k'.rcvNxt ∧ k.rcvWnd = k'.rcvWnd ∧ k.nrcvQue = k'.nrcvQue
    ∧ k.rcvQueue = k'.rcvQueue ∧ k.rcvBuf = k'.rcvBuf := by
  simp only [IKCPCB.intake, IKCPCB.rcvHalf, Intake.mk.injEq, RcvHalf.mk.injEq]

/-! ## Receiving -/

/-- The transfer out of `rcv_buf`.  Recursion on its segments. -/
theorem moveRcvBuf_intake :
    ∀ (buf : List IKCPSEG) {k k' : IKCPCB}, k.intake = k'.intake →
      (moveRcvBuf buf k).intake = (moveRcvBuf buf k').intake
  | [], k, k', h => by
    obtain ⟨hconv, hsnd, hnxt, hwnd, hque, hqueue, -⟩ := intake_eq_iff.mp h
    exact intake_eq_iff.mpr ⟨hconv, hsnd, hnxt, hwnd, hque, hqueue, rfl⟩
  | seg :: rest, k, k', h => by
    obtain ⟨hconv, hsnd, hnxt, hwnd, hque, hqueue, -⟩ := intake_eq_iff.mp h
    -- the same segment is next in both, and there is the same room
    have hcond : (seg.sn = k.rcvNxt ∧ k.nrcvQue < k.rcvWnd.toNat)
        ↔ (seg.sn = k'.rcvNxt ∧ k'.nrcvQue < k'.rcvWnd.toNat) := by
      rw [hnxt, hwnd, hque]
    unfold moveRcvBuf
    by_cases hc : seg.sn = k.rcvNxt ∧ k.nrcvQue < k.rcvWnd.toNat
    · rw [if_pos hc, if_pos (hcond.mp hc)]
      refine moveRcvBuf_intake rest (intake_eq_iff.mpr ⟨hconv, hsnd, ?_, hwnd, ?_, ?_, rfl⟩)
      · show k.rcvNxt + 1 = k'.rcvNxt + 1
        rw [hnxt]
      · show k.nrcvQue + 1 = k'.nrcvQue + 1
        rw [hque]
      · show k.rcvQueue ++ [seg] = k'.rcvQueue ++ [seg]
        rw [hqueue]
    · rw [if_neg hc, if_neg (mt hcond.mpr hc)]
      exact intake_eq_iff.mpr ⟨hconv, hsnd, hnxt, hwnd, hque, hqueue, rfl⟩

/-- **`pvp_ikcp_recv`** gives out the same. -/
theorem pvpIkcpRecv_intake (h : k.intake = k'.intake) (len : Int) :
    (pvpIkcpRecv k len).1 = (pvpIkcpRecv k' len).1
      ∧ (pvpIkcpRecv k len).2.intake = (pvpIkcpRecv k' len).2.intake := by
  obtain ⟨hconv, hsnd, hnxt, hwnd, hque, hqueue, hbuf⟩ := intake_eq_iff.mp h
  have hpeek : pvpIkcpPeeksize k = pvpIkcpPeeksize k' := by
    unfold pvpIkcpPeeksize
    rw [hqueue, hque]
  -- telling the other side of the new room is no matter of what comes in
  have hprobe : ∀ (k k' : IKCPCB) (recover : Prop) [Decidable recover], k.intake = k'.intake →
      (if k.nrcvQue < k.rcvWnd.toNat ∧ recover then
          { k with probe := k.probe ||| ikcpAskTell } else k).intake
        = (if k'.nrcvQue < k'.rcvWnd.toNat ∧ recover then
          { k' with probe := k'.probe ||| ikcpAskTell } else k').intake := by
    intro k k' recover _ h
    split <;> split <;> exact h
  unfold pvpIkcpRecv
  dsimp only
  rw [hpeek, hqueue]
  -- the three ways to refuse, then the merge; each test reads the intake only
  by_cases hempty : k'.rcvQueue = []
  · rw [if_pos hempty, if_pos hempty]
    exact ⟨rfl, h⟩
  rw [if_neg hempty, if_neg hempty]
  by_cases hnone : pvpIkcpPeeksize k' < 0
  · rw [if_pos hnone, if_pos hnone]
    exact ⟨rfl, h⟩
  rw [if_neg hnone, if_neg hnone]
  by_cases hlong : pvpIkcpPeeksize k' > len.natAbs
  · rw [if_pos hlong, if_pos hlong]
    exact ⟨rfl, h⟩
  rw [if_neg hlong, if_neg hlong]
  generalize mergeFragments k'.rcvQueue = r
  obtain ⟨bytes, rest, n⟩ := r
  dsimp only
  refine ⟨rfl, ?_⟩
  rw [hque, hwnd]
  refine hprobe _ _ _ ?_
  by_cases hlen : len < 0
  · rw [if_pos hlen, if_pos hlen, hbuf]
    exact moveRcvBuf_intake _ h
  · rw [if_neg hlen, if_neg hlen]
    dsimp only
    rw [hbuf]
    exact moveRcvBuf_intake _ (intake_eq_iff.mpr ⟨hconv, hsnd, hnxt, rfl, rfl, rfl, rfl⟩)

/-! ## Input -/

/-- To acknowledge is to note something for the next flush. -/
theorem ikcpAckPush_intake (k : IKCPCB) (sn ts : IUINT32) : (ikcpAckPush k sn ts).intake = k.intake := by
  obtain ⟨_, _, _, hset⟩ := ikcpAckPush_eq k sn ts
  rw [hset]
  rfl

/-- Where a segment goes is a question of `rcv_nxt`, the window and the numbers in `rcv_buf`. -/
theorem ikcpParseData_intake (h : k.intake = k'.intake) (seg : IKCPSEG) :
    (ikcpParseData k seg).intake = (ikcpParseData k' seg).intake := by
  obtain ⟨hconv, hsnd, hnxt, hwnd, hque, hqueue, hbuf⟩ := intake_eq_iff.mp h
  unfold ikcpParseData
  rw [hnxt, hwnd, hbuf]
  split
  · exact h
  · cases insertRev seg k'.rcvBuf.reverse with
    -- dropped: the loop behind it runs all the same
    | none =>
      dsimp only
      rw [hbuf]
      exact moveRcvBuf_intake _ h
    | some rev =>
      dsimp only
      exact moveRcvBuf_intake _ (intake_eq_iff.mpr ⟨hconv, hsnd, rfl, rfl, hque, hqueue, rfl⟩)

/-- The branch for data: the number is rebuilt from `rcv_nxt`, so it is the same on both sides. -/
theorem inputData_intake (h : k.intake = k'.intake) (head : SegHead) (una : IUINT32)
    (payload : List Byte) :
    (inputData k head una payload).intake = (inputData k' head una payload).intake := by
  obtain ⟨-, -, hnxt, hwnd, -⟩ := intake_eq_iff.mp h
  -- an acknowledgement is pushed or not, which is no business of the intake
  have hpush : ∀ (k : IKCPCB) (sn : IUINT32), (if head.cmd = ikcpCmdPush ∨ k.dupack ≠ 0 then
      ikcpAckPush k sn head.ts else k).intake = k.intake := by
    intro k sn
    split
    · exact ikcpAckPush_intake ..
    · rfl
  unfold inputData
  rw [hnxt, hwnd]
  dsimp only
  split
  · generalize hk : (if head.cmd = ikcpCmdPush ∨ k.dupack ≠ 0 then
      ikcpAckPush k (getId k'.rcvNxt head.tmpSn) head.ts else k) = j
    generalize hk' : (if head.cmd = ikcpCmdPush ∨ k'.dupack ≠ 0 then
      ikcpAckPush k' (getId k'.rcvNxt head.tmpSn) head.ts else k') = j'
    have hj : j.intake = j'.intake := by
      rw [← hk, ← hk', hpush, hpush, h]
    rw [(intake_eq_iff.mp hj).2.2.1]
    split
    · exact ikcpParseData_intake hj _
    · exact hj
  · exact h

/-- **A segment** is taken in alike.  Only data reaches the intake; `una`, acknowledgements and
    probes are about what was sent. -/
theorem inputSeg_intake {st st' : InputSt} (h : st.kcp.intake = st'.kcp.intake) (head : SegHead)
    (payload : List Byte) :
    (inputSeg st head payload).kcp.intake = (inputSeg st' head payload).kcp.intake := by
  by_cases hcmd : head.cmd = ikcpCmdPush ∨ head.cmd = ikcpCmdDups
  · have hnxt : st.kcp.sndNxt = st'.kcp.sndNxt := congrArg Intake.sndNxt h
    have hack : head.cmd ≠ ikcpCmdAck := by
      rcases hcmd with he | he <;> rw [he] <;> decide
    unfold inputSeg
    dsimp only
    rw [if_neg hack, if_neg hack, if_pos hcmd, if_pos hcmd]
    have huna : getId st.kcp.sndNxt head.tmpUna = getId st'.kcp.sndNxt head.tmpUna := by rw [hnxt]
    generalize getId st.kcp.sndNxt head.tmpUna = una at huna ⊢
    subst huna
    have hset := fun k => (una_settles k (head.wnd.setWidth 32)
      (getId st'.kcp.sndNxt head.tmpUna)).intake
    exact inputData_intake ((hset st.kcp).trans (h.trans (hset st'.kcp).symm)) _ _ _
  · rw [(inputSeg_settles st head payload hcmd).intake,
      (inputSeg_settles st' head payload hcmd).intake, h]

/-- Any number of segments.  Induction on the rounds. -/
theorem inputLoop_intake :
    ∀ (n : Nat) (data : List Byte) {st st' : InputSt}, st.kcp.intake = st'.kcp.intake →
      (inputLoop n data st).1 = (inputLoop n data st').1
        ∧ (inputLoop n data st).2.kcp.intake = (inputLoop n data st').2.kcp.intake
  | 0, _, _, _, h => ⟨rfl, h⟩
  | n + 1, data, st, st', h => by
    have hconv : st.kcp.conv = st'.kcp.conv := congrArg Intake.conv h
    unfold inputLoop
    rw [hconv]
    cases parseSeg st'.kcp.conv data with
    | stop => exact ⟨rfl, h⟩
    | fail ret => exact ⟨rfl, h⟩
    | seg head payload rest => exact inputLoop_intake n rest (inputSeg_intake h head payload)

/-- **`pvp_ikcp_input`** returns the same and takes in the same, whatever the time. -/
theorem pvpIkcpInput_intake (h : k.intake = k'.intake) (data : List Byte)
    (current current' : IUINT32) :
    (pvpIkcpInput k data current).1 = (pvpIkcpInput k' data current').1
      ∧ (pvpIkcpInput k data current).2.intake = (pvpIkcpInput k' data current').2.intake := by
  have henter : (inputEnter k current).intake = (inputEnter k' current').intake := by
    rw [(inputEnter_forgets k current).settles.intake,
      (inputEnter_forgets k' current').settles.intake, h]
  unfold pvpIkcpInput
  generalize inputEnter k current = j at henter ⊢
  generalize inputEnter k' current' = j' at henter ⊢
  dsimp only
  split
  · exact ⟨rfl, henter⟩
  · obtain ⟨hret, hst⟩ := @inputLoop_intake data.length data { kcp := j, flag := false, maxack := 0 }
      { kcp := j', flag := false, maxack := 0 } henter
    generalize inputLoop data.length data { kcp := j, flag := false, maxack := 0 } = r at hret hst ⊢
    generalize inputLoop data.length data { kcp := j', flag := false, maxack := 0 } = r'
      at hret hst ⊢
    obtain ⟨o, st⟩ := r
    obtain ⟨o', st'⟩ := r'
    cases hret
    cases o with
    | some ret => exact ⟨rfl, hst⟩
    | none =>
      -- what follows the loop is about fast resends and `cwnd`
      have htail : ∀ (st : InputSt) (una : IUINT32),
          (inputCwnd (if st.flag then ikcpParseFastack st.kcp st.maxack else st.kcp) una).intake
            = st.kcp.intake := by
        intro st una
        rw [(inputCwnd_forgets _ una).settles.intake]
        split
        · exact (ikcpParseFastack_forgets _ _).settles.intake
        · rfl
      refine ⟨rfl, ?_⟩
      dsimp only
      rw [htail, htail]
      exact hst

/-! ## A block with nothing to send -/

/-- Nothing to acknowledge, to ask, to tell or to send. -/
structure Quiet (kcp : IKCPCB) : Prop where
  acks : kcp.ackcount = 0
  probe : kcp.probe = 0
  wait : kcp.probeWait = 0
  queue : kcp.sndQueue = []
  buf : kcp.sndBuf = []

/-- The first question to a closed window is only scheduled. -/
theorem Quiet.updateProbe (h : Quiet k) :
    (updateProbe k).probe = 0 ∧ (updateProbe k).sndQueue = [] ∧ (updateProbe k).sndBuf = []
      ∧ (updateProbe k).intake = k.intake := by
  unfold Ikcp.updateProbe
  by_cases hwnd : k.rmtWnd = 0
  · rw [if_pos hwnd, if_pos h.wait]
    exact ⟨h.probe, h.queue, h.buf, intake_eq_iff.mpr ⟨rfl, rfl, rfl, rfl, rfl, rfl, rfl⟩⟩
  · rw [if_neg hwnd]
    exact ⟨h.probe, h.queue, h.buf, rfl⟩

theorem flushProbe_none (ask : IUINT32) (cmd : IUINT8) {s : IKCPSEG × Out}
    (h : s.2.kcp.probe = 0) : flushProbe ask cmd s = s := by
  obtain ⟨seg, out⟩ := s
  have hno : ¬ out.kcp.probe &&& ask ≠ 0 := by
    rw [show out.kcp.probe = 0 from h]
    simp
  unfold flushProbe
  exact if_neg hno

/-- Whatever leaves the ground of a block alone leaves its intake alone. -/
theorem intake_of_ground (h : k.ground = k'.ground) : k.intake = k'.intake := by
  unfold IKCPCB.intake
  rw [show k.rcvHalf = k'.rcvHalf from congrArg Ground.rcv h,
    show k.conv = k'.conv from congrArg (fun g => g.snd.conv) h,
    show k.sndNxt = k'.sndNxt from congrArg (fun g => g.snd.sndNxt) h]

/-- **A flush of a quiet block outputs nothing.** -/
theorem pvpIkcpFlush_quiet (h : Quiet k) :
    (pvpIkcpFlush k).2 = [] ∧ (pvpIkcpFlush k).1.intake = k.intake := by
  unfold pvpIkcpFlush
  split
  · exact ⟨rfl, rfl⟩
  let k₁ := Ikcp.updateProbe { k with ackcount := 0 }
  obtain ⟨hprobe, hqueue, hbuf, hin⟩ := Quiet.updateProbe (k := { k with ackcount := 0 })
    ⟨rfl, h.probe, h.wait, h.queue, h.buf⟩
  -- the head: no pair, no question, nothing to transfer
  have hhead : flushHead k = (sendCwnd { k₁ with probe := 0 }, { kcp := { k₁ with probe := 0 } }) := by
    unfold flushHead
    rw [h.acks]
    dsimp only [flushAcks, Out.upd]
    rw [flushProbe_none ikcpAskSend _ (by exact hprobe),
      flushProbe_none ikcpAskTell _ (by exact hprobe)]
    dsimp only
    rw [hqueue]
    rfl
  rw [hhead]
  have hdata : k₁.sndBuf.length = 0 := congrArg List.length hbuf
  dsimp only
  rw [hdata]
  exact ⟨rfl, (intake_of_ground (flushTail_ground ..)).trans hin⟩

/-- Updating the clock is no sending. -/
theorem Quiet.updateHead (h : Quiet k) (current : IUINT32) : Quiet (updateHead k current).2 := by
  obtain ⟨_, _, hset⟩ := updateHead_eq k current
  rw [hset]
  exact ⟨h.acks, h.probe, h.wait, h.queue, h.buf⟩

/-- **So does its update.** -/
theorem pvpIkcpUpdate_quiet (h : Quiet k) (current : IUINT32) :
    (pvpIkcpUpdate k current).2 = [] ∧ (pvpIkcpUpdate k current).1.intake = k.intake := by
  have hquiet := h.updateHead current
  have hin := intake_of_ground (updateHead_ground k current)
  unfold pvpIkcpUpdate
  generalize Ikcp.updateHead k current = r at hquiet hin ⊢
  obtain ⟨flush, j⟩ := r
  have hmid : (if flush then pvpIkcpFlush j else (j, [])).2 = []
      ∧ (if flush then pvpIkcpFlush j else (j, [])).1.intake = k.intake := by
    obtain ⟨hout, hflush⟩ := pvpIkcpFlush_quiet hquiet
    split
    · exact ⟨hout, hflush.trans hin⟩
    · exact ⟨rfl, hin⟩
  exact ⟨hmid.1, (intake_of_ground (pvpIkcpUpdateLost_ground _ current)).trans hmid.2⟩

end ConnClient.Ikcp
