/-
  The settings a control block lives under.

  The routines that send change what is to be sent and what was sent, and leave the settings alone —
  at their end and at every output on the way (`Keeps`).  Input times the acknowledged segments, so it
  changes `rx_rto`, but keeps it in its range.  So the settings of a block stay `Sane` for as long as
  it lives.

  The acknowledgements that are due are counted down the same way: a sender sends them first, and
  pushes none.

  Every output is looked at, and not only the end of a call, because the output callback runs in the middle
  of it: what it finds is the block of that moment, and it may close the connection with it.
-/
import ConnClient.Ikcp.Wire

namespace ConnClient.Ikcp

open ConnClient.Lib

/-- What no sender changes.  `current` is among it because a call takes the time before it sends. -/
structure Tuning where
  mtu : Nat
  rxRto : Int
  interval : IUINT32
  fastresend : Int
  updated : Bool
  current : IUINT32
  dupsendcount : IUINT32

def IKCPCB.tuning (kcp : IKCPCB) : Tuning :=
  ⟨kcp.mtu, kcp.rxRto, kcp.interval, kcp.fastresend, kcp.updated, kcp.current, kcp.dupsendcount⟩

/-- The ranges the configuration and the timing keep to: those of `setmtu` and `nodelay`, and a
    timeout between the least interval and `IKCP_RTO_MAX`. -/
structure Tuning.Sane (t : Tuning) : Prop where
  updated : t.updated = true
  mtu_ge : 50 ≤ t.mtu
  mtu_le : t.mtu ≤ 1400
  interval : 10 ≤ t.interval.toNat
  rto_ge : 10 ≤ t.rxRto
  rto_le : t.rxRto ≤ 60000
  resend : t.fastresend < 2 ^ 31

/-- `k'` is `k` after some sending: the settings are the same, and there are no more
    acknowledgements. -/
structure Keeps (k k' : IKCPCB) : Prop where
  tuning : k'.tuning = k.tuning
  acks : k'.ackcount ≤ k.ackcount

/-- All due acknowledgements fit one datagram. -/
def AcksFit (k : IKCPCB) : Prop := ikcpOverhead * k.ackcount ≤ k.mtu

instance (k : IKCPCB) : Decidable (AcksFit k) := inferInstanceAs (Decidable (_ ≤ _))

theorem Keeps.refl (k : IKCPCB) : Keeps k k := ⟨rfl, Nat.le_refl _⟩

theorem Keeps.trans {k k' k'' : IKCPCB} (h : Keeps k k') (h' : Keeps k' k'') : Keeps k k'' :=
  ⟨h'.tuning.trans h.tuning, Nat.le_trans h'.acks h.acks⟩

theorem Keeps.sane {k k' : IKCPCB} (h : Keeps k k') (hs : k.tuning.Sane) : k'.tuning.Sane :=
  h.tuning ▸ hs

theorem Keeps.acksFit {k k' : IKCPCB} (h : Keeps k k') (hf : AcksFit k) : AcksFit k' := by
  have hmtu : k'.mtu = k.mtu := congrArg Tuning.mtu h.tuning
  unfold AcksFit at hf ⊢
  rw [hmtu]
  exact Nat.le_trans (Nat.mul_le_mul_left _ h.acks) hf

/-- What is known of `k` is known of `k'`.  This is what a call leaves that takes the time first, so
    that the settings are not quite the same. -/
structure Heir (k k' : IKCPCB) : Prop where
  sane : k.tuning.Sane → k'.tuning.Sane
  acks : AcksFit k → AcksFit k'

theorem Keeps.heir {k k' : IKCPCB} (h : Keeps k k') : Heir k k' := ⟨h.sane, h.acksFit⟩

theorem Heir.trans {k k' k'' : IKCPCB} (h : Heir k k') (h' : Heir k' k'') : Heir k k'' :=
  ⟨fun hs => h'.sane (h.sane hs), fun hf => h'.acks (h.acks hf)⟩

/-- A change of the time, and of what is no setting. -/
theorem Heir.retime {k k' : IKCPCB} (ht : k'.tuning = { k.tuning with current := k'.current })
    (ha : k'.ackcount = k.ackcount) : Heir k k' where
  sane h := ht ▸ ⟨h.updated, h.mtu_ge, h.mtu_le, h.interval, h.rto_ge, h.rto_le, h.resend⟩
  acks h := by
    have hmtu : k'.mtu = k.mtu := congrArg Tuning.mtu ht
    unfold AcksFit at h ⊢
    rw [hmtu, ha]
    exact h

/-! ## Timing -/

/-- The new timeout is at least the interval: it is the smoothed time, which is positive, and the
    larger of the interval and four deviations, cut at `IKCP_RTO_MAX`. -/
theorem ikcpUpdateRtt_sane {k : IKCPCB} {rtt : Int} (hrtt : 0 < rtt) (h : k.tuning.Sane) :
    (ikcpUpdateRtt k rtt).tuning.Sane := by
  have hint : 10 ≤ k.interval.toNat := h.interval
  unfold ikcpUpdateRtt
  generalize hr : (if k.rxSrtt = 0 then (rtt, rtt.tdiv 2)
    else
      let delta := if rtt - k.rxSrtt < 0 then -(rtt - k.rxSrtt) else rtt - k.rxSrtt
      let srtt := (7 * k.rxSrtt + rtt).tdiv 8
      (if srtt < 1 then 1 else srtt, (3 * k.rxRttval + delta).tdiv 4)) = r
  -- the smoothed time: the first sample itself, or cut at one from below
  have hpos : 0 < r.1 := by
    rw [← hr]
    split
    · exact hrtt
    · dsimp only
      split <;> omega
  obtain ⟨srtt, rttval⟩ := r
  dsimp only at hpos ⊢
  refine ⟨h.updated, h.mtu_ge, h.mtu_le, h.interval, ?_, ?_, h.resend⟩
  · show (10 : Int) ≤ min (max _ (srtt + max (k.interval.toNat : Int) (4 * rttval))) ikcpRtoMax
    unfold ikcpRtoMax
    omega
  · show min _ ikcpRtoMax ≤ (60000 : Int)
    unfold ikcpRtoMax
    omega

theorem ackRtt_sane {k : IKCPCB} (seg : IKCPSEG) (h : k.tuning.Sane) :
    (ackRtt k seg).tuning.Sane := by
  unfold ackRtt
  dsimp only
  split
  · exact ikcpUpdateRtt_sane (by assumption) h
  · exact h

/-! ## Input -/

/-- Recursion on the segments of `snd_buf`. -/
theorem parseUnaLoop_sane (una : IUINT32) :
    ∀ (buf : List IKCPSEG) {k : IKCPCB}, k.tuning.Sane → (parseUnaLoop una buf k).tuning.Sane
  | [], _, h => h
  | seg :: rest, k, h => by
    unfold parseUnaLoop
    split
    · exact parseUnaLoop_sane una rest (ackRtt_sane seg h)
    · exact h

theorem ikcpShrinkBuf_tuning (k : IKCPCB) : (ikcpShrinkBuf k).tuning = k.tuning := by
  obtain ⟨_, hset⟩ := ikcpShrinkBuf_eq k
  rw [hset]
  rfl

theorem ikcpParseAck_sane {k : IKCPCB} (sn : IUINT32) (h : k.tuning.Sane) :
    (ikcpParseAck k sn).tuning.Sane := by
  unfold ikcpParseAck
  split
  · exact h
  · split
    · exact h
    · exact ackRtt_sane _ h

theorem ikcpParseFastack_tuning (k : IKCPCB) (sn : IUINT32) :
    (ikcpParseFastack k sn).tuning = k.tuning := by
  obtain ⟨_, hset⟩ := ikcpParseFastack_eq k sn
  rw [hset]
  rfl

theorem inputData_tuning (k : IKCPCB) (head : SegHead) (una : IUINT32) (payload : List Byte) :
    (inputData k head una payload).tuning = k.tuning := by
  obtain ⟨_, _, _, _, _, _, _, _, hset⟩ := inputData_eq k head una payload
  rw [hset]
  rfl

/-- **A segment** is taken in under sane settings. -/
theorem inputSeg_sane {st : InputSt} (head : SegHead) (payload : List Byte)
    (h : st.kcp.tuning.Sane) : (inputSeg st head payload).kcp.tuning.Sane := by
  -- `una` is looked at first, in every branch
  have huna : ∀ una, (ikcpShrinkBuf (ikcpParseUna { st.kcp with rmtWnd := head.wnd.setWidth 32 }
      una)).tuning.Sane := by
    intro una
    rw [ikcpShrinkBuf_tuning]
    exact parseUnaLoop_sane una _ (k := { st.kcp with rmtWnd := head.wnd.setWidth 32 }) h
  unfold inputSeg
  dsimp only
  split
  · have hack : ∀ sn k, k.tuning.Sane → (ikcpShrinkBuf (ikcpParseAck k sn)).tuning.Sane := by
      intro sn k hk
      rw [ikcpShrinkBuf_tuning]
      exact ikcpParseAck_sane sn hk
    split <;> exact hack _ _ (huna _)
  · split
    · dsimp only
      rw [inputData_tuning]
      exact huna _
    · split <;> exact huna _

/-- Induction on the rounds. -/
theorem inputLoop_sane :
    ∀ (n : Nat) (data : List Byte) {st : InputSt}, st.kcp.tuning.Sane →
      (inputLoop n data st).2.kcp.tuning.Sane
  | 0, _, _, h => h
  | n + 1, data, st, h => by
    unfold inputLoop
    cases parseSeg st.kcp.conv data with
    | stop => exact h
    | fail ret => exact h
    | seg head payload rest => exact inputLoop_sane n rest (inputSeg_sane head payload h)

theorem inputCwnd_tuning (k : IKCPCB) (una : IUINT32) : (inputCwnd k una).tuning = k.tuning := by
  obtain ⟨_, _, hset⟩ := inputCwnd_eq k una
  rw [hset]
  rfl

/-- **`pvp_ikcp_input`** keeps the settings sane. -/
theorem pvpIkcpInput_sane {k : IKCPCB} (data : List Byte) (current : IUINT32)
    (h : k.tuning.Sane) : (pvpIkcpInput k data current).2.tuning.Sane := by
  have henter : (inputEnter k current).tuning.Sane := by
    obtain ⟨_, _, _, hset⟩ := inputEnter_eq k current
    rw [hset]
    exact ⟨h.updated, h.mtu_ge, h.mtu_le, h.interval, h.rto_ge, h.rto_le, h.resend⟩
  unfold pvpIkcpInput
  dsimp only
  split
  · exact henter
  · have hloop := @inputLoop_sane data.length data
      { kcp := inputEnter k current, flag := false, maxack := 0 } henter
    generalize inputLoop data.length data _ = r at hloop ⊢
    obtain ⟨o, st⟩ := r
    cases o with
    | some ret => exact hloop
    | none =>
      dsimp only
      rw [inputCwnd_tuning]
      split
      · rw [ikcpParseFastack_tuning]
        exact hloop
      · exact hloop

/-- **`pvp_ikcp_recv`** leaves the settings alone. -/
theorem pvpIkcpRecv_tuning (k : IKCPCB) (len : Int) :
    (pvpIkcpRecv k len).2.tuning = k.tuning := by
  obtain ⟨_, _, _, _, _, _, hset⟩ := pvpIkcpRecv_eq k len
  rw [hset]
  rfl

/-- `k'` is `k` with another timeout, and no other setting changed. -/
def Retimed (k k' : IKCPCB) : Prop := k'.tuning = { k.tuning with rxRto := k'.rxRto }

theorem Retimed.of_tuning {k k' : IKCPCB} (h : k'.tuning = k.tuning) : Retimed k k' := by
  have hrto : k'.rxRto = k.rxRto := congrArg Tuning.rxRto h
  rw [Retimed, h, hrto]
  rfl

theorem Retimed.trans {k k' k'' : IKCPCB} (h : Retimed k k') (h' : Retimed k' k'') :
    Retimed k k'' := by
  rw [Retimed] at h h' ⊢
  rw [h', h]

theorem ikcpParseUna_retimed (k : IKCPCB) (una : IUINT32) : Retimed k (ikcpParseUna k una) := by
  obtain ⟨_, _, _, _, _, _, hset⟩ := parseUnaLoop_eq una k.sndBuf k
  rw [ikcpParseUna, hset]
  rfl

theorem ikcpShrinkBuf_retimed {k k' : IKCPCB} (h : Retimed k k') : Retimed k (ikcpShrinkBuf k') :=
  h.trans (.of_tuning (ikcpShrinkBuf_tuning k'))

theorem ikcpParseAck_retimed (k : IKCPCB) (sn : IUINT32) :
    Retimed k (ikcpShrinkBuf (ikcpParseAck k sn)) := by
  refine ikcpShrinkBuf_retimed ?_
  obtain ⟨_, _, _, _, _, _, hset⟩ := ikcpParseAck_eq k sn
  rw [hset]
  rfl

theorem inputSeg_retimed (st : InputSt) (head : SegHead) (payload : List Byte) :
    Retimed st.kcp (inputSeg st head payload).kcp := by
  have huna : ∀ una, Retimed st.kcp
      (ikcpShrinkBuf (ikcpParseUna { st.kcp with rmtWnd := head.wnd.setWidth 32 } una)) := by
    intro una
    exact ikcpShrinkBuf_retimed (ikcpParseUna_retimed { st.kcp with rmtWnd := head.wnd.setWidth 32 } una)
  unfold inputSeg
  dsimp only
  split
  · split <;> exact (huna _).trans (ikcpParseAck_retimed _ _)
  split
  · exact (huna _).trans (.of_tuning (inputData_tuning ..))
  split
  · exact huna _
  · exact huna _

/-- Induction on the rounds. -/
theorem inputLoop_retimed :
    ∀ (n : Nat) (data : List Byte) (st : InputSt), Retimed st.kcp (inputLoop n data st).2.kcp
  | 0, _, _ => rfl
  | n + 1, data, st => by
    rw [inputLoop]
    split
    · rfl
    · rfl
    · exact (inputSeg_retimed st _ _).trans (inputLoop_retimed n _ _)

/-- The clock a call shows that is told the time; `0` tells it nothing. -/
def clockAfter (now current : IUINT32) : IUINT32 := if current.toNat > 0 then current else now

/-- **Input** sets the clock, and nothing else but timing. -/
theorem pvpIkcpInput_tuning (k : IKCPCB) (data : List Byte) (current : IUINT32) :
    (pvpIkcpInput k data current).2.tuning = { k.tuning with
      current := clockAfter k.current current
      rxRto := (pvpIkcpInput k data current).2.rxRto } := by
  -- the time is taken where the call is entered
  have henter : (inputEnter k current).tuning = { k.tuning with
      current := clockAfter k.current current } := by
    simp only [inputEnter, clockAfter]
    split <;> split <;> rfl
  have hinput : Retimed (inputEnter k current) (pvpIkcpInput k data current).2 := by
    have hloop := inputLoop_retimed data.length data
      { kcp := inputEnter k current, flag := false, maxack := 0 }
    rw [pvpIkcpInput]
    dsimp only
    split
    · rfl
    generalize inputLoop data.length data _ = r at hloop
    obtain ⟨ret, st⟩ := r
    cases ret with
    | some ret => exact hloop
    | none =>
      refine Retimed.trans ?_ (.of_tuning (inputCwnd_tuning ..))
      split
      · exact hloop.trans (.of_tuning (ikcpParseFastack_tuning ..))
      · exact hloop
  rw [Retimed, henter] at hinput
  exact hinput

/-! ## Sending -/

/-- The block of a sender, and the blocks of its outputs.  Each step of a sender is one of `output`,
    `put` and `upd`, so a loop carries this by its own recursion. -/
structure Carries (k : IKCPCB) (out : Out) : Prop where
  kept : Keeps k out.kcp
  sent : ∀ e ∈ out.sent, Keeps k e.1

section Sending

variable {k : IKCPCB} {out : Out}

theorem Carries.start (k : IKCPCB) : Carries k { kcp := k } :=
  ⟨.refl k, fun _ he => absurd he List.not_mem_nil⟩

theorem Carries.output (h : Carries k out) : Carries k (ikcpOutput out) := by
  unfold ikcpOutput
  split
  · exact h
  · refine ⟨h.kept, fun e he => ?_⟩
    rcases List.mem_append.mp he with he | he
    · exact h.sent e he
    · rw [List.mem_singleton.mp he]
      exact h.kept

theorem Carries.makeRoom (h : Carries k out) (need : Nat) : Carries k (makeRoom need out) := by
  unfold Ikcp.makeRoom
  split
  · exact h.output
  · exact h

theorem Carries.put (h : Carries k out) (bytes : List Byte) : Carries k (out.put bytes) :=
  ⟨h.kept, h.sent⟩

theorem Carries.upd (h : Carries k out) {f : IKCPCB → IKCPCB} (hf : Keeps out.kcp (f out.kcp)) :
    Carries k (out.upd f) :=
  ⟨h.kept.trans hf, h.sent⟩

/-- The acknowledgement loop.  Induction on the pairs that are left. -/
theorem flushAcks_carries :
    ∀ (n i : Nat) (s : IKCPSEG × Out), Carries k s.2 → Carries k (flushAcks n i s).2
  | 0, _, _, h => h
  | n + 1, i, (_, _), h => flushAcks_carries n (i + 1) (_, _) ((h.makeRoom ikcpOverhead).put _)

/-- The transfer loop of `pvp_ikcp_send_ex`.  Recursion on the segments of `snd_queue`. -/
theorem sendExLoop_carries (current wnd cwnd rtomin : IUINT32) :
    ∀ (queue : List IKCPSEG) {out : Out}, Carries k out →
      Carries k (sendExLoop current wnd cwnd rtomin queue out)
  | [], _, h => h
  | seg :: rest, out, h => by
    unfold sendExLoop
    split
    · refine sendExLoop_carries current wnd cwnd rtomin rest (Carries.put (Carries.makeRoom ?_ _) _)
      exact h.upd ⟨rfl, Nat.le_refl _⟩
    · exact h

/-- The walk back over the older segments.  Induction on the position. -/
theorem sendExDups_carries {current wnd : IUINT32} :
    ∀ (i n : Nat) {out : Out}, Carries k out → Carries k (sendExDups current wnd i n out)
  | 0, _, _, h => h
  | i + 1, n, out, h => by
    unfold sendExDups
    split
    · exact h
    split
    · exact h
    split
    · exact h
    · refine sendExDups_carries i (n + 1) ?_
      exact (h.upd ⟨rfl, Nat.le_refl _⟩).put _

/-- What a sender guarantees of the block it leaves and of those it output from. -/
def Heirs (k : IKCPCB) (r : IKCPCB × List (IKCPCB × List Byte)) : Prop :=
  Heir k r.1 ∧ ∀ e ∈ r.2, Heir k e.1

theorem Carries.heirs (h : Carries k out) : Heirs k (out.kcp, out.sent) :=
  ⟨h.kept.heir, fun e he => (h.sent e he).heir⟩

/-- Nothing was output. -/
theorem Heir.heirs {k' : IKCPCB} (h : Heir k k') : Heirs k (k', []) :=
  ⟨h, fun _ he => absurd he List.not_mem_nil⟩

theorem Heirs.after {k₀ : IKCPCB} {r : IKCPCB × List (IKCPCB × List Byte)} (h : Heirs k r)
    (h₀ : Heir k₀ k) : Heirs k₀ r :=
  ⟨h₀.trans h.1, fun e he => h₀.trans (h.2 e he)⟩

/-- A sender first takes the time it is told. -/
def told (k : IKCPCB) (current : IUINT32) : IKCPCB :=
  if current.toNat > 0 then { k with current := current } else k

theorem told_tuning (k : IKCPCB) (current : IUINT32) :
    (told k current).tuning = { k.tuning with current := clockAfter k.current current } := by
  unfold told clockAfter
  split <;> rfl

theorem sendExFlush_carries (k : IKCPCB) (current : IUINT32) :
    Carries (told k current) (sendExFlush k current) := by
  rw [sendExFlush]
  generalize hk : (if current.toNat > 0 then { k with current := current } else k) = k₁
  rw [show told k current = k₁ from hk]
  have hacks := flushAcks_carries k₁.ackcount 0 (controlSeg k₁, { kcp := k₁ }) (.start k₁)
  -- the acknowledgements are sent first, and then there are none
  have hzero := hacks.upd (f := fun kcp => { kcp with ackcount := 0 }) ⟨rfl, Nat.zero_le _⟩
  have hloop := fun queue => sendExLoop_carries k₁.current (ikcpWndUnused k₁) (sendCwnd k₁)
    (sendRtomin k₁) queue hzero
  refine Carries.output ?_
  split
  · exact sendExDups_carries _ 0 (hloop _)
  · exact hloop _

theorem sendExFlush_heirs (k : IKCPCB) (current : IUINT32) :
    Heirs k ((sendExFlush k current).kcp, (sendExFlush k current).sent) := by
  have hheir : Heir k (told k current) := by
    unfold told
    split <;> exact .retime rfl rfl
  exact Heirs.after (sendExFlush_carries k current).heirs hheir

/-- Queueing takes the time, and leaves the other settings and the acknowledgements alone. -/
theorem pvpIkcpSend_tuning (k : IKCPCB) (buffer : List Byte) (current : IUINT32) :
    (pvpIkcpSend k buffer current).2.tuning = (told k current).tuning
      ∧ (pvpIkcpSend k buffer current).2.ackcount = k.ackcount := by
  have hqueue : ∀ (k : IKCPCB) (buffer : List Byte), (sendQueue k buffer).2.tuning = k.tuning
      ∧ (sendQueue k buffer).2.ackcount = k.ackcount := by
    intro k buffer
    simp only [sendQueue]
    split <;> exact ⟨rfl, rfl⟩
  -- with streaming the end of `snd_queue` may grow first; neither touches a setting
  have hstream : ∀ (k : IKCPCB) (buffer : List Byte),
      (sendStreamAppend k buffer).1.tuning = k.tuning
        ∧ (sendStreamAppend k buffer).1.ackcount = k.ackcount := by
    intro k buffer
    rw [sendStreamAppend]
    split
    · exact ⟨rfl, rfl⟩
    · split <;> exact ⟨rfl, rfl⟩
  have htold : (told k current).ackcount = k.ackcount := by
    unfold told
    split <;> rfl
  rw [pvpIkcpSend, show (if current.toNat > 0 then { k with current := current } else k)
    = told k current from rfl, ← htold]
  generalize told k current = k₁
  dsimp only
  split
  · split
    · exact hstream k₁ buffer
    · exact ⟨(hqueue _ _).1.trans (hstream k₁ buffer).1, (hqueue _ _).2.trans (hstream k₁ buffer).2⟩
  · exact hqueue k₁ buffer

theorem pvpIkcpSend_heir (k : IKCPCB) (buffer : List Byte) (current : IUINT32) :
    Heir k (pvpIkcpSend k buffer current).2 := by
  obtain ⟨htuning, hacks⟩ := pvpIkcpSend_tuning k buffer current
  refine .retime ?_ hacks
  have hnow : (pvpIkcpSend k buffer current).2.current = (told k current).current :=
    congrArg Tuning.current htuning
  rw [hnow, htuning, told_tuning]
  exact congrArg (fun now => { k.tuning with current := now })
    (congrArg Tuning.current (told_tuning k current)).symm

/-- **Sending at once** sets the clock, and nothing else of the settings. -/
theorem pvpIkcpSendEx_tuning (k : IKCPCB) (buffer : List Byte) (current : IUINT32) :
    (pvpIkcpSendEx k buffer current).2.1.tuning
      = { k.tuning with current := clockAfter k.current current } := by
  have hsend := (pvpIkcpSend_tuning k buffer current).1.trans (told_tuning k current)
  rw [pvpIkcpSendEx]
  generalize pvpIkcpSend k buffer current = r at hsend ⊢
  obtain ⟨ret, k₁⟩ := r
  dsimp only at hsend ⊢
  split
  · exact hsend
  split
  · exact hsend
  · -- the clock is set once more, to the same time
    have hflush := (sendExFlush_carries k₁ current).kept.tuning.trans (told_tuning k₁ current)
    have hnow : k₁.current = clockAfter k.current current := congrArg Tuning.current hsend
    have htwice : clockAfter k₁.current current = clockAfter k.current current := by
      rw [hnow]
      unfold clockAfter
      split <;> rfl
    rw [htwice, hsend] at hflush
    exact hflush

/-- **`pvp_ikcp_send_ex`** keeps what is known, at its end and at its outputs. -/
theorem pvpIkcpSendEx_heirs (k : IKCPCB) (buffer : List Byte) (current : IUINT32) :
    Heirs k (pvpIkcpSendEx k buffer current).2 := by
  have hsend := pvpIkcpSend_heir k buffer current
  unfold pvpIkcpSendEx
  generalize pvpIkcpSend k buffer current = r at hsend ⊢
  obtain ⟨ret, k₁⟩ := r
  dsimp only at hsend ⊢
  split
  · exact hsend.heirs
  split
  · exact hsend.heirs
  · exact (sendExFlush_heirs k₁ current).after hsend

end Sending

end ConnClient.Ikcp
