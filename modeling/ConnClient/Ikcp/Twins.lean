/-
  What no datagram depends on.

  A control block keeps books on lost segments (`lastlostrate` and what it is computed from) that no
  routine reads, and a switch for redundant copies that only a flush reads.  Blocks that differ in
  these alone are twins: every routine keeps them twins, reports the same and outputs the same
  datagrams.  A flush needs the switch to agree as well, and an update sees to that.

  The routines come in two kinds.

  1. Those that only pass the books on commute with `IKCPCB.book`: to exchange the books and then run
     the routine is to run it and then exchange them.  Input, receiving, queueing a message and the
     head and tail of a flush are of this kind, and one lemma of this form for each loop and each
     helper is all there is to say.  Where a loop is involved, the induction is the loop's own.
  2. Those that also count, or output on the way, change the books of the two blocks in the same way,
     but the books stay different.  They are compared through `OutTwins`: twin blocks, the same bytes
     in the buffer, the same datagrams out so far.

  What a routine looks at is the same in both blocks as soon as it can be written as a function of the
  block without its books (`Twins.same`); most steps below are that and nothing else.
-/
import ConnClient.Ikcp.Flush

namespace ConnClient.Ikcp

open ConnClient.Lib

/-- The fields that may differ. -/
structure Books where
  tsFlush : IUINT32
  dupsendOn : Bool
  lastlostrate : IUINT32
  curlostcount : IUINT32
  cursendcount : IUINT32
  tsLost : IUINT32

/-- The books of a block. -/
def IKCPCB.books (k : IKCPCB) : Books :=
  ⟨k.tsFlush, k.dupsendOn, k.lastlostrate, k.curlostcount, k.cursendcount, k.tsLost⟩

/-- The same block with other books. -/
@[simps] def IKCPCB.book (k : IKCPCB) (b : Books) : IKCPCB :=
  { k with
    tsFlush := b.tsFlush
    dupsendOn := b.dupsendOn
    lastlostrate := b.lastlostrate
    curlostcount := b.curlostcount
    cursendcount := b.cursendcount
    tsLost := b.tsLost }

/-- `k'` is `k` up to its books, and is to flush at `ts`; where `on` is asked for, the switch
    agrees.  The time of the flush is one of the books, but an update reads it, so the relation keeps
    it in sight. -/
def Twins (on : Prop) (ts : IUINT32) (k k' : IKCPCB) : Prop :=
  ∃ b : Books, b.tsFlush = ts ∧ (on → b.dupsendOn = k.dupsendOn) ∧ k' = k.book b

/-- The books are passed on as they are. -/
def PassesOn (f : IKCPCB → IKCPCB) : Prop := ∀ k b, f (k.book b) = (f k).book b

section Relation

variable {on : Prop} {ts : IUINT32} {k k' : IKCPCB}

theorem Twins.refl (on : Prop) (k : IKCPCB) : Twins on k.tsFlush k k :=
  ⟨k.books, rfl, fun _ => rfl, rfl⟩

/-- What does not look at the books is the same. -/
theorem Twins.same {α : Type} (h : Twins on ts k k') (f : IKCPCB → α)
    (hf : ∀ k b, f (k.book b) = f k) : f k' = f k := by
  rcases h with ⟨b, -, -, rfl⟩
  exact hf k b

/-- What passes the books on keeps twins; in particular it leaves the switch alone. -/
theorem Twins.map (h : Twins on ts k k') {f : IKCPCB → IKCPCB} (hf : PassesOn f) :
    Twins on ts (f k) (f k') := by
  rcases h with ⟨b, hts, hon, rfl⟩
  -- a block with its own books is itself, so `f` leaves the switch as it was
  have hown : f k = (f k).book k.books := hf k k.books
  refine ⟨b, hts, fun ho => (hon ho).trans ?_, hf k b⟩
  exact (congrArg IKCPCB.dupsendOn hown).symm

theorem PassesOn.comp {f g : IKCPCB → IKCPCB} (hg : PassesOn g) (hf : PassesOn f) :
    PassesOn fun k => g (f k) := by
  intro k b
  dsimp only
  rw [hf k b, hg (f k) b]

end Relation

/-! ## Input -/

section Input

variable (k : IKCPCB) (b : Books)

/-- The measured round trip goes into the `rx_*` fields, which are no books. -/
theorem ackRtt_book (seg : IKCPSEG) : ackRtt (k.book b) seg = (ackRtt k seg).book b := by
  simp only [ackRtt, IKCPCB.book_current]
  split <;> rfl

theorem ikcpShrinkBuf_book : ikcpShrinkBuf (k.book b) = (ikcpShrinkBuf k).book b := by
  simp only [ikcpShrinkBuf, IKCPCB.book_sndBuf]
  split <;> rfl

/-- Recursion on the segments of `snd_buf`. -/
theorem parseUnaLoop_book (una : IUINT32) :
    ∀ (buf : List IKCPSEG) (k : IKCPCB),
      parseUnaLoop una buf (k.book b) = (parseUnaLoop una buf k).book b
  | [], _ => rfl
  | seg :: rest, k => by
    rw [parseUnaLoop, parseUnaLoop]
    split
    · rw [ackRtt_book k b seg]
      exact parseUnaLoop_book una rest { ackRtt k seg with sndBuf := rest, nsndBuf := k.nsndBuf - 1 }
    · rfl

/-- The three ways to take segments out of `snd_buf`: all of them below `una`, one that is
    acknowledged, and none, but counting that it was passed over. -/
theorem ikcpParseUna_book (una : IUINT32) :
    ikcpParseUna (k.book b) una = (ikcpParseUna k una).book b :=
  parseUnaLoop_book b una k.sndBuf k

theorem ikcpParseAck_book (sn : IUINT32) :
    ikcpParseAck (k.book b) sn = (ikcpParseAck k sn).book b := by
  simp only [ikcpParseAck, IKCPCB.book_sndUna, IKCPCB.book_sndNxt, IKCPCB.book_sndBuf]
  split
  · rfl
  · split
    · rfl
    · rw [ackRtt_book k b]
      rfl

theorem ikcpParseFastack_book (sn : IUINT32) :
    ikcpParseFastack (k.book b) sn = (ikcpParseFastack k sn).book b := by
  simp only [ikcpParseFastack, IKCPCB.book_sndUna, IKCPCB.book_sndNxt]
  split <;> rfl

/-- Recursion on the segments of `rcv_buf`. -/
theorem moveRcvBuf_book :
    ∀ (buf : List IKCPSEG) (k : IKCPCB), moveRcvBuf buf (k.book b) = (moveRcvBuf buf k).book b
  | [], _ => rfl
  | seg :: rest, k => by
    rw [moveRcvBuf, moveRcvBuf]
    simp only [IKCPCB.book_rcvNxt, IKCPCB.book_nrcvQue, IKCPCB.book_rcvWnd]
    split
    · exact moveRcvBuf_book rest { k with
        rcvBuf := rest
        nrcvBuf := k.nrcvBuf - 1
        rcvQueue := k.rcvQueue ++ [seg]
        nrcvQue := k.nrcvQue + 1
        rcvNxt := k.rcvNxt + 1 }
    · rfl

/-- A segment goes into `rcv_buf` at its place, or is thrown away; neither is decided by the books.
    -/
theorem ikcpParseData_book (seg : IKCPSEG) :
    ikcpParseData (k.book b) seg = (ikcpParseData k seg).book b := by
  simp only [ikcpParseData, IKCPCB.book_rcvNxt, IKCPCB.book_rcvWnd, IKCPCB.book_rcvBuf]
  split
  · rfl
  · split
    · exact moveRcvBuf_book b _ k
    · -- it is put in, and may complete what waited behind it
      rename_i rev _
      exact moveRcvBuf_book b _ { k with rcvBuf := rev.reverse, nrcvBuf := k.nrcvBuf + 1 }

theorem ikcpAckPush_book (sn ts : IUINT32) :
    ikcpAckPush (k.book b) sn ts = (ikcpAckPush k sn ts).book b := by
  simp only [ikcpAckPush, IKCPCB.book_ackcount, IKCPCB.book_ackblock]
  split <;> rfl

theorem inputData_book (head : SegHead) (una : IUINT32) (payload : List Byte) :
    inputData (k.book b) head una payload = (inputData k head una payload).book b := by
  simp only [inputData, IKCPCB.book_rcvNxt, IKCPCB.book_rcvWnd, IKCPCB.book_dupack]
  split
  · split
    · rw [ikcpAckPush_book]
      simp only [IKCPCB.book_rcvNxt]
      split
      · exact ikcpParseData_book _ b _
      · rfl
    · simp only [IKCPCB.book_rcvNxt]
      split
      · exact ikcpParseData_book k b _
      · rfl
  · rfl

/-- The same round, on a block with other books. -/
@[simps] def InputSt.book (st : InputSt) : InputSt := { st with kcp := st.kcp.book b }

/-- One segment of a datagram: the window, `una` and then what its command asks for. -/
theorem inputSeg_book (st : InputSt) (head : SegHead) (payload : List Byte) :
    inputSeg (st.book b) head payload = (inputSeg st head payload).book b := by
  let wnd := head.wnd.setWidth 32
  have hwnd : { (st.book b).kcp with rmtWnd := wnd } = { st.kcp with rmtWnd := wnd }.book b := rfl
  unfold inputSeg
  dsimp only
  rw [hwnd, ikcpParseUna_book, ikcpShrinkBuf_book]
  simp only [InputSt.book_kcp, InputSt.book_flag, InputSt.book_maxack, IKCPCB.book_sndNxt]
  -- from here on the two sides are the same block, and the command decides
  generalize ikcpShrinkBuf (ikcpParseUna _ _) = k
  simp only [ikcpParseAck_book, ikcpShrinkBuf_book, inputData_book]
  split
  · split <;> rfl
  · split
    · rfl
    · split <;> rfl

/-- Induction on the rounds. -/
theorem inputLoop_book :
    ∀ (n : Nat) (data : List Byte) (st : InputSt),
      inputLoop n data (st.book b) = ((inputLoop n data st).1, (inputLoop n data st).2.book b)
  | 0, _, _ => rfl
  | n + 1, data, st => by
    rw [inputLoop, inputLoop, InputSt.book_kcp, IKCPCB.book_conv]
    split
    · rfl
    · rfl
    · rw [inputSeg_book]
      exact inputLoop_book n _ _

/-- The congestion window grows by what was acknowledged. -/
theorem inputCwnd_book (una : IUINT32) :
    inputCwnd (k.book b) una = (inputCwnd k una).book b := by
  have hgrow : growCwnd (k.book b) = growCwnd k := rfl
  simp only [inputCwnd, hgrow, IKCPCB.book_sndUna, IKCPCB.book_cwnd, IKCPCB.book_rmtWnd]
  split
  · split <;> rfl
  · rfl

theorem inputEnter_book (current : IUINT32) :
    inputEnter (k.book b) current = (inputEnter k current).book b := by
  simp only [inputEnter]
  split <;> simp only [IKCPCB.book_state] <;> split <;> rfl

/-- **Input** passes the books on, whatever the datagram and however it ends. -/
theorem pvpIkcpInput_book (data : List Byte) (current : IUINT32) :
    pvpIkcpInput (k.book b) data current
      = ((pvpIkcpInput k data current).1, (pvpIkcpInput k data current).2.book b) := by
  simp only [pvpIkcpInput, inputEnter_book, IKCPCB.book_sndUna]
  generalize inputEnter k current = k
  split
  · rfl
  · have hloop := inputLoop_book b data.length data { kcp := k, flag := false, maxack := 0 }
    rw [show ({ kcp := k.book b, flag := false, maxack := 0 } : InputSt)
      = InputSt.book b { kcp := k, flag := false, maxack := 0 } from rfl, hloop]
    generalize inputLoop data.length data { kcp := k, flag := false, maxack := 0 } = r
    obtain ⟨ret, st⟩ := r
    cases ret with
    | some ret => rfl
    | none =>
      show (0, inputCwnd (if st.flag then ikcpParseFastack (st.kcp.book b) st.maxack
        else st.kcp.book b) k.sndUna) = _
      dsimp only
      split
      · rw [ikcpParseFastack_book, inputCwnd_book]
      · rw [inputCwnd_book]

/-! ## What the application calls -/

/-- The same block at another time. -/
@[simps] def IKCPCB.clocked (k : IKCPCB) (now : IUINT32) : IKCPCB := { k with current := now }

/-- Recursion on the segments of `rcv_buf`. -/
theorem moveRcvBuf_clocked (now : IUINT32) :
    ∀ (buf : List IKCPSEG) (k : IKCPCB),
      moveRcvBuf buf ((k.clocked now).book b) = ((moveRcvBuf buf k).clocked now).book b
  | [], _ => rfl
  | seg :: rest, k => by
    rw [moveRcvBuf, moveRcvBuf]
    simp only [IKCPCB.book_rcvNxt, IKCPCB.book_nrcvQue, IKCPCB.book_rcvWnd, IKCPCB.clocked_rcvNxt,
      IKCPCB.clocked_nrcvQue, IKCPCB.clocked_rcvWnd]
    split
    · exact moveRcvBuf_clocked now rest { k with
        rcvBuf := rest
        nrcvBuf := k.nrcvBuf - 1
        rcvQueue := k.rcvQueue ++ [seg]
        nrcvQue := k.nrcvQue + 1
        rcvNxt := k.rcvNxt + 1 }
    · rfl

/-- **Receiving** does not look at the time either.  The routine takes a message off, moves segments
    up, and asks for a window update; the three steps are named first and compared one by one. -/
theorem pvpIkcpRecv_clocked (now : IUINT32) (len : Int) :
    pvpIkcpRecv ((k.clocked now).book b) len
      = ((pvpIkcpRecv k len).1, ((pvpIkcpRecv k len).2.clocked now).book b) := by
  let k' := (k.clocked now).book b
  let taken (k : IKCPCB) : IKCPCB := if len < 0 then k
    else { k with rcvQueue := (mergeFragments k.rcvQueue).2.1,
                  nrcvQue := k.nrcvQue - (mergeFragments k.rcvQueue).2.2 }
  let asked (k₀ k : IKCPCB) : IKCPCB :=
    if k.nrcvQue < k.rcvWnd.toNat ∧ k₀.nrcvQue ≥ k₀.rcvWnd.toNat then
      { k with probe := k.probe ||| ikcpAskTell }
    else k
  have htaken : taken k' = ((taken k).clocked now).book b := by
    dsimp only [taken]
    split <;> rfl
  have hmoved : moveRcvBuf (taken k').rcvBuf (taken k')
      = ((moveRcvBuf (taken k).rcvBuf (taken k)).clocked now).book b := by
    rw [htaken]
    exact moveRcvBuf_clocked b now _ _
  have hasked : ∀ j, asked k' ((j.clocked now).book b) = ((asked k j).clocked now).book b := by
    intro j
    simp only [asked, k', IKCPCB.book_nrcvQue, IKCPCB.book_rcvWnd, IKCPCB.clocked_nrcvQue,
      IKCPCB.clocked_rcvWnd]
    split <;> rfl
  have hpeek : pvpIkcpPeeksize k' = pvpIkcpPeeksize k := rfl
  show pvpIkcpRecv k' len = _
  unfold pvpIkcpRecv
  rw [hpeek]
  by_cases hnone : k.rcvQueue = []
  · rw [if_pos (show k'.rcvQueue = [] from hnone), if_pos hnone]
  rw [if_neg (show ¬ k'.rcvQueue = [] from hnone), if_neg hnone]
  dsimp only
  split
  · rfl
  split
  · rfl
  · refine Prod.ext rfl ?_
    show asked k' (moveRcvBuf (taken k').rcvBuf (taken k')) = _
    rw [hmoved, hasked]

/-- **Queueing a message**, as a stream or in fragments. -/
theorem pvpIkcpSend_book (buffer : List Byte) (current : IUINT32) :
    pvpIkcpSend (k.book b) buffer current
      = ((pvpIkcpSend k buffer current).1, (pvpIkcpSend k buffer current).2.book b) := by
  have hqueue : ∀ (k : IKCPCB) buffer,
      sendQueue (k.book b) buffer = ((sendQueue k buffer).1, (sendQueue k buffer).2.book b) := by
    intro k buffer
    simp only [sendQueue, IKCPCB.book_mss]
    split <;> rfl
  -- a stream puts the first bytes into the last segment that waits
  have happend : ∀ (k : IKCPCB) buffer,
      sendStreamAppend (k.book b) buffer
        = ((sendStreamAppend k buffer).1.book b, (sendStreamAppend k buffer).2) := by
    intro k buffer
    simp only [sendStreamAppend, IKCPCB.book_sndQueue, IKCPCB.book_mss]
    split
    · rfl
    · split <;> rfl
  -- the time given is taken over before anything else
  have hclock : (if current.toNat > 0 then { k.book b with current := current } else k.book b)
      = (if current.toNat > 0 then { k with current := current } else k).book b := by
    split <;> rfl
  unfold pvpIkcpSend
  dsimp only
  rw [hclock]
  generalize (if current.toNat > 0 then { k with current := current } else k) = k
  rw [IKCPCB.book_stream, happend]
  split
  · dsimp only
    split
    · rfl
    · exact hqueue _ _
  · exact hqueue _ _

end Input

/-! ## Output -/

/-- Two senders at the same place.  The blocks recorded with the datagrams may differ in their books,
    so only the bytes are compared. -/
structure OutTwins (on : Prop) (ts : IUINT32) (o o' : Out) : Prop where
  kcp : Twins on ts o.kcp o'.kcp
  ptr : o'.ptr = o.ptr
  sent : o'.sent.map Prod.snd = o.sent.map Prod.snd

section Output

variable {on : Prop} {ts : IUINT32} {o o' : Out}

/-- The operations of a sender, one by one: it starts, outputs its buffer, makes room, writes a
    segment, changes the block. -/
theorem OutTwins.start {k k' : IKCPCB} (h : Twins on ts k k') : OutTwins on ts { kcp := k } { kcp := k' } :=
  ⟨h, rfl, rfl⟩

theorem OutTwins.output (h : OutTwins on ts o o') : OutTwins on ts (ikcpOutput o) (ikcpOutput o') := by
  rw [ikcpOutput, ikcpOutput, h.ptr]
  split
  · exact h
  · refine ⟨h.kcp, rfl, ?_⟩
    rw [List.map_append, List.map_append, h.sent]
    rfl

theorem OutTwins.makeRoom (h : OutTwins on ts o o') (need : Nat) :
    OutTwins on ts (makeRoom need o) (makeRoom need o') := by
  -- whether a datagram is cut here depends on `mtu` and on what is in the buffer
  have hmtu : o'.kcp.mtu = o.kcp.mtu := h.kcp.same IKCPCB.mtu fun _ _ => rfl
  rw [Ikcp.makeRoom, Ikcp.makeRoom, h.ptr, hmtu]
  split
  · exact h.output
  · exact h

theorem OutTwins.put (h : OutTwins on ts o o') (bytes : List Byte) :
    OutTwins on ts (o.put bytes) (o'.put bytes) :=
  ⟨h.kcp, congrArg (· ++ bytes) h.ptr, h.sent⟩

theorem OutTwins.change (h : OutTwins on ts o o') {f : IKCPCB → IKCPCB}
    (hf : Twins on ts (f o.kcp) (f o'.kcp)) : OutTwins on ts (o.upd f) (o'.upd f) :=
  ⟨hf, h.ptr, h.sent⟩

theorem OutTwins.upd (h : OutTwins on ts o o') {f : IKCPCB → IKCPCB} (hf : PassesOn f) :
    OutTwins on ts (o.upd f) (o'.upd f) :=
  h.change (h.kcp.map hf)

/-- The same with the local `seg`, on which they agree. -/
def SegTwins (on : Prop) (ts : IUINT32) (s s' : IKCPSEG × Out) : Prop :=
  s'.1 = s.1 ∧ OutTwins on ts s.2 s'.2

/-- Acknowledgements.  Induction on the pairs that are left. -/
theorem flushAcks_twins :
    ∀ (n i : Nat) {s s' : IKCPSEG × Out}, SegTwins on ts s s' →
      SegTwins on ts (flushAcks n i s) (flushAcks n i s')
  | 0, _, _, _, h => h
  | n + 1, i, (seg, o), (seg', o'), ⟨hseg, h⟩ => by
    have hroom := h.makeRoom ikcpOverhead
    have hget := hroom.kcp.same (fun k => ikcpAckGet k i) fun _ _ => rfl
    cases hseg
    rw [flushAcks, flushAcks, hget]
    exact flushAcks_twins n (i + 1) ⟨rfl, hroom.put _⟩

theorem flushProbe_twins (ask : IUINT32) (cmd : IUINT8) {s s' : IKCPSEG × Out}
    (h : SegTwins on ts s s') : SegTwins on ts (flushProbe ask cmd s) (flushProbe ask cmd s') := by
  obtain ⟨seg, o⟩ := s
  obtain ⟨seg', o'⟩ := s'
  obtain ⟨hseg, h⟩ := h
  cases hseg
  have hprobe : o'.kcp.probe = o.kcp.probe := h.kcp.same IKCPCB.probe fun _ _ => rfl
  rw [flushProbe, flushProbe, hprobe]
  split
  · exact ⟨rfl, (h.makeRoom ikcpOverhead).put _⟩
  · exact ⟨rfl, h⟩

/-- Recursion on the segments of `snd_queue`. -/
theorem moveSndQueue_book (current wnd cwnd : IUINT32) (b : Books) :
    ∀ (queue : List IKCPSEG) (k : IKCPCB),
      moveSndQueue current wnd cwnd queue (k.book b)
        = (moveSndQueue current wnd cwnd queue k).book b
  | [], _ => rfl
  | seg :: rest, k => by
    rw [moveSndQueue, moveSndQueue, IKCPCB.book_sndNxt, IKCPCB.book_sndUna]
    split
    · exact moveSndQueue_book current wnd cwnd b rest (moveSegment current wnd seg rest k)
    · rfl

theorem updateProbe_book : PassesOn updateProbe := by
  intro k b
  simp only [updateProbe, IKCPCB.book_rmtWnd, IKCPCB.book_probeWait, IKCPCB.book_current,
    IKCPCB.book_tsProbe]
  split
  · split
    · rfl
    · split <;> rfl
  · rfl

/-- The head of a flush: acknowledgements, probes, and what moves from `snd_queue` to `snd_buf`.
    None of it looks at the books. -/
theorem flushHead_twins {k k' : IKCPCB} (h : Twins on ts k k') :
    (flushHead k').1 = (flushHead k).1 ∧ OutTwins on ts (flushHead k).2 (flushHead k').2 := by
  have hseg : controlSeg k' = controlSeg k := h.same controlSeg fun _ _ => rfl
  have hcount : k'.ackcount = k.ackcount := h.same IKCPCB.ackcount fun _ _ => rfl
  have hnow : k'.current = k.current := h.same IKCPCB.current fun _ _ => rfl
  have hwnd : ikcpWndUnused k' = ikcpWndUnused k := h.same ikcpWndUnused fun _ _ => rfl
  rw [flushHead, flushHead, hseg, hcount, hnow, hwnd]
  have hstart : SegTwins on ts (controlSeg k, { kcp := k }) (controlSeg k, { kcp := k' }) :=
    ⟨rfl, .start h⟩
  have hacks := flushAcks_twins k.ackcount 0 hstart
  -- between acknowledgements and probes: the list is empty now, and the probe is decided
  let probing (s : IKCPSEG × Out) : IKCPSEG × Out :=
    (s.1, s.2.upd fun kcp => updateProbe { kcp with ackcount := 0 })
  have hprobing : SegTwins on ts (probing (flushAcks k.ackcount 0 (controlSeg k, { kcp := k })))
      (probing (flushAcks k.ackcount 0 (controlSeg k, { kcp := k' }))) :=
    ⟨hacks.1, hacks.2.upd (f := fun kcp => updateProbe { kcp with ackcount := 0 })
      fun k b => updateProbe_book { k with ackcount := 0 } b⟩
  have hprobed := flushProbe_twins ikcpAskTell ikcpCmdWins
    (flushProbe_twins ikcpAskSend ikcpCmdWask hprobing)
  have hready := hprobed.2.upd (f := fun kcp => { kcp with probe := 0 }) fun _ _ => rfl
  have hcwnd := hready.kcp.same sendCwnd fun _ _ => rfl
  refine ⟨hcwnd, ?_⟩
  dsimp only
  rw [hcwnd]
  exact hready.upd fun k b => moveSndQueue_book _ _ _ b k.sndQueue k

/-! ### Data -/

/-- Here the books are written: a first transmission is counted as sent, and a retransmission as
    lost.  Both blocks count the same, whatever the numbers are. -/
theorem dueKcp_twins {k k' : IKCPCB} (h : Twins on ts k k') (segment : IKCPSEG) (due : Due) :
    Twins on ts (dueKcp segment k due) (dueKcp segment k' due) := by
  rcases h with ⟨b, hts, hon, rfl⟩
  cases due with
  | first => exact ⟨{ b with cursendcount := b.cursendcount + 1 }, hts, hon, rfl⟩
  | timeout =>
    rw [dueKcp, dueKcp]
    dsimp only
    split
    · exact ⟨{ b with curlostcount := b.curlostcount + 1 }, hts, hon, rfl⟩
    · exact ⟨b, hts, hon, rfl⟩
  | fastack => exact ⟨b, hts, hon, rfl⟩
  | no => exact ⟨b, hts, hon, rfl⟩

/-- A segment is written back and goes out. -/
theorem OutTwins.sendSegment (h : OutTwins on ts o o') (i : Nat) (segment : IKCPSEG) :
    OutTwins on ts (sendSegment i segment o) (sendSegment i segment o') := by
  have hset := h.upd (f := fun kcp => { kcp with sndBuf := kcp.sndBuf.set i segment })
    fun _ _ => rfl
  refine ((hset.makeRoom _).put _).upd (f := fun kcp => { kcp with
    sndBuf := if segment.cmd = ikcpCmdDups then
        kcp.sndBuf.set i { segment with cmd := ikcpCmdPush }
      else kcp.sndBuf
    state := if segment.xmit ≥ kcp.deadLink then -1 else kcp.state }) fun _ _ => rfl

theorem OutTwins.sendDup (h : OutTwins on ts o o') (i : Nat) (segment : IKCPSEG) :
    OutTwins on ts (sendDup i segment o) (sendDup i segment o') := by
  have hset := h.upd (f := fun kcp => { kcp with
    sndBuf := kcp.sndBuf.set i { segment with cmd := ikcpCmdPush }, xmit := kcp.xmit + 1 })
    fun _ _ => rfl
  exact hset.put _

/-- Two flushes in the middle of their data.  The switch agrees here, so the same segments are put
    aside to be repeated. -/
structure FlushTwins (ts : IUINT32) (st st' : FlushSt) : Prop where
  out : OutTwins True ts st.out st'.out
  change : st'.change = st.change
  lost : st'.lost = st.lost
  dupSegs : st'.dupSegs = st.dupSegs

/-- **A segment of a flush.** It is due in both or in neither, and repeated in both or in neither.
    -/
theorem flushSegment_twins {st st' : FlushSt} (h : FlushTwins ts st st') (a : FlushArgs) (i : Nat)
    (segment : IKCPSEG) : FlushTwins ts (flushSegment a i segment st) (flushSegment a i segment st') := by
  -- the one place that reads the switch
  have hcopy : wantsDup a st'.out.kcp segment = wantsDup a st.out.kcp segment := by
    rcases h.out.kcp with ⟨b, -, hon, hk⟩
    have hswitch : st'.out.kcp.dupsendOn = st.out.kcp.dupsendOn := by
      rw [hk]
      exact hon trivial
    funext dupIdx
    rw [wantsDup, wantsDup, hswitch, hk]
    rfl
  have hdue := h.out.kcp.same (fun k => dueSegment a k segment) fun _ _ => rfl
  have hnxt := h.out.kcp.same IKCPCB.rcvNxt fun _ _ => rfl
  unfold flushSegment
  rw [hcopy, h.dupSegs, h.change, h.lost, hdue, hnxt]
  split
  · split
    · exact ⟨h.out, rfl, rfl, rfl⟩
    · exact h
  · -- it is due: the books are changed, then it goes out
    refine ⟨OutTwins.sendSegment (h.out.change ?_) i _, rfl, rfl, rfl⟩
    exact dueKcp_twins h.out.kcp segment _

/-- Induction on the segments that are left. -/
theorem flushData_twins (a : FlushArgs) :
    ∀ (n i : Nat) {st st' : FlushSt}, FlushTwins ts st st' →
      FlushTwins ts (flushData a n i st) (flushData a n i st')
  | 0, _, _, _, h => h
  | n + 1, i, st, st', h => by
    have hbuf := h.out.kcp.same IKCPCB.sndBuf fun _ _ => rfl
    rw [flushData, flushData, hbuf]
    split
    · exact h
    · exact flushData_twins a n (i + 1) (flushSegment_twins h a i _)

/-- Recursion on the copies that are due. -/
theorem flushDups_twins (a : FlushArgs) :
    ∀ (dups : List Nat) {o o' : Out}, OutTwins on ts o o' →
      OutTwins on ts (flushDups a dups o) (flushDups a dups o')
  | [], _, _, h => h
  | i :: dups, o, o', h => by
    have hbuf := h.kcp.same IKCPCB.sndBuf fun _ _ => rfl
    rw [flushDups, flushDups, hbuf]
    split
    · exact flushDups_twins a dups h
    · rename_i dupSeg _
      have hroom := h.makeRoom (ikcpOverhead + dupSeg.len)
      have hnxt := hroom.kcp.same IKCPCB.rcvNxt fun _ _ => rfl
      dsimp only
      rw [hnxt]
      exact flushDups_twins a dups (hroom.sendDup i _)

/-- The congestion control at the end of a flush. -/
theorem flushTail_book (cwnd resent : IUINT32) (change lost : Bool) :
    PassesOn (flushTail cwnd resent change lost) := by
  have hfloor : PassesOn tailFloor := by
    intro k b
    simp only [tailFloor, IKCPCB.book_cwnd]
    split <;> rfl
  have hlost : PassesOn (tailLost cwnd lost) := by
    intro k b
    unfold tailLost
    split <;> rfl
  have hchange : PassesOn (tailChange resent change) := by
    intro k b
    unfold tailChange
    split <;> rfl
  exact hfloor.comp (hlost.comp hchange)

/-- A result of a sender: the block it leaves, and its outputs. -/
def SentTwins (on : Prop) (ts : IUINT32) (r r' : IKCPCB × List (IKCPCB × List Byte)) : Prop :=
  Twins on ts r.1 r'.1 ∧ r'.2.map Prod.snd = r.2.map Prod.snd

/-- **A flush**, with the switch in the same position: head, data, copies and tail, each from the
    state that the one before left. -/
theorem pvpIkcpFlush_twins {k k' : IKCPCB} (h : Twins True ts k k') :
    SentTwins True ts (pvpIkcpFlush k) (pvpIkcpFlush k') := by
  have hupdated := h.same IKCPCB.updated fun _ _ => rfl
  have hwnd := h.same ikcpWndUnused fun _ _ => rfl
  obtain ⟨hcwnd, hhead⟩ := flushHead_twins h
  have hargs := hhead.kcp.same flushArgs fun _ _ => rfl
  have hbuf := hhead.kcp.same IKCPCB.sndBuf fun _ _ => rfl
  have hstart : FlushTwins ts { out := (flushHead k).2 } { out := (flushHead k').2 } :=
    ⟨hhead, rfl, rfl, rfl⟩
  have hdata := flushData_twins (flushArgs (flushHead k).2.kcp (ikcpWndUnused k))
    (flushHead k).2.kcp.sndBuf.length 0 hstart
  have hdups := flushDups_twins (flushArgs (flushHead k).2.kcp (ikcpWndUnused k))
    (flushData (flushArgs (flushHead k).2.kcp (ikcpWndUnused k))
      (flushHead k).2.kcp.sndBuf.length 0 { out := (flushHead k).2 }).dupSegs hdata.out
  unfold pvpIkcpFlush
  rw [hupdated]
  split
  · exact ⟨h, rfl⟩
  · dsimp only
    rw [hwnd, hargs, hbuf, hcwnd, hdata.change, hdata.lost, hdata.dupSegs]
    exact ⟨hdups.output.kcp.map (flushTail_book _ _ _ _), hdups.output.sent⟩

/-! ## A message sent at once -/

/-- Recursion on the segments of `snd_queue`.  What the loop reads is the same in both blocks; what
    it writes to the books is the count of segments sent. -/
theorem sendExLoop_twins (current wnd cwnd rtomin : IUINT32) :
    ∀ (queue : List IKCPSEG) {o o' : Out}, OutTwins on ts o o' →
      OutTwins on ts (sendExLoop current wnd cwnd rtomin queue o)
        (sendExLoop current wnd cwnd rtomin queue o')
  | [], _, _, h => h
  | seg :: rest, o, o', h => by
    have hnew := h.kcp.same (fun k => newSegment k current wnd seg) fun _ _ => rfl
    have hnxt := h.kcp.same IKCPCB.sndNxt fun _ _ => rfl
    have huna := h.kcp.same IKCPCB.sndUna fun _ _ => rfl
    have hrto := h.kcp.same IKCPCB.rxRto fun _ _ => rfl
    have hbuf := h.kcp.same IKCPCB.sndBuf fun _ _ => rfl
    rw [sendExLoop, sendExLoop, hnxt, huna, hrto, hbuf]
    split
    · dsimp only at hnew ⊢
      rw [hnew]
      refine sendExLoop_twins current wnd cwnd rtomin rest
        (OutTwins.put (OutTwins.makeRoom (h.change ?_) _) _)
      -- the segment is counted
      rcases h.kcp with ⟨b, hts, hon, hk⟩
      rw [hk]
      exact ⟨{ b with cursendcount := b.cursendcount + 1 }, hts, hon, rfl⟩
    · exact h

/-- Induction on the position.  Whether a segment is repeated here depends on its flag and on what
    fits the datagram, not on the switch, so `on` need not hold. -/
theorem sendExDups_twins (current wnd : IUINT32) :
    ∀ (i n : Nat) {o o' : Out}, OutTwins on ts o o' →
      OutTwins on ts (sendExDups current wnd i n o) (sendExDups current wnd i n o')
  | 0, _, _, _, h => h
  | i + 1, n, o, o', h => by
    have hbuf := h.kcp.same IKCPCB.sndBuf fun _ _ => rfl
    have hmtu := h.kcp.same IKCPCB.mtu fun _ _ => rfl
    have hcount := h.kcp.same IKCPCB.dupsendcount fun _ _ => rfl
    have hnxt := h.kcp.same IKCPCB.rcvNxt fun _ _ => rfl
    rw [sendExDups, sendExDups, hbuf, h.ptr, hmtu, hcount, hnxt]
    split
    · exact h
    split
    · exact h
    split
    · exact h
    · exact sendExDups_twins current wnd i (n + 1) (h.sendDup i _)

/-- What `pvp_ikcp_send_ex` outputs: acknowledgements, the new segments, and copies of those in
    front of them. -/
theorem sendExFlush_twins {k k' : IKCPCB} (h : Twins on ts k k') (current : IUINT32) :
    OutTwins on ts (sendExFlush k current) (sendExFlush k' current) := by
  have hclock : Twins on ts (if current.toNat > 0 then { k with current := current } else k)
      (if current.toNat > 0 then { k' with current := current } else k') := by
    split
    · exact h.map (f := fun k => { k with current := current }) fun _ _ => rfl
    · exact h
  unfold sendExFlush
  dsimp only
  generalize (if current.toNat > 0 then { k with current := current } else k) = k at hclock ⊢
  generalize (if current.toNat > 0 then { k' with current := current } else k') = k' at hclock ⊢
  -- all that the routine reads before it starts
  have hseg := hclock.same controlSeg fun _ _ => rfl
  have hcount := hclock.same IKCPCB.ackcount fun _ _ => rfl
  have hnow := hclock.same IKCPCB.current fun _ _ => rfl
  have hwnd := hclock.same ikcpWndUnused fun _ _ => rfl
  have hcwnd := hclock.same sendCwnd fun _ _ => rfl
  have hrtomin := hclock.same sendRtomin fun _ _ => rfl
  rw [hseg, hcount, hnow, hwnd, hcwnd, hrtomin]
  have hstart : SegTwins on ts (controlSeg k, { kcp := k }) (controlSeg k, { kcp := k' }) :=
    ⟨rfl, .start hclock⟩
  have hacks := flushAcks_twins k.ackcount 0 hstart
  have hacked := hacks.2.upd (f := fun kcp => { kcp with ackcount := 0 }) fun _ _ => rfl
  generalize Out.upd _ (flushAcks k.ackcount 0 (controlSeg k, { kcp := k })).2 = o at hacked ⊢
  generalize Out.upd _ (flushAcks k.ackcount 0 (controlSeg k, { kcp := k' })).2 = o' at hacked ⊢
  have hqueue := hacked.kcp.same IKCPCB.sndQueue fun _ _ => rfl
  have hbuf := hacked.kcp.same IKCPCB.sndBuf fun _ _ => rfl
  -- the loop starts from twins, and the copies from what it leaves
  have hsent := sendExLoop_twins k.current (ikcpWndUnused k) (sendCwnd k) (sendRtomin k)
    o.kcp.sndQueue hacked
  have hlater := hsent.kcp.same IKCPCB.sndBuf fun _ _ => rfl
  rw [hqueue, hbuf, hlater]
  refine OutTwins.output ?_
  split
  · exact sendExDups_twins _ _ _ 0 hsent
  · exact hsent

/-- **A message sent at once**, at a time that counts: it is queued in both or refused by both, and
    what goes out is the same. -/
theorem pvpIkcpSendEx_twins {k k' : IKCPCB} (h : Twins on ts k k') (buffer : List Byte)
    (current : IUINT32) :
    (pvpIkcpSendEx k' buffer current).1 = (pvpIkcpSendEx k buffer current).1
      ∧ SentTwins on ts (pvpIkcpSendEx k buffer current).2 (pvpIkcpSendEx k' buffer current).2 := by
  have hqueued : (pvpIkcpSend k' buffer current).1 = (pvpIkcpSend k buffer current).1
      ∧ Twins on ts (pvpIkcpSend k buffer current).2 (pvpIkcpSend k' buffer current).2 := by
    refine ⟨h.same (fun k => (pvpIkcpSend k buffer current).1) fun k b => ?_,
      h.map (f := fun k => (pvpIkcpSend k buffer current).2) fun k b => ?_⟩
    · rw [pvpIkcpSend_book]
    · exact congrArg Prod.snd (pvpIkcpSend_book k b buffer current)
  unfold pvpIkcpSendEx
  generalize pvpIkcpSend k buffer current = r at hqueued ⊢
  generalize pvpIkcpSend k' buffer current = r' at hqueued ⊢
  obtain ⟨ret, k⟩ := r
  obtain ⟨ret', k'⟩ := r'
  obtain ⟨hret, hk⟩ := hqueued
  dsimp only at hret hk ⊢
  subst hret
  have hupdated := hk.same IKCPCB.updated fun _ _ => rfl
  rw [hupdated]
  split
  · exact ⟨rfl, hk, rfl⟩
  split
  · exact ⟨rfl, hk, rfl⟩
  · have hout := sendExFlush_twins hk current
    exact ⟨rfl, hout.kcp, hout.sent⟩

end Output

end ConnClient.Ikcp
