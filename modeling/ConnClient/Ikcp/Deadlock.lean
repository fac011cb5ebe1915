/-
  Whether a full receiver can always hand a message out.

  A receiver hands a message out when `rcv_queue` holds more segments than the mark of its first one
  announces.  Once `rcv_queue` holds `rcv_wnd` segments it takes no more in, so a message of more
  fragments than that never gets complete: the receiver is full, has nothing to hand out, and stays so.
  `pvp_ikcp_wndsize` says of the window that it "must >= max fragment size", and keeps it at `128` or
  more; but `pvp_ikcp_send` refuses a message only from `10000` fragments on.

  What matters is the marks, and no numbers: if every message takes at most as many fragments as the
  window of the other side has segments, every mark is below the window — in `snd_queue`, in `snd_buf`,
  on the wire, and in what the other side keeps (`Lane`) — and a full receiver has enough segments for
  whatever mark comes first.

  A mark is written once, when a message is cut, and copied ever after; so the invariant asks nothing of the
  network, which may lose, repeat and reorder as it likes.  It is kept for each direction by itself: a step
  of one side is a step of the sender of the one direction and of the receiver of the other (`lanes`).
-/
import ConnClient.Ikcp.ReceiveWindow

namespace ConnClient.Ikcp

open ConnClient.Lib

/-- A receiver that is full has a message to hand out. -/
def Relievable (k : IKCPCB) : Prop := k.nrcvQue ≥ k.rcvWnd.toNat → pvpIkcpPeeksize k ≥ 0

instance (k : IKCPCB) : Decidable (Relievable k) := inferInstanceAs (Decidable (_ → _))

/-! ## Full receivers -/

/-- **A full receiver can hand a message out exactly when its first mark is below the window.** -/
theorem relievable_of_full {k : IKCPCB} (h : RcvWindowed k) (hfull : k.nrcvQue ≥ k.rcvWnd.toNat)
    {seg : IKCPSEG} {rest : List IKCPSEG} (hq : k.rcvQueue = seg :: rest) :
    pvpIkcpPeeksize k ≥ 0 ↔ seg.frg.toNat < k.rcvWnd.toNat := by
  have hle : k.nrcvQue ≤ k.rcvWnd.toNat := h.1.full
  have hque : k.nrcvQue = k.rcvQueue.length := h.1.nrcvQue
  rw [hq, List.length_cons] at hque
  rw [pvpIkcpPeeksize, hq]
  dsimp only
  by_cases hlast : seg.frg = 0
  · rw [if_pos hlast, hlast]
    constructor
    · intro _
      show 0 < k.rcvWnd.toNat
      omega
    · intro _
      exact Int.natCast_nonneg _
  · rw [if_neg hlast]
    by_cases hfew : k.nrcvQue < seg.frg.toNat + 1
    · rw [if_pos hfew]
      constructor
      · intro hneg
        omega
      · omega
    · rw [if_neg hfew]
      constructor
      · omega
      · intro _
        exact Int.natCast_nonneg _

/-- The marks of what a receiver keeps, promoted or not; promotion moves segments between the two
    lists. -/
def Kept (b : Nat) (k : IKCPCB) : Prop := ∀ seg ∈ k.rcvQueue ++ k.rcvBuf, seg.frg.toNat < b

/-- A call that leaves the receiving half alone leaves its marks alone. -/
theorem Kept.of_half {b : Nat} {k k' : IKCPCB} (h : Kept b k) (he : k'.rcvHalf = k.rcvHalf) :
    Kept b k' := by
  have hqueue : k'.rcvQueue = k.rcvQueue := congrArg RcvHalf.rcvQueue he
  have hbuf : k'.rcvBuf = k.rcvBuf := congrArg RcvHalf.rcvBuf he
  unfold Kept
  rw [hqueue, hbuf]
  exact h

/-- With every mark below the window, whatever mark is first in a full queue has its segments there
    already. -/
theorem Kept.relieves {k : IKCPCB} (h : Kept k.rcvWnd.toNat k) (hk : RcvWindowed k)
    (hpos : 0 < k.rcvWnd.toNat) : Relievable k := by
  intro hfull
  have hque : k.nrcvQue = k.rcvQueue.length := hk.1.nrcvQue
  cases hq : k.rcvQueue with
  | nil =>
    rw [hq] at hque
    have hnone : k.nrcvQue = 0 := hque
    omega
  | cons seg rest =>
    refine (relievable_of_full hk hfull hq).mpr (h seg ?_)
    rw [hq]
    exact List.mem_cons_self ..

/-- The transfer moves segments from one list to the other. -/
theorem moveRcvBuf_append (buf : List IKCPSEG) :
    ∀ k : IKCPCB, (moveRcvBuf buf k).rcvQueue ++ (moveRcvBuf buf k).rcvBuf = k.rcvQueue ++ buf := by
  induction buf with
  | nil => intro k; rfl
  | cons seg rest ih =>
    intro k
    rw [moveRcvBuf]
    split
    · rw [ih]
      show (k.rcvQueue ++ [seg]) ++ rest = _
      rw [List.append_assoc, List.singleton_append]
    · rfl

/-- A segment that is taken in brings its own mark; one that is dropped brings none. -/
theorem ikcpParseData_kept {b : Nat} {k : IKCPCB} (h : Kept b k) {seg : IKCPSEG}
    (hseg : seg.frg.toNat < b) : Kept b (ikcpParseData k seg) := by
  rw [ikcpParseData]
  split
  · exact h
  · unfold Kept
    split
    · rw [moveRcvBuf_append]
      exact h
    · rename_i rev hins
      rw [moveRcvBuf_append]
      intro s hs
      rcases List.mem_append.mp hs with hs | hs
      · exact h s (List.mem_append_left _ hs)
      · have hmem := (insertRev_perm hins).mem_iff.mp (List.mem_reverse.mp hs)
        rcases List.mem_cons.mp hmem with rfl | hmem
        · exact hseg
        · exact h s (List.mem_append_right _ (List.mem_reverse.mp hmem))

/-- One segment of a datagram.  Only the branch for data reaches the receiving half;
    acknowledgements and probes settle the sending half and leave. -/
theorem inputSeg_kept {b : Nat} {st : InputSt} (h : Kept b st.kcp) {head : SegHead}
    (hhead : head.frg.toNat < b) (payload : List Byte) : Kept b (inputSeg st head payload).kcp := by
  have hsettled : ∀ {k k' : IKCPCB}, Kept b k → Settled k k' → Kept b k' := fun hk hs =>
    hk.of_half (congrArg Ground.rcv hs.rest)
  have huna := hsettled h (settled_una st.kcp head.wnd (getId st.kcp.sndNxt head.tmpUna))
  have hfrg : (head.frg.setWidth 32).toNat < b := by
    rw [BitVec.toNat_setWidth_of_le (by decide)]
    exact hhead
  have hdata : ∀ {k : IKCPCB} una, Kept b k → Kept b (inputData k head una payload) := by
    intro k una hk
    rw [inputData]
    generalize getId k.rcvNxt head.tmpSn = sn
    generalize hk' : (if head.cmd = ikcpCmdPush ∨ k.dupack ≠ 0 then ikcpAckPush k sn head.ts
      else k) = k'
    have hkept : Kept b k' := by
      rw [← hk']
      split
      · exact hk.of_half (rcvHalf_ikcpAckPush ..)
      · exact hk
    dsimp only
    split
    · split
      · exact ikcpParseData_kept hkept hfrg
      · exact hkept
    · exact hk
  unfold inputSeg
  dsimp only
  split
  · split <;> exact hsettled huna (ikcpParseAck_forgot _ _).settled
  split
  · exact hdata _ huna
  split
  · exact huna
  · exact huna

/-- A message that is handed out takes its marks away, and the transfer loop behind it only moves
    the others. -/
theorem pvpIkcpRecv_kept {b : Nat} {k : IKCPCB} (h : Kept b k) (len : Int) :
    Kept b (pvpIkcpRecv k len).2 := by
  have hmove : ∀ k : IKCPCB, Kept b k → Kept b (moveRcvBuf k.rcvBuf k) := by
    intro k hk
    unfold Kept
    rw [moveRcvBuf_append]
    exact hk
  obtain ⟨hrest, -⟩ := mergeFragments_drop k.rcvQueue
  have htaken : Kept b { k with
      rcvQueue := (mergeFragments k.rcvQueue).2.1
      nrcvQue := k.nrcvQue - (mergeFragments k.rcvQueue).2.2 } := by
    intro seg hs
    rcases List.mem_append.mp hs with hs | hs
    · have hs : seg ∈ (mergeFragments k.rcvQueue).2.1 := hs
      rw [hrest] at hs
      exact h seg (List.mem_append_left _ (List.mem_of_mem_drop hs))
    · exact h seg (List.mem_append_right _ hs)
  unfold pvpIkcpRecv
  split
  · exact h
  dsimp only
  split
  · exact h
  split
  · exact h
  · -- a negative length peeks, so nothing leaves `rcv_queue`; the transfer loop runs all the same
    by_cases hpeek : len < 0
    · rw [if_pos hpeek]
      split <;> exact hmove k h
    · rw [if_neg hpeek]
      split <;> exact hmove _ htaken

/-! ## Senders of short messages -/

/-- The marks of what a sender has, in `snd_queue` as units and in `snd_buf` under their numbers. -/
structure Short (b : Nat) (h : SndHalf) : Prop where
  queue : ∀ f ∈ h.sndQueue, f.1 < b
  buf : ∀ e ∈ h.sndBuf, ∀ f, e.2.2.2 = some f → f.1 < b

/-- What arrives acknowledges: it takes entries out of `snd_buf` and marks nothing. -/
theorem short_digest (b : Nat) : Digest fun k => Short b k.sndHalf where
  same := by
    intro k k' h he
    rw [show k'.sndHalf = k.sndHalf from congrArg Ground.snd he]
    exact h
  settle := by
    intro k k' h hs
    rw [hs.snd]
    exact ⟨h.queue, fun e he => h.buf e (hs.sub.subset he)⟩
  data := by
    intro k seg h _ _
    rw [show (ikcpParseData k seg).sndHalf = k.sndHalf from
      congrArg Ground.snd (ikcpParseData_sending ..)]
    exact h

section Sending

variable {b : Nat} {k₀ : IKCPCB}

/-- The marks along the sending loops.  A segment gets its number on the way to `snd_buf`, and keeps
    the mark it was cut with. -/
theorem short_emitter (hb : 0 < b) :
    Emitter k₀ (fun k => Short b k.sndHalf ∧ Plain k ∧ Rest k₀ k) fun seg => seg.frg.toNat < b where
  same h he := ⟨(short_digest b).same h.1 he, plain_emitter.same h.2 he⟩
  half h := h.2.2.1
  push h hs := h.2.1.push _ hs
  move := by
    rintro k seg rest cwnd ⟨h, hp⟩ hq hs hr hopen current wnd
    have hqueue : ∀ f ∈ (seg :: rest).map IKCPSEG.unit, f.1 < b := hq ▸ h.queue
    refine ⟨⟨fun f hf => hqueue f (List.mem_cons_of_mem _ hf), ?_⟩,
      plain_emitter.move hp hq hs hr hopen current wnd⟩
    -- what moves to `snd_buf` keeps the mark it had in `snd_queue`
    intro e he f hf
    have he : e ∈ (k.sndBuf ++ [newSegment k current wnd seg]).map IKCPSEG.key := he
    rw [List.map_append] at he
    rcases List.mem_append.mp he with he | he
    · exact h.buf e he f hf
    · rw [List.mem_singleton.mp he] at hf
      cases hf
      exact hqueue _ (List.mem_cons_self ..)
  control := by
    intro seg hc
    -- a control segment is marked `0`
    rw [hc.frg]
    exact hb
  data := by
    rintro k seg copy ⟨h, -⟩ hs hc
    rw [hc.frg]
    exact h.buf seg.key (List.mem_map_of_mem hs) seg.unit rfl

/-- A segment as block `k` puts it on the wire, with a mark below `b`. -/
def Posted (b : Nat) (k : IKCPCB) (seg : IKCPSEG) : Prop := Accepted k.conv seg ∧ seg.frg.toNat < b

/-- What a call of a sender leaves, and what it outputs. -/
structure Posts (b : Nat) (k : IKCPCB) (r : IKCPCB × List (IKCPCB × List Byte)) : Prop where
  short : Short b r.1.sndHalf
  rest : r.1.rcvHalf = k.rcvHalf
  conv : r.1.conv = k.conv
  wire : ∀ e ∈ r.2, Packed (Posted b k) e.2

/-- What is asked of a block that is about to send. -/
structure Ready (b : Nat) (k : IKCPCB) : Prop where
  sized : Sized k.mtu k.sndHalf
  plain : Plain k
  short : Short b k.sndHalf

theorem Ready.same {k : IKCPCB} (h : Ready b k₀) (he : k.ground = k₀.ground) : Ready b k :=
  ⟨sized_sndInv.same h.sized he, plain_sndInv.same h.plain he, (short_digest b).same h.short he⟩

/-- The invariants of a sender called on `k₀`. -/
theorem ready_emitter (hb : 0 < b) (h : Ready b k₀) :
    Emitter k₀ (fun k => Working (fun k => Sized k.mtu k.sndHalf) k₀ k
      ∧ Short b k.sndHalf ∧ Plain k ∧ Rest k₀ k) fun seg => Sent k₀ seg ∧ seg.frg.toNat < b :=
  (sized_sndInv.emitter sent_labels h.sized).and (short_emitter hb)

theorem Ready.working (h : Ready b k₀) : Working (fun k => Sized k.mtu k.sndHalf) k₀ k₀
    ∧ Short b k₀.sndHalf ∧ Plain k₀ ∧ Rest k₀ k₀ :=
  ⟨⟨h.sized, rfl, rfl, rfl, rfl⟩, h.short, h.plain, rfl, rfl⟩

/-- `pvp_ikcp_flush` sends what is in the two lists, so marks below `b`. -/
theorem pvpIkcpFlush_posts (hb : 0 < b) (h : Ready b k₀) : Posts b k₀ (pvpIkcpFlush k₀) := by
  obtain ⟨⟨hend, hshort, -, -⟩, hsent⟩ := pvpIkcpFlush_emits (ready_emitter hb h) h.working
  refine ⟨hshort, hend.2.1, hend.2.2.1, fun e he => ?_⟩
  exact (hsent e he).packed.mono fun seg hs => ⟨hs.1.accepted, hs.2⟩

/-- An update is a flush at most: neither the clock nor the loss rates are about marks. -/
theorem pvpIkcpUpdate_posts (hb : 0 < b) (h : Ready b k₀) (current : IUINT32) :
    Posts b k₀ (pvpIkcpUpdate k₀ current) := by
  have hground := updateHead_ground k₀ current
  rw [pvpIkcpUpdate]
  generalize updateHead k₀ current = r at hground
  obtain ⟨flush, k⟩ := r
  have hrcv : k.rcvHalf = k₀.rcvHalf := congrArg Ground.rcv hground
  have hconv : k.conv = k₀.conv := congrArg (fun g => g.snd.conv) hground
  have hmid : Posts b k (if flush then pvpIkcpFlush k else (k, [])) := by
    split
    · exact pvpIkcpFlush_posts hb (h.same hground)
    · exact ⟨(h.same hground).short, rfl, rfl, fun _ he => absurd he List.not_mem_nil⟩
  obtain ⟨hshort, hrest, hc, hwire⟩ := hmid
  have hlost := pvpIkcpUpdateLost_ground
    (if flush then pvpIkcpFlush k else (k, [])).1 current
  refine ⟨(short_digest b).same hshort hlost, ?_, ?_, fun e he => ?_⟩
  · exact (congrArg Ground.rcv hlost).trans (hrest.trans hrcv)
  · exact (congrArg (fun g => g.snd.conv) hlost).trans (hc.trans hconv)
  · exact (hwire e he).mono fun seg hs => ⟨hconv ▸ hs.1, hs.2⟩

/-- A message is short when it is refused, or the peer's window takes it whole.  Its fragments are
    marked from one less than their count down to nought. -/
def ShortMsg (b : Nat) (k : IKCPCB) (msg : List Byte) : Prop :=
  fragmentCount k.mss msg.length ≥ 10000 ∨ fragmentCount k.mss msg.length ≤ b

/-- A message that is handed over is cut into fragments, each marked with how many are behind it.
    This is the one place where a mark is made, and where the length of the message matters. -/
theorem pvpIkcpSend_ready (h : Ready b k₀) {msg : List Byte} (hmsg : ShortMsg b k₀ msg)
    (current : IUINT32) : Ready b (pvpIkcpSend k₀ msg current).2
      ∧ (pvpIkcpSend k₀ msg current).2.rcvHalf = k₀.rcvHalf
      ∧ (pvpIkcpSend k₀ msg current).2.conv = k₀.conv := by
  have hsized := sized_sndInv.send h.sized msg current
  have hplain := plain_sndInv.send h.plain msg current
  have hrest := pvpIkcpSend_rest h.plain.stream msg current
  refine ⟨⟨hsized.1, hplain.1, ?_⟩, hrest.1, hsized.2.1⟩
  rw [pvpIkcpSend]
  generalize hk : (if current.toNat > 0 then { k₀ with current := current } else k₀) = k
  have hground : k.ground = k₀.ground := by
    rw [← hk]
    split <;> rfl
  have hshort := (short_digest b).same h.short hground
  have hmss : k.mss = k₀.mss := congrArg (fun g => g.snd.mss) hground
  have hstream : k.stream = 0 := (congrArg (fun g => g.snd.stream) hground).trans h.plain.stream
  dsimp only
  rw [if_neg (not_not_intro hstream), sendQueue, hmss, hstream]
  split
  · exact hshort
  · rename_i hcount
    refine ⟨fun f hf => ?_, hshort.buf⟩
    have hf : f ∈ (k.sndQueue ++ sendFragments k₀.mss 0
      (fragmentCount k₀.mss msg.length) msg).map IKCPSEG.unit := hf
    rw [List.map_append] at hf
    rcases List.mem_append.mp hf with hf | hf
    · exact hshort.queue f hf
    · -- a fragment of this message: its mark is below the count
      have hlt := (sendFragments_bounds _ _ _ _ f hf).1
      rcases hmsg with hmsg | hmsg
      · exact absurd hmsg hcount
      · omega

/-- `pvp_ikcp_send_ex` is a send and then a loop of its own over the same lists. -/
theorem pvpIkcpSendEx_posts (hb : 0 < b) (h : Ready b k₀) {msg : List Byte}
    (hmsg : ShortMsg b k₀ msg) (current : IUINT32) :
    Posts b k₀ (pvpIkcpSendEx k₀ msg current).2 := by
  obtain ⟨hready, hrest, hconv⟩ := pvpIkcpSend_ready h hmsg current
  rw [pvpIkcpSendEx]
  generalize pvpIkcpSend k₀ msg current = r at hready hrest hconv
  obtain ⟨ret, k₁⟩ := r
  dsimp only at hready hrest hconv ⊢
  split
  · exact ⟨hready.short, hrest, hconv, fun _ he => absurd he List.not_mem_nil⟩
  split
  · exact ⟨hready.short, hrest, hconv, fun _ he => absurd he List.not_mem_nil⟩
  generalize hk : (if current.toNat > 0 then { k₁ with current := current } else k₁) = k
  have hground : k.ground = k₁.ground := by
    rw [← hk]
    split <;> rfl
  have hk₀ := hready.same hground
  have hend := sendExFlush_emits (ready_emitter hb hk₀) hk₀.working hk
  obtain ⟨hwork, hshort, -, -⟩ := hend.block
  have hc : k.conv = k₀.conv := (congrArg (fun g => g.snd.conv) hground).trans hconv
  refine ⟨hshort, ?_, hwork.2.2.1.trans hc, fun e he => ?_⟩
  · exact hwork.2.1.trans ((congrArg Ground.rcv hground).trans hrest)
  · exact (hend.sent e he).packed.mono fun seg hs => ⟨hc ▸ hs.1.accepted, hs.2⟩

end Sending

/-! ## The two sides -/

/-- A block at its start, configured in any way that leaves a segment's length to 16 bits; `rcv_wnd`
    was set from an `int`. -/
structure Outfitted (conv : IUINT32) (k : IKCPCB) : Prop where
  kcp : Configured conv k
  rcvWnd : k.rcvWnd.toNat < 2 ^ 31
  mss : k.mss < 2 ^ 16

/-- Two connected blocks at their start, with windows of any size. -/
def Connected (conv : IUINT32) (s : Net) : Prop := ∀ x, Outfitted conv (s x).kcp ∧ (s x).wire = []

/-- The call that a step makes, if it makes one. -/
def Act.call (q : Peer) : Act → Option Call
  | .send msg current => some (.send msg current)
  | .sendEx msg current => some (.sendEx msg current)
  | .update current => some (.update current)
  | .flush => some .flush
  | .recv len => some (.recv len)
  | .input d current => (q.wire[d]?).map fun dg => .input dg.bytes current

/-- A step of a peer is a call on its block, and puts on the wire what the call outputs. -/
structure Stepped (p q : Peer) (act : Act) (p' : Peer) (c : Call) : Prop where
  call : act.call q = some c
  keeps : KeepsWindow c
  kcp : p'.kcp = (c.run p.kcp).1
  wire : p'.wire.map Datagram.bytes = p.wire.map Datagram.bytes ++ (c.run p.kcp).2.map Prod.snd

theorem transmit_wire (p : Peer) (r : IKCPCB × List (IKCPCB × List Byte)) :
    (p.transmit r).wire.map Datagram.bytes = p.wire.map Datagram.bytes ++ r.2.map Prod.snd := by
  simp only [Peer.transmit, List.map_append, List.map_map]
  rfl

theorem accept_wire (p : Peer) (ret : Int) (msg : List Byte) :
    (p.accept ret msg).kcp = p.kcp ∧ (p.accept ret msg).wire = p.wire := by
  rw [accept_eq]
  exact ⟨rfl, rfl⟩

/-- Every step of a peer is a call on its block; what the step notes besides is not the block's. -/
theorem step_stepped {p q p' : Peer} {act : Act} (h : p.step q act = .ok p') :
    ∃ c, Stepped p q act p' c := by
  cases act with
  | send msg current =>
    cases h
    refine ⟨.send msg current, rfl, fun _ _ he => Call.noConfusion he, rfl, ?_⟩
    rw [transmit_wire, (accept_wire ..).2]
    rfl
  | sendEx msg current =>
    cases h
    refine ⟨.sendEx msg current, rfl, fun _ _ he => Call.noConfusion he, rfl, ?_⟩
    rw [transmit_wire, (accept_wire ..).2]
    rfl
  | update current =>
    cases h
    exact ⟨.update current, rfl, fun _ _ he => Call.noConfusion he, rfl, transmit_wire ..⟩
  | flush =>
    cases h
    exact ⟨.flush, rfl, fun _ _ he => Call.noConfusion he, rfl, transmit_wire ..⟩
  | recv len =>
    have hp : p'.kcp = (pvpIkcpRecv p.kcp len).2 ∧ p'.wire = p.wire := by
      simp only [Peer.step] at h
      generalize pvpIkcpRecv p.kcp len = r at h
      cases h
      split <;> exact ⟨rfl, rfl⟩
    refine ⟨.recv len, rfl, fun _ _ he => Call.noConfusion he, hp.1, ?_⟩
    rw [hp.2]
    exact (List.append_nil _).symm
  | input d current =>
    simp only [Peer.step] at h
    split at h
    · cases h
    · rename_i dg hd
      cases h
      refine ⟨.input dg.bytes current, ?_, fun _ _ he => Call.noConfusion he, rfl, (List.append_nil _).symm⟩
      rw [Act.call, hd]
      rfl

/-- What a step of the network does to its two sides. -/
theorem netStep_ok {i : Side × Act} {s s' : Net} (h : netStep i s = .ok s') :
    (s i.1).step (s i.1.other) i.2 = .ok (s' i.1) ∧ s' i.1.other = s i.1.other := by
  have hne : i.1.other ≠ i.1 := by
    cases i.1 <;> decide
  unfold netStep at h
  split at h
  · nomatch h
  · rename_i p hp
    cases h
    dsimp only
    rw [if_pos rfl, if_neg hne]
    exact ⟨hp, rfl⟩

/-- A side is the one that steps, or the other one. -/
theorem side_cases (x y : Side) : x = y ∨ x = y.other := by
  cases x <;> cases y <;> decide

/-- Each side is a run of its own block. -/
theorem sides_run {conv : IUINT32} {C : Net → Side × Act → Prop} {s : Net}
    (h : Reach netStep (Connected conv) C s) (x : Side) :
    Runs (Outfitted conv) KeepsWindow (s x).kcp := by
  induction h generalizing x with
  | start h => exact .start (h x).1
  | @step s s' i _ _ hs ih =>
    obtain ⟨hstep, hother⟩ := netStep_ok hs
    obtain ⟨c, hc⟩ := step_stepped hstep
    rcases side_cases x i.1 with rfl | rfl
    · rw [hc.kcp]
      exact .step (i := c) (ih i.1) hc.keeps rfl
    · rw [hother]
      exact ih i.1.other

/-- What is known of each block by itself. -/
structure Sound (k : IKCPCB) : Prop where
  sized : Sized k.mtu k.sndHalf
  rcv : RcvWindowed k
  plain : Plain k

theorem Runs.sound {conv : IUINT32} {k : IKCPCB} (h : Runs (Outfitted conv) KeepsWindow k) :
    Sound k := by
  have hsized : Runs Created (fun _ => True) k :=
    Runs.mono (fun k hk => ⟨⟨conv, hk.kcp⟩, hk.mss⟩) (fun _ _ => trivial) h
  have hequipped : Runs Equipped KeepsWindow k :=
    Runs.mono (fun k hk => ⟨⟨conv, hk.kcp⟩, hk.rcvWnd⟩) (fun _ hc => hc) h
  exact ⟨hsized.sized, hequipped.rcvWindowed.1, hequipped.rcvWindowed.2.1⟩

/-! ## Calls, seen by either end -/

section Calls

variable {conv : IUINT32} {b : Nat} {k : IKCPCB}

/-- The messages a call hands over are short. -/
def ShortCall (b : Nat) (k : IKCPCB) : Call → Prop
  | .send msg _ => ShortMsg b k msg
  | .sendEx msg _ => ShortMsg b k msg
  | _ => True

/-- **The sending end of a call**: the marks stay below `b`, here and on the wire. -/
theorem call_posts (hb : 0 < b) (h : Ready b k) {c : Call} (hc : ShortCall b k c) :
    Short b (c.run k).1.sndHalf ∧ (c.run k).1.conv = k.conv
      ∧ ∀ e ∈ (c.run k).2, Packed (Posted b k) e.2 := by
  have hnone : ∀ e ∈ ([] : List (IKCPCB × List Byte)), Packed (Posted b k) e.2 :=
    fun _ he => absurd he List.not_mem_nil
  have hposts : ∀ {r}, Posts b k r →
      Short b r.1.sndHalf ∧ r.1.conv = k.conv ∧ ∀ e ∈ r.2, Packed (Posted b k) e.2 :=
    fun hr => ⟨hr.short, hr.conv, hr.wire⟩
  cases c with
  | send msg current =>
    obtain ⟨hr, -, hconv⟩ := pvpIkcpSend_ready h hc current
    exact ⟨hr.short, hconv, hnone⟩
  | sendEx msg current => exact hposts (pvpIkcpSendEx_posts hb h hc current)
  | update current => exact hposts (pvpIkcpUpdate_posts hb h current)
  | flush => exact hposts (pvpIkcpFlush_posts hb h)
  | recv len =>
    have hsnd := sndHalf_pvpIkcpRecv k len
    refine ⟨?_, congrArg SndHalf.conv hsnd, hnone⟩
    show Short b (pvpIkcpRecv k len).2.sndHalf
    rw [hsnd]
    exact h.short
  | input data current =>
    exact ⟨(short_digest b).input h.short data current, (digest_conv k.conv).input rfl data current,
      hnone⟩
  | nodelay on interval resend nc =>
    obtain ⟨_, _, _, _, _, hset⟩ := pvpIkcpNodelay_eq k on interval resend nc
    have hground : (pvpIkcpNodelay k on interval resend nc).ground = k.ground := by
      rw [hset]
      rfl
    exact ⟨(short_digest b).same h.short hground, congrArg (fun g => g.snd.conv) hground, hnone⟩
  | wndsize sndwnd rcvwnd =>
    obtain ⟨_, _, hset⟩ := pvpIkcpWndsize_eq k sndwnd rcvwnd
    rw [Call.run, hset]
    exact ⟨⟨h.short.queue, h.short.buf⟩, rfl, hnone⟩
  | setdupsend => exact ⟨h.short, rfl, hnone⟩
  | intervalLost => exact ⟨h.short, rfl, hnone⟩
  | fields => exact ⟨h.short, rfl, hnone⟩

/-- A datagram of the other side: every segment has a mark below `b`. -/
theorem input_kept (h : Kept b k) (hconv : k.conv = conv) {data : List Byte}
    (hdata : Packed (fun seg => Accepted conv seg ∧ seg.frg.toNat < b) data) (current : IUINT32) :
    Kept b (pvpIkcpInput k data current).2 := by
  obtain ⟨segs, rfl, hsegs⟩ := hdata
  have henter : Kept b (inputEnter k current) :=
    h.of_half (congrArg Ground.rcv (inputEnter_ground k current))
  have hc : (inputEnter k current).conv = conv :=
    (congrArg (fun g => g.snd.conv) (inputEnter_ground k current)).trans hconv
  -- the segments one after the other, by induction on them
  have hfold : ∀ (segs : List IKCPSEG) (st : InputSt), Kept b st.kcp →
      (∀ seg ∈ segs, seg.frg.toNat < b) → Kept b (inputSegs segs st).kcp := by
    intro segs
    induction segs with
    | nil => exact fun _ hst _ => hst
    | cons seg segs ih =>
      intro st hst hmarks
      refine ih _ (inputSeg_kept hst ?_ seg.data) fun s hs => hmarks s (List.mem_cons_of_mem _ hs)
      have hlt := hmarks seg (List.mem_cons_self ..)
      show (seg.frg.setWidth 16).toNat < b
      rw [BitVec.toNat_setWidth]
      have hmod := Nat.mod_le seg.frg.toNat (2 ^ 16)
      omega
  let st : InputSt := { kcp := inputEnter k current, flag := false, maxack := 0 }
  have hst : st.kcp.conv = conv := hc
  -- the loop is a fold over the segments
  have hloop := inputLoop_packed inputSeg_conv segs _ st (length_segs_le segs) hst
    fun seg hs => (hsegs seg hs).1
  have hkept := hfold segs st henter fun seg hs => (hsegs seg hs).2
  unfold pvpIkcpInput
  dsimp only
  split
  · exact henter
  · rw [hloop]
    refine Kept.of_half ?_ (congrArg Ground.rcv (inputCwnd_ground ..))
    split
    · exact hkept.of_half (congrArg Ground.rcv (ikcpParseFastack_ground ..))
    · exact hkept

/-- **The receiving end of a call**: what is kept has marks below `b`. -/
theorem call_kept (h : Kept b k) (hplain : Plain k) {c : Call} (hc : KeepsWindow c)
    (hdata : ∀ data current, c = .input data current →
      Packed (fun seg => Accepted k.conv seg ∧ seg.frg.toNat < b) data) :
    Kept b (c.run k).1 := by
  have hrest : ∀ {k' : IKCPCB}, Rest k k' → Kept b k' := fun hr => h.of_half hr.1
  cases c with
  | send msg current => exact hrest (pvpIkcpSend_rest hplain.stream msg current)
  | sendEx msg current => exact hrest (pvpIkcpSendEx_rest hplain msg current)
  | update current => exact hrest (pvpIkcpUpdate_rest hplain current)
  | flush => exact hrest (pvpIkcpFlush_rest hplain)
  | recv len => exact pvpIkcpRecv_kept h len
  | input data current => exact input_kept h rfl (hdata data current rfl) current
  | nodelay on interval resend nc =>
    obtain ⟨_, _, _, _, _, hset⟩ := pvpIkcpNodelay_eq k on interval resend nc
    refine hrest (.of_ground ?_)
    rw [Call.run, hset]
    rfl
  | wndsize sndwnd rcvwnd => exact absurd rfl (hc sndwnd rcvwnd)
  | setdupsend => exact h
  | intervalLost => exact h
  | fields => exact h

end Calls

/-! ## Runs of the network -/

/-- The direction from `p` to `q`: every mark is below the window `b` of `q`, wherever it is on its
    way. -/
structure Lane (conv : IUINT32) (b : Nat) (p q : Peer) : Prop where
  conv : p.kcp.conv = conv
  short : Short b p.kcp.sndHalf
  wire : ∀ data ∈ p.wire.map Datagram.bytes,
    Packed (fun seg => Accepted p.kcp.conv seg ∧ seg.frg.toNat < b) data
  kept : Kept b q.kcp
  wnd : q.kcp.rcvWnd.toNat = b

section Lanes

variable {conv : IUINT32} {b : Nat} {p q : Peer}

/-- The messages a step hands over are short. -/
def ShortAct (b : Nat) (k : IKCPCB) : Act → Prop
  | .send msg _ => ShortMsg b k msg
  | .sendEx msg _ => ShortMsg b k msg
  | _ => True

theorem ShortAct.call {k : IKCPCB} {act : Act} (h : ShortAct b k act) {c : Call}
    (hc : act.call q = some c) : ShortCall b k c := by
  cases act with
  | send => cases hc; exact h
  | sendEx => cases hc; exact h
  | update => cases hc; trivial
  | flush => cases hc; trivial
  | recv => cases hc; trivial
  | input =>
    obtain ⟨dg, -, rfl⟩ := Option.map_eq_some_iff.mp hc
    trivial

/-- **A step of `p`, as a sender.** -/
theorem Lane.sends (hb : 0 < b) (h : Lane conv b p q) (hp : Sound p.kcp) {act : Act}
    (hact : ShortAct b p.kcp act) {p' : Peer} {c : Call} (hs : Stepped p q act p' c) :
    Lane conv b p' q := by
  obtain ⟨hshort, hconv, hout⟩ := call_posts hb ⟨hp.sized, hp.plain, h.short⟩ (hact.call hs.call)
  have hc : p'.kcp.conv = p.kcp.conv := by
    rw [hs.kcp]
    exact hconv
  refine ⟨hc.trans h.conv, ?_, fun data hd => ?_, h.kept, h.wnd⟩
  · rw [hs.kcp]
    exact hshort
  · rw [hc]
    rw [hs.wire] at hd
    rcases List.mem_append.mp hd with hd | hd
    · exact h.wire data hd
    · obtain ⟨e, he, rfl⟩ := List.mem_map.mp hd
      exact hout e he

/-- **A step of `q`, as a receiver.** -/
theorem Lane.receives (h : Lane conv b p q) (hq : Sound q.kcp) (hconv : q.kcp.conv = conv)
    {act : Act} {q' : Peer} {c : Call} (hs : Stepped q p act q' c) : Lane conv b p q' := by
  -- a datagram that arrives is one of the other side
  have hdata : ∀ data current, c = .input data current →
      Packed (fun seg => Accepted q.kcp.conv seg ∧ seg.frg.toNat < b) data := by
    rintro data current rfl
    have hcall := hs.call
    cases act with
    | input d current' =>
      obtain ⟨dg, hd, he⟩ := Option.map_eq_some_iff.mp hcall
      cases he
      rw [hconv, ← h.conv]
      exact h.wire dg.bytes (List.mem_map_of_mem (List.mem_of_getElem? hd))
    | _ => nomatch hcall
  refine ⟨h.conv, h.short, h.wire, ?_, ?_⟩
  · rw [hs.kcp]
    exact call_kept h.kept hq.plain hs.keeps hdata
  · rw [hs.kcp, call_rcvWnd hq.plain hs.keeps]
    exact h.wnd

end Lanes

/-- Nothing is anywhere before the first call.  Induction on the configuration. -/
theorem Outfitted.start {conv : IUINT32} {k : IKCPCB} (h : Outfitted conv k) (b : Nat) :
    k.conv = conv ∧ Short b k.sndHalf ∧ Kept b k := by
  obtain ⟨hconv, -, -, -, hsnd, hrcv, hsbuf, hrbuf⟩ := h.kcp.fresh
  refine ⟨hconv, ⟨fun f hf => ?_, fun e he => ?_⟩, fun seg hs => ?_⟩
  · have hf : f ∈ k.sndQueue.map IKCPSEG.unit := hf
    rw [hsnd] at hf
    nomatch hf
  · have he : e ∈ k.sndBuf.map IKCPSEG.key := he
    rw [hsbuf] at he
    nomatch he
  · rw [hrcv, hrbuf] at hs
    nomatch hs

/-- A window is never smaller than `IKCP_WND_RCV`. -/
theorem Configured.rcvWnd {conv : IUINT32} {k : IKCPCB} (h : Configured conv k) :
    ikcpWndRcv.toNat ≤ k.rcvWnd.toNat := by
  obtain ⟨s, rfl⟩ := h.settings
  exact s.window

/-- Every message that is accepted takes at most as many fragments as the window of the other side
    has segments. -/
def ShortMessages (s : Net) (i : Side × Act) : Prop :=
  ShortAct (s i.1.other).kcp.rcvWnd.toNat (s i.1).kcp i.2

/-- The invariant of a run: both directions, for the windows the run started with. -/
theorem lanes {conv : IUINT32} {s : Net}
    (h : Reach netStep (Connected conv) ShortMessages s) (x : Side) :
    ∃ b, 0 < b ∧ Lane conv b (s x) (s x.other) := by
  induction h generalizing x with
  -- the window the run starts with; the settings keep it at `IKCP_WND_RCV` or more
  | @start s h =>
    obtain ⟨hx, hwire⟩ := h x
    obtain ⟨hy, -⟩ := h x.other
    have hpos := hy.kcp.rcvWnd
    have hmin : 0 < ikcpWndRcv.toNat := by decide
    obtain ⟨hconv, hshort, -⟩ := hx.start (s x.other).kcp.rcvWnd.toNat
    obtain ⟨-, -, hkept⟩ := hy.start (s x.other).kcp.rcvWnd.toNat
    refine ⟨_, by omega, hconv, hshort, ?_, hkept, rfl⟩
    rw [hwire]
    exact fun _ hd => absurd hd List.not_mem_nil
  | @step s s' i hr hc hs ih =>
    obtain ⟨hstep, hother⟩ := netStep_ok hs
    obtain ⟨c, hcall⟩ := step_stepped hstep
    have hsound := (sides_run hr i.1).sound
    rcases side_cases x i.1 with rfl | rfl
    · obtain ⟨b, hb, hlane⟩ := ih i.1
      have hact : ShortAct b (s i.1).kcp i.2 := hlane.wnd ▸ hc
      rw [hother]
      exact ⟨b, hb, hlane.sends hb hsound hact hcall⟩
    · -- the side that steps is the receiver of this direction
      have hback : i.1.other.other = i.1 := by
        cases i.1 <;> rfl
      obtain ⟨b, hb, hlane⟩ := ih i.1.other
      obtain ⟨_, -, hown⟩ := ih i.1
      rw [hback] at hlane
      rw [hback, hother]
      exact ⟨b, hb, hlane.receives hsound hown.conv hcall⟩

/-- **No receiver is stuck**, with any windows and whatever the network does, as long as every message
    that is accepted fits the window of the other side. -/
theorem relievable {conv : IUINT32} {s : Net}
    (h : Reach netStep (Connected conv) ShortMessages s) (x : Side) : Relievable (s x).kcp := by
  have hback : x.other.other = x := by cases x <;> rfl
  obtain ⟨b, hb, hlane⟩ := lanes h x.other
  rw [hback] at hlane
  have hkept := hlane.kept
  have hwnd := hlane.wnd
  subst hwnd
  exact hkept.relieves (sides_run h x).sound.rcv hb

/-- A message of three bytes arrives. -/
def hello : List (Side × Act) := [(.a, .update 10), (.a, .sendEx [1, 2, 3] 20), (.b, .input 0 30)]

instance (s : Net) (i : Side × Act) : Decidable (ShortMessages s i) := by
  unfold ShortMessages ShortAct ShortMsg
  split <;> infer_instance

/-- The three bytes wait at `b` to be received; one fragment fits any window. -/
theorem relievable_hello :
    ∃ s, exec netStep (fun s i => ShortMessages s i) hello (fun _ => Peer.fresh 7) = some s
      ∧ pvpIkcpPeeksize (s .b).kcp = 3 ∧ Relievable (s .b).kcp := by
  have hfresh : Outfitted 7 (Peer.fresh 7).kcp := ⟨.create, by decide, by decide⟩
  have hstart : Connected 7 fun _ => Peer.fresh 7 := fun _ => ⟨hfresh, rfl⟩
  have hrun : (exec netStep (fun s i => ShortMessages s i) hello (fun _ => Peer.fresh 7)).map
      (fun s => pvpIkcpPeeksize (s .b).kcp) = some 3 := by decide +kernel
  obtain ⟨s, hs, hpeek⟩ := Option.map_eq_some_iff.mp hrun
  refine ⟨s, hs, hpeek, ?_⟩
  exact relievable (Reach.of_exec (fun _ _ h => of_decide_eq_true h) hello (.start hstart) hs) .b

/-! ## A stuck receiver -/

/-- A block with the smallest segments, a window of `256` to send and of `128` to receive, and no
    congestion control. -/
def smallSegments : IKCPCB :=
  pvpIkcpWndsize (pvpIkcpNodelay (pvpIkcpSetmtu (pvpIkcpCreate 7) 50).2 0 (-1) (-1) 1) 256 128

/-- One side sends a message of `129` full fragments, and the first `128` of them arrive in order. -/
def longMessage : List (Side × Act) :=
  [(.a, .update 10), (.a, .sendEx (List.replicate (129 * 31) 0) 10)]
    ++ (List.range 128).map fun d => (.b, .input d 10)

/-- **A message of one fragment more than the window is accepted, and gets stuck.** -/
theorem longMessage_stuck :
    ¬ ∀ s : Net, Reach netStep (Connected 7) (fun s i => Timely s i = true) s →
      ∀ x, Relievable (s x).kcp := by
  have hconf : Configured 7 smallSegments :=
    .wndsize (.nodelay (.setmtu .create 50) 0 (-1) (-1) 1) 256 128
  let start : Net := fun _ => ⟨smallSegments, [], [], 0, 0, []⟩
  have hstart : Connected 7 start := fun _ => ⟨⟨hconf, by decide, by decide⟩, rfl⟩
  have hrun : (exec netStep Timely longMessage start).map (fun s => decide (Relievable (s .b).kcp))
      = some false := by decide +kernel
  obtain ⟨s, hs, hstuck⟩ := Option.map_eq_some_iff.mp hrun
  intro h
  have hreach := Reach.of_exec (fun _ _ h => h) longMessage (.start hstart) hs
  exact of_decide_eq_false hstuck (h s hreach .b)

end ConnClient.Ikcp
