/-
  What the two ends of one direction have, number by number.

  `snd_buf` and `rcv_buf` hold segments under residues; `buffered` and `has` are the numbers these stand
  for, told from the counters they are near to.  This module says what the calls do to the two sets:

  * a sender adds the numbers it gives out (`Tells.buffered`);
  * a segment that arrives adds at most its own number to what the block holds (`inputSeg_gains`), and
    lets go only of numbers that it tells of (`inputSeg_letsGo`);
  * `pvp_ikcp_recv` leaves what the block holds as it is (`pvpIkcpRecv_has`): promoting a segment moves
    its number from one half of `has` to the other.

  Of the sender these statements are about numbers, since its counter is known from the start of the
  run.  Of the receiver they hold from any starting point `r`: all that counts is how far `rcv_nxt`
  moved, and that is what `Gains` keeps beside the set.
-/
import ConnClient.Lib.Custody
import ConnClient.Ikcp.Acks
import ConnClient.Ikcp.Notices

namespace ConnClient.Ikcp

open ConnClient.Lib

/-! ## The two sets -/

/-- The numbers in `snd_buf`, when `snd_nxt` stands for `sndNum`: a segment is as far below that as
    its residue is below `snd_nxt`. -/
def IKCPCB.buffered (k : IKCPCB) (sndNum : Nat) : Set Nat :=
  { n | ∃ seg ∈ k.sndBuf, n + off seg.sn k.sndNxt = sndNum }

/-- The numbers that were received, when `rcv_nxt` stands for `rcvNum`: promoted, which is all below
    it, or in `rcv_buf`, as far above it as the residue is above `rcv_nxt`. -/
def IKCPCB.has (k : IKCPCB) (rcvNum : Nat) : Set Nat :=
  { n | n < rcvNum ∨ ∃ seg ∈ k.rcvBuf, n = rcvNum + off k.rcvNxt seg.sn }

/-- What is held is a matter of the receiving half. -/
theorem has_congr {k k' : IKCPCB} (h : k'.rcvHalf = k.rcvHalf) (rcvNum : Nat) : k'.has rcvNum = k.has rcvNum := by
  have hnxt : k'.rcvNxt = k.rcvNxt := congrArg RcvHalf.rcvNxt h
  have hbuf : k'.rcvBuf = k.rcvBuf := congrArg RcvHalf.rcvBuf h
  rw [IKCPCB.has, IKCPCB.has, hnxt, hbuf]

/-! ## Sending -/

section Sending

variable {ln : Link} {log : List (Nat × List Byte)} {una sndNum : Nat} {k : IKCPCB}

/-- The numbers in `snd_buf` are those from `una` on whose residues are there. -/
theorem SndOk.mem_buffered (h : SndOk ln log una sndNum k.sndHalf) {n : Nat} :
    n ∈ k.buffered sndNum ↔ una ≤ n ∧ n < sndNum ∧ BitVec.ofNat 32 n ∈ k.sndBuf.map IKCPSEG.sn := by
  have hnear := h.near
  have hnxt : k.sndNxt = BitVec.ofNat 32 sndNum := h.sndNxt
  constructor
  · rintro ⟨seg, hseg, hn⟩
    -- the entry has a number in the window, and that is the one its residue stands for
    obtain ⟨m, hlo, hhi, hkey⟩ := h.entry hseg
    have hsn : seg.sn = BitVec.ofNat 32 m := congrArg (fun e => e.2.2.1) hkey
    rw [hsn, hnxt, off_ofNat (Nat.le_of_lt hhi) (by omega)] at hn
    have hm : n = m := by omega
    rw [hm, ← hsn]
    exact ⟨hlo, hhi, List.mem_map_of_mem hseg⟩
  · rintro ⟨hlo, hhi, hmem⟩
    obtain ⟨seg, hseg, hsn⟩ := List.mem_map.mp hmem
    refine ⟨seg, hseg, ?_⟩
    rw [hsn, hnxt, off_ofNat (Nat.le_of_lt hhi) (by omega)]
    omega

/-- The residues of consecutive numbers. -/
theorem mem_serials {m n : Nat} {sn : IUINT32} (h : sn ∈ serials m n) :
    ∃ i, m ≤ i ∧ i < m + n ∧ sn = BitVec.ofNat 32 i := by
  obtain ⟨i, hi, he⟩ := List.mem_map.mp h
  obtain ⟨hlo, hhi⟩ := List.mem_range'_1.mp hi
  exact ⟨i, hlo, hhi, he.symm⟩

/-- **A sender** adds the numbers it gives out, to the end of `snd_buf`; what was there keeps its
    number, although `snd_nxt` has moved. -/
theorem Tells.buffered {log' : List (Nat × List Byte)} {n : Nat} {note : Note}
    {r : IKCPCB × List (IKCPCB × List Byte)} (h : SndOk ln log una sndNum k.sndHalf)
    (ht : Tells ln log' una sndNum n note k r) :
    r.1.buffered (sndNum + n) = k.buffered sndNum ∪ Set.Ico sndNum (sndNum + n) := by
  have hnear := ht.ok.near
  have hle := h.le
  ext i
  rw [ht.ok.mem_buffered, Set.mem_union, h.mem_buffered, Set.mem_Ico, ht.numbers, List.mem_append]
  constructor
  · rintro ⟨hlo, hhi, hold | hnew⟩
    · left
      obtain ⟨seg, hseg, hsn⟩ := List.mem_map.mp hold
      obtain ⟨m, hm1, hm2, hkey⟩ := h.entry hseg
      have hsn' : seg.sn = BitVec.ofNat 32 m := congrArg (fun e => e.2.2.1) hkey
      have hi : i = m := ofNat_inj_of_near (by omega) (by omega) (hsn.symm.trans hsn')
      exact ⟨hlo, hi ▸ hm2, hold⟩
    · right
      obtain ⟨m, hm1, hm2, hsn⟩ := mem_serials hnew
      have hi : i = m := ofNat_inj_of_near (by omega) (by omega) hsn
      omega
  · rintro (⟨hlo, hhi, hold⟩ | ⟨hlo, hhi⟩)
    · exact ⟨hlo, by omega, Or.inl hold⟩
    · exact ⟨by omega, hhi, Or.inr (List.mem_map_of_mem (List.mem_range'_1.mpr ⟨hlo, hhi⟩))⟩

end Sending

/-! ## Receiving -/

/-- `k'` holds what `k` did, and `items` besides; `rcv_nxt` moved by what entered `rcv_queue`. -/
structure Gains (items : Nat → Set Nat) (k k' : IKCPCB) : Prop where
  has : ∀ r, k'.has (r + off k.rcvNxt k'.rcvNxt) = k.has r ∪ items r
  moved : off k.rcvNxt k'.rcvNxt + k.nrcvQue = k'.nrcvQue

/-- Nothing happened to the receiving half. -/
theorem Gains.none {k k' : IKCPCB} (h : k'.rcvHalf = k.rcvHalf) : Gains (fun _ => ∅) k k' := by
  have hnxt : k'.rcvNxt = k.rcvNxt := congrArg RcvHalf.rcvNxt h
  have hque : k'.nrcvQue = k.nrcvQue := congrArg RcvHalf.nrcvQue h
  constructor
  · intro r
    rw [hnxt, off_self, Nat.add_zero, has_congr h, Set.union_empty]
  · rw [hnxt, off_self, hque, Nat.zero_add]

section Receiving

variable {k : IKCPCB}

/-- **Promoting** the first segment moves its number from one half of `has` to the other. -/
theorem has_promote (h : Receiving k.rcvHalf k.nrcvBuf) {seg : IKCPSEG} {rest : List IKCPSEG}
    (hbuf : k.rcvBuf = seg :: rest) (hsn : seg.sn = k.rcvNxt) {k' : IKCPCB}
    (hnxt : k'.rcvNxt = k.rcvNxt + 1) (hrest : k'.rcvBuf = rest) (r : Nat) : k'.has (r + 1) = k.has r := by
  have hone : off k.rcvNxt (k.rcvNxt + 1) = 1 := by
    rw [off_add]
    rfl
  have hbehind := (h.behind hbuf hsn).2
  -- what is left in `rcv_buf` is one nearer to the counter, which is one further
  have hcloser : ∀ s ∈ rest, r + 1 + off (k.rcvNxt + 1) s.sn = r + off k.rcvNxt s.sn := by
    intro s hs
    have hle := hbehind s.sn (List.mem_map_of_mem hs)
    rw [off_rebase hle]
    omega
  ext n
  show (n < r + 1 ∨ ∃ s ∈ k'.rcvBuf, n = r + 1 + off k'.rcvNxt s.sn)
    ↔ (n < r ∨ ∃ s ∈ k.rcvBuf, n = r + off k.rcvNxt s.sn)
  rw [hnxt, hrest, hbuf]
  constructor
  · rintro (hlt | ⟨s, hs, hn⟩)
    · -- below the new counter is the promoted number, or what was below the old one
      rcases Nat.lt_or_ge n r with hlt' | hge
      · exact Or.inl hlt'
      · refine Or.inr ⟨seg, List.mem_cons_self .., ?_⟩
        rw [hsn, off_self]
        omega
    · exact Or.inr ⟨s, List.mem_cons_of_mem _ hs, hn.trans (hcloser s hs)⟩
  · rintro (hlt | ⟨s, hs, hn⟩)
    · exact Or.inl (by omega)
    · rcases List.mem_cons.mp hs with rfl | hs
      · rw [hsn, off_self] at hn
        exact Or.inl (by omega)
      · exact Or.inr ⟨s, hs, hn.trans (hcloser s hs).symm⟩

/-- **The transfer loop** holds on to everything.  Induction on the segments of `rcv_buf`. -/
theorem moveRcvBuf_gains (buf : List IKCPSEG) :
    ∀ k : IKCPCB, k.rcvBuf = buf → Receiving k.rcvHalf k.nrcvBuf →
      Gains (fun _ => ∅) k (moveRcvBuf buf k) := by
  induction buf with
  | nil =>
    intro k hbuf h
    rw [moveRcvBuf, ← hbuf]
    exact .none rfl
  | cons seg rest ih =>
    intro k hbuf h
    rw [moveRcvBuf]
    split
    · rename_i hc
      obtain ⟨hsn, hroom⟩ := hc
      let k₁ : IKCPCB := { k with
        rcvBuf := rest
        nrcvBuf := k.nrcvBuf - 1
        rcvQueue := k.rcvQueue ++ [seg]
        nrcvQue := k.nrcvQue + 1
        rcvNxt := k.rcvNxt + 1 }
      have h₁ : Receiving k₁.rcvHalf k₁.nrcvBuf := h.promote hbuf hsn hroom
      have ht := moveRcvBuf_transferred rest k₁ rfl h₁
      obtain ⟨hhas, hmoved⟩ := ih k₁ rfl h₁
      show Gains (fun _ => ∅) k (moveRcvBuf rest k₁)
      generalize moveRcvBuf rest k₁ = k' at hhas hmoved ht
      have hfull : k'.nrcvQue ≤ k'.rcvWnd.toNat := ht.receiving.full
      have hwnd : k'.rcvWnd.toNat < 2 ^ 31 := ht.receiving.wnd
      have hone : off k.rcvNxt k₁.rcvNxt = 1 := by
        show off k.rcvNxt (k.rcvNxt + 1) = 1
        rw [off_add]
        rfl
      -- the counter moved by one here and by the rest of the loop there; the sum does not wrap,
      -- since no more enters `rcv_queue` than the window has room for
      have hoff : off k.rcvNxt k'.rcvNxt = 1 + off k₁.rcvNxt k'.rcvNxt := by
        rw [← hone]
        exact off_trans (by omega)
      have hque : k₁.nrcvQue = k.nrcvQue + 1 := rfl
      constructor
      · intro r
        have hr : r + off k.rcvNxt k'.rcvNxt = r + 1 + off k₁.rcvNxt k'.rcvNxt := by omega
        rw [hr, hhas, has_promote h hbuf hsn rfl rfl]
      · omega
    · have hk : ({ k with rcvBuf := seg :: rest } : IKCPCB) = k := by rw [← hbuf]
      rw [hk]
      exact .none rfl

/-- A segment is put in its place, unless its number is there. -/
theorem has_insert {seg : IKCPSEG} {buf : List IKCPSEG}
    (hbuf : ∀ s : IUINT32, s ∈ buf.map IKCPSEG.sn ↔ s = seg.sn ∨ s ∈ k.rcvBuf.map IKCPSEG.sn) (r n : Nat) :
    ({ k with rcvBuf := buf, nrcvBuf := n } : IKCPCB).has r = k.has r ∪ {r + off k.rcvNxt seg.sn} := by
  -- it is the residues in the buffer that count, not the segments
  have hmem : ∀ (buf : List IKCPSEG) (i : Nat), (∃ s ∈ buf, i = r + off k.rcvNxt s.sn)
      ↔ ∃ sn ∈ buf.map IKCPSEG.sn, i = r + off k.rcvNxt sn := by
    intro buf i
    constructor
    · rintro ⟨s, hs, hi⟩
      exact ⟨s.sn, List.mem_map_of_mem hs, hi⟩
    · rintro ⟨sn, hsn, hi⟩
      obtain ⟨s, hs, rfl⟩ := List.mem_map.mp hsn
      exact ⟨s, hs, hi⟩
  ext i
  show (i < r ∨ ∃ s ∈ buf, i = r + off k.rcvNxt s.sn)
    ↔ (i < r ∨ ∃ s ∈ k.rcvBuf, i = r + off k.rcvNxt s.sn) ∨ i = r + off k.rcvNxt seg.sn
  rw [hmem, hmem]
  constructor
  · rintro (hlt | ⟨sn, hsn, hi⟩)
    · exact Or.inl (Or.inl hlt)
    · rcases (hbuf sn).mp hsn with rfl | hold
      · exact Or.inr hi
      · exact Or.inl (Or.inr ⟨sn, hold, hi⟩)
  · rintro ((hlt | ⟨sn, hsn, hi⟩) | hi)
    · exact Or.inl hlt
    · exact Or.inr ⟨sn, (hbuf sn).mpr (Or.inr hsn), hi⟩
    · exact Or.inr ⟨seg.sn, (hbuf _).mpr (Or.inl rfl), hi⟩

/-- **`ikcp_parse_data`**, on a segment of the window, gains its number. -/
theorem ikcpParseData_gains (h : Receiving k.rcvHalf k.nrcvBuf) {seg : IKCPSEG}
    (hhi : itimediff seg.sn (k.rcvNxt + k.rcvWnd) < 0) (hlo : itimediff seg.sn k.rcvNxt ≥ 0) :
    Gains (fun r => {r + off k.rcvNxt seg.sn}) k (ikcpParseData k seg) := by
  rw [ikcpParseData, if_neg (by omega)]
  cases hins : insertRev seg k.rcvBuf.reverse with
  | none =>
    -- it is there already, so the union adds nothing
    obtain ⟨hhas, hmoved⟩ := moveRcvBuf_gains k.rcvBuf k rfl h
    have hmem := mem_of_insertRev_none hins
    rw [List.map_reverse, List.mem_reverse] at hmem
    refine ⟨fun r => ?_, hmoved⟩
    dsimp only
    have hthere : ∀ s : IUINT32,
        s ∈ k.rcvBuf.map IKCPSEG.sn ↔ s = seg.sn ∨ s ∈ k.rcvBuf.map IKCPSEG.sn := fun s =>
      ⟨Or.inr, fun hs => hs.elim (fun he => he ▸ hmem) id⟩
    have hsame := has_insert hthere r k.nrcvBuf
    rw [hhas, Set.union_empty, ← hsame]
  | some rev =>
    -- it is put in, and then what is in order is promoted
    let k₁ : IKCPCB := { k with rcvBuf := rev.reverse, nrcvBuf := k.nrcvBuf + 1 }
    obtain ⟨hhas, hmoved⟩ := moveRcvBuf_gains rev.reverse k₁ rfl (h.insert hhi hlo hins)
    refine ⟨fun r => ?_, hmoved⟩
    have hput : k₁.has r = k.has r ∪ {r + off k.rcvNxt seg.sn} := by
      refine has_insert (fun s => ?_) r (k.nrcvBuf + 1)
      rw [List.map_reverse, List.mem_reverse, ((insertRev_perm hins).map IKCPSEG.sn).mem_iff, List.map_cons,
        List.mem_cons, List.map_reverse, List.mem_reverse]
    rw [← hput]
    exact (hhas r).trans (Set.union_empty _)

/-- **The branch for data** gains the number, or it is out of the window or below it. -/
theorem inputData_gains (h : RcvWindowed k) (head : SegHead) (una : IUINT32) (payload : List Byte) :
    (Gains (fun _ => ∅) k (inputData k head una payload)
        ∧ (itimediff (getId k.rcvNxt head.tmpSn) (k.rcvNxt + k.rcvWnd) ≥ 0
          ∨ itimediff (getId k.rcvNxt head.tmpSn) k.rcvNxt < 0))
      ∨ (itimediff (getId k.rcvNxt head.tmpSn) k.rcvNxt ≥ 0
        ∧ Gains (fun r => {r + off k.rcvNxt (getId k.rcvNxt head.tmpSn)}) k (inputData k head una payload)) := by
  rw [inputData]
  generalize getId k.rcvNxt head.tmpSn = sn
  dsimp only
  by_cases hhi : itimediff sn (k.rcvNxt + k.rcvWnd) < 0
  · rw [if_pos hhi]
    -- pushing the acknowledgement does not touch the receiving half
    generalize hk : (if head.cmd = ikcpCmdPush ∨ k.dupack ≠ 0 then ikcpAckPush k sn head.ts else k) = k'
    have hground : k'.ground = k.ground := by
      rw [← hk]
      split
      · exact ikcpAckPush_ground ..
      · rfl
    have hhalf : k'.rcvHalf = k.rcvHalf := congrArg Ground.rcv hground
    have hnxt : k'.rcvNxt = k.rcvNxt := congrArg RcvHalf.rcvNxt hhalf
    have hwnd : k'.rcvWnd = k.rcvWnd := congrArg RcvHalf.rcvWnd hhalf
    have hque : k'.nrcvQue = k.nrcvQue := congrArg RcvHalf.nrcvQue hhalf
    split
    · rename_i hlo
      right
      rw [hnxt] at hlo
      refine ⟨hlo, ?_⟩
      let seg : IKCPSEG :=
        { conv := head.conv, cmd := head.cmd, frg := head.frg.setWidth 32,
          wnd := head.wnd.setWidth 32, ts := head.ts, sn := sn, una := una, data := payload }
      have hk' : Receiving k'.rcvHalf k'.nrcvBuf := (rcvWindowed_digest.same h hground).1
      have htop : itimediff seg.sn (k'.rcvNxt + k'.rcvWnd) < 0 := by
        rw [hnxt, hwnd]
        exact hhi
      have hbottom : itimediff seg.sn k'.rcvNxt ≥ 0 := by
        rw [hnxt]
        exact hlo
      obtain ⟨hhas, hmoved⟩ := ikcpParseData_gains hk' htop hbottom
      rw [hnxt] at hhas hmoved
      refine ⟨fun r => ?_, hque ▸ hmoved⟩
      rw [← has_congr hhalf]
      exact hhas r
    · rename_i hold
      rw [hnxt] at hold
      -- below the window: received long ago
      exact Or.inl ⟨.none hhalf, Or.inr (by omega)⟩
  · rw [if_neg hhi]
    -- beyond the window: thrown away, and not acknowledged
    exact Or.inl ⟨.none rfl, Or.inl (by omega)⟩

/-- **`pvp_ikcp_recv`** holds on to everything: what it hands out was promoted. -/
theorem pvpIkcpRecv_has (h : RcvWindowed k) (len : Int) (r : Nat) :
    (pvpIkcpRecv k len).2.has (r + off k.rcvNxt (pvpIkcpRecv k len).2.rcvNxt) = k.has r := by
  have hsame : k.has (r + off k.rcvNxt k.rcvNxt) = k.has r := by rw [off_self, Nat.add_zero]
  obtain ⟨hrest, hn⟩ := mergeFragments_drop k.rcvQueue
  have htaken := h.1.drop hn
  rw [← hrest] at htaken
  -- whatever was taken off `rcv_queue`, the transfer loop after it holds on to everything
  have hmove : ∀ k' : IKCPCB, Receiving k'.rcvHalf k'.nrcvBuf → k'.rcvBuf = k.rcvBuf → k'.rcvNxt = k.rcvNxt →
      (moveRcvBuf k'.rcvBuf k').has (r + off k.rcvNxt (moveRcvBuf k'.rcvBuf k').rcvNxt) = k.has r := by
    intro k' h' hbuf hnxt
    have hgains := (moveRcvBuf_gains k'.rcvBuf k' rfl h').has r
    rw [hnxt, Set.union_empty] at hgains
    rw [hgains, IKCPCB.has, IKCPCB.has, hbuf, hnxt]
  unfold pvpIkcpRecv
  split
  · exact hsame
  dsimp only
  split
  · exact hsame
  split
  · exact hsame
  · -- looking at a message, or taking it off; then the window is told of, or not
    by_cases hpeek : len < 0
    · rw [if_pos hpeek]
      split
      · exact hmove k h.1 rfl rfl
      · exact hmove k h.1 rfl rfl
    · rw [if_neg hpeek]
      split
      · exact hmove _ htaken rfl rfl
      · exact hmove _ htaken rfl rfl

/-- **One segment of a datagram**: data of the window is taken in, and nothing is let go.  What the
    segment says of the other direction, its window and `una`, changes nothing here. -/
theorem inputSeg_gains {st : InputSt} (h : RcvWindowed st.kcp) (head : SegHead) (payload : List Byte) :
    (Gains (fun _ => ∅) st.kcp (inputSeg st head payload).kcp
        ∧ (head.cmd = ikcpCmdPush ∨ head.cmd = ikcpCmdDups →
          itimediff (getId st.kcp.rcvNxt head.tmpSn) (st.kcp.rcvNxt + st.kcp.rcvWnd) ≥ 0
            ∨ itimediff (getId st.kcp.rcvNxt head.tmpSn) st.kcp.rcvNxt < 0))
      ∨ ((head.cmd = ikcpCmdPush ∨ head.cmd = ikcpCmdDups)
        ∧ itimediff (getId st.kcp.rcvNxt head.tmpSn) st.kcp.rcvNxt ≥ 0
        ∧ Gains (fun r => {r + off st.kcp.rcvNxt (getId st.kcp.rcvNxt head.tmpSn)}) st.kcp
          (inputSeg st head payload).kcp) := by
  have hsettled := settled_una st.kcp head.wnd (getId st.kcp.sndNxt head.tmpUna)
  rw [inputSeg]
  dsimp only
  generalize ikcpShrinkBuf (ikcpParseUna { st.kcp with rmtWnd := head.wnd.setWidth 32 }
    (getId st.kcp.sndNxt head.tmpUna)) = k at hsettled
  have hhalf : k.rcvHalf = st.kcp.rcvHalf := congrArg Ground.rcv hsettled.rest
  split
  · rename_i hack
    left
    refine ⟨?_, fun hdata => ?_⟩
    · have hk : ∀ sn, Gains (fun _ => ∅) st.kcp (ikcpShrinkBuf (ikcpParseAck k sn)) := fun sn =>
        .none ((congrArg Ground.rcv (ikcpParseAck_forgot k sn).settled.rest).trans hhalf)
      split <;> exact hk _
    · rw [hack] at hdata
      exact absurd hdata (by decide)
  split
  · rename_i hdata
    have hk : RcvWindowed k := rcvWindowed_digest.settle h hsettled
    have hnxt : k.rcvNxt = st.kcp.rcvNxt := congrArg RcvHalf.rcvNxt hhalf
    have hwnd : k.rcvWnd = st.kcp.rcvWnd := congrArg RcvHalf.rcvWnd hhalf
    have hque : k.nrcvQue = st.kcp.nrcvQue := congrArg RcvHalf.nrcvQue hhalf
    -- from the block with `una` settled back to the one before
    have hfrom : ∀ {items : Nat → Set Nat} {k' : IKCPCB}, Gains items k k' → Gains items st.kcp k' := by
      rintro items k' ⟨hhas, hmoved⟩
      constructor
      · intro r
        rw [← hnxt, hhas, has_congr hhalf]
      · rw [← hnxt, ← hque]
        exact hmoved
    have hbranch := inputData_gains hk head (getId st.kcp.sndNxt head.tmpUna) payload
    rw [hnxt, hwnd] at hbranch
    rcases hbranch with ⟨hgains, hout⟩ | ⟨hlo, hgains⟩
    · exact Or.inl ⟨hfrom hgains, fun _ => hout⟩
    · exact Or.inr ⟨hdata, hlo, hfrom hgains⟩
  · rename_i hdata
    left
    refine ⟨?_, fun hd => absurd hd hdata⟩
    split <;> exact .none hhalf

end Receiving

/-! ## Letting go -/

/-- `snd_buf` lost no number but some of `gone`. -/
structure LetsGo (gone : IUINT32 → Prop) (k k' : IKCPCB) : Prop where
  sub : (k'.sndBuf.map IKCPSEG.sn).Sublist (k.sndBuf.map IKCPSEG.sn)
  stays : ∀ sn ∈ k.sndBuf.map IKCPSEG.sn, gone sn ∨ sn ∈ k'.sndBuf.map IKCPSEG.sn
  nxt : k'.sndNxt = k.sndNxt

section Letting

variable {gone : IUINT32 → Prop} {k k' k'' : IKCPCB}

/-- Nothing is let go where the numbers in `snd_buf` stay. -/
theorem LetsGo.of_eq (hbuf : k'.sndBuf.map IKCPSEG.sn = k.sndBuf.map IKCPSEG.sn)
    (hnxt : k'.sndNxt = k.sndNxt) : LetsGo gone k k' := by
  refine ⟨?_, fun sn hsn => Or.inr ?_, hnxt⟩
  · rw [hbuf]
  · rw [hbuf]
    exact hsn

theorem LetsGo.trans (h : LetsGo gone k k') (h' : LetsGo gone k' k'') : LetsGo gone k k'' := by
  refine ⟨h'.sub.trans h.sub, fun sn hsn => ?_, h'.nxt.trans h.nxt⟩
  rcases h.stays sn hsn with hgone | hstill
  · exact Or.inl hgone
  · exact h'.stays sn hstill

theorem LetsGo.mono {gone' : IUINT32 → Prop} (h : LetsGo gone k k') (hle : ∀ sn, gone sn → gone' sn) :
    LetsGo gone' k k' :=
  ⟨h.sub, fun sn hsn => (h.stays sn hsn).imp_left (hle sn), h.nxt⟩

/-- **`ikcp_parse_una`** lets go of what is below `una`.  Recursion on the segments of `snd_buf`. -/
theorem parseUnaLoop_letsGo (una : IUINT32) (buf : List IKCPSEG) (k : IKCPCB) (hbuf : k.sndBuf = buf) :
    LetsGo (fun sn => itimediff una sn > 0) k (parseUnaLoop una buf k) := by
  induction buf generalizing k with
  | nil =>
    rw [parseUnaLoop, ← hbuf]
    exact .of_eq rfl rfl
  | cons seg rest ih =>
    rw [parseUnaLoop]
    split
    · -- the head is below `una`, and the loop goes on
      rename_i hbelow
      obtain ⟨_, _, _, _, hset⟩ := ackRtt_eq k seg
      refine LetsGo.trans ?_ (ih _ rfl)
      rw [hset]
      constructor
      · rw [hbuf]
        exact List.sublist_cons_self ..
      · intro sn hsn
        rw [hbuf, List.map_cons] at hsn
        rcases List.mem_cons.mp hsn with rfl | hsn
        · exact Or.inl hbelow
        · exact Or.inr hsn
      · rfl
    · rw [← hbuf]
      exact .of_eq rfl rfl

/-- The search finds the number, and leaves the others. -/
theorem findAck_others {sn : IUINT32} {buf rest : List IKCPSEG} {seg : IKCPSEG}
    (h : findAck sn buf = some (seg, rest)) :
    ∀ n ∈ buf.map IKCPSEG.sn, n = sn ∨ n ∈ rest.map IKCPSEG.sn := by
  induction buf generalizing seg rest with
  | nil => cases h
  | cons s buf ih =>
    intro n hn
    rw [findAck] at h
    split at h
    · rename_i hsn
      cases h
      rcases List.mem_cons.mp hn with rfl | hn
      · exact Or.inl hsn.symm
      · exact Or.inr hn
    split at h
    · cases h
    · obtain ⟨⟨seg', rest'⟩, hrec, he⟩ := Option.map_eq_some_iff.mp h
      cases he
      rcases List.mem_cons.mp hn with rfl | hn
      · exact Or.inr (List.mem_cons_self ..)
      · exact (ih hrec n hn).imp_right (List.mem_cons_of_mem _)

/-- **`ikcp_parse_ack`** lets go of one number. -/
theorem ikcpParseAck_letsGo (k : IKCPCB) (sn : IUINT32) : LetsGo (fun n => n = sn) k (ikcpParseAck k sn) := by
  rw [ikcpParseAck]
  split
  · exact .of_eq rfl rfl
  split
  · exact .of_eq rfl rfl
  · rename_i seg rest hfound
    obtain ⟨_, _, _, _, hset⟩ := ackRtt_eq k seg
    rw [hset]
    exact ⟨(findAck_sublist sn _ _ _ hfound).map _, findAck_others hfound, rfl⟩

/-- Setting `snd_una` to the head of `snd_buf` lets go of nothing. -/
theorem ikcpShrinkBuf_letsGo (k : IKCPCB) : LetsGo gone k (ikcpShrinkBuf k) := by
  obtain ⟨_, hset⟩ := ikcpShrinkBuf_eq k
  rw [hset]
  exact .of_eq rfl rfl

/-- What every segment does: it tells of the window and of `una`. -/
def afterUna (st : InputSt) (head : SegHead) : IKCPCB :=
  ikcpShrinkBuf (ikcpParseUna { st.kcp with rmtWnd := head.wnd.setWidth 32 } (getId st.kcp.sndNxt head.tmpUna))

theorem afterUna_letsGo (st : InputSt) (head : SegHead) :
    LetsGo (fun sn => itimediff (getId st.kcp.sndNxt head.tmpUna) sn > 0) st.kcp (afterUna st head) := by
  have hwnd : LetsGo (fun sn => itimediff (getId st.kcp.sndNxt head.tmpUna) sn > 0) st.kcp
      { st.kcp with rmtWnd := head.wnd.setWidth 32 } := .of_eq rfl rfl
  exact (hwnd.trans (parseUnaLoop_letsGo _ st.kcp.sndBuf _ rfl)).trans (ikcpShrinkBuf_letsGo _)

/-- What comes behind it: an acknowledgement lets go of the number it is for, and nothing else lets
    go of any. -/
theorem inputSeg_afterUna (st : InputSt) (head : SegHead) (payload : List Byte) :
    LetsGo (fun sn => head.cmd = ikcpCmdAck ∧ sn = getId st.kcp.sndNxt head.tmpSn) (afterUna st head)
      (inputSeg st head payload).kcp := by
  have hnxt := (afterUna_letsGo st head).nxt
  unfold inputSeg
  dsimp only
  rw [afterUna] at hnxt ⊢
  generalize ikcpShrinkBuf (ikcpParseUna _ _) = k at hnxt ⊢
  split
  · rename_i hack
    have hone : LetsGo (fun sn => head.cmd = ikcpCmdAck ∧ sn = getId st.kcp.sndNxt head.tmpSn) k
        (ikcpShrinkBuf (ikcpParseAck k (getId k.sndNxt head.tmpSn))) := by
      refine LetsGo.trans ((ikcpParseAck_letsGo k _).mono fun sn h => ?_) (ikcpShrinkBuf_letsGo _)
      exact ⟨hack, hnxt ▸ h⟩
    split
    · exact hone
    · exact hone
  split
  · obtain ⟨_, _, _, _, _, _, _, _, hset⟩ := inputData_eq k head (getId st.kcp.sndNxt head.tmpUna) payload
    rw [hset]
    exact .of_eq rfl rfl
  split
  · exact .of_eq rfl rfl
  · exact .of_eq rfl rfl

/-- **One segment of a datagram** lets go of what is below its `una`, and of the number it
    acknowledges. -/
theorem inputSeg_letsGo (st : InputSt) (head : SegHead) (payload : List Byte) :
    LetsGo (fun sn => itimediff (getId st.kcp.sndNxt head.tmpUna) sn > 0
        ∨ head.cmd = ikcpCmdAck ∧ sn = getId st.kcp.sndNxt head.tmpSn)
      st.kcp (inputSeg st head payload).kcp :=
  ((afterUna_letsGo st head).mono fun _ h => Or.inl h).trans
    ((inputSeg_afterUna st head payload).mono fun _ h => Or.inr h)

end Letting

end ConnClient.Ikcp
