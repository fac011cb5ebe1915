/-
  The receiving window.

  Numbers come in 16 bits, from anyone, and are rebuilt from `rcv_nxt`, which moves.  What a block keeps
  of them is in order all the same: `rcv_buf` holds ascending numbers of the window from `rcv_nxt` up,
  `rcv_queue` the numbers right below `rcv_nxt`, and between the two no segment is left behind that
  could have been promoted (`Receiving`, `Promoted`).

  Segments are promoted in two places, by one loop; what it does is said once (`moveRcvBuf_transferred`).
  An acknowledgement is pushed before its segment is looked at, so whether it tells the truth is to be
  seen after the whole segment: its number is in `rcv_buf`, or below `rcv_nxt` (`Held`).

  The comparisons of the source are signed differences, so they are an order only on numbers less than
  half the modulus apart.  The invariant keeps all that `rcv_buf` holds within one window of `rcv_nxt`, and
  the window below `2 ^ 31`; the offsets from `rcv_nxt` are then compared as natural numbers.
-/
import ConnClient.Lib.Window
import ConnClient.Ikcp.Desk
import ConnClient.Ikcp.Datagrams

namespace ConnClient.Ikcp

open ConnClient.Lib

/-! ## The receiving end -/

/-- The numbers of a receiving half, and its counters.  `queue` counts from the back: the last
    segment of `rcv_queue` is the one right below `rcv_nxt`. -/
structure Receiving (h : RcvHalf) (nrcvBuf : Nat) : Prop where
  wnd : h.rcvWnd.toNat < 2 ^ 31
  buf : Ascending h.rcvNxt (h.rcvNxt + h.rcvWnd) (h.rcvBuf.map IKCPSEG.sn)
  queue : ∀ i seg, h.rcvQueue[i]? = some seg →
    seg.sn = h.rcvNxt - BitVec.ofNat 32 (h.rcvQueue.length - i)
  nrcvQue : h.nrcvQue = h.rcvQueue.length
  full : h.nrcvQue ≤ h.rcvWnd.toNat
  nrcvBuf : nrcvBuf = h.rcvBuf.length

/-- Nothing waits in `rcv_buf` that could be promoted: if its first segment is the next one, then
    `rcv_queue` is full. -/
def Promoted (h : RcvHalf) : Prop :=
  h.rcvBuf.head?.map IKCPSEG.sn = some h.rcvNxt → h.nrcvQue = h.rcvWnd.toNat

/-- `sn` was received: it was promoted, or waits in `rcv_buf`. -/
def Held (sn : IUINT32) (k : IKCPCB) : Prop :=
  itimediff sn k.rcvNxt < 0 ∨ sn ∈ k.rcvBuf.map IKCPSEG.sn

/-! ## Promotion -/

/-- What lies in `rcv_buf` behind the segment that is next is behind its number. -/
theorem Receiving.behind {k : IKCPCB} (h : Receiving k.rcvHalf k.nrcvBuf) {seg : IKCPSEG}
    {rest : List IKCPSEG} (hbuf : k.rcvBuf = seg :: rest) (hsn : seg.sn = k.rcvNxt) :
    Ascending k.rcvNxt (k.rcvNxt + k.rcvWnd) (rest.map IKCPSEG.sn) ∧
      ∀ n ∈ rest.map IKCPSEG.sn, off k.rcvNxt (k.rcvNxt + 1) ≤ off k.rcvNxt n := by
  have hasc : Ascending k.rcvNxt (k.rcvNxt + k.rcvWnd) (k.rcvBuf.map IKCPSEG.sn) := h.buf
  rw [hbuf, List.map_cons, hsn] at hasc
  have hone : off k.rcvNxt (k.rcvNxt + 1) = 1 := by
    rw [off_add]
    rfl
  refine ⟨hasc.sublist (List.sublist_cons_self _ _), ?_⟩
  intro n hn
  have hlt := (List.pairwise_cons.mp hasc.sorted).1 n hn
  rw [off_self] at hlt
  omega

/-- The first segment is promoted: it leaves `rcv_buf` for the end of `rcv_queue`, and `rcv_nxt`
    moves on by one, which every other number is now counted from. -/
theorem Receiving.promote {k : IKCPCB} (h : Receiving k.rcvHalf k.nrcvBuf) {seg : IKCPSEG}
    {rest : List IKCPSEG} (hbuf : k.rcvBuf = seg :: rest) (hsn : seg.sn = k.rcvNxt)
    (hroom : k.nrcvQue < k.rcvWnd.toNat) :
    Receiving ⟨k.rcvNxt + 1, k.rcvWnd, k.nrcvQue + 1, k.rcvQueue ++ [seg], rest⟩ (k.nrcvBuf - 1) := by
  have hwnd : k.rcvWnd.toNat < 2 ^ 31 := h.wnd
  obtain ⟨hasc, hbehind⟩ := h.behind hbuf hsn
  have hone : off k.rcvNxt (k.rcvNxt + 1) = 1 := by
    rw [off_add]
    rfl
  have hend : off k.rcvNxt (k.rcvNxt + k.rcvWnd) = k.rcvWnd.toNat := off_add ..
  have hque : k.nrcvQue = k.rcvQueue.length := h.nrcvQue
  constructor
  · exact hwnd
  · -- what is behind the first number is behind the new base, and the window reaches one further
    have hrest : Ascending (k.rcvNxt + 1) (k.rcvNxt + k.rcvWnd) (rest.map IKCPSEG.sn) :=
      hasc.rebase (by omega) hbehind
    refine hrest.widen ?_
    show off (k.rcvNxt + 1) (k.rcvNxt + k.rcvWnd) ≤ off (k.rcvNxt + 1) (k.rcvNxt + 1 + k.rcvWnd)
    rw [off_add, off_rebase (by omega : off k.rcvNxt (k.rcvNxt + 1) ≤ _)]
    omega
  · -- the numbers in the queue are counted from `rcv_nxt` down, so each is one further from it
    intro i s hs
    have hs : (k.rcvQueue ++ [seg])[i]? = some s := hs
    show s.sn = k.rcvNxt + 1 - BitVec.ofNat 32 ((k.rcvQueue ++ [seg]).length - i)
    rw [List.length_append, List.length_singleton]
    rcases Nat.lt_or_ge i k.rcvQueue.length with hi | hi
    · rw [List.getElem?_append_left hi] at hs
      have hold : s.sn = k.rcvNxt - BitVec.ofNat 32 (k.rcvQueue.length - i) := h.queue i s hs
      have hsub : k.rcvQueue.length + 1 - i = k.rcvQueue.length - i + 1 := by omega
      rw [hold, hsub, BitVec.ofNat_add]
      show _ = k.rcvNxt + 1 - (_ + 1)
      ring
    · rw [List.getElem?_append_right hi] at hs
      obtain ⟨hlt, he⟩ := List.getElem?_eq_some_iff.mp hs
      rw [List.length_singleton] at hlt
      have hi : i = k.rcvQueue.length := by omega
      have he : seg = s := by
        rw [← he]
        simp
      rw [← he, hsn, hi, Nat.add_sub_cancel_left]
      show _ = k.rcvNxt + 1 - 1
      ring
  · show k.nrcvQue + 1 = (k.rcvQueue ++ [seg]).length
    rw [List.length_append, hque, List.length_singleton]
  · exact hroom
  · have hcount : k.nrcvBuf = k.rcvBuf.length := h.nrcvBuf
    show k.nrcvBuf - 1 = rest.length
    rw [hcount, hbuf]
    rfl

/-- What the transfer loop does, seen from the block `k` it starts with.  `moved` says that
    `rcv_nxt` moves by what enters `rcv_queue`, and `held` that no segment is dropped on the way. -/
structure Transferred (k k' : IKCPCB) : Prop where
  receiving : Receiving k'.rcvHalf k'.nrcvBuf
  promoted : Promoted k'.rcvHalf
  moved : off k.rcvNxt k'.rcvNxt + k.nrcvQue = k'.nrcvQue
  wnd : k'.rcvWnd = k.rcvWnd
  held : ∀ seg ∈ k.rcvBuf, seg ∈ k'.rcvBuf ∨ off k.rcvNxt seg.sn < off k.rcvNxt k'.rcvNxt

/-- **The transfer loop.**  Induction on the segments of `rcv_buf`. -/
theorem moveRcvBuf_transferred (buf : List IKCPSEG) :
    ∀ k : IKCPCB, k.rcvBuf = buf → Receiving k.rcvHalf k.nrcvBuf →
      Transferred k (moveRcvBuf buf k) := by
  induction buf with
  | nil =>
    intro k hbuf h
    have hk : moveRcvBuf [] k = k := by rw [moveRcvBuf, ← hbuf]
    rw [hk]
    refine ⟨h, ?_, ?_, rfl, fun seg hs => Or.inl hs⟩
    · intro hhead
      have hhead : k.rcvBuf.head?.map IKCPSEG.sn = some k.rcvNxt := hhead
      rw [hbuf] at hhead
      cases hhead
    · rw [off_self, Nat.zero_add]
  | cons seg rest ih =>
    intro k hbuf h
    rw [moveRcvBuf]
    split
    · -- Promoted: the claim for the rest, counted from the number behind.
      rename_i hc
      obtain ⟨hsn, hroom⟩ := hc
      obtain ⟨h1, h2, h3, h4, h5⟩ := ih
        { k with
          rcvBuf := rest
          nrcvBuf := k.nrcvBuf - 1
          rcvQueue := k.rcvQueue ++ [seg]
          nrcvQue := k.nrcvQue + 1
          rcvNxt := k.rcvNxt + 1 } rfl (h.promote hbuf hsn hroom)
      generalize moveRcvBuf rest _ = k' at h1 h2 h3 h4 h5
      dsimp only at h3 h4 h5
      have hwnd : k.rcvWnd.toNat < 2 ^ 31 := h.wnd
      have hfull : k'.nrcvQue ≤ k'.rcvWnd.toNat := h1.full
      rw [h4] at hfull
      have hone : off k.rcvNxt (k.rcvNxt + 1) = 1 := by
        rw [off_add]
        rfl
      have hoff : off k.rcvNxt k'.rcvNxt = 1 + off (k.rcvNxt + 1) k'.rcvNxt := by
        rw [← hone]
        exact off_trans (by omega)
      refine ⟨h1, h2, by omega, h4, fun s hs => ?_⟩
      rw [hbuf] at hs
      rcases List.mem_cons.mp hs with rfl | hs
      · right
        rw [hsn, off_self]
        omega
      · rcases h5 s hs with hs' | hlt
        · exact Or.inl hs'
        · -- the number is behind the one that was promoted
          have hpos := (h.behind hbuf hsn).2 s.sn (List.mem_map_of_mem hs)
          rw [off_rebase hpos] at hlt
          right
          omega
    · -- The loop ends: the first segment is not the next one, or `rcv_queue` is full.
      rename_i hc
      have hk : ({ k with rcvBuf := seg :: rest } : IKCPCB) = k := by rw [← hbuf]
      rw [hk]
      refine ⟨h, ?_, ?_, rfl, fun s hs => Or.inl hs⟩
      · intro hhead
        have hhead : k.rcvBuf.head?.map IKCPSEG.sn = some k.rcvNxt := hhead
        rw [hbuf] at hhead
        have hsn : seg.sn = k.rcvNxt := Option.some.inj hhead
        have hfull : k.nrcvQue ≤ k.rcvWnd.toNat := h.full
        show k.nrcvQue = k.rcvWnd.toNat
        have hnot : ¬ k.nrcvQue < k.rcvWnd.toNat := fun hlt => hc ⟨hsn, hlt⟩
        omega
      · rw [off_self, Nat.zero_add]

/-- What was in `rcv_buf` is held. -/
theorem Transferred.held_of_mem {k k' : IKCPCB} (h : Transferred k k')
    (hasc : Ascending k.rcvNxt (k.rcvNxt + k.rcvWnd) (k.rcvBuf.map IKCPSEG.sn)) {seg : IKCPSEG}
    (hs : seg ∈ k.rcvBuf) : Held seg.sn k' := by
  have hwnd : k'.rcvWnd.toNat < 2 ^ 31 := h.receiving.wnd
  have hfull : k'.nrcvQue ≤ k'.rcvWnd.toNat := h.receiving.full
  have hmoved := h.moved
  have hlt := hasc.below seg.sn (List.mem_map_of_mem hs)
  rw [off_add, ← h.wnd] at hlt
  -- still in `rcv_buf`, or passed by `rcv_nxt`
  rcases h.held seg hs with hs' | hlt'
  · exact Or.inr (List.mem_map_of_mem hs')
  · left
    rw [itimediff, sdiff_off k.rcvNxt (by omega) (by omega)]
    omega

/-! ## Insertion -/

/-- A segment that is dropped is there already.  Induction on the buffer, from its end. -/
theorem mem_of_insertRev_none {newseg : IKCPSEG} {rs : List IKCPSEG}
    (h : insertRev newseg rs = none) : newseg.sn ∈ rs.map IKCPSEG.sn := by
  induction rs with
  | nil => cases h
  | cons seg before ih =>
    rw [insertRev] at h
    rw [List.map_cons]
    split at h
    · rename_i heq
      rw [heq]
      exact List.mem_cons_self ..
    · split at h
      · cases h
      · exact List.mem_cons_of_mem _ (ih (Option.map_eq_none_iff.mp h))

/-- The others stay when a segment is put among them. -/
theorem insertRev_perm {newseg : IKCPSEG} {rs rs' : List IKCPSEG}
    (h : insertRev newseg rs = some rs') : rs'.Perm (newseg :: rs) := by
  induction rs generalizing rs' with
  | nil =>
    cases h
    exact List.Perm.refl _
  | cons seg before ih =>
    rw [insertRev] at h
    split at h
    · cases h
    · split at h
      · cases h
        exact List.Perm.refl _
      · obtain ⟨before', hrec, rfl⟩ := Option.map_eq_some_iff.mp h
        exact ((ih hrec).cons seg).trans (List.Perm.swap newseg seg before)

/-- **The scan finds the place of a segment.**  Offsets of less than half the modulus are compared as
    they are, so a segment lands before the larger numbers and behind the smaller ones. -/
theorem insertRev_descending {lo : IUINT32} {newseg : IKCPSEG}
    (hnew : 2 * off lo newseg.sn < 2 ^ 32) {rs rs' : List IKCPSEG}
    (hrs : ∀ s ∈ rs, 2 * off lo s.sn < 2 ^ 32)
    (hdesc : rs.Pairwise fun a b => off lo b.sn < off lo a.sn)
    (h : insertRev newseg rs = some rs') : rs'.Pairwise fun a b => off lo b.sn < off lo a.sn := by
  induction rs generalizing rs' with
  | nil =>
    cases h
    exact List.pairwise_singleton _ _
  | cons seg before ih =>
    have hseg := hrs seg (List.mem_cons_self ..)
    obtain ⟨hbelow, hbefore⟩ := List.pairwise_cons.mp hdesc
    rw [insertRev] at h
    split at h
    · cases h
    rename_i hne
    -- both offsets are below half the modulus, so the signed difference is theirs
    have hdiff : itimediff newseg.sn seg.sn = (off lo newseg.sn : Int) - off lo seg.sn :=
      sdiff_off lo hnew hseg
    split at h
    · -- Larger than the largest: it goes at this end.
      rename_i hgt
      cases h
      refine List.pairwise_cons.mpr ⟨?_, hdesc⟩
      intro s hs
      rcases List.mem_cons.mp hs with rfl | hs
      · omega
      · have hlt := hbelow s hs
        omega
    · -- Smaller: the scan goes on, and all that it puts in stays below `seg`.
      rename_i hle
      obtain ⟨before', hrec, rfl⟩ := Option.map_eq_some_iff.mp h
      refine List.pairwise_cons.mpr ⟨?_, ih (fun s hs => hrs s (List.mem_cons_of_mem _ hs)) hbefore hrec⟩
      intro s hs
      rcases List.mem_cons.mp ((insertRev_perm hrec).mem_iff.mp hs) with rfl | hs
      · have hne' : off lo s.sn ≠ off lo seg.sn := fun he => hne (eq_of_off he).symm
        omega
      · exact hbelow s hs

/-- What `ikcp_parse_data` leaves of a segment of the window. -/
structure TookIn (sn : IUINT32) (k' : IKCPCB) : Prop where
  receiving : Receiving k'.rcvHalf k'.nrcvBuf
  promoted : Promoted k'.rcvHalf
  held : Held sn k'

/-- What was in `rcv_buf` before the transfer is taken in after it. -/
theorem Transferred.tookIn {k k' : IKCPCB} (h : Transferred k k')
    (hasc : Ascending k.rcvNxt (k.rcvNxt + k.rcvWnd) (k.rcvBuf.map IKCPSEG.sn)) {sn : IUINT32}
    (hsn : sn ∈ k.rcvBuf.map IKCPSEG.sn) : TookIn sn k' := by
  obtain ⟨seg, hs, rfl⟩ := List.mem_map.mp hsn
  exact ⟨h.receiving, h.promoted, h.held_of_mem hasc hs⟩

/-- A segment of the window is put in its place.  The two tests of the source, not beyond the window
    and not below `rcv_nxt`, are what keeps `rcv_buf` ascending. -/
theorem Receiving.insert {k : IKCPCB} (h : Receiving k.rcvHalf k.nrcvBuf) {seg : IKCPSEG}
    (hhi : itimediff seg.sn (k.rcvNxt + k.rcvWnd) < 0) (hlo : itimediff seg.sn k.rcvNxt ≥ 0)
    {rev : List IKCPSEG} (hins : insertRev seg k.rcvBuf.reverse = some rev) :
    Receiving { k.rcvHalf with rcvBuf := rev.reverse } (k.nrcvBuf + 1) := by
  have hwnd : k.rcvWnd.toNat < 2 ^ 31 := h.wnd
  have hend : off k.rcvNxt (k.rcvNxt + k.rcvWnd) = k.rcvWnd.toNat := off_add ..
  have hasc : Ascending k.rcvNxt (k.rcvNxt + k.rcvWnd) (k.rcvBuf.map IKCPSEG.sn) := h.buf
  -- both tests together: the offset is below the window's size
  have hhalf : 2 * off k.rcvNxt seg.sn < 2 ^ 32 := sdiff_nonneg_iff.mp hlo
  have hlt : off k.rcvNxt seg.sn < k.rcvWnd.toNat := by
    rw [itimediff, sdiff_off k.rcvNxt hhalf (by omega), hend] at hhi
    omega
  have hperm := insertRev_perm hins
  have hsmall : ∀ s ∈ k.rcvBuf.reverse, 2 * off k.rcvNxt s.sn < 2 ^ 32 := by
    intro s hs
    have hbelow := hasc.below s.sn (List.mem_map_of_mem (List.mem_reverse.mp hs))
    omega
  have hsorted : k.rcvBuf.Pairwise fun a b => off k.rcvNxt a.sn < off k.rcvNxt b.sn :=
    (List.pairwise_map (R := fun a b => off k.rcvNxt a < off k.rcvNxt b)).mp hasc.sorted
  have hdesc := insertRev_descending hhalf hsmall (List.pairwise_reverse.mpr hsorted) hins
  have hasc' : Ascending k.rcvNxt (k.rcvNxt + k.rcvWnd) (rev.reverse.map IKCPSEG.sn) := by
    constructor
    · exact List.pairwise_map.mpr (List.pairwise_reverse.mpr hdesc)
    · intro n hn
      obtain ⟨s, hs, rfl⟩ := List.mem_map.mp hn
      rcases List.mem_cons.mp (hperm.mem_iff.mp (List.mem_reverse.mp hs)) with rfl | hs
      · omega
      · exact hasc.below s.sn (List.mem_map_of_mem (List.mem_reverse.mp hs))
  have hcount : k.nrcvBuf + 1 = rev.reverse.length := by
    have hold : k.nrcvBuf = k.rcvBuf.length := h.nrcvBuf
    rw [List.length_reverse, hperm.length_eq, List.length_cons, List.length_reverse, hold]
  exact ⟨hwnd, hasc', h.queue, h.nrcvQue, h.full, hcount⟩

/-- **`ikcp_parse_data`**, on a segment of the window. -/
theorem ikcpParseData_tookIn {k : IKCPCB} (h : Receiving k.rcvHalf k.nrcvBuf) {seg : IKCPSEG}
    {sn : IUINT32} (hsn : seg.sn = sn) (hhi : itimediff sn (k.rcvNxt + k.rcvWnd) < 0)
    (hlo : itimediff sn k.rcvNxt ≥ 0) : TookIn sn (ikcpParseData k seg) := by
  subst hsn
  have hasc : Ascending k.rcvNxt (k.rcvNxt + k.rcvWnd) (k.rcvBuf.map IKCPSEG.sn) := h.buf
  rw [ikcpParseData, if_neg (by omega)]
  cases hins : insertRev seg k.rcvBuf.reverse with
  -- a number that is there already: the segment is dropped, and the loop runs all the same
  | none =>
    have hmem := mem_of_insertRev_none hins
    rw [List.map_reverse, List.mem_reverse] at hmem
    exact (moveRcvBuf_transferred k.rcvBuf k rfl h).tookIn hasc hmem
  -- a new one: it is put in, and promoted if it is next
  | some rev =>
    have hput := h.insert hhi hlo hins
    have hmem : seg.sn ∈ rev.reverse.map IKCPSEG.sn := List.mem_map_of_mem
      (List.mem_reverse.mpr ((insertRev_perm hins).mem_iff.mpr (List.mem_cons_self ..)))
    exact (moveRcvBuf_transferred rev.reverse
      { k with rcvBuf := rev.reverse, nrcvBuf := k.nrcvBuf + 1 } rfl hput).tookIn hput.buf hmem

/-! ## Messages handed out -/

/-- The merge loop takes fragments off the front. -/
theorem mergeFragments_drop (queue : List IKCPSEG) :
    (mergeFragments queue).2.1 = queue.drop (mergeFragments queue).2.2
      ∧ (mergeFragments queue).2.2 ≤ queue.length := by
  induction queue with
  | nil => exact ⟨rfl, Nat.le_refl _⟩
  | cons seg rest ih =>
    rw [mergeFragments]
    split
    · exact ⟨rfl, Nat.succ_le_succ (Nat.zero_le _)⟩
    · exact ⟨ih.1, Nat.succ_le_succ ih.2⟩

/-- The front of `rcv_queue` may be taken. -/
theorem Receiving.drop {k : IKCPCB} (h : Receiving k.rcvHalf k.nrcvBuf) {n : Nat}
    (hn : n ≤ k.rcvQueue.length) :
    Receiving ⟨k.rcvNxt, k.rcvWnd, k.nrcvQue - n, k.rcvQueue.drop n, k.rcvBuf⟩ k.nrcvBuf := by
  have hque : k.nrcvQue = k.rcvQueue.length := h.nrcvQue
  have hfull : k.nrcvQue ≤ k.rcvWnd.toNat := h.full
  refine ⟨h.wnd, h.buf, ?_, ?_, ?_, h.nrcvBuf⟩
  · intro i seg hs
    have hs : (k.rcvQueue.drop n)[i]? = some seg := hs
    rw [List.getElem?_drop] at hs
    have hsn : seg.sn = k.rcvNxt - BitVec.ofNat 32 (k.rcvQueue.length - (n + i)) := h.queue _ seg hs
    show seg.sn = k.rcvNxt - BitVec.ofNat 32 ((k.rcvQueue.drop n).length - i)
    rw [hsn, List.length_drop, Nat.sub_sub]
  · show k.nrcvQue - n = (k.rcvQueue.drop n).length
    rw [List.length_drop, hque]
  · show k.nrcvQue - n ≤ k.rcvWnd.toNat
    omega

theorem pvpIkcpRecv_receiving {k : IKCPCB} (h : Receiving k.rcvHalf k.nrcvBuf)
    (hp : Promoted k.rcvHalf) (len : Int) :
    Receiving (pvpIkcpRecv k len).2.rcvHalf (pvpIkcpRecv k len).2.nrcvBuf
      ∧ Promoted (pvpIkcpRecv k len).2.rcvHalf := by
  have hmove : ∀ k : IKCPCB, Receiving k.rcvHalf k.nrcvBuf →
      Receiving (moveRcvBuf k.rcvBuf k).rcvHalf (moveRcvBuf k.rcvBuf k).nrcvBuf
        ∧ Promoted (moveRcvBuf k.rcvBuf k).rcvHalf := by
    intro k h
    have ht := moveRcvBuf_transferred k.rcvBuf k rfl h
    exact ⟨ht.receiving, ht.promoted⟩
  obtain ⟨hrest, hn⟩ := mergeFragments_drop k.rcvQueue
  have htaken := h.drop hn
  rw [← hrest] at htaken
  unfold pvpIkcpRecv
  split
  · exact ⟨h, hp⟩
  dsimp only
  split
  · exact ⟨h, hp⟩
  split
  · exact ⟨h, hp⟩
  · -- A negative length only peeks; either way the transfer loop runs at the end.
    by_cases hpeek : len < 0
    · rw [if_pos hpeek]
      split <;> exact hmove k h
    · rw [if_neg hpeek]
      split <;> exact hmove { k with
        rcvQueue := (mergeFragments k.rcvQueue).2.1
        nrcvQue := k.nrcvQue - (mergeFragments k.rcvQueue).2.2 } htaken

/-! ## Datagrams -/

/-- The receiving end between two segments, and between two calls.  Within a call neither half need
    hold alone: a segment that was just put in is not promoted yet. -/
def RcvWindowed (k : IKCPCB) : Prop := Receiving k.rcvHalf k.nrcvBuf ∧ Promoted k.rcvHalf

/-- The receiving end, kept by each part of `pvp_ikcp_input`: what is about the sending half does
    not touch it, and data comes in through the tests of the window. -/
theorem rcvWindowed_digest : Digest RcvWindowed where
  same := by
    rintro k k' ⟨h, hp⟩ he
    have hrcv : k'.rcvHalf = k.rcvHalf := congrArg Ground.rcv he
    have hbuf : k'.nrcvBuf = k.nrcvBuf := congrArg Ground.nrcvBuf he
    unfold RcvWindowed
    rw [hrcv, hbuf]
    exact ⟨h, hp⟩
  settle := by
    rintro k k' ⟨h, hp⟩ hs
    have hrcv : k'.rcvHalf = k.rcvHalf := congrArg Ground.rcv hs.rest
    have hbuf : k'.nrcvBuf = k.nrcvBuf := congrArg Ground.nrcvBuf hs.rest
    unfold RcvWindowed
    rw [hrcv, hbuf]
    exact ⟨h, hp⟩
  data := by
    rintro k seg ⟨h, -⟩ hhi hlo
    have ht := ikcpParseData_tookIn h rfl hhi hlo
    exact ⟨ht.receiving, ht.promoted⟩

/-- **A data segment in the window is held afterwards**, new, old or known.  This is why the source
    may acknowledge it before it looks at it. -/
theorem inputData_held {k : IKCPCB} (h : RcvWindowed k) (head : SegHead) (una : IUINT32)
    (payload : List Byte) (hhi : itimediff (getId k.rcvNxt head.tmpSn) (k.rcvNxt + k.rcvWnd) < 0) :
    Held (getId k.rcvNxt head.tmpSn) (inputData k head una payload) := by
  rw [inputData]
  generalize getId k.rcvNxt head.tmpSn = sn at hhi
  dsimp only
  rw [if_pos hhi]
  generalize hk : (if head.cmd = ikcpCmdPush ∨ k.dupack ≠ 0 then ikcpAckPush k sn head.ts else k) = k'
  -- the acknowledgement changes nothing of the receiving half
  have hground : k'.ground = k.ground := by
    rw [← hk]
    split
    · exact ikcpAckPush_ground ..
    · rfl
  have hnxt : k'.rcvNxt = k.rcvNxt := congrArg (fun g => g.rcv.rcvNxt) hground
  have hwnd : k'.rcvWnd = k.rcvWnd := congrArg (fun g => g.rcv.rcvWnd) hground
  have hreceiving := (rcvWindowed_digest.same h hground).1
  split
  · rename_i hlo
    have hhi' : itimediff sn (k'.rcvNxt + k'.rcvWnd) < 0 := by
      rw [hnxt, hwnd]
      exact hhi
    have hheld : ∀ seg : IKCPSEG, seg.sn = sn → Held sn (ikcpParseData k' seg) := fun seg hs =>
      (ikcpParseData_tookIn hreceiving hs hhi' hlo).held
    exact hheld _ rfl
  · -- Below `rcv_nxt`: it was handed on before.
    rename_i hold
    exact Or.inl (Int.not_le.mp hold)

/-- An acknowledgement was pushed, if at all, for a number that is held. -/
def AckedHeld (k k' : IKCPCB) : Prop :=
  acks k' = acks k ∨ ∃ sn ts, acks k' = acks k ++ [(sn, ts)] ∧ Held sn k'

/-- **One segment** of a datagram: what is acknowledged is held. -/
theorem inputSeg_ackedHeld {st : InputSt} (h : RcvWindowed st.kcp) (hfits : st.kcp.desk.Fits)
    (head : SegHead) (payload : List Byte) : AckedHeld st.kcp (inputSeg st head payload).kcp := by
  have hsettled := settled_una st.kcp head.wnd (getId st.kcp.sndNxt head.tmpUna)
  have hdesk := ikcpParseUna_desk { st.kcp with rmtWnd := head.wnd.setWidth 32 }
    (getId st.kcp.sndNxt head.tmpUna)
  have hacks : ∀ {k' : IKCPCB}, k'.desk = st.kcp.desk → AckedHeld st.kcp k' := fun he =>
    Or.inl (congrArg Desk.acks he)
  unfold inputSeg
  dsimp only
  generalize ikcpShrinkBuf (ikcpParseUna { st.kcp with rmtWnd := head.wnd.setWidth 32 }
    (getId st.kcp.sndNxt head.tmpUna)) = k at hsettled hdesk
  have hdesk : k.desk = st.kcp.desk := hdesk
  have hk : RcvWindowed k := rcvWindowed_digest.settle h hsettled
  split
  · split <;> exact hacks ((ikcpParseAck_desk k _).trans hdesk)
  split
  · -- pushed or not, the branch for data is the only one that pushes
    by_cases hhi : itimediff (getId k.rcvNxt head.tmpSn) (k.rcvNxt + k.rcvWnd) < 0
    · rcases inputData_desk (hdesk ▸ hfits) head (getId st.kcp.sndNxt head.tmpUna) payload
        with he | hp
      · exact hacks (he.trans hdesk)
      · right
        refine ⟨getId k.rcvNxt head.tmpSn, head.ts, ?_, inputData_held hk head _ payload hhi⟩
        rw [acks_desk, hp.acks, hdesk]
        rfl
    · refine hacks (Eq.trans ?_ hdesk)
      show (inputData k head _ payload).desk = _
      rw [inputData, if_neg hhi]
  · split <;> exact hacks hdesk

/-- The segments before it keep what is asked.  Induction on them. -/
theorem foldl_inputSeg (segs : List (SegHead × List Byte)) {st : InputSt} (h : RcvWindowed st.kcp)
    (hfits : st.kcp.desk.Fits) :
    RcvWindowed (segs.foldl (fun st seg => inputSeg st seg.1 seg.2) st).kcp
      ∧ (segs.foldl (fun st seg => inputSeg st seg.1 seg.2) st).kcp.desk.Fits := by
  induction segs generalizing st with
  | nil => exact ⟨h, hfits⟩
  | cons seg segs ih =>
    exact ih (rcvWindowed_digest.inputSeg h seg.1 seg.2) (inputSeg_fits hfits seg.1 seg.2)

/-! ## The senders -/

/-- The receiving end of `k₀` is that of `k`.  The senders are emitters of this: they number, send
    and resend, and none of that is about what was received. -/
def Rest (k₀ k : IKCPCB) : Prop := k.rcvHalf = k₀.rcvHalf ∧ k.nrcvBuf = k₀.nrcvBuf

theorem Rest.of_ground {k₀ k : IKCPCB} (h : k.ground = k₀.ground) : Rest k₀ k :=
  ⟨congrArg Ground.rcv h, congrArg Ground.nrcvBuf h⟩

theorem Rest.trans {a b c : IKCPCB} (h : Rest a b) (h' : Rest b c) : Rest a c :=
  ⟨h'.1.trans h.1, h'.2.trans h.2⟩

theorem RcvWindowed.of_rest {k₀ k : IKCPCB} (h : RcvWindowed k₀) (hr : Rest k₀ k) :
    RcvWindowed k := by
  obtain ⟨hrcv, hbuf⟩ := hr
  unfold RcvWindowed
  rw [hrcv, hbuf]
  exact h

/-- What the senders take for granted of what is sent: no streaming, and data only. -/
structure Plain (k : IKCPCB) : Prop where
  stream : k.stream = 0
  push : ∀ seg ∈ k.sndBuf, seg.cmd = ikcpCmdPush

/-- It is a matter of the sending half. -/
theorem Plain.of_keys {k k' : IKCPCB} (h : Plain k) (hstream : k'.stream = k.stream)
    (hsub : (k'.sndBuf.map IKCPSEG.key).Sublist (k.sndBuf.map IKCPSEG.key)) : Plain k' := by
  refine ⟨hstream.trans h.stream, fun seg hs => ?_⟩
  obtain ⟨old, hold, hkey⟩ := List.mem_map.mp (hsub.subset (List.mem_map_of_mem hs))
  have hcmd : old.cmd = seg.cmd := congrArg (fun e => e.2.1) hkey
  rw [← hcmd]
  exact h.push old hold

/-- Segments get into `snd_buf` from `snd_queue` only, and are made data segments on the way. -/
theorem plain_sndInv : SndInv Plain where
  sending := by
    intro k k' h he
    have hkeys : k'.sndBuf.map IKCPSEG.key = k.sndBuf.map IKCPSEG.key :=
      congrArg (fun g => g.snd.sndBuf) he
    refine h.of_keys (congrArg (fun g => g.snd.stream) he) ?_
    rw [hkeys]
  settle h hs := h.of_keys (congrArg SndHalf.stream hs.snd) hs.sub
  stream h := h.stream
  push h hs := h.push _ hs
  move := by
    intro k seg rest cwnd h _ _ _ _ current wnd
    refine ⟨h.stream, fun s hs => ?_⟩
    rcases List.mem_append.mp hs with hs | hs
    · exact h.push s hs
    · rw [List.mem_singleton.mp hs]
      rfl
  queue h _ := ⟨h.stream, h.push⟩

section Resting

variable {k k₀ : IKCPCB}

theorem plain_emitter : Emitter k₀ (fun k => Plain k ∧ Rest k₀ k) fun _ => True where
  same := by
    rintro k k' ⟨hk, hr⟩ he
    exact ⟨plain_sndInv.same hk he, hr.trans (.of_ground he)⟩
  half h := h.2.1
  push h hs := h.1.push _ hs
  move := by
    rintro k seg rest cwnd ⟨hk, hr⟩ hq hs hw hopen current wnd
    exact ⟨plain_sndInv.move hk hq hs hw hopen current wnd, hr⟩
  control _ := trivial
  data _ _ _ := trivial

/-- A flush sends, and leaves what was received alone. -/
theorem pvpIkcpFlush_rest (h : Plain k₀) : Rest k₀ (pvpIkcpFlush k₀).1 :=
  (pvpIkcpFlush_emits plain_emitter ⟨h, rfl, rfl⟩).1.2

/-- So does an update, which is a flush at most. -/
theorem pvpIkcpUpdate_rest (h : Plain k) (current : IUINT32) : Rest k (pvpIkcpUpdate k current).1 := by
  have hground := updateHead_ground k current
  rw [pvpIkcpUpdate]
  generalize updateHead k current = r at hground
  obtain ⟨flush, k₀⟩ := r
  have h₀ : Rest k k₀ := .of_ground hground
  have hmid : Rest k (if flush then pvpIkcpFlush k₀ else (k₀, [])).1 := by
    split
    · exact h₀.trans (pvpIkcpFlush_rest (plain_sndInv.same h hground))
    · exact h₀
  exact hmid.trans (.of_ground (pvpIkcpUpdateLost_ground ..))

/-- A message that is handed over waits in `snd_queue`. -/
theorem pvpIkcpSend_rest (h : k.stream = 0) (msg : List Byte) (current : IUINT32) :
    Rest k (pvpIkcpSend k msg current).2 := by
  rw [pvpIkcpSend]
  generalize hk : (if current.toNat > 0 then { k with current := current } else k) = k'
  have h' : Rest k k' ∧ k'.stream = k.stream := by
    rw [← hk]
    split <;> exact ⟨⟨rfl, rfl⟩, rfl⟩
  dsimp only
  rw [if_neg (not_not_intro (h'.2.trans h)), sendQueue]
  split <;> exact h'.1

/-- `pvp_ikcp_send_ex`: the send, the new clock, and its loop, one after the other. -/
theorem pvpIkcpSendEx_rest (h : Plain k) (msg : List Byte) (current : IUINT32) :
    Rest k (pvpIkcpSendEx k msg current).2.1 := by
  have hsend := pvpIkcpSend_rest h.stream msg current
  have hplain := (plain_sndInv.send h msg current).1
  rw [pvpIkcpSendEx]
  generalize pvpIkcpSend k msg current = r at hsend hplain
  obtain ⟨ret, k₁⟩ := r
  dsimp only at hsend hplain ⊢
  split
  · exact hsend
  split
  · exact hsend
  generalize hk : (if current.toNat > 0 then { k₁ with current := current } else k₁) = k₀
  have hground : k₀.ground = k₁.ground := by
    rw [← hk]
    split <;> rfl
  have h₀ := plain_sndInv.same hplain hground
  have hend := sendExFlush_emits plain_emitter ⟨h₀, rfl, rfl⟩ hk
  exact hsend.trans ((Rest.of_ground hground).trans hend.block.2)

end Resting

/-- **Every call keeps the receiving end in order**, but for a change of the windows. -/
theorem call_rcvWindowed {k : IKCPCB} (h : RcvWindowed k) (hplain : Plain k) {c : Call}
    (hc : KeepsWindow c) : RcvWindowed (c.run k).1 := by
  cases c with
  | send msg current => exact h.of_rest (pvpIkcpSend_rest hplain.stream msg current)
  | sendEx msg current => exact h.of_rest (pvpIkcpSendEx_rest hplain msg current)
  | update current => exact h.of_rest (pvpIkcpUpdate_rest hplain current)
  | flush => exact h.of_rest (pvpIkcpFlush_rest hplain)
  | recv len => exact pvpIkcpRecv_receiving h.1 h.2 len
  | input data current => exact rcvWindowed_digest.input h data current
  | nodelay on interval resend nc =>
    obtain ⟨_, _, _, _, _, hset⟩ := pvpIkcpNodelay_eq k on interval resend nc
    refine h.of_rest ?_
    rw [Call.run, hset]
    exact ⟨rfl, rfl⟩
  -- a new window may be smaller than what `rcv_buf` holds, so this call is left out
  | wndsize sndwnd rcvwnd => exact absurd rfl (hc sndwnd rcvwnd)
  | setdupsend => exact h
  | intervalLost => exact h
  | fields => exact h

theorem pvpIkcpRecv_rcvWnd (k : IKCPCB) (len : Int) :
    (pvpIkcpRecv k len).2.rcvWnd = k.rcvWnd := by
  obtain ⟨_, _, _, _, _, _, hset⟩ := pvpIkcpRecv_eq k len
  rw [hset]

/-- A datagram does not change the window. -/
theorem rcvWnd_digest (wnd : IUINT32) : Digest fun k => k.rcvWnd = wnd where
  same h he := (congrArg (fun g => g.rcv.rcvWnd) he).trans h
  settle h hs := (congrArg (fun g => g.rcv.rcvWnd) hs.rest).trans h
  data := by
    intro k seg h _ _
    have hwnd : (ikcpParseData k seg).rcvWnd = k.rcvWnd := by
      obtain ⟨_, _, _, _, _, hset⟩ := ikcpParseData_eq k seg
      rw [hset]
    exact hwnd.trans h

/-- **The window stays as it was set.** -/
theorem call_rcvWnd {k : IKCPCB} (hplain : Plain k) {c : Call} (hc : KeepsWindow c) :
    (c.run k).1.rcvWnd = k.rcvWnd := by
  have hrest : ∀ {k' : IKCPCB}, Rest k k' → k'.rcvWnd = k.rcvWnd := fun hr =>
    congrArg RcvHalf.rcvWnd hr.1
  cases c with
  | send msg current => exact hrest (pvpIkcpSend_rest hplain.stream msg current)
  | sendEx msg current => exact hrest (pvpIkcpSendEx_rest hplain msg current)
  | update current => exact hrest (pvpIkcpUpdate_rest hplain current)
  | flush => exact hrest (pvpIkcpFlush_rest hplain)
  | recv len => exact pvpIkcpRecv_rcvWnd k len
  | input data current => exact (rcvWnd_digest k.rcvWnd).input rfl data current
  | nodelay on interval resend nc =>
    obtain ⟨_, _, _, _, _, hset⟩ := pvpIkcpNodelay_eq k on interval resend nc
    rw [Call.run, hset]
  | wndsize sndwnd rcvwnd => exact absurd rfl (hc sndwnd rcvwnd)
  | setdupsend => rfl
  | intervalLost => rfl
  | fields => rfl

/-! ## Every run -/

/-- A block at its start, configured in any way; `rcv_wnd` was set from an `int`. -/
def Equipped (k : IKCPCB) : Prop := (∃ conv, Configured conv k) ∧ k.rcvWnd.toNat < 2 ^ 31

/-- What holds of the receiving half of a block at any time. -/
structure ReceiveWindow (k : IKCPCB) : Prop where
  /-- The numbers of `rcv_buf` ascend, as they are compared. -/
  increasing : (k.rcvBuf.map IKCPSEG.sn).Pairwise fun a b => itimediff b a > 0
  /-- They lie in `[rcv_nxt, rcv_nxt + rcv_wnd)`. -/
  within : ∀ seg ∈ k.rcvBuf, (seg.sn - k.rcvNxt).toNat < k.rcvWnd.toNat
  /-- The numbers of `rcv_queue` are those right below `rcv_nxt`. -/
  queue : ∀ i seg, k.rcvQueue[i]? = some seg →
    seg.sn = k.rcvNxt - BitVec.ofNat 32 (k.rcvQueue.length - i)
  nrcvBuf : k.nrcvBuf = k.rcvBuf.length
  nrcvQue : k.nrcvQue = k.rcvQueue.length
  full : k.nrcvQue ≤ k.rcvWnd.toNat
  promoted : k.rcvBuf.head?.map IKCPSEG.sn = some k.rcvNxt → k.nrcvQue = k.rcvWnd.toNat
  /-- Of the segments of a datagram, in front of any one (`head`, `payload`) of them: what this one
      adds to `acklist` is held when it was processed. -/
  acked : ∀ data current before head payload after,
    (parseSegs k.conv data.length data).2.1 = before ++ (head, payload) :: after →
      let st := before.foldl (fun st seg => inputSeg st seg.1 seg.2)
        { kcp := inputEnter k current, flag := false, maxack := 0 }
      AckedHeld st.kcp (inputSeg st head payload).kcp

theorem RcvWindowed.facts {k : IKCPCB} (h : RcvWindowed k) (hfits : k.desk.Fits) :
    ReceiveWindow k := by
  have hwnd : k.rcvWnd.toNat < 2 ^ 31 := h.1.wnd
  have hasc : Ascending k.rcvNxt (k.rcvNxt + k.rcvWnd) (k.rcvBuf.map IKCPSEG.sn) := h.1.buf
  have hend : off k.rcvNxt (k.rcvNxt + k.rcvWnd) = k.rcvWnd.toNat := off_add ..
  constructor
  · exact hasc.sdiff_pos (by omega)
  · intro seg hs
    have hbelow := hasc.below seg.sn (List.mem_map_of_mem hs)
    rw [hend] at hbelow
    exact hbelow
  · exact h.1.queue
  · exact h.1.nrcvBuf
  · exact h.1.nrcvQue
  · exact h.1.full
  · exact h.2
  · intro data current before head payload after _
    have henter := rcvWindowed_digest.same h (inputEnter_ground k current)
    have hfits' : (inputEnter k current).desk.Fits := (inputEnter_desk k current).symm ▸ hfits
    let st : InputSt := { kcp := inputEnter k current, flag := false, maxack := 0 }
    have hst : RcvWindowed st.kcp := henter
    have hst' : st.kcp.desk.Fits := hfits'
    obtain ⟨hbefore, hbefore'⟩ := foldl_inputSeg before hst hst'
    exact inputSeg_ackedHeld hbefore hbefore' head payload

/-- Nothing is received, and nothing waits, before the first call. -/
theorem Configured.idle {conv : IUINT32} {k : IKCPCB} (h : Configured conv k) :
    k.nrcvBuf = 0 ∧ k.desk.Fits := by
  obtain ⟨s, rfl⟩ := h.settings
  exact ⟨rfl, rfl, Nat.le_refl 0⟩

theorem Equipped.rcvWindowed {k : IKCPCB} (h : Equipped k) :
    RcvWindowed k ∧ Plain k ∧ k.desk.Fits := by
  obtain ⟨⟨conv, hconf⟩, hwnd⟩ := h
  obtain ⟨-, -, hstream, ⟨-, -, -, hque⟩, -, hqueue, hbuf, hrcv⟩ := hconf.fresh
  obtain ⟨hcount, hfits⟩ := hconf.idle
  refine ⟨⟨⟨hwnd, ?_, ?_, ?_, ?_, ?_⟩, ?_⟩, ⟨hstream, ?_⟩, hfits⟩
  · show Ascending _ _ (k.rcvBuf.map IKCPSEG.sn)
    rw [hrcv]
    exact .nil
  · intro i seg hs
    have hs : k.rcvQueue[i]? = some seg := hs
    rw [hqueue] at hs
    nomatch hs
  · show k.nrcvQue = k.rcvQueue.length
    rw [hque, hqueue]
    rfl
  · show k.nrcvQue ≤ _
    rw [hque]
    exact Nat.zero_le _
  · show k.nrcvBuf = k.rcvBuf.length
    rw [hcount, hrcv]
    rfl
  · intro hhead
    have hhead : k.rcvBuf.head?.map IKCPSEG.sn = some k.rcvNxt := hhead
    rw [hrcv] at hhead
    nomatch hhead
  · rw [hbuf]
    exact fun _ hs => absurd hs List.not_mem_nil

/-- The invariant of a run. -/
theorem Runs.rcvWindowed {k : IKCPCB} (h : Runs Equipped KeepsWindow k) :
    RcvWindowed k ∧ Plain k ∧ k.desk.Fits := by
  refine h.inv (I := fun k => RcvWindowed k ∧ Plain k ∧ k.desk.Fits) (fun k hk => hk.rcvWindowed) ?_
  rintro k c ⟨hk, hplain, hfits⟩ hc
  have hrun := plain_sndInv.run (labels_true _) hplain c fun s r he => absurd he (hc s r)
  exact ⟨call_rcvWindowed hk hplain hc, hrun.1, call_fits hfits c⟩

/-- **The receiving window of every reachable block.** -/
theorem receiveWindow {k : IKCPCB} (h : Runs Equipped KeepsWindow k) : ReceiveWindow k :=
  h.rcvWindowed.1.facts h.rcvWindowed.2.2

/-- Number `1` came before number `0`: it waits in `rcv_buf`. -/
theorem receiveWindow_overtaking :
    ∃ k : IKCPCB, (k.rcvNxt, k.rcvBuf.map IKCPSEG.sn, acks k) = (0, [1], [(1, 20)])
      ∧ ReceiveWindow k := by
  let k₀ := pvpIkcpCreate 7
  let k₁ := ((Call.input [7, 0, 0, 0, 81, 0, 0, 128, 0, 20, 0, 0, 0, 1, 0, 0, 0, 1, 0, 9] 30).run k₀).1
  have hrun : Runs Equipped KeepsWindow k₁ := by
    have h₀ : Runs Equipped KeepsWindow k₀ := .start ⟨⟨7, .create⟩, by decide⟩
    exact .step (i := .input _ 30) h₀ (fun _ _ => nofun) rfl
  exact ⟨k₁, by decide +kernel, receiveWindow hrun⟩

end ConnClient.Ikcp
