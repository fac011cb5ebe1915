/-
  The receiving half of a control block, against the log of what its peer has queued.

  The peer numbers its fragments `0, 1, 2, …` (unbounded naturals) and `log` lists them; a block only
  ever sees the low 32 bits of a number, and on the wire the low 16.  `RcvOk` says what a receiving
  half is, in terms of the log and of the number `rcvNum` that `rcv_nxt` stands for: everything below
  `rcvNum` is either in a message already handed out or in `rcv_queue`, and what waits in `rcv_buf`
  is a fragment of the log from `rcvNum` on.  Each function of the receiving side keeps it:

  * `getId_setWidth` — a number less than `0x8000` from the base is rebuilt from its low 16 bits;
  * `moveRcvBuf_ok` — the transfer loop, which is the only thing that advances `rcv_nxt`;
  * `inputData_ok` — a data segment whose number is near `rcvNum`, whatever else is true of it;
  * `pvpIkcpRecv_ok` — a message handed out is the next message of the log.

  THE CRUX is that a residue decides.  The code compares numbers by `_itimediff`, the sign of a 32-bit
  difference, and takes the first segment of `rcv_buf` when its residue EQUALS `rcv_nxt`.  Both are
  right for the numbers because all of them lie within `0x8000` of `rcvNum`, far less than half the
  modulus; that bound is the third clause of `RcvOk.buf`, every insertion has to show it, and `get_id`
  is what makes it true of a number that arrives.

  The window plays no part in this: a segment beyond it is dropped, which keeps the half as well.
-/
import ConnClient.Lib.Fragment
import ConnClient.Ikcp.Input

namespace ConnClient.Ikcp

open ConnClient.Lib

/-! ## Numbers on the wire -/

/-- The low half of `id` under the high half of `base`. -/
theorem toNat_getId_merge (base : IUINT32) (id : IUINT16) :
    (id.setWidth 32 ||| (base &&& ~~~(0xffff : IUINT32))).toNat
      = base.toNat / 65536 * 65536 + id.toNat := by
  have hmask : (base &&& ~~~(0xffff : IUINT32)).toNat = (base.toNat / 65536) <<< 16 := by
    have hs : base &&& ~~~(0xffff : IUINT32) = base >>> 16 <<< 16 := by
      rw [show (0xffff : IUINT32) = (BitVec.allOnes 16).setWidth 32 from by decide]
      apply BitVec.eq_of_getLsbD_eq
      intro i hi
      simp only [BitVec.getLsbD_and, BitVec.getLsbD_not, BitVec.getLsbD_setWidth,
        BitVec.getLsbD_allOnes, BitVec.getLsbD_shiftLeft, BitVec.getLsbD_ushiftRight]
      by_cases h : i < 16
      · simp [h, hi]
      · have he : 16 + (i - 16) = i := by omega
        simp [h, hi, he]
    have hlt := base.isLt
    rw [hs, BitVec.toNat_shiftLeft, BitVec.toNat_ushiftRight, Nat.shiftRight_eq_div_pow,
      Nat.shiftLeft_eq]
    omega
  have hlt := id.isLt
  rw [BitVec.toNat_or, hmask, BitVec.toNat_setWidth, Nat.mod_eq_of_lt (by omega), Nat.or_comm,
    ← Nat.shiftLeft_add_eq_or_of_lt hlt, Nat.shiftLeft_eq]

/-- Whatever was truncated, `get_id` rebuilds a number with the same low half within half a range. -/
theorem getId_near (base : IUINT32) (v : IUINT16) :
    (getId base v).setWidth 16 = v ∧ -0x8000 ≤ itimediff (getId base v) base
      ∧ itimediff (getId base v) base ≤ 0x8000 := by
  have hm := toNat_getId_merge base v
  have hb := base.isLt
  have hv := v.isLt
  have hcases := itimediff_cases (getId base v) base
  rw [BitVec.toNat_sub] at hcases
  have hlow : (getId base v).toNat % 2 ^ 16 = v.toNat ∧
      (((getId base v).toNat + (2 ^ 32 - base.toNat)) % 2 ^ 32 ≤ 0x8000 ∨
        2 ^ 32 - 0x8000 ≤ ((getId base v).toNat + (2 ^ 32 - base.toNat)) % 2 ^ 32) := by
    rw [getId]
    generalize (v.setWidth 32 ||| (base &&& ~~~(0xffff : IUINT32))) = id at hm
    have hadd : (id + 0x10000).toNat = (id.toNat + 65536) % 2 ^ 32 := BitVec.toNat_add id 0x10000
    have hsub : (id - 0x10000).toNat = (2 ^ 32 - 65536 + id.toNat) % 2 ^ 32 :=
      BitVec.toNat_sub id 0x10000
    by_cases h1 : (id.toNat : Int) < (base.toNat : Int) - 0x8000
    · rw [if_pos h1, hadd]
      omega
    · rw [if_neg h1]
      by_cases h2 : (id.toNat : Int) > (base.toNat : Int) + 0x8000
      · rw [if_pos h2, hsub]
        omega
      · rw [if_neg h2]
        omega
  refine ⟨BitVec.eq_of_toNat_eq ?_, ?_, ?_⟩
  · rw [BitVec.toNat_setWidth]
    exact hlow.1
  · omega
  · omega

/-- **`get_id` rebuilds a near number.** -/
theorem getId_setWidth {base id : IUINT32} (h : -0x8000 < itimediff id base)
    (h' : itimediff id base < 0x8000) : getId base (id.setWidth 16) = id := by
  -- the number it finds has the low half of `id`, and the two are less than a whole range apart
  obtain ⟨hlow, hge, hle⟩ := getId_near base (id.setWidth 16)
  have happart : -(2 ^ 16 : Int) < itimediff (getId base (id.setWidth 16)) base - itimediff id base
      ∧ itimediff (getId base (id.setWidth 16)) base - itimediff id base < 2 ^ 16 := by omega
  exact eq_of_low_near (by decide : 16 ≤ 32) hlow happart.1 happart.2

theorem getId_ofNat {base n : Nat} (h : (base : Int) - 0x8000 < n) (h' : (n : Int) < base + 0x8000) :
    getId (BitVec.ofNat 32 base) (BitVec.ofNat 16 n) = BitVec.ofNat 32 n := by
  have hdiff : itimediff (BitVec.ofNat 32 n) (BitVec.ofNat 32 base) = (n : Int) - base :=
    sdiff_ofNat (by omega) (by omega)
  have hid : getId (BitVec.ofNat 32 base) ((BitVec.ofNat 32 n).setWidth 16) = BitVec.ofNat 32 n :=
    getId_setWidth (by omega) (by omega)
  rw [BitVec.setWidth_ofNat_of_le (by decide)] at hid
  exact hid

/-- Two numbers in reach of each other compare as their residues do. -/
theorem itimediff_ofNat {a b : Nat} (h : (b : Int) - 0x7fffffff < a)
    (h' : (a : Int) < b + 0x7fffffff) :
    itimediff (BitVec.ofNat 32 a) (BitVec.ofNat 32 b) = (a : Int) - b :=
  sdiff_ofNat (by omega) (by omega)

/-! ## The receiving half -/

/-- What a receiver keeps of a segment: the mark that counts down, and the piece of a message. -/
def IKCPSEG.unit (seg : IKCPSEG) : Nat × List Byte := (seg.frg.toNat, seg.data)

/-- A buffered segment as the log has it. -/
def IKCPSEG.numbered (seg : IKCPSEG) : IUINT32 × Option (Nat × List Byte) := (seg.sn, some seg.unit)

/-- Fragment `n` of the log, under the low 32 bits of its number. -/
def logEntry (log : List (Nat × List Byte)) (n : Nat) : IUINT32 × Option (Nat × List Byte) :=
  (BitVec.ofNat 32 n, log[n]?)

/-- The fields of the receiving half.  The list of acknowledgements is not among them. -/
structure RcvHalf where
  rcvNxt : IUINT32
  rcvWnd : IUINT32
  nrcvQue : Nat
  rcvQueue : List IKCPSEG
  rcvBuf : List IKCPSEG

def IKCPCB.rcvHalf (kcp : IKCPCB) : RcvHalf :=
  ⟨kcp.rcvNxt, kcp.rcvWnd, kcp.nrcvQue, kcp.rcvQueue, kcp.rcvBuf⟩

/-- `RcvOk log taken rcvNum kcp` — the receiving half of `kcp` has `rcvNum` fragments of `log` in
    order, of which `taken` were handed out.  `queue` is the heart of it: the log up to `rcvNum` is
    what was handed out and what waits to be; `buf` lists the numbers of `rcv_buf`, ascending, in
    reach of `rcvNum`, and none of them beyond what the peer has queued. -/
structure RcvOk (log taken : List (Nat × List Byte)) (rcvNum : Nat) (kcp : IKCPCB) : Prop where
  nxt : kcp.rcvNxt = BitVec.ofNat 32 rcvNum
  wnd : kcp.rcvWnd.toNat ≤ 0x7fff
  nque : kcp.nrcvQue = kcp.rcvQueue.length
  full : kcp.rcvQueue.length ≤ kcp.rcvWnd.toNat
  le : rcvNum ≤ log.length
  queue : log.take rcvNum = taken ++ kcp.rcvQueue.map IKCPSEG.unit
  buf : ∃ ns : List Nat, kcp.rcvBuf.map IKCPSEG.numbered = ns.map (logEntry log)
    ∧ ns.Pairwise (· < ·) ∧ ∀ n ∈ ns, rcvNum ≤ n ∧ n < rcvNum + 0x8000 ∧ n < log.length

/-- Whatever leaves the receiving half alone keeps it. -/
theorem RcvOk.congr {log taken : List (Nat × List Byte)} {rcvNum : Nat} {kcp kcp' : IKCPCB}
    (h : RcvOk log taken rcvNum kcp) (he : kcp'.rcvHalf = kcp.rcvHalf) :
    RcvOk log taken rcvNum kcp' := by
  obtain ⟨e1, e2, e3, e4, e5⟩ := RcvHalf.mk.inj he
  exact ⟨e1 ▸ h.nxt, e2 ▸ h.wnd, e3 ▸ e4 ▸ h.nque, e2 ▸ e4 ▸ h.full, h.le, e4 ▸ h.queue, e5 ▸ h.buf⟩

/-- The log only grows, and what is known of it stays. -/
theorem RcvOk.log_append {log taken : List (Nat × List Byte)} {rcvNum : Nat} {kcp : IKCPCB}
    (h : RcvOk log taken rcvNum kcp) (more : List (Nat × List Byte)) :
    RcvOk (log ++ more) taken rcvNum kcp := by
  obtain ⟨ns, hmap, hsorted, hns⟩ := h.buf
  refine { h with
    le := by rw [List.length_append]; have := h.le; omega
    queue := by rw [List.take_append_of_le_length h.le]; exact h.queue
    buf := ⟨ns, ?_, hsorted, fun n hn => ?_⟩ }
  · rw [hmap]
    apply List.map_congr_left
    intro n hn
    rw [logEntry, logEntry, List.getElem?_append_left (hns n hn).2.2]
  · obtain ⟨h1, h2, h3⟩ := hns n hn
    exact ⟨h1, h2, by rw [List.length_append]; omega⟩

/-- How far a 32-bit counter moved between two values, taken as the least number of steps forward.
    -/
def advance (before after : IUINT32) : Nat := (after - before).toNat

theorem advance_ofNat {m n : Nat} (h : m ≤ n) (h' : n < m + 2 ^ 32) :
    m + advance (BitVec.ofNat 32 m) (BitVec.ofNat 32 n) = n := by
  rw [advance, BitVec.toNat_sub, BitVec.toNat_ofNat, BitVec.toNat_ofNat]
  omega

/-- Between two states of the same half, the counter moved by what entered `rcv_queue`. -/
theorem RcvOk.advance {log taken : List (Nat × List Byte)} {m n : Nat} {kcp kcp' : IKCPCB}
    (h : RcvOk log taken m kcp) (h' : RcvOk log taken n kcp') (hmn : m ≤ n) :
    m + advance kcp.rcvNxt kcp'.rcvNxt = n := by
  -- the queue and what was handed out add up to the number on both sides
  have hm : m = taken.length + kcp.rcvQueue.length := by
    have := congrArg List.length h.queue
    rw [List.length_take, List.length_append, List.length_map] at this
    have := h.le
    omega
  have hn : n = taken.length + kcp'.rcvQueue.length := by
    have := congrArg List.length h'.queue
    rw [List.length_take, List.length_append, List.length_map] at this
    have := h'.le
    omega
  have hf := h'.full
  have hw := h'.wnd
  rw [h.nxt, h'.nxt]
  exact advance_ofNat hmn (by omega)

/-! ## The transfer loop -/

/-- **`rcv_buf` drains in order.**  Recursion on the segments of `rcv_buf`; the first of them is
    taken exactly when its number is `rcvNum`, because no number in the buffer is as much as half
    the modulus away. -/
theorem moveRcvBuf_ok {log taken : List (Nat × List Byte)} :
    ∀ (buf : List IKCPSEG) (rcvNum : Nat) (kcp : IKCPCB), kcp.rcvBuf = buf →
      RcvOk log taken rcvNum kcp →
      ∃ n, rcvNum ≤ n ∧ RcvOk log taken n (moveRcvBuf buf kcp)
  | [], rcvNum, kcp, hb, h => by
    refine ⟨rcvNum, Nat.le_refl _, h.congr ?_⟩
    rw [moveRcvBuf, ← hb]
  | seg :: rest, rcvNum, kcp, hb, h => by
    rw [moveRcvBuf]
    by_cases hc : seg.sn = kcp.rcvNxt ∧ kcp.nrcvQue < kcp.rcvWnd.toNat
    · rw [if_pos hc]
      obtain ⟨ns, hmap, hsorted, hns⟩ := h.buf
      rw [hb, List.map_cons] at hmap
      cases ns with
      | nil => cases hmap
      | cons n ns =>
        rw [List.map_cons, List.cons.injEq] at hmap
        obtain ⟨hhead, htail⟩ := hmap
        rw [List.pairwise_cons] at hsorted
        obtain ⟨hn1, hn2, hn3⟩ := hns n (List.mem_cons_self ..)
        have hsn : seg.sn = BitVec.ofNat 32 n := congrArg Prod.fst hhead
        have hlog : log[n]? = some seg.unit := (congrArg Prod.snd hhead).symm
        -- equal residues, both in reach of `rcvNum`: equal numbers
        have hnum : n = rcvNum := by
          refine ofNat_inj_of_near (w := 32) (by omega) (by omega) ?_
          rw [← hsn, hc.1, h.nxt]
        rw [hnum] at hlog hn3
        have hnext := @moveRcvBuf_ok log taken rest (rcvNum + 1)
          { kcp with
            rcvBuf := rest
            nrcvBuf := kcp.nrcvBuf - 1
            rcvQueue := kcp.rcvQueue ++ [seg]
            nrcvQue := kcp.nrcvQue + 1
            rcvNxt := kcp.rcvNxt + 1 } rfl
          { nxt := by
              show kcp.rcvNxt + 1 = BitVec.ofNat 32 (rcvNum + 1)
              rw [h.nxt, BitVec.ofNat_add]
              rfl
            wnd := h.wnd
            nque := by
              show kcp.nrcvQue + 1 = (kcp.rcvQueue ++ [seg]).length
              rw [List.length_append, h.nque]; rfl
            full := by
              show (kcp.rcvQueue ++ [seg]).length ≤ kcp.rcvWnd.toNat
              rw [List.length_append, ← h.nque]
              exact hc.2
            le := hn3
            queue := by
              show log.take (rcvNum + 1) = taken ++ (kcp.rcvQueue ++ [seg]).map IKCPSEG.unit
              rw [List.take_add_one, h.queue, hlog, List.map_append, ← List.append_assoc]
              rfl
            buf := ⟨ns, htail, hsorted.2, fun m hm => by
              obtain ⟨_, h2, h3⟩ := hns m (List.mem_cons_of_mem _ hm)
              have := hsorted.1 m hm
              exact ⟨by omega, by omega, h3⟩⟩ }
        obtain ⟨n', hle, hok⟩ := hnext
        exact ⟨n', by omega, hok⟩
    · rw [if_neg hc]
      exact ⟨rcvNum, Nat.le_refl _, h.congr (by rw [← hb])⟩

/-! ## Data segments -/

/-- **Insertion keeps the order.**  `rs` is the buffer from its end: segments numbered `ms`,
    descending, all within `0x8000` from `base`.  The new segment is dropped when its number is
    there, and else lands between the smaller and the larger ones. -/
theorem insertRev_sorted {log : List (Nat × List Byte)} {base m : Nat} {newseg : IKCPSEG}
    (hnew : newseg.numbered = logEntry log m) (hm : base ≤ m) (hm' : m < base + 0x8000) :
    ∀ (rs : List IKCPSEG) (ms : List Nat), rs.map IKCPSEG.numbered = ms.map (logEntry log) →
      ms.Pairwise (· > ·) → (∀ n ∈ ms, base ≤ n ∧ n < base + 0x8000) →
      ∀ rs', insertRev newseg rs = some rs' →
        ∃ ms' : List Nat, rs'.map IKCPSEG.numbered = ms'.map (logEntry log) ∧ ms'.Pairwise (· > ·)
          ∧ ∀ n ∈ ms', n = m ∨ n ∈ ms
  | [], ms, hmap, _, _, rs', h => by
    cases h
    refine ⟨[m], ?_, List.pairwise_singleton _ _, fun n hn => Or.inl (List.mem_singleton.mp hn)⟩
    rw [List.map_cons, List.map_cons, hnew]
    rfl
  | seg :: before, [], hmap, _, _, _, _ => nomatch hmap
  | seg :: before, k :: ms, hmap, hsorted, hns, rs', h => by
    rw [List.map_cons, List.map_cons, List.cons.injEq] at hmap
    obtain ⟨hhead, htail⟩ := hmap
    rw [List.pairwise_cons] at hsorted
    obtain ⟨hk1, hk2⟩ := hns k (List.mem_cons_self ..)
    have hseg : seg.sn = BitVec.ofNat 32 k := congrArg Prod.fst hhead
    have hsn : newseg.sn = BitVec.ofNat 32 m := congrArg Prod.fst hnew
    rw [insertRev, hseg, hsn] at h
    -- the walk goes from the largest number down, as the code walks the list from its end
    by_cases heq : BitVec.ofNat 32 k = BitVec.ofNat 32 m
    · rw [if_pos heq] at h
      nomatch h
    · rw [if_neg heq, itimediff_ofNat (by omega) (by omega)] at h
      by_cases hlt : (m : Int) - k > 0
      · rw [if_pos hlt] at h
        cases h
        refine ⟨m :: k :: ms, ?_, ?_, fun n hn => ?_⟩
        · rw [List.map_cons, List.map_cons, List.map_cons, List.map_cons, hnew, hhead, htail]
        · refine List.pairwise_cons.mpr ⟨fun n hn => ?_, List.pairwise_cons.mpr hsorted⟩
          rcases List.mem_cons.mp hn with rfl | hn
          · omega
          · have := hsorted.1 n hn
            omega
        · rcases List.mem_cons.mp hn with rfl | hn
          · exact Or.inl rfl
          · exact Or.inr hn
      · rw [if_neg hlt] at h
        -- `k` stays in front: it is not below `m`, and not equal to it
        have hkm : m < k := by
          have hne : k ≠ m := fun hkm => heq (by rw [hkm])
          omega
        cases hrec : insertRev newseg before with
        | none => rw [hrec] at h; nomatch h
        | some before' =>
          rw [hrec] at h
          cases h
          obtain ⟨ms', h1, h2, h3⟩ := insertRev_sorted hnew hm hm' before ms htail hsorted.2
            (fun n hn => hns n (List.mem_cons_of_mem _ hn)) before' hrec
          refine ⟨k :: ms', ?_, List.pairwise_cons.mpr ⟨fun n hn => ?_, h2⟩, fun n hn => ?_⟩
          · rw [List.map_cons, List.map_cons, hhead, h1]
          · rcases h3 n hn with rfl | hn
            · exact hkm
            · exact hsorted.1 n hn
          · rcases List.mem_cons.mp hn with rfl | hn
            · exact Or.inr (List.mem_cons_self ..)
            · exact (h3 n hn).imp_right (List.mem_cons_of_mem _)

/-- `ikcp_parse_data`, on a fragment of the log from `rcvNum` on. -/
theorem ikcpParseData_ok {log taken : List (Nat × List Byte)} {rcvNum m : Nat} {kcp : IKCPCB}
    {newseg : IKCPSEG} (h : RcvOk log taken rcvNum kcp) (hnew : newseg.numbered = logEntry log m)
    (hm : rcvNum ≤ m) (hm' : m < rcvNum + 0x8000) (hlen : m < log.length) :
    ∃ n, rcvNum ≤ n ∧ RcvOk log taken n (ikcpParseData kcp newseg) := by
  rw [ikcpParseData]
  by_cases hout : itimediff newseg.sn (kcp.rcvNxt + kcp.rcvWnd) ≥ 0
      ∨ itimediff newseg.sn kcp.rcvNxt < 0
  · rw [if_pos hout]
    exact ⟨rcvNum, Nat.le_refl _, h⟩
  · rw [if_neg hout]
    cases hins : insertRev newseg kcp.rcvBuf.reverse with
    -- a duplicate is dropped; the transfer loop runs all the same
    | none => exact moveRcvBuf_ok kcp.rcvBuf rcvNum kcp rfl h
    | some rev =>
      obtain ⟨ns, hmap, hsorted, hns⟩ := h.buf
      obtain ⟨ms', h1, h2, h3⟩ := insertRev_sorted hnew hm hm' kcp.rcvBuf.reverse ns.reverse
        (by rw [List.map_reverse, hmap, List.map_reverse]) (List.pairwise_reverse.mpr hsorted)
        (fun n hn => ⟨(hns n (List.mem_reverse.mp hn)).1, (hns n (List.mem_reverse.mp hn)).2.1⟩)
        rev hins
      refine moveRcvBuf_ok rev.reverse rcvNum
        { kcp with rcvBuf := rev.reverse, nrcvBuf := kcp.nrcvBuf + 1 } rfl
        { h with buf := ⟨ms'.reverse, ?_, List.pairwise_reverse.mpr h2, fun n hn => ?_⟩ }
      · rw [List.map_reverse, h1, List.map_reverse]
      · rcases h3 n (List.mem_reverse.mp hn) with rfl | hn
        · exact ⟨hm, hm', hlen⟩
        · exact hns n (List.mem_reverse.mp hn)

/-- The 16-bit header of a segment whose mark fits it keeps the fragment. -/
theorem unit_of_head {seg : IKCPSEG} (h : seg.frg.toNat < 2 ^ 16) :
    ((seg.frg.setWidth 16 : IUINT16).setWidth 32 : IUINT32) = seg.frg := by
  apply BitVec.eq_of_toNat_eq
  rw [BitVec.toNat_setWidth, BitVec.toNat_setWidth]
  omega

/-- `ikcp_ack_push` is no business of the receiving half. -/
theorem rcvHalf_ikcpAckPush (kcp : IKCPCB) (sn ts : IUINT32) :
    (ikcpAckPush kcp sn ts).rcvHalf = kcp.rcvHalf := by
  rw [ikcpAckPush]
  split <;> rfl

/-- **A data segment**, fragment `m` of the log, whose number is less than `0x8000` from `rcvNum`:
    old, new or in the future, `RcvOk` is kept. -/
theorem inputData_ok {log taken : List (Nat × List Byte)} {rcvNum m : Nat} {kcp : IKCPCB}
    {seg : IKCPSEG} (h : RcvOk log taken rcvNum kcp) (hnum : seg.numbered = logEntry log m)
    (hfrg : seg.frg.toNat < 2 ^ 16) (hlen : m < log.length)
    (hnear : (rcvNum : Int) - 0x8000 < m) (hnear' : (m : Int) < rcvNum + 0x8000) (una : IUINT32) :
    ∃ n, rcvNum ≤ n ∧ RcvOk log taken n (inputData kcp seg.head una seg.data) := by
  have hsn : getId kcp.rcvNxt seg.head.tmpSn = BitVec.ofNat 32 m := by
    show getId kcp.rcvNxt (seg.sn.setWidth 16) = _
    have hs : seg.sn = BitVec.ofNat 32 m := congrArg Prod.fst hnum
    rw [h.nxt, hs, BitVec.setWidth_ofNat_of_le (by decide), getId_ofNat hnear hnear']
  rw [inputData, hsn]
  by_cases hwnd : itimediff (BitVec.ofNat 32 m) (kcp.rcvNxt + kcp.rcvWnd) < 0
  · rw [if_pos hwnd]
    -- the acknowledgement, pushed or not, leaves the receiving half as it is
    have hack : RcvOk log taken rcvNum
        (if seg.head.cmd = ikcpCmdPush ∨ kcp.dupack ≠ 0
          then ikcpAckPush kcp (BitVec.ofNat 32 m) seg.head.ts else kcp) := by
      split
      · exact h.congr (rcvHalf_ikcpAckPush ..)
      · exact h
    generalize (if seg.head.cmd = ikcpCmdPush ∨ kcp.dupack ≠ 0
          then ikcpAckPush kcp (BitVec.ofNat 32 m) seg.head.ts else kcp) = kcp' at hack
    -- an old number is acknowledged again, and not stored
    by_cases hold : itimediff (BitVec.ofNat 32 m) kcp'.rcvNxt ≥ 0
    · rw [if_pos hold]
      rw [hack.nxt, itimediff_ofNat (by omega) (by omega)] at hold
      refine ikcpParseData_ok hack (m := m) ?_ (by omega) (by omega) hlen
      have hu : log[m]? = some seg.unit := (congrArg Prod.snd hnum).symm
      show (BitVec.ofNat 32 m, some (((seg.frg.setWidth 16).setWidth 32 : IUINT32).toNat, seg.data))
        = (BitVec.ofNat 32 m, log[m]?)
      rw [hu, unit_of_head hfrg, IKCPSEG.unit]
    · rw [if_neg hold]
      exact ⟨rcvNum, Nat.le_refl _, hack⟩
  · rw [if_neg hwnd]
    exact ⟨rcvNum, Nat.le_refl _, h⟩

/-! ## Messages -/

/-- The fragments `pvp_ikcp_send` makes of a message (streaming mode off). -/
def cutMessage (mss : Nat) (buffer : List Byte) : List (Nat × List Byte) :=
  (sendFragments mss 0 (fragmentCount mss buffer.length) buffer).map IKCPSEG.unit

@[simp] theorem length_sendFragments (mss : Nat) (stream : Int) :
    ∀ (n : Nat) (buffer : List Byte), (sendFragments mss stream n buffer).length = n
  | 0, _ => rfl
  | n + 1, _ => congrArg (· + 1) (length_sendFragments mss stream n _)

/-- The marks of fragments count down, and a fragment is at most `mss` bytes long.  Induction on their
    number. -/
theorem sendFragments_bounds (mss : Nat) (stream : Int) (n : Nat) (buffer : List Byte) :
    ∀ f ∈ (sendFragments mss stream n buffer).map IKCPSEG.unit, f.1 < n ∧ f.2.length ≤ mss := by
  induction n generalizing buffer with
  | zero =>
    intro f hf
    exact absurd hf List.not_mem_nil
  | succ n ih =>
    intro f hf
    rw [sendFragments, List.map_cons] at hf
    rcases List.mem_cons.mp hf with rfl | hf
    · constructor
      · show (if stream = 0 then BitVec.ofNat 32 n else 0).toNat < n + 1
        split
        · rw [BitVec.toNat_ofNat]
          have hmod := Nat.mod_le n (2 ^ 32)
          omega
        · exact Nat.succ_pos n
      · show (buffer.take _).length ≤ mss
        rw [List.length_take]
        split <;> omega
    · obtain ⟨hmark, hlen⟩ := ih _ f hf
      exact ⟨Nat.lt_succ_of_lt hmark, hlen⟩

/-- The fragments of a message are the whole message.  Induction on their number. -/
theorem whole_sendFragments (mss : Nat) :
    ∀ (n : Nat) (buffer : List Byte), n < 2 ^ 32 → buffer.length ≤ (n + 1) * mss →
      Whole ((sendFragments mss 0 (n + 1) buffer).map IKCPSEG.unit) buffer
  | 0, buffer, _, hlen => by
    have hsize : (if buffer.length > mss then mss else buffer.length) = buffer.length :=
      if_neg (by omega)
    have hw := Whole.last buffer
    rw [sendFragments, hsize, List.take_length]
    exact hw
  | n + 1, buffer, hn, hlen => by
    -- the first fragment takes `mss` bytes, or what there is; the marks of the rest count down from
    -- `n`
    have hsplit : (n + 1 + 1) * mss = (n + 1) * mss + mss := Nat.succ_mul _ _
    rw [sendFragments, List.map_cons]
    generalize hs : (if buffer.length > mss then mss else buffer.length) = size
    have hdrop : (buffer.drop size).length ≤ (n + 1) * mss := by
      rw [List.length_drop, ← hs]
      split <;> omega
    have hw := (whole_sendFragments mss n (buffer.drop size) (by omega) hdrop).more
      (buffer.take size)
    rw [List.take_append_drop, List.length_map, length_sendFragments] at hw
    have hunit : IKCPSEG.unit
        { frg := if (0 : Int) = 0 then BitVec.ofNat 32 (n + 1) else 0, data := buffer.take size }
        = (n + 1, buffer.take size) := by
      rw [IKCPSEG.unit, if_pos rfl, BitVec.toNat_ofNat, Nat.mod_eq_of_lt hn]
    rw [hunit]
    exact hw

/-- The fragment count leaves room for the message. -/
theorem le_fragmentCount_mul {mss : Nat} (hmss : 0 < mss) (len : Nat) :
    1 ≤ fragmentCount mss len ∧ len ≤ fragmentCount mss len * mss := by
  rw [fragmentCount]
  by_cases h : len ≤ mss
  · rw [if_pos h]
    omega
  · rw [if_neg h]
    have hdiv := Nat.div_add_mod (len + mss - 1) mss
    have hmod := Nat.mod_lt (len + mss - 1) hmss
    rw [Nat.mul_comm] at hdiv
    refine ⟨(Nat.one_le_div_iff hmss).mpr (by omega), by omega⟩

theorem whole_cutMessage {mss : Nat} (hmss : 0 < mss) {buffer : List Byte}
    (h : fragmentCount mss buffer.length < 10000) : Whole (cutMessage mss buffer) buffer := by
  obtain ⟨h1, h2⟩ := le_fragmentCount_mul hmss buffer.length
  have he : fragmentCount mss buffer.length = fragmentCount mss buffer.length - 1 + 1 := by omega
  rw [cutMessage, he]
  exact whole_sendFragments mss _ buffer (by omega) (by rw [← he]; exact h2)

/-- The merge loop on a whole message at the front of the queue.  Induction on its fragments. -/
theorem mergeFragments_whole {fs : List (Nat × List Byte)} {m : List Byte} (h : Whole fs m) :
    ∀ (q : List IKCPSEG) (rest : List (Nat × List Byte)), q.map IKCPSEG.unit = fs ++ rest →
      mergeFragments q = (m, q.drop fs.length, fs.length) := by
  induction h with
  | last d =>
    intro q rest hq
    cases q with
    | nil => nomatch hq
    | cons seg q =>
      rw [List.map_cons, List.cons_append, List.cons.injEq] at hq
      have hfrg : seg.frg = 0 := BitVec.eq_of_toNat_eq (congrArg Prod.fst hq.1)
      have hd : seg.data = d := congrArg Prod.snd hq.1
      rw [mergeFragments, if_pos hfrg, hd]
      rfl
  | @more fs m d hw ih =>
    intro q rest hq
    cases q with
    | nil => nomatch hq
    | cons seg q =>
      rw [List.map_cons, List.cons_append, List.cons.injEq] at hq
      have hmark : seg.frg.toNat = fs.length := congrArg Prod.fst hq.1
      have hd : seg.data = d := congrArg Prod.snd hq.1
      -- a fragment with others of its message behind it is not the last
      have hfrg : seg.frg ≠ 0 := by
        intro h0
        obtain ⟨d', rest', hfs⟩ := hw.head
        rw [h0, hfs] at hmark
        nomatch hmark
      rw [mergeFragments, if_neg hfrg, ih q rest hq.2, hd]
      rfl

/-- A message is handed out only when the queue holds more fragments than the first mark says. -/
theorem lt_length_of_peeksize {kcp : IKCPCB} {seg : IKCPSEG} {q : List IKCPSEG}
    (hq : kcp.rcvQueue = seg :: q) (hnque : kcp.nrcvQue = kcp.rcvQueue.length)
    (hp : ¬ pvpIkcpPeeksize kcp < 0) : seg.frg.toNat < kcp.rcvQueue.length := by
  rw [pvpIkcpPeeksize, hq] at hp
  by_cases h0 : seg.frg = 0
  · rw [h0, hq]
    exact Nat.succ_pos _
  · rw [← hnque]
    by_cases hlt : kcp.nrcvQue < seg.frg.toNat + 1
    · simp only [if_neg h0, if_pos hlt] at hp
      exact absurd (by decide) hp
    · omega

/-- **`pvp_ikcp_recv` hands out the next message of the log**, or returns a negative value and
    changes nothing.  `ms` are the messages behind those already handed out. -/
theorem pvpIkcpRecv_ok {log taken : List (Nat × List Byte)} {rcvNum : Nat} {kcp : IKCPCB}
    {cut : List Byte → List (Nat × List Byte)} {ms : List (List Byte)}
    (h : RcvOk log taken rcvNum kcp) (hlog : log = taken ++ ms.flatMap cut)
    (hcut : ∀ m ∈ ms, Whole (cut m) m) (len : Nat) :
    ((pvpIkcpRecv kcp len).1.ret < 0 ∧ (pvpIkcpRecv kcp len).2 = kcp)
    ∨ ∃ m ms' n, ms = m :: ms' ∧ (pvpIkcpRecv kcp len).1 = ⟨m.length, m⟩
        ∧ rcvNum + Ikcp.advance kcp.rcvNxt (pvpIkcpRecv kcp len).2.rcvNxt = n
        ∧ RcvOk log (taken ++ cut m) n (pvpIkcpRecv kcp len).2 := by
  rw [pvpIkcpRecv]
  cases hq : kcp.rcvQueue with
  | nil =>
    rw [if_pos rfl]
    exact Or.inl ⟨Int.negSucc_lt_zero _, rfl⟩
  | cons seg q =>
    rw [if_neg (List.cons_ne_nil seg q)]
    by_cases hpeek : pvpIkcpPeeksize kcp < 0
    · rw [if_pos hpeek]
      exact Or.inl ⟨Int.negSucc_lt_zero _, rfl⟩
    rw [if_neg hpeek]
    by_cases hroom : pvpIkcpPeeksize kcp > (len : Int).natAbs
    · rw [if_pos hroom]
      exact Or.inl ⟨Int.negSucc_lt_zero _, rfl⟩
    rw [if_neg hroom]
    right
    -- what waits in `rcv_queue` is the front of the messages not yet handed out
    have hpre : kcp.rcvQueue.map IKCPSEG.unit <+: ms.flatMap cut := by
      refine ⟨log.drop rcvNum, ?_⟩
      have hsplit := List.take_append_drop rcvNum log
      rw [h.queue, List.append_assoc] at hsplit
      exact List.append_cancel_left (hsplit.trans hlog)
    have hlt := lt_length_of_peeksize hq h.nque hpeek
    obtain ⟨m, ms', rest, hms, hfront, -⟩ := next_message hcut hpre (f := seg.unit)
      (by rw [hq]; rfl) (by rw [List.length_map]; exact hlt)
    have hmerge := mergeFragments_whole (hcut m (hms ▸ List.mem_cons_self ..)) _ rest hfront
    -- the block once the message has left `rcv_queue`
    let kcp' := { kcp with rcvQueue := kcp.rcvQueue.drop (cut m).length
                           nrcvQue := kcp.nrcvQue - (cut m).length }
    have htaken : RcvOk log (taken ++ cut m) rcvNum kcp' :=
      { h with
        nque := by
          show kcp.nrcvQue - _ = _
          rw [List.length_drop, h.nque]
        full := by
          show (kcp.rcvQueue.drop _).length ≤ kcp.rcvWnd.toNat
          have := h.full
          rw [List.length_drop]
          omega
        queue := by
          show log.take rcvNum = taken ++ cut m ++ (kcp.rcvQueue.drop _).map IKCPSEG.unit
          rw [h.queue, hfront, List.append_assoc, List.map_drop, hfront, List.drop_left] }
    obtain ⟨n, hle, hok⟩ := moveRcvBuf_ok kcp.rcvBuf rcvNum kcp' rfl htaken
    -- room in `rcv_queue` may let segments in from `rcv_buf`
    have hadv : rcvNum + Ikcp.advance kcp.rcvNxt (moveRcvBuf kcp.rcvBuf kcp').rcvNxt = n :=
      htaken.advance hok hle
    have hlen : ¬ (len : Int) < 0 := by omega
    rw [← hq, hmerge]
    dsimp only
    rw [if_neg hlen]
    refine ⟨m, ms', n, hms, rfl, ?_, ?_⟩
    · split <;> exact hadv
    · apply hok.congr
      split <;> rfl

end ConnClient.Ikcp
