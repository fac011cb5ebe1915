/-
  How often a segment is repeated.

  Both senders repeat segments, and they keep different books.  `pvp_ikcp_flush` repeats a segment as
  long as its own `dupsendcount` is below that of the block, and counts the copy there.
  `pvp_ikcp_send_ex` repeats segments in front of the first one it sends, counts the copies of this call,
  and counts nothing on the segments.  So each of them is bounded and both together are not: a segment
  that was repeated by `pvp_ikcp_send_ex` is repeated by `pvp_ikcp_flush` all over again, and one that
  stays in front of the new ones, because those behind it were acknowledged first, is repeated by every
  `pvp_ikcp_send_ex`.

  A `Register` stands beside a block and holds how many copies of each segment have gone out, those of
  `pvp_ikcp_flush` and those of `pvp_ikcp_send_ex` apart.  It is fed from `copiesOf`, which is what is on
  the wire, and a segment keeps its count as long as it is in `snd_buf`.

  1. **The books of a block** are the numbers and the `dupsendcount` of the segments in `snd_buf`.  A call
     lets entries go, enters segments that are new with nothing counted, and adds one to each segment
     that a flush repeats (`call_booked`).
  2. **The books are right** in every run: `dupsendcount` is the number of copies that `pvp_ikcp_flush`
     made, and with its test in front of each copy it never exceeds the limit (`flushed_counted`).
  3. **Where `pvp_ikcp_send_ex` finds nothing to repeat** (`NothingToRepeat`), that is all there is
     (`copies_bounded`).
-/
import ConnClient.Ikcp.Layout

namespace ConnClient.Ikcp

open ConnClient.Lib

/-! ## The books of a block -/

/-- A segment's number, and the copies it has counted. -/
def SegTally.copyEntry (s : SegTally) : IUINT32 × IUINT32 := (s.sn, s.dupsendcount)

def Tallies.copyBook (t : Tallies) : List (IUINT32 × IUINT32) := t.segs.map SegTally.copyEntry

def IKCPCB.copyBook (k : IKCPCB) : List (IUINT32 × IUINT32) := k.tallies.copyBook

theorem copyBook_eq (k : IKCPCB) : k.copyBook = k.sndBuf.map fun seg => (seg.sn, seg.dupsendcount) :=
  List.map_map ..

theorem numbers_copyBook (k : IKCPCB) : k.copyBook.map Prod.fst = k.sndBuf.map IKCPSEG.sn := by
  rw [copyBook_eq, List.map_map]
  rfl

section CopyBooks

variable {t : Tallies}

/-- A transmission counts no copy. -/
theorem copyBook_send {i : Nat} {s : SegTally} (due : Due) (hi : t.segs[i]? = some s) :
    (t.send i s due).copyBook = t.copyBook := by
  have hsame : ∀ {s' : SegTally}, s'.copyEntry = s.copyEntry →
      (t.segs.set i s').map SegTally.copyEntry = t.copyBook :=
    fun hs' => map_set_eq hi hs'
  cases due with
  | first => exact hsame rfl
  | timeout =>
    unfold Tallies.send
    by_cases hlost : s.lost = 0
    · rw [if_pos hlost]
      exact hsame rfl
    · rw [if_neg hlost]
      exact hsame rfl
  | fastack => exact hsame rfl
  | no => rfl

/-- Copies count `d` each on the segments at their positions.  Induction on the positions. -/
theorem copyBook_copies (d : IUINT32) (is : List Nat) (t : Tallies) (j : Nat) :
    (is.foldl (Tallies.copied d) t).copyBook[j]?
      = t.copyBook[j]?.map fun e => (e.1, e.2 + BitVec.ofNat 32 (is.count j) * d) := by
  induction is generalizing t with
  | nil =>
    have hzero : ∀ e : IUINT32 × IUINT32, (e.1, e.2 + BitVec.ofNat 32 0 * d) = e := by
      intro e
      rw [BitVec.zero_mul, BitVec.add_zero]
    rw [List.foldl_nil, List.count_nil, funext hzero, Option.map_id']
  | cons i is ih =>
    rw [List.foldl_cons, ih]
    have hother : ∀ b : Option (IUINT32 × IUINT32), b.map (fun e => (e.1, e.2 + 0)) = b := by
      intro b
      cases b with
      | none => rfl
      | some e => rw [Option.map_some, add_zero]
    -- one copy: the entry at its position, and no other
    have hone : (t.copied d i).copyBook[j]?
        = t.copyBook[j]?.map fun e => (e.1, e.2 + if i = j then d else 0) := by
      rw [Tallies.copied]
      cases hi : t.segs[i]? with
      | none =>
        -- no segment is there
        by_cases hij : i = j
        · subst hij
          have hnone : t.copyBook[i]? = none := by
            rw [Tallies.copyBook, List.getElem?_map, hi, Option.map_none]
          rw [hnone, Option.map_none]
        · rw [if_neg hij, hother]
      | some s =>
        show ((t.segs.set i _).map SegTally.copyEntry)[j]? = _
        rw [List.map_set, List.getElem?_set]
        have hlt : i < (t.segs.map SegTally.copyEntry).length := by
          rw [List.length_map]
          exact (List.getElem?_eq_some_iff.mp hi).1
        by_cases hij : i = j
        · subst hij
          rw [if_pos rfl, if_pos hlt, Tallies.copyBook, List.getElem?_map, hi, if_pos rfl]
          rfl
        · rw [if_neg hij, if_neg hij, hother]
          rfl
    rw [hone, Option.map_map]
    congr 1
    funext e
    show (e.1, e.2 + (if i = j then d else 0) + _) = _
    -- the copies of the rest come on top of it
    rw [List.count_cons, BitVec.add_assoc]
    by_cases hij : i = j
    · rw [if_pos hij, if_pos (beq_iff_eq.mpr hij), BitVec.ofNat_add, BitVec.add_mul, BitVec.one_mul,
        BitVec.add_comm d]
    · rw [if_neg hij, if_neg (fun h => hij (beq_iff_eq.mp h)), Nat.add_zero, zero_add]

/-- Segments that enter have counted nothing.  Induction on how many do. -/
theorem copyBook_enter {f : Tallies → Tallies}
    (hf : ∀ t, (f t).copyBook = t.copyBook ++ [(t.sndNxt, 0)]) (n : Nat) (t : Tallies) :
    ∃ new, (f^[n] t).copyBook = t.copyBook ++ new ∧ ∀ e ∈ new, e.2 = 0 := by
  induction n with
  | zero => exact ⟨[], (List.append_nil _).symm, fun e he => absurd he List.not_mem_nil⟩
  | succ n ih =>
    obtain ⟨new, hbooks, hzero⟩ := ih
    rw [Function.iterate_succ_apply', hf, hbooks, List.append_assoc]
    refine ⟨_, rfl, fun e he => ?_⟩
    rcases List.mem_append.mp he with he | he
    · exact hzero e he
    · rw [List.mem_singleton.mp he]

end CopyBooks

/-! ## What a call does to the books -/

/-- Entries may leave; one that stays has what it had and the copies `sns`; one that is new has nothing. -/
def Booked (b b' : List (IUINT32 × IUINT32)) (sns : List IUINT32) : Prop :=
  ∀ e ∈ b', (∃ e₀ ∈ b, e₀.1 = e.1 ∧ e.2 = e₀.2 + BitVec.ofNat 32 (sns.count e.1))
    ∨ e.2 = 0 ∧ e.1 ∉ b.map Prod.fst

/-- Nothing is counted where entries only leave. -/
theorem Booked.sublist {b b' : List (IUINT32 × IUINT32)} (h : b'.Sublist b) : Booked b b' [] := by
  intro e he
  refine Or.inl ⟨e, h.subset he, rfl, ?_⟩
  rw [List.count_nil]
  exact (BitVec.add_zero _).symm

/-- **Copies by their positions.** The positions are of older segments, and no number comes twice,
    so a position and the number there are the same thing, and counting the one is counting the
    other. -/
theorem booked_of_positions {b b' new : List (IUINT32 × IUINT32)} {is : List Nat}
    (hnew : ∀ e ∈ new, e.2 = 0) (his : ∀ j ∈ is, j < b.length) (hb' : (b'.map Prod.fst).Nodup)
    (hbooks : ∀ j : Nat, b'[j]? = (b ++ new)[j]?.map fun e => (e.1, e.2 + BitVec.ofNat 32 (is.count j))) :
    Booked b b' (is.filterMap fun j => (b.map Prod.fst)[j]?) := by
  have hnumber : ∀ j : Nat, (b'.map Prod.fst)[j]? = ((b ++ new).map Prod.fst)[j]? := by
    intro j
    rw [List.getElem?_map, List.getElem?_map, hbooks, Option.map_map]
    rfl
  have hold : ∀ {j : Nat}, j < b.length → (b'.map Prod.fst)[j]? = (b.map Prod.fst)[j]? := by
    intro j hj
    rw [hnumber, List.map_append, List.getElem?_append_left (by rw [List.length_map]; exact hj)]
  intro e he
  obtain ⟨j, hj⟩ := List.mem_iff_getElem?.mp he
  have hsn : (b'.map Prod.fst)[j]? = some e.1 := by rw [List.getElem?_map, hj, Option.map_some]
  have hlen := (List.getElem?_eq_some_iff.mp hsn).1
  -- the number of an entry tells its position
  have hunique : ∀ {i : Nat}, (b'.map Prod.fst)[i]? = some e.1 → i = j := by
    intro i hi
    exact (List.getElem?_inj (List.getElem?_eq_some_iff.mp hi).1 hb').mp (hi.trans hsn.symm)
  rw [hbooks, List.getElem?_append] at hj
  by_cases hlt : j < b.length
  · -- an older segment: its copies are those at its position
    left
    rw [if_pos hlt] at hj
    obtain ⟨e₀, he₀, rfl⟩ := Option.map_eq_some_iff.mp hj
    have hcount : (is.filterMap fun i => (b.map Prod.fst)[i]?).count e₀.1 = is.count j := by
      rw [List.count_filterMap, List.count_eq_countP]
      refine List.countP_congr fun i hi => ?_
      rw [beq_iff_eq, beq_iff_eq, ← hold (his i hi)]
      refine ⟨hunique, fun hij => ?_⟩
      rw [hij]
      exact hsn
    exact ⟨e₀, List.mem_of_getElem? he₀, rfl, by rw [hcount]⟩
  · -- a new one
    right
    rw [if_neg hlt] at hj
    obtain ⟨e₀, he₀, rfl⟩ := Option.map_eq_some_iff.mp hj
    have hnone : is.count j = 0 := List.count_eq_zero.mpr fun hmem => hlt (his j hmem)
    refine ⟨?_, fun hmem => ?_⟩
    · rw [hnew e₀ (List.mem_of_getElem? he₀), hnone]
      rfl
    · obtain ⟨i, hi⟩ := List.mem_iff_getElem?.mp hmem
      have hilt := (List.getElem?_eq_some_iff.mp hi).1
      rw [List.length_map] at hilt
      exact hlt (hunique ((hold hilt).trans hi) ▸ hilt)

section Calls

variable {k : IKCPCB}

/-- **A flush**: transfers enter, transmissions count nothing, and each copy is counted where it is made. -/
theorem pvpIkcpFlush_copyBook (h : k.updated = true) :
    ∃ new : List (IUINT32 × IUINT32), (∀ e ∈ new, e.2 = 0) ∧ ∀ j : Nat, (pvpIkcpFlush k).1.copyBook[j]?
      = (k.copyBook ++ new)[j]?.map fun e => (e.1, e.2 + BitVec.ofNat 32 ((dupPositions k).count j)) := by
  obtain ⟨n, hhead⟩ := flushHead_tallies k
  obtain ⟨new, henter, hzero⟩ := copyBook_enter (f := Tallies.transfer) (fun t => List.map_append) n k.tallies
  rw [← hhead] at henter
  let kcp := (flushHead k).2.kcp
  let a := flushArgs kcp (ikcpWndUnused k)
  let st := flushData a kcp.sndBuf.length 0 { out := (flushHead k).2 }
  -- the data loop transmits and counts no copy
  have hdata : st.out.kcp.copyBook = kcp.copyBook := by
    refine flushData_rule (P := fun _ st => st.out.kcp.copyBook = kcp.copyBook) (fun i segment st h hi => ?_)
      _ 0 _ (Nat.zero_add _) rfl
    have hseg : st.out.kcp.tallies.segs[i]? = some segment.tally := by
      show (st.out.kcp.sndBuf.map IKCPSEG.tally)[i]? = _
      rw [List.getElem?_map, hi]
      rfl
    show (flushSegment a i segment st).out.kcp.tallies.copyBook = _
    rw [flushSegment_tallies, copyBook_send _ hseg]
    exact h
  -- the loop over `dup_segs` is the one that counts
  have hflush : (pvpIkcpFlush k).1.copyBook
      = ((dupPositions k).foldl (Tallies.copied 1) st.out.kcp.tallies).copyBook := by
    rw [pvpIkcpFlush, if_neg (by rw [h]; exact Bool.noConfusion)]
    show (flushTail (flushHead k).1 a.resent st.change st.lost
      (ikcpOutput (flushDups a st.dupSegs st.out)).kcp).tallies.copyBook = _
    rw [flushTail_tallies, ikcpOutput_kcp, flushDups_tallies]
    rfl
  have hentered : st.out.kcp.tallies.copyBook = k.copyBook ++ new := hdata.trans henter
  refine ⟨new, hzero, fun j => ?_⟩
  rw [hflush, copyBook_copies, hentered]
  simp only [mul_one]

/-- `pvp_ikcp_send_ex` makes its copies without counting them: what it writes back to `snd_buf` has
    the old `dupsendcount`. -/
theorem pvpIkcpSendEx_copyBook (k : IKCPCB) (msg : List Byte) (current : IUINT32) :
    ∃ new : List (IUINT32 × IUINT32), (∀ e ∈ new, e.2 = 0)
      ∧ (pvpIkcpSendEx k msg current).2.1.copyBook = k.copyBook ++ new := by
  obtain ⟨n, is, hsent⟩ := pvpIkcpSendEx_tallies k msg current
  obtain ⟨new, henter, hzero⟩ := copyBook_enter (f := Tallies.sendNew) (fun t => List.map_append) n k.tallies
  refine ⟨new, hzero, ?_⟩
  apply List.ext_getElem?
  intro j
  rw [IKCPCB.copyBook, hsent, copyBook_copies, henter]
  simp only [mul_zero, add_zero]
  exact Option.map_id'

/-- In the window no number comes twice. -/
theorem Sending.nodup (h : Sending k) : (k.sndBuf.map IKCPSEG.sn).Nodup := by
  have hsorted := h.windowed.ascending.sorted
  rw [numbers_sndHalf] at hsorted
  refine List.Pairwise.imp ?_ hsorted
  rintro a b hlt rfl
  exact Nat.lt_irrefl _ hlt

/-- The numbers of the segments that a flush repeats in this call. -/
def flushedBy (k : IKCPCB) : Call → List IUINT32
  | .update current => copiesOf k (.update current)
  | .flush => copiesOf k .flush
  | _ => []

/-- The numbers of the segments that `pvp_ikcp_send_ex` repeats in this call. -/
def repeatedBy (k : IKCPCB) : Call → List IUINT32
  | .sendEx msg current => copiesOf k (.sendEx msg current)
  | _ => []

/-- **A flush counts its copies.** -/
theorem flush_booked (hup : k.updated = true) (hflush : Sending (pvpIkcpFlush k).1) :
    Booked k.copyBook (pvpIkcpFlush k).1.copyBook (flushCopies k) := by
  obtain ⟨new, hzero, hbooks⟩ := pvpIkcpFlush_copyBook hup
  obtain ⟨-, hcopies, hfound⟩ := flushData_due k
  have hnodup : ((pvpIkcpFlush k).1.copyBook.map Prod.fst).Nodup := by
    rw [numbers_copyBook]
    exact hflush.nodup
  have hlt : ∀ j ∈ dupPositions k, j < k.copyBook.length := by
    intro j hj
    obtain ⟨seg, hseg, -⟩ := hfound j hj
    rw [copyBook_eq, List.length_map]
    exact (List.getElem?_eq_some_iff.mp hseg).1
  rw [hcopies, numbersAt, ← numbers_copyBook]
  exact booked_of_positions hzero hlt hnodup hbooks

theorem updateFlush_booked (h : Sending k) (current : IUINT32) :
    Booked k.copyBook (updateFlush k current).copyBook (flushedBy k (.update current)) := by
  have hground := updateHead_ground k current
  have hhead : (updateHead k current).2.copyBook = k.copyBook :=
    congrArg Tallies.copyBook (updateHead_tallies k current)
  have hsend := sending_sndInv.same h hground
  have hflush : Sending (pvpIkcpFlush (updateHead k current).2).1 :=
    (sending_sndInv.run (labels_true _) hsend .flush fun snd rcv => nofun).1
  rw [updateFlush, flushedBy, copiesOf]
  generalize updateHead k current = e at hhead hflush
  obtain ⟨flush, k₀⟩ := e
  dsimp only at hhead hflush ⊢
  rw [← hhead]
  cases flush with
  | false =>
    rw [if_pos (Or.inl rfl)]
    exact .sublist (List.Sublist.refl _)
  | true =>
    rw [if_pos rfl]
    by_cases hup : k₀.updated = false
    · rw [if_pos (Or.inr hup), pvpIkcpFlush, if_pos hup]
      exact .sublist (List.Sublist.refl _)
    · rw [if_neg (by simp [hup])]
      exact flush_booked (eq_true_of_ne_false hup) hflush

/-- **What a call does to the books.** -/
theorem call_booked (h : Sending k) {c : Call} (hwnd : KeepsWindow c) :
    Booked k.copyBook (c.run k).1.copyBook (flushedBy k c) := by
  have hrun := (sending_sndInv.run (labels_true _) h c fun snd rcv he => absurd he (hwnd snd rcv)).1
  have hsame : ∀ {k' : IKCPCB}, k'.copyBook = k.copyBook → Booked k.copyBook k'.copyBook [] := by
    intro k' hbooks
    rw [hbooks]
    exact .sublist (List.Sublist.refl _)
  cases c with
  | send msg current => exact hsame (congrArg Tallies.copyBook (pvpIkcpSend_tallies k msg current))
  | sendEx msg current =>
    obtain ⟨new, hzero, hbooks⟩ := pvpIkcpSendEx_copyBook k msg current
    have hnodup : ((pvpIkcpSendEx k msg current).2.1.copyBook.map Prod.fst).Nodup := by
      rw [numbers_copyBook]
      exact hrun.nodup
    -- no position is counted
    have hpositions : ∀ j ∈ ([] : List Nat), j < k.copyBook.length := fun j hj => absurd hj List.not_mem_nil
    refine booked_of_positions hzero hpositions hnodup fun j => ?_
    show (pvpIkcpSendEx k msg current).2.1.copyBook[j]? = _
    rw [hbooks, List.count_nil]
    simp only [BitVec.add_zero]
    exact Option.map_id'.symm
  | update current =>
    have hlost : (pvpIkcpUpdateLost (updateFlush k current) current).copyBook
        = (updateFlush k current).copyBook := by
      rw [IKCPCB.copyBook, pvpIkcpUpdateLost_tallies]
      split
      · rw [Tallies.close]
        split <;> rfl
      · rfl
    rw [Call.run, pvpIkcpUpdate_lost, hlost]
    exact updateFlush_booked h current
  | flush =>
    rw [flushedBy, copiesOf]
    by_cases hup : k.updated = false
    · rw [if_pos hup, Call.run, pvpIkcpFlush, if_pos hup]
      exact hsame rfl
    · rw [if_neg hup]
      exact flush_booked (eq_true_of_ne_false hup) hrun
  | recv len => exact hsame (congrArg Tallies.copyBook (pvpIkcpRecv_tallies k len))
  | input data current => exact .sublist ((pvpIkcpInput_lets k data current).sub.map _)
  | nodelay on interval resend nc =>
    exact hsame (congrArg Tallies.copyBook (pvpIkcpNodelay_tallies k on interval resend nc))
  | wndsize sndwnd rcvwnd =>
    exact hsame (congrArg Tallies.copyBook (pvpIkcpWndsize_tallies k sndwnd rcvwnd))
  | setdupsend | intervalLost | fields => exact hsame rfl

/-- **What a flush repeats passes its test**: each segment once, and each with less counted than the block
    asks for. -/
theorem flushedBy_spare (h : Sending k) (c : Call) : (flushedBy k c).Nodup
    ∧ ∀ sn ∈ flushedBy k c, ∃ e ∈ k.copyBook, e.1 = sn ∧ e.2 < k.dupsendcount := by
  have hflush : ∀ k₀ : IKCPCB, k₀.sndBuf = k.sndBuf → k₀.dupsendcount = k.dupsendcount →
      (flushCopies k₀).Nodup
        ∧ ∀ sn ∈ flushCopies k₀, ∃ e ∈ k.copyBook, e.1 = sn ∧ e.2 < k.dupsendcount := by
    intro k₀ hbuf hcount
    obtain ⟨hnodup, hdue⟩ := flushCopies_due k₀ (hbuf ▸ h.nodup)
    refine ⟨hnodup, fun sn hsn => ?_⟩
    obtain ⟨seg, hmem, hnumber, -, hwants⟩ := hdue sn hsn
    rw [wantsDup] at hwants
    simp only [Bool.and_eq_true, decide_eq_true_eq] at hwants
    refine ⟨(seg.sn, seg.dupsendcount), ?_, hnumber, hcount ▸ hwants.1.1.2⟩
    rw [copyBook_eq, ← hbuf]
    exact List.mem_map_of_mem hmem
  have hnone : ([] : List IUINT32).Nodup
      ∧ ∀ sn ∈ ([] : List IUINT32), ∃ e ∈ k.copyBook, e.1 = sn ∧ e.2 < k.dupsendcount :=
    ⟨List.nodup_nil, fun sn hsn => absurd hsn List.not_mem_nil⟩
  cases c with
  | update current =>
    obtain ⟨_, _, hset⟩ := updateHead_eq k current
    have hhead := hflush (updateHead k current).2 (by rw [hset]) (by rw [hset])
    rw [flushedBy, copiesOf]
    generalize updateHead k current = e at hhead
    obtain ⟨flush, k₀⟩ := e
    dsimp only at hhead ⊢
    split
    · exact hnone
    · exact hhead
  | flush =>
    rw [flushedBy, copiesOf]
    split
    · exact hnone
    · exact hflush k rfl rfl
  | _ => exact hnone

end Calls

/-! ## What the fast path finds -/

/-- The walk back of the fast path ends where it begins: nothing is transferred, or no copy is asked
    for, or the last segment of `snd_buf`, if there is one, does not fit the open datagram.  All of
    it is read off the block before the call. -/
def NothingToRepeat (k : IKCPCB) : Prop :=
  ¬ Transfers k ∨ k.dupsendcount = 0 ∨ ∀ seg ∈ k.sndBuf.getLast?, k.mtu < openLoad k + segSize seg

instance (k : IKCPCB) : Decidable (NothingToRepeat k) := inferInstanceAs (Decidable (_ ∨ _ ∨ _))

/-- **That is when it repeats nothing**, and only then: the first segment the walk looks at decides.
    -/
theorem sendExCopies_nil (k : IKCPCB) : sendExCopies k = [] ↔ NothingToRepeat k := by
  rw [sendExCopies]
  by_cases hmoves : Transfers k
  · obtain ⟨hlaid, hbuf, -, -⟩ := fastData_launched k
    have hbuf : (fastData k).kcp.sndBuf = k.sndBuf ++ newSegs k := hbuf
    rw [if_pos ((fastData_moved k).mpr hmoves), NothingToRepeat]
    rcases List.eq_nil_or_concat k.sndBuf with hnone | ⟨front, seg, hlast⟩
    · rw [hnone]
      refine ⟨fun _ => Or.inr (Or.inr fun seg hseg => ?_), fun _ => rfl⟩
      cases hseg
    · rw [List.concat_eq_append] at hlast
      -- the last segment of `snd_buf` is the one in front of the first new one
      have hseg : (fastData k).kcp.sndBuf[front.length]? = some seg := by
        rw [hbuf, hlast, List.append_assoc, List.getElem?_append_right (Nat.le_refl _), Nat.sub_self]
        rfl
      have hget : k.sndBuf.getLast? = some seg := by rw [hlast, List.getLast?_concat]
      have hlen : k.sndBuf.length = front.length + 1 := by rw [hlast, List.length_append, List.length_singleton]
      have hload : (fastData k).ptr.length + (ikcpOverhead + seg.len) = openLoad k + segSize seg := by
        rw [hlaid.length, segSize, openLoad]
      rw [hlen, walkCopies, hseg, hget]
      dsimp only
      rw [hload, hlaid.cap, (fastData_added k).dupsendcount]
      by_cases hfull : openLoad k + segSize seg > k.mtu
      · rw [if_pos hfull]
        refine ⟨fun _ => Or.inr (Or.inr fun seg' hseg' => ?_), fun _ => rfl⟩
        cases hseg'
        exact hfull
      rw [if_neg hfull]
      by_cases hzero : 0 ≥ k.dupsendcount.toNat
      · rw [if_pos hzero]
        refine ⟨fun _ => Or.inr (Or.inl (BitVec.eq_of_toNat_eq ?_)), fun _ => rfl⟩
        exact Nat.le_zero.mp hzero
      · rw [if_neg hzero]
        refine ⟨fun h => absurd h (List.cons_ne_nil _ _), fun h => ?_⟩
        rcases h with hstill | hnone | hfit
        · exact absurd hmoves hstill
        · rw [hnone] at hzero
          exact absurd (Nat.le_refl _) hzero
        · exact absurd (hfit seg rfl) hfull
  · rw [if_neg fun h => hmoves ((fastData_moved k).mp h)]
    exact ⟨fun _ => Or.inl hmoves, fun _ => rfl⟩

/-- If the call is `pvp_ikcp_send_ex`, its message is taken and the block in use, then it finds nothing to
    repeat. -/
def RepeatsNothing (k : IKCPCB) : Call → Prop
  | .sendEx msg current => (pvpIkcpSend k msg current).1 = 0 →
    (pvpIkcpSend k msg current).2.updated = true →
      NothingToRepeat (told (pvpIkcpSend k msg current).2 current)
  | _ => True

instance (k : IKCPCB) : ∀ c, Decidable (RepeatsNothing k c)
  | .sendEx .. => inferInstanceAs (Decidable (_ = _ → _ = _ → _))
  | .send .. | .update _ | .flush | .recv _ | .input .. | .nodelay .. | .wndsize .. | .setdupsend ..
  | .intervalLost _ | .fields .. => inferInstanceAs (Decidable True)

theorem repeatedBy_nil {k : IKCPCB} {c : Call} (h : RepeatsNothing k c) : repeatedBy k c = [] := by
  cases c with
  | sendEx msg current =>
    rw [repeatedBy, copiesOf]
    rw [RepeatsNothing] at h
    generalize pvpIkcpSend k msg current = r at h
    obtain ⟨ret, kcp⟩ := r
    dsimp only at h ⊢
    split
    · rfl
    · rename_i hgo
      obtain ⟨hret, hup⟩ := not_or.mp hgo
      exact (sendExCopies_nil _).mpr (h (not_not.mp hret) (eq_true_of_ne_false hup))
  | _ => rfl

/-! ## Runs -/

/-- A block in use, with the number of copies that went out of each segment of `snd_buf`, those of
    `pvp_ikcp_flush` and those of `pvp_ikcp_send_ex`. -/
structure Register where
  kcp : IKCPCB
  flushed : IUINT32 → Nat := fun _ => 0
  repeated : IUINT32 → Nat := fun _ => 0

/-- All copies of a segment. -/
def Register.copies (r : Register) (sn : IUINT32) : Nat := r.flushed sn + r.repeated sn

/-- A segment keeps its count as long as it is in `snd_buf`.  A number that comes back after `2 ^
    32` others is another segment, and starts again. -/
def Register.kept (r : Register) (count : IUINT32 → Nat) (sn : IUINT32) : Nat :=
  if sn ∈ r.kcp.sndBuf.map IKCPSEG.sn then count sn else 0

def Register.call (r : Register) (c : Call) : Register where
  kcp := (c.run r.kcp).1
  flushed := fun sn => r.kept r.flushed sn + (flushedBy r.kcp c).count sn
  repeated := fun sn => r.kept r.repeated sn + (repeatedBy r.kcp c).count sn

/-- No call stops. -/
def registerStep (c : Call) (r : Register) : Except Unit Register := .ok (r.call c)

/-- The start: a block that was created and configured, for `count` copies. -/
structure Register.Start (conv : IUINT32) (count : Nat) (r : Register) : Prop where
  kcp : Configured conv r.kcp
  limit : r.kcp.dupsendcount.toNat = count
  flushed : ∀ sn, r.flushed sn = 0
  repeated : ∀ sn, r.repeated sn = 0

/-- **The books are right**: the block is in order and keeps its limit, what a segment has counted
    is what `pvp_ikcp_flush` made, and that is within the limit.  Nothing is said of what
    `pvp_ikcp_send_ex` made, as no part of the block counts it. -/
structure Register.Right (count : Nat) (r : Register) : Prop where
  sending : Sending r.kcp
  limit : r.kcp.dupsendcount.toNat = count
  counted : ∀ e ∈ r.kcp.copyBook, r.flushed e.1 = e.2.toNat
  le : ∀ sn, r.flushed sn ≤ count

section Right

variable {r : Register} {count : Nat}

theorem Register.kept_le (r : Register) (f : IUINT32 → Nat) (sn : IUINT32) : r.kept f sn ≤ f sn := by
  rw [kept]
  split
  · exact Nat.le_refl _
  · exact Nat.zero_le _

/-- A segment that a flush repeats has less than the limit. -/
theorem Register.Right.spare (h : r.Right count) {c : Call} {sn : IUINT32} (hsn : sn ∈ flushedBy r.kcp c) :
    r.flushed sn < count ∧ sn ∈ r.kcp.sndBuf.map IKCPSEG.sn ∧ (flushedBy r.kcp c).count sn = 1 := by
  obtain ⟨hnodup, hspare⟩ := flushedBy_spare h.sending c
  obtain ⟨e, he, rfl, hlt⟩ := hspare sn hsn
  refine ⟨?_, ?_, List.count_eq_one_of_mem hnodup hsn⟩
  · rw [h.counted e he, ← h.limit]
    exact hlt
  · rw [← numbers_copyBook]
    exact List.mem_map_of_mem he

/-- **One call more.** -/
theorem Register.Right.call (h : r.Right count) {c : Call} (hwnd : KeepsWindow c) (hcount : KeepsCount c) :
    (r.call c).Right count := by
  constructor
  · exact (sending_sndInv.run (labels_true _) h.sending c fun snd rcv he => absurd he (hwnd snd rcv)).1
  · show (c.run r.kcp).1.dupsendcount.toNat = count
    rw [call_dupsendcount r.kcp hcount]
    exact h.limit
  · intro e he
    show r.kept r.flushed e.1 + (flushedBy r.kcp c).count e.1 = _
    rcases call_booked h.sending hwnd e he with ⟨e₀, he₀, hsn, hdup⟩ | ⟨hzero, hnew⟩
    · -- it was there: what it had, and one more if the flush repeats it
      have hmem : e.1 ∈ r.kcp.sndBuf.map IKCPSEG.sn := by
        rw [← numbers_copyBook, ← hsn]
        exact List.mem_map_of_mem he₀
      have hhad : r.flushed e.1 = e₀.2.toNat := by rw [← hsn, h.counted e₀ he₀]
      rw [Register.kept, if_pos hmem, hdup, hhad]
      by_cases hrep : e.1 ∈ flushedBy r.kcp c
      · obtain ⟨hlt, -, hone⟩ := h.spare hrep
        rw [hhad, ← h.limit] at hlt
        -- below the limit, so one more does not wrap
        have hbound := r.kcp.dupsendcount.isLt
        rw [hone, BitVec.toNat_add, BitVec.toNat_ofNat]
        omega
      · rw [List.count_eq_zero.mpr hrep]
        exact congrArg BitVec.toNat (BitVec.add_zero e₀.2).symm
    · -- it is new
      rw [numbers_copyBook] at hnew
      have hrep : e.1 ∉ flushedBy r.kcp c := fun hrep => hnew (h.spare hrep).2.1
      rw [Register.kept, if_neg hnew, List.count_eq_zero.mpr hrep, hzero]
      rfl
  · intro sn
    show r.kept r.flushed sn + (flushedBy r.kcp c).count sn ≤ count
    have hkept := r.kept_le r.flushed sn
    have hle := h.le sn
    by_cases hrep : sn ∈ flushedBy r.kcp c
    · obtain ⟨hlt, -, hone⟩ := h.spare hrep
      omega
    · rw [List.count_eq_zero.mpr hrep]
      omega

theorem Register.Start.right {conv : IUINT32} (h : r.Start conv count) : r.Right count := by
  refine ⟨h.kcp.sending, h.limit, fun e he => ?_, fun sn => ?_⟩
  · rw [copyBook_eq, h.kcp.fresh.empty.2.2.1] at he
    cases he
  · rw [h.flushed]
    exact Nat.zero_le _

theorem Register.Right.seg (h : r.Right count) {seg : IKCPSEG} (hseg : seg ∈ r.kcp.sndBuf) :
    r.flushed seg.sn = seg.dupsendcount.toNat := by
  have hmem : (seg.sn, seg.dupsendcount) ∈ r.kcp.copyBook := by
    rw [copyBook_eq]
    exact List.mem_map_of_mem hseg
  exact h.counted _ hmem

end Right

/-- **What the test of `pvp_ikcp_flush` achieves**, in every run, whatever `pvp_ikcp_send_ex` does: the
    `dupsendcount` of a segment is the number of copies that flushes made of it, and these are `count` at
    most. -/
theorem flushed_counted {conv : IUINT32} {count : Nat} {r : Register}
    (h : Reach registerStep (Register.Start conv count) (fun _ c => KeepsWindow c ∧ KeepsCount c) r) :
    r.Right count := by
  refine Reach.inv (I := Register.Right count) (fun r hr => hr.right) ?_ h
  rintro r r' c - hr ⟨hwnd, hcount⟩ hstep
  exact Except.ok.inj hstep ▸ hr.call hwnd hcount

/-- **Redundancy is bounded** in every run in which `pvp_ikcp_send_ex` finds nothing to repeat: no segment
    is repeated more than `count` times, and `dupsendcount` is how often it was; and whatever is called
    next, what it repeats is what `copiesOf` says. -/
theorem copies_bounded (conv : IUINT32) (count : Nat) (r : Register)
    (h : Reach registerStep (Register.Start conv count)
      (fun r c => KeepsWindow c ∧ KeepsCount c ∧ RepeatsNothing r.kcp c) r) :
    (∀ sn, r.copies sn ≤ count)
      ∧ (∀ seg ∈ r.kcp.sndBuf, r.copies seg.sn = seg.dupsendcount.toNat)
      ∧ ∀ c, ∃ datagrams : List (List IKCPSEG),
        (c.run r.kcp).2.map Prod.snd = datagrams.map (List.flatMap ikcpSegBytes)
          ∧ datagrams.flatten.filterMap copyNumber = copiesOf r.kcp c := by
  have hright : r.Right count := flushed_counted (h.mono fun r c hc => ⟨hc.1, hc.2.1⟩)
  -- no call repeats anything but a flush
  have hnone : ∀ sn, r.repeated sn = 0 := by
    refine Reach.inv (I := fun r : Register => ∀ sn, r.repeated sn = 0) (fun r hr => hr.repeated) ?_ h
    rintro r r' c - hr ⟨-, -, hc⟩ hstep sn
    rw [← Except.ok.inj hstep]
    show r.kept r.repeated sn + (repeatedBy r.kcp c).count sn = 0
    have hkept := r.kept_le r.repeated sn
    rw [repeatedBy_nil hc, List.count_nil]
    rw [hr sn] at hkept
    omega
  have hall : ∀ sn, r.copies sn = r.flushed sn := by
    intro sn
    rw [Register.copies, hnone]
    rfl
  refine ⟨fun sn => ?_, fun seg hseg => ?_, fun c => ?_⟩
  · rw [hall]
    exact hright.le sn
  · rw [hall]
    exact hright.seg hseg
  · obtain ⟨datagrams, hsent, -, hcopies⟩ := copiesOf_carry hright.sending c
    exact ⟨datagrams, hsent, hcopies⟩

/-- A block that was configured for `count` copies. -/
def Register.fresh (count : Int) : Register :=
  { kcp := dupBlock count }

/-- One message, and flushes when copies are due and timeouts are not. -/
def oneMessage (r : Register) : Register :=
  ((((r.call (.update 10)).call (.sendEx [1] 20)).call (.update 60)).call (.update 110)).call (.update 160)

/-- Two copies of it go out, in the first two flushes, and none in the third. -/
theorem copies_bounded_two :
    (oneMessage (.fresh 2)).copies 0 = 2 ∧ ∀ sn, (oneMessage (.fresh 2)).copies sn ≤ 2 := by
  have hrun : Reach registerStep (Register.Start 7 2)
      (fun r c => KeepsWindow c ∧ KeepsCount c ∧ RepeatsNothing r.kcp c) (oneMessage (.fresh 2)) := by
    have h₀ : Register.Start 7 2 (.fresh 2) :=
      ⟨.setdupsend (.nodelay .create 1 10 0 1) 2 0 0 0 0, rfl, fun _ => rfl, fun _ => rfl⟩
    have hstep : ∀ {r c}, Reach registerStep (Register.Start 7 2)
          (fun r c => KeepsWindow c ∧ KeepsCount c ∧ RepeatsNothing r.kcp c) r →
        KeepsWindow c → KeepsCount c → RepeatsNothing r.kcp c →
        Reach registerStep (Register.Start 7 2)
          (fun r c => KeepsWindow c ∧ KeepsCount c ∧ RepeatsNothing r.kcp c) (r.call c) :=
      fun hr hwnd hcount hnone => .step hr ⟨hwnd, hcount, hnone⟩ rfl
    have h₁ := hstep (c := .update 10) (.start h₀) (fun _ _ => nofun) (fun _ _ _ _ _ => nofun) trivial
    -- `snd_buf` is empty when the message is sent
    have h₂ := hstep (c := .sendEx [1] 20) h₁ (fun _ _ => nofun) (fun _ _ _ _ _ => nofun)
      (by decide +kernel)
    have h₃ := hstep (c := .update 60) h₂ (fun _ _ => nofun) (fun _ _ _ _ _ => nofun) trivial
    have h₄ := hstep (c := .update 110) h₃ (fun _ _ => nofun) (fun _ _ _ _ _ => nofun) trivial
    exact hstep (c := .update 160) h₄ (fun _ _ => nofun) (fun _ _ _ _ _ => nofun) trivial
  exact ⟨by decide +kernel, (copies_bounded 7 2 _ hrun).1⟩

/-- Two messages, and a flush when copies are due and timeouts are not. -/
def twoMessages (r : Register) : Register :=
  (((r.call (.update 10)).call (.sendEx [1] 20)).call (.sendEx [2] 20)).call (.update 60)

/-- One copy of each segment was asked for; the first goes out twice more all the same. -/
theorem copies_exceed :
    ¬ ∀ (conv : IUINT32) (count : Nat) (r : Register),
      Reach registerStep (Register.Start conv count) (fun _ c => KeepsWindow c ∧ KeepsCount c) r →
        ∀ sn, r.copies sn ≤ count := by
  intro h
  have hrun : Reach registerStep (Register.Start 7 1) (fun _ c => KeepsWindow c ∧ KeepsCount c)
      (twoMessages (.fresh 1)) := by
    have h₀ : Register.Start 7 1 (.fresh 1) :=
      ⟨.setdupsend (.nodelay .create 1 10 0 1) 1 0 0 0 0, rfl, fun _ => rfl, fun _ => rfl⟩
    have step : ∀ {r c}, Reach registerStep (Register.Start 7 1) (fun _ c => KeepsWindow c ∧ KeepsCount c) r →
        KeepsWindow c → KeepsCount c →
        Reach registerStep (Register.Start 7 1) (fun _ c => KeepsWindow c ∧ KeepsCount c) (r.call c) :=
      fun hr hwnd hcount => .step hr ⟨hwnd, hcount⟩ rfl
    exact step (step (step (step (.start h₀) (fun _ _ => nofun) fun _ _ _ _ _ => nofun)
      (fun _ _ => nofun) fun _ _ _ _ _ => nofun) (fun _ _ => nofun) fun _ _ _ _ _ => nofun)
      (fun _ _ => nofun) fun _ _ _ _ _ => nofun
  have hle := h 7 1 _ hrun 0
  have htwice : (twoMessages (.fresh 1)).copies 0 = 2 := by decide +kernel
  rw [htwice] at hle
  exact absurd hle (by decide)

/-- The fast path alone does it where an acknowledgement comes out of order: the first segment stands in
    front of the third as well. -/
example : ((((((Register.fresh 1).call (.update 10)).call (.sendEx [1] 20)).call (.sendEx [2] 20)).call
    (.input (ikcpSegBytes { conv := 7, cmd := ikcpCmdAck, wnd := 128, ts := 20, sn := 1 }) 25)).call
    (.sendEx [3] 30)).copies 0 = 2 := by
  decide +kernel

end ConnClient.Ikcp
