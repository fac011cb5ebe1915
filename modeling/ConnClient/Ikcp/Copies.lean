/-
  What the senders repeat.

  Two senders repeat segments of `snd_buf`: `pvp_ikcp_flush` those that it keeps in `dup_segs`, and
  `pvp_ikcp_send_ex` some of those in front of the first one it sends.  `copiesOf` is the list of their
  numbers for a call, and this module says two things about it:

  * it is what is on the wire (`copiesOf_carry`): the segments with the command `IKCP_CMD_DUPS` in the
    datagrams that the call outputs are these, in this order, and no other call outputs one;
  * of a flush, they are numbers of segments that were in `snd_buf` before, each once, and each passes the
    tests of the flush (`flushCopies_due`), which ask for a `dupsendcount` below that of the block.

  The second takes an invariant of the data loop (`Chosen`).  The loop changes the segments it sends, and
  remembers positions of those it does not send, so the positions in `dup_segs` still hold what they held
  when the loop began.
-/
import ConnClient.Ikcp.Tallies
import ConnClient.Ikcp.SendWindow
import ConnClient.Ikcp.Trail
import ConnClient.Ikcp.Tuning

namespace ConnClient.Ikcp

open ConnClient.Lib

/-! ## What a flush repeats -/

/-- The tests of `pvp_ikcp_flush` for a copy of a segment, but for the room in `dup_segs`: it is not
    transmitted in this flush, redundancy is on, the segment has copies left, and enough time has
    passed. -/
def CopyDue (k : IKCPCB) (seg : IKCPSEG) : Prop :=
  segmentDue (flushArgs k (ikcpWndUnused k)) seg = .no
    ∧ wantsDup (flushArgs k (ikcpWndUnused k)) k seg 0 = true

instance (k : IKCPCB) (seg : IKCPSEG) : Decidable (CopyDue k seg) := inferInstanceAs (Decidable (_ ∧ _))

/-- The room in `dup_segs` apart, the tests do not depend on what was found before. -/
theorem wantsDup_zero {a : FlushArgs} {k : IKCPCB} {seg : IKCPSEG} {n : Nat}
    (h : wantsDup a k seg n = true) : wantsDup a k seg 0 = true := by
  rw [wantsDup] at h ⊢
  simp only [Bool.and_eq_true, decide_eq_true_eq] at h ⊢
  exact ⟨⟨h.1.1, by decide⟩, h.2⟩

/-- The data loop of a flush in front of number `i`, started with the block `k`: the positions that
    were kept, each once, are those of segments that were not touched.  A round reads the segment at
    `i` and the settings; the first is as it was (`rest`), the second no round changes. -/
structure Chosen (a : FlushArgs) (k : IKCPCB) (i : Nat) (st : FlushSt) : Prop where
  numbers : st.out.kcp.sndBuf.map IKCPSEG.sn = k.sndBuf.map IKCPSEG.sn
  rest : st.out.kcp.sndBuf.drop i = k.sndBuf.drop i
  switch : st.out.kcp.dupsendOn = k.dupsendOn
  count : st.out.kcp.dupsendcount = k.dupsendcount
  wait : st.out.kcp.dupsendWait = k.dupsendWait
  nodup : st.dupSegs.Nodup
  due : ∀ j ∈ st.dupSegs, j < i ∧ ∃ seg, k.sndBuf[j]? = some seg
    ∧ segmentDue a seg = .no ∧ wantsDup a k seg 0 = true

section Flush

variable {a : FlushArgs} {k : IKCPCB} {i : Nat} {st : FlushSt} {segment : IKCPSEG}

/-- A transmission does not change the numbers of `snd_buf`. -/
theorem flushSegment_numbers (hi : st.out.kcp.sndBuf[i]? = some segment) :
    (flushSegment a i segment st).out.kcp.sndBuf.map IKCPSEG.sn = st.out.kcp.sndBuf.map IKCPSEG.sn := by
  have hsend : ∀ segment' due, segment'.sn = segment.sn →
      (sendSegment i segment' (st.out.upd fun kcp => dueKcp segment kcp due)).kcp.sndBuf.map IKCPSEG.sn
        = st.out.kcp.sndBuf.map IKCPSEG.sn := by
    intro segment' due hsn
    have hbuf := (dueKcp_ground segment st.out.kcp due).2
    rw [sendSegment, upd_kcp, put_kcp, makeRoom_kcp, upd_kcp, upd_kcp]
    dsimp only
    rw [hbuf]
    split
    · rw [List.set_set]
      exact map_set_eq hi hsn
    · exact map_set_eq hi hsn
  rw [flushSegment]
  cases hdue : segmentDue a segment with
  | no =>
    dsimp only
    split <;> rfl
  | first => exact hsend _ _ rfl
  | timeout => exact hsend _ _ rfl
  | fastack => exact hsend _ _ rfl

/-- **A round of the data loop.** -/
theorem Chosen.round (h : Chosen a k i st) (hi : st.out.kcp.sndBuf[i]? = some segment) :
    Chosen a k (i + 1) (flushSegment a i segment st) := by
  obtain ⟨_, _, _, _, _, _, hset⟩ := flushSegment_eq a i segment st
  have hfound : k.sndBuf[i]? = some segment := by
    have hhead := congrArg List.head? h.rest
    rw [List.head?_drop, List.head?_drop, hi] at hhead
    exact hhead.symm
  have hrest : (flushSegment a i segment st).out.kcp.sndBuf.drop (i + 1) = k.sndBuf.drop (i + 1) := by
    rw [(flushSegment_buf a i segment st).2, ← List.drop_drop, h.rest, List.drop_drop]
  -- what the test asks now it would have asked when the loop began
  have hwants : wantsDup a st.out.kcp segment st.dupSegs.length = true → wantsDup a k segment 0 = true := by
    intro hw
    have hzero := wantsDup_zero hw
    rw [wantsDup, h.switch, h.count, h.wait] at hzero
    exact hzero
  obtain ⟨hnodup, hdups⟩ := flushSegment_dupSegs a segment h.nodup h.due
    fun hdue hw => ⟨segment, hfound, hdue, hwants hw⟩
  constructor
  · exact (flushSegment_numbers hi).trans h.numbers
  · exact hrest
  · rw [hset]
    exact h.switch
  · rw [hset]
    exact h.count
  · rw [hset]
    exact h.wait
  · exact hnodup
  · exact hdups

/-- The positions that a flush repeats: `dup_segs` past the data loop. -/
def dupPositions (k : IKCPCB) : List Nat :=
  let out := (flushHead k).2
  (flushData (flushArgs out.kcp (ikcpWndUnused k)) out.kcp.sndBuf.length 0 { out := out }).dupSegs

/-- **The data loop of a flush** keeps positions of segments that were in `snd_buf` before, and `dup_segs`
    holds no position twice. -/
theorem flushData_due (k : IKCPCB) :
    (dupPositions k).Nodup ∧ flushCopies k = numbersAt k (dupPositions k)
      ∧ ∀ j ∈ dupPositions k, ∃ seg, k.sndBuf[j]? = some seg ∧ CopyDue k seg := by
  obtain ⟨_, _, _, new, _, _, _, hhead, hnew⟩ := flushHead_eq k
  let k' := (flushHead k).2.kcp
  let a := flushArgs k (ikcpWndUnused k)
  let st := flushData a k'.sndBuf.length 0 { out := (flushHead k).2 }
  have hbuf : k'.sndBuf = k.sndBuf ++ new := by
    show (flushHead k).2.kcp.sndBuf = _
    rw [hhead]
  have hargs : flushArgs k' (ikcpWndUnused k) = a := by
    show flushArgs (flushHead k).2.kcp _ = _
    rw [hhead]
    rfl
  -- the head changes none of the settings the test reads
  have hwants : ∀ seg, wantsDup a k' seg 0 = wantsDup a k seg 0 := by
    intro seg
    show wantsDup _ (flushHead k).2.kcp seg 0 = _
    rw [hhead]
    rfl
  have hchosen : Chosen a k' (0 + k'.sndBuf.length) st := by
    refine flushData_rule (fun i segment st h hi => Chosen.round h hi) _ 0 _ (Nat.zero_add _) ?_
    exact ⟨rfl, rfl, rfl, rfl, rfl, List.nodup_nil, fun j hj => absurd hj List.not_mem_nil⟩
  -- a segment that is not due was sent before, and so was there before the transfers
  have hfound : ∀ j ∈ st.dupSegs, ∃ seg, k.sndBuf[j]? = some seg ∧ CopyDue k seg := by
    intro j hj
    obtain ⟨-, seg, hseg, hdue, hw⟩ := hchosen.due j hj
    rw [hwants] at hw
    refine ⟨seg, ?_, hdue, hw⟩
    rw [hbuf, List.getElem?_append] at hseg
    split at hseg
    · exact hseg
    · have hzero := hnew seg (List.mem_of_getElem? hseg)
      rw [segmentDue_first.mpr hzero] at hdue
      nomatch hdue
  -- the loop numbers nothing
  have hnumber : ∀ j ∈ st.dupSegs,
      (st.out.kcp.sndBuf.map IKCPSEG.sn)[j]? = (k.sndBuf.map IKCPSEG.sn)[j]? := by
    intro j hj
    obtain ⟨seg, hseg, -⟩ := hfound j hj
    obtain ⟨hlt, -⟩ := List.getElem?_eq_some_iff.mp hseg
    rw [hchosen.numbers, hbuf, List.map_append, List.getElem?_append_left]
    rw [List.length_map]
    exact hlt
  have hcopies : flushCopies k = numbersAt st.out.kcp st.dupSegs := by
    show numbersAt (flushData (flushArgs k' _) _ _ _).out.kcp _ = _
    rw [hargs]
  have hpositions : dupPositions k = st.dupSegs := by
    show (flushData (flushArgs k' _) _ _ _).dupSegs = _
    rw [hargs]
  rw [hpositions]
  exact ⟨hchosen.nodup, hcopies.trans (List.filterMap_congr hnumber), hfound⟩

/-- **What a flush repeats** are segments of `snd_buf` that pass its tests, each once. -/
theorem flushCopies_due (k : IKCPCB) (hk : (k.sndBuf.map IKCPSEG.sn).Nodup) :
    (flushCopies k).Nodup ∧ ∀ sn ∈ flushCopies k, ∃ seg ∈ k.sndBuf, seg.sn = sn ∧ CopyDue k seg := by
  obtain ⟨hnodup, hcopies, hfound⟩ := flushData_due k
  rw [hcopies]
  constructor
  · refine hnodup.filterMap fun i j sn hi hj => ?_
    have hlt := (List.getElem?_eq_some_iff.mp hi).1
    exact (List.getElem?_inj hlt hk).mp (hi.trans hj.symm)
  · intro sn hsn
    obtain ⟨j, hj, hget⟩ := List.mem_filterMap.mp hsn
    obtain ⟨seg, hseg, hdue⟩ := hfound j hj
    rw [List.getElem?_map, hseg] at hget
    exact ⟨seg, List.mem_of_getElem? hseg, Option.some.inj hget, hdue⟩

end Flush

/-! ## What a call repeats -/

/-- The number of a redundant copy. -/
def copyNumber (seg : IKCPSEG) : Option IUINT32 := if seg.cmd = ikcpCmdDups then some seg.sn else none

/-- The numbers of the segments that a call repeats, in order.  Only three calls send data, and of
    these a `pvp_ikcp_send` that only queues is none. -/
def copiesOf (k : IKCPCB) : Call → List IUINT32
  | .sendEx msg current =>
    let (ret, kcp) := pvpIkcpSend k msg current
    if ret ≠ 0 ∨ kcp.updated = false then [] else sendExCopies (told kcp current)
  | .update current =>
    let (flush, kcp) := updateHead k current
    if flush = false ∨ kcp.updated = false then [] else flushCopies kcp
  | .flush => if k.updated = false then [] else flushCopies k
  | .send .. | .recv _ | .input .. | .nodelay .. | .wndsize .. | .setdupsend .. | .intervalLost _
  | .fields .. => []

/-- What a copy tells. -/
def Mark.copied : Mark → Option IUINT32
  | .ack _ => none
  | .copy sn => some sn

theorem copyNumber_mark (seg : IKCPSEG) : copyNumber seg = (mark seg).bind Mark.copied := by
  rw [copyNumber, mark]
  split
  · rename_i hdups
    have hack : ¬ seg.cmd = ikcpCmdAck := by
      rw [hdups]
      decide
    rw [if_neg hack]
    rfl
  · split <;> rfl

/-- Of all that a sender tells, the copies. -/
theorem carry_of_marks {G : IKCPSEG → Prop} {pairs : List (IUINT32 × IUINT32)} {sns : List IUINT32}
    {out : Out} (h : TrailOf mark G (pairs.map .ack ++ sns.map .copy) out) :
    CarryOf copyNumber G sns ((ikcpOutput out).sent.map Prod.snd) := by
  -- of the marks of a sender, the acknowledgements are no copies
  have hsns : (pairs.map Mark.ack ++ sns.map Mark.copy).filterMap Mark.copied = sns := by
    rw [List.filterMap_append, List.filterMap_map, List.filterMap_map]
    show pairs.filterMap (fun _ => none) ++ sns.filterMap some = sns
    rw [List.filterMap_some, List.filterMap_none, List.nil_append]
  have hread := (h.read copyNumber_mark).carry
  rw [hsns] at hread
  exact hread

section Calls

variable {k : IKCPCB}

theorem flush_copies (h : Sending k) :
    CarryOf copyNumber (fun _ => True) (copiesOf k .flush) ((pvpIkcpFlush k).2.map Prod.snd) := by
  rw [copiesOf]
  split
  · rename_i hup
    rw [pvpIkcpFlush, if_pos hup]
    exact .nothing
  · rename_i hup
    have hem := sending_sndInv.emitter (labels_true Sending) h
    obtain ⟨out, hsent, htrail⟩ := pvpIkcpFlush_trail hem ⟨h, rfl, rfl, rfl, rfl⟩ (eq_true_of_ne_false hup)
    rw [hsent]
    exact carry_of_marks htrail

theorem sendEx_copies (h : Sending k) (msg : List Byte) (current : IUINT32) :
    CarryOf copyNumber (fun _ => True) (copiesOf k (.sendEx msg current))
      ((pvpIkcpSendEx k msg current).2.2.map Prod.snd) := by
  obtain ⟨hsend, -⟩ := sending_sndInv.send h msg current
  rw [copiesOf, pvpIkcpSendEx]
  generalize pvpIkcpSend k msg current = r at hsend
  obtain ⟨ret, k₁⟩ := r
  dsimp only at hsend ⊢
  -- refused, or not updated yet: nothing is sent
  by_cases hstop : ret ≠ 0 ∨ k₁.updated = false
  · rw [if_pos hstop]
    by_cases hret : ret ≠ 0
    · rw [if_pos hret]
      exact .nothing
    · rw [if_neg hret, if_pos (hstop.resolve_left hret)]
      exact .nothing
  · obtain ⟨hret, hup⟩ := not_or.mp hstop
    rw [if_neg hstop, if_neg hret, if_neg hup]
    have h₀ : Sending (told k₁ current) := by
      rw [told]
      split
      · exact sending_sndInv.same hsend rfl
      · exact hsend
    have hem := sending_sndInv.emitter (labels_true Sending) h₀
    have hk : (if current.toNat > 0 then { k₁ with current := current } else k₁) = told k₁ current := rfl
    obtain ⟨out, hsent, htrail⟩ := sendExFlush_trail hem ⟨h₀, rfl, rfl, rfl, rfl⟩ hk
    rw [hsent]
    exact carry_of_marks htrail

/-- **What a call repeats is on the wire**, and no other copy is. -/
theorem copiesOf_carry (h : Sending k) (c : Call) :
    CarryOf copyNumber (fun _ => True) (copiesOf k c) ((c.run k).2.map Prod.snd) := by
  cases c with
  | sendEx msg current => exact sendEx_copies h msg current
  | update current =>
    have hground := updateHead_ground k current
    rw [Call.run, pvpIkcpUpdate, copiesOf]
    generalize updateHead k current = r at hground
    obtain ⟨flush, k₀⟩ := r
    dsimp only at hground ⊢
    cases flush with
    | false =>
      rw [if_pos (Or.inl rfl)]
      exact .nothing
    | true =>
      have hcopies := flush_copies (sending_sndInv.same h hground)
      rw [copiesOf] at hcopies
      simp only [Bool.true_eq_false, false_or, if_true]
      exact hcopies
  | flush => exact flush_copies h
  | _ => exact .nothing

/-- **A call sets no limit** but `pvp_ikcp_setdupsend`. -/
def KeepsCount (c : Call) : Prop :=
  ∀ count dupack dupDynamic dupWait dupWndOn, c ≠ .setdupsend count dupack dupDynamic dupWait dupWndOn

theorem pvpIkcpFlush_dupsendcount (k : IKCPCB) : (pvpIkcpFlush k).1.dupsendcount = k.dupsendcount := by
  rw [pvpIkcpFlush]
  split
  · rfl
  obtain ⟨_, _, _, _, _, _, _, hhead, -⟩ := flushHead_eq k
  let a := flushArgs (flushHead k).2.kcp (ikcpWndUnused k)
  let st := flushData a (flushHead k).2.kcp.sndBuf.length 0 { out := (flushHead k).2 }
  have hdata : st.out.kcp.dupsendcount = (flushHead k).2.kcp.dupsendcount := by
    refine flushData_rule (P := fun _ st => st.out.kcp.dupsendcount = (flushHead k).2.kcp.dupsendcount)
      (fun i segment st h _ => ?_) _ 0 _ (Nat.zero_add _) rfl
    obtain ⟨_, _, _, _, _, _, hset⟩ := flushSegment_eq a i segment st
    rw [hset]
    exact h
  have hdups : (flushDups a st.dupSegs st.out).kcp.dupsendcount = st.out.kcp.dupsendcount := by
    have htallies := congrArg Tallies.dupsendcount (flushDups_tallies a st.dupSegs st.out)
    rw [dupsendcount_copies] at htallies
    exact htallies
  obtain ⟨_, _, _, _, htail⟩ := flushTail_eq (flushHead k).1 a.resent st.change st.lost
    (ikcpOutput (flushDups a st.dupSegs st.out)).kcp
  show (flushTail (flushHead k).1 a.resent st.change st.lost
    (ikcpOutput (flushDups a st.dupSegs st.out)).kcp).dupsendcount = _
  rw [htail, ikcpOutput_kcp]
  exact hdups.trans (hdata.trans (by rw [hhead]))

theorem call_dupsendcount (k : IKCPCB) {c : Call} (hc : KeepsCount c) :
    (c.run k).1.dupsendcount = k.dupsendcount := by
  cases c with
  | send msg current => exact congrArg Tallies.dupsendcount (pvpIkcpSend_tallies k msg current)
  -- the fast path enters segments and copies some, and reads the limit only
  | sendEx msg current =>
    obtain ⟨n, is, hsent⟩ := pvpIkcpSendEx_tallies k msg current
    have hcopies := congrArg Tallies.dupsendcount hsent
    rw [dupsendcount_copies] at hcopies
    refine hcopies.trans ?_
    clear hsent hcopies
    induction n with
    | zero => rfl
    | succ n ih =>
      rw [Function.iterate_succ_apply']
      exact ih
  | update current =>
    have hhead := congrArg Tallies.dupsendcount (updateHead_tallies k current)
    have hflush : (updateFlush k current).dupsendcount = k.dupsendcount := by
      rw [updateFlush]
      split
      · exact (pvpIkcpFlush_dupsendcount _).trans hhead
      · exact hhead
    have hlost := congrArg Tallies.dupsendcount (pvpIkcpUpdateLost_tallies (updateFlush k current) current)
    have hclose : (updateFlush k current).tallies.close.dupsendcount
        = (updateFlush k current).dupsendcount := by
      rw [Tallies.close]
      split <;> rfl
    rw [Call.run, pvpIkcpUpdate_lost]
    refine hlost.trans (Eq.trans ?_ hflush)
    split
    · exact hclose
    · rfl
  | flush => exact pvpIkcpFlush_dupsendcount k
  | recv len => exact congrArg Tallies.dupsendcount (pvpIkcpRecv_tallies k len)
  | input data current => exact congrArg Tallies.dupsendcount (pvpIkcpInput_lets k data current).rest
  | nodelay on interval resend nc =>
    exact congrArg Tallies.dupsendcount (pvpIkcpNodelay_tallies k on interval resend nc)
  | wndsize sndwnd rcvwnd => exact congrArg Tallies.dupsendcount (pvpIkcpWndsize_tallies k sndwnd rcvwnd)
  | setdupsend count dupack dupDynamic dupWait dupWndOn => exact (hc count dupack dupDynamic dupWait dupWndOn rfl).elim
  | intervalLost interval => rfl
  | fields rxMinrto fastresend => rfl

end Calls

end ConnClient.Ikcp
