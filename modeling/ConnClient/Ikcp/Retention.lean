/-
  Nothing that was numbered gets lost.

  A sender forgets a segment once the other side says that it was received.  What it says comes in 16 bits,
  from datagrams that may be old or come twice, and is rebuilt from `snd_nxt`; so the argument needs what
  the 16 bits stand for.  `Watch` keeps that beside the network: for each side the numbers in its `acklist`,
  and for each datagram its `Note`.  A datagram comes in time when it does not tell of numbers as much as
  `0x8000` below those that were given out meanwhile (`InReach`).

  A direction of such a network is a custody (`view`): what the sender has in `snd_buf`, what the receiver
  holds, and what the sender may yet be told.  Every step of the network is steps of the custody
  (`watch_refines`), and what is known of these is known of the blocks: each number that was given out is in
  `snd_buf` of one side, or was received by the other (`nothing_lost`).  So when nothing waits at one side,
  and nothing can be handed out at the other, the messages that were received are those that were accepted
  (`all_received`).

  The condition cannot be dropped: an acknowledgement that comes more than `0x8000` numbers late is rebuilt
  `2 ^ 16` too high, and what it lets go of was not received.

  The proof has three layers.  `Read` says what one datagram does to a block, segment after segment; `Moved`
  says what one step of a peer does to the numbers of both directions, which is all that the custody asks
  for; `Watch.Kept` is the invariant of the run.  The ghost `owed` and `notes` are never read by the code:
  `watchStep_net` takes them away again.
-/
import ConnClient.Ikcp.Custody
import ConnClient.Ikcp.Deadlock

namespace ConnClient.Ikcp

open ConnClient.Lib

/-! ## One datagram -/

/-- The residues that a note tells of, as `pvp_ikcp_input` compares them: those before `una`, by the
    sign of a difference, and those that are acknowledged. -/
def Note.tells (note : Note) (sn : IUINT32) : Prop :=
  itimediff (BitVec.ofNat 32 note.una) sn > 0 ∨ ∃ n ∈ note.acks, sn = BitVec.ofNat 32 n

/-- A note tells of numbers that were given out, and of none as much as `0x8000` below the next.  So
    each of its 16 bit fields has one number nearest to `snd_nxt`, which is the number it was made
    of. -/
structure Note.Near (note : Note) (sndNum : Nat) : Prop where
  una : note.una ≤ sndNum ∧ sndNum < note.una + 0x8000
  acks : ∀ n ∈ note.acks, n < sndNum ∧ sndNum < n + 0x8000

/-- What a block is while a datagram is read: its counters stand for `sndNum` and `rcvNum`, and its
    receiving half is in order.  Every segment keeps this, with `rcvNum` moved on. -/
structure Reading (conv : IUINT32) (sndNum rcvNum : Nat) (k : IKCPCB) : Prop where
  conv : k.conv = conv
  rcv : RcvWindowed k
  fits : k.desk.Fits
  sndNxt : k.sndNxt = BitVec.ofNat 32 sndNum
  rcvNxt : k.rcvNxt = BitVec.ofNat 32 rcvNum

/-- What reading did: numbers told of were let go, numbers below `base` were taken in, and the
    numbers `news` are to be acknowledged.  `news` are held by the end (`held`), so an
    acknowledgement never tells of something that was refused; `near` and `recent` are what the 16
    bits of that acknowledgement need. -/
structure Read (note : Note) (base rcvNum : Nat) (k k' : IKCPCB) (news : List Nat) : Prop where
  lets : LetsGo note.tells k k'
  moved : off k.rcvNxt k'.rcvNxt + k.nrcvQue = k'.nrcvQue
  keeps : k.has rcvNum ⊆ k'.has (rcvNum + off k.rcvNxt k'.rcvNxt)
  gains : k'.has (rcvNum + off k.rcvNxt k'.rcvNxt) ⊆ k.has rcvNum ∪ Set.Iio base
  asked : (acks k').map Prod.fst = (acks k).map Prod.fst ++ news.map (BitVec.ofNat 32)
  held : ∀ n ∈ news, n ∈ k'.has (rcvNum + off k.rcvNxt k'.rcvNxt)
  near : ∀ n ∈ news, rcvNum < n + 0x8000 ∧ n < rcvNum + off k.rcvNxt k'.rcvNxt + 0x8000
  recent : ∀ n ∈ news, base < n + 0x8000

section Reading

variable {conv : IUINT32} {base sndNum rcvNum : Nat} {note : Note} {k k' k'' : IKCPCB}

/-- One after the other; `rcv_nxt` does not go around, as it moves by what enters `rcv_queue`. -/
theorem Read.trans {news news' : List Nat} (h : Read note base rcvNum k k' news)
    (h' : Read note base (rcvNum + off k.rcvNxt k'.rcvNxt) k' k'' news') (hfull : k''.nrcvQue < 2 ^ 32) :
    Read note base rcvNum k k'' (news ++ news') := by
  have hmoved := h.moved
  have hmoved' := h'.moved
  have hoff : off k.rcvNxt k''.rcvNxt = off k.rcvNxt k'.rcvNxt + off k'.rcvNxt k''.rcvNxt :=
    off_trans (by omega)
  have hsum : rcvNum + off k.rcvNxt k''.rcvNxt
      = rcvNum + off k.rcvNxt k'.rcvNxt + off k'.rcvNxt k''.rcvNxt := by omega
  constructor
  · exact h.lets.trans h'.lets
  · omega
  · rw [hsum]
    exact h.keeps.trans h'.keeps
  · rw [hsum]
    exact h'.gains.trans (Set.union_subset h.gains Set.subset_union_right)
  · rw [h'.asked, h.asked, List.map_append, List.append_assoc]
  · rw [hsum]
    intro n hn
    rcases List.mem_append.mp hn with hn | hn
    · exact h'.keeps (h.held n hn)
    · exact h'.held n hn
  · rw [hsum]
    intro n hn
    rcases List.mem_append.mp hn with hn | hn
    · have hnear := h.near n hn
      omega
    · have hnear := h'.near n hn
      omega
  · intro n hn
    rcases List.mem_append.mp hn with hn | hn
    · exact h.recent n hn
    · exact h'.recent n hn

/-- The residues of a segment are rebuilt: the 16 bits that were sent and `snd_nxt` give the residue
    of the number back, as it is less than half a turn away. -/
theorem Noted.una_eq {seg : IKCPSEG} (hseg : Noted conv base note seg) (hnote : note.Near sndNum)
    (hnxt : k.sndNxt = BitVec.ofNat 32 sndNum) :
    getId k.sndNxt seg.head.tmpUna = BitVec.ofNat 32 note.una := by
  obtain ⟨hle, hlt⟩ := hnote.una
  have htmp : seg.head.tmpUna = BitVec.ofNat 16 note.una := by
    show seg.una.setWidth 16 = _
    rw [hseg.una, BitVec.setWidth_ofNat_of_le (by decide)]
  rw [htmp, hnxt, getId_ofNat (by omega) (by omega)]

theorem Noted.ack_eq {seg : IKCPSEG} (hseg : Noted conv base note seg) (hnote : note.Near sndNum)
    (hnxt : k.sndNxt = BitVec.ofNat 32 sndNum) (hack : seg.head.cmd = ikcpCmdAck) :
    ∃ n ∈ note.acks, getId k.sndNxt seg.head.tmpSn = BitVec.ofNat 32 n := by
  obtain ⟨n, hn, hsn⟩ := hseg.ack hack
  obtain ⟨hlt, hnear⟩ := hnote.acks n hn
  have htmp : seg.head.tmpSn = BitVec.ofNat 16 n := by
    show seg.sn.setWidth 16 = _
    rw [hsn, BitVec.setWidth_ofNat_of_le (by decide)]
  exact ⟨n, hn, by rw [htmp, hnxt, getId_ofNat (by omega) (by omega)]⟩

/-- What a segment without data does to the receiving half. -/
theorem inputSeg_control {st : InputSt} (h : Reading conv sndNum rcvNum st.kcp) (head : SegHead)
    (payload : List Byte) (hd : ¬(head.cmd = ikcpCmdPush ∨ head.cmd = ikcpCmdDups)) :
    Gains (fun _ => ∅) st.kcp (inputSeg st head payload).kcp
      ∧ acks (inputSeg st head payload).kcp = acks st.kcp := by
  constructor
  · rcases inputSeg_gains h.rcv head payload with ⟨hgains, -⟩ | ⟨hdata, -⟩
    · exact hgains
    · exact absurd hdata hd
  · rw [inputSeg_acks h.fits, acked_other (fun he => hd (Or.inl he)) fun he => hd (Or.inr he), List.append_nil]

/-- What data numbered `n` does: it is taken in or not, and where it is acknowledged it was. -/
theorem inputSeg_datum {st : InputSt} (h : Reading conv sndNum rcvNum st.kcp) {head : SegHead}
    (payload : List Byte) (hd : head.cmd = ikcpCmdPush ∨ head.cmd = ikcpCmdDups) {n : Nat}
    (hsn : getId st.kcp.rcvNxt head.tmpSn = BitVec.ofNat 32 n) (hlo : rcvNum < n + 0x8000)
    (hhi : n < rcvNum + 0x8000) :
    ∃ items : Nat → Set Nat, items rcvNum ⊆ {n} ∧ Gains items st.kcp (inputSeg st head payload).kcp
      ∧ ∀ pair ∈ acked st.kcp head, pair.1 = BitVec.ofNat 32 n ∧ (n < rcvNum ∨ n ∈ items rcvNum) := by
  have hdiff : itimediff (BitVec.ofNat 32 n) st.kcp.rcvNxt = (n : Int) - rcvNum := by
    rw [h.rcvNxt, itimediff_ofNat (by omega) (by omega)]
  -- the window, and not the promotion, decides about the acknowledgement
  have hacked : ∀ pair ∈ acked st.kcp head, pair.1 = BitVec.ofNat 32 n
      ∧ itimediff (BitVec.ofNat 32 n) (st.kcp.rcvNxt + st.kcp.rcvWnd) < 0 := by
    intro pair hpair
    rw [acked, hsn] at hpair
    split at hpair
    · rename_i hask
      rw [List.mem_singleton.mp hpair]
      exact ⟨rfl, hask.2⟩
    · exact absurd hpair List.not_mem_nil
  have hcases := inputSeg_gains h.rcv head payload
  rw [hsn, hdiff] at hcases
  rcases hcases with ⟨hgains, hout⟩ | ⟨-, hge, hgains⟩
  · -- Not taken in: what is acknowledged nevertheless came before, as it lies below `rcv_nxt`.
    refine ⟨fun _ => ∅, Set.empty_subset _, hgains, fun pair hpair => ?_⟩
    obtain ⟨hfst, hin⟩ := hacked pair hpair
    refine ⟨hfst, Or.inl ?_⟩
    rcases hout hd with hbeyond | hold
    · omega
    · omega
  · -- Taken in, at the place of `n` counted from `rcv_nxt`.
    have hplace : rcvNum + off st.kcp.rcvNxt (BitVec.ofNat 32 n) = n := by
      rw [h.rcvNxt, off_ofNat (by omega) (by omega)]
      omega
    refine ⟨_, ?_, hgains, fun pair hpair => ⟨(hacked pair hpair).1, Or.inr ?_⟩⟩
    · rw [hplace]
    · rw [hplace]
      exact Set.mem_singleton n

/-- **One segment.** Data is taken in and acknowledged under the number its 16 bits stand for; an
    acknowledgement or a probe leaves the receiving half alone.  The `una` of either lets go. -/
theorem inputSeg_read {st : InputSt} {seg : IKCPSEG} (h : Reading conv sndNum rcvNum st.kcp)
    (hnote : note.Near sndNum) (hseg : Noted conv base note seg)
    (htimely : seg.head.cmd = ikcpCmdPush ∨ seg.head.cmd = ikcpCmdDups →
      near base seg.head.tmpSn - rcvNum > -0x8000 ∧ near base seg.head.tmpSn - rcvNum < 0x8000) :
    ∃ news, Read note base rcvNum st.kcp (inputSeg st seg.head seg.data).kcp news := by
  -- either kind of segment carries `una`; only IKCP_CMD_ACK names a number
  have hlets : LetsGo note.tells st.kcp (inputSeg st seg.head seg.data).kcp := by
    refine (inputSeg_letsGo st seg.head seg.data).mono fun sn hgone => ?_
    rcases hgone with hbelow | ⟨hack, hsn⟩
    · left
      rw [hseg.una_eq hnote h.sndNxt] at hbelow
      exact hbelow
    · right
      obtain ⟨n, hn, hid⟩ := hseg.ack_eq hnote h.sndNxt hack
      exact ⟨n, hn, hsn.trans hid⟩
  by_cases hd : seg.head.cmd = ikcpCmdPush ∨ seg.head.cmd = ikcpCmdDups
  · obtain ⟨n, hlt, hnear, hsn⟩ := hseg.data hd
    have htmp : seg.head.tmpSn = BitVec.ofNat 16 n := by
      show seg.sn.setWidth 16 = _
      rw [hsn, BitVec.setWidth_ofNat_of_le (by decide)]
    obtain ⟨hlo, hhi⟩ := htimely hd
    rw [htmp, near_ofNat (by omega) (by omega)] at hlo hhi
    -- the timeliness is what makes the number nearest to `rcv_nxt` the one that was sent
    have hid : getId st.kcp.rcvNxt seg.head.tmpSn = BitVec.ofNat 32 n := by
      rw [htmp, h.rcvNxt, getId_ofNat (by omega) (by omega)]
    obtain ⟨items, hitems, ⟨hhas, hmoved⟩, hacked⟩ :=
      inputSeg_datum h seg.data hd hid (by omega) (by omega)
    have hasked := inputSeg_acks h.fits seg.head seg.data
    -- what is acknowledged is the number of this segment, if anything
    have hnum : ∀ m ∈ (acked st.kcp seg.head).map fun _ => n, m = n := by
      intro m hm
      obtain ⟨pair, -, rfl⟩ := List.mem_map.mp hm
      rfl
    refine ⟨(acked st.kcp seg.head).map fun _ => n, hlets, hmoved, ?_, ?_, ?_, ?_, ?_, ?_⟩
    · rw [hhas]
      exact Set.subset_union_left
    · rw [hhas]
      refine Set.union_subset_union_right _ (hitems.trans ?_)
      rw [Set.singleton_subset_iff]
      exact hlt
    · rw [hasked, List.map_append, List.map_map]
      congr 1
      exact List.map_congr_left fun pair hpair => (hacked pair hpair).1
    · intro m hm
      obtain ⟨pair, hpair, rfl⟩ := List.mem_map.mp hm
      rw [hhas]
      rcases (hacked pair hpair).2 with hold | hnew
      · exact Or.inl (Or.inl hold)
      · exact Or.inr hnew
    · intro m hm
      rw [hnum m hm]
      omega
    · intro m hm
      rw [hnum m hm]
      omega
  · obtain ⟨⟨hhas, hmoved⟩, hacks⟩ := inputSeg_control h seg.head seg.data hd
    have hsame := hhas rcvNum
    rw [Set.union_empty] at hsame
    refine ⟨[], hlets, hmoved, ?_, ?_, ?_, fun n hn => absurd hn List.not_mem_nil,
      fun n hn => absurd hn List.not_mem_nil, fun n hn => absurd hn List.not_mem_nil⟩
    · rw [hsame]
    · rw [hsame]
      exact Set.subset_union_left
    · rw [hacks]
      exact (List.append_nil _).symm

/-- A segment leaves the block such as it is read with, `rcv_nxt` moved. -/
theorem Reading.seg {st : InputSt} (h : Reading conv sndNum rcvNum st.kcp) (seg : IKCPSEG) :
    Reading conv sndNum (rcvNum + off st.kcp.rcvNxt (inputSeg st seg.head seg.data).kcp.rcvNxt)
      (inputSeg st seg.head seg.data).kcp := by
  constructor
  · exact (inputSeg_conv st seg).trans h.conv
  · exact rcvWindowed_digest.inputSeg h.rcv seg.head seg.data
  · exact inputSeg_fits h.fits seg.head seg.data
  · exact (inputSeg_letsGo st seg.head seg.data).nxt.trans h.sndNxt
  · rw [BitVec.ofNat_add, ← h.rcvNxt, off, BitVec.ofNat_toNat, BitVec.setWidth_eq, add_sub_cancel]

/-- Nothing is read. -/
theorem Read.nil (k : IKCPCB) : Read note base rcvNum k k [] := by
  have hsame : k.has (rcvNum + off k.rcvNxt k.rcvNxt) = k.has rcvNum := by rw [off_self, Nat.add_zero]
  refine ⟨.of_eq rfl rfl, ?_, ?_, ?_, (List.append_nil _).symm, fun n hn => absurd hn List.not_mem_nil,
    fun n hn => absurd hn List.not_mem_nil, fun n hn => absurd hn List.not_mem_nil⟩
  · rw [off_self, Nat.zero_add]
  · rw [hsame]
  · rw [hsame]
    exact Set.subset_union_left

/-- **The segments of a datagram.**  Induction on them; `n` bounds the rounds. -/
theorem inputSegs_read (hnote : note.Near sndNum) (segs : List IKCPSEG) (n rcvNum : Nat) (st : InputSt)
    (hn : segs.length ≤ n) (hsegs : ∀ seg ∈ segs, Noted conv base note seg)
    (h : Reading conv sndNum rcvNum st.kcp)
    (ht : timely base n (segs.flatMap ikcpSegBytes) rcvNum st = true) :
    RcvWindowed (inputSegs segs st).kcp
      ∧ ∃ news, Read note base rcvNum st.kcp (inputSegs segs st).kcp news := by
  induction segs generalizing n rcvNum st with
  | nil => exact ⟨h.rcv, [], .nil st.kcp⟩
  | cons seg segs ih =>
    cases n with
    | zero => exact absurd hn (Nat.not_succ_le_zero _)
    | succ n =>
      have hseg := hsegs seg (List.mem_cons_self ..)
      rw [List.flatMap_cons, timely, h.conv, parseSeg_segBytes hseg.accepted] at ht
      dsimp only at ht
      rw [Bool.and_eq_true] at ht
      obtain ⟨hnow, hlater⟩ := ht
      obtain ⟨news, hread⟩ := inputSeg_read h hnote hseg (by
        intro hd
        have hd' : (seg.head.cmd == ikcpCmdPush || seg.head.cmd == ikcpCmdDups) = true := by
          rcases hd with hd | hd <;> rw [hd] <;> decide
        rw [hd', Bool.not_true, Bool.false_or, Bool.and_eq_true, decide_eq_true_eq,
          decide_eq_true_eq] at hnow
        exact hnow)
      obtain ⟨hrcv, news', hread'⟩ := ih n _ _ (Nat.le_of_succ_le_succ hn)
        (fun s hs => hsegs s (List.mem_cons_of_mem _ hs)) (h.seg seg) hlater
      refine ⟨hrcv, news ++ news', hread.trans hread' ?_⟩
      have hfull : (inputSegs segs (inputSeg st seg.head seg.data)).kcp.nrcvQue
          ≤ (inputSegs segs (inputSeg st seg.head seg.data)).kcp.rcvWnd.toNat := hrcv.1.full
      exact Nat.lt_of_le_of_lt hfull (BitVec.isLt _)

/-- The blocks differ in nothing that is read or written of a datagram.  `inputEnter` and what
    follows the loop (fast resends, `cwnd`) change clocks and counters only. -/
structure Alike (k k' : IKCPCB) : Prop where
  buf : k'.sndBuf.map IKCPSEG.sn = k.sndBuf.map IKCPSEG.sn
  nxt : k'.sndNxt = k.sndNxt
  half : k'.rcvHalf = k.rcvHalf
  acks : acks k' = acks k

/-- What is read between alike blocks. -/
theorem Read.between {m m' : IKCPCB} {news : List Nat} (h : Read note base rcvNum m m' news)
    (hin : Alike k m) (hout : Alike m' k') : Read note base rcvNum k k' news := by
  have hnxt : m.rcvNxt = k.rcvNxt := congrArg RcvHalf.rcvNxt hin.half
  have hque : m.nrcvQue = k.nrcvQue := congrArg RcvHalf.nrcvQue hin.half
  have hnxt' : k'.rcvNxt = m'.rcvNxt := congrArg RcvHalf.rcvNxt hout.half
  have hque' : k'.nrcvQue = m'.nrcvQue := congrArg RcvHalf.nrcvQue hout.half
  constructor
  · exact (LetsGo.of_eq hin.buf hin.nxt).trans (h.lets.trans (.of_eq hout.buf hout.nxt))
  · rw [hnxt', ← hnxt, hque', ← hque]
    exact h.moved
  · rw [hnxt', ← hnxt, has_congr hout.half, ← has_congr hin.half]
    exact h.keeps
  · rw [hnxt', ← hnxt, has_congr hout.half, ← has_congr hin.half]
    exact h.gains
  · rw [hout.acks, ← hin.acks]
    exact h.asked
  · rw [hnxt', ← hnxt, has_congr hout.half]
    exact h.held
  · rw [hnxt', ← hnxt]
    exact h.near
  · exact h.recent

theorem inputEnter_alike (k : IKCPCB) (current : IUINT32) : Alike k (inputEnter k current) := by
  obtain ⟨_, _, _, hset⟩ := inputEnter_eq k current
  rw [hset]
  exact ⟨rfl, rfl, rfl, rfl⟩

/-- What follows the loop. -/
theorem inputTail_alike (st : InputSt) (una : IUINT32) :
    Alike st.kcp (inputCwnd (if st.flag then ikcpParseFastack st.kcp st.maxack else st.kcp) una) := by
  have hfast : Alike st.kcp (if st.flag then ikcpParseFastack st.kcp st.maxack else st.kcp) := by
    split
    · have hground := ikcpParseFastack_ground st.kcp st.maxack
      have hdesk := ikcpParseFastack_desk st.kcp st.maxack
      refine ⟨?_, congrArg (fun g => g.snd.sndNxt) hground, congrArg Ground.rcv hground,
        congrArg Desk.acks hdesk⟩
      rw [← numbers_sndHalf, ← numbers_sndHalf]
      exact congrArg (fun g => g.snd.numbers) hground
    · exact ⟨rfl, rfl, rfl, rfl⟩
  generalize (if st.flag then ikcpParseFastack st.kcp st.maxack else st.kcp) = k at hfast
  obtain ⟨_, _, hset⟩ := inputCwnd_eq k una
  rw [hset]
  exact ⟨hfast.buf, hfast.nxt, hfast.half, hfast.acks⟩

/-- **A datagram of the other side**, in time. -/
theorem pvpIkcpInput_read (h : Reading conv sndNum rcvNum k) (hnote : note.Near sndNum) {data : List Byte}
    (hdata : Packed (Noted conv base note) data) {current : IUINT32}
    (ht : timely base data.length data rcvNum
      { kcp := inputEnter k current, flag := false, maxack := 0 } = true) :
    ∃ news, Read note base rcvNum k (pvpIkcpInput k data current).2 news := by
  obtain ⟨segs, rfl, hsegs⟩ := hdata
  have henter := inputEnter_alike k current
  have hground := inputEnter_ground k current
  have hreading : Reading conv sndNum rcvNum (inputEnter k current) := by
    constructor
    · exact (congrArg (fun g => g.snd.conv) hground).trans h.conv
    · exact rcvWindowed_digest.same h.rcv hground
    · rw [inputEnter_desk]
      exact h.fits
    · exact henter.nxt.trans h.sndNxt
    · exact (congrArg RcvHalf.rcvNxt henter.half).trans h.rcvNxt
  let st : InputSt := { kcp := inputEnter k current, flag := false, maxack := 0 }
  have hst : Reading conv sndNum rcvNum st.kcp := hreading
  -- the loop takes the bytes apart into the segments they were packed from
  have hloop := inputLoop_packed inputSeg_conv segs _ st (length_segs_le segs) hst.conv
    fun seg hs => (hsegs seg hs).accepted
  obtain ⟨-, news, hread⟩ := inputSegs_read hnote segs _ rcvNum st (length_segs_le segs) hsegs hst ht
  rw [pvpIkcpInput]
  dsimp only
  split
  · -- A datagram shorter than a header is refused before the loop.
    exact ⟨[], (Read.nil (inputEnter k current)).between henter ⟨rfl, rfl, rfl, rfl⟩⟩
  · rw [hloop]
    exact ⟨news, hread.between henter (inputTail_alike _ _)⟩

/-- `rcv_nxt` moves by no more than a window. -/
theorem Read.moves {data : List Byte} {current : IUINT32} {news : List Nat}
    (h : Read note base rcvNum k (pvpIkcpInput k data current).2 news) (hrcv : RcvWindowed k)
    (hwnd : k.rcvWnd.toNat ≤ 0x7fff) : off k.rcvNxt (pvpIkcpInput k data current).2.rcvNxt ≤ 0x7fff := by
  have hmoved := h.moved
  have hrcv' : RcvWindowed (pvpIkcpInput k data current).2 := rcvWindowed_digest.input hrcv data current
  have hfull : (pvpIkcpInput k data current).2.nrcvQue ≤ (pvpIkcpInput k data current).2.rcvWnd.toNat :=
    hrcv'.1.full
  have hsame : (pvpIkcpInput k data current).2.rcvWnd = k.rcvWnd :=
    (rcvWnd_digest k.rcvWnd).input rfl data current
  rw [hsame] at hfull
  omega

end Reading

/-! ## What a sender lets go of -/

section Letting

variable {ln : Link} {log : List (Nat × List Byte)} {una base sndNum rcvNum : Nat} {note : Note}
  {k k' : IKCPCB} {news : List Nat}

/-- Nothing is put into `snd_buf`. -/
theorem LetsGo.buffered {gone : IUINT32 → Prop} (h : LetsGo gone k k') :
    k'.buffered sndNum ⊆ k.buffered sndNum := by
  rintro n ⟨seg, hseg, hn⟩
  obtain ⟨old, hold, hsn⟩ := List.mem_map.mp (h.sub.subset (List.mem_map_of_mem hseg))
  refine ⟨old, hold, ?_⟩
  rw [hsn, ← h.nxt]
  exact hn

/-- The numbers that left are numbers that the note tells of: near the counter, a residue stands for one
    number only. -/
theorem Read.lets_go (h : SndOk ln log una sndNum k.sndHalf) (hnote : note.Near sndNum)
    (hread : Read note base rcvNum k k' news) {n : Nat} (hn : n ∈ k.buffered sndNum)
    (hgone : n ∉ k'.buffered sndNum) : n < note.una ∨ n ∈ note.acks := by
  obtain ⟨hlo, hhi, hmem⟩ := h.mem_buffered.mp hn
  have hnear := h.near
  rcases hread.lets.stays _ hmem with htells | hstill
  · -- below `una`, or acknowledged: either way the residue is that of one number near `sndNum`
    rcases htells with hbelow | ⟨m, hm, hsn⟩
    · obtain ⟨hle, hlt⟩ := hnote.una
      rw [itimediff_ofNat (by omega) (by omega)] at hbelow
      left
      omega
    · obtain ⟨hlt, hnear'⟩ := hnote.acks m hm
      have hnm : n = m := ofNat_inj_of_near (by omega) (by omega) hsn
      right
      rw [hnm]
      exact hm
  · -- still in `snd_buf`, against `hgone`
    exfalso
    obtain ⟨seg, hseg, hsn⟩ := List.mem_map.mp hstill
    refine hgone ⟨seg, hseg, ?_⟩
    have hnxt : k.sndNxt = BitVec.ofNat 32 sndNum := h.sndNxt
    rw [hsn, hread.lets.nxt, hnxt, off_ofNat (Nat.le_of_lt hhi) (by omega)]
    omega

end Letting

/-! ## The network, watched -/

/-- The network, and what its residues stand for.  The two lists are ghosts: they follow the
    network, and no step asks for them. -/
structure Watch where
  net : Net
  /-- The numbers in `acklist`. -/
  owed : Side → List Nat
  /-- What each datagram of a side says. -/
  notes : Side → List Note

/-- The numbers in `acklist` after a step of `p` to `p'`.  A flush empties it; a datagram appends to
    it, and the new ones are those nearest to `rcv_nxt`. -/
def owedAfter (p p' : Peer) (owed : List Nat) : List Nat :=
  if acks p'.kcp = [] then []
  else owed ++ ((acks p'.kcp).drop owed.length).map fun pair =>
    ((p.rcvNum : Int) + itimediff pair.1 p.kcp.rcvNxt).toNat

/-- What the datagrams say after a step; the new ones say what `p` was before it, since `flush`
    writes `una` and the acknowledgements of the block as it finds them. -/
def notesAfter (p p' : Peer) (owed : List Nat) (notes : List Note) : List Note :=
  notes ++ List.replicate (p'.wire.length - p.wire.length) (p.kcp.note p.rcvNum owed)

/-- A step of the network, watched. -/
def watchStep (i : Side × Act) (w : Watch) : Except Unit Watch :=
  match netStep i w.net with
  | .error e => .error e
  | .ok net => .ok {
      net := net
      owed := fun x => if x = i.1 then owedAfter (w.net x) (net x) (w.owed x) else w.owed x
      notes := fun x =>
        if x = i.1 then notesAfter (w.net x) (net x) (w.owed x) (w.notes x) else w.notes x }

/-- A datagram arrives before as many as `0x8000` numbers were given out from those on that it tells
    of.  A datagram that was not sent is refused by the step itself. -/
def Recent (w : Watch) (i : Side × Act) : Bool :=
  match i.2 with
  | .input d _ =>
    match (w.notes i.1.other)[d]? with
    | some note => decide ((w.net i.1).sndNum < note.una + 0x8000)
        && note.acks.all fun n => decide ((w.net i.1).sndNum < n + 0x8000)
    | none => true
  | _ => true

/-- The condition on a step: a datagram arrives in time for its data and for what it tells. -/
def InReach (w : Watch) (i : Side × Act) : Bool := Timely w.net i && Recent w i

/-- The start: nothing was received, and nothing sent. -/
structure Watch.Start (conv : IUINT32) (w : Watch) : Prop where
  net : Ikcp.Start conv w.net
  owed : ∀ x, w.owed x = []
  notes : ∀ x, w.notes x = []

/-- The watched network is a network. -/
theorem watchStep_net {i : Side × Act} {w w' : Watch} (h : watchStep i w = .ok w') :
    netStep i w.net = .ok w'.net := by
  rw [watchStep] at h
  split at h
  · cases h
  · rename_i net hnet
    cases h
    exact hnet

theorem Reach.net {conv : IUINT32} {w : Watch}
    (h : Reach watchStep (Watch.Start conv) (fun w i => InReach w i = true) w) :
    Reach netStep (Start conv) (fun s i => Timely s i = true) w.net := by
  refine h.map Watch.net (fun w hw => hw.net) fun w w' i hc hs => ⟨?_, watchStep_net hs⟩
  rw [InReach, Bool.and_eq_true] at hc
  exact hc.1

/-- The numbers that may yet be told: those in `acklist`, and those in the datagrams.  A datagram
    that arrived counts on, as it may come again. -/
def tellable (owed : List Nat) (notes : List Note) : Set Nat :=
  { n | n ∈ owed ∨ ∃ note ∈ notes, n < note.una ∨ n ∈ note.acks }

/-- The direction from `p` to `q`, of which `told` may be told. -/
def custody (p q : Peer) (told : Set Nat) : Custody where
  next := p.sndNum
  kept := p.kcp.buffered p.sndNum
  held := q.kcp.has q.rcvNum
  told := told

/-- The direction from `x` to its other side. -/
def Watch.view (w : Watch) (x : Side) : Custody :=
  custody (w.net x) (w.net x.other) (tellable (w.owed x.other) (w.notes x.other))

/-! ## What a step does -/

/-- What a step of `p` did to the numbers: it sent, or it received something of `q`.  In either case
    what it may tell grows only by what it holds. -/
inductive Moved (q : Peer) (toldq : Set Nat) (p p' : Peer) (toldp toldp' : Set Nat) : Prop where
  | sent (n : Nat) (hnext : p'.sndNum = p.sndNum + n)
      (hkept : p'.kcp.buffered p'.sndNum = p.kcp.buffered p.sndNum ∪ Set.Ico p.sndNum (p.sndNum + n))
      (hheld : p'.kcp.has p'.rcvNum = p.kcp.has p.rcvNum) (htold : toldp' ⊆ toldp ∪ p.kcp.has p.rcvNum)
  | received (hnext : p'.sndNum = p.sndNum)
      (hkept : p'.kcp.buffered p.sndNum ⊆ p.kcp.buffered p.sndNum)
      (hgone : p.kcp.buffered p.sndNum \ p'.kcp.buffered p.sndNum ⊆ toldq)
      (hkeeps : p.kcp.has p.rcvNum ⊆ p'.kcp.has p'.rcvNum)
      (hgains : p'.kcp.has p'.rcvNum ⊆ p.kcp.has p.rcvNum ∪ Set.Iio q.sndNum)
      (htold : toldp' ⊆ toldp ∪ p'.kcp.has p'.rcvNum)

section Moving

variable {p p' q : Peer} {toldp toldp' toldq : Set Nat}

/-- **The direction from `p`**: it numbers, or it settles. -/
theorem Moved.own (h : Moved q toldq p p' toldp toldp') :
    Custody.Steps (custody p q toldq) (custody p' q toldq) := by
  cases h with
  | sent n hnext hkept _ _ =>
    have hview : custody p' q toldq = { custody p q toldq with
        next := p.sndNum + n
        kept := p.kcp.buffered p.sndNum ∪ Set.Ico p.sndNum (p.sndNum + n) } := by
      rw [custody, hkept, hnext, custody]
    rw [hview]
    exact .single (.number n)
  | received hnext hkept hgone _ _ _ =>
    have hview : custody p' q toldq = { custody p q toldq with kept := p'.kcp.buffered p.sndNum } := by
      rw [custody, hnext, custody]
    rw [hview]
    exact .single (.settle hkept hgone)

/-- **The direction to `p`**: something arrives, and it tells. -/
theorem Moved.back (h : Moved q toldq p p' toldp toldp') (hs : (custody q p toldp).Sound) :
    Custody.Steps (custody q p toldp) (custody q p' toldp') := by
  have htoldp : toldp ⊆ p.kcp.has p.rcvNum := hs.told
  cases h with
  | sent n _ _ hheld htold =>
    have hview : custody q p' toldp' = { custody q p toldp with told := toldp' } := by
      rw [custody, hheld, custody]
    rw [hview]
    exact .single (.tell (htold.trans (Set.union_subset htoldp (Set.Subset.refl _))))
  | received _ _ _ hkeeps hgains htold =>
    have hbelow : p'.kcp.has p'.rcvNum ⊆ Set.Iio q.sndNum :=
      hgains.trans (Set.union_subset hs.held (Set.Subset.refl _))
    -- what arrived is held before it is told of
    refine .tail (.single (.arrive hkeeps hbelow)) ?_
    exact .tell (htold.trans (Set.union_subset (htoldp.trans hkeeps) (Set.Subset.refl _)))

end Moving

/-- What is watched of a side is so: its `acklist` stands for `owed`, and its datagrams say `notes`,
    one each, in the order they were sent. -/
structure Watched (conv : IUINT32) (p : Peer) (owed : List Nat) (notes : List Note) : Prop where
  list : (acks p.kcp).map Prod.fst = owed.map (BitVec.ofNat 32)
  wire : List.Forall₂ (fun (dg : Datagram) note =>
    dg.base ≤ p.sndNum ∧ Packed (Noted conv dg.base note) dg.bytes) p.wire notes

section Watching

variable {conv : IUINT32} {ln lnq : Link} {p p' q : Peer} {owed : List Nat} {notes : List Note}

/-- The numbers in `acklist` are as many as its pairs. -/
theorem Watched.length (h : Watched conv p owed notes) : (acks p.kcp).length = owed.length := by
  have hlen := congrArg List.length h.list
  rw [List.length_map, List.length_map] at hlen
  exact hlen

/-- Nothing is to be acknowledged when `acklist` is empty. -/
theorem Watched.none (h : Watched conv p owed notes) (hacks : acks p.kcp = []) : owed = [] := by
  have hlen := h.length
  rw [hacks] at hlen
  exact List.eq_nil_of_length_eq_zero hlen.symm

/-- `acklist` was left alone. -/
theorem Watched.owedAfter_same (h : Watched conv p owed notes) (hacks : acks p'.kcp = acks p.kcp) :
    owedAfter p p' owed = owed := by
  rw [owedAfter]
  split
  · rename_i hnone
    exact (h.none (hacks ▸ hnone)).symm
  · have hdrop : (acks p.kcp).drop owed.length = [] := by
      rw [← h.length]
      exact List.drop_length
    rw [hacks, hdrop, List.map_nil, List.append_nil]

/-- What was added to `acklist` is rebuilt: `rcv_nxt` moved by no more than a window, so a number
    nearest to it before the datagram is nearest to it afterwards too. -/
theorem Watched.owedAfter_read (h : Watched conv p owed notes) {note : Note} {base : Nat} {news : List Nat}
    (hread : Read note base p.rcvNum p.kcp p'.kcp news) (hnxt : p.kcp.rcvNxt = BitVec.ofNat 32 p.rcvNum)
    (hmove : off p.kcp.rcvNxt p'.kcp.rcvNxt ≤ 0x7fff) : owedAfter p p' owed = owed ++ news := by
  have hnew : ((acks p'.kcp).drop owed.length).map (fun pair =>
      ((p.rcvNum : Int) + itimediff pair.1 p.kcp.rcvNxt).toNat) = news := by
    have hdrop : ((acks p'.kcp).drop owed.length).map Prod.fst = news.map (BitVec.ofNat 32) := by
      rw [List.map_drop, hread.asked, h.list]
      exact List.drop_left' (List.length_map ..)
    -- `owedAfter` reads the numbers off the pairs, `asked` knows their residues
    have hcompose : ((acks p'.kcp).drop owed.length).map (fun pair =>
        ((p.rcvNum : Int) + itimediff pair.1 p.kcp.rcvNxt).toNat)
        = (((acks p'.kcp).drop owed.length).map Prod.fst).map
          fun sn => ((p.rcvNum : Int) + itimediff sn p.kcp.rcvNxt).toNat := by
      rw [List.map_map]
      rfl
    rw [hcompose, hdrop, List.map_map]
    conv_rhs => rw [← List.map_id news]
    refine List.map_congr_left fun n hn => ?_
    obtain ⟨hlo, hhi⟩ := hread.near n hn
    show ((p.rcvNum : Int) + itimediff (BitVec.ofNat 32 n) p.kcp.rcvNxt).toNat = n
    rw [hnxt, itimediff_ofNat (by omega) (by omega)]
    omega
  rw [owedAfter, hnew]
  split
  · -- An empty `acklist` was empty before, and nothing was read.
    rename_i hnone
    have hasked := hread.asked
    rw [hnone, h.list] at hasked
    have hboth := congrArg List.length hasked
    rw [List.map_nil, List.length_nil, List.length_append, List.length_map, List.length_map] at hboth
    have howed : owed = [] := List.eq_nil_of_length_eq_zero (by omega)
    have hnews : news = [] := List.eq_nil_of_length_eq_zero (by omega)
    rw [howed, hnews]
    rfl
  · rfl

/-- No datagram was output. -/
theorem notesAfter_same (hwire : p'.wire = p.wire) : notesAfter p p' owed notes = notes := by
  rw [notesAfter, hwire, Nat.sub_self]
  exact List.append_nil _

/-- `snd_nxt` moves by the numbers that are given out. -/
theorem Tells.advance {log log' : List (Nat × List Byte)} {una sndNum n : Nat} {note : Note} {k : IKCPCB}
    {r : IKCPCB × List (IKCPCB × List Byte)} (ht : Tells ln log' una sndNum n note k r)
    (hok : SndOk ln log una sndNum k.sndHalf) : sndNum + advance k.sndNxt r.1.sndNxt = sndNum + n := by
  have hnxt : k.sndNxt = BitVec.ofNat 32 sndNum := hok.sndNxt
  have hnxt' : r.1.sndNxt = BitVec.ofNat 32 (sndNum + n) := ht.ok.sndNxt
  have hnear := ht.ok.near
  have hle := hok.le
  rw [hnxt, hnxt']
  exact advance_ofNat (Nat.le_add_right _ _) (by omega)

/-- **A sending step.** The block may have been flushed: then `acklist` is empty, and what it held
    has gone into the datagrams, whose note names the same numbers. -/
theorem Watched.transmit (h : Watched conv p owed notes) (hconv : ln.conv = conv)
    {log log' : List (Nat × List Byte)} {una n : Nat} {r : IKCPCB × List (IKCPCB × List Byte)}
    (hok : SndOk ln log una p.sndNum p.kcp.sndHalf)
    (ht : Tells ln log' una p.sndNum n (p.kcp.note p.rcvNum owed) p.kcp r) (hkcp : p'.kcp = r.1)
    (hsnd : p'.sndNum = p.sndNum + advance p.kcp.sndNxt r.1.sndNxt) (hrcv : p'.rcvNum = p.rcvNum)
    (hwire : p'.wire = p.wire ++ r.2.map fun d => ⟨d.2, p'.sndNum⟩) (toldq : Set Nat) :
    Watched conv p' (owedAfter p p' owed) (notesAfter p p' owed notes)
      ∧ Moved q toldq p p' (tellable owed notes)
        (tellable (owedAfter p p' owed) (notesAfter p p' owed notes)) := by
  have hnum : p'.sndNum = p.sndNum + n := by
    rw [hsnd, ht.advance hok]
  have hnotes : notesAfter p p' owed notes
      = notes ++ List.replicate r.2.length (p.kcp.note p.rcvNum owed) := by
    rw [notesAfter, hwire, List.length_append, List.length_map, Nat.add_sub_cancel_left]
  -- either `acklist` was left alone, or all of it was sent
  have hlist : owedAfter p p' owed ⊆ owed
      ∧ (acks p'.kcp).map Prod.fst = (owedAfter p p' owed).map (BitVec.ofNat 32) := by
    rcases ht.desk with hsame | hnone
    · have hsame : acks p'.kcp = acks p.kcp := hkcp ▸ hsame
      rw [h.owedAfter_same hsame, hsame]
      exact ⟨List.Subset.refl _, h.list⟩
    · have hnone : acks p'.kcp = [] := hkcp ▸ hnone
      rw [owedAfter, if_pos hnone, hnone]
      exact ⟨List.nil_subset _, rfl⟩
  refine ⟨⟨hlist.2, ?_⟩, .sent n hnum ?_ ?_ ?_⟩
  · rw [hnotes, hwire]
    -- the old datagrams keep their notes; the new ones say what `p` was
    refine List.rel_append ?_ ?_
    · refine h.wire.imp fun dg note hdg => ⟨?_, hdg.2⟩
      omega
    · have hlen : r.2.length = (r.2.map fun d => (⟨d.2, p'.sndNum⟩ : Datagram)).length := by
        rw [List.length_map]
      refine List.forall₂_of_length_eq_of_get (by rw [List.length_replicate, hlen]) fun i hi hi' => ?_
      rw [List.get_eq_getElem, List.get_eq_getElem, List.getElem_replicate]
      obtain ⟨d, hd, hdg⟩ := List.mem_map.mp (List.getElem_mem hi)
      rw [← hdg]
      refine ⟨Nat.le_refl _, ?_⟩
      rw [hnum, ← hconv]
      exact ht.sent d hd
  · rw [hkcp, hnum]
    exact ht.buffered hok
  · rw [hkcp, hrcv]
    exact has_congr ht.half _
  · rw [hnotes]
    -- what may be told now: an owed number, or what a datagram says; a new datagram tells of
    -- numbers below `rcv_nxt` and of owed ones
    rintro m (hm | ⟨note, hnote, hm⟩)
    · exact Or.inl (Or.inl (hlist.1 hm))
    · rcases List.mem_append.mp hnote with hold | hnew
      · exact Or.inl (Or.inr ⟨note, hold, hm⟩)
      · rw [List.eq_of_mem_replicate hnew] at hm
        rcases hm with hbelow | hack
        · exact Or.inr (Or.inl hbelow)
        · exact Or.inl (Or.inl hack)

/-- **`pvp_ikcp_recv`** changes none of the numbers. -/
theorem Watched.recv (h : Watched conv p owed notes) (hrcv : RcvWindowed p.kcp) (len : Int)
    (hkcp : p'.kcp = (pvpIkcpRecv p.kcp len).2) (hsnd : p'.sndNum = p.sndNum)
    (hnum : p'.rcvNum = p.rcvNum + advance p.kcp.rcvNxt (pvpIkcpRecv p.kcp len).2.rcvNxt)
    (hwire : p'.wire = p.wire) (toldq : Set Nat) :
    Watched conv p' (owedAfter p p' owed) (notesAfter p p' owed notes)
      ∧ Moved q toldq p p' (tellable owed notes)
        (tellable (owedAfter p p' owed) (notesAfter p p' owed notes)) := by
  have hacks : acks p'.kcp = acks p.kcp := by
    rw [hkcp]
    exact congrArg Desk.acks (pvpIkcpRecv_desk p.kcp len)
  have hheld : p'.kcp.has p'.rcvNum = p.kcp.has p.rcvNum := by
    rw [hkcp, hnum]
    exact pvpIkcpRecv_has hrcv len p.rcvNum
  have hkept : p'.kcp.buffered p.sndNum = p.kcp.buffered p.sndNum := by
    obtain ⟨_, _, _, _, _, _, hset⟩ := pvpIkcpRecv_eq p.kcp len
    rw [hkcp, hset]
    rfl
  rw [h.owedAfter_same hacks, notesAfter_same hwire]
  refine ⟨⟨?_, ?_⟩, .received hsnd ?_ ?_ ?_ ?_ Set.subset_union_left⟩
  · rw [hacks]
    exact h.list
  · rw [hwire, hsnd]
    exact h.wire
  · rw [hkept]
  · rw [hkept, Set.sdiff_self]
    exact Set.empty_subset _
  · rw [hheld]
  · rw [hheld]
    exact Set.subset_union_left

/-- **`pvp_ikcp_input`** of a datagram that says `note`.  What leaves `snd_buf` is what the note
    tells of, and what it tells of was tellable by `q`; this is where the custody of the one
    direction uses the other. -/
theorem Watched.input (h : Watched conv p owed notes) {log : List (Nat × List Byte)} {una base : Nat}
    {note : Note} {data : List Byte} {current : IUINT32} (hok : SndOk ln log una p.sndNum p.kcp.sndHalf)
    (hreading : Reading conv p.sndNum p.rcvNum p.kcp) (hwnd : p.kcp.rcvWnd.toNat ≤ 0x7fff)
    (hnote : note.Near p.sndNum) (hdata : Packed (Noted conv base note) data) (hbase : base ≤ q.sndNum)
    (ht : timely base data.length data p.rcvNum
      { kcp := inputEnter p.kcp current, flag := false, maxack := 0 } = true)
    {toldq : Set Nat} (htold : ∀ n, n < note.una ∨ n ∈ note.acks → n ∈ toldq) :
    Watched conv (p.take (pvpIkcpInput p.kcp data current).2)
        (owedAfter p (p.take (pvpIkcpInput p.kcp data current).2) owed)
        (notesAfter p (p.take (pvpIkcpInput p.kcp data current).2) owed notes)
      ∧ Moved q toldq p (p.take (pvpIkcpInput p.kcp data current).2) (tellable owed notes)
        (tellable (owedAfter p (p.take (pvpIkcpInput p.kcp data current).2) owed)
          (notesAfter p (p.take (pvpIkcpInput p.kcp data current).2) owed notes)) := by
  obtain ⟨news, hread⟩ := pvpIkcpInput_read hreading hnote hdata ht
  have hmove := hread.moves hreading.rcv hwnd
  generalize hp' : p.take (pvpIkcpInput p.kcp data current).2 = p'
  have hkcp : p'.kcp = (pvpIkcpInput p.kcp data current).2 := by rw [← hp', Peer.take]
  have hnum : p'.rcvNum = p.rcvNum + off p.kcp.rcvNxt p'.kcp.rcvNxt := by
    rw [← hp']
    rfl
  have hsnd : p'.sndNum = p.sndNum := by rw [← hp', Peer.take]
  have hwire : p'.wire = p.wire := by rw [← hp', Peer.take]
  rw [← hkcp] at hread hmove
  have hheld : ∀ n ∈ news, n ∈ p'.kcp.has p'.rcvNum := hnum ▸ hread.held
  rw [h.owedAfter_read hread hreading.rcvNxt hmove, notesAfter_same hwire]
  refine ⟨⟨?_, ?_⟩, .received hsnd hread.lets.buffered ?_ (hnum ▸ hread.keeps) ?_ ?_⟩
  · rw [hread.asked, h.list, List.map_append]
  · rw [hwire, hsnd]
    exact h.wire
  · rintro n ⟨hn, hgone⟩
    exact htold n (hread.lets_go hok hnote hn hgone)
  · rw [hnum]
    exact hread.gains.trans (Set.union_subset_union_right _ (Set.Iio_subset_Iio hbase))
  · rintro m (hm | hm)
    · rcases List.mem_append.mp hm with hold | hnew
      · exact Or.inl (Or.inl hold)
      · exact Or.inr (hheld m hnew)
    · exact Or.inl (Or.inr hm)

/-- What may be told is told of numbers that were given out: by the custody the other side tells
    only of what it holds, and holds only what was numbered. -/
theorem Note.Near.of_sound {note : Note} {toldq : Set Nat} (hs : (custody p q toldq).Sound)
    (htold : ∀ n, n < note.una ∨ n ∈ note.acks → n ∈ toldq) (huna : p.sndNum < note.una + 0x8000)
    (hacks : ∀ n ∈ note.acks, p.sndNum < n + 0x8000) : note.Near p.sndNum := by
  have hlt : ∀ n, n < note.una ∨ n ∈ note.acks → n < p.sndNum := fun n hn => hs.told_lt (htold n hn)
  refine ⟨⟨?_, huna⟩, fun n hn => ⟨hlt n (Or.inr hn), hacks n hn⟩⟩
  rcases Nat.eq_zero_or_pos note.una with hzero | hpos
  · omega
  · have hlast := hlt (note.una - 1) (Or.inl (by omega))
    omega

/-- What `pvp_ikcp_recv` does to a peer, whether it returns a message or not. -/
theorem recv_ok {len : Nat} (hstep : p.step q (.recv len) = .ok p') :
    p'.kcp = (pvpIkcpRecv p.kcp len).2 ∧ p'.accepted = p.accepted ∧ p'.sndNum = p.sndNum
      ∧ p'.rcvNum = p.rcvNum + advance p.kcp.rcvNxt (pvpIkcpRecv p.kcp len).2.rcvNxt ∧ p'.wire = p.wire := by
  have hp' : p' = (if (pvpIkcpRecv p.kcp len).1.ret ≥ 0 then
      { p.take (pvpIkcpRecv p.kcp len).2 with received := p.received ++ [(pvpIkcpRecv p.kcp len).1.bytes] }
      else p.take (pvpIkcpRecv p.kcp len).2) := (Except.ok.inj hstep).symm
  rw [hp']
  split
  · exact ⟨rfl, rfl, rfl, rfl, rfl⟩
  · exact ⟨rfl, rfl, rfl, rfl, rfl⟩

/-- **Every step of a peer**, one case for each call: four of them send, `pvp_ikcp_recv` moves
    nothing, and `pvp_ikcp_input` receives. -/
theorem Watched.step (h : Watched conv p owed notes) (hln : ln.conv = conv) (hmss : ln.mss < 2 ^ 16)
    (hpq : Flow ln p q) (hqp : Flow lnq q p) (hsound : Sound p.kcp) (hfits : p.kcp.desk.Fits)
    {owedq : List Nat} {notesq : List Note} (hq : Watched conv q owedq notesq)
    (hs : (custody p q (tellable owedq notesq)).Sound) {act : Act}
    (ht : ∀ d current dg note, act = .input d current → q.wire[d]? = some dg → notesq[d]? = some note →
      timely dg.base dg.bytes.length dg.bytes p.rcvNum
          { kcp := inputEnter p.kcp current, flag := false, maxack := 0 } = true
        ∧ p.sndNum < note.una + 0x8000 ∧ ∀ n ∈ note.acks, p.sndNum < n + 0x8000)
    (hstep : p.step q act = .ok p') :
    Watched conv p' (owedAfter p p' owed) (notesAfter p p' owed notes)
      ∧ Moved q (tellable owedq notesq) p p' (tellable owed notes)
        (tellable (owedAfter p p' owed) (notesAfter p p' owed notes)) := by
  obtain ⟨una, hok⟩ := hpq.snd
  have hnxt : p.kcp.rcvNxt = BitVec.ofNat 32 p.rcvNum := hqp.rcv.nxt
  -- the four sending calls are one case, after what each of them appends to the log
  have hsends : ∀ {r : IKCPCB × List (IKCPCB × List Byte)} {log' : List (Nat × List Byte)} {n : Nat},
      Tells ln log' una p.sndNum n (p.kcp.note p.rcvNum owed) p.kcp r →
      ∀ msgs, p' = { p with accepted := p.accepted ++ msgs }.transmit r →
        Watched conv p' (owedAfter p p' owed) (notesAfter p p' owed notes)
          ∧ Moved q (tellable owedq notesq) p p' (tellable owed notes)
            (tellable (owedAfter p p' owed) (notesAfter p p' owed notes)) := by
    intro r log' n htells msgs hp'
    refine h.transmit hln hok htells ?_ ?_ ?_ ?_ _
    · rw [hp']
      rfl
    · rw [hp']
      rfl
    · rw [hp']
      rfl
    · rw [hp']
      rfl
  cases act with
  | send msg current =>
    have hp' := (Except.ok.inj hstep).symm
    rw [accept_eq] at hp'
    obtain ⟨more, htells⟩ := pvpIkcpSend_tells hmss hok (p.kcp.note p.rcvNum owed) msg current
    exact hsends htells _ hp'
  | sendEx msg current =>
    have hp' := (Except.ok.inj hstep).symm
    rw [accept_eq] at hp'
    obtain ⟨n, more, htells⟩ := pvpIkcpSendEx_tells hmss hok hnxt h.list msg current
    exact hsends htells _ hp'
  | update current =>
    have hp' := (Except.ok.inj hstep).symm
    obtain ⟨n, htells⟩ := pvpIkcpUpdate_tells hok hnxt h.list current
    refine hsends htells [] ?_
    rw [List.append_nil]
    exact hp'
  | flush =>
    have hp' := (Except.ok.inj hstep).symm
    obtain ⟨n, htells⟩ := pvpIkcpFlush_tells hok hnxt h.list
    refine hsends htells [] ?_
    rw [List.append_nil]
    exact hp'
  | recv len =>
    obtain ⟨hkcp, -, hsnd, hnum, hwire⟩ := recv_ok hstep
    exact h.recv hsound.rcv len hkcp hsnd hnum hwire _
  | input d current =>
    rw [Peer.step] at hstep
    cases hd : q.wire[d]? with
    | none =>
      rw [hd] at hstep
      cases hstep
    | some dg =>
      rw [hd] at hstep
      cases hstep
      -- the note of this datagram, found at its place
      obtain ⟨note, hnote, hbase, hdata⟩ : ∃ note, notesq[d]? = some note ∧ dg.base ≤ q.sndNum
          ∧ Packed (Noted conv dg.base note) dg.bytes := by
        obtain ⟨hlen, hall⟩ := List.forall₂_iff_get.mp hq.wire
        obtain ⟨hlt, hdg⟩ := List.getElem?_eq_some_iff.mp hd
        have hone := hall d hlt (hlen ▸ hlt)
        rw [List.get_eq_getElem, List.get_eq_getElem, hdg] at hone
        exact ⟨_, List.getElem?_eq_getElem (hlen ▸ hlt), hone⟩
      obtain ⟨htimely, huna, hacks⟩ := ht d current dg note rfl hd hnote
      have htold : ∀ n, n < note.una ∨ n ∈ note.acks → n ∈ tellable owedq notesq := fun n hn =>
        Or.inr ⟨note, List.mem_of_getElem? hnote, hn⟩
      have hreading : Reading conv p.sndNum p.rcvNum p.kcp :=
        ⟨hok.conv.trans hln, hsound.rcv, hfits, hok.sndNxt, hnxt⟩
      exact h.input hok hreading hqp.rcv.wnd (.of_sound hs htold huna hacks) hdata hbase htimely htold

end Watching

/-! ## Every interleaving -/

/-- Two fresh blocks are connected. -/
theorem Start.connected {conv : IUINT32} {s : Net} (h : Start conv s) : Connected conv s := by
  intro x
  have hwnd := (h x).rcvWnd
  exact ⟨⟨(h x).kcp, by omega, (h x).mss⟩, (h x).wire⟩

/-- What is known of the block of a side. -/
theorem Reach.block {conv : IUINT32} {s : Net}
    (h : Reach netStep (Start conv) (fun s i => Timely s i = true) s) (x : Side) :
    Sound (s x).kcp ∧ (s x).kcp.desk.Fits := by
  have hconnected : Reach netStep (Connected conv) (fun s i => Timely s i = true) s :=
    h.map id (fun s hs => hs.connected) fun s s' i hc hs => ⟨hc, hs⟩
  have hrun := sides_run hconnected x
  have hequipped : Runs Equipped KeepsWindow (s x).kcp :=
    Runs.mono (fun k hk => ⟨⟨conv, hk.kcp⟩, hk.rcvWnd⟩) (fun _ hc => hc) hrun
  exact ⟨hrun.sound, hequipped.rcvWindowed.2.2⟩

/-- The invariant of a watched run: the ghosts stand for the blocks, and both directions keep
    custody.  Neither half is inductive without the other, as what a side lets go of is what the
    other may tell. -/
structure Watch.Kept (conv : IUINT32) (w : Watch) : Prop where
  side : ∀ x, Watched conv (w.net x) (w.owed x) (w.notes x)
  sound : ∀ x, (w.view x).Sound

section Watches

variable {conv : IUINT32} {w w' : Watch} {i : Side × Act}

/-- Nothing was given out before the first step. -/
theorem Watch.Start.kept (h : w.Start conv) : w.Kept conv := by
  have hempty : ∀ x, acks (w.net x).kcp = [] ∧ (w.net x).kcp.buffered 0 = ∅ ∧ (w.net x).kcp.has 0 = ∅ := by
    intro x
    obtain ⟨settings, hblock⟩ := (h.net x).kcp.settings
    rw [hblock]
    refine ⟨rfl, ?_, ?_⟩
    · exact Set.eq_empty_of_forall_notMem fun n hn => hn.elim fun seg hseg => absurd hseg.1 List.not_mem_nil
    · refine Set.eq_empty_of_forall_notMem fun n hn => ?_
      rcases hn with hlt | ⟨seg, hseg, -⟩
      · exact absurd hlt (Nat.not_lt_zero n)
      · exact absurd hseg List.not_mem_nil
  constructor
  · intro x
    constructor
    · rw [(hempty x).1, h.owed x]
      rfl
    · rw [(h.net x).wire, h.notes x]
      exact .nil
  · intro x
    have hview : w.view x = ⟨0, ∅, ∅, ∅⟩ := by
      have htold : tellable (w.owed x.other) (w.notes x.other) = ∅ := by
        rw [h.owed, h.notes]
        refine Set.eq_empty_of_forall_notMem fun n hn => ?_
        rcases hn with howed | ⟨note, hnote, -⟩
        · exact absurd howed List.not_mem_nil
        · exact absurd hnote List.not_mem_nil
      rw [Watch.view, custody, htold, (h.net x).sndNum, (h.net x.other).rcvNum, (hempty x).2.1,
        (hempty x.other).2.2]
    rw [hview]
    refine ⟨Set.empty_subset _, Set.empty_subset _, Set.empty_subset _, fun n hn => ?_⟩
    exact absurd hn (Nat.not_lt_zero n)

/-- What a step of the watched network does to its two sides. -/
theorem watchStep_ok (hs : watchStep i w = .ok w') :
    (w.net i.1).step (w.net i.1.other) i.2 = .ok (w'.net i.1) ∧ w'.net i.1.other = w.net i.1.other
      ∧ w'.owed i.1 = owedAfter (w.net i.1) (w'.net i.1) (w.owed i.1)
      ∧ w'.notes i.1 = notesAfter (w.net i.1) (w'.net i.1) (w.owed i.1) (w.notes i.1)
      ∧ w'.owed i.1.other = w.owed i.1.other ∧ w'.notes i.1.other = w.notes i.1.other := by
  have hne : i.1.other ≠ i.1 := by
    cases i.1 <;> decide
  obtain ⟨hstep, hother⟩ := netStep_ok (watchStep_net hs)
  rw [watchStep] at hs
  split at hs
  · cases hs
  · cases hs
    exact ⟨hstep, hother, if_pos rfl, if_pos rfl, if_neg hne, if_neg hne⟩

/-- **One step**: what is watched stays so, and both directions keep custody. -/
theorem Watch.Kept.step (hr : Reach watchStep (Watch.Start conv) (fun w i => InReach w i = true) w)
    (h : w.Kept conv) (hc : InReach w i = true) (hs : watchStep i w = .ok w') :
    (∀ x, Watched conv (w'.net x) (w'.owed x) (w'.notes x))
      ∧ ∀ x, Custody.Steps (w.view x) (w'.view x) := by
  obtain ⟨hstep, hnet, howed, hnotes, howed', hnotes'⟩ := watchStep_ok hs
  obtain ⟨y, act⟩ := i
  dsimp only at hstep hnet howed hnotes howed' hnotes'
  have hback : y.other.other = y := by cases y <;> rfl
  obtain ⟨ln, hln, hflow⟩ := Reach.flow (Reach.net hr)
  obtain ⟨hsound, hfits⟩ := Reach.block (Reach.net hr) y
  have hqp := hflow y.other
  rw [hback] at hqp
  -- what `InReach` says of this step
  have htime : ∀ d current dg note, act = .input d current → (w.net y.other).wire[d]? = some dg →
      (w.notes y.other)[d]? = some note →
      timely dg.base dg.bytes.length dg.bytes (w.net y).rcvNum
          { kcp := inputEnter (w.net y).kcp current, flag := false, maxack := 0 } = true
        ∧ (w.net y).sndNum < note.una + 0x8000 ∧ ∀ n ∈ note.acks, (w.net y).sndNum < n + 0x8000 := by
    rintro d current dg note rfl hd hnote
    rw [InReach, Timely, Recent, Bool.and_eq_true] at hc
    dsimp only at hc
    rw [hd, hnote] at hc
    obtain ⟨htimely, hprompt⟩ := hc
    rw [Bool.and_eq_true, decide_eq_true_eq, List.all_eq_true] at hprompt
    exact ⟨htimely, hprompt.1, fun n hn => of_decide_eq_true (hprompt.2 n hn)⟩
  obtain ⟨hwatched, hmoved⟩ := (h.side y).step (hln y).1 (hln y).2.2 (hflow y) hqp hsound hfits
    (h.side y.other) (h.sound y) htime hstep
  rw [← howed, ← hnotes] at hwatched hmoved
  -- the direction back, whose sender is the other side
  have hsoundBack := h.sound y.other
  rw [Watch.view, hback] at hsoundBack
  constructor
  · intro x
    rcases side_cases x y with rfl | rfl
    · exact hwatched
    · rw [hnet, howed', hnotes']
      exact h.side y.other
  · intro x
    rcases side_cases x y with rfl | rfl
    · rw [Watch.view, Watch.view, hnet, howed', hnotes']
      -- the direction of which `y` is the sender
      exact hmoved.own
    · -- and that of which it is the receiver
      rw [Watch.view, Watch.view, hback, hnet]
      exact hmoved.back hsoundBack

/-- The invariant of every watched run. -/
theorem Reach.kept (h : Reach watchStep (Watch.Start conv) (fun w i => InReach w i = true) w) :
    w.Kept conv := by
  induction h with
  | start h => exact h.kept
  | step hr hc hs ih =>
    obtain ⟨hside, hsteps⟩ := Watch.Kept.step hr ih hc hs
    exact ⟨hside, fun x => (hsteps x).sound (ih.sound x)⟩

/-- **Every step of the network keeps custody**: to either direction it is some steps of the abstract one. -/
theorem watch_refines (h : Reach watchStep (Watch.Start conv) (fun w i => InReach w i = true) w)
    (hc : InReach w i = true) (hs : watchStep i w = .ok w') (x : Side) :
    Custody.Steps (w.view x) (w'.view x) :=
  ((Reach.kept h).step h hc hs).2 x

/-- **Nothing gets lost.**  In every watched run, the numbers that a side gave out are those that it has in
    `snd_buf`, and those that the other side received. -/
theorem nothing_lost (h : Reach watchStep (Watch.Start conv) (fun w i => InReach w i = true) w) (x : Side) :
    (w.net x).kcp.buffered (w.net x).sndNum ∪ (w.net x.other).kcp.has (w.net x.other).rcvNum
      = Set.Iio (w.net x).sndNum := by
  have hs := (Reach.kept h).sound x
  exact (Set.union_subset hs.kept hs.held).antisymm hs.all

end Watches

/-- Two fresh peers, watched. -/
def Watch.fresh (conv : IUINT32) : Watch := ⟨fun _ => Peer.fresh conv, fun _ => [], fun _ => []⟩

theorem Watch.fresh_start (conv : IUINT32) : (Watch.fresh conv).Start conv := by
  have hsnd : ikcpWndSnd.toNat ≤ 0x7fff := by decide
  have hrcv : ikcpWndRcv.toNat ≤ 0x7fff := by decide
  have hmss : ikcpMtuDef - ikcpOverhead < 2 ^ 16 := by decide
  exact ⟨fun _ => ⟨.create, hsnd, hrcv, hmss, rfl, rfl, rfl, rfl, rfl⟩, fun _ => rfl, fun _ => rfl⟩

/-- The two messages that overtook each other are acknowledged. -/
def acknowledged : List (Side × Act) := overtaking ++ [(.b, .flush)]

/-- The acknowledgement arrives: one side lets go of what the other one holds. -/
theorem watch_refines_acknowledged :
    ∃ w w', exec watchStep InReach acknowledged (Watch.fresh 7) = some w
      ∧ watchStep (.a, .input 0 70) w = .ok w' ∧ Custody.Steps (w.view .a) (w'.view .a) := by
  have hrun : (exec watchStep InReach acknowledged (Watch.fresh 7)).map (fun w =>
      InReach w (.a, .input 0 70) && (watchStep (.a, .input 0 70) w).toBool) = some true := by decide +kernel
  obtain ⟨w, hw, hlast⟩ := Option.map_eq_some_iff.mp hrun
  rw [Bool.and_eq_true] at hlast
  cases hs : watchStep (.a, .input 0 70) w with
  | error e =>
    rw [hs] at hlast
    exact absurd hlast.2 Bool.false_ne_true
  | ok w' =>
    have hreach := Reach.of_exec (fun _ _ h => h) acknowledged (.start (Watch.fresh_start 7)) hw
    exact ⟨w, w', hw, hs, watch_refines hreach hlast.1 hs .a⟩

/-- Before the acknowledgement arrives, both numbers are on both sides. -/
theorem nothing_lost_acknowledged :
    ∃ w, exec watchStep InReach acknowledged (Watch.fresh 7) = some w ∧ (w.net .a).sndNum = 2
      ∧ (w.net .a).kcp.buffered 2 ∪ (w.net .b).kcp.has (w.net .b).rcvNum = Set.Iio 2 := by
  have hrun : (exec watchStep InReach acknowledged (Watch.fresh 7)).map (fun w => (w.net .a).sndNum)
      = some 2 := by decide +kernel
  obtain ⟨w, hw, hsnd⟩ := Option.map_eq_some_iff.mp hrun
  have hlost := nothing_lost (Reach.of_exec (fun _ _ h => h) acknowledged (.start (Watch.fresh_start 7)) hw) .a
  rw [hsnd] at hlost
  exact ⟨w, hw, hsnd, hlost⟩

/-! ## Everything arrived -/

/-- A receiver with room has nothing of the next number: it would have been promoted. -/
theorem RcvWindowed.next_missing {k : IKCPCB} (h : RcvWindowed k) (hroom : k.nrcvQue < k.rcvWnd.toNat) :
    k.rcvNxt ∉ k.rcvBuf.map IKCPSEG.sn := by
  obtain ⟨hrcv, hpromoted⟩ := h
  have hbuf : Ascending k.rcvNxt (k.rcvNxt + k.rcvWnd) (k.rcvBuf.map IKCPSEG.sn) := hrcv.buf
  intro hmem
  -- `rcv_buf` ascends from `rcv_nxt`, so `rcv_nxt` could only be its head
  have hhead : (k.rcvBuf.map IKCPSEG.sn).head? = some k.rcvNxt := by
    cases hcons : k.rcvBuf.map IKCPSEG.sn with
    | nil =>
      rw [hcons] at hmem
      exact absurd hmem List.not_mem_nil
    | cons sn rest =>
      rw [hcons] at hmem hbuf
      rcases List.mem_cons.mp hmem with hfirst | hlater
      · rw [hfirst]
        rfl
      · have hbefore := (List.pairwise_cons.mp hbuf.sorted).1 _ hlater
        rw [off_self] at hbefore
        omega
  rw [List.head?_map] at hhead
  have hfull : k.nrcvQue = k.rcvWnd.toNat := hpromoted hhead
  omega

/-- So it does not hold the next number. -/
theorem RcvWindowed.next_not_has {k : IKCPCB} (h : RcvWindowed k) (hroom : k.nrcvQue < k.rcvWnd.toNat)
    (rcvNum : Nat) : rcvNum ∉ k.has rcvNum := by
  rintro (hself | ⟨seg, hseg, hn⟩)
  · exact absurd hself (Nat.lt_irrefl _)
  · have hoff : off k.rcvNxt k.rcvNxt = off k.rcvNxt seg.sn := by
      rw [off_self]
      omega
    apply h.next_missing hroom
    rw [eq_of_off hoff]
    exact List.mem_map_of_mem hseg

/-- And all that it received is in order. -/
theorem RcvWindowed.has_below {k : IKCPCB} (h : RcvWindowed k) (hroom : k.nrcvQue < k.rcvWnd.toNat)
    {rcvNum n : Nat} (hhas : k.has rcvNum = Set.Iio n) : rcvNum = n := by
  rcases Nat.lt_trichotomy rcvNum n with hlt | heq | hgt
  · have hmem : rcvNum ∈ k.has rcvNum := by
      rw [hhas]
      exact hlt
    exact absurd hmem (h.next_not_has hroom rcvNum)
  · exact heq
  · have hmem : n ∈ k.has rcvNum := Or.inl hgt
    rw [hhas] at hmem
    exact absurd hmem (Nat.lt_irrefl _)

/-- A whole message in `rcv_queue` can be handed out. -/
theorem peeksize_whole {k : IKCPCB} (hque : k.nrcvQue = k.rcvQueue.length) {m : List Byte}
    {fs rest : List (Nat × List Byte)} (hw : Whole fs m) (hq : k.rcvQueue.map IKCPSEG.unit = fs ++ rest) :
    pvpIkcpPeeksize k ≥ 0 := by
  obtain ⟨d, more, hfs⟩ := hw.head
  rw [hfs] at hq
  have hlen := congrArg List.length hq
  rw [List.length_map, List.length_append, List.length_cons] at hlen
  cases hcons : k.rcvQueue with
  | nil =>
    rw [hcons] at hlen
    rw [List.length_nil] at hlen
    omega
  | cons seg queue =>
    rw [hcons, List.map_cons, List.cons_append, List.cons.injEq] at hq
    have hmark : seg.frg.toNat = more.length := congrArg Prod.fst hq.1
    rw [pvpIkcpPeeksize, hcons]
    dsimp only
    split
    · exact Int.natCast_nonneg _
    · rw [if_neg (by omega)]
      exact Int.natCast_nonneg _

/-- What a side counts of its segments. -/
theorem Reach.sending {conv : IUINT32} {s : Net}
    (h : Reach netStep (Start conv) (fun s i => Timely s i = true) s) (x : Side) : Sending (s x).kcp := by
  have hconnected : Reach netStep (Connected conv) (fun s i => Timely s i = true) s :=
    h.map id (fun s hs => hs.connected) fun s s' i hc hs => ⟨hc, hs⟩
  refine (sides_run hconnected x).inv (fun k hk => hk.kcp.sending) fun k c hk hc => ?_
  exact (sending_sndInv.run (labels_true _) hk c fun s r he => absurd he (hc s r)).1

/-- Everything arrived, in one direction: nothing is in the two lists of the sender, and the
    receiver has room and nothing to hand out.  By custody the receiver has every number; with room
    it has them in order, so the log is all in `rcv_queue` or handed out, and a whole message at the
    front of `rcv_queue` could be handed out. -/
theorem Flow.complete {ln : Link} {p q : Peer} {told : Set Nat} (hf : Flow ln p q) (hpos : 0 < ln.mss)
    (hs : (custody p q told).Sound) (hrcv : RcvWindowed q.kcp) (hbuf : p.kcp.sndBuf = [])
    (hqueue : p.kcp.sndQueue = []) (hpeek : pvpIkcpPeeksize q.kcp < 0)
    (hroom : q.kcp.nrcvQue < q.kcp.rcvWnd.toNat) : q.received = p.accepted := by
  obtain ⟨una, hok⟩ := hf.snd
  -- all that was cut into segments was numbered
  have hsnd : p.sndNum = (p.log ln).length := by
    have hdrop : p.kcp.sndQueue.map IKCPSEG.unit = (p.log ln).drop p.sndNum := hok.queue
    rw [hqueue, List.map_nil] at hdrop
    have hle := List.drop_eq_nil_iff.mp hdrop.symm
    have hlen := hok.len
    omega
  -- so the receiver has it all, and in order
  have hhas : q.kcp.has q.rcvNum = Set.Iio p.sndNum := by
    refine hs.complete (Set.eq_empty_of_forall_notMem fun n hn => ?_)
    obtain ⟨seg, hseg, -⟩ := hn
    rw [hbuf] at hseg
    exact absurd hseg List.not_mem_nil
  have hnum := hrcv.has_below hroom hhas
  have hall := hf.rcv.queue
  rw [hnum, hsnd, List.take_length] at hall
  -- `more` was accepted and not yet handed out
  obtain ⟨more, hmore⟩ := hf.pre
  have hlog : p.log ln = q.received.flatMap (cutMessage ln.mss) ++ more.flatMap (cutMessage ln.mss) := by
    rw [Peer.log, ← hmore, List.flatMap_append]
  rw [hlog] at hall
  have hleft := List.append_cancel_left hall
  cases more with
  | nil =>
    rw [← hmore]
    exact (List.append_nil _).symm
  | cons m ms =>
    -- its first message lies in `rcv_queue` as a whole
    exfalso
    rw [List.flatMap_cons] at hleft
    have hcount := hf.count m (hmore ▸ List.mem_append_right _ (List.mem_cons_self ..))
    have hcan := peeksize_whole hf.rcv.nque (whole_cutMessage hpos hcount) hleft.symm
    omega

/-- What waits is in the two lists. -/
theorem Sending.nothing_waits {k : IKCPCB} (h : Sending k) (hwait : pvpIkcpWaitsnd k = 0) :
    k.sndBuf = [] ∧ k.sndQueue = [] := by
  obtain ⟨-, -, hbuf, hque⟩ := h
  rw [pvpIkcpWaitsnd] at hwait
  constructor
  · exact List.eq_nil_of_length_eq_zero (by omega)
  · exact List.eq_nil_of_length_eq_zero (by omega)

/-- **Everything arrived.**  When nothing waits at one side, and the other side has room and nothing to hand out, what
    was received is what was accepted. -/
theorem all_received {conv : IUINT32} {w : Watch}
    (h : Reach watchStep (Watch.Start conv) (fun w i => InReach w i = true) w) (x : Side)
    (hwait : pvpIkcpWaitsnd (w.net x).kcp = 0) (hpeek : pvpIkcpPeeksize (w.net x.other).kcp < 0)
    (hroom : (w.net x.other).kcp.nrcvQue < (w.net x.other).kcp.rcvWnd.toNat) :
    (w.net x.other).received = (w.net x).accepted := by
  obtain ⟨ln, hln, hflow⟩ := Reach.flow (Reach.net h)
  obtain ⟨hbuf, hqueue⟩ := (Reach.sending (Reach.net h) x).nothing_waits hwait
  have hrcv := (Reach.block (Reach.net h) x.other).1.rcv
  exact (hflow x).complete (hln x).2.1 ((Reach.kept h).sound x) hrcv hbuf hqueue hpeek hroom

/-- The acknowledgement arrived, and both messages were handed out. -/
theorem all_received_acknowledged :
    ∃ w, exec watchStep InReach (acknowledged ++ [(.a, .input 0 70)]) (Watch.fresh 7) = some w
      ∧ (w.net .a).accepted = [[1, 2], [3]] ∧ (w.net .b).received = (w.net .a).accepted := by
  have hrun : (exec watchStep InReach (acknowledged ++ [(.a, .input 0 70)]) (Watch.fresh 7)).map (fun w =>
      ((w.net .a).accepted, pvpIkcpWaitsnd (w.net .a).kcp, pvpIkcpPeeksize (w.net .b).kcp,
        decide ((w.net .b).kcp.nrcvQue < (w.net .b).kcp.rcvWnd.toNat))) = some ([[1, 2], [3]], 0, -1, true) := by
    decide +kernel
  obtain ⟨w, hw, hfacts⟩ := Option.map_eq_some_iff.mp hrun
  have haccepted : (w.net .a).accepted = [[1, 2], [3]] := congrArg Prod.fst hfacts
  have hwait : pvpIkcpWaitsnd (w.net .a).kcp = 0 := congrArg (fun e => e.2.1) hfacts
  have hpeek : pvpIkcpPeeksize (w.net .b).kcp = -1 := congrArg (fun e => e.2.2.1) hfacts
  have hroom := of_decide_eq_true (congrArg (fun e => e.2.2.2) hfacts)
  have hreach := Reach.of_exec (fun _ _ h => h) (acknowledged ++ [(.a, .input 0 70)])
    (.start (Watch.fresh_start 7)) hw
  have hneg : pvpIkcpPeeksize (w.net Side.a.other).kcp < 0 := by
    show pvpIkcpPeeksize (w.net .b).kcp < 0
    omega
  exact ⟨w, hw, haccepted, all_received hreach .a hwait hneg hroom⟩

end ConnClient.Ikcp
