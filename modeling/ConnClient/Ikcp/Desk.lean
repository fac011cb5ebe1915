/-
  The desk of a block: the acknowledgements that wait, and the congestion window.

  Little of the code is about either, and the rest leaves both alone; the lemmas of the first part say
  so, one for each function.  What does change them is `ikcp_ack_push`, which puts one pair behind the
  others (`ikcpAckPush_pushed`), the senders, which take all pairs at once (`pvpIkcpFlush_desk`,
  `sendExFlush_desk`), and for the window the end of `pvp_ikcp_flush` and of `pvp_ikcp_input`.

  The pairs are not a list in the source but the first `2 * ackcount` words of an array of `2 * ackblock`,
  which is doubled when it is full.  `Desk.acks` reads them as a list, and `Desk.Fits` is what makes that
  reading safe: with it a pair that is pushed lands behind the others and none is written over.
-/
import ConnClient.Ikcp.Calls

namespace ConnClient.Ikcp

open ConnClient.Lib

/-- What lies on the desk.  `dupack` is with it because it decides whether a copy is acknowledged.
    -/
structure Desk where
  cwnd : IUINT32
  acklist : List IUINT32
  ackcount : Nat
  ackblock : Nat
  dupack : Int

def IKCPCB.desk (k : IKCPCB) : Desk := ⟨k.cwnd, k.acklist, k.ackcount, k.ackblock, k.dupack⟩

/-- The pairs that wait, oldest first. -/
def Desk.acks (d : Desk) : List (IUINT32 × IUINT32) :=
  (List.range d.ackcount).map fun p => (d.acklist.getD (p * 2 + 0) 0, d.acklist.getD (p * 2 + 1) 0)

theorem acks_desk (k : IKCPCB) : acks k = k.desk.acks := rfl

/-- The pairs lie within the array, and the array is as large as it is said to be. -/
structure Desk.Fits (d : Desk) : Prop where
  length : d.acklist.length = d.ackblock * 2
  count : d.ackcount ≤ d.ackblock

/-! ## What leaves the desk alone -/

theorem ikcpParseUna_desk (k : IKCPCB) (una : IUINT32) :
    (ikcpShrinkBuf (ikcpParseUna k una)).desk = k.desk := by
  obtain ⟨_, hshrink⟩ := ikcpShrinkBuf_eq (ikcpParseUna k una)
  obtain ⟨_, _, _, _, _, _, hset⟩ := parseUnaLoop_eq una k.sndBuf k
  rw [hshrink, ikcpParseUna, hset]
  rfl

theorem ikcpParseAck_desk (k : IKCPCB) (sn : IUINT32) :
    (ikcpShrinkBuf (ikcpParseAck k sn)).desk = k.desk := by
  obtain ⟨_, hshrink⟩ := ikcpShrinkBuf_eq (ikcpParseAck k sn)
  obtain ⟨_, _, _, _, _, _, hset⟩ := ikcpParseAck_eq k sn
  rw [hshrink, hset]
  rfl

theorem ikcpParseData_desk (k : IKCPCB) (seg : IKCPSEG) : (ikcpParseData k seg).desk = k.desk := by
  obtain ⟨_, _, _, _, _, hset⟩ := ikcpParseData_eq k seg
  rw [hset]
  rfl

theorem inputEnter_desk (k : IKCPCB) (current : IUINT32) : (inputEnter k current).desk = k.desk := by
  obtain ⟨_, _, _, hset⟩ := inputEnter_eq k current
  rw [hset]
  rfl

theorem ikcpParseFastack_desk (k : IKCPCB) (sn : IUINT32) :
    (ikcpParseFastack k sn).desk = k.desk := by
  obtain ⟨_, hset⟩ := ikcpParseFastack_eq k sn
  rw [hset]
  rfl

theorem updateHead_desk (k : IKCPCB) (current : IUINT32) :
    (updateHead k current).2.desk = k.desk := by
  obtain ⟨_, _, hset⟩ := updateHead_eq k current
  rw [hset]
  rfl

theorem pvpIkcpUpdateLost_desk (k : IKCPCB) (current : IUINT32) :
    (pvpIkcpUpdateLost k current).desk = k.desk := by
  obtain ⟨_, _, _, _, hset⟩ := pvpIkcpUpdateLost_eq k current
  rw [hset]
  rfl

theorem pvpIkcpSend_desk (k : IKCPCB) (msg : List Byte) (current : IUINT32) :
    (pvpIkcpSend k msg current).2.desk = k.desk := by
  obtain ⟨_, _, _, hset⟩ := pvpIkcpSend_eq k msg current
  rw [hset]
  rfl

theorem pvpIkcpRecv_desk (k : IKCPCB) (len : Int) : (pvpIkcpRecv k len).2.desk = k.desk := by
  obtain ⟨_, _, _, _, _, _, hset⟩ := pvpIkcpRecv_eq k len
  rw [hset]
  rfl

theorem pvpIkcpNodelay_desk (k : IKCPCB) (nodelay interval resend nc : Int) :
    (pvpIkcpNodelay k nodelay interval resend nc).desk = k.desk := by
  obtain ⟨_, _, _, _, _, hset⟩ := pvpIkcpNodelay_eq k nodelay interval resend nc
  rw [hset]
  rfl

theorem pvpIkcpWndsize_desk (k : IKCPCB) (sndwnd rcvwnd : Int) :
    (pvpIkcpWndsize k sndwnd rcvwnd).desk = k.desk := by
  obtain ⟨_, _, hset⟩ := pvpIkcpWndsize_eq k sndwnd rcvwnd
  rw [hset]
  rfl

/-! ## The senders -/

theorem ikcpOutput_desk (out : Out) : (ikcpOutput out).kcp.desk = out.kcp.desk := by
  rw [ikcpOutput_kcp]

/-- Recursion on the segments of `snd_queue`. -/
theorem sendExLoop_desk (current wnd cwnd rtomin : IUINT32) :
    ∀ (queue : List IKCPSEG) (out : Out),
      (sendExLoop current wnd cwnd rtomin queue out).kcp.desk = out.kcp.desk
  | [], _ => rfl
  | seg :: rest, out => by
    rw [sendExLoop]
    split
    · refine (sendExLoop_desk current wnd cwnd rtomin rest _).trans ?_
      rw [put_kcp, makeRoom_kcp]
      rfl
    · rfl

/-- The walk back.  Induction on the segments before it. -/
theorem sendExDups_desk (current wnd : IUINT32) :
    ∀ (i n : Nat) (out : Out), (sendExDups current wnd i n out).kcp.desk = out.kcp.desk
  | 0, _, _ => rfl
  | i + 1, n, out => by
    -- the ways to stop: nothing in front, no room in the datagram, enough copies
    rw [sendExDups]
    split
    · rfl
    split
    · rfl
    split
    · rfl
    · exact sendExDups_desk current wnd i (n + 1) _

/-- All pairs are taken, whatever is sent.  `send_ex` does not touch the window: only a flush of the
    whole block ends with it. -/
theorem sendExFlush_desk (k : IKCPCB) (current : IUINT32) :
    (sendExFlush k current).kcp.desk = { k.desk with ackcount := 0 } := by
  rw [sendExFlush]
  generalize hk : (if current.toNat > 0 then { k with current := current } else k) = k₀
  have h₀ : k₀.desk = k.desk := by
    rw [← hk]
    split <;> rfl
  -- the acknowledgements first, which are read and not taken; then `ackcount` is cleared
  let acked := (flushAcks k₀.ackcount 0 (controlSeg k₀, { kcp := k₀ })).2
  let cleared := acked.upd fun kcp => { kcp with ackcount := 0 }
  have hcleared : cleared.kcp.desk = { k.desk with ackcount := 0 } := by
    show ({ acked.kcp.desk with ackcount := 0 } : Desk) = _
    rw [show acked.kcp = k₀ from flushAcks_kcp .., h₀]
  -- what is sent after that leaves the desk alone
  have hloop : ∀ o : Out, (sendExLoop k₀.current (ikcpWndUnused k₀) (sendCwnd k₀) (sendRtomin k₀)
      o.kcp.sndQueue o).kcp.desk = o.kcp.desk := fun o => sendExLoop_desk _ _ _ _ _ o
  refine (ikcpOutput_desk _).trans ?_
  split
  · exact (sendExDups_desk ..).trans ((hloop cleared).trans hcleared)
  · exact (hloop cleared).trans hcleared

theorem flushHead_desk (k : IKCPCB) : (flushHead k).2.kcp.desk = { k.desk with ackcount := 0 } := by
  obtain ⟨_, _, _, _, _, _, _, hset, -⟩ := flushHead_eq k
  rw [hset]
  rfl

theorem flushSegment_desk (a : FlushArgs) (i : Nat) (segment : IKCPSEG) (st : FlushSt) :
    (flushSegment a i segment st).out.kcp.desk = st.out.kcp.desk := by
  obtain ⟨_, _, _, _, _, _, hset⟩ := flushSegment_eq a i segment st
  rw [hset]
  rfl

/-- The data loop.  Induction on the segments that are left. -/
theorem flushData_desk (a : FlushArgs) :
    ∀ (n i : Nat) (st : FlushSt), (flushData a n i st).out.kcp.desk = st.out.kcp.desk
  | 0, _, _ => rfl
  | n + 1, i, st => by
    rw [flushData]
    split
    · rfl
    · exact (flushData_desk a n (i + 1) _).trans (flushSegment_desk ..)

/-- The copies.  Recursion on their positions. -/
theorem flushDups_desk (a : FlushArgs) :
    ∀ (is : List Nat) (out : Out), (flushDups a is out).kcp.desk = out.kcp.desk
  | [], _ => rfl
  | i :: is, out => by
    rw [flushDups]
    split
    · exact flushDups_desk a is out
    · refine (flushDups_desk a is _).trans ?_
      show (makeRoom _ _).kcp.desk = _
      rw [makeRoom_kcp]

/-- The tail is about the window. -/
theorem flushTail_desk (cwnd resent : IUINT32) (change lost : Bool) (k : IKCPCB) :
    (flushTail cwnd resent change lost k).desk
      = { k.desk with cwnd := (flushTail cwnd resent change lost k).cwnd } := by
  obtain ⟨_, _, _, _, hset⟩ := flushTail_eq cwnd resent change lost k
  rw [hset]
  rfl

/-- All pairs are taken, and the window is at least one segment. -/
theorem pvpIkcpFlush_desk {k : IKCPCB} (h : k.updated = true) :
    ∃ cwnd : IUINT32, 1 ≤ cwnd.toNat
      ∧ (pvpIkcpFlush k).1.desk = { k.desk with cwnd := cwnd, ackcount := 0 } := by
  -- the floor of the tail: `cwnd` is never left at nought
  have hfloor : ∀ k : IKCPCB, 1 ≤ (tailFloor k).cwnd.toNat := by
    intro k
    rw [tailFloor]
    split
    · exact Nat.le_refl 1
    · rename_i hge
      exact BitVec.not_lt.mp hge
  let head := flushHead k
  let a := flushArgs head.2.kcp (ikcpWndUnused k)
  let st := flushData a head.2.kcp.sndBuf.length 0 { out := head.2 }
  let out := ikcpOutput (flushDups a st.dupSegs st.out)
  -- the head takes the pairs, the two loops leave the desk alone
  have hout : out.kcp.desk = { k.desk with ackcount := 0 } := by
    show (ikcpOutput (flushDups a st.dupSegs st.out)).kcp.desk = _
    rw [ikcpOutput_desk, flushDups_desk, flushData_desk]
    exact flushHead_desk k
  refine ⟨(flushTail head.1 a.resent st.change st.lost out.kcp).cwnd, hfloor _, ?_⟩
  rw [pvpIkcpFlush, if_neg (by rw [h]; decide)]
  show (flushTail head.1 a.resent st.change st.lost out.kcp).desk = _
  rw [flushTail_desk, hout]

/-! ## One pair more -/

/-- `d'` is `d` with one pair more behind the others. -/
structure Pushed (d : Desk) (pair : IUINT32 × IUINT32) (d' : Desk) : Prop where
  fits : d'.Fits
  acks : d'.acks = d.acks ++ [pair]
  cwnd : d'.cwnd = d.cwnd
  dupack : d'.dupack = d.dupack

/-- Doubling often enough exceeds any size: each round adds one at least, as the size is not nought.
    Induction on the rounds. -/
theorem le_ackNewblock (newsize : Nat) :
    ∀ (n block : Nat), 1 ≤ block → newsize ≤ block + n → newsize ≤ ackNewblock newsize n block
  | 0, _, _, h => h
  | n + 1, block, hpos, h => by
    rw [ackNewblock]
    split
    · refine le_ackNewblock newsize n (block <<< 1) ?_ ?_ <;> rw [Nat.shiftLeft_eq] <;> omega
    · omega

/-- The words in use are those of the pairs. -/
theorem acks_congr {l l' : List IUINT32} {n : Nat}
    (h : ∀ i, i < n * 2 → l'.getD i 0 = l.getD i 0) :
    ((List.range n).map fun p => (l'.getD (p * 2 + 0) 0, l'.getD (p * 2 + 1) 0))
      = (List.range n).map fun p => (l.getD (p * 2 + 0) 0, l.getD (p * 2 + 1) 0) := by
  apply List.map_congr_left
  intro p hp
  have hlt := List.mem_range.mp hp
  rw [h _ (by omega), h _ (by omega)]

/-- **`ikcp_ack_push`**, into the block at hand or into a larger one. -/
theorem ikcpAckPush_pushed {k : IKCPCB} (h : k.desk.Fits) (sn ts : IUINT32) :
    Pushed k.desk (sn, ts) (ikcpAckPush k sn ts).desk := by
  have hlen : k.acklist.length = k.ackblock * 2 := h.length
  have hcount : k.ackcount ≤ k.ackblock := h.count
  -- the array that is written to has room, and the words in use
  have hstored : ∀ (list : List IUINT32) (block : Nat), list.length = block * 2 →
      k.ackcount + 1 ≤ block → (∀ i, i < k.ackcount * 2 → list.getD i 0 = k.acklist.getD i 0) →
      Pushed k.desk (sn, ts) (IKCPCB.desk { k with
        acklist := (list.set (k.ackcount * 2) sn).set (k.ackcount * 2 + 1) ts
        ackblock := block
        ackcount := k.ackcount + 1 }) := by
    intro list block hlist hroom hused
    refine ⟨⟨?_, hroom⟩, ?_, rfl, rfl⟩
    · show ((list.set _ _).set _ _).length = block * 2
      rw [List.length_set, List.length_set, hlist]
    · simp only [Desk.acks, IKCPCB.desk, List.range_succ, List.map_append, List.map_singleton]
      congr 1
      · apply acks_congr
        intro i hi
        rw [← hused i hi, List.getD_eq_getElem?_getD, List.getD_eq_getElem?_getD,
          List.getElem?_set_ne (by omega), List.getElem?_set_ne (by omega)]
      · congr 2
        · rw [List.getD_eq_getElem?_getD, List.getElem?_set_ne (by omega), Nat.add_zero,
            List.getElem?_set_self (by omega), Option.getD_some]
        · rw [List.getD_eq_getElem?_getD,
            List.getElem?_set_self (by rw [List.length_set]; omega), Option.getD_some]
  rw [ikcpAckPush]
  -- full: the words in use are copied into the larger array; else it is written to as it is
  by_cases hfull : k.ackcount + 1 > k.ackblock
  · rw [if_pos hfull]
    have hblock := le_ackNewblock (k.ackcount + 1) (k.ackcount + 1) 8 (by omega) (by omega)
    refine hstored (k.acklist.take (k.ackcount * 2) ++ List.replicate _ 0) _ ?_ hblock ?_
    · dsimp only
      rw [List.length_append, List.length_take, List.length_replicate]
      omega
    · intro i hi
      rw [List.getD_eq_getElem?_getD, List.getElem?_append_left (by rw [List.length_take]; omega),
        List.getElem?_take_of_lt hi, ← List.getD_eq_getElem?_getD]
  · rw [if_neg hfull]
    exact hstored k.acklist k.ackblock hlen (by omega) fun _ _ => rfl

/-! ## Datagrams and calls -/

theorem Desk.Fits.clear {d : Desk} (h : d.Fits) (cwnd : IUINT32) :
    ({ d with cwnd := cwnd, ackcount := 0 } : Desk).Fits :=
  ⟨h.length, Nat.zero_le _⟩

/-- The branch for a data segment pushes its pair, and does nothing else to the desk.  A copy is
    acknowledged only with `dupack`; what is beyond the window never is. -/
theorem inputData_push (k : IKCPCB) (head : SegHead) (una : IUINT32) (payload : List Byte) :
    (inputData k head una payload).desk
      = (if itimediff (getId k.rcvNxt head.tmpSn) (k.rcvNxt + k.rcvWnd) < 0
            ∧ (head.cmd = ikcpCmdPush ∨ k.dupack ≠ 0)
          then ikcpAckPush k (getId k.rcvNxt head.tmpSn) head.ts else k).desk := by
  rw [inputData]
  generalize getId k.rcvNxt head.tmpSn = sn
  -- whether the segment is then taken in does not matter here
  have hrest : ∀ k' : IKCPCB, ∀ seg, (if itimediff sn k'.rcvNxt ≥ 0 then ikcpParseData k' seg
      else k').desk = k'.desk := by
    intro k' seg
    split
    · exact ikcpParseData_desk k' seg
    · rfl
  by_cases hwnd : itimediff sn (k.rcvNxt + k.rcvWnd) < 0
  · rw [if_pos hwnd]
    by_cases hpush : head.cmd = ikcpCmdPush ∨ k.dupack ≠ 0
    · have hboth : itimediff sn (k.rcvNxt + k.rcvWnd) < 0 ∧ (head.cmd = ikcpCmdPush ∨ k.dupack ≠ 0) :=
        ⟨hwnd, hpush⟩
      rw [if_pos hpush, if_pos hboth]
      exact hrest _ _
    · have hnot : ¬ (itimediff sn (k.rcvNxt + k.rcvWnd) < 0
          ∧ (head.cmd = ikcpCmdPush ∨ k.dupack ≠ 0)) := fun h => hpush h.2
      rw [if_neg hpush, if_neg hnot]
      exact hrest k _
  · have hnot : ¬ (itimediff sn (k.rcvNxt + k.rcvWnd) < 0
        ∧ (head.cmd = ikcpCmdPush ∨ k.dupack ≠ 0)) := fun h => hwnd h.1
    rw [if_neg hwnd, if_neg hnot]

/-- So it pushes one pair, or none. -/
theorem inputData_desk {k : IKCPCB} (h : k.desk.Fits) (head : SegHead) (una : IUINT32)
    (payload : List Byte) :
    (inputData k head una payload).desk = k.desk
      ∨ Pushed k.desk (getId k.rcvNxt head.tmpSn, head.ts) (inputData k head una payload).desk := by
  rw [inputData_push]
  split
  · exact Or.inr (ikcpAckPush_pushed h _ _)
  · exact Or.inl rfl

/-- **One segment** of a datagram pushes at most one pair. -/
theorem inputSeg_desk {st : InputSt} (h : st.kcp.desk.Fits) (head : SegHead) (payload : List Byte) :
    (inputSeg st head payload).kcp.desk = st.kcp.desk
      ∨ Pushed st.kcp.desk (getId st.kcp.rcvNxt head.tmpSn, head.ts)
          (inputSeg st head payload).kcp.desk := by
  have hsettled := settled_una st.kcp head.wnd (getId st.kcp.sndNxt head.tmpUna)
  have hdesk := ikcpParseUna_desk { st.kcp with rmtWnd := head.wnd.setWidth 32 }
    (getId st.kcp.sndNxt head.tmpUna)
  unfold inputSeg
  dsimp only
  -- `una` comes first in every branch, and moves neither the desk nor `rcv_nxt`
  generalize ikcpShrinkBuf (ikcpParseUna { st.kcp with rmtWnd := head.wnd.setWidth 32 }
    (getId st.kcp.sndNxt head.tmpUna)) = k at hsettled hdesk
  have hdesk : k.desk = st.kcp.desk := hdesk
  have hnxt : k.rcvNxt = st.kcp.rcvNxt := congrArg (fun g => g.rcv.rcvNxt) hsettled.rest
  split
  · left
    split <;> exact (ikcpParseAck_desk k _).trans hdesk
  split
  · rw [← hdesk, ← hnxt]
    exact inputData_desk (hdesk ▸ h) head _ payload
  · left
    split <;> exact hdesk

theorem inputSeg_fits {st : InputSt} (h : st.kcp.desk.Fits) (head : SegHead) (payload : List Byte) :
    (inputSeg st head payload).kcp.desk.Fits := by
  rcases inputSeg_desk h head payload with he | hp
  · rw [he]
    exact h
  · exact hp.fits

/-- The loop.  Induction on its rounds. -/
theorem inputLoop_fits :
    ∀ (n : Nat) (data : List Byte) {st : InputSt}, st.kcp.desk.Fits →
      (inputLoop n data st).2.kcp.desk.Fits
  | 0, _, _, h => h
  | n + 1, data, st, h => by
    rw [inputLoop]
    split
    · exact h
    · exact h
    · exact inputLoop_fits n _ (inputSeg_fits h _ _)

/-- The end of `pvp_ikcp_input` is about the window. -/
theorem inputCwnd_desk (k : IKCPCB) (una : IUINT32) :
    (inputCwnd k una).desk = { k.desk with cwnd := (inputCwnd k una).cwnd } := by
  obtain ⟨_, _, hset⟩ := inputCwnd_eq k una
  rw [hset]
  rfl

theorem pvpIkcpFlush_fits {k : IKCPCB} (h : k.desk.Fits) : (pvpIkcpFlush k).1.desk.Fits := by
  by_cases hupdated : k.updated = true
  · obtain ⟨cwnd, -, hdesk⟩ := pvpIkcpFlush_desk hupdated
    rw [hdesk]
    exact h.clear cwnd
  · rw [pvpIkcpFlush, if_pos (Bool.eq_false_iff.mpr hupdated)]
    exact h

theorem pvpIkcpSendEx_fits {k : IKCPCB} (h : k.desk.Fits) (msg : List Byte) (current : IUINT32) :
    (pvpIkcpSendEx k msg current).2.1.desk.Fits := by
  have hsend := pvpIkcpSend_desk k msg current
  rw [pvpIkcpSendEx]
  generalize pvpIkcpSend k msg current = r at hsend
  obtain ⟨ret, k₁⟩ := r
  dsimp only at hsend ⊢
  have h₁ : k₁.desk.Fits := by
    rw [hsend]
    exact h
  split
  · exact h₁
  split
  · exact h₁
  · rw [sendExFlush_desk]
    exact h₁.clear k₁.cwnd

theorem pvpIkcpUpdate_fits {k : IKCPCB} (h : k.desk.Fits) (current : IUINT32) :
    (pvpIkcpUpdate k current).1.desk.Fits := by
  have hhead := updateHead_desk k current
  rw [pvpIkcpUpdate]
  generalize updateHead k current = r at hhead
  obtain ⟨flush, k₀⟩ := r
  dsimp only at hhead ⊢
  have h₀ : k₀.desk.Fits := by
    rw [hhead]
    exact h
  rw [pvpIkcpUpdateLost_desk]
  split
  · exact pvpIkcpFlush_fits h₀
  · exact h₀

theorem pvpIkcpInput_fits {k : IKCPCB} (h : k.desk.Fits) (data : List Byte) (current : IUINT32) :
    (pvpIkcpInput k data current).2.desk.Fits := by
  have henter : (inputEnter k current).desk.Fits := by
    rw [inputEnter_desk]
    exact h
  let st : InputSt := { kcp := inputEnter k current, flag := false, maxack := 0 }
  have hst : st.kcp.desk.Fits := henter
  have hloop := inputLoop_fits data.length data hst
  rw [pvpIkcpInput]
  dsimp only
  split
  · exact henter
  generalize inputLoop data.length data _ = r at hloop
  obtain ⟨ret, st'⟩ := r
  cases ret with
  | some ret => exact hloop
  | none =>
    -- what comes after the loop is about the sending side
    have hend : (if st'.flag then ikcpParseFastack st'.kcp st'.maxack else st'.kcp).desk.Fits := by
      split
      · rw [ikcpParseFastack_desk]
        exact hloop
      · exact hloop
    dsimp only
    rw [inputCwnd_desk]
    exact ⟨hend.length, hend.count⟩

/-- **No call loses track of the pairs.** One case for each call; those about settings leave the
    array alone. -/
theorem call_fits {k : IKCPCB} (h : k.desk.Fits) (c : Call) : (c.run k).1.desk.Fits := by
  have hsame : ∀ {k' : IKCPCB}, k'.desk = k.desk → k'.desk.Fits := fun he => he ▸ h
  cases c with
  | send msg current => exact hsame (pvpIkcpSend_desk k msg current)
  | sendEx msg current => exact pvpIkcpSendEx_fits h msg current
  | update current => exact pvpIkcpUpdate_fits h current
  | flush => exact pvpIkcpFlush_fits h
  | recv len => exact hsame (pvpIkcpRecv_desk k len)
  | input data current => exact pvpIkcpInput_fits h data current
  | nodelay on interval resend nc => exact hsame (pvpIkcpNodelay_desk k on interval resend nc)
  | wndsize sndwnd rcvwnd => exact hsame (pvpIkcpWndsize_desk k sndwnd rcvwnd)
  | setdupsend => exact ⟨h.length, h.count⟩
  | intervalLost => exact h
  | fields => exact h

end ConnClient.Ikcp
