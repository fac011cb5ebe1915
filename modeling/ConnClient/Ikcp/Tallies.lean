/-
  What is counted of transmissions.

  A segment carries the counts of its transmissions, of its redundant copies, and whether it was
  counted lost; the block carries how many segments were sent and how many were counted lost, in all
  and in the current interval.  `Tallies` are these numbers, and this module says once what each
  function does to them:

  * most do nothing, and `pvp_ikcp_input` only lets segments go (`Lets`);
  * a sender transfers segments (`transfer`), sends them for one of three reasons (`send`), or does both at once
    (`sendNew`), and copies them (`copied`) — `pvp_ikcp_flush` counting the copy on the segment,
    `pvp_ikcp_send_ex` not;
  * `pvp_ikcp_update_lost` ends an interval (`close`).

  WHY NOT THE BLOCK ITSELF.  Two accounts are drawn up over these numbers, the loss rates and the
  copies of a segment, and neither asks about bytes, windows or times.  An invariant of the tallies
  has to be shown of the five operations above and of nothing else; that the fields of a block which
  are left out have no part in it is settled here, by the equations with `tallies` on both sides.

  The loops get a rule of their own, `flushData_rule`: a property that each round hands on to the next
  position holds of the whole data loop.  It is used with properties that speak of the segments
  BEHIND the position as they stood when the loop began, which is what `flushSegment_buf` is for.
-/
import ConnClient.Ikcp.FastPath

namespace ConnClient.Ikcp

open ConnClient.Lib

/-! ## The numbers -/

/-- Of a segment of `snd_buf`: its number, how often it was sent, whether it was ever counted lost,
    and how many redundant copies `pvp_ikcp_flush` has written down for it. -/
structure SegTally where
  sn : IUINT32
  xmit : IUINT32
  lost : IUINT32
  dupsendcount : IUINT32

def IKCPSEG.tally (seg : IKCPSEG) : SegTally := ⟨seg.sn, seg.xmit, seg.lost, seg.dupsendcount⟩

/-- Of a block.  The two `cur` counts are of the interval that is running and are put into
    `lastlostrate` when it ends; `dupsendcount` is the limit that was set, not a count. -/
structure Tallies where
  sndNxt : IUINT32
  totallostcount : IUINT32
  lastlostrate : IUINT32
  curlostcount : IUINT32
  cursendcount : IUINT32
  dupsendcount : IUINT32
  segs : List SegTally

def IKCPCB.tallies (k : IKCPCB) : Tallies :=
  ⟨k.sndNxt, k.totallostcount, k.lastlostrate, k.curlostcount, k.cursendcount, k.dupsendcount,
    k.sndBuf.map IKCPSEG.tally⟩

theorem length_tallies (k : IKCPCB) : k.tallies.segs.length = k.sndBuf.length := List.length_map ..

/-- A segment is transferred to `snd_buf`. -/
def Tallies.transfer (t : Tallies) : Tallies :=
  { t with sndNxt := t.sndNxt + 1, segs := t.segs ++ [⟨t.sndNxt, 0, 0, 0⟩] }

/-- And sent at once, as the fast path does it: one step where a flush takes `transfer` and then
    `send`. -/
def Tallies.sendNew (t : Tallies) : Tallies :=
  { t with sndNxt := t.sndNxt + 1, cursendcount := t.cursendcount + 1
           segs := t.segs ++ [⟨t.sndNxt, 1, 0, 0⟩] }

/-- Segment `s`, number `i` of `snd_buf`, is sent.  Only a first transmission counts as one of the
    interval; a timeout counts the segment lost, but only the first time, and a fast retransmission
    counts nothing but itself. -/
def Tallies.send (i : Nat) (s : SegTally) (t : Tallies) : Due → Tallies
  | .first => { t with cursendcount := t.cursendcount + 1
                       segs := t.segs.set i { s with xmit := s.xmit + 1 } }
  | .timeout =>
    let t := if s.lost = 0 then
        { t with totallostcount := t.totallostcount + 1, curlostcount := t.curlostcount + 1 }
      else t
    let s := { s with xmit := s.xmit + 1, lost := if s.lost = 0 then 1 else s.lost }
    { t with segs := t.segs.set i s }
  | .fastack => { t with segs := t.segs.set i { s with xmit := s.xmit + 1 } }
  | .no => t

/-- Number `i` is copied; `d` is what the copy counts on the segment: 1 in `pvp_ikcp_flush`, 0 in
    `pvp_ikcp_send_ex`.  Where no segment stands at that position nothing happens. -/
def Tallies.copied (d : IUINT32) (t : Tallies) (i : Nat) : Tallies :=
  match t.segs[i]? with
  | none => t
  | some s =>
    { t with segs := t.segs.set i { s with xmit := s.xmit + 1, dupsendcount := s.dupsendcount + d } }

/-- The number of segments is not changed.  Induction on the copies. -/
theorem length_copies (d : IUINT32) (is : List Nat) (t : Tallies) :
    (is.foldl (Tallies.copied d) t).segs.length = t.segs.length := by
  induction is generalizing t with
  | nil => rfl
  | cons i is ih =>
    rw [List.foldl_cons, ih, Tallies.copied]
    split
    · rfl
    · exact List.length_set

/-- Nor is the limit of the block. -/
theorem dupsendcount_copies (d : IUINT32) (is : List Nat) (t : Tallies) :
    (is.foldl (Tallies.copied d) t).dupsendcount = t.dupsendcount := by
  induction is generalizing t with
  | nil => rfl
  | cons i is ih =>
    rw [List.foldl_cons, ih, Tallies.copied]
    split <;> rfl

/-- An interval ends.  One in which nothing was sent leaves the rate, and keeps its counts. -/
def Tallies.close (t : Tallies) : Tallies :=
  if t.cursendcount = 0 then t
  else { t with lastlostrate := t.curlostcount * 100 / t.cursendcount
                cursendcount := 0, curlostcount := 0 }

/-! ## Letting segments go -/

/-- Nothing but that segments left, the others staying in their order. -/
structure Lets (k k' : IKCPCB) : Prop where
  rest : k'.tallies = { k.tallies with segs := k'.tallies.segs }
  sub : k'.tallies.segs.Sublist k.tallies.segs

section Letting

variable {k k' k'' : IKCPCB}

/-- Nothing left. -/
theorem Lets.of_eq (h : k'.tallies = k.tallies) : Lets k k' := by
  constructor
  · rw [h]
  · rw [h]

theorem Lets.trans (h : Lets k k') (h' : Lets k' k'') : Lets k k'' := by
  constructor
  · rw [h'.rest, h.rest]
  · exact h'.sub.trans h.sub

/-- Segments leave, and the timing is updated. -/
theorem lets_sub {buf : List IKCPSEG} (seg : IKCPSEG) (n : Nat) (h : buf.Sublist k.sndBuf) :
    Lets k { ackRtt k seg with sndBuf := buf, nsndBuf := n } := by
  obtain ⟨_, _, _, _, hset⟩ := ackRtt_eq k seg
  rw [hset]
  exact ⟨rfl, h.map _⟩

theorem ikcpShrinkBuf_tallies (k : IKCPCB) : (ikcpShrinkBuf k).tallies = k.tallies := by
  obtain ⟨_, hset⟩ := ikcpShrinkBuf_eq k
  rw [hset]
  rfl

/-- Recursion on the segments of `snd_buf`. -/
theorem parseUnaLoop_lets (una : IUINT32) :
    ∀ (buf : List IKCPSEG) (k : IKCPCB), k.sndBuf = buf → Lets k (parseUnaLoop una buf k)
  | [], k, hb => .of_eq (by rw [parseUnaLoop, ← hb])
  | seg :: rest, k, hb => by
    rw [parseUnaLoop]
    split
    · have hone : Lets k { ackRtt k seg with sndBuf := rest, nsndBuf := k.nsndBuf - 1 } :=
        lets_sub seg _ (hb ▸ List.sublist_cons_self seg rest)
      exact hone.trans (parseUnaLoop_lets una rest _ rfl)
    · exact .of_eq (by rw [← hb])

theorem ikcpParseAck_lets (k : IKCPCB) (sn : IUINT32) : Lets k (ikcpParseAck k sn) := by
  rw [ikcpParseAck]
  split
  · exact .of_eq rfl
  · split
    · exact .of_eq rfl
    · rename_i seg rest hfound
      exact lets_sub seg _ (findAck_sublist sn _ _ _ hfound)

/-- Arriving data is the business of the receiving half. -/
theorem inputData_tallies (k : IKCPCB) (head : SegHead) (una : IUINT32) (payload : List Byte) :
    (inputData k head una payload).tallies = k.tallies := by
  obtain ⟨_, _, _, _, _, _, _, _, hset⟩ := inputData_eq k head una payload
  rw [hset]
  rfl

/-- **One segment of a datagram.** -/
theorem inputSeg_lets (st : InputSt) (head : SegHead) (payload : List Byte) :
    Lets st.kcp (inputSeg st head payload).kcp := by
  have hack : ∀ k sn, Lets k (ikcpShrinkBuf (ikcpParseAck k sn)) := fun k sn =>
    (ikcpParseAck_lets k sn).trans (.of_eq (ikcpShrinkBuf_tallies _))
  -- every segment carries a cumulative acknowledgement, whatever its command; the cases come after
  have huna : Lets st.kcp (ikcpShrinkBuf (ikcpParseUna
      { st.kcp with rmtWnd := head.wnd.setWidth 32 } (getId st.kcp.sndNxt head.tmpUna))) := by
    have hwnd : Lets st.kcp { st.kcp with rmtWnd := head.wnd.setWidth 32 } := .of_eq rfl
    exact (hwnd.trans (parseUnaLoop_lets _ st.kcp.sndBuf _ rfl)).trans
      (.of_eq (ikcpShrinkBuf_tallies _))
  rw [inputSeg]
  dsimp only
  split
  · split
    · exact huna.trans (hack _ _)
    · exact huna.trans (hack _ _)
  split
  · exact huna.trans (.of_eq (inputData_tallies ..))
  split
  · exact huna.trans (.of_eq rfl)
  · exact huna

/-- The loop.  Induction on its rounds. -/
theorem inputLoop_lets : ∀ (n : Nat) (data : List Byte) (st : InputSt),
    Lets st.kcp (inputLoop n data st).2.kcp
  | 0, _, _ => .of_eq rfl
  | n + 1, data, st => by
    rw [inputLoop]
    split
    · exact .of_eq rfl
    · exact .of_eq rfl
    · exact (inputSeg_lets st _ _).trans (inputLoop_lets n _ _)

/-- An acknowledgement of a later segment is not counted here.  Recursion on the segments. -/
theorem fastackLoop_tally (sn : IUINT32) :
    ∀ buf : List IKCPSEG, (fastackLoop sn buf).map IKCPSEG.tally = buf.map IKCPSEG.tally
  | [] => rfl
  | seg :: rest => by
    have hrest := fastackLoop_tally sn rest
    rw [fastackLoop]
    split
    · rfl
    · split
      · exact congrArg (seg.tally :: ·) hrest
      · exact congrArg (seg.tally :: ·) hrest

theorem ikcpParseFastack_tallies (k : IKCPCB) (sn : IUINT32) :
    (ikcpParseFastack k sn).tallies = k.tallies := by
  rw [ikcpParseFastack]
  split
  · rfl
  · exact congrArg (fun segs => { k.tallies with segs := segs }) (fastackLoop_tally sn k.sndBuf)

/-- **`pvp_ikcp_input`**, whatever arrives. -/
theorem pvpIkcpInput_lets (k : IKCPCB) (data : List Byte) (current : IUINT32) :
    Lets k (pvpIkcpInput k data current).2 := by
  have henter : Lets k (inputEnter k current) := by
    obtain ⟨_, _, _, hset⟩ := inputEnter_eq k current
    rw [hset]
    exact .of_eq rfl
  have hloop := inputLoop_lets data.length data { kcp := inputEnter k current, flag := false, maxack := 0 }
  rw [pvpIkcpInput]
  dsimp only
  split
  · exact henter
  generalize inputLoop data.length data _ = r at hloop
  obtain ⟨ret, st⟩ := r
  cases ret with
  -- a string that breaks off: what stood before the break has been read
  | some ret => exact henter.trans hloop
  | none =>
    have hfast : (if st.flag then ikcpParseFastack st.kcp st.maxack else st.kcp).tallies
        = st.kcp.tallies := by
      split
      · exact ikcpParseFastack_tallies ..
      · rfl
    obtain ⟨_, _, hcwnd⟩ := inputCwnd_eq (if st.flag then ikcpParseFastack st.kcp st.maxack else st.kcp)
      (inputEnter k current).sndUna
    dsimp only
    rw [hcwnd]
    exact (henter.trans hloop).trans (.of_eq hfast)

end Letting

/-! ## What leaves the numbers alone -/

theorem pvpIkcpSend_tallies (k : IKCPCB) (buffer : List Byte) (current : IUINT32) :
    (pvpIkcpSend k buffer current).2.tallies = k.tallies := by
  obtain ⟨_, _, _, hset⟩ := pvpIkcpSend_eq k buffer current
  rw [hset]
  rfl

theorem pvpIkcpRecv_tallies (k : IKCPCB) (len : Int) : (pvpIkcpRecv k len).2.tallies = k.tallies := by
  obtain ⟨_, _, _, _, _, _, hset⟩ := pvpIkcpRecv_eq k len
  rw [hset]
  rfl

theorem pvpIkcpNodelay_tallies (k : IKCPCB) (nodelay interval resend nc : Int) :
    (pvpIkcpNodelay k nodelay interval resend nc).tallies = k.tallies := by
  obtain ⟨_, _, _, _, _, hset⟩ := pvpIkcpNodelay_eq k nodelay interval resend nc
  rw [hset]
  rfl

theorem pvpIkcpWndsize_tallies (k : IKCPCB) (sndwnd rcvwnd : Int) :
    (pvpIkcpWndsize k sndwnd rcvwnd).tallies = k.tallies := by
  obtain ⟨_, _, hset⟩ := pvpIkcpWndsize_eq k sndwnd rcvwnd
  rw [hset]
  rfl

theorem updateHead_tallies (k : IKCPCB) (current : IUINT32) :
    (updateHead k current).2.tallies = k.tallies := by
  obtain ⟨_, _, hset⟩ := updateHead_eq k current
  rw [hset]
  rfl

theorem flushTail_tallies (cwnd resent : IUINT32) (change lost : Bool) (k : IKCPCB) :
    (flushTail cwnd resent change lost k).tallies = k.tallies := by
  obtain ⟨_, _, _, _, hset⟩ := flushTail_eq cwnd resent change lost k
  rw [hset]
  rfl

/-! ## Intervals -/

/-- `pvp_ikcp_update_lost` takes the interval to be over: it has lasted its time, or the clock went
    back behind its beginning. -/
def IntervalOver (k : IKCPCB) (current : IUINT32) : Prop :=
  let slap := itimediff current (if k.tsLost = 0 then current else k.tsLost)
  slap > k.intervalLost.toNat ∨ slap < 0

instance (k : IKCPCB) (current : IUINT32) : Decidable (IntervalOver k current) :=
  inferInstanceAs (Decidable (_ ∨ _))

theorem pvpIkcpUpdateLost_tallies (k : IKCPCB) (current : IUINT32) :
    (pvpIkcpUpdateLost k current).tallies
      = if IntervalOver k current then k.tallies.close else k.tallies := by
  -- the first call of all starts the clock of the interval
  have henter : (if k.tsLost = 0 then { k with tsLost := current } else k)
      = { k with tsLost := if k.tsLost = 0 then current else k.tsLost } := by
    split <;> rfl
  rw [pvpIkcpUpdateLost]
  dsimp only
  rw [henter]
  dsimp only
  by_cases hover : IntervalOver k current
  · rw [if_pos hover]
    rw [IntervalOver] at hover
    rw [if_pos hover, Tallies.close]
    by_cases hzero : k.cursendcount = 0
    · rw [if_pos hzero]
      exact (if_pos hzero).symm
    · rw [if_neg hzero]
      exact (if_neg hzero).symm
  · rw [if_neg hover]
    rw [IntervalOver] at hover
    rw [if_neg hover]
    rfl

/-! ## The senders -/

theorem moveSegment_tallies (current wnd : IUINT32) (seg : IKCPSEG) (rest : List IKCPSEG) (k : IKCPCB) :
    (moveSegment current wnd seg rest k).tallies = k.tallies.transfer := by
  show (⟨_, _, _, _, _, _, (k.sndBuf ++ [newSegment k current wnd seg]).map IKCPSEG.tally⟩ : Tallies) = _
  rw [List.map_append]
  rfl

/-- The transfers of a flush.  Recursion on the segments of `snd_queue`. -/
theorem moveSndQueue_tallies (current wnd cwnd : IUINT32) : ∀ (queue : List IKCPSEG) (k : IKCPCB),
    ∃ n, (moveSndQueue current wnd cwnd queue k).tallies = Tallies.transfer^[n] k.tallies
  | [], _ => ⟨0, rfl⟩
  | seg :: rest, k => by
    rw [moveSndQueue]
    split
    · obtain ⟨n, hn⟩ := moveSndQueue_tallies current wnd cwnd rest (moveSegment current wnd seg rest k)
      refine ⟨n + 1, ?_⟩
      rw [hn, moveSegment_tallies, Function.iterate_succ_apply]
    · exact ⟨0, rfl⟩

theorem flushHead_tallies (k : IKCPCB) :
    ∃ n, (flushHead k).2.kcp.tallies = Tallies.transfer^[n] k.tallies := by
  obtain ⟨_, _, hhead⟩ := flushHead_kcp k
  rw [hhead]
  exact moveSndQueue_tallies ..

/-- The commands are not counted. -/
theorem sendSegment_tallies (i : Nat) (segment : IKCPSEG) (out : Out) :
    (sendSegment i segment out).kcp.tallies = { out.kcp.tallies with
      segs := out.kcp.tallies.segs.set i segment.tally } := by
  rw [sendSegment]
  simp only [upd_kcp, put_kcp, makeRoom_kcp, IKCPCB.tallies]
  split
  · rw [List.set_set, List.map_set]
    rfl
  · rw [List.map_set]

/-- A transmission replaces one segment. -/
theorem sendSegment_buf (i : Nat) (segment : IKCPSEG) (out : Out) :
    ∃ segment', (sendSegment i segment out).kcp.sndBuf = out.kcp.sndBuf.set i segment' := by
  rw [sendSegment]
  simp only [upd_kcp, put_kcp, makeRoom_kcp]
  split
  · rw [List.set_set]
    exact ⟨_, rfl⟩
  · exact ⟨_, rfl⟩

/-- A round of the data loop leaves the segments behind it alone. -/
theorem flushSegment_buf (a : FlushArgs) (i : Nat) (segment : IKCPSEG) (st : FlushSt) :
    (flushSegment a i segment st).out.kcp.sndBuf.length = st.out.kcp.sndBuf.length
      ∧ (flushSegment a i segment st).out.kcp.sndBuf.drop (i + 1) = st.out.kcp.sndBuf.drop (i + 1) := by
  -- what is due is sent, whichever of the three reasons it is sent for
  have hsend : ∀ segment' due, (sendSegment i segment'
        (st.out.upd fun kcp => dueKcp segment kcp due)).kcp.sndBuf.length = st.out.kcp.sndBuf.length
      ∧ (sendSegment i segment' (st.out.upd fun kcp => dueKcp segment kcp due)).kcp.sndBuf.drop (i + 1)
        = st.out.kcp.sndBuf.drop (i + 1) := by
    intro segment' due
    obtain ⟨new, hnew⟩ := sendSegment_buf i segment' (st.out.upd fun kcp => dueKcp segment kcp due)
    rw [hnew, upd_kcp, (dueKcp_ground segment st.out.kcp due).2, List.length_set,
      List.drop_set_of_lt (Nat.lt_succ_self i)]
    exact ⟨rfl, rfl⟩
  rw [flushSegment]
  split
  · split <;> exact ⟨rfl, rfl⟩
  · exact hsend _ _

/-- **The rule for the data loop**: what each round keeps, from one position to the next. -/
theorem flushData_rule {a : FlushArgs} {P : Nat → FlushSt → Prop}
    (hround : ∀ i segment st, P i st → st.out.kcp.sndBuf[i]? = some segment →
      P (i + 1) (flushSegment a i segment st)) :
    ∀ (n i : Nat) (st : FlushSt), i + n = st.out.kcp.sndBuf.length → P i st →
      P (i + n) (flushData a n i st)
  | 0, _, _, _, h => h
  | n + 1, i, st, hlen, h => by
    rw [flushData]
    split
    · -- the loop runs over as many positions as there were, and no round makes `snd_buf` shorter
      rename_i hi
      have hge := List.getElem?_eq_none_iff.mp hi
      omega
    · rename_i segment hi
      have hlen' := (flushSegment_buf a i segment st).1
      have hrest := flushData_rule hround n (i + 1) _ (by omega) (hround i segment st h hi)
      rw [Nat.add_right_comm] at hrest
      exact hrest

/-- **A round of the data loop.** -/
theorem flushSegment_tallies (a : FlushArgs) (i : Nat) (segment : IKCPSEG) (st : FlushSt) :
    (flushSegment a i segment st).out.kcp.tallies
      = st.out.kcp.tallies.send i segment.tally (segmentDue a segment) := by
  rw [flushSegment]
  cases hdue : segmentDue a segment with
  | first => exact sendSegment_tallies ..
  | timeout =>
    refine (sendSegment_tallies ..).trans ?_
    rw [upd_kcp, dueKcp, Tallies.send]
    -- a second timeout of one segment is not a second loss
    by_cases hlost : segment.lost = 0
    · rw [if_pos hlost, if_pos (show segment.tally.lost = 0 from hlost)]
      rfl
    · rw [if_neg hlost, if_neg (show ¬ segment.tally.lost = 0 from hlost)]
      rfl
  | fastack => exact sendSegment_tallies ..
  | no =>
    dsimp only
    split <;> rfl

theorem sendDup_tallies (i : Nat) (segment : IKCPSEG) (out : Out) :
    (sendDup i segment out).kcp.tallies = { out.kcp.tallies with
      segs := out.kcp.tallies.segs.set i segment.tally } := by
  show (⟨_, _, _, _, _, _, (out.kcp.sndBuf.set i { segment with cmd := ikcpCmdPush }).map
    IKCPSEG.tally⟩ : Tallies) = _
  rw [List.map_set]
  rfl

/-- A copy of number `i`. -/
theorem copied_some {k : IKCPCB} {i : Nat} {seg : IKCPSEG} (d : IUINT32) (hi : k.sndBuf[i]? = some seg) :
    k.tallies.copied d i = { k.tallies with
      segs := k.tallies.segs.set i ⟨seg.sn, seg.xmit + 1, seg.lost, seg.dupsendcount + d⟩ } := by
  have htally : k.tallies.segs[i]? = some seg.tally := by
    show (k.sndBuf.map IKCPSEG.tally)[i]? = _
    rw [List.getElem?_map, hi]
    rfl
  rw [Tallies.copied, htally]
  rfl

theorem copied_none {k : IKCPCB} {i : Nat} (d : IUINT32) (hi : k.sndBuf[i]? = none) :
    k.tallies.copied d i = k.tallies := by
  have htally : k.tallies.segs[i]? = none := by
    show (k.sndBuf.map IKCPSEG.tally)[i]? = _
    rw [List.getElem?_map, hi]
    rfl
  rw [Tallies.copied, htally]

/-- **The copies of a flush** are counted on the segments.  Recursion on their positions. -/
theorem flushDups_tallies (a : FlushArgs) : ∀ (is : List Nat) (out : Out),
    (flushDups a is out).kcp.tallies = is.foldl (Tallies.copied 1) out.kcp.tallies
  | [], _ => rfl
  | i :: is, out => by
    rw [flushDups, List.foldl_cons]
    cases hi : out.kcp.sndBuf[i]? with
    | none =>
      rw [copied_none 1 hi]
      exact flushDups_tallies a is out
    | some seg =>
      refine (flushDups_tallies a is _).trans ?_
      rw [sendDup_tallies, copied_some 1 hi, makeRoom_kcp]
      rfl

/-- **A round of the fast path.** -/
theorem sendExRound_tallies (a : FlushArgs) (seg : IKCPSEG) (rest : List IKCPSEG) (out : Out) :
    (sendExRound a seg rest out).kcp.tallies = out.kcp.tallies.sendNew := by
  rw [IKCPCB.tallies, sendExRound_sndBuf, sendExRound_kcp, List.map_append]
  rfl

/-- The loop of the fast path.  Induction on the segments of `snd_queue`. -/
theorem sendExLoop_tallies (a : FlushArgs) (cwnd : IUINT32) (queue : List IKCPSEG) (out : Out) :
    ∃ n, (sendExLoop a.current a.wnd cwnd a.rtomin queue out).kcp.tallies
      = Tallies.sendNew^[n] out.kcp.tallies := by
  induction queue generalizing out with
  | nil => exact ⟨0, rfl⟩
  | cons seg rest ih =>
    by_cases hopen : itimediff out.kcp.sndNxt (out.kcp.sndUna + cwnd) < 0
    · obtain ⟨n, hn⟩ := ih (sendExRound a seg rest out)
      refine ⟨n + 1, ?_⟩
      rw [sendExLoop_cons hopen, hn, sendExRound_tallies, Function.iterate_succ_apply]
    · rw [sendExLoop, if_neg hopen]
      exact ⟨0, rfl⟩

/-- **The copies of the fast path** are not counted on the segments.  Induction on the position. -/
theorem sendExDups_tallies (current wnd : IUINT32) : ∀ (i n : Nat) (out : Out),
    ∃ is : List Nat, (sendExDups current wnd i n out).kcp.tallies = is.foldl (Tallies.copied 0) out.kcp.tallies
  | 0, _, _ => ⟨[], rfl⟩
  | i + 1, n, out => by
    rw [sendExDups]
    split
    · exact ⟨[], rfl⟩
    rename_i dupSeg hi
    split
    · exact ⟨[], rfl⟩
    split
    · exact ⟨[], rfl⟩
    · obtain ⟨is, his⟩ := sendExDups_tallies current wnd i (n + 1) (sendDup i { dupSeg with
        ts := current, wnd := wnd, una := out.kcp.rcvNxt, xmit := dupSeg.xmit + 1 } out)
      -- the copy changes the number of transmissions and leaves `segment->dupsendcount` as it was
      have hcopy := copied_some 0 hi
      rw [show dupSeg.dupsendcount + 0 = dupSeg.dupsendcount from BitVec.add_zero _] at hcopy
      refine ⟨i :: is, ?_⟩
      rw [his, List.foldl_cons, sendDup_tallies, hcopy]
      rfl

theorem sendExFlush_tallies (k : IKCPCB) (current : IUINT32) :
    ∃ (n : Nat) (is : List Nat), (sendExFlush k current).kcp.tallies
      = is.foldl (Tallies.copied 0) (Tallies.sendNew^[n] k.tallies) := by
  rw [sendExFlush]
  generalize hk : (if current.toNat > 0 then { k with current := current } else k) = k₀
  have h₀ : k₀.tallies = k.tallies := by
    rw [← hk]
    split <;> rfl
  let out := (flushAcks k₀.ackcount 0 (controlSeg k₀, { kcp := k₀ })).2.upd fun kcp =>
    { kcp with ackcount := 0 }
  have hout : out.kcp.tallies = k.tallies := by
    show ({ (flushAcks k₀.ackcount 0 (controlSeg k₀, { kcp := k₀ })).2.kcp with
      ackcount := 0 } : IKCPCB).tallies = _
    rw [flushAcks_kcp]
    exact h₀
  obtain ⟨n, hn⟩ := sendExLoop_tallies ⟨k₀.current, 0, sendRtomin k₀, ikcpWndUnused k₀⟩ (sendCwnd k₀)
    out.kcp.sndQueue out
  rw [hout] at hn
  dsimp only
  rw [ikcpOutput_kcp]
  split
  · -- the walk over the older segments follows only where something was transferred
    obtain ⟨is, his⟩ := sendExDups_tallies k₀.current (ikcpWndUnused k₀) out.kcp.sndBuf.length 0
      (sendExLoop k₀.current (ikcpWndUnused k₀) (sendCwnd k₀) (sendRtomin k₀) out.kcp.sndQueue out)
    refine ⟨n, is, ?_⟩
    rw [← hn]
    exact his
  · exact ⟨n, [], hn⟩

/-- **`pvp_ikcp_send_ex`** -/
theorem pvpIkcpSendEx_tallies (k : IKCPCB) (buffer : List Byte) (current : IUINT32) :
    ∃ (n : Nat) (is : List Nat), (pvpIkcpSendEx k buffer current).2.1.tallies
      = is.foldl (Tallies.copied 0) (Tallies.sendNew^[n] k.tallies) := by
  have hsend := pvpIkcpSend_tallies k buffer current
  rw [pvpIkcpSendEx]
  generalize pvpIkcpSend k buffer current = r at hsend
  obtain ⟨ret, k₁⟩ := r
  dsimp only at hsend ⊢
  split
  · exact ⟨0, [], hsend⟩
  split
  · exact ⟨0, [], hsend⟩
  · obtain ⟨n, is, h⟩ := sendExFlush_tallies k₁ current
    exact ⟨n, is, hsend ▸ h⟩

/-! ## An update -/

/-- What an update has before it looks at the interval. -/
def updateFlush (k : IKCPCB) (current : IUINT32) : IKCPCB :=
  if (updateHead k current).1 then (pvpIkcpFlush (updateHead k current).2).1
  else (updateHead k current).2

/-- `pvp_ikcp_update` looks at the interval last, so that what its own flush sends is in it. -/
theorem pvpIkcpUpdate_lost (k : IKCPCB) (current : IUINT32) :
    (pvpIkcpUpdate k current).1 = pvpIkcpUpdateLost (updateFlush k current) current := by
  rw [pvpIkcpUpdate, updateFlush]
  dsimp only
  split <;> rfl

end ConnClient.Ikcp
