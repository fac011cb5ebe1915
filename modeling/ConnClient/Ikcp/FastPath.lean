/-
  The fast send path against the plain one.

  `pvp_ikcp_send_ex` does in one loop what `pvp_ikcp_flush` does in two: the flush first transfers
  every segment the window admits and then walks `snd_buf` to send those that are due; the fast path
  sends a segment as soon as it is transferred, and looks at no other.  When nothing older is due and
  no redundant copies are asked for, the two come to the same, but for what they write down about it:
  only the fast path counts a first transmission in `kcp->xmit`, and only the flush compares the
  transmission with `dead_link`.

  The proof runs the two side by side.  The flush, at the segment it is about to send, has the block
  of the fast path WITH the rest of the window transferred already (`Ahead`); the transfers commute
  with the transmission of an older segment (`moveSndQueue_countSent`), so one round of each loop
  keeps it so.

    1. the fast path, past the acknowledgements, and the flush, past its transfers, are `Ahead`
       (`Ahead.start`);
    2. the flush passes over the old segments without doing anything (`flushData_idle`);
    3. then each round sends the same segment in both, until the window is closed or the queue is
       empty, where nothing is left to transfer and the blocks are level (`Ahead.round`, `Ahead.run`);
    4. the flush has its tail left, in which nothing was overtaken and nothing was lost.

  `dead_link` is where the two part for good.  A first transmission is one transmission, so it is one
  too many exactly where `dead_link` is at most 1, and then only the flush says so.  The difference is
  carried through the rounds as the `state` of `Ahead`, and comes out as a condition on the block
  before the call (`sameButXmit_iff`).
-/
import ConnClient.Ikcp.Intake

namespace ConnClient.Ikcp

open ConnClient.Lib

/-! ## The condition -/

/-- A message may be sent at the time `current`, and nothing but data has to go: no probe is
    pending, no older segment has timed out or was passed over, no copies are asked for, and
    messages are not merged into a stream. -/
structure NothingDue (kcp : IKCPCB) (current : IUINT32) : Prop where
  updated : kcp.updated = true
  stream : kcp.stream = 0
  dupsendcount : kcp.dupsendcount = 0
  rmtWnd : 0 < kcp.rmtWnd
  probe : kcp.probe = 0
  tsProbe : kcp.tsProbe = 0
  probeWait : kcp.probeWait = 0
  cwnd : 1 ≤ kcp.cwnd
  sent : ∀ segment ∈ kcp.sndBuf, segment.xmit ≠ 0
  waiting : ∀ segment ∈ kcp.sndBuf, itimediff current segment.resendts < 0
  inOrder : ∀ segment ∈ kcp.sndBuf,
    segment.fastack < (flushArgs kcp (ikcpWndUnused kcp)).resent

/-- A segment is queued, and the window admits it. -/
def Transfers (kcp : IKCPCB) : Prop :=
  kcp.sndQueue ≠ [] ∧ itimediff kcp.sndNxt (kcp.sndUna + sendCwnd kcp) < 0

instance (kcp : IKCPCB) : Decidable (Transfers kcp) := inferInstanceAs (Decidable (_ ≠ [] ∧ _))

/-- The same block in every field and queue, but for the transmission counter, which only the fast
    path moves at a first transmission. -/
def SameButXmit (k k' : IKCPCB) : Prop := ∃ xmit, k' = { k with xmit := xmit }

/-! ## The buffers -/

/-- Two senders have output, and are about to output, the same bytes.  The blocks beside the outputs
    differ, so only the strings are compared. -/
structure SameWire (e f : Out) : Prop where
  ptr : f.ptr = e.ptr
  sent : f.sent.map Prod.snd = e.sent.map Prod.snd

section Wire

variable {e f : Out}

theorem SameWire.output (h : SameWire e f) : SameWire (ikcpOutput e) (ikcpOutput f) := by
  rw [ikcpOutput, ikcpOutput, h.ptr]
  split
  · exact h
  · constructor
    · rfl
    · show (f.sent ++ [(f.kcp, e.ptr)]).map Prod.snd = (e.sent ++ [(e.kcp, e.ptr)]).map Prod.snd
      rw [List.map_append, List.map_append, h.sent, List.map_singleton, List.map_singleton]

theorem SameWire.makeRoom (h : SameWire e f) (hmtu : f.kcp.mtu = e.kcp.mtu) (need : Nat) :
    SameWire (makeRoom need e) (makeRoom need f) := by
  rw [Ikcp.makeRoom, Ikcp.makeRoom, h.ptr, hmtu]
  split
  · exact h.output
  · exact h

theorem SameWire.put (h : SameWire e f) (bytes : List Byte) : SameWire (e.put bytes) (f.put bytes) := by
  constructor
  · show f.ptr ++ bytes = e.ptr ++ bytes
    rw [h.ptr]
  · exact h.sent

end Wire

/-! ## The transfers -/

section Transfer

variable {current wnd cwnd : IUINT32}

/-- A transfer does not see the transmission of an older segment, nor the transmission the
    transfer. -/
theorem moveSegment_countSent {seg segment : IKCPSEG} {rest : List IKCPSEG} {i : Nat} {k : IKCPCB}
    (hi : i < k.sndBuf.length) :
    moveSegment current wnd seg rest (countSent i segment k)
      = countSent i segment (moveSegment current wnd seg rest k) := by
  have hset : (k.sndBuf ++ [newSegment k current wnd seg]).set i segment
      = k.sndBuf.set i segment ++ [newSegment k current wnd seg] := List.set_append_left _ _ hi
  rw [countSent, moveSegment, countSent, moveSegment, hset]
  rfl

/-- Nor do the transfers of a whole window.  Induction on the segments of `snd_queue`. -/
theorem moveSndQueue_countSent {segment : IKCPSEG} {i : Nat} (queue : List IKCPSEG) {k : IKCPCB}
    (hi : i < k.sndBuf.length) :
    moveSndQueue current wnd cwnd queue (countSent i segment k)
      = countSent i segment (moveSndQueue current wnd cwnd queue k) := by
  induction queue generalizing k with
  | nil => rfl
  | cons seg queue ih =>
    have hlonger : i < (moveSegment current wnd seg queue k).sndBuf.length := by
      show i < (k.sndBuf ++ [_]).length
      rw [List.length_append]
      omega
    by_cases hopen : itimediff k.sndNxt (k.sndUna + cwnd) < 0
    · have hopen' : itimediff (countSent i segment k).sndNxt
          ((countSent i segment k).sndUna + cwnd) < 0 := hopen
      rw [moveSndQueue, if_pos hopen', moveSegment_countSent hi, ih hlonger, moveSndQueue,
        if_pos hopen]
    · have hopen' : ¬ itimediff (countSent i segment k).sndNxt
          ((countSent i segment k).sndUna + cwnd) < 0 := hopen
      rw [moveSndQueue, if_neg hopen', moveSndQueue, if_neg hopen]

end Transfer

/-! ## One segment, one round of each loop -/

theorem length_sendExRound (a : FlushArgs) (seg : IKCPSEG) (rest : List IKCPSEG) (e : Out) :
    (sendExRound a seg rest e).kcp.sndBuf.length = e.kcp.sndBuf.length + 1 := by
  rw [sendExRound_kcp]
  show ((e.kcp.sndBuf ++ [_]).set _ _).length = _
  rw [List.length_set, List.length_append, List.length_singleton]

theorem firstSent_cmd_ne (a : FlushArgs) (kcp : IKCPCB) (seg : IKCPSEG) :
    (firstSent a kcp seg).cmd ≠ ikcpCmdDups := by
  rw [firstSent_cmd]
  decide

/-- The fast path has sent number `e.kcp.sndBuf.length - 1` and has `queue` before it, the flush is
    about to look at number `e.kcp.sndBuf.length`; `first` is the first number that is new. -/
structure Ahead (a : FlushArgs) (cwnd : IUINT32) (first : Nat) (queue : List IKCPSEG) (e f : Out) :
    Prop where
  wire : SameWire e f
  block : ∃ xmit, f.kcp = { moveSndQueue a.current a.wnd cwnd queue e.kcp with
    xmit := xmit
    state := if first < e.kcp.sndBuf.length ∧ e.kcp.deadLink ≤ 1 then -1 else e.kcp.state }

section Rounds

variable {a : FlushArgs} {cwnd : IUINT32} {first : Nat} {queue rest : List IKCPSEG} {seg : IKCPSEG}
  {e f : Out} {st : FlushSt}

/-- Where the window is closed or nothing is queued, the two blocks are level. -/
theorem Ahead.level (h : Ahead a cwnd first queue e f)
    (hend : moveSndQueue a.current a.wnd cwnd queue e.kcp = e.kcp) : Ahead a cwnd first [] e f := by
  obtain ⟨xmit, hblock⟩ := h.block
  rw [hend] at hblock
  exact ⟨h.wire, xmit, hblock⟩

/-- What neither of the two changes. -/
theorem Ahead.same (h : Ahead a cwnd first queue e f) :
    f.kcp.mtu = e.kcp.mtu ∧ f.kcp.rcvNxt = e.kcp.rcvNxt ∧ f.kcp.rxRto = e.kcp.rxRto := by
  obtain ⟨xmit, hblock⟩ := h.block
  obtain ⟨rest, new, nsndQue, nsndBuf, sndNxt, hmove, -⟩ :=
    moveSndQueue_eq a.current a.wnd cwnd queue e.kcp
  rw [hblock, hmove]
  exact ⟨rfl, rfl, rfl⟩

/-- The flush finds the segment the fast path is about to transfer. -/
theorem Ahead.found (h : Ahead a cwnd first (seg :: rest) e f)
    (hopen : itimediff e.kcp.sndNxt (e.kcp.sndUna + cwnd) < 0) :
    f.kcp.sndBuf[e.kcp.sndBuf.length]? = some (newSegment e.kcp a.current a.wnd seg) := by
  obtain ⟨xmit, hblock⟩ := h.block
  rw [moveSndQueue, if_pos hopen] at hblock
  obtain ⟨rest', new, nsndQue, nsndBuf, sndNxt, hmove, -⟩ :=
    moveSndQueue_eq a.current a.wnd cwnd rest (moveSegment a.current a.wnd seg rest e.kcp)
  rw [hmove] at hblock
  rw [hblock]
  show ((e.kcp.sndBuf ++ [newSegment e.kcp a.current a.wnd seg]) ++ new)[e.kcp.sndBuf.length]? = _
  rw [List.append_assoc, List.getElem?_append_right (Nat.le_refl _), Nat.sub_self]
  rfl

/-- A first transmission of the flush. -/
theorem flushSegment_new {k : IKCPCB} (hrcvNxt : st.out.kcp.rcvNxt = k.rcvNxt)
    (hrxRto : st.out.kcp.rxRto = k.rxRto) (i : Nat) :
    flushSegment a i (newSegment k a.current a.wnd seg) st
      = { st with out := sendSegment i (firstSent a k seg) (st.out.upd fun kcp =>
            { kcp with cursendcount := kcp.cursendcount + 1 }) } := by
  have hdue : segmentDue a (newSegment k a.current a.wnd seg) = .first := if_pos rfl
  have hsegment : stamped a st.out.kcp.rcvNxt
      (dueSegment a st.out.kcp (newSegment k a.current a.wnd seg) .first) = firstSent a k seg := by
    rw [hrcvNxt, dueSegment, hrxRto]
    rfl
  rw [flushSegment, hdue]
  dsimp only
  rw [hsegment]
  have hchange : (st.change || Due.first == .fastack) = st.change := Bool.or_false _
  have hlost : (st.lost || Due.first == .timeout) = st.lost := Bool.or_false _
  rw [hchange, hlost]
  rfl

/-- The block after a transmission under the plain command. -/
theorem sendSegment_kcp {segment : IKCPSEG} (hcmd : segment.cmd ≠ ikcpCmdDups) (i : Nat) (out : Out) :
    (sendSegment i segment out).kcp = { out.kcp with
      sndBuf := out.kcp.sndBuf.set i segment
      state := if segment.xmit ≥ out.kcp.deadLink then -1 else out.kcp.state } := by
  simp only [sendSegment, if_neg hcmd, upd_kcp, put_kcp, makeRoom_kcp]

/-- **One round.** -/
theorem Ahead.round (h : Ahead a cwnd first (seg :: rest) e f) (hfirst : first ≤ e.kcp.sndBuf.length)
    (hopen : itimediff e.kcp.sndNxt (e.kcp.sndUna + cwnd) < 0) :
    Ahead a cwnd first rest (sendExRound a seg rest e)
      (sendSegment e.kcp.sndBuf.length (firstSent a e.kcp seg)
        (f.upd fun kcp => { kcp with cursendcount := kcp.cursendcount + 1 })) := by
  obtain ⟨xmit, hblock⟩ := h.block
  rw [moveSndQueue, if_pos hopen] at hblock
  obtain ⟨rest', new, nsndQue, nsndBuf, sndNxt, hmove, -⟩ :=
    moveSndQueue_eq a.current a.wnd cwnd rest (moveSegment a.current a.wnd seg rest e.kcp)
  have hcmd := firstSent_cmd_ne a e.kcp seg
  constructor
  · -- the wire: the same segment behind the same bytes, with the same room made for it
    obtain ⟨hmtu, -, -⟩ := h.same
    let moved := e.upd fun kcp => countSent e.kcp.sndBuf.length (firstSent a e.kcp seg)
      (moveSegment a.current a.wnd seg rest kcp)
    let counted := f.upd fun kcp =>
      { kcp with cursendcount := kcp.cursendcount + 1
                 sndBuf := kcp.sndBuf.set e.kcp.sndBuf.length (firstSent a e.kcp seg) }
    have hbefore : SameWire moved counted := ⟨h.wire.ptr, h.wire.sent⟩
    have hafter := (hbefore.makeRoom hmtu (ikcpOverhead + (firstSent a e.kcp seg).len)).put
      (ikcpSegBytes (firstSent a e.kcp seg))
    exact ⟨hafter.ptr, hafter.sent⟩
  · -- the block: the flush stamps a segment with others behind it, the fast path the last one
    have hi : e.kcp.sndBuf.length < (moveSegment a.current a.wnd seg rest e.kcp).sndBuf.length := by
      show _ < (e.kcp.sndBuf ++ [_]).length
      rw [List.length_append]
      exact Nat.lt_succ_self _
    have hstate : (sendExRound a seg rest e).kcp.state = e.kcp.state := by
      rw [sendExRound_kcp]
      rfl
    have hdead : (sendExRound a seg rest e).kcp.deadLink = e.kcp.deadLink := by
      rw [sendExRound_kcp]
      rfl
    refine ⟨xmit, ?_⟩
    rw [length_sendExRound, hstate, hdead, sendSegment_kcp hcmd, sendExRound_kcp, moveSndQueue_countSent rest hi,
      upd_kcp, hblock]
    generalize hmoved : moveSndQueue a.current a.wnd cwnd rest
      (moveSegment a.current a.wnd seg rest e.kcp) = moved
    have hsame : moved.deadLink = e.kcp.deadLink := by
      rw [← hmoved, hmove]
      rfl
    -- a first transmission is one too many already where `dead_link` is at most 1
    have hmark : (if (firstSent a e.kcp seg).xmit ≥ moved.deadLink then (-1 : IUINT32)
          else if first < e.kcp.sndBuf.length ∧ e.kcp.deadLink ≤ 1 then -1 else e.kcp.state)
        = if first < e.kcp.sndBuf.length + 1 ∧ e.kcp.deadLink ≤ 1 then -1 else e.kcp.state := by
      rw [hsame]
      by_cases hlow : e.kcp.deadLink ≤ 1
      · have hxmit : (firstSent a e.kcp seg).xmit ≥ e.kcp.deadLink := hlow
        rw [if_pos hxmit, if_pos ⟨Nat.lt_succ_of_le hfirst, hlow⟩]
      · have hxmit : ¬ (firstSent a e.kcp seg).xmit ≥ e.kcp.deadLink := hlow
        rw [if_neg hxmit, if_neg fun h => hlow h.2, if_neg fun h => hlow h.2]
    dsimp only
    rw [hmark]
    rfl

/-- Both loops are over. -/
theorem Ahead.stop (h : Ahead a cwnd first queue e st.out)
    (hmove : moveSndQueue a.current a.wnd cwnd queue e.kcp = e.kcp)
    (hloop : sendExLoop a.current a.wnd cwnd a.rtomin queue e = e) {n : Nat}
    (hn : e.kcp.sndBuf.length + n = st.out.kcp.sndBuf.length) :
    ∃ f, flushData a n e.kcp.sndBuf.length st = { st with out := f }
      ∧ Ahead a cwnd first [] (sendExLoop a.current a.wnd cwnd a.rtomin queue e) f := by
  obtain ⟨xmit, hblock⟩ := (h.level hmove).block
  have hlen : st.out.kcp.sndBuf.length = e.kcp.sndBuf.length := by
    rw [hblock]
    rfl
  have hzero : n = 0 := by omega
  rw [hzero, hloop]
  exact ⟨st.out, rfl, h.level hmove⟩

/-- **The two loops.**  `n` segments of the flush are left.  Induction on the segments of
    `snd_queue`, carried by `Ahead`. -/
theorem Ahead.run (h : Ahead a cwnd first queue e st.out) (hfirst : first ≤ e.kcp.sndBuf.length)
    {n : Nat} (hn : e.kcp.sndBuf.length + n = st.out.kcp.sndBuf.length) :
    ∃ f, flushData a n e.kcp.sndBuf.length st = { st with out := f }
      ∧ Ahead a cwnd first [] (sendExLoop a.current a.wnd cwnd a.rtomin queue e) f := by
  induction queue generalizing e st n with
  | nil => exact h.stop rfl rfl hn
  | cons seg rest ih =>
    by_cases hopen : itimediff e.kcp.sndNxt (e.kcp.sndUna + cwnd) < 0
    · let st' : FlushSt := { st with
        out := sendSegment e.kcp.sndBuf.length (firstSent a e.kcp seg)
          (st.out.upd fun kcp => { kcp with cursendcount := kcp.cursendcount + 1 }) }
      have hround : Ahead a cwnd first rest (sendExRound a seg rest e) st'.out :=
        h.round hfirst hopen
      have hlen := length_sendExRound a seg rest e
      have hlen' : st'.out.kcp.sndBuf.length = st.out.kcp.sndBuf.length := by
        show (sendSegment _ _ _).kcp.sndBuf.length = _
        rw [sendSegment_kcp (firstSent_cmd_ne a e.kcp seg)]
        exact List.length_set
      have hi := h.found hopen
      obtain ⟨-, hrcvNxt, hrxRto⟩ := h.same
      cases n with
      -- the flush would have no segment left, but the one of the fast path is in its `snd_buf`
      | zero =>
        have hnone := List.getElem?_eq_none (Nat.le_of_eq hn.symm)
        cases hi.symm.trans hnone
      | succ n =>
        have hflush : flushData a (n + 1) e.kcp.sndBuf.length st
            = flushData a n (sendExRound a seg rest e).kcp.sndBuf.length
              (flushSegment a e.kcp.sndBuf.length (newSegment e.kcp a.current a.wnd seg) st) := by
          rw [flushData, hi, hlen]
        rw [hflush, flushSegment_new hrcvNxt hrxRto, sendExLoop_cons hopen]
        exact ih hround (by omega) (by omega)
    · exact h.stop (if_neg hopen) (if_neg hopen) hn

end Rounds

/-! ## The old segments -/

section Idle

variable {a : FlushArgs} {st : FlushSt}

/-- The flush passes over segments that are not due.  Induction on their number. -/
theorem flushData_idle (n m i : Nat) (hle : i + n ≤ st.out.kcp.sndBuf.length)
    (hidle : ∀ j segment, j < i + n → st.out.kcp.sndBuf[j]? = some segment →
      segmentDue a segment = .no ∧ wantsDup a st.out.kcp segment st.dupSegs.length = false) :
    flushData a (m + n) i st = flushData a m (i + n) st := by
  induction n generalizing i with
  | zero => rfl
  | succ n ih =>
    have hlt : i < st.out.kcp.sndBuf.length := by omega
    have hi : st.out.kcp.sndBuf[i]? = some st.out.kcp.sndBuf[i] := List.getElem?_eq_getElem hlt
    obtain ⟨hdue, hdup⟩ := hidle i _ (by omega) hi
    have hround : flushSegment a i st.out.kcp.sndBuf[i] st = st := by
      rw [flushSegment, hdue]
      exact if_neg (Bool.not_eq_true _ ▸ hdup)
    have hnext : i + (n + 1) = i + 1 + n := by omega
    rw [hnext] at hidle hle ⊢
    rw [← Nat.add_assoc, flushData, hi]
    dsimp only
    rw [hround]
    exact ih (i + 1) hle hidle

end Idle

/-! ## The two senders -/

/-- What the fast path leaves alone, and that it only adds to `snd_buf`. -/
structure Added (k k' : IKCPCB) : Prop where
  state : k'.state = k.state
  deadLink : k'.deadLink = k.deadLink
  dupsendcount : k'.dupsendcount = k.dupsendcount
  cwnd : k'.cwnd = k.cwnd
  length : k.sndBuf.length ≤ k'.sndBuf.length

/-- Induction on the segments of `snd_queue`. -/
theorem sendExLoop_added (a : FlushArgs) (cwnd : IUINT32) (queue : List IKCPSEG) (e : Out) :
    Added e.kcp (sendExLoop a.current a.wnd cwnd a.rtomin queue e).kcp := by
  induction queue generalizing e with
  | nil => exact ⟨rfl, rfl, rfl, rfl, Nat.le_refl _⟩
  | cons seg rest ih =>
    by_cases hopen : itimediff e.kcp.sndNxt (e.kcp.sndUna + cwnd) < 0
    · obtain ⟨hstate, hdead, hdup, hcwnd, hlen⟩ := ih (sendExRound a seg rest e)
      rw [length_sendExRound] at hlen
      rw [sendExRound_kcp] at hstate hdead hdup hcwnd
      rw [sendExLoop_cons hopen]
      exact ⟨hstate, hdead, hdup, hcwnd, Nat.le_of_succ_le hlen⟩
    · rw [sendExLoop, if_neg hopen]
      exact ⟨rfl, rfl, rfl, rfl, Nat.le_refl _⟩

/-- Of a queue that is not empty, something is transferred exactly where the window is open. -/
theorem sendExLoop_moved (a : FlushArgs) (cwnd : IUINT32) (seg : IKCPSEG) (rest : List IKCPSEG)
    (e : Out) :
    e.kcp.sndBuf.length
        < (sendExLoop a.current a.wnd cwnd a.rtomin (seg :: rest) e).kcp.sndBuf.length
      ↔ itimediff e.kcp.sndNxt (e.kcp.sndUna + cwnd) < 0 := by
  by_cases hopen : itimediff e.kcp.sndNxt (e.kcp.sndUna + cwnd) < 0
  · have hlen := (sendExLoop_added a cwnd rest (sendExRound a seg rest e)).length
    rw [length_sendExRound] at hlen
    rw [sendExLoop_cons hopen]
    exact ⟨fun _ => hopen, fun _ => hlen⟩
  · rw [sendExLoop, if_neg hopen]
    exact ⟨fun h => absurd h (Nat.lt_irrefl _), fun h => absurd h hopen⟩

/-- No redundant copies are asked for. -/
theorem sendExDups_none {out : Out} (h : out.kcp.dupsendcount = 0) (current wnd : IUINT32) (i : Nat) :
    sendExDups current wnd i 0 out = out := by
  cases i with
  | zero => rfl
  | succ i =>
    rw [sendExDups]
    split
    · rfl
    · split
      · rfl
      · rw [if_pos]
        rw [h]
        exact Nat.le_refl _

section Senders

variable {k : IKCPCB}

/-- The output past the acknowledgements. -/
def afterAcks (k : IKCPCB) : Out :=
  (flushAcks k.ackcount 0 (controlSeg k, { kcp := k })).2.upd fun kcp => { kcp with ackcount := 0 }

/-- The output past the loop of the fast path. -/
def fastData (k : IKCPCB) : Out :=
  sendExLoop k.current (ikcpWndUnused k) (sendCwnd k) (sendRtomin k) k.sndQueue (afterAcks k)

theorem afterAcks_kcp (k : IKCPCB) : (afterAcks k).kcp = { k with ackcount := 0 } := by
  rw [afterAcks, upd_kcp, flushAcks_kcp]

/-- The loop of the fast path starts where `snd_buf` ends. -/
theorem fastData_added (k : IKCPCB) : Added k (fastData k).kcp := by
  have hadded := sendExLoop_added (flushArgs k (ikcpWndUnused k)) (sendCwnd k) k.sndQueue
    (afterAcks k)
  rw [afterAcks_kcp] at hadded
  exact ⟨hadded.state, hadded.deadLink, hadded.dupsendcount, hadded.cwnd, hadded.length⟩

/-- `pvp_ikcp_send_ex` past `pvp_ikcp_send`, in three parts. -/
theorem sendExFlush_fast {kcp : IKCPCB} {current : IUINT32}
    (hk : (if current.toNat > 0 then { kcp with current := current } else kcp) = k) :
    sendExFlush kcp current = ikcpOutput (if k.sndBuf.length < (fastData k).kcp.sndBuf.length then
      sendExDups k.current (ikcpWndUnused k) k.sndBuf.length 0 (fastData k) else fastData k) := by
  have hqueue : (afterAcks k).kcp.sndQueue = k.sndQueue := by rw [afterAcks_kcp]
  have hfirst : (afterAcks k).kcp.sndBuf = k.sndBuf := by rw [afterAcks_kcp]
  rw [sendExFlush, hk, fastData, ← hqueue, ← hfirst]
  rfl

/-- The fast path on such a block. -/
theorem sendExFlush_nothingDue (h : NothingDue k k.current) :
    sendExFlush k k.current = ikcpOutput (fastData k) := by
  have hnodup : (fastData k).kcp.dupsendcount = 0 :=
    (fastData_added k).dupsendcount.trans h.dupsendcount
  rw [sendExFlush_fast (ite_self _), sendExDups_none hnodup, ite_self]

/-- There is nothing to ask and nothing to tell. -/
theorem updateProbe_nothingDue {current : IUINT32} (h : NothingDue k current) :
    updateProbe { k with ackcount := 0 } = { k with ackcount := 0 } := by
  have hopen : ¬ k.rmtWnd = 0 := by
    intro hzero
    have hpos := h.rmtWnd
    rw [hzero] at hpos
    exact absurd hpos (by decide)
  rw [updateProbe, if_neg hopen]
  have hts := h.tsProbe
  have hwait := h.probeWait
  cases k
  cases hts
  cases hwait
  rfl

/-- The flush, up to its data loop. -/
theorem flushHead_nothingDue {current : IUINT32} (h : NothingDue k current) :
    flushHead k = (sendCwnd k, (afterAcks k).upd fun kcp =>
      moveSndQueue k.current (ikcpWndUnused k) (sendCwnd k) k.sndQueue kcp) := by
  let s := flushAcks k.ackcount 0 (controlSeg k, { kcp := k })
  have hs : s.2.kcp = k := flushAcks_kcp ..
  have hprobe : (s.2.upd fun kcp => updateProbe { kcp with ackcount := 0 }) = afterAcks k := by
    show ({ s.2 with kcp := updateProbe { s.2.kcp with ackcount := 0 } } : Out) = _
    rw [hs, updateProbe_nothingDue h, ← afterAcks_kcp]
    rfl
  have hask : (afterAcks k).kcp.probe = 0 := by
    rw [afterAcks_kcp]
    exact h.probe
  -- the probing flags are cleared, and were clear
  have hreset : ((afterAcks k).upd fun kcp => { kcp with probe := 0 }) = afterAcks k := by
    generalize afterAcks k = out at hask
    obtain ⟨kcp, ptr, sent⟩ := out
    cases kcp
    cases hask
    rfl
  have hcwnd : sendCwnd (afterAcks k).kcp = sendCwnd k := by
    rw [afterAcks_kcp]
    rfl
  have hqueue : (afterAcks k).kcp.sndQueue = k.sndQueue := by rw [afterAcks_kcp]
  have hprobes : flushProbe ikcpAskTell ikcpCmdWins (flushProbe ikcpAskSend ikcpCmdWask
      (s.1, afterAcks k)) = (s.1, afterAcks k) := by
    have hask' : (s.1, afterAcks k).2.kcp.probe = 0 := hask
    rw [flushProbe_none ikcpAskSend ikcpCmdWask hask', flushProbe_none _ _ hask']
  let transfers (out : Out) : IUINT32 × Out := (sendCwnd out.kcp, out.upd fun kcp =>
    moveSndQueue k.current (ikcpWndUnused k) (sendCwnd out.kcp) kcp.sndQueue kcp)
  have hhead : flushHead k = transfers ((flushProbe ikcpAskTell ikcpCmdWins
      (flushProbe ikcpAskSend ikcpCmdWask
        (s.1, s.2.upd fun kcp => updateProbe { kcp with ackcount := 0 }))).2.upd
      fun kcp => { kcp with probe := 0 }) := rfl
  rw [hhead, hprobe, hprobes, hreset]
  show (sendCwnd (afterAcks k).kcp, (afterAcks k).upd fun kcp => moveSndQueue k.current
    (ikcpWndUnused k) (sendCwnd (afterAcks k).kcp) kcp.sndQueue kcp) = _
  rw [hcwnd, Out.upd, Out.upd, hqueue]

/-- The flush, at its data loop: the transfers are behind it. -/
def atData (k : IKCPCB) : Out :=
  (afterAcks k).upd fun kcp =>
    moveSndQueue k.current (ikcpWndUnused k) (sendCwnd k) k.sndQueue kcp

/-- The transfers put segments behind the old ones, and leave the locals of the flush alone. -/
theorem atData_kcp (k : IKCPCB) :
    (∃ new, (atData k).kcp.sndBuf = k.sndBuf ++ new)
      ∧ flushArgs (atData k).kcp (ikcpWndUnused k) = flushArgs k (ikcpWndUnused k)
      ∧ (atData k).kcp.dupsendcount = k.dupsendcount := by
  obtain ⟨rest, new, nsndQue, nsndBuf, sndNxt, hmove, -⟩ :=
    moveSndQueue_eq k.current (ikcpWndUnused k) (sendCwnd k) k.sndQueue (afterAcks k).kcp
  rw [atData, upd_kcp, hmove, afterAcks_kcp]
  exact ⟨⟨new, rfl⟩, rfl, rfl⟩

/-- At the data loop the flush is ahead by all the transfers. -/
theorem Ahead.start (k : IKCPCB) :
    Ahead (flushArgs k (ikcpWndUnused k)) (sendCwnd k) k.sndBuf.length k.sndQueue (afterAcks k)
      (atData k) := by
  have hlen : (afterAcks k).kcp.sndBuf.length = k.sndBuf.length := by rw [afterAcks_kcp]
  obtain ⟨rest, new, nsndQue, nsndBuf, sndNxt, hmove, -⟩ :=
    moveSndQueue_eq k.current (ikcpWndUnused k) (sendCwnd k) k.sndQueue (afterAcks k).kcp
  constructor
  · exact ⟨rfl, rfl⟩
  · refine ⟨(afterAcks k).kcp.xmit, ?_⟩
    rw [hlen, if_neg fun h => Nat.lt_irrefl _ h.1]
    show moveSndQueue k.current (ikcpWndUnused k) (sendCwnd k) k.sndQueue (afterAcks k).kcp
      = { moveSndQueue k.current (ikcpWndUnused k) (sendCwnd k) k.sndQueue (afterAcks k).kcp with
          xmit := (afterAcks k).kcp.xmit
          state := (afterAcks k).kcp.state }
    rw [hmove]

/-- No old segment is due, and none is wanted twice. -/
theorem NothingDue.idle (h : NothingDue k k.current) {j : Nat} {segment : IKCPSEG}
    (hj : j < k.sndBuf.length) (hsegment : (atData k).kcp.sndBuf[j]? = some segment) (dupIdx : Nat) :
    segmentDue (flushArgs k (ikcpWndUnused k)) segment = .no
      ∧ wantsDup (flushArgs k (ikcpWndUnused k)) (atData k).kcp segment dupIdx = false := by
  obtain ⟨⟨new, hbuf⟩, -, hdup⟩ := atData_kcp k
  rw [hbuf, List.getElem?_append_left hj] at hsegment
  have hmem := List.mem_of_getElem? hsegment
  constructor
  · have hwaiting : ¬ itimediff (flushArgs k (ikcpWndUnused k)).current segment.resendts ≥ 0 :=
      Int.not_le.mpr (h.waiting segment hmem)
    have hinOrder : ¬ segment.fastack ≥ (flushArgs k (ikcpWndUnused k)).resent :=
      BitVec.not_le.mpr (h.inOrder segment hmem)
    rw [segmentDue, if_neg (h.sent segment hmem), if_neg hwaiting, if_neg hinOrder]
  · have hnone : ¬ segment.dupsendcount < (atData k).kcp.dupsendcount := by
      rw [hdup, h.dupsendcount]
      exact BitVec.not_lt_zero
    rw [wantsDup, decide_eq_false hnone, Bool.and_false, Bool.false_and, Bool.false_and]

/-- **`pvp_ikcp_flush` on such a block.** -/
theorem pvpIkcpFlush_nothingDue (h : NothingDue k k.current) :
    ∃ f, pvpIkcpFlush k = ((ikcpOutput f).kcp, (ikcpOutput f).sent)
      ∧ Ahead (flushArgs k (ikcpWndUnused k)) (sendCwnd k) k.sndBuf.length [] (fastData k) f := by
  obtain ⟨⟨new, hbuf⟩, hargs, hdup⟩ := atData_kcp k
  let a := flushArgs k (ikcpWndUnused k)
  let st : FlushSt := { out := atData k }
  have hlen : (afterAcks k).kcp.sndBuf.length = k.sndBuf.length := by rw [afterAcks_kcp]
  have hall : (atData k).kcp.sndBuf.length = new.length + k.sndBuf.length := by
    rw [hbuf, List.length_append, Nat.add_comm]
  -- the loop over the old segments, and the loop over the new ones
  have hidle : flushData a (new.length + k.sndBuf.length) 0 st
      = flushData a new.length (0 + k.sndBuf.length) st := by
    apply flushData_idle
    · show _ ≤ (atData k).kcp.sndBuf.length
      omega
    · intro j segment hj hsegment
      exact h.idle (by omega) hsegment _
  have hahead : Ahead a (sendCwnd k) k.sndBuf.length k.sndQueue (afterAcks k) st.out := .start k
  have hrest : (afterAcks k).kcp.sndBuf.length + new.length = st.out.kcp.sndBuf.length := by
    show _ = (atData k).kcp.sndBuf.length
    omega
  obtain ⟨f, hrun, hlevel⟩ := hahead.run (Nat.le_of_eq hlen.symm) hrest
  refine ⟨f, ?_, hlevel⟩
  have hdata : flushData a (atData k).kcp.sndBuf.length 0 st = { st with out := f } := by
    rw [hall, hidle, Nat.zero_add, ← hlen]
    exact hrun
  -- nothing was overtaken, nothing was lost, and the window is not empty
  have hcwnd : ¬ (ikcpOutput f).kcp.cwnd < 1 := by
    obtain ⟨xmit, hblock⟩ := hlevel.block
    rw [ikcpOutput_kcp, hblock]
    show ¬ (fastData k).kcp.cwnd < 1
    rw [(fastData_added k).cwnd]
    exact BitVec.not_lt.mpr h.cwnd
  have htail : flushTail (sendCwnd k) a.resent false false (ikcpOutput f).kcp = (ikcpOutput f).kcp :=
    if_neg hcwnd
  have hupdated : ¬ k.updated = false := by
    rw [h.updated]
    decide
  rw [pvpIkcpFlush, if_neg hupdated, flushHead_nothingDue h]
  let finish (a : FlushArgs) (st : FlushSt) : IKCPCB × List (IKCPCB × List Byte) :=
    (flushTail (sendCwnd k) a.resent st.change st.lost
      (ikcpOutput (flushDups a st.dupSegs st.out)).kcp,
      (ikcpOutput (flushDups a st.dupSegs st.out)).sent)
  show finish (flushArgs (atData k).kcp (ikcpWndUnused k)) (flushData
    (flushArgs (atData k).kcp (ikcpWndUnused k)) (atData k).kcp.sndBuf.length 0 st) = _
  rw [hargs, hdata]
  exact congrArg (fun kcp => (kcp, (ikcpOutput f).sent)) htail

/-- The loop of the fast path transfers something where there is something to transfer. -/
theorem fastData_moved (k : IKCPCB) :
    k.sndBuf.length < (fastData k).kcp.sndBuf.length ↔ Transfers k := by
  have hacks := afterAcks_kcp k
  cases hqueue : k.sndQueue with
  | nil =>
    have hsame : (fastData k).kcp.sndBuf.length = k.sndBuf.length := by
      rw [fastData, hqueue, sendExLoop, hacks]
    constructor
    · intro h
      omega
    · rintro ⟨hne, -⟩
      exact absurd hqueue hne
  | cons seg rest =>
    have hmoved := sendExLoop_moved (flushArgs k (ikcpWndUnused k)) (sendCwnd k) seg rest (afterAcks k)
    rw [hacks, ← hqueue] at hmoved
    constructor
    · intro h
      have hne : k.sndQueue ≠ [] := hqueue ▸ List.cons_ne_nil seg rest
      exact ⟨hne, hmoved.mp h⟩
    · rintro ⟨-, hopen⟩
      exact hmoved.mpr hopen

/-- **The two senders on such a block.**  Only the flush marks the link dead. -/
theorem sendExFlush_agrees (h : NothingDue k k.current) :
    (sendExFlush k k.current).sent.map Prod.snd = (pvpIkcpFlush k).2.map Prod.snd
      ∧ (sendExFlush k k.current).kcp.state = k.state
      ∧ SameButXmit { (sendExFlush k k.current).kcp with
          state := if k.deadLink ≤ 1 ∧ Transfers k then -1 else k.state } (pvpIkcpFlush k).1 := by
  obtain ⟨f, hflush, hlevel⟩ := pvpIkcpFlush_nothingDue h
  have hadded := fastData_added k
  obtain ⟨xmit, hblock⟩ := hlevel.block
  have hmark : (k.sndBuf.length < (fastData k).kcp.sndBuf.length ∧ (fastData k).kcp.deadLink ≤ 1)
      ↔ (k.deadLink ≤ 1 ∧ Transfers k) := by
    rw [fastData_moved, hadded.deadLink, and_comm]
  rw [hflush, sendExFlush_nothingDue h]
  refine ⟨hlevel.wire.output.sent.symm, ?_, xmit, ?_⟩
  · rw [ikcpOutput_kcp]
    exact hadded.state
  · rw [ikcpOutput_kcp, ikcpOutput_kcp, hblock, hadded.state]
    simp only [hmark]
    rfl

/-- What is left of the difference. -/
theorem sameButXmit_iff {state : IUINT32} {p : Prop} [Decidable p] {k k' : IKCPCB}
    (hstate : k.state = state)
    (h : SameButXmit { k with state := if p then -1 else state } k') :
    SameButXmit k k' ↔ state = -1 ∨ ¬ p := by
  obtain ⟨xmit, rfl⟩ := h
  constructor
  · rintro ⟨xmit', heq⟩
    have hsame : (if p then -1 else state) = k.state := congrArg IKCPCB.state heq
    by_cases hp : p
    · rw [if_pos hp, hstate] at hsame
      exact Or.inl hsame.symm
    · exact Or.inr hp
  · intro h
    have hsame : (if p then -1 else state) = k.state := by
      rcases h with hdead | hp
      · rw [hstate, hdead, ite_self]
      · rw [if_neg hp, hstate]
    refine ⟨xmit, ?_⟩
    rw [hsame]

end Senders

/-! ## A message -/

section Message

variable {kcp : IKCPCB} {buffer : List Byte} {current : IUINT32}

/-- A message that is taken changes the time and `snd_queue`. -/
theorem NothingDue.taken (h : NothingDue kcp current) (hcurrent : 0 < current)
    (hret : (pvpIkcpSend kcp buffer current).1 = 0) :
    NothingDue (pvpIkcpSend kcp buffer current).2 current
      ∧ (pvpIkcpSend kcp buffer current).2.current = current
      ∧ (pvpIkcpSend kcp buffer current).2.deadLink = kcp.deadLink
      ∧ (pvpIkcpSend kcp buffer current).2.state = kcp.state := by
  have hstream : ¬ kcp.stream ≠ 0 := fun hne => hne h.stream
  have hpos : current.toNat > 0 := hcurrent
  rw [pvpIkcpSend, if_pos hpos, if_neg hstream, sendQueue] at hret ⊢
  by_cases hmany : fragmentCount kcp.mss buffer.length ≥ 10000
  · rw [if_pos hmany] at hret
    cases (show (-2 : Int) = 0 from hret)
  · rw [if_neg hmany]
    refine ⟨?_, rfl, rfl, rfl⟩
    exact ⟨h.updated, h.stream, h.dupsendcount, h.rmtWnd, h.probe, h.tsProbe, h.probeWait, h.cwnd,
      h.sent, h.waiting, h.inOrder⟩

/-- The fast path returns what `pvp_ikcp_send` does. -/
theorem pvpIkcpSendEx_ret : (pvpIkcpSendEx kcp buffer current).1 = (pvpIkcpSend kcp buffer current).1 := by
  rw [pvpIkcpSendEx]
  dsimp only
  split
  · rfl
  · rename_i hzero
    split
    · exact (Decidable.not_not.mp hzero).symm
    · exact (Decidable.not_not.mp hzero).symm

/-- **The fast send path agrees with the plain one**: the same datagrams, and the same block but for
    `kcp->xmit` and, where a first transmission is one too many, `kcp->state`. -/
theorem pvpIkcpSendEx_agrees (buffer : List Byte) (h : NothingDue kcp current)
    (hcurrent : 0 < current) (hret : (pvpIkcpSendEx kcp buffer current).1 = 0) :
    let queued := (pvpIkcpSend kcp buffer current).2
    let fast := (pvpIkcpSendEx kcp buffer current).2
    let plain := pvpIkcpFlush queued
    fast.2.map Prod.snd = plain.2.map Prod.snd
      ∧ SameButXmit { fast.1 with
          state := if kcp.deadLink ≤ 1 ∧ Transfers queued then -1 else kcp.state } plain.1
      ∧ (SameButXmit fast.1 plain.1
        ↔ kcp.state = -1 ∨ ¬ (kcp.deadLink ≤ 1 ∧ Transfers queued)) := by
  rw [pvpIkcpSendEx_ret] at hret
  obtain ⟨hdue, hcur, hdead, hstate⟩ := h.taken hcurrent hret
  have hzero : ¬ (pvpIkcpSend kcp buffer current).1 ≠ 0 := fun hne => hne hret
  have hupdated : ¬ (pvpIkcpSend kcp buffer current).2.updated = false := by
    rw [hdue.updated]
    decide
  have hfast : (pvpIkcpSendEx kcp buffer current).2
      = ((sendExFlush (pvpIkcpSend kcp buffer current).2 current).kcp,
        (sendExFlush (pvpIkcpSend kcp buffer current).2 current).sent) := by
    rw [pvpIkcpSendEx]
    dsimp only
    rw [if_neg hzero, if_neg hupdated]
  rw [hfast]
  generalize (pvpIkcpSend kcp buffer current).2 = k at hdue hcur hdead hstate
  rw [← hcur] at hdue ⊢
  rw [← hdead, ← hstate]
  obtain ⟨hdata, hsame, hblock⟩ := sendExFlush_agrees hdue
  dsimp only
  refine ⟨hdata, hblock, ?_⟩
  exact sameButXmit_iff hsame hblock

end Message

/-- A block that has sent one segment and waits for its acknowledgement, with one acknowledgement of
    its own to send. -/
def waitingBlock (deadLink : IUINT32) : IKCPCB :=
  { ikcpAckPush (pvpIkcpCreate 1) 0 0 with
    updated := true, deadLink := deadLink, sndNxt := 1, nsndBuf := 1
    sndBuf := [{ conv := 1, cmd := ikcpCmdPush, xmit := 1, resendts := 300, data := [7] }] }

theorem waitingBlock_nothingDue (deadLink : IUINT32) : NothingDue (waitingBlock deadLink) 5 := by
  have hopen : (0 : IUINT32) < ikcpWndRcv := by decide
  have hcwnd : (1 : IUINT32) ≤ ikcpWndSnd := by decide
  refine ⟨rfl, rfl, rfl, hopen, rfl, rfl, rfl, hcwnd, ?_, ?_, ?_⟩
  · intro segment hmem
    cases List.mem_singleton.mp hmem
    decide
  · intro segment hmem
    cases List.mem_singleton.mp hmem
    decide
  · intro segment hmem
    cases List.mem_singleton.mp hmem
    show (0 : IUINT32) < 0xffffffff
    decide

/-- Three bytes sent while one segment is in flight: the queued path and the fast path put the waiting
    acknowledgement and the new segment into the same datagram. -/
theorem pvpIkcpSendEx_agrees_waiting :
    let queued := (pvpIkcpSend (waitingBlock ikcpDeadlink) [1, 2, 3] 5).2
    let fast := (pvpIkcpSendEx (waitingBlock ikcpDeadlink) [1, 2, 3] 5).2
    fast.2.map Prod.snd = (pvpIkcpFlush queued).2.map Prod.snd
      ∧ SameButXmit fast.1 (pvpIkcpFlush queued).1 := by
  obtain ⟨hdata, -, hblock⟩ := pvpIkcpSendEx_agrees [1, 2, 3]
    (waitingBlock_nothingDue ikcpDeadlink) (by decide) (by decide)
  have hlow : ¬ ikcpDeadlink ≤ 1 := by decide
  exact ⟨hdata, hblock.mpr (Or.inr fun h => hlow h.1)⟩

/-- With a `dead_link` of 1 the flush marks the link dead on the first transmission. -/
theorem sendEx_skips_deadLink :
    ¬ ∀ (kcp : IKCPCB) (buffer : List Byte) (current : IUINT32), NothingDue kcp current →
      0 < current → (pvpIkcpSendEx kcp buffer current).1 = 0 →
      (pvpIkcpSendEx kcp buffer current).2.2.map Prod.snd
          = (pvpIkcpFlush (pvpIkcpSend kcp buffer current).2).2.map Prod.snd
        ∧ SameButXmit (pvpIkcpSendEx kcp buffer current).2.1
          (pvpIkcpFlush (pvpIkcpSend kcp buffer current).2).1 := by
  intro h
  obtain ⟨-, xmit, heq⟩ := h (waitingBlock 1) [1] 5 (waitingBlock_nothingDue 1) (by decide) (by decide)
  have hstate : (pvpIkcpFlush (pvpIkcpSend (waitingBlock 1) [1] 5).2).1.state
      = (pvpIkcpSendEx (waitingBlock 1) [1] 5).2.1.state := by rw [heq]
  exact absurd hstate (by decide)

end ConnClient.Ikcp
