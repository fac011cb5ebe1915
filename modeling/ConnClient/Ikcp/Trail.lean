/-
  What the segments on the wire tell.

  A sender tells the acknowledgements first, all of them, then sends its data, and repeats segments at
  the end, if it does.  `mark` reads off a segment what it tells: the pair that an acknowledgement
  carries, or the number of the segment that is repeated; a first transmission and a probing command
  tell nothing.  `TrailOf` follows what a sender has told so far, wherever a datagram is cut, and the
  two senders come out at

    the pairs of `acklist`, and then the numbers of `flushCopies` or of `sendExCopies`.

  THE CUTS DO NOT MATTER.  `makeRoom` may output the buffer before any segment, so the datagrams of a
  call depend on every length in the block.  What is told does not: a trail reads the segments of all
  datagrams and of the buffer as one list, an output moves the buffer behind the datagrams
  (`TrailOf.output`), and the list stays the same.  The reading function is a parameter, for there are
  two readers: one looks for pairs alone, the other for copies too.

  `flushCopies` and `sendExCopies` are read off the loops of the source; what is in them is another
  matter.
-/
import ConnClient.Ikcp.Desk
import ConnClient.Ikcp.FastPath

namespace ConnClient.Ikcp

open ConnClient.Lib

/-! ## A trail -/

/-- Datagrams made of segments with `G`; what `f` reads off them, one datagram after the other, is
    `marks`. -/
def CarryOf {α : Type} (f : IKCPSEG → Option α) (G : IKCPSEG → Prop) (marks : List α)
    (sent : List (List Byte)) : Prop :=
  ∃ datagrams : List (List IKCPSEG), sent = datagrams.map (List.flatMap ikcpSegBytes)
    ∧ (∀ seg ∈ datagrams.flatten, G seg) ∧ datagrams.flatten.filterMap f = marks

/-- A sender at work: what it has output, and what is in its buffer, read as one list of segments.
    -/
def TrailOf {α : Type} (f : IKCPSEG → Option α) (G : IKCPSEG → Prop) (marks : List α) (out : Out) : Prop :=
  ∃ (datagrams : List (List IKCPSEG)) (tail : List IKCPSEG),
    out.sent.map Prod.snd = datagrams.map (List.flatMap ikcpSegBytes)
      ∧ out.ptr = tail.flatMap ikcpSegBytes
      ∧ (∀ seg ∈ datagrams.flatten ++ tail, G seg) ∧ (datagrams.flatten ++ tail).filterMap f = marks

section Wire

variable {α β : Type} {f : IKCPSEG → Option α} {G : IKCPSEG → Prop} {marks marks' : List α} {out : Out}

theorem CarryOf.nothing : CarryOf f G [] [] :=
  ⟨[], rfl, fun _ h => absurd h List.not_mem_nil, rfl⟩

/-- Two calls, one after the other. -/
theorem CarryOf.append {sent sent' : List (List Byte)} (h : CarryOf f G marks sent)
    (h' : CarryOf f G marks' sent') : CarryOf f G (marks ++ marks') (sent ++ sent') := by
  obtain ⟨datagrams, rfl, hG, rfl⟩ := h
  obtain ⟨datagrams', rfl, hG', rfl⟩ := h'
  refine ⟨datagrams ++ datagrams', List.map_append.symm, ?_, ?_⟩
  · intro seg hs
    rw [List.flatten_append] at hs
    rcases List.mem_append.mp hs with hs | hs
    · exact hG seg hs
    · exact hG' seg hs
  · rw [List.flatten_append, List.filterMap_append]

theorem TrailOf.start (k : IKCPCB) : TrailOf f G [] { kcp := k } :=
  ⟨[], [], rfl, rfl, fun _ h => absurd h List.not_mem_nil, rfl⟩

/-- The block has no part in it. -/
theorem TrailOf.upd (h : TrailOf f G marks out) (g : IKCPCB → IKCPCB) : TrailOf f G marks (out.upd g) := h

/-- What was in the buffer is a datagram now. -/
theorem TrailOf.output (h : TrailOf f G marks out) : TrailOf f G marks (ikcpOutput out) := by
  rw [ikcpOutput]
  split
  · exact h
  · obtain ⟨datagrams, tail, hsent, hptr, hG, hmarks⟩ := h
    -- the buffer becomes the last datagram, and the list of segments is the one it was
    have hflat : (datagrams ++ [tail]).flatten ++ [] = datagrams.flatten ++ tail := by
      rw [List.append_nil, List.flatten_append, List.flatten_singleton]
    refine ⟨datagrams ++ [tail], [], ?_, rfl, ?_, ?_⟩
    · show (out.sent ++ [(out.kcp, out.ptr)]).map Prod.snd = _
      rw [List.map_append, List.map_append, hsent, List.map_singleton, List.map_singleton, hptr]
    · rw [hflat]
      exact hG
    · rw [hflat]
      exact hmarks

theorem TrailOf.makeRoom (h : TrailOf f G marks out) (need : Nat) : TrailOf f G marks (makeRoom need out) := by
  rw [Ikcp.makeRoom]
  split
  · exact h.output
  · exact h

theorem TrailOf.put (h : TrailOf f G marks out) {seg : IKCPSEG} (hg : G seg) :
    TrailOf f G (marks ++ [seg].filterMap f) (out.put (ikcpSegBytes seg)) := by
  obtain ⟨datagrams, tail, hsent, hptr, hG, rfl⟩ := h
  refine ⟨datagrams, tail ++ [seg], hsent, ?_, ?_, ?_⟩
  · show out.ptr ++ ikcpSegBytes seg = _
    rw [List.flatMap_append, List.flatMap_singleton, hptr]
  · intro s hs
    rw [← List.append_assoc] at hs
    rcases List.mem_append.mp hs with hs | hs
    · exact hG s hs
    · rw [List.mem_singleton.mp hs]
      exact hg
  · rw [← List.append_assoc, List.filterMap_append]

/-- A segment that tells nothing. -/
theorem TrailOf.silent (h : TrailOf f G marks out) {seg : IKCPSEG} (hg : G seg) (hf : f seg = none) :
    TrailOf f G marks (out.put (ikcpSegBytes seg)) := by
  have hput := h.put hg
  rw [List.filterMap_cons_none hf, List.filterMap_nil, List.append_nil] at hput
  exact hput

/-- And one that tells something. -/
theorem TrailOf.tells (h : TrailOf f G marks out) {seg : IKCPSEG} (hg : G seg) {m : α} (hf : f seg = some m) :
    TrailOf f G (marks ++ [m]) (out.put (ikcpSegBytes seg)) := by
  have hput := h.put hg
  rw [List.filterMap_cons_some hf, List.filterMap_nil] at hput
  exact hput

/-- The sender is done: nothing is left in the buffer. -/
theorem TrailOf.carry (h : TrailOf f G marks out) :
    CarryOf f G marks ((ikcpOutput out).sent.map Prod.snd) := by
  have hempty : (ikcpOutput out).ptr.length = 0 := by
    rw [ikcpOutput]
    split
    · assumption
    · rfl
  obtain ⟨datagrams, tail, hsent, hptr, hG, hmarks⟩ := h.output
  have htail : tail = [] := by
    have hle := length_segs_le tail
    rw [← hptr, hempty] at hle
    exact List.length_eq_zero_iff.mp (Nat.le_zero.mp hle)
  rw [htail, List.append_nil] at hG hmarks
  exact ⟨datagrams, hsent, hG, hmarks⟩

/-- What can be read off the marks can be read off the segments. -/
theorem TrailOf.read (h : TrailOf f G marks out) {g : IKCPSEG → Option β} {r : α → Option β}
    (hread : ∀ seg, g seg = (f seg).bind r) : TrailOf g G (marks.filterMap r) out := by
  obtain ⟨datagrams, tail, hsent, hptr, hG, rfl⟩ := h
  refine ⟨datagrams, tail, hsent, hptr, hG, ?_⟩
  rw [List.filterMap_filterMap]
  exact List.filterMap_congr fun seg _ => hread seg

end Wire

/-! ## What is told -/

/-- What a segment on the wire tells. -/
inductive Mark where
  | ack (pair : IUINT32 × IUINT32)
  | copy (sn : IUINT32)

/-- A copy goes out under a command of its own, `IKCP_CMD_DUPS`, so the receiver can tell it apart,
    and so can this reading. -/
def mark (seg : IKCPSEG) : Option Mark :=
  if seg.cmd = ikcpCmdAck then some (.ack (seg.sn, seg.ts))
  else if seg.cmd = ikcpCmdDups then some (.copy seg.sn)
  else none

theorem mark_ack {seg : IKCPSEG} (h : seg.cmd = ikcpCmdAck) : mark seg = some (.ack (seg.sn, seg.ts)) :=
  if_pos h

theorem mark_dups {seg : IKCPSEG} (h : seg.cmd = ikcpCmdDups) : mark seg = some (.copy seg.sn) := by
  have hack : ¬ seg.cmd = ikcpCmdAck := by
    rw [h]
    decide
  rw [mark, if_neg hack, if_pos h]

theorem mark_other {seg : IKCPSEG} (hack : seg.cmd ≠ ikcpCmdAck) (hdups : seg.cmd ≠ ikcpCmdDups) :
    mark seg = none := by
  rw [mark, if_neg hack, if_neg hdups]

theorem mark_push {seg : IKCPSEG} (h : seg.cmd = ikcpCmdPush) : mark seg = none := by
  apply mark_other
  · rw [h]
    decide
  · rw [h]
    decide

/-- The numbers at some positions of `snd_buf`.  A position without a segment has none. -/
def numbersAt (k : IKCPCB) (is : List Nat) : List IUINT32 :=
  is.filterMap fun i => (k.sndBuf.map IKCPSEG.sn)[i]?

/-- The numbers of the segments that `pvp_ikcp_flush` repeats: those in `dup_segs`. -/
def flushCopies (kcp : IKCPCB) : List IUINT32 :=
  let out := (flushHead kcp).2
  let st := flushData (flushArgs out.kcp (ikcpWndUnused kcp)) out.kcp.sndBuf.length 0 { out := out }
  numbersAt st.out.kcp st.dupSegs

/-- The numbers of the segments that `sendExDups` repeats, under the same two stops: the datagram is
    full, or the copies of this call are used up. -/
def walkCopies (current wnd : IUINT32) : Nat → Nat → Out → List IUINT32
  | 0, _, _ => []
  | i + 1, n, out =>
    match out.kcp.sndBuf[i]? with
    | none => []
    | some dupSeg =>
      if out.ptr.length + (ikcpOverhead + dupSeg.len) > out.kcp.mtu then []
      else if n ≥ out.kcp.dupsendcount.toNat then []
      else
        dupSeg.sn :: walkCopies current wnd i (n + 1) (sendDup i
          { dupSeg with ts := current, wnd := wnd, una := out.kcp.rcvNxt,
                        xmit := dupSeg.xmit + 1 } out)

/-- The numbers of the segments that `pvp_ikcp_send_ex` repeats, past `pvp_ikcp_send`. -/
def sendExCopies (kcp : IKCPCB) : List IUINT32 :=
  let out := fastData kcp
  if kcp.sndBuf.length < out.kcp.sndBuf.length then
    walkCopies kcp.current (ikcpWndUnused kcp) kcp.sndBuf.length 0 out
  else []

/-! ## The senders -/

section Senders

variable {k₀ : IKCPCB} {P : IKCPCB → Prop} {G : IKCPSEG → Prop} {marks : List Mark} {out : Out}

/-- **The acknowledgement loop** tells the pairs, the next one being number `i`.  Induction on the pairs
    that are left. -/
theorem flushAcks_trail (hem : Emitter k₀ P G) (n i : Nat) {s : IKCPSEG × Out}
    (hc : Control k₀ s.1) (hcmd : s.1.cmd = ikcpCmdAck) (h : TrailOf mark G marks s.2) :
    TrailOf mark G (marks ++ ((List.range' i n).map (ikcpAckGet s.2.kcp)).map .ack) (flushAcks n i s).2 := by
  induction n generalizing i s marks with
  | zero =>
    rw [List.range'_zero, List.map_nil, List.map_nil, List.append_nil]
    exact h
  | succ n ih =>
    obtain ⟨seg, out⟩ := s
    let out₁ := makeRoom ikcpOverhead out
    let seg₁ := { seg with sn := (ikcpAckGet out₁.kcp i).1, ts := (ikcpAckGet out₁.kcp i).2 }
    have hkcp : out₁.kcp = out.kcp := makeRoom_kcp ikcpOverhead out
    have hc₁ : Control k₀ seg₁ := ⟨hc.conv, hc.cmd, hc.wnd, hc.una, hc.frg, hc.data⟩
    have hcmd₁ : seg₁.cmd = ikcpCmdAck := hcmd
    -- the pair is read from the block as it is, which the loop does not change
    have hput : TrailOf mark G (marks ++ [.ack (ikcpAckGet out.kcp i)]) (out₁.put (ikcpEncodeSeg seg₁)) := by
      have hone := (h.makeRoom ikcpOverhead).tells (hem.control hc₁) (mark_ack hcmd₁)
      rw [← ikcpSegBytes_control hc₁.data] at hone
      rw [← hkcp]
      exact hone
    have hrest := ih (s := (seg₁, out₁.put (ikcpEncodeSeg seg₁))) (i + 1) hc₁ hcmd₁ hput
    rw [List.range'_succ, List.map_cons, List.map_cons, List.append_cons]
    rw [put_kcp, hkcp] at hrest
    exact hrest

/-- The probing commands tell nothing. -/
theorem flushProbe_trail (hem : Emitter k₀ P G) {ask : IUINT32} {cmd : IUINT8} {s : IKCPSEG × Out}
    (hcmd : cmd = ikcpCmdWask ∨ cmd = ikcpCmdWins) (hc : Control k₀ s.1) (h : TrailOf mark G marks s.2) :
    TrailOf mark G marks (flushProbe ask cmd s).2 := by
  obtain ⟨seg, out⟩ := s
  rw [flushProbe]
  dsimp only
  split
  · have hc' : Control k₀ { seg with cmd := cmd } :=
      ⟨hc.conv, Or.inr hcmd, hc.wnd, hc.una, hc.frg, hc.data⟩
    -- a probing command carries no pair and no number
    have hnone : mark { seg with cmd := cmd } = none := by
      rcases hcmd with rfl | rfl
      · exact mark_other (by decide : ikcpCmdWask ≠ ikcpCmdAck) (by decide : ikcpCmdWask ≠ ikcpCmdDups)
      · exact mark_other (by decide : ikcpCmdWins ≠ ikcpCmdAck) (by decide : ikcpCmdWins ≠ ikcpCmdDups)
    have hput := (h.makeRoom ikcpOverhead).silent (hem.control hc') hnone
    rw [← ikcpSegBytes_control hc'.data] at hput
    exact hput
  · exact h

variable (hem : Emitter k₀ P G)
include hem

/-- A transmission tells nothing. -/
theorem sendSegment_trail (h : Emitting P G out) (ht : TrailOf mark G marks out) {i : Nat}
    {old new : IKCPSEG} (hi : out.kcp.sndBuf[i]? = some old) (hkey : new.key = old.key)
    (hwnd : new.wnd = ikcpWndUnused k₀) (huna : new.una = out.kcp.rcvNxt) :
    TrailOf mark G marks (sendSegment i new out) := by
  have hcmd : new.cmd = ikcpCmdPush :=
    (congrArg (fun k => k.2.1) hkey).trans (hem.push h.block (List.mem_of_getElem? hi))
  have hg : G new := h.copy hem hi hkey hwnd huna (Or.inl hcmd)
  rw [sendSegment]
  exact (((ht.upd _).makeRoom _).silent hg (mark_push hcmd)).upd _

/-- A redundant copy tells the number of its segment. -/
theorem sendDup_trail (h : Emitting P G out) (ht : TrailOf mark G marks out) {i : Nat} {old : IKCPSEG}
    (new : IKCPSEG) (hi : out.kcp.sndBuf[i]? = some old) (hkey : new.key = old.key)
    (hwnd : new.wnd = ikcpWndUnused k₀) (huna : new.una = out.kcp.rcvNxt) :
    TrailOf mark G (marks ++ [.copy new.sn]) (sendDup i new out) :=
  (ht.upd _).tells (h.copy hem hi hkey hwnd huna (Or.inr rfl)) (mark_dups rfl)

theorem flushSegment_trail {a : FlushArgs} (ha : a.wnd = ikcpWndUnused k₀) {i : Nat}
    {segment : IKCPSEG} {st : FlushSt} (h : Emitting P G st.out) (ht : TrailOf mark G marks st.out)
    (hi : st.out.kcp.sndBuf[i]? = some segment) :
    TrailOf mark G marks (flushSegment a i segment st).out := by
  have hsend : ∀ due, TrailOf mark G marks (sendSegment i
      (stamped a st.out.kcp.rcvNxt (dueSegment a st.out.kcp segment due))
      (st.out.upd fun kcp => dueKcp segment kcp due)) := by
    intro due
    obtain ⟨hground, hbuf⟩ := dueKcp_ground segment st.out.kcp due
    have hold : (st.out.upd fun kcp => dueKcp segment kcp due).kcp.sndBuf[i]? = some segment := by
      rw [upd_kcp, hbuf]
      exact hi
    have hnxt : st.out.kcp.rcvNxt = (dueKcp segment st.out.kcp due).rcvNxt :=
      (congrArg (fun g => g.rcv.rcvNxt) hground).symm
    exact sendSegment_trail hem (h.upd hem hground) (ht.upd _) hold (dueSegment_key a _ segment due)
      ha hnxt
  rw [flushSegment]
  split
  · split
    · exact ht
    · exact ht
  · exact hsend _

/-- The data loop.  Induction on the segments that are left. -/
theorem flushData_trail {a : FlushArgs} (ha : a.wnd = ikcpWndUnused k₀) (n i : Nat) {st : FlushSt}
    (h : Emitting P G st.out) (ht : TrailOf mark G marks st.out) :
    TrailOf mark G marks (flushData a n i st).out := by
  induction n generalizing i st with
  | zero => exact ht
  | succ n ih =>
    rw [flushData]
    split
    · exact ht
    · rename_i segment hi
      exact ih (i + 1) (flushSegment_emits hem ha h hi) (flushSegment_trail hem ha h ht hi)

omit hem in
/-- The numbers of `snd_buf` are not changed by a copy. -/
theorem sendDup_numbers {i : Nat} {old new : IKCPSEG} (hi : out.kcp.sndBuf[i]? = some old)
    (hsn : new.sn = old.sn) : (sendDup i new out).kcp.sndBuf.map IKCPSEG.sn = out.kcp.sndBuf.map IKCPSEG.sn :=
  map_set_eq hi hsn

/-- The copies.  Induction on their positions. -/
theorem flushDups_trail {a : FlushArgs} (ha : a.wnd = ikcpWndUnused k₀) (is : List Nat)
    (h : Emitting P G out) (ht : TrailOf mark G marks out) :
    TrailOf mark G (marks ++ (numbersAt out.kcp is).map .copy) (flushDups a is out) := by
  induction is generalizing out marks with
  | nil =>
    rw [numbersAt, List.filterMap_nil, List.map_nil, List.append_nil]
    exact ht
  | cons i is ih =>
    rw [flushDups]
    cases hi : out.kcp.sndBuf[i]? with
    -- `dup_segs` holds positions, and one without a segment is passed over by the loop and by the
    -- list alike
    | none =>
      have hnone : (out.kcp.sndBuf.map IKCPSEG.sn)[i]? = none := by
        rw [List.getElem?_map, hi]
        rfl
      rw [numbersAt, List.filterMap_cons_none hnone]
      exact ih h ht
    | some dupSeg =>
      have hsome : (out.kcp.sndBuf.map IKCPSEG.sn)[i]? = some dupSeg.sn := by
        rw [List.getElem?_map, hi]
        rfl
      have hold : (makeRoom (ikcpOverhead + dupSeg.len) out).kcp.sndBuf[i]? = some dupSeg := by
        rw [makeRoom_kcp]
        exact hi
      let copy := stamped a (makeRoom (ikcpOverhead + dupSeg.len) out).kcp.rcvNxt
        { dupSeg with xmit := dupSeg.xmit + 1, dupsendcount := dupSeg.dupsendcount + 1 }
      have hnext : Emitting P G (sendDup i copy (makeRoom (ikcpOverhead + dupSeg.len) out)) := by
        refine sendDup_emits hem (h.makeRoom _) hold rfl ha rfl fun hr => ?_
        exact room_makeRoom ((hr _ h.block).2 _ (List.mem_of_getElem? hi))
      have hcopy := sendDup_trail hem (h.makeRoom _) (ht.makeRoom _) copy hold rfl ha rfl
      have hsame : (sendDup i copy (makeRoom (ikcpOverhead + dupSeg.len) out)).kcp.sndBuf.map IKCPSEG.sn
          = out.kcp.sndBuf.map IKCPSEG.sn := by
        rw [sendDup_numbers hold (show copy.sn = dupSeg.sn from rfl), makeRoom_kcp]
      have hrest := ih hnext hcopy
      rw [numbersAt, hsame, List.append_assoc] at hrest
      rw [numbersAt, List.filterMap_cons_some hsome]
      exact hrest

/-- The walk back of the fast path.  Induction on the position. -/
theorem sendExDups_trail {current wnd : IUINT32} (hwnd : wnd = ikcpWndUnused k₀) (i n : Nat)
    (h : Emitting P G out) (ht : TrailOf mark G marks out) :
    TrailOf mark G (marks ++ (walkCopies current wnd i n out).map .copy) (sendExDups current wnd i n out) := by
  have hstop : TrailOf mark G (marks ++ ([] : List IUINT32).map .copy) out := by
    rw [List.map_nil, List.append_nil]
    exact ht
  induction i generalizing n out marks with
  | zero => exact hstop
  | succ i ih =>
    rw [sendExDups, walkCopies]
    cases hi : out.kcp.sndBuf[i]? with
    | none => exact hstop
    | some dupSeg =>
      dsimp only
      split
      · exact hstop
      · rename_i hroom
        split
        · exact hstop
        · let copy := { dupSeg with
            ts := current, wnd := wnd, una := out.kcp.rcvNxt, xmit := dupSeg.xmit + 1 }
          have hnext : Emitting P G (sendDup i copy out) :=
            sendDup_emits hem h hi rfl hwnd rfl fun _ => Nat.le_of_not_lt hroom
          have hcopy := sendDup_trail hem h ht copy hi rfl hwnd rfl
          -- the copies told so far go into the trail, and the walk goes on in front of them
          have hrest := ih (n + 1) hnext hcopy (by rw [List.map_nil, List.append_nil]; exact hcopy)
          rw [List.append_assoc] at hrest
          exact hrest

/-- The loop of the fast path.  Induction on the segments of `snd_queue`. -/
theorem sendExLoop_trail {a : FlushArgs} (hwnd : a.wnd = ikcpWndUnused k₀) {cwnd : IUINT32}
    (queue : List IKCPSEG) (hq : out.kcp.sndQueue = queue)
    (hs : cwnd.toNat ≤ out.kcp.sndWnd.toNat) (hr : cwnd.toNat ≤ out.kcp.rmtWnd.toNat)
    (h : Emitting P G out) (ht : TrailOf mark G marks out) :
    TrailOf mark G marks (sendExLoop a.current a.wnd cwnd a.rtomin queue out) := by
  induction queue generalizing out with
  | nil => exact ht
  | cons seg rest ih =>
    by_cases hopen : itimediff out.kcp.sndNxt (out.kcp.sndUna + cwnd) < 0
    · obtain ⟨hg, hround⟩ := sendExRound_emits hem hwnd hq hs hr hopen h
      have htrail : TrailOf mark G marks (sendExRound a seg rest out) :=
        ((ht.upd _).makeRoom _).silent hg (mark_push (firstSent_cmd a out.kcp seg))
      rw [sendExLoop_cons hopen]
      refine ih ?_ ?_ ?_ hround htrail
      · rw [sendExRound_kcp]
        rfl
      · rw [sendExRound_kcp]
        exact hs
      · rw [sendExRound_kcp]
        exact hr
    · rw [sendExLoop, if_neg hopen]
      exact ht

/-! ## All that is told -/

/-- The loop over all pairs. -/
theorem allAcks_trail (h : P k₀) :
    Control k₀ (flushAcks k₀.ackcount 0 (controlSeg k₀, { kcp := k₀ })).1
      ∧ Emitting P G (flushAcks k₀.ackcount 0 (controlSeg k₀, { kcp := k₀ })).2
      ∧ TrailOf mark G ((acks k₀).map .ack)
        (flushAcks k₀.ackcount 0 (controlSeg k₀, { kcp := k₀ })).2 := by
  obtain ⟨hc, hemits⟩ := flushAcks_emits hem k₀.ackcount 0 (controlSeg k₀, { kcp := k₀ })
    controlSeg_control (.start h)
  have htrail := flushAcks_trail hem k₀.ackcount 0 (s := (controlSeg k₀, { kcp := k₀ }))
    controlSeg_control rfl (.start k₀)
  rw [List.nil_append, ← List.range_eq_range'] at htrail
  exact ⟨hc, hemits, htrail⟩

/-- Everything of `pvp_ikcp_flush` before its data loop. -/
theorem flushHead_trail (h : P k₀) : TrailOf mark G ((acks k₀).map .ack) (flushHead k₀).2 := by
  obtain ⟨hc, hemits, htrail⟩ := allAcks_trail hem h
  let s := flushAcks k₀.ackcount 0 (controlSeg k₀, { kcp := k₀ })
  let out := s.2.upd fun kcp => updateProbe { kcp with ackcount := 0 }
  let asked := flushProbe ikcpAskSend ikcpCmdWask (s.1, out)
  have hout : Emitting P G out := hemits.upd hem (updateProbe_ground _)
  obtain ⟨hc', -⟩ : Control k₀ asked.1 ∧ Emitting P G asked.2 :=
    flushProbe_emits hem (Or.inr (Or.inl rfl)) hc hout
  have hask : TrailOf mark G ((acks k₀).map .ack) asked.2 :=
    flushProbe_trail hem (Or.inl rfl) hc (htrail.upd _)
  have htell : TrailOf mark G ((acks k₀).map .ack) (flushProbe ikcpAskTell ikcpCmdWins asked).2 :=
    flushProbe_trail hem (Or.inr rfl) hc' hask
  exact (htell.upd _).upd _

/-- **`pvp_ikcp_flush`**: what is left in the buffer goes out at the end. -/
theorem pvpIkcpFlush_trail (h : P k₀) (hupdated : k₀.updated = true) :
    ∃ out, (pvpIkcpFlush k₀).2 = (ikcpOutput out).sent
      ∧ TrailOf mark G ((acks k₀).map .ack ++ (flushCopies k₀).map .copy) out := by
  have hemits := flushHead_emits hem h
  let a := flushArgs (flushHead k₀).2.kcp (ikcpWndUnused k₀)
  let st := flushData a (flushHead k₀).2.kcp.sndBuf.length 0 { out := (flushHead k₀).2 }
  -- the data loop sends, and what it sends tells nothing
  have hdata : TrailOf mark G ((acks k₀).map .ack) st.out :=
    flushData_trail hem rfl _ _ hemits (flushHead_trail hem h)
  have hdups := flushDups_trail hem (a := a) rfl st.dupSegs (flushData_emits hem rfl _ _ _ hemits) hdata
  have hnot : ¬ k₀.updated = false := by
    rw [hupdated]
    decide
  refine ⟨flushDups a st.dupSegs st.out, ?_, hdups⟩
  rw [pvpIkcpFlush, if_neg hnot]

/-- **`pvp_ikcp_send_ex`**, past `pvp_ikcp_send`: `k₀` is the block at the time given. -/
theorem sendExFlush_trail {kcp : IKCPCB} {current : IUINT32} (h : P k₀)
    (hk : (if current.toNat > 0 then { kcp with current := current } else kcp) = k₀) :
    ∃ out, (sendExFlush kcp current).sent = (ikcpOutput out).sent
      ∧ TrailOf mark G ((acks k₀).map .ack ++ (sendExCopies k₀).map .copy) out := by
  obtain ⟨-, hemits, htrail⟩ := allAcks_trail hem h
  let a : FlushArgs := ⟨k₀.current, 0, sendRtomin k₀, ikcpWndUnused k₀⟩
  have hqueue : (afterAcks k₀).kcp.sndQueue = k₀.sndQueue := by rw [afterAcks_kcp]
  obtain ⟨hs, hr⟩ := sendCwnd_le k₀
  have hs : (sendCwnd k₀).toNat ≤ (afterAcks k₀).kcp.sndWnd.toNat := by
    rw [afterAcks_kcp]
    exact hs
  have hr : (sendCwnd k₀).toNat ≤ (afterAcks k₀).kcp.rmtWnd.toNat := by
    rw [afterAcks_kcp]
    exact hr
  have hemits' : Emitting P G (afterAcks k₀) := hemits.upd hem rfl
  have htrail' : TrailOf mark G ((acks k₀).map .ack) (afterAcks k₀) := htrail.upd _
  have hloop : Emitting P G (fastData k₀) :=
    sendExLoop_emits hem (a := a) rfl k₀.sndQueue hqueue hs hr hemits'
  have hloop' : TrailOf mark G ((acks k₀).map .ack) (fastData k₀) :=
    sendExLoop_trail hem (a := a) rfl k₀.sndQueue hqueue hs hr hemits' htrail'
  refine ⟨_, congrArg Out.sent (sendExFlush_fast hk), ?_⟩
  rw [sendExCopies]
  split
  · exact sendExDups_trail hem rfl _ 0 hloop hloop'
  · rw [List.map_nil, List.append_nil]
    exact hloop'

end Senders

end ConnClient.Ikcp
