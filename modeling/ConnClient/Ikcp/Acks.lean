/-
  Acknowledgements go out exactly once.

  `acklist` is a relay: `ikcp_ack_push` puts a pair behind the others, and a sender takes all pairs,
  one control segment each, before it does anything else.  What has to be shown of a sender is that
  the acknowledgements on the wire are these and no others, wherever a datagram is cut, and that is read
  off all it tells (`ConnClient.Ikcp.Trail`).  What has to be shown of `pvp_ikcp_input` is that each
  segment of a datagram pushes the pair that `acked` says, or none.

  The law of a relay is `Relays before came gone after` (`ConnClient.Lib.Relay`): what was there and
  what came in is, in order, what went out and what is left.  It composes, so a run needs no invariant
  but the law itself, and `Relayed` says it of one call.  Every call is one of three kinds: it leaves
  the list alone (`Relayed.rest`), it accepts pairs, or it drains the list (`Relayed.drain`).

  Segments leave as bytes.  Where the length of a segment fits the 16 bits it travels in (`short`
  below), the bytes are read back as these segments; nothing else depends on it.  It is carried as a
  proposition through the invariant (`Fit`), so that the account of the segments holds of every block
  and the account of the bytes of those whose lengths fit.
-/
import ConnClient.Lib.Relay
import ConnClient.Ikcp.ReceiveWindow
import ConnClient.Ikcp.Trail

namespace ConnClient.Ikcp

open ConnClient.Lib

/-! ## Acknowledgements on the wire -/

/-- The pair an acknowledgement carries. -/
def ackPair (seg : IKCPSEG) : Option (IUINT32 × IUINT32) :=
  if seg.cmd = ikcpCmdAck then some (seg.sn, seg.ts) else none

/-- The pairs of the acknowledgements among some segments, in order. -/
def ackPairs (segs : List IKCPSEG) : List (IUINT32 × IUINT32) := segs.filterMap ackPair

@[simp] theorem ackPairs_nil : ackPairs [] = [] := rfl

@[simp] theorem ackPairs_append (segs segs' : List IKCPSEG) :
    ackPairs (segs ++ segs') = ackPairs segs ++ ackPairs segs' := List.filterMap_append

/-- Datagrams made of segments with `G`; the acknowledgements among them carry `pairs`. -/
abbrev Carry (G : IKCPSEG → Prop) (pairs : List (IUINT32 × IUINT32)) (sent : List (List Byte)) : Prop :=
  CarryOf ackPair G pairs sent

/-- The pair of an acknowledgement is what it tells. -/
def Mark.pair : Mark → Option (IUINT32 × IUINT32)
  | .ack pair => some pair
  | .copy _ => none

theorem ackPair_mark (seg : IKCPSEG) : ackPair seg = (mark seg).bind Mark.pair := by
  rw [ackPair, mark]
  split
  · rfl
  · split <;> rfl

/-- Of all that a sender tells, the pairs. -/
theorem carry_of_acks {G : IKCPSEG → Prop} {pairs : List (IUINT32 × IUINT32)} {sns : List IUINT32}
    {out : Out} (h : TrailOf mark G (pairs.map .ack ++ sns.map .copy) out) :
    Carry G pairs ((ikcpOutput out).sent.map Prod.snd) := by
  have hpairs : (pairs.map Mark.ack ++ sns.map Mark.copy).filterMap Mark.pair = pairs := by
    rw [List.filterMap_append, List.filterMap_map, List.filterMap_map]
    show pairs.filterMap some ++ sns.filterMap (fun _ => none) = pairs
    rw [List.filterMap_some, List.filterMap_none, List.append_nil]
  have hread := (h.read ackPair_mark).carry
  rw [hpairs] at hread
  exact hread

/-! ## The senders -/

section Senders

variable {k₀ : IKCPCB} {P : IKCPCB → Prop} {G : IKCPSEG → Prop}

/-- **`pvp_ikcp_flush`** -/
theorem pvpIkcpFlush_carry (hem : Emitter k₀ P G) (h : P k₀) (hupdated : k₀.updated = true) :
    Carry G (acks k₀) ((pvpIkcpFlush k₀).2.map Prod.snd) := by
  obtain ⟨out, hsent, hmarks⟩ := pvpIkcpFlush_trail hem h hupdated
  rw [hsent]
  exact carry_of_acks hmarks

/-- **`pvp_ikcp_send_ex`**, past `pvp_ikcp_send`: `k₀` is the block at the time given. -/
theorem sendExFlush_carry (hem : Emitter k₀ P G) {kcp : IKCPCB} {current : IUINT32} (h : P k₀)
    (hk : (if current.toNat > 0 then { kcp with current := current } else kcp) = k₀) :
    Carry G (acks k₀) ((sendExFlush kcp current).sent.map Prod.snd) := by
  obtain ⟨out, hsent, hmarks⟩ := sendExFlush_trail hem h hk
  rw [hsent]
  exact carry_of_acks hmarks

end Senders

/-! ## What waits to be sent -/

/-- The sending half: what is in `snd_buf` is data of the conversation `conv`; and, if `short`, the
    length of every segment fits 16 bits. -/
structure Fit (conv : IUINT32) (short : Prop) (h : SndHalf) : Prop where
  number : h.conv = conv
  buf : ∀ e ∈ h.sndBuf, e.1 = conv ∧ e.2.1 = ikcpCmdPush
  mss : short → h.mss < 2 ^ 16
  queue : short → ∀ f ∈ h.sndQueue, f.2.length < 2 ^ 16
  lens : short → ∀ e ∈ h.sndBuf, ∀ f, e.2.2.2 = some f → f.2.length < 2 ^ 16

/-- A segment as a peer would read it, if `short`. -/
def Legible (conv : IUINT32) (short : Prop) (seg : IKCPSEG) : Prop := short → Accepted conv seg

section Fitting

variable {conv : IUINT32} {short : Prop} {k k' : IKCPCB}

theorem fit_emitter (h : Fit conv short k.sndHalf) :
    Emitter k (fun k' => k'.rcvHalf = k.rcvHalf ∧ Fit conv short k'.sndHalf) (Legible conv short) where
  same := by
    rintro k₁ k₂ ⟨hrcv, hfit⟩ he
    have hsnd : k₂.sndHalf = k₁.sndHalf := congrArg Ground.snd he
    exact ⟨(congrArg Ground.rcv he).trans hrcv, hsnd ▸ hfit⟩
  half h := h.1
  push h hs := (h.2.buf _ (List.mem_map_of_mem hs)).2
  -- the fragment keeps its length on the way from `snd_queue` to `snd_buf`
  move := by
    rintro k₁ seg rest cwnd ⟨hrcv, hfit⟩ hq - - - current wnd
    have hqueue : short → ∀ f ∈ (seg :: rest).map IKCPSEG.unit, f.2.length < 2 ^ 16 := hq ▸ hfit.queue
    have hbuf : (moveSegment current wnd seg rest k₁).sndHalf.sndBuf
        = k₁.sndHalf.sndBuf ++ [(newSegment k₁ current wnd seg).key] := List.map_append
    refine ⟨hrcv, hfit.number, ?_, hfit.mss, ?_, ?_⟩
    · intro e he
      rw [hbuf] at he
      rcases List.mem_append.mp he with he | he
      · exact hfit.buf e he
      · rw [List.mem_singleton.mp he]
        exact ⟨hfit.number, rfl⟩
    · intro hshort f hf
      exact hqueue hshort f (List.mem_cons_of_mem _ hf)
    · intro hshort e he f hf
      rw [hbuf] at he
      rcases List.mem_append.mp he with he | he
      · exact hfit.lens hshort e he f hf
      · rw [List.mem_singleton.mp he] at hf
        cases hf
        exact hqueue hshort _ (List.mem_cons_self ..)
  control := by
    intro seg hc hshort
    refine ⟨hc.conv.trans h.number, ?_, ?_⟩
    · rw [IKCPSEG.len, hc.data]
      decide
    · rcases hc.cmd with h | h | h
      · exact Or.inr (Or.inl h)
      · exact Or.inr (Or.inr (Or.inl h))
      · exact Or.inr (Or.inr (Or.inr (Or.inl h)))
  data := by
    rintro k₁ seg copy ⟨-, hfit⟩ hs hc hshort
    have hmem := List.mem_map_of_mem (f := IKCPSEG.key) hs
    have hunit : copy.unit = seg.unit := Option.some.inj (congrArg Prod.snd hc.numbered)
    have hlen : copy.unit.2.length < 2 ^ 16 := hunit ▸ hfit.lens hshort _ hmem seg.unit rfl
    exact ⟨hc.conv.trans (hfit.buf _ hmem).1, hlen, hc.cmd.imp_right fun h => Or.inr (Or.inr (Or.inr h))⟩

theorem fit_digest : Digest fun k => Fit conv short k.sndHalf where
  same := by
    intro k k' h he
    have hsnd : k'.sndHalf = k.sndHalf := congrArg Ground.snd he
    exact hsnd ▸ h
  settle := by
    intro k k' h hs
    rw [hs.snd]
    refine ⟨h.number, ?_, h.mss, h.queue, ?_⟩
    · intro e he
      exact h.buf e (hs.sub.subset he)
    · intro hshort e he
      exact h.lens hshort e (hs.sub.subset he)
  data := by
    intro k seg h _ _
    have hsnd : (ikcpParseData k seg).sndHalf = k.sndHalf :=
      congrArg Ground.snd (ikcpParseData_sending k seg)
    exact hsnd ▸ h

theorem Fit.sendQueue (h : Fit conv short k.sndHalf) (buffer : List Byte) :
    Fit conv short (sendQueue k buffer).2.sndHalf := by
  rw [Ikcp.sendQueue]
  split
  · exact h
  · refine ⟨h.number, h.buf, h.mss, ?_, h.lens⟩
    intro hshort f hf
    have hmss := h.mss hshort
    have hf : f ∈ (k.sndQueue ++ sendFragments k.mss k.stream
        (fragmentCount k.mss buffer.length) buffer).map IKCPSEG.unit := hf
    rw [List.map_append] at hf
    rcases List.mem_append.mp hf with hf | hf
    · exact h.queue hshort f hf
    · exact Nat.lt_of_le_of_lt (sendFragments_bounds _ _ _ _ f hf).2 hmss

/-- In streaming mode the last fragment is topped up, to at most `mss` bytes. -/
theorem Fit.append (h : Fit conv short k.sndHalf) (buffer : List Byte) :
    Fit conv short (sendStreamAppend k buffer).1.sndHalf := by
  rw [sendStreamAppend]
  split
  · exact h
  · rename_i old _
    split
    · rename_i hroom
      refine ⟨h.number, h.buf, h.mss, ?_, h.lens⟩
      intro hshort f hf
      have hmss : k.mss < 2 ^ 16 := h.mss hshort
      let topped : IKCPSEG :=
        { frg := 0, data := old.data ++ buffer.take (min buffer.length (k.mss - old.len)) }
      have hf : f ∈ (k.sndQueue.dropLast ++ [topped]).map IKCPSEG.unit := hf
      rw [List.map_append] at hf
      rcases List.mem_append.mp hf with hf | hf
      · have hsub : (k.sndQueue.dropLast.map IKCPSEG.unit).Sublist (k.sndQueue.map IKCPSEG.unit) :=
          (List.dropLast_sublist _).map _
        exact h.queue hshort f (hsub.subset hf)
      · rw [List.mem_singleton.mp hf]
        show (old.data ++ buffer.take (min buffer.length (k.mss - old.len))).length < _
        have hlen : old.data.length < k.mss := hroom
        rw [List.length_append, List.length_take, IKCPSEG.len]
        omega
    · exact h

theorem Fit.send (h : Fit conv short k.sndHalf) (msg : List Byte) (current : IUINT32) :
    Fit conv short (pvpIkcpSend k msg current).2.sndHalf := by
  rw [pvpIkcpSend]
  generalize hk : (if current.toNat > 0 then { k with current := current } else k) = k₁
  have h₁ : Fit conv short k₁.sndHalf := by
    rw [← hk]
    split
    · exact h
    · exact h
  dsimp only
  split
  · split
    · exact h₁.append msg
    · exact (h₁.append msg).sendQueue _
  · exact h₁.sendQueue msg

end Fitting

/-! ## What a datagram asks for -/

/-- The pair that a segment with this header asks to be acknowledged, when it is processed: data
    inside the window, old or new, and copies of data only where `dupack` is set. -/
def acked (k : IKCPCB) (head : SegHead) : List (IUINT32 × IUINT32) :=
  let sn := getId k.rcvNxt head.tmpSn
  if (head.cmd = ikcpCmdPush ∨ head.cmd = ikcpCmdDups ∧ k.dupack ≠ 0)
      ∧ itimediff sn (k.rcvNxt + k.rcvWnd) < 0 then [(sn, head.ts)]
  else []

/-- The pairs a datagram asks for, segment by segment, up to where it is given up.  The window moves
    as the segments are taken in, so each header is read against the block of its moment. -/
def ackedLoop : Nat → List Byte → InputSt → List (IUINT32 × IUINT32)
  | 0, _, _ => []
  | n + 1, data, st =>
    match parseSeg st.kcp.conv data with
    | .stop => []
    | .fail _ => []
    | .seg head payload rest => acked st.kcp head ++ ackedLoop n rest (inputSeg st head payload)

/-- The pairs a call asks for: those of a datagram. -/
def arrivals (k : IKCPCB) : Call → List (IUINT32 × IUINT32)
  | .input data current =>
    ackedLoop data.length data { kcp := inputEnter k current, flag := false, maxack := 0 }
  | _ => []

section Arrivals

variable {k : IKCPCB}

/-- The branch for a data segment. -/
theorem inputData_acks (h : k.desk.Fits) {head : SegHead}
    (hcmd : head.cmd = ikcpCmdPush ∨ head.cmd = ikcpCmdDups) (una : IUINT32) (payload : List Byte) :
    acks (inputData k head una payload) = acks k ++ acked k head := by
  rw [acks_desk, inputData_push, acked]
  generalize getId k.rcvNxt head.tmpSn = sn
  -- the source asks for `PUSH` or `dupack`, in a branch that only `PUSH` and `DUPS` reach
  have hkind : (head.cmd = ikcpCmdPush ∨ k.dupack ≠ 0)
      ↔ head.cmd = ikcpCmdPush ∨ head.cmd = ikcpCmdDups ∧ k.dupack ≠ 0 := by
    constructor
    · rintro (hpush | hdup)
      · exact Or.inl hpush
      · exact hcmd.imp_right fun hdups => ⟨hdups, hdup⟩
    · rintro (hpush | ⟨-, hdup⟩)
      · exact Or.inl hpush
      · exact Or.inr hdup
  by_cases hboth : itimediff sn (k.rcvNxt + k.rcvWnd) < 0 ∧ (head.cmd = ikcpCmdPush ∨ k.dupack ≠ 0)
  · rw [if_pos hboth, if_pos ⟨hkind.mp hboth.2, hboth.1⟩]
    exact (ikcpAckPush_pushed h sn head.ts).acks
  · rw [if_neg hboth, if_neg fun hask => hboth ⟨hask.2, hkind.mpr hask.1⟩]
    exact (List.append_nil _).symm

/-- What a segment asks for depends on the receiving half and on `dupack`. -/
theorem acked_congr {k' : IKCPCB} (hrcv : k'.rcvHalf = k.rcvHalf) (hdesk : k'.desk = k.desk)
    (head : SegHead) : acked k' head = acked k head := by
  have hnxt : k'.rcvNxt = k.rcvNxt := congrArg RcvHalf.rcvNxt hrcv
  have hwnd : k'.rcvWnd = k.rcvWnd := congrArg RcvHalf.rcvWnd hrcv
  have hdup : k'.dupack = k.dupack := congrArg Desk.dupack hdesk
  rw [acked, acked, hnxt, hwnd, hdup]

/-- Other segments ask for nothing. -/
theorem acked_other {head : SegHead} (hpush : head.cmd ≠ ikcpCmdPush) (hdups : head.cmd ≠ ikcpCmdDups) :
    acked k head = [] := by
  rw [acked]
  exact if_neg fun h => h.1.elim hpush fun hd => hdups hd.1

/-- **One segment.** -/
theorem inputSeg_acks {st : InputSt} (h : st.kcp.desk.Fits) (head : SegHead) (payload : List Byte) :
    acks (inputSeg st head payload).kcp = acks st.kcp ++ acked st.kcp head := by
  have hsettled := settled_una st.kcp head.wnd (getId st.kcp.sndNxt head.tmpUna)
  -- the cumulative acknowledgement that comes first does not touch the list, nor what `acked` reads
  have hdesk := ikcpParseUna_desk { st.kcp with rmtWnd := head.wnd.setWidth 32 }
    (getId st.kcp.sndNxt head.tmpUna)
  rw [inputSeg]
  dsimp only
  generalize ikcpShrinkBuf (ikcpParseUna { st.kcp with rmtWnd := head.wnd.setWidth 32 }
    (getId st.kcp.sndNxt head.tmpUna)) = k at hsettled hdesk
  have hdesk : k.desk = st.kcp.desk := hdesk
  have hrcv : k.rcvHalf = st.kcp.rcvHalf := congrArg Ground.rcv hsettled.rest
  rw [acks_desk, acks_desk, ← hdesk, ← acked_congr hrcv hdesk]
  split
  · rename_i hack
    have hnone : acked k head = [] := by
      apply acked_other
      · rw [hack]
        decide
      · rw [hack]
        decide
    rw [hnone, List.append_nil]
    split <;> exact congrArg Desk.acks (ikcpParseAck_desk k _)
  split
  · rename_i hdata
    exact inputData_acks (hdesk ▸ h) hdata _ payload
  · rename_i hdata
    rw [acked_other (fun he => hdata (Or.inl he)) fun he => hdata (Or.inr he), List.append_nil]
    split <;> rfl

/-- The loop.  Induction on its rounds. -/
theorem inputLoop_acks (n : Nat) (data : List Byte) {st : InputSt} (h : st.kcp.desk.Fits) :
    acks (inputLoop n data st).2.kcp = acks st.kcp ++ ackedLoop n data st := by
  induction n generalizing data st with
  | zero => exact (List.append_nil _).symm
  | succ n ih =>
    rw [inputLoop, ackedLoop]
    cases parseSeg st.kcp.conv data with
    | stop => exact (List.append_nil _).symm
    | fail ret => exact (List.append_nil _).symm
    | seg head payload rest =>
      dsimp only
      rw [ih rest (inputSeg_fits h head payload), inputSeg_acks h, List.append_assoc]

/-- Too few bytes for a header ask for nothing. -/
theorem ackedLoop_short {data : List Byte} (h : data.length < ikcpOverhead) (n : Nat) (st : InputSt) :
    ackedLoop n data st = [] := by
  cases n with
  | zero => rfl
  | succ n =>
    have hstop : parseSeg st.kcp.conv data = .stop := if_pos h
    rw [ackedLoop, hstop]

/-- **A datagram**, wherever it is given up. -/
theorem pvpIkcpInput_acks (h : k.desk.Fits) (data : List Byte) (current : IUINT32) :
    acks (pvpIkcpInput k data current).2 = acks k ++ arrivals k (.input data current) := by
  have henter : acks (inputEnter k current) = acks k := congrArg Desk.acks (inputEnter_desk k current)
  let st : InputSt := { kcp := inputEnter k current, flag := false, maxack := 0 }
  have hst : st.kcp.desk.Fits := by
    show (inputEnter k current).desk.Fits
    rw [inputEnter_desk]
    exact h
  have hloop : acks (inputLoop data.length data st).2.kcp
      = acks k ++ ackedLoop data.length data st := by
    rw [inputLoop_acks data.length data hst, henter]
  -- what follows the loop is timing and the congestion window
  have hend : ∀ k' una, acks (inputCwnd k' una) = acks k' := by
    intro k' una
    rw [acks_desk, inputCwnd_desk]
    rfl
  rw [arrivals, pvpIkcpInput]
  dsimp only
  split
  · rename_i hshort
    rw [ackedLoop_short hshort, List.append_nil]
    exact henter
  · generalize inputLoop data.length data _ = r at hloop
    obtain ⟨ret, st'⟩ := r
    cases ret with
    | some ret => exact hloop
    | none =>
      dsimp only
      rw [hend]
      split
      · rw [acks_desk, ikcpParseFastack_desk]
        exact hloop
      · exact hloop

end Arrivals

/-! ## Calls -/

/-- A call of which `r` is left: what waits to be sent is as it must be, and the relay has kept its
    law. -/
structure Relayed (conv : IUINT32) (short : Prop) (k : IKCPCB) (came : List (IUINT32 × IUINT32))
    (r : IKCPCB × List (IKCPCB × List Byte)) : Prop where
  fit : Fit conv short r.1.sndHalf
  law : ∃ gone, Carry (Legible conv short) gone (r.2.map Prod.snd)
    ∧ Relays (acks k) came gone (acks r.1)

section Relaying

variable {conv : IUINT32} {short : Prop} {k k' : IKCPCB}

/-- Nothing is output, and the desk is left alone. -/
theorem Relayed.rest (hfit : Fit conv short k'.sndHalf) (hdesk : k'.desk = k.desk) :
    Relayed conv short k [] (k', []) := by
  have hacks : acks k' = acks k := congrArg Desk.acks hdesk
  refine ⟨hfit, [], .nothing, ?_⟩
  rw [hacks]
  exact .rest _

/-- A sender took all pairs. -/
theorem Relayed.drain {r : IKCPCB × List (IKCPCB × List Byte)} (hfit : Fit conv short r.1.sndHalf)
    (hcarry : Carry (Legible conv short) (acks k) (r.2.map Prod.snd)) (hcount : r.1.ackcount = 0) :
    Relayed conv short k [] r := by
  have hacks : acks r.1 = [] := by
    rw [acks, hcount]
    rfl
  refine ⟨hfit, acks k, hcarry, ?_⟩
  rw [hacks]
  exact .drain _

theorem flush_relayed (h : Fit conv short k.sndHalf) : Relayed conv short k [] (pvpIkcpFlush k) := by
  by_cases hupdated : k.updated = true
  · obtain ⟨cwnd, -, hdesk⟩ := pvpIkcpFlush_desk hupdated
    have hem := fit_emitter h
    refine .drain (pvpIkcpFlush_emits hem ⟨rfl, h⟩).1.2 (pvpIkcpFlush_carry hem ⟨rfl, h⟩ hupdated) ?_
    exact congrArg Desk.ackcount hdesk
  · rw [pvpIkcpFlush, if_pos (Bool.eq_false_of_not_eq_true hupdated)]
    exact .rest h rfl

theorem update_relayed (h : Fit conv short k.sndHalf) (current : IUINT32) :
    Relayed conv short k [] (pvpIkcpUpdate k current) := by
  have hground := updateHead_ground k current
  have hdesk := updateHead_desk k current
  rw [pvpIkcpUpdate]
  generalize updateHead k current = r at hground hdesk
  obtain ⟨flush, k₀⟩ := r
  dsimp only at hground hdesk ⊢
  have h₀ : Fit conv short k₀.sndHalf := fit_digest.same h hground
  have hacks : acks k₀ = acks k := congrArg Desk.acks hdesk
  have hmid : Relayed conv short k [] (if flush then pvpIkcpFlush k₀ else (k₀, [])) := by
    split
    · obtain ⟨hfit, gone, hcarry, hlaw⟩ := flush_relayed h₀
      exact ⟨hfit, gone, hcarry, hacks ▸ hlaw⟩
    · exact .rest h₀ hdesk
  obtain ⟨hfit, gone, hcarry, hlaw⟩ := hmid
  have hlost : acks (pvpIkcpUpdateLost (if flush then pvpIkcpFlush k₀ else (k₀, [])).1 current)
      = acks (if flush then pvpIkcpFlush k₀ else (k₀, [])).1 :=
    congrArg Desk.acks (pvpIkcpUpdateLost_desk _ current)
  exact ⟨fit_digest.same hfit (pvpIkcpUpdateLost_ground _ current), gone, hcarry, hlost ▸ hlaw⟩

theorem sendEx_relayed (h : Fit conv short k.sndHalf) (msg : List Byte) (current : IUINT32) :
    Relayed conv short k [] (pvpIkcpSendEx k msg current).2 := by
  have hsend := h.send msg current
  have hdesk := pvpIkcpSend_desk k msg current
  rw [pvpIkcpSendEx]
  generalize pvpIkcpSend k msg current = r at hsend hdesk
  obtain ⟨ret, k₁⟩ := r
  dsimp only at hsend hdesk ⊢
  split
  · -- a message that is refused, or a block that was never updated: nothing is sent
    exact .rest hsend hdesk
  split
  · exact .rest hsend hdesk
  generalize hk : (if current.toNat > 0 then { k₁ with current := current } else k₁) = k₀
  have h₀ : Fit conv short k₀.sndHalf ∧ k₀.desk = k.desk := by
    rw [← hk]
    split
    · exact ⟨hsend, hdesk⟩
    · exact ⟨hsend, hdesk⟩
  have hem := fit_emitter h₀.1
  have hacks : acks k₀ = acks k := congrArg Desk.acks h₀.2
  refine .drain (sendExFlush_emits hem ⟨rfl, h₀.1⟩ hk).block.2 ?_ ?_
  · rw [← hacks]
    exact sendExFlush_carry hem ⟨rfl, h₀.1⟩ hk
  · exact congrArg Desk.ackcount (sendExFlush_desk k₁ current)

/-- **Every call keeps the law.** -/
theorem call_relayed (h : Fit conv short k.sndHalf) (hfits : k.desk.Fits) (c : Call) :
    Relayed conv short k (arrivals k c) (c.run k) := by
  cases c with
  | send msg current => exact .rest (h.send msg current) (pvpIkcpSend_desk k msg current)
  | sendEx msg current => exact sendEx_relayed h msg current
  | update current => exact update_relayed h current
  | flush => exact flush_relayed h
  | recv len =>
    have hsnd : (pvpIkcpRecv k len).2.sndHalf = k.sndHalf :=
      congrArg Ground.snd (pvpIkcpRecv_sending k len)
    exact .rest (hsnd ▸ h) (pvpIkcpRecv_desk k len)
  | input data current =>
    refine ⟨fit_digest.input h data current, [], .nothing, ?_⟩
    show Relays (acks k) _ [] (acks (pvpIkcpInput k data current).2)
    rw [pvpIkcpInput_acks hfits]
    exact .accept _ _
  | nodelay on interval resend nc =>
    obtain ⟨_, _, _, _, _, hset⟩ := pvpIkcpNodelay_eq k on interval resend nc
    rw [Call.run, hset]
    exact .rest h rfl
  | wndsize sndwnd rcvwnd =>
    obtain ⟨_, _, hset⟩ := pvpIkcpWndsize_eq k sndwnd rcvwnd
    rw [Call.run, hset]
    exact .rest ⟨h.number, h.buf, h.mss, h.queue, h.lens⟩ rfl
  | setdupsend count dupack dupDynamic dupWait dupWndOn =>
    refine ⟨h, [], .nothing, ?_⟩
    exact .rest (acks k)
  | intervalLost interval => exact .rest h rfl
  | fields rxMinrto fastresend => exact .rest h rfl

end Relaying

/-! ## Runs -/

/-- A run so far: the block, the datagrams it output, and the pairs its peer asked for.  The last
    two are kept beside the block; no call looks at them. -/
structure Journal where
  kcp : IKCPCB
  sent : List (List Byte) := []
  arrived : List (IUINT32 × IUINT32) := []

def Journal.call (j : Journal) (c : Call) : Journal where
  kcp := (c.run j.kcp).1
  sent := j.sent ++ (c.run j.kcp).2.map Prod.snd
  arrived := j.arrived ++ arrivals j.kcp c

/-- The journal of the calls made on `k`, in order. -/
def journal (k : IKCPCB) (calls : List Call) : Journal := calls.foldl Journal.call { kcp := k }

/-- A pair as it travels: `sn` in 16 bits. -/
def onWire (pair : IUINT32 × IUINT32) : IUINT16 × IUINT32 := (pair.1.setWidth 16, pair.2)

/-- The acknowledgements that the decoder finds in a datagram. -/
def acksIn (conv : IUINT32) (data : List Byte) : List (IUINT16 × IUINT32) :=
  (parseSegs conv data.length data).2.1.filterMap fun seg =>
    if seg.1.cmd = ikcpCmdAck then some (seg.1.tmpSn, seg.1.ts) else none

/-- The decoder finds what was encoded. -/
theorem acksIn_segs {conv : IUINT32} {segs : List IKCPSEG} (h : ∀ seg ∈ segs, Accepted conv seg) :
    acksIn conv (segs.flatMap ikcpSegBytes) = (ackPairs segs).map onWire := by
  rw [acksIn, parseSegs_packed segs _ (length_segs_le segs) h, ackPairs, List.map_filterMap,
    List.filterMap_map]
  apply List.filterMap_congr
  intro seg _
  show (if seg.cmd = ikcpCmdAck then _ else _) = _
  rw [ackPair]
  split
  · rfl
  · rfl

/-- Datagram by datagram.  Induction on the datagrams. -/
theorem acksIn_datagrams {conv : IUINT32} (datagrams : List (List IKCPSEG))
    (h : ∀ seg ∈ datagrams.flatten, Accepted conv seg) :
    (datagrams.map (List.flatMap ikcpSegBytes)).flatMap (acksIn conv)
      = (ackPairs datagrams.flatten).map onWire := by
  induction datagrams with
  | nil => rfl
  | cons segs datagrams ih =>
    rw [List.flatten_cons] at h
    rw [List.map_cons, List.flatMap_cons, List.flatten_cons, ackPairs_append, List.map_append,
      acksIn_segs fun seg hs => h seg (List.mem_append_left _ hs),
      ih fun seg hs => h seg (List.mem_append_right _ hs)]

/-- A block whose list of pairs is empty, in an array as large as it is said to be, and whose
    `snd_buf` holds data of its own conversation. -/
structure AcksEmpty (k : IKCPCB) : Prop where
  empty : k.ackcount = 0
  array : k.acklist.length = k.ackblock * 2
  buf : ∀ seg ∈ k.sndBuf, seg.conv = k.conv ∧ seg.cmd = ikcpCmdPush

/-- The length of every segment fits the 16 bits it travels in. -/
structure LenFits (k : IKCPCB) : Prop where
  mss : k.mss < 2 ^ 16
  queue : ∀ seg ∈ k.sndQueue, seg.len < 2 ^ 16
  buf : ∀ seg ∈ k.sndBuf, seg.len < 2 ^ 16

theorem AcksEmpty.fit {k : IKCPCB} (h : AcksEmpty k) : Fit k.conv (LenFits k) k.sndHalf := by
  refine ⟨rfl, ?_, LenFits.mss, ?_, ?_⟩
  · intro e he
    obtain ⟨seg, hs, rfl⟩ := List.mem_map.mp he
    exact h.buf seg hs
  · intro hshort f hf
    obtain ⟨seg, hs, rfl⟩ := List.mem_map.mp hf
    exact hshort.queue seg hs
  · intro hshort e he f hf
    obtain ⟨seg, hs, rfl⟩ := List.mem_map.mp he
    cases hf
    exact hshort.buf seg hs

/-- The law over a run. -/
structure Exact (conv : IUINT32) (short : Prop) (j : Journal) : Prop where
  fit : Fit conv short j.kcp.sndHalf
  fits : j.kcp.desk.Fits
  law : ∃ gone, Carry (Legible conv short) gone j.sent ∧ Relays [] j.arrived gone (acks j.kcp)

/-- **One call more.** -/
theorem Exact.call {conv : IUINT32} {short : Prop} {j : Journal} (h : Exact conv short j) (c : Call) :
    Exact conv short (j.call c) := by
  obtain ⟨gone, hcarry, hlaw⟩ := h.law
  obtain ⟨hfit, gone', hcarry', hlaw'⟩ := call_relayed h.fit h.fits c
  exact ⟨hfit, call_fits h.fits c, gone ++ gone', hcarry.append hcarry', hlaw.trans hlaw'⟩

/-- **Any run.**  Induction on its calls. -/
theorem Exact.run {conv : IUINT32} {short : Prop} {j : Journal} (h : Exact conv short j)
    (calls : List Call) : Exact conv short (calls.foldl Journal.call j) := by
  induction calls generalizing j with
  | nil => exact h
  | cons c calls ih => exact ih (h.call c)

/-- **Acknowledgements are sent exactly once.**  In every run from a block that has none to send, the
    datagrams are made of segments whose acknowledgements, in order, followed by the pairs that still
    wait, are the pairs that the datagrams taken in asked for; and the bytes say so. -/
theorem acks_exactly_once {k : IKCPCB} (h : AcksEmpty k) (calls : List Call) :
    ∃ datagrams : List (List IKCPSEG),
      (journal k calls).sent = datagrams.map (List.flatMap ikcpSegBytes)
        ∧ ackPairs datagrams.flatten ++ acks (journal k calls).kcp = (journal k calls).arrived
        ∧ (LenFits k → (journal k calls).sent.flatMap (acksIn k.conv)
          = (ackPairs datagrams.flatten).map onWire) := by
  have hacks : acks k = [] := by
    rw [acks, h.empty]
    rfl
  -- an empty list before, nothing come in and nothing gone out
  have hstart : Exact k.conv (LenFits k) { kcp := k } := by
    refine ⟨h.fit, ⟨h.array, ?_⟩, [], .nothing, ?_⟩
    · show k.ackcount ≤ k.ackblock
      rw [h.empty]
      exact Nat.zero_le _
    · show Relays [] [] [] (acks k)
      rw [hacks]
      exact .rest []
  obtain ⟨gone, ⟨datagrams, hsent, hlegible, hgone⟩, hlaw⟩ := (hstart.run calls).law
  refine ⟨datagrams, hsent, ?_, ?_⟩
  · rw [ackPairs, hgone]
    exact hlaw.all
  · intro hshort
    rw [journal, hsent]
    exact acksIn_datagrams datagrams fun seg hs => hlegible seg hs hshort

/-- Every block that was created, configured and used in any way is such a block whenever no pair
    waits. -/
theorem Runs.acksEmpty {k : IKCPCB} (h : Runs (fun k => ∃ conv, Configured conv k) (fun _ => True) k)
    (hnone : k.ackcount = 0) : AcksEmpty k := by
  have hinv : Fit k.conv False k.sndHalf ∧ k.desk.Fits := by
    refine h.inv (I := fun k => Fit k.conv False k.sndHalf ∧ k.desk.Fits) ?_ ?_
    · rintro k ⟨conv, hk⟩
      obtain ⟨-, -, hbuf, -⟩ := hk.fresh.empty
      refine ⟨⟨rfl, ?_, False.elim, fun hf => hf.elim, fun hf => hf.elim⟩, hk.idle.2⟩
      intro e he
      have he : e ∈ k.sndBuf.map IKCPSEG.key := he
      rw [hbuf] at he
      exact absurd he List.not_mem_nil
    · rintro k c ⟨hfit, hfits⟩ -
      have hnext := (call_relayed hfit hfits c).fit
      have hconv : (c.run k).1.conv = k.conv := hnext.number
      exact ⟨hconv ▸ hnext, call_fits hfits c⟩
  refine ⟨hnone, hinv.2.length, ?_⟩
  intro seg hs
  exact hinv.1.buf _ (List.mem_map_of_mem hs)

/-- Two segments arrive in one datagram, one of them again in the next; the first flush answers the
    first datagram. -/
theorem acks_exactly_once_two :
    let first : List Byte := [7, 0, 0, 0, 81, 0, 0, 128, 0, 20, 0, 0, 0, 0, 0, 0, 0, 1, 0, 9,
      7, 0, 0, 0, 81, 0, 0, 128, 0, 21, 0, 0, 0, 1, 0, 0, 0, 1, 0, 9]
    let again : List Byte := [7, 0, 0, 0, 81, 0, 0, 128, 0, 30, 0, 0, 0, 0, 0, 0, 0, 1, 0, 9]
    let j := journal (pvpIkcpCreate 7) [.update 10, .input first 20, .flush, .input again 30]
    j.arrived = [(0, 20), (1, 21), (0, 30)] ∧ acks j.kcp = [(0, 30)]
      ∧ j.sent.flatMap (acksIn 7) = [(0, 20), (1, 21)]
      ∧ ∃ datagrams : List (List IKCPSEG), j.sent = datagrams.map (List.flatMap ikcpSegBytes)
        ∧ ackPairs datagrams.flatten ++ acks j.kcp = j.arrived := by
  intro first again j
  refine ⟨by decide +kernel, by decide +kernel, by decide +kernel, ?_⟩
  obtain ⟨datagrams, hsent, hpairs, -⟩ := acks_exactly_once (k := pvpIkcpCreate 7)
    ⟨rfl, rfl, fun _ hs => absurd hs List.not_mem_nil⟩
    [.update 10, .input first 20, .flush, .input again 30]
  exact ⟨datagrams, hsent, hpairs⟩

end ConnClient.Ikcp
