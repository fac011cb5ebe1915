/-
  Datagrams: strings of whole segments.

  Everything a sender puts between two calls of `ikcp_output` is a sequence of encoded segments, and
  `pvp_ikcp_input` cuts a datagram back into exactly these.  `Packed G` is the first half, kept by
  the buffer operations of `ConnClient.Ikcp.Flush`; `inputLoop_packed` is the second: on such a
  datagram the loop of `pvp_ikcp_input` is a fold over its segments and never returns early.
-/
import ConnClient.Ikcp.Flush

namespace ConnClient.Ikcp

open ConnClient.Lib

/-- `bytes` are the encodings of some segments, all with property `G`. -/
def Packed (G : IKCPSEG → Prop) (bytes : List Byte) : Prop :=
  ∃ segs : List IKCPSEG, bytes = segs.flatMap ikcpSegBytes ∧ ∀ seg ∈ segs, G seg

variable {G : IKCPSEG → Prop}

theorem packed_nil : Packed G [] := ⟨[], rfl, fun _ h => nomatch h⟩

theorem Packed.snoc {bytes : List Byte} {seg : IKCPSEG} (h : Packed G bytes) (hg : G seg) :
    Packed G (bytes ++ ikcpSegBytes seg) := by
  obtain ⟨segs, rfl, hsegs⟩ := h
  refine ⟨segs ++ [seg], by rw [List.flatMap_append, List.flatMap_singleton], fun s hs => ?_⟩
  rcases List.mem_append.mp hs with hs | hs
  · exact hsegs s hs
  · rw [List.mem_singleton.mp hs]
    exact hg

theorem Packed.mono {G' : IKCPSEG → Prop} {bytes : List Byte} (h : Packed G bytes)
    (hG : ∀ seg, G seg → G' seg) : Packed G' bytes := by
  obtain ⟨segs, hb, hsegs⟩ := h
  exact ⟨segs, hb, fun s hs => hG s (hsegs s hs)⟩

/-- A segment without payload is its header. -/
theorem ikcpSegBytes_control {seg : IKCPSEG} (h : seg.data = []) :
    ikcpEncodeSeg seg = ikcpSegBytes seg := by
  rw [ikcpSegBytes, h, List.append_nil]

/-! ## The buffer of a sender -/

/-- Both the buffer and what was output are packed. -/
structure PackedOut (G : IKCPSEG → Prop) (out : Out) : Prop where
  ptr : Packed G out.ptr
  sent : ∀ d ∈ out.sent, Packed G d.2

theorem PackedOut.output {out : Out} (h : PackedOut G out) : PackedOut G (ikcpOutput out) := by
  rw [ikcpOutput]
  split
  · exact h
  · refine ⟨packed_nil, fun d hd => ?_⟩
    rcases List.mem_append.mp hd with hd | hd
    · exact h.sent d hd
    · rw [List.mem_singleton.mp hd]
      exact h.ptr

theorem PackedOut.makeRoom {out : Out} (h : PackedOut G out) (need : Nat) :
    PackedOut G (makeRoom need out) := by
  rw [Ikcp.makeRoom]
  split
  · exact h.output
  · exact h

theorem PackedOut.put {out : Out} {seg : IKCPSEG} (h : PackedOut G out) (hg : G seg) :
    PackedOut G (out.put (ikcpSegBytes seg)) :=
  ⟨h.ptr.snoc hg, h.sent⟩

theorem PackedOut.upd {out : Out} (h : PackedOut G out) (f : IKCPCB → IKCPCB) :
    PackedOut G (out.upd f) :=
  ⟨h.ptr, h.sent⟩

@[simp] theorem ikcpOutput_kcp (out : Out) : (ikcpOutput out).kcp = out.kcp := by
  rw [ikcpOutput]
  split <;> rfl

@[simp] theorem makeRoom_kcp (need : Nat) (out : Out) : (makeRoom need out).kcp = out.kcp := by
  rw [makeRoom]
  split
  · exact ikcpOutput_kcp out
  · rfl

@[simp] theorem put_kcp (bytes : List Byte) (out : Out) : (out.put bytes).kcp = out.kcp := rfl

@[simp] theorem upd_kcp (f : IKCPCB → IKCPCB) (out : Out) : (out.upd f).kcp = f out.kcp := rfl

/-! ## Cutting a datagram -/

/-- What `pvp_ikcp_input` accepts of a segment. -/
structure Accepted (conv : IUINT32) (seg : IKCPSEG) : Prop where
  conv : seg.conv = conv
  len : seg.len < 2 ^ 16
  cmd : seg.cmd = ikcpCmdPush ∨ seg.cmd = ikcpCmdAck ∨ seg.cmd = ikcpCmdWask
    ∨ seg.cmd = ikcpCmdWins ∨ seg.cmd = ikcpCmdDups

/-- One round finds the first segment, whole. -/
theorem parseSeg_segBytes {conv : IUINT32} {seg : IKCPSEG} (h : Accepted conv seg)
    (rest : List Byte) :
    parseSeg conv (ikcpSegBytes seg ++ rest) = .seg seg.head seg.data rest := by
  have hlen : ¬ (ikcpSegBytes seg ++ rest).length < ikcpOverhead := by
    rw [List.length_append, length_ikcpSegBytes]
    omega
  have hconv : (ikcpDecode32u (ikcpSegBytes seg ++ rest)).1 = conv := by
    rw [ikcpSegBytes, ikcpEncodeSeg]
    simp only [List.append_assoc]
    rw [ikcpDecode32u_encode, h.conv]
  have hhead : ikcpDecodeHead (ikcpSegBytes seg ++ rest) = (seg.head, seg.data ++ rest) := by
    rw [ikcpSegBytes, List.append_assoc, ikcpDecodeHead_encode]
  have hsize : seg.head.len.toNat = seg.data.length := by
    show (BitVec.ofNat 16 seg.len).toNat = _
    rw [BitVec.toNat_ofNat, Nat.mod_eq_of_lt h.len, IKCPSEG.len]
  have hcmd : ¬ (seg.head.cmd ≠ ikcpCmdPush ∧ seg.head.cmd ≠ ikcpCmdAck
      ∧ seg.head.cmd ≠ ikcpCmdWask ∧ seg.head.cmd ≠ ikcpCmdWins ∧ seg.head.cmd ≠ ikcpCmdDups) := by
    rintro ⟨h1, h2, h3, h4, h5⟩
    rcases h.cmd with hc | hc | hc | hc | hc
    · exact h1 hc
    · exact h2 hc
    · exact h3 hc
    · exact h4 hc
    · exact h5 hc
  rw [parseSeg, if_neg hlen, if_neg (not_not_intro hconv), hhead]
  dsimp only
  rw [hsize, if_neg (by rw [List.length_append]; omega), if_neg hcmd, List.take_left, List.drop_left]

/-- Fewer bytes than a header are not looked at. -/
theorem parseSeg_nil (conv : IUINT32) : parseSeg conv [] = .stop := rfl

/-- What a whole datagram does to the state, segment by segment. -/
def inputSegs (segs : List IKCPSEG) (st : InputSt) : InputSt :=
  segs.foldl (fun st seg => inputSeg st seg.head seg.data) st

/-- A property of the state that one segment keeps, and that fixes `conv`, makes the loop of
    `pvp_ikcp_input` a fold.  Induction on the segments; `n` bounds the rounds. -/
theorem inputLoop_packed {conv : IUINT32} (hconv : ∀ (st : InputSt) (seg : IKCPSEG),
      (inputSeg st seg.head seg.data).kcp.conv = st.kcp.conv) :
    ∀ (segs : List IKCPSEG) (n : Nat) (st : InputSt), segs.length ≤ n → st.kcp.conv = conv →
      (∀ seg ∈ segs, Accepted conv seg) →
      inputLoop n (segs.flatMap ikcpSegBytes) st = (none, inputSegs segs st)
  | [], 0, st, _, _, _ => rfl
  | [], n + 1, st, _, _, _ => by
    rw [List.flatMap_nil, inputLoop, parseSeg_nil]
    rfl
  | seg :: segs, 0, st, hn, _, _ => absurd hn (Nat.not_succ_le_zero _)
  | seg :: segs, n + 1, st, hn, hc, hsegs => by
    rw [List.flatMap_cons, inputLoop, hc, parseSeg_segBytes (hsegs seg (List.mem_cons_self ..))]
    exact inputLoop_packed hconv segs n (inputSeg st seg.head seg.data)
      (Nat.le_of_succ_le_succ hn) ((hconv st seg).trans hc)
      (fun s hs => hsegs s (List.mem_cons_of_mem _ hs))

/-- Every segment takes a header, so the bytes bound the segments. -/
theorem length_segs_le : ∀ segs : List IKCPSEG, segs.length ≤ (segs.flatMap ikcpSegBytes).length
  | [] => Nat.le_refl _
  | seg :: segs => by
    have := length_segs_le segs
    rw [List.flatMap_cons, List.length_append, length_ikcpSegBytes, List.length_cons, ikcpOverhead]
    omega

end ConnClient.Ikcp
