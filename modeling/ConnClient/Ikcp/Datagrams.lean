/-
  What a peer reads in a datagram.

  Five kinds of segment go through one buffer: acknowledgements, the two probing commands, data, and
  redundant copies of data.  Each is put there whole, behind a test that it fits; so a datagram is at
  most `mtu` long and is a string of whole segments, and a peer that decodes it finds these segments
  and nothing else (`datagram_parses`).

  What that takes of a block is `Sized`: a segment waiting to be sent has at most `mss` bytes, so that
  it fits a datagram and its length 16 bits, and a mark of less than `10000`, so that it fits 16 bits
  too.  No call but the creation of the block could break that.
-/
import ConnClient.Ikcp.Calls

namespace ConnClient.Ikcp

open ConnClient.Lib

/-! ## The decoder alone -/

/-- The rounds of `pvp_ikcp_input` without what is done with the segments: the value returned from
    inside the loop, the segments, and the bytes that are left. -/
def parseSegs (conv : IUINT32) :
    Nat → List Byte → Option Int × List (SegHead × List Byte) × List Byte
  | 0, data => (none, [], data)
  | n + 1, data =>
    match parseSeg conv data with
    | .stop => (none, [], data)
    | .fail ret => (some ret, [], data)
    | .seg head payload rest =>
      let (ret, segs, left) := parseSegs conv n rest
      (ret, (head, payload) :: segs, left)

/-- No datagram changes the `conv`. -/
theorem digest_conv (conv : IUINT32) : Digest fun k => k.conv = conv where
  same h he := (congrArg (fun g => g.snd.conv) he).trans h
  settle h hs := (congrArg SndHalf.conv hs.snd).trans h
  data h _ _ := (congrArg (fun g => g.snd.conv) (ikcpParseData_sending ..)).trans h

/-- The loop of `pvp_ikcp_input` finds what the decoder finds.  Induction on the rounds. -/
theorem inputLoop_parseSegs {conv : IUINT32} :
    ∀ (n : Nat) (data : List Byte) (st : InputSt), st.kcp.conv = conv →
      inputLoop n data st = ((parseSegs conv n data).1,
        (parseSegs conv n data).2.1.foldl (fun st seg => inputSeg st seg.1 seg.2) st)
  | 0, _, _, _ => rfl
  | n + 1, data, st, hc => by
    unfold inputLoop parseSegs
    rw [hc]
    cases parseSeg conv data with
    | stop => rfl
    | fail ret => rfl
    | seg head payload rest =>
      exact inputLoop_parseSegs n rest _ ((digest_conv conv).inputSeg hc head payload)

/-- On a string of whole segments the decoder finds them all, whole.  Induction on the segments; `n`
    bounds the rounds. -/
theorem parseSegs_packed {conv : IUINT32} :
    ∀ (segs : List IKCPSEG) (n : Nat), segs.length ≤ n → (∀ seg ∈ segs, Accepted conv seg) →
      parseSegs conv n (segs.flatMap ikcpSegBytes)
        = (none, segs.map fun seg => (seg.head, seg.data), [])
  | [], 0, _, _ => rfl
  | [], _ + 1, _, _ => rfl
  | _ :: _, 0, hn, _ => absurd hn (Nat.not_succ_le_zero _)
  | seg :: segs, n + 1, hn, h => by
    have hrest := parseSegs_packed segs n (Nat.le_of_succ_le_succ hn) fun s hs =>
      h s (List.mem_cons_of_mem _ hs)
    rw [List.flatMap_cons, parseSegs, parseSeg_segBytes (h seg (List.mem_cons_self ..))]
    dsimp only
    rw [hrest]
    rfl

/-! ## Sizes -/

/-- A fragment that fits a segment of `mss` bytes and a 16-bit mark. -/
def FragFits (mss : Nat) (f : Nat × List Byte) : Prop := f.2.length ≤ mss ∧ f.1 < 2 ^ 16

/-- What waits to be sent under this `mtu` fits the wire format. -/
structure Sized (mtu : Nat) (h : SndHalf) : Prop where
  mtu : h.mss + ikcpOverhead = mtu
  small : h.mss < 2 ^ 16
  stream : h.stream = 0
  queue : ∀ f ∈ h.sndQueue, FragFits h.mss f
  buf : ∀ e ∈ h.sndBuf, e.1 = h.conv ∧ e.2.1 = ikcpCmdPush ∧ ∀ f, e.2.2.2 = some f → FragFits h.mss f

theorem sized_sndInv : SndInv fun k => Sized k.mtu k.sndHalf where
  sending := by
    intro k k' h he
    have hsnd : k'.sndHalf = k.sndHalf := congrArg Ground.snd he
    have hmtu : k'.mtu = k.mtu := congrArg Ground.mtu he
    rw [hsnd, hmtu]
    exact h
  settle := by
    intro k k' h hs
    have hmtu : k'.mtu = k.mtu := congrArg Ground.mtu hs.rest
    rw [hmtu, hs.snd]
    exact ⟨h.mtu, h.small, h.stream, h.queue, fun e he => h.buf e (hs.sub.subset he)⟩
  stream h := h.stream
  push h hs := (h.buf _ (List.mem_map_of_mem hs)).2.1
  move := by
    intro k seg rest cwnd h hq _ _ _ current wnd
    have hqueue : ∀ f ∈ (seg :: rest).map IKCPSEG.unit, FragFits k.mss f := hq ▸ h.queue
    refine ⟨h.mtu, h.small, h.stream, fun f hf => hqueue f (List.mem_cons_of_mem _ hf), ?_⟩
    intro e he
    have he : e ∈ (k.sndBuf ++ [newSegment k current wnd seg]).map IKCPSEG.key := he
    rw [List.map_append] at he
    rcases List.mem_append.mp he with he | he
    · exact h.buf e he
    · rw [List.mem_singleton.mp he]
      refine ⟨rfl, rfl, fun f hf => ?_⟩
      cases hf
      exact hqueue _ (List.mem_cons_self ..)
  queue := by
    intro k buffer h hcount
    refine ⟨h.mtu, h.small, h.stream, fun f hf => ?_, h.buf⟩
    have hstream : k.stream = 0 := h.stream
    have hf : f ∈ (k.sndQueue ++ sendFragments k.mss k.stream
        (fragmentCount k.mss buffer.length) buffer).map IKCPSEG.unit := hf
    rw [hstream, List.map_append] at hf
    rcases List.mem_append.mp hf with hf | hf
    · exact h.queue f hf
    · obtain ⟨hmark, hlen⟩ := sendFragments_bounds _ _ _ _ f hf
      refine ⟨hlen, ?_⟩
      omega

/-! ## What is on the wire -/

/-- A segment as block `k` puts it on the wire. -/
structure Sent (k : IKCPCB) (seg : IKCPSEG) : Prop where
  accepted : Accepted k.conv seg
  wnd : seg.wnd = ikcpWndUnused k
  una : seg.una = k.rcvNxt
  frg : seg.frg.toNat < 2 ^ 16

theorem sent_labels : Labels (fun k => Sized k.mtu k.sndHalf) Sent where
  congr hrcv hconv _ h :=
    ⟨hconv ▸ h.accepted, h.wnd.trans (ikcpWndUnused_congr hrcv),
      h.una.trans (congrArg RcvHalf.rcvNxt hrcv), h.frg⟩
  control := by
    intro k seg _ hc
    refine ⟨⟨hc.conv, ?_, ?_⟩, hc.wnd, hc.una, ?_⟩
    · rw [IKCPSEG.len, hc.data]
      decide
    · rcases hc.cmd with h | h | h
      · exact Or.inr (Or.inl h)
      · exact Or.inr (Or.inr (Or.inl h))
      · exact Or.inr (Or.inr (Or.inr (Or.inl h)))
    · rw [hc.frg]
      decide
  data := by
    intro k₀ k seg copy h hconv _ hs hc
    obtain ⟨hsegconv, -, hfits⟩ := h.buf _ (List.mem_map_of_mem hs)
    have hunit : copy.unit = seg.unit := Option.some.inj (congrArg Prod.snd hc.numbered)
    obtain ⟨hlen, hfrg⟩ := hfits seg.unit rfl
    have hsmall := h.small
    refine ⟨⟨hc.conv.trans (Eq.trans hsegconv hconv), ?_, ?_⟩, hc.wnd, hc.una, ?_⟩
    · have hle : copy.unit.2.length ≤ k.sndHalf.mss := hunit ▸ hlen
      exact Nat.lt_of_le_of_lt hle hsmall
    · exact hc.cmd.imp_right fun h => Or.inr (Or.inr (Or.inr h))
    · rw [hc.frg]
      exact hfrg

theorem sized_roomy : Roomy fun k => Sized k.mtu k.sndHalf := by
  intro k h
  have hmtu : k.mss + ikcpOverhead = k.mtu := h.mtu
  refine ⟨by omega, fun seg hs => ?_⟩
  have hlen : seg.len ≤ k.mss := ((h.buf _ (List.mem_map_of_mem hs)).2.2 seg.unit rfl).1
  omega

/-! ## Every run -/

/-- A block at creation: configured in any way that leaves a segment's length to 16 bits. -/
def Created (k : IKCPCB) : Prop := (∃ conv, Configured conv k) ∧ k.mss < 2 ^ 16

/-- A segment and its header fill a datagram. -/
theorem Configured.mtu {conv : IUINT32} {k : IKCPCB} (h : Configured conv k) :
    k.mss + ikcpOverhead = k.mtu := by
  obtain ⟨s, rfl⟩ := h.settings
  exact Nat.sub_add_cancel s.roomy.le

theorem Created.sized {k : IKCPCB} (h : Created k) : Sized k.mtu k.sndHalf := by
  obtain ⟨⟨conv, hk⟩, hsmall⟩ := h
  have hfresh := hk.fresh
  refine ⟨hk.mtu, hsmall, hfresh.stream, fun f hf => ?_, fun e he => ?_⟩
  · have hf : f ∈ k.sndQueue.map IKCPSEG.unit := hf
    rw [hfresh.empty.1] at hf
    exact absurd hf List.not_mem_nil
  · have he : e ∈ k.sndBuf.map IKCPSEG.key := he
    rw [hfresh.empty.2.2.1] at he
    exact absurd he List.not_mem_nil

/-- The windows are no part of it. -/
theorem Sized.wndsize {k : IKCPCB} (h : Sized k.mtu k.sndHalf) (sndwnd rcvwnd : Int) :
    Sized (pvpIkcpWndsize k sndwnd rcvwnd).mtu (pvpIkcpWndsize k sndwnd rcvwnd).sndHalf := by
  obtain ⟨_, _, hset⟩ := pvpIkcpWndsize_eq k sndwnd rcvwnd
  rw [hset]
  exact ⟨h.mtu, h.small, h.stream, h.queue, h.buf⟩

/-- **In every run what waits to be sent fits the wire format.** -/
theorem Runs.sized {k : IKCPCB} (h : Runs Created (fun _ => True) k) : Sized k.mtu k.sndHalf := by
  refine h.inv (I := fun k => Sized k.mtu k.sndHalf) (fun k hk => hk.sized) fun k c hk _ => ?_
  exact (sized_sndInv.run sent_labels hk c fun s r _ => hk.wndsize s r).1

/-- What a peer decodes of a segment: the segment, its `sn`, `una` and `wnd` modulo `2 ^ 16`. -/
structure Decoded (seg : IKCPSEG) (found : SegHead × List Byte) : Prop where
  conv : found.1.conv = seg.conv
  cmd : found.1.cmd = seg.cmd
  frg : found.1.frg.toNat = seg.frg.toNat
  ts : found.1.ts = seg.ts
  len : found.1.len.toNat = seg.len
  payload : found.2 = seg.data
  sn : found.1.tmpSn.toNat = seg.sn.toNat % 2 ^ 16
  una : found.1.tmpUna.toNat = seg.una.toNat % 2 ^ 16
  wnd : found.1.wnd.toNat = seg.wnd.toNat % 2 ^ 16

theorem decoded_head {k : IKCPCB} {seg : IKCPSEG} (h : Sent k seg) :
    Decoded seg (seg.head, seg.data) where
  conv := rfl
  cmd := rfl
  frg := by
    show (seg.frg.setWidth 16).toNat = _
    rw [BitVec.toNat_setWidth, Nat.mod_eq_of_lt h.frg]
  ts := rfl
  len := by
    show (BitVec.ofNat 16 seg.len).toNat = _
    rw [BitVec.toNat_ofNat, Nat.mod_eq_of_lt h.accepted.len]
  payload := rfl
  sn := BitVec.toNat_setWidth ..
  una := BitVec.toNat_setWidth ..
  wnd := BitVec.toNat_setWidth ..

/-- A datagram of block `k` as its peer has it. -/
structure Readable (k : IKCPCB) (data : List Byte) : Prop where
  pos : 1 ≤ data.length
  le : data.length ≤ k.mtu
  /-- The segments that were encoded, and what the decoder finds. -/
  segs : ∃ segs found, data = segs.flatMap ikcpSegBytes
    ∧ parseSegs k.conv data.length data = (none, found, []) ∧ List.Forall₂ Decoded segs found
  /-- No peer with this `conv` refuses it. -/
  accepted : ∀ (peer : IKCPCB) current, peer.conv = k.conv → (pvpIkcpInput peer data current).1 = 0

/-- **Every datagram is made of whole segments, fits the `mtu`, and is read as it was written.** -/
theorem datagram_readable {k : IKCPCB} (hk : Runs Created (fun _ => True) k) {c : Call}
    {e : IKCPCB × List Byte} (he : e ∈ (c.run k).2) : Readable k e.2 := by
  have hsized := hk.sized
  have hout := (sized_sndInv.run sent_labels hsized c fun s r _ => hsized.wndsize s r).2 e he
  obtain ⟨segs, hdata, hsent⟩ := hout.packed
  have haccepted : ∀ seg ∈ segs, Accepted k.conv seg := fun seg hs =>
    hout.conv ▸ (hsent seg hs).accepted
  have hparse : parseSegs k.conv e.2.length e.2
      = (none, segs.map fun seg => (seg.head, seg.data), []) := by
    rw [hdata]
    exact parseSegs_packed segs _ (length_segs_le segs) haccepted
  refine ⟨hout.pos, hout.mtu ▸ hout.short sized_roomy, ⟨segs, _, hdata, hparse, ?_⟩, ?_⟩
  · exact List.forall₂_map_right_iff.mpr (List.forall₂_same.mpr fun seg hs =>
      decoded_head (hsent seg hs))
  · intro peer current hconv
    -- a datagram holds a segment, so it is longer than a header
    have hlong : ¬ e.2.length < ikcpOverhead := by
      have hpos := hout.pos
      rw [hdata] at hpos ⊢
      cases segs with
      | nil => exact absurd hpos (Nat.lt_irrefl 0)
      | cons seg segs =>
        rw [List.flatMap_cons, List.length_append, length_ikcpSegBytes]
        omega
    let st : InputSt := { kcp := inputEnter peer current, flag := false, maxack := 0 }
    have hst : st.kcp.conv = k.conv :=
      (congrArg (fun g => g.snd.conv) (inputEnter_ground peer current)).trans hconv
    have hloop := inputLoop_parseSegs e.2.length e.2 st hst
    unfold pvpIkcpInput
    dsimp only
    rw [if_neg hlong, hloop, hparse]

/-- A message of three bytes goes out at once, as one datagram. -/
theorem datagram_readable_hello :
    ∃ data, ((Call.sendEx [1, 2, 3] 20).run (pvpIkcpUpdate (pvpIkcpCreate 7) 10).1).2.map Prod.snd
      = [data] ∧ data.length = 22 ∧ Readable (pvpIkcpUpdate (pvpIkcpCreate 7) 10).1 data := by
  have hrun : Runs Created (fun _ => True) (pvpIkcpUpdate (pvpIkcpCreate 7) 10).1 := by
    refine .step (i := .update 10) (.start ⟨⟨7, .create⟩, ?_⟩) trivial rfl
    decide
  have hout : ((Call.sendEx [1, 2, 3] 20).run (pvpIkcpUpdate (pvpIkcpCreate 7) 10).1).2.map Prod.snd
      = [[7, 0, 0, 0, 81, 0, 0, 128, 0, 20, 0, 0, 0, 0, 0, 0, 0, 3, 0, 1, 2, 3]] := by decide +kernel
  refine ⟨_, hout, rfl, ?_⟩
  obtain ⟨e, he, hdata⟩ := List.mem_map.mp (hout ▸ List.mem_singleton_self _)
  exact hdata ▸ datagram_readable hrun he

end ConnClient.Ikcp
