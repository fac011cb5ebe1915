/-
  What the 16-bit fields of the header lose.

  `sn` and `wnd` are 32-bit words in memory and 16-bit words on the wire.  A peer rebuilds `sn` from its
  own `rcv_nxt`, which works for numbers less than `0x8000` ahead whatever the alignment, and for none
  further than that at every alignment; it takes `wnd` as it is.  So the fields lose nothing exactly as
  long as the window reaches no further than `0x8000`, and then the window that is offered fits its
  field by far.  `pvp_ikcp_wndsize` takes any window.
-/
import ConnClient.Ikcp.ReceiveWindow

namespace ConnClient.Ikcp

open ConnClient.Lib

/-! ## The two fields -/

/-- A number less than `0x8000` ahead of `rcv_nxt` is rebuilt. -/
theorem getId_off {rcvNxt sn : IUINT32} (h : off rcvNxt sn < 0x8000) :
    getId rcvNxt (sn.setWidth 16) = sn := by
  have hcases := itimediff_cases sn rcvNxt
  rw [off] at h
  exact getId_setWidth (by omega) (by omega)

/-- The number `0x8000` ahead is not, where the two differ in their upper half. -/
theorem getId_half : getId 0x8000 ((0x10000 : IUINT32).setWidth 16) ≠ 0x10000 := by
  decide

theorem ikcpWndUnused_le (k : IKCPCB) : (ikcpWndUnused k).toNat ≤ k.rcvWnd.toNat := by
  unfold ikcpWndUnused
  split
  · rw [BitVec.toNat_ofNat]
    have hmod := Nat.mod_le (k.rcvWnd.toNat - k.nrcvQue) (2 ^ 32)
    omega
  · exact Nat.zero_le _

/-! ## Numbers from their low halves -/

/-- **`get_id` undoes the truncation within half a range**, across the wrap as anywhere, and never
    answers with a number of another low half or further off. -/
theorem getId_undoes :
    (∀ base id : IUINT32, -0x8000 < itimediff id base → itimediff id base < 0x8000 →
        getId base (id.setWidth 16) = id) ∧
      ∀ (base : IUINT32) (v : IUINT16), (getId base v).setWidth 16 = v
        ∧ -0x8000 ≤ itimediff (getId base v) base ∧ itimediff (getId base v) base ≤ 0x8000 :=
  ⟨fun _ _ => getId_setWidth, getId_near⟩

/-- Across the wrap, in both directions, and half a range off. -/
theorem getId_undoes_wrap :
    (getId 0xfffffff0 ((0x10 : IUINT32).setWidth 16) = 0x10
      ∧ getId 0x10 ((0xfffffff0 : IUINT32).setWidth 16) = 0xfffffff0) ∧
      (getId 0x18000 0).setWidth 16 = (0 : IUINT16) ∧ itimediff (getId 0x18000 0) 0x18000 = -0x8000 :=
  ⟨⟨getId_undoes.1 _ _ (by decide) (by decide), getId_undoes.1 _ _ (by decide) (by decide)⟩,
    (getId_undoes.2 _ _).1, by decide⟩

/-! ## Blocks in use -/

/-- The window a peer reads in any segment of the outputs of a call is the one the sender had. -/
def WndRead (k : IKCPCB) (c : Call) : Prop :=
  ∀ e ∈ (c.run k).2, ∀ found ∈ (parseSegs k.conv e.2.length e.2).2.1,
    found.1.wnd.setWidth 32 = ikcpWndUnused e.1

/-- The numbers of a window of `rcvWnd` segments are rebuilt, wherever it stands. -/
def SnRead (rcvWnd : IUINT32) : Prop :=
  ∀ (rcvNxt : IUINT32) (seg : IKCPSEG), (seg.sn - rcvNxt).toNat < rcvWnd.toNat →
    getId rcvNxt (ikcpDecodeHead (ikcpEncodeSeg seg)).1.tmpSn = seg.sn

/-- The header loses nothing of what a block started as `k₀` sends, or of what is sent to it. -/
structure Lossless (k₀ : IKCPCB) : Prop where
  wnd : ∀ k, Runs (fun k => k = k₀) KeepsWindow k → ∀ c, KeepsWindow c → WndRead k c
  sn : SnRead k₀.rcvWnd

/-- In a run the window stays, and what waits to be sent fits the wire format. -/
theorem Created.runs {k₀ : IKCPCB} (h : Created k₀) {k : IKCPCB}
    (hk : Runs (fun k => k = k₀) KeepsWindow k) : Sized k.mtu k.sndHalf ∧ k.rcvWnd = k₀.rcvWnd := by
  have hplain : Plain k₀ := by
    obtain ⟨⟨conv, hconf⟩, -⟩ := h
    obtain ⟨-, -, hstream, -, -, -, hbuf, -⟩ := hconf.fresh
    refine ⟨hstream, ?_⟩
    rw [hbuf]
    exact fun _ hs => absurd hs List.not_mem_nil
  have hinv : Plain k ∧ k.rcvWnd = k₀.rcvWnd := by
    refine hk.inv (I := fun k => Plain k ∧ k.rcvWnd = k₀.rcvWnd) ?_ ?_
    · rintro k rfl
      exact ⟨hplain, rfl⟩
    · rintro k c ⟨hp, hwnd⟩ hc
      have hrun := plain_sndInv.run (labels_true _) hp c fun s r he => absurd he (hc s r)
      exact ⟨hrun.1, (call_rcvWnd hp hc).trans hwnd⟩
  have hcreated : Runs Created (fun _ => True) k :=
    Runs.mono (fun k hk => hk ▸ h) (fun _ _ => trivial) hk
  exact ⟨hcreated.sized, hinv.2⟩

/-- A window of at most `0x8000` segments fits its field, at every output. -/
theorem wndRead_of_le {k : IKCPCB} (hsized : Sized k.mtu k.sndHalf)
    (hwnd : k.rcvWnd.toNat ≤ 0x8000) {c : Call} (hc : KeepsWindow c) : WndRead k c := by
  intro e he found hfound
  have hout := (sized_sndInv.run sent_labels hsized c fun s r h => absurd h (hc s r)).2 e he
  obtain ⟨segs, hdata, hsent⟩ := hout.packed
  have haccepted : ∀ seg ∈ segs, Accepted k.conv seg := fun seg hs =>
    hout.conv ▸ (hsent seg hs).accepted
  have hparse := parseSegs_packed segs (segs.flatMap ikcpSegBytes).length (length_segs_le segs)
    haccepted
  rw [hdata, hparse] at hfound
  obtain ⟨seg, hs, rfl⟩ := List.mem_map.mp hfound
  have hle := ikcpWndUnused_le e.1
  have hsame : e.1.rcvWnd = k.rcvWnd := congrArg RcvHalf.rcvWnd hout.rcv
  rw [hsame] at hle
  show (seg.wnd.setWidth 16).setWidth 32 = ikcpWndUnused e.1
  rw [(hsent seg hs).wnd]
  apply BitVec.eq_of_toNat_eq
  rw [BitVec.toNat_setWidth, BitVec.toNat_setWidth]
  omega

/-- The numbers are rebuilt exactly when the window reaches no further than `0x8000`. -/
theorem snRead_iff (rcvWnd : IUINT32) : SnRead rcvWnd ↔ rcvWnd.toNat ≤ 0x8000 := by
  have htmp : ∀ seg : IKCPSEG, (ikcpDecodeHead (ikcpEncodeSeg seg)).1.tmpSn = seg.sn.setWidth 16 := by
    intro seg
    have hdecode := ikcpDecodeHead_encode seg []
    rw [List.append_nil] at hdecode
    rw [hdecode]
    rfl
  constructor
  · intro h
    by_contra hlong
    refine getId_half ?_
    have hseg := h 0x8000 { sn := 0x10000 } (by
      show (0x10000 - 0x8000 : IUINT32).toNat < rcvWnd.toNat
      have hdiff : (0x10000 - 0x8000 : IUINT32).toNat = 0x8000 := by decide
      omega)
    rw [htmp] at hseg
    exact hseg
  · intro h rcvNxt seg hlt
    rw [htmp]
    exact getId_off (Nat.lt_of_lt_of_le hlt h)

/-! ## Windows a header carries -/

/-- **The 16-bit fields lose nothing exactly when the window is at most `0x8000`.** -/
theorem lossless_iff {k₀ : IKCPCB} (h : Created k₀) : Lossless k₀ ↔ k₀.rcvWnd.toNat ≤ 0x8000 := by
  constructor
  · intro hl
    exact (snRead_iff _).mp hl.sn
  · intro hle
    refine ⟨fun k hk c hc => ?_, (snRead_iff _).mpr hle⟩
    obtain ⟨hsized, hwnd⟩ := h.runs hk
    exact wndRead_of_le hsized (hwnd ▸ hle) hc

/-- The widest window there may be, asked for with `pvp_ikcp_wndsize`; one below 128 is raised to it. -/
theorem lossless_widest :
    Lossless (pvpIkcpWndsize (pvpIkcpCreate 7) 32 0x8000)
      ∧ (pvpIkcpWndsize (pvpIkcpCreate 7) 32 1).rcvWnd = 128
      ∧ Lossless (pvpIkcpWndsize (pvpIkcpCreate 7) 32 1) := by
  have hcreated : ∀ wnd, Created (pvpIkcpWndsize (pvpIkcpCreate 7) 32 wnd) := by
    intro wnd
    obtain ⟨sndWnd, rcvWnd, hset⟩ := pvpIkcpWndsize_eq (pvpIkcpCreate 7) 32 wnd
    refine ⟨⟨7, .wndsize .create 32 wnd⟩, ?_⟩
    rw [hset]
    show (pvpIkcpCreate 7).mss < 2 ^ 16
    decide
  refine ⟨(lossless_iff (hcreated 0x8000)).mpr (by decide), by decide, ?_⟩
  exact (lossless_iff (hcreated 1)).mpr (by decide)

/-- **One segment more is accepted, and lost.** -/
theorem wide_window_loses : ¬ Lossless (pvpIkcpWndsize (pvpIkcpCreate 7) 32 0x8001) := by
  intro h
  have hseg := h.sn 0x8000 { sn := 0x10000 } (by decide)
  revert hseg
  decide

end ConnClient.Ikcp
