/-
  The sending window.

  Segments enter `snd_buf` in two places, behind a test that compares `snd_nxt` with the end of the
  window, and leave it in two, at the word of whatever bytes arrive.  What holds all the while is that
  the numbers of `snd_buf` stand in the window from `snd_una` up to `snd_nxt`, in order, and that this
  window is narrow: no wider than `snd_wnd`, and less than `2 ^ 16`, because the peer's window comes in
  16 bits.  So the comparisons of the code, which are signed and wrap around, compare places in the
  window, and nothing that arrives can take the buffer out of it.

  The congestion window is another matter: only `pvp_ikcp_flush` and an acknowledgement change it, and
  neither leaves it at nought.

  `Windowed` is about the sending half alone and `Sending` adds the counters, so that both are kept by whatever
  keeps the half.  What arrives is not looked at further than this: it settles a block (`Settled`), which means
  that some segments of `snd_buf` go and `snd_una` becomes the first number that is left.
-/
import ConnClient.Lib.Window
import ConnClient.Ikcp.Desk

namespace ConnClient.Ikcp

open ConnClient.Lib

/-! ## The window -/

/-- The numbers of `snd_buf`. -/
def SndHalf.numbers (h : SndHalf) : List IUINT32 := h.sndBuf.map fun e => e.2.2.1

theorem numbers_sndHalf (k : IKCPCB) : k.sndHalf.numbers = k.sndBuf.map IKCPSEG.sn := by
  simp only [SndHalf.numbers, IKCPCB.sndHalf, List.map_map]
  rfl

/-- The first number of `snd_buf`, as the code finds it. -/
theorem head_numbers (k : IKCPCB) :
    (k.sndBuf.head?.map IKCPSEG.sn).getD k.sndNxt = k.sndHalf.numbers.head?.getD k.sndNxt := by
  rw [numbers_sndHalf, List.head?_map]

/-- The sending half of a block: its window, and what the senders take for granted.  `una` says that
    `snd_una` is never behind the first segment: `ikcp_shrink_buf` sets it after every removal. -/
structure Windowed (h : SndHalf) : Prop where
  ascending : Ascending h.sndUna h.sndNxt h.numbers
  una : h.sndUna = h.numbers.head?.getD h.sndNxt
  wnd : off h.sndUna h.sndNxt ≤ h.sndWnd.toNat
  narrow : off h.sndUna h.sndNxt < 2 ^ 16
  stream : h.stream = 0
  push : ∀ e ∈ h.sndBuf, e.2.1 = ikcpCmdPush

/-- With the counters, and the peer's window in 16 bits. -/
structure Sending (k : IKCPCB) : Prop where
  windowed : Windowed k.sndHalf
  rmtWnd : k.rmtWnd.toNat < 2 ^ 16
  nsndBuf : k.nsndBuf = k.sndBuf.length
  nsndQue : k.nsndQue = k.sndQueue.length

/-- The test in front of a transfer leaves room for one number more.  It is a signed difference of
    two numbers in a narrow window, so it compares their places. -/
theorem open_window {una nxt cwnd : IUINT32} (hcwnd : cwnd.toNat < 2 ^ 16)
    (hnarrow : off una nxt < 2 ^ 16) (hopen : itimediff nxt (una + cwnd) < 0) :
    off una nxt < cwnd.toNat := by
  have hend : off una (una + cwnd) = cwnd.toNat := off_add una cwnd
  have hd : itimediff nxt (una + cwnd) = (off una nxt : Int) - cwnd.toNat := by
    rw [itimediff, sdiff_off una (by omega) (by omega), hend]
  omega

theorem sending_move {k : IKCPCB} (h : Sending k) {seg : IKCPSEG} {rest : List IKCPSEG}
    {cwnd : IUINT32} (hq : k.sndQueue = seg :: rest) (hs : cwnd.toNat ≤ k.sndWnd.toNat)
    (hr : cwnd.toNat ≤ k.rmtWnd.toNat) (hopen : itimediff k.sndNxt (k.sndUna + cwnd) < 0)
    (current wnd : IUINT32) : Sending (moveSegment current wnd seg rest k) := by
  obtain ⟨hw, hrmt, hbuf, hque⟩ := h
  have hlt : off k.sndUna k.sndNxt < cwnd.toNat :=
    open_window (Nat.lt_of_le_of_lt hr hrmt) hw.narrow hopen
  have hnarrow : off k.sndUna k.sndNxt < 2 ^ 16 := hw.narrow
  -- the new number goes at the end, one further than the last
  have hsucc : off k.sndUna (k.sndNxt + 1) = off k.sndUna k.sndNxt + 1 := off_succ (by omega)
  have hnumbers : (moveSegment current wnd seg rest k).sndHalf.numbers
      = k.sndHalf.numbers ++ [k.sndNxt] := by
    rw [numbers_sndHalf, numbers_sndHalf]
    exact List.map_append
  constructor
  · constructor
    · rw [hnumbers]
      exact hw.ascending.snoc (by show off k.sndUna k.sndNxt + 1 < _; omega)
    · -- in an empty buffer the window was empty as well
      rw [hnumbers]
      have huna := hw.una
      cases hns : k.sndHalf.numbers with
      | nil =>
        rw [hns] at huna
        exact huna
      | cons n ns =>
        rw [hns] at huna
        exact huna
    · show off k.sndUna (k.sndNxt + 1) ≤ k.sndWnd.toNat
      omega
    · show off k.sndUna (k.sndNxt + 1) < _
      omega
    · exact hw.stream
    · intro e he
      have he : e ∈ (k.sndBuf ++ [newSegment k current wnd seg]).map IKCPSEG.key := he
      rw [List.map_append] at he
      rcases List.mem_append.mp he with he | he
      · exact hw.push e he
      · rw [List.mem_singleton.mp he]
        rfl
  · exact hrmt
  · show k.nsndBuf + 1 = (k.sndBuf ++ [_]).length
    rw [List.length_append, hbuf, List.length_singleton]
  · show k.nsndQue - 1 = rest.length
    rw [hque, hq]
    rfl

theorem sending_settle {k k' : IKCPCB} (h : Sending k) (hs : Settled k k') : Sending k' := by
  obtain ⟨hw, hrmt, hbuf, hque⟩ := h
  have hnumbers : k'.sndHalf.numbers.Sublist k.sndHalf.numbers := hs.sub.map _
  have hnxt : k'.sndNxt = k.sndNxt := congrArg SndHalf.sndNxt hs.snd
  have hwnd : k'.sndWnd = k.sndWnd := congrArg SndHalf.sndWnd hs.snd
  have huna : k'.sndUna = k'.sndHalf.numbers.head?.getD k.sndNxt := by
    rw [hs.una, head_numbers, hnxt]
  -- the window from the first number that is left is no wider than the old one
  obtain ⟨hasc, hle⟩ := hw.ascending.settle hnumbers
  have hle : off k'.sndUna k.sndNxt ≤ off k.sndUna k.sndNxt := by
    rw [huna]
    exact hle
  constructor
  · constructor
    · show Ascending k'.sndUna k'.sndNxt _
      rw [huna, hnxt]
      exact hasc
    · show k'.sndUna = _
      rw [huna]
      exact congrArg _ hnxt.symm
    · show off k'.sndUna k'.sndNxt ≤ k'.sndWnd.toNat
      rw [hnxt, hwnd]
      exact Nat.le_trans hle hw.wnd
    · show off k'.sndUna k'.sndNxt < _
      rw [hnxt]
      exact Nat.lt_of_le_of_lt hle hw.narrow
    · exact (congrArg SndHalf.stream hs.snd).trans hw.stream
    · intro e he
      exact hw.push e (hs.sub.subset he)
  · rcases hs.rmtWnd with h | h
    · rw [h]
      exact hrmt
    · exact h
  · exact hs.count hbuf
  · have hq : k'.nsndQue = k.nsndQue := congrArg Ground.nsndQue hs.rest
    have hl : k'.sndQueue.map IKCPSEG.unit = k.sndQueue.map IKCPSEG.unit :=
      congrArg SndHalf.sndQueue hs.snd
    have hlen := congrArg List.length hl
    simp only [List.length_map] at hlen
    omega

theorem sending_sndInv : SndInv Sending where
  sending := by
    intro k k' h he
    have hsnd : k'.sndHalf = k.sndHalf := congrArg Ground.snd he
    have hbuf : k'.nsndBuf = k.nsndBuf := congrArg Ground.nsndBuf he
    have hque : k'.nsndQue = k.nsndQue := congrArg Ground.nsndQue he
    have hrmt : k'.rmtWnd = k.rmtWnd := congrArg Ground.rmtWnd he
    have hbufs := congrArg (fun h => h.sndBuf.length) hsnd
    have hques := congrArg (fun h => h.sndQueue.length) hsnd
    simp only [IKCPCB.sndHalf, List.length_map] at hbufs hques
    refine ⟨hsnd ▸ h.windowed, hrmt ▸ h.rmtWnd, ?_, ?_⟩
    · rw [hbuf, h.nsndBuf, hbufs]
    · rw [hque, h.nsndQue, hques]
  settle := sending_settle
  stream h := h.windowed.stream
  push h hs := h.windowed.push _ (List.mem_map_of_mem hs)
  move h := sending_move h
  queue := by
    intro k buffer h _
    obtain ⟨hw, hrmt, hbuf, hque⟩ := h
    refine ⟨⟨hw.ascending, hw.una, hw.wnd, hw.narrow, hw.stream, hw.push⟩, hrmt, hbuf, ?_⟩
    show k.nsndQue + _ = (k.sndQueue ++ _).length
    rw [List.length_append, length_sendFragments, hque]

/-! ## The congestion window -/

/-- The congestion window is not empty. -/
def Open (k : IKCPCB) : Prop := 1 ≤ k.cwnd.toNat

theorem Open.of_desk {k k' : IKCPCB} (h : Open k) (he : k'.desk = k.desk) : Open k' := by
  have hcwnd : k'.cwnd = k.cwnd := congrArg Desk.cwnd he
  unfold Open
  rw [hcwnd]
  exact h

/-- An acknowledgement lets the window grow, at most up to the peer's. -/
theorem inputCwnd_open {k : IKCPCB} (h : Open k) (una : IUINT32) : Open (inputCwnd k una) := by
  unfold Open at h ⊢
  unfold inputCwnd
  split
  · rename_i hgrow
    have hlt : k.cwnd.toNat < k.rmtWnd.toNat := hgrow.2
    have hrmt := k.rmtWnd.isLt
    have hsucc : (k.cwnd + 1).toNat = k.cwnd.toNat + 1 := by
      rw [BitVec.toNat_add]
      exact Nat.mod_eq_of_lt (by show k.cwnd.toNat + 1 < _; omega)
    have hstep : ∀ (grows : Prop) [Decidable grows],
        1 ≤ (if grows then k.cwnd + 1 else k.cwnd).toNat := by
      intro grows _
      split
      · exact hsucc ▸ Nat.le_add_left ..
      · exact h
    -- slow start adds one, congestion avoidance one now and then; neither takes away
    have hgrown : 1 ≤ (growCwnd k).1.toNat := by
      simp only [growCwnd]
      split
      · exact hsucc ▸ Nat.le_add_left ..
      · exact hstep _
    dsimp only
    split
    · show 1 ≤ k.rmtWnd.toNat
      omega
    · exact hgrown
  · exact h

/-- What a segment pushes is no matter of the window. -/
theorem inputSeg_cwnd {st : InputSt} (h : st.kcp.desk.Fits) (head : SegHead) (payload : List Byte) :
    (inputSeg st head payload).kcp.cwnd = st.kcp.cwnd := by
  rcases inputSeg_desk h head payload with he | hp
  · exact congrArg Desk.cwnd he
  · exact hp.cwnd

/-- The loop.  Induction on its rounds. -/
theorem inputLoop_cwnd :
    ∀ (n : Nat) (data : List Byte) {st : InputSt}, st.kcp.desk.Fits →
      (inputLoop n data st).2.kcp.cwnd = st.kcp.cwnd
  | 0, _, _, _ => rfl
  | n + 1, data, st, h => by
    rw [inputLoop]
    split
    · rfl
    · rfl
    · exact (inputLoop_cwnd n _ (inputSeg_fits h _ _)).trans (inputSeg_cwnd h _ _)

theorem input_open {k : IKCPCB} (h : Open k) (hfits : k.desk.Fits) (data : List Byte)
    (current : IUINT32) : Open (pvpIkcpInput k data current).2 := by
  have henter : Open (inputEnter k current) := h.of_desk (inputEnter_desk k current)
  let st : InputSt := { kcp := inputEnter k current, flag := false, maxack := 0 }
  have hst : st.kcp.desk.Fits := by
    show (inputEnter k current).desk.Fits
    rw [inputEnter_desk]
    exact hfits
  have hloop := inputLoop_cwnd data.length data hst
  unfold pvpIkcpInput
  dsimp only
  split
  · exact henter
  generalize inputLoop data.length data _ = r at hloop
  obtain ⟨ret, st'⟩ := r
  have hst' : Open st'.kcp := by
    unfold Open
    rw [hloop]
    exact henter
  cases ret with
  | some ret => exact hst'
  | none =>
    refine inputCwnd_open ?_ _
    split
    · exact hst'.of_desk (ikcpParseFastack_desk ..)
    · exact hst'

theorem flush_open {k : IKCPCB} (h : Open k) : Open (pvpIkcpFlush k).1 := by
  by_cases hupdated : k.updated = true
  · -- a loss cuts the window down, and the last line of the flush lifts it to one
    obtain ⟨cwnd, hpos, hdesk⟩ := pvpIkcpFlush_desk hupdated
    have hcwnd : (pvpIkcpFlush k).1.cwnd = cwnd := congrArg Desk.cwnd hdesk
    unfold Open
    rw [hcwnd]
    exact hpos
  · rw [pvpIkcpFlush, if_pos (Bool.eq_false_iff.mpr hupdated)]
    exact h

theorem update_open {k : IKCPCB} (h : Open k) (current : IUINT32) :
    Open (pvpIkcpUpdate k current).1 := by
  have hhead := updateHead_desk k current
  rw [pvpIkcpUpdate]
  generalize updateHead k current = r at hhead
  obtain ⟨flush, k₀⟩ := r
  have h₀ : Open k₀ := h.of_desk hhead
  refine Open.of_desk ?_ (pvpIkcpUpdateLost_desk _ current)
  split
  · exact flush_open h₀
  · exact h₀

theorem sendEx_open {k : IKCPCB} (h : Open k) (msg : List Byte) (current : IUINT32) :
    Open (pvpIkcpSendEx k msg current).2.1 := by
  have hsend := pvpIkcpSend_desk k msg current
  rw [pvpIkcpSendEx]
  generalize pvpIkcpSend k msg current = r at hsend
  obtain ⟨ret, k₁⟩ := r
  have h₁ : Open k₁ := h.of_desk hsend
  dsimp only
  split
  · exact h₁
  split
  · exact h₁
  · have hcwnd : (sendExFlush k₁ current).kcp.cwnd = k₁.cwnd :=
      congrArg Desk.cwnd (sendExFlush_desk k₁ current)
    unfold Open
    rw [hcwnd]
    exact h₁

/-- **No call empties the congestion window.** -/
theorem call_open {k : IKCPCB} (h : Open k) (hfits : k.desk.Fits) (c : Call) : Open (c.run k).1 := by
  cases c with
  | send msg current => exact h.of_desk (pvpIkcpSend_desk k msg current)
  | sendEx msg current => exact sendEx_open h msg current
  | update current => exact update_open h current
  | flush => exact flush_open h
  | recv len => exact h.of_desk (pvpIkcpRecv_desk k len)
  | input data current => exact input_open h hfits data current
  | nodelay on interval resend nc => exact h.of_desk (pvpIkcpNodelay_desk k on interval resend nc)
  | wndsize sndwnd rcvwnd => exact h.of_desk (pvpIkcpWndsize_desk k sndwnd rcvwnd)
  | setdupsend => exact h
  | intervalLost => exact h
  | fields => exact h

/-! ## Every run -/

/-- A block after its creation and one `pvp_ikcp_wndsize`. -/
def Prepared (k : IKCPCB) : Prop :=
  ∃ conv sndwnd rcvwnd, k = pvpIkcpWndsize (pvpIkcpCreate conv) sndwnd rcvwnd

/-- Configured in any way, a block is in order: nothing was sent yet. -/
theorem Configured.sending {conv : IUINT32} {k : IKCPCB} (h : Configured conv k) : Sending k := by
  obtain ⟨s, rfl⟩ := h.settings
  refine ⟨⟨.nil, rfl, ?_, ?_, rfl, fun e he => absurd he List.not_mem_nil⟩, ?_, rfl, rfl⟩
  · show off (0 : IUINT32) 0 ≤ _
    simp
  · show off (0 : IUINT32) 0 < _
    simp
  · show ikcpWndRcv.toNat < _
    decide

theorem Prepared.configured {k : IKCPCB} (h : Prepared k) : ∃ conv, Configured conv k := by
  obtain ⟨conv, s, r, rfl⟩ := h
  exact ⟨conv, .wndsize .create s r⟩

theorem Prepared.sending {k : IKCPCB} (h : Prepared k) : Sending k := by
  obtain ⟨conv, hconf⟩ := h.configured
  exact hconf.sending

theorem Prepared.desk {k : IKCPCB} (h : Prepared k) : Open k ∧ k.desk.Fits := by
  obtain ⟨conv, hconf⟩ := h.configured
  obtain ⟨s, rfl⟩ := hconf.settings
  have hopen : 1 ≤ ikcpWndSnd.toNat := by decide
  exact ⟨hopen, rfl, Nat.le_refl 0⟩

/-- What holds of the sending half of a block at any time. -/
structure SendWindow (k : IKCPCB) : Prop where
  /-- The numbers of `snd_buf` ascend, as they are compared. -/
  increasing : (k.sndBuf.map IKCPSEG.sn).Pairwise fun a b => itimediff b a > 0
  /-- They lie in `[snd_una, snd_nxt)`. -/
  within : ∀ seg ∈ k.sndBuf, (seg.sn - k.sndUna).toNat < (k.sndNxt - k.sndUna).toNat
  una : k.sndUna = (k.sndBuf.head?.map IKCPSEG.sn).getD k.sndNxt
  wnd : (k.sndNxt - k.sndUna).toNat ≤ k.sndWnd.toNat
  nsndBuf : k.nsndBuf = k.sndBuf.length
  nsndQue : k.nsndQue = k.sndQueue.length
  cwnd : 1 ≤ k.cwnd.toNat

theorem Sending.facts {k : IKCPCB} (h : Sending k) (hopen : Open k) : SendWindow k := by
  obtain ⟨hw, -, hbuf, hque⟩ := h
  have hasc := hw.ascending
  rw [numbers_sndHalf] at hasc
  have hnarrow : off k.sndUna k.sndNxt < 2 ^ 16 := hw.narrow
  constructor
  · exact hasc.sdiff_pos (by show 2 * off k.sndUna k.sndNxt ≤ _; omega)
  · intro seg hs
    exact hasc.below _ (List.mem_map_of_mem hs)
  · rw [head_numbers]
    exact hw.una
  · exact hw.wnd
  · exact hbuf
  · exact hque
  · exact hopen

/-- **The sending window of every reachable block.**  Induction on the run. -/
theorem sendWindow {k : IKCPCB} (h : Runs Prepared KeepsWindow k) : SendWindow k := by
  have hinv : Sending k ∧ Open k ∧ k.desk.Fits := by
    refine h.inv (I := fun k => Sending k ∧ Open k ∧ k.desk.Fits)
      (fun k hk => ⟨hk.sending, hk.desk⟩) ?_
    rintro k c ⟨hk, hopen, hfits⟩ hc
    -- one call: the sending half by its rule, the window and the pairs by theirs
    have hrun := sending_sndInv.run (labels_true _) hk c fun s r he => absurd he (hc s r)
    exact ⟨hrun.1, call_open hopen hfits c, call_fits hfits c⟩
  exact hinv.1.facts hinv.2.1

/-- Two messages of one fragment in flight: the second is still there when the first is acknowledged. -/
theorem sendWindow_hello :
    ∃ k : IKCPCB, (k.sndUna, k.sndNxt, k.sndBuf.map IKCPSEG.sn) = (1, 2, [1]) ∧ SendWindow k := by
  let k₀ := pvpIkcpWndsize (pvpIkcpCreate 7) 64 128
  let k₁ := ((Call.update 10).run k₀).1
  let k₂ := ((Call.sendEx [1, 2, 3] 20).run k₁).1
  let k₃ := ((Call.sendEx [4] 20).run k₂).1
  -- an acknowledgement of number `0`
  let k₄ := ((Call.input [7, 0, 0, 0, 82, 0, 0, 128, 0, 20, 0, 0, 0, 0, 0, 1, 0, 0, 0] 30).run k₃).1
  have hrun : Runs Prepared KeepsWindow k₄ := by
    have h₀ : Runs Prepared KeepsWindow k₀ := .start ⟨7, 64, 128, rfl⟩
    have h₁ : Runs Prepared KeepsWindow k₁ := .step (i := .update 10) h₀ (fun _ _ => nofun) rfl
    have h₂ : Runs Prepared KeepsWindow k₂ := .step (i := .sendEx [1, 2, 3] 20) h₁ (fun _ _ => nofun) rfl
    have h₃ : Runs Prepared KeepsWindow k₃ := .step (i := .sendEx [4] 20) h₂ (fun _ _ => nofun) rfl
    exact .step (i := .input _ 30) h₃ (fun _ _ => nofun) rfl
  exact ⟨k₄, by decide +kernel, sendWindow hrun⟩

end ConnClient.Ikcp
