/-
  The size of a session's datagrams.

  `CreateKCP` caps the `mtu` it is told at `KCP_MTU` and hands it to `pvp_ikcp_setmtu`, which refuses
  less than `50` — and so every number from `2 ^ 31` on, which the narrowing made negative.  The
  refusal is not looked at, and then the block keeps the `mtu` it was created with, which is nearly
  three times the cap.

  No operation of a session sets the `mtu` again, so what it is after `CreateKCP` decides for all of
  them: `Fits` is kept by every operation (`Fits.run`), and the cap holds in every sequence exactly
  when the number was not refused (`mtu_capped`).
-/
import ConnClient.Client.Ticks

namespace ConnClient

open ConnClient.Lib ConnClient.Ikcp

/-! ## The operations of a session -/

/-- `KcpSession::Flush` -/
def KcpSession.flush (s : KcpSession) : KcpSession × List (IKCPCB × List Byte) :=
  match s.kcp with
  | none => (s, [])
  | some kcp =>
    let (kcp, sent) := pvpIkcpFlush kcp
    ({ s with kcp := some kcp }, sent)

/-- What can be done with a session (what only reports a field of the block is left out). -/
inductive SessionOp where
  | input (data : List Byte) (curTime : Int)
  | send (buffer : List Byte) (curTime : Int)
  | recv (len : Int)
  | update (currentMs : IUINT32)
  | tick (currentMs : IUINT32)
  | flush
  | release
  | createKCP (info : ControlKCPInfo)

/-- What an operation leaves, and hands to `KCPOutput`. -/
def SessionOp.run (s : KcpSession) : SessionOp → KcpSession × List (IKCPCB × List Byte)
  | .input data curTime => ((s.input data curTime).2, [])
  | .send buffer curTime => (s.send buffer curTime).2
  | .recv len => ((s.recv len).2, [])
  | .update currentMs => s.update currentMs
  | .tick currentMs => s.tick currentMs
  | .flush => s.flush
  | .release => (s.release, [])
  | .createKCP info => (s.createKCP info, [])

/-! ## The cap -/

/-- The block keeps to the cap. -/
structure Capped (k : IKCPCB) : Prop where
  mtu : (k.mtu : Int) ≤ kcpMtu
  mss : (k.mss : Int) = k.mtu - ikcpOverhead
  pos : 0 < k.mss

/-- So do the block and the datagrams in every sequence of operations. -/
def KeepsCap : List SessionOp → KcpSession → Prop
  | [], s => ∀ k ∈ s.kcp, Capped k
  | op :: ops, s => (∀ k ∈ s.kcp, Capped k) ∧ (∀ e ∈ (op.run s).2, (e.2.length : Int) ≤ kcpMtu)
      ∧ KeepsCap ops (op.run s).1

/-- The number is not one that `pvp_ikcp_setmtu` refuses. -/
def ControlKCPInfo.MtuTaken (info : ControlKCPInfo) : Prop := 50 ≤ info.mtu.toInt

/-- Nor is that of a later `CreateKCP`. -/
def SessionOp.MtuTaken : SessionOp → Prop
  | .createKCP info => info.MtuTaken
  | _ => True

/-- The `mtu` of a new block. -/
theorem createBlock_mtu (info : ControlKCPInfo) :
    (KcpSession.createBlock info).mtu
      = if info.mtu.toInt < 50 then ikcpMtuDef
        else if info.mtu.toInt > kcpMtu then kcpMtu.toNat else info.mtu.toInt.toNat := by
  have hnodelay : ∀ k nodelay interval resend nc,
      (pvpIkcpNodelay k nodelay interval resend nc).mtu = k.mtu := by
    intro k nodelay interval resend nc
    obtain ⟨_, _, _, _, _, hset⟩ := pvpIkcpNodelay_eq k nodelay interval resend nc
    rw [hset]
  have hwndsize : ∀ k sndwnd rcvwnd, (pvpIkcpWndsize k sndwnd rcvwnd).mtu = k.mtu := by
    intro k sndwnd rcvwnd
    obtain ⟨_, _, hset⟩ := pvpIkcpWndsize_eq k sndwnd rcvwnd
    rw [hset]
  have hsetmtu : ∀ k mtu, (pvpIkcpSetmtu k mtu).2.mtu = if mtu < 50 then k.mtu else mtu.toNat := by
    intro k mtu
    unfold pvpIkcpSetmtu ikcpOverhead
    by_cases hless : mtu < 50
    · rw [if_pos hless, if_pos (.inl hless)]
    · rw [if_neg hless, if_neg (by omega)]
  unfold KcpSession.createBlock
  dsimp only
  generalize hbefore : (if info.dupSendCount.toInt > 0 then _ else _ : IKCPCB) = k
  -- nothing before `pvp_ikcp_setmtu` concerns the `mtu`
  have hdef : k.mtu = ikcpMtuDef := by
    rw [← hbefore]
    split
    · exact (hwndsize ..).trans (hnodelay ..)
    · exact (hwndsize ..).trans (hnodelay ..)
  rw [hsetmtu, hdef]
  unfold kcpMtu
  by_cases hmore : info.mtu.toInt > 500
  · have hless : ¬ info.mtu.toInt < 50 := by omega
    rw [if_pos hmore, if_neg (by decide), if_neg hless, if_pos hmore]
  · rw [if_neg hmore, if_neg hmore]

/-! ## What every operation keeps -/

/-- The block's `mtu` is this, and what waits to be sent fits it. -/
def Fits (mtu : Nat) (k : IKCPCB) : Prop := Sized k.mtu k.sndHalf ∧ k.mtu = mtu

theorem fits_sndInv (mtu : Nat) : SndInv (Fits mtu) := sized_sndInv.withMtu mtu

/-- **A call** keeps both, and its datagrams fit. -/
theorem Fits.call {mtu : Nat} {k : IKCPCB} (h : Fits mtu k) {c : Call} (hc : KeepsWindow c) :
    Fits mtu (c.run k).1 ∧ ∀ e ∈ (c.run k).2, e.2.length ≤ mtu := by
  obtain ⟨hend, hsent⟩ := (fits_sndInv mtu).run (labels_true _) h c fun s r he => absurd he (hc s r)
  refine ⟨hend, fun e he => ?_⟩
  have hout := hsent e he
  have hshort := hout.short fun k hk => sized_roomy k hk.1
  exact hout.block.2 ▸ hshort

/-- What an operation that creates no block does to the one at hand: nothing, but for releasing it, or
    what a call does. -/
theorem SessionOp.run_call {s : KcpSession} {k : IKCPCB} (hk : s.kcp = some k) {op : SessionOp}
    (hop : ∀ info, op ≠ .createKCP info) :
    ((op.run s).1.kcp = none ∨ (op.run s).1.kcp = some k) ∧ (op.run s).2 = []
      ∨ ∃ c, KeepsWindow c ∧ (op.run s).1.kcp = some (c.run k).1 ∧ (op.run s).2 = (c.run k).2 := by
  cases op with
  | input data curTime =>
    refine .inr ⟨.input data (BitVec.ofInt 32 curTime), nofun, ?_, rfl⟩
    rw [SessionOp.run, input_of_kcp hk]
    rfl
  | send buffer curTime =>
    refine .inr ⟨.sendEx buffer (BitVec.ofInt 32 curTime), nofun, ?_⟩
    rw [SessionOp.run, send_of_kcp hk]
    exact ⟨rfl, rfl⟩
  | recv len =>
    refine .inr ⟨.recv len, nofun, ?_, rfl⟩
    rw [SessionOp.run, recv_of_kcp hk]
    rfl
  | update currentMs =>
    refine .inr ⟨.update currentMs, nofun, ?_⟩
    rw [SessionOp.run, update_of_kcp hk]
    exact ⟨rfl, rfl⟩
  | tick currentMs =>
    rcases tick_cases hk currentMs with htick | ⟨htick, -⟩
    · refine .inr ⟨.update currentMs, nofun, ?_⟩
      rw [SessionOp.run, htick, update_of_kcp hk]
      exact ⟨rfl, rfl⟩
    · rw [SessionOp.run, htick]
      exact .inl ⟨.inr hk, rfl⟩
  | flush =>
    refine .inr ⟨.flush, nofun, ?_⟩
    rw [SessionOp.run, KcpSession.flush, hk]
    exact ⟨rfl, rfl⟩
  | release => exact .inl ⟨.inl rfl, rfl⟩
  | createKCP info => exact absurd rfl (hop info)

/-- Without a block nothing is done. -/
theorem SessionOp.run_none {s : KcpSession} (hk : s.kcp = none) {op : SessionOp}
    (hop : ∀ info, op ≠ .createKCP info) : (op.run s).1.kcp = none ∧ (op.run s).2 = [] := by
  cases op with
  | input data curTime =>
    rw [SessionOp.run, KcpSession.input, hk]
    exact ⟨hk, rfl⟩
  | send buffer curTime =>
    rw [SessionOp.run, KcpSession.send, hk]
    exact ⟨hk, rfl⟩
  | recv len =>
    rw [SessionOp.run, KcpSession.recv, hk]
    exact ⟨hk, rfl⟩
  | update currentMs =>
    rw [SessionOp.run, KcpSession.update, hk]
    exact ⟨hk, rfl⟩
  | tick currentMs =>
    have hnull : s.isNull = true := by
      rw [KcpSession.isNull, hk]
      rfl
    rw [SessionOp.run, KcpSession.tick, if_pos hnull]
    exact ⟨hk, rfl⟩
  | flush =>
    rw [SessionOp.run, KcpSession.flush, hk]
    exact ⟨hk, rfl⟩
  | release => exact ⟨rfl, rfl⟩
  | createKCP info => exact absurd rfl (hop info)

/-- **An operation that creates no block.** -/
theorem Fits.run {s : KcpSession} {mtu : Nat} (h : ∀ k ∈ s.kcp, Fits mtu k) {op : SessionOp}
    (hop : ∀ info, op ≠ .createKCP info) :
    (∀ k ∈ (op.run s).1.kcp, Fits mtu k) ∧ ∀ e ∈ (op.run s).2, e.2.length ≤ mtu := by
  cases hk : s.kcp with
  | none =>
    obtain ⟨hnone, hsent⟩ := SessionOp.run_none hk hop
    rw [hnone, hsent]
    exact ⟨fun k hk => (nomatch hk), fun e he => absurd he List.not_mem_nil⟩
  | some k =>
    have hfits := h k hk
    rcases SessionOp.run_call hk hop with ⟨hblock, hsent⟩ | ⟨c, hc, hblock, hsent⟩
    · rw [hsent]
      refine ⟨fun k' hk' => ?_, fun e he => absurd he List.not_mem_nil⟩
      rcases hblock with hblock | hblock
      · nomatch hblock.symm.trans hk'
      · exact Option.some.inj (hblock.symm.trans hk') ▸ hfits
    · rw [hsent]
      obtain ⟨hend, hshort⟩ := hfits.call hc
      refine ⟨fun k' hk' => ?_, hshort⟩
      exact Option.some.inj (hblock.symm.trans hk') ▸ hend

/-- Within the cap. -/
theorem Fits.capped {mtu : Nat} {k : IKCPCB} (h : Fits mtu k) (hle : (mtu : Int) ≤ kcpMtu)
    (hge : 50 ≤ mtu) : Capped k := by
  obtain ⟨hsized, hmtu⟩ := h
  have hmss : k.mss + ikcpOverhead = k.mtu := hsized.mtu
  unfold ikcpOverhead at hmss
  refine ⟨by omega, ?_, by omega⟩
  unfold ikcpOverhead
  omega

/-- A new block has nothing to send. -/
theorem createBlock_fits (info : ControlKCPInfo) :
    Fits (KcpSession.createBlock info).mtu (KcpSession.createBlock info) :=
  ⟨(createBlock_created info).sized, rfl⟩

/-- A number that is taken leaves a block within the cap. -/
theorem ControlKCPInfo.MtuTaken.block {info : ControlKCPInfo} (h : info.MtuTaken) :
    ((KcpSession.createBlock info).mtu : Int) ≤ kcpMtu ∧ 50 ≤ (KcpSession.createBlock info).mtu := by
  have h : 50 ≤ info.mtu.toInt := h
  have hless : ¬ info.mtu.toInt < 50 := by omega
  rw [createBlock_mtu, if_neg hless]
  unfold kcpMtu
  split
  · exact ⟨by decide, by decide⟩
  · exact ⟨by omega, by omega⟩

/-- One that is refused does not. -/
theorem ControlKCPInfo.mtuTaken_of_capped {info : ControlKCPInfo}
    (h : Capped (KcpSession.createBlock info)) : info.MtuTaken := by
  by_contra hnot
  have hless : info.mtu.toInt < 50 := Int.not_le.mp hnot
  have hmtu := h.mtu
  rw [createBlock_mtu, if_pos hless] at hmtu
  exact absurd hmtu (by decide)

/-! ## Every sequence of operations -/

/-- Induction on the operations; each `CreateKCP` sets the `mtu` anew. -/
theorem keepsCap_of_fits : ∀ (ops : List SessionOp) {s : KcpSession} {mtu : Nat},
    (mtu : Int) ≤ kcpMtu → 50 ≤ mtu → (∀ k ∈ s.kcp, Fits mtu k) → (∀ op ∈ ops, op.MtuTaken) →
      KeepsCap ops s
  | [], _, _, hle, hge, h, _ => fun k hk => (h k hk).capped hle hge
  | op :: ops, s, mtu, hle, hge, h, htaken => by
    have hcapped : ∀ k ∈ s.kcp, Capped k := fun k hk => (h k hk).capped hle hge
    have hrest : ∀ op ∈ ops, op.MtuTaken := fun op ho => htaken op (List.mem_cons_of_mem _ ho)
    by_cases hop : ∃ info, op = .createKCP info
    · obtain ⟨info, rfl⟩ := hop
      have hinfo : info.MtuTaken := htaken _ (List.mem_cons_self ..)
      refine ⟨hcapped, fun e he => absurd he List.not_mem_nil, ?_⟩
      refine keepsCap_of_fits ops hinfo.block.1 hinfo.block.2 (fun k hk => ?_) hrest
      exact Option.some.inj hk ▸ createBlock_fits info
    · obtain ⟨hend, hshort⟩ := Fits.run h fun info he => hop ⟨info, he⟩
      refine ⟨hcapped, fun e he => ?_, keepsCap_of_fits ops hle hge hend hrest⟩
      have hlen := hshort e he
      omega

/-- **The cap holds in every sequence of operations exactly when the number was not refused.** -/
theorem mtu_capped (s : KcpSession) (info : ControlKCPInfo) :
    (∀ ops : List SessionOp, (∀ op ∈ ops, op.MtuTaken) → KeepsCap ops (s.createKCP info))
      ↔ 50 ≤ info.mtu.toInt := by
  constructor
  · intro h
    have hcap := h [] fun op ho => absurd ho List.not_mem_nil
    exact ControlKCPInfo.mtuTaken_of_capped (hcap _ rfl)
  · intro h ops htaken
    have hinfo : info.MtuTaken := h
    refine keepsCap_of_fits ops hinfo.block.1 hinfo.block.2 (fun k hk => ?_) htaken
    exact Option.some.inj hk ▸ createBlock_fits info

/-- A session of the sample's `mtu`, released and made again. -/
theorem mtu_capped_sample :
    KeepsCap [.send [1, 2, 3] 20, .tick 30, .release, .createKCP sampleKcp, .flush]
      (KcpSession.new.createKCP sampleKcp) := by
  refine (mtu_capped KcpSession.new sampleKcp).mpr (by decide) _ fun op ho => ?_
  simp only [List.mem_cons, List.not_mem_nil, or_false] at ho
  rcases ho with rfl | rfl | rfl | rfl | rfl
  · trivial
  · trivial
  · trivial
  · exact (by decide : 50 ≤ sampleKcp.mtu.toInt)
  · trivial

/-- A server that sends `0` gets segments of up to `1381` bytes. -/
theorem mtu_refused :
    ¬ ∀ (s : KcpSession) (info : ControlKCPInfo) (ops : List SessionOp),
      KeepsCap ops (s.createKCP info) := by
  intro h
  have hcapped := h KcpSession.new { sampleKcp with mtu := 0 } [] _ rfl
  have hmtu := hcapped.mtu
  exact absurd hmtu (by decide)

/-- And datagrams longer than the cap. -/
example : ((SessionOp.send (List.replicate 600 0) 20).run
    (KcpSession.new.opened { sampleKcp with mtu := 0 } 10)).2.map (fun e => e.2.length) = [619] := by
  decide +kernel

end ConnClient
