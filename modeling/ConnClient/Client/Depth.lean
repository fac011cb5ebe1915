/-
  How deep the calls of `InnerClose` nest.

  A failed send closes the connection, a close flushes the session, and the flush sends.  That comes
  to an end for three reasons, any of which will do (`Shallow`): the relinks are not used up, so the
  nested close keeps the session and flushes nothing; UDP is on and its socket is closed, so nothing
  is sent; or the due acknowledgements fit one datagram, so the block has less backlog at every output
  of a flush than it had before it (`ConnClient.Ikcp.Backlog`).

  And it comes to an end for no other reason: a flush whose acknowledgements do not fit outputs the
  first datagram from the block it was called on, and if the sends keep failing every nested call
  finds what the one before it found (`innerClose_deep`).

  The routines of the model take the depth they may nest as an argument, and an end for lack of depth
  is an outcome like any other.  So an end is the statement that SOME depth is enough and that every
  larger one is enough too (`Returns`), and no end is an argument about every depth.  An end by the
  use of a session after its release counts as one here: it is no matter of nesting.

    upward:    `unroll_returns`, with the backlog as the measure that falls from a close to the close
               nested in it;
    downward:  `unroll_deep`, with `Spinning`, a property of the state that every nested close finds
               again.

  Both need that the settings of the block are sane, an `mtu` between 50 and 1400 first of all, and
  that is an invariant of all runs (`reachable_sane`).
-/
import ConnClient.Ikcp.Backlog
import ConnClient.Client.Walk
import ConnClient.Client.Handlers

namespace ConnClient

open ConnClient.Lib ConnClient.Ikcp

/-! ## The settings of every block -/

/-- An interval asked for is put in its range. -/
theorem clampInterval_range (interval : Int) :
    10 ≤ (BitVec.ofInt 32 (clampInterval 10 5000 interval)).toNat := by
  have hlo : 10 ≤ clampInterval 10 5000 interval := by
    unfold clampInterval
    split <;> omega
  have hhi : clampInterval 10 5000 interval ≤ 5000 := by
    unfold clampInterval
    split <;> omega
  rw [BitVec.toNat_ofInt]
  omega

/-- The settings of a new block, but for the update that follows: whatever the server asks for in
    its `ControlKCPInfo`, the setters put it in range. -/
theorem createBlock_sane (info : ControlKCPInfo) :
    Tuning.Sane { (KcpSession.createBlock info).tuning with updated := true } := by
  -- each setter keeps this, and the configuration is a chain of setters
  let Good : IKCPCB → Prop := fun k =>
    (50 ≤ k.mtu ∧ k.mtu ≤ 1400) ∧ 10 ≤ k.interval.toNat ∧ 10 ≤ k.rxRto ∧ k.rxRto ≤ 60000
  have hall : Good (KcpSession.createBlock info) := by
    refine KcpSession.createBlock_rule ?_ ?_ ?_ ?_ ?_ ?_
    · show (50 ≤ ikcpMtuDef ∧ ikcpMtuDef ≤ 1400) ∧ 10 ≤ ikcpInterval.toNat ∧ 10 ≤ ikcpRtoDef
        ∧ ikcpRtoDef ≤ 60000
      decide
    · intro k nodelay interval resend nc h
      have hint : Good { k with interval := BitVec.ofInt 32 (clampInterval 10 5000 interval) } :=
        ⟨h.1, clampInterval_range interval, h.2.2⟩
      unfold pvpIkcpNodelay
      by_cases h1 : nodelay ≥ 0 <;> by_cases h2 : interval ≥ 0 <;> by_cases h3 : resend ≥ 0
        <;> by_cases h4 : nc ≥ 0 <;> simp only [h1, h2, h3, h4, if_true, if_false]
        <;> first | exact h | exact hint
    · intro k sndwnd rcvwnd h
      unfold pvpIkcpWndsize
      split <;> split <;> exact h
    · intro k count dupack dynamic wait wndOn h
      exact h
    · intro k mtu hle h
      unfold kcpMtu at hle
      unfold pvpIkcpSetmtu
      split
      · exact h
      · refine ⟨⟨?_, ?_⟩, h.2⟩
        · show 50 ≤ mtu.toNat
          omega
        · show mtu.toNat ≤ 1400
          omega
    · intro k h
      exact h
  have hresend : (KcpSession.createBlock info).fastresend < 2 ^ 31 :=
    BitVec.toInt_lt (x := info.fastresend)
  obtain ⟨⟨h1, h2⟩, h3, h4, h5⟩ := hall
  exact ⟨rfl, h1, h2, h3, h4, h5, hresend⟩

/-- **The KCP routines keep a block's settings sane.** -/
theorem blockInv_sane : BlockInv fun k => k.tuning.Sane where
  input data now h := pvpIkcpInput_sane data now h
  recv len h := (pvpIkcpRecv_tuning _ len).symm ▸ h
  flush h := by
    obtain ⟨hkept, hsent, -⟩ := pvpIkcpFlush_drains h
    exact ⟨hkept.sane h, fun e he => (hsent e he).1.sane h⟩
  update now h := by
    obtain ⟨j, hj, -, hheirs, -⟩ := pvpIkcpUpdate_heirs now
      ⟨rfl, h.mtu_ge, h.mtu_le, h.interval, h.rto_ge, h.rto_le, h.resend⟩
    exact ⟨hheirs.1.sane hj, fun e he => (hheirs.2 e he).sane hj⟩
  sendEx {k} msg now h := by
    have hheirs := pvpIkcpSendEx_heirs k msg now
    exact ⟨hheirs.1.sane h, fun e he => (hheirs.2 e he).sane h⟩
  create info now := by
    obtain ⟨j, hj, -, hheirs, -⟩ := pvpIkcpUpdate_heirs now (createBlock_sane info)
    exact ⟨hheirs.1.sane hj, fun e he => (hheirs.2 e he).sane hj⟩

/-- The session's block is sane, if there is one. -/
def SaneBlock (k : Core) : Prop := ∀ b, k.kcp = some b → b.tuning.Sane

theorem walk_sane : Walk (fun k => k.tuning.Sane) SaneBlock SaneBlock where
  blocks := blockInv_sane
  weak h := h
  held h hb := h _ hb
  closing _ _ h := h
  closingBlock _ hb _ he := by
    cases he
    exact hb
  release _ _ he := nomatch he
  shut h := h
  write h _ _ := h
  drained h _ := h
  block _ hb _ he := by
    cases he
    exact hb
  read h _ := h
  login h _ := h

/-- **In every reachable state the session's block is sane.** -/
theorem reachable_sane {s : Sys} (hs : Reachable s) {k : IKCPCB}
    (hk : s.client.kcpSession.kcp = some k) : k.tuning.Sane :=
  walk_sane.runs (fun _ _ _ he => nomatch he) (fun _ h => h)
    (fun _ _ _ _ _ h => ⟨fun _ => h, fun _ _ => h, fun _ _ => h⟩) (fun _ _ _ _ _ h => h) hs k hk

/-! ## Coming to an end -/

/-- The nesting came to an end: the call returned, or a session was released under a routine. -/
abbrev Halts : M Client → Prop := Ends (fun _ => True) fun e => e.1 = .uaf

/-- With calls allowed to nest deep enough, the nesting comes to an end. -/
def Returns (call : Nat → M Client) : Prop := ∃ n, ∀ m, n ≤ m → Halts (call m)

/-- The calls that flush a session, whatever the sockets do: a close, the update of the net thread,
    and the sending of a message. -/
structure CallsReturn (c : Client) : Prop where
  innerClose (env : Env) (reason : Int) : Returns fun n => innerClose env n reason c
  sessionTick (env : Env) (now : IUINT32) : Returns fun n => sessionTick (.of env n) now c
  sendKCPBuf (env : Env) (msg : List Byte) : Returns fun n => sendKCPBuf (.of env n) msg c

/-- Why the nesting is bounded.  All three are conditions on the state before the call. -/
inductive Shallow (c : Client) : Prop where
  /-- A failed send keeps the session. -/
  | kept (h : c.exhausted = false)
  /-- Nothing is sent. -/
  | silent (hudp : c.enableUdp = true) (hsock : c.udpSock = -1)
  /-- Every flush has less to send than the one around it. -/
  | falling (h : ∀ k, c.kcpSession.kcp = some k → AcksFit k)

section Halting

variable {cx : Cx} {c : Client} {E : Stop × Client → Prop} {I : Client → Prop}

/-- A routine comes to an end if its outputs do. -/
theorem runKcp_halts {b : Bracket} {r : IKCPCB × List (IKCPCB × List Byte)}
    (hout : ∀ e ∈ r.2, ∀ c, I c → Ends I (fun e => e.1 = .uaf) (kcpOutput cx e.2
      { c with kcpSession := { c.kcpSession with kcp := some e.1 } }))
    (hc : I { c with brackets := b :: c.brackets }) : Halts (runKcp cx b r c) :=
  (playOutputs_rule hout hc).bind fun _ _ => .returned trivial

/-- What the flushing calls do with their outputs: an update, and a send. -/
theorem sessionTick_halts {now : IUINT32}
    (h : ∀ k, c.kcpSession.kcp = some k → Halts (runKcp cx .update (pvpIkcpUpdate k now) c)) :
    Halts (sessionTick cx now c) := by
  unfold sessionTick
  split
  · exact .returned trivial
  split
  · refine Ends.bind (Q := fun _ => True) ?_ fun _ _ => .returned trivial
    unfold sessionUpdate
    split
    · exact .returned trivial
    · rename_i k hk
      exact (h k hk).bind fun _ _ => .returned trivial
  · exact .returned trivial

theorem sendKCPBuf_halts {msg : List Byte}
    (h : ∀ k, c.kcpSession.kcp = some k → Halts (runKcp cx .sendEx
      (pvpIkcpSendEx k msg (BitVec.ofInt 32 (cx.env.clock c.nclock))).2
      ((getTimeMs cx.env c).2.log (.handed msg)))) : Halts (sendKCPBuf cx msg c) := by
  unfold sendKCPBuf
  split
  · exact .returned trivial
  split
  · exact .returned trivial
  dsimp only
  split
  · exact .returned trivial
  · rename_i k hk
    exact h k hk

/-- A close comes to an end if its flush does. -/
theorem innerCloseBody_halts {env : Env} {close : Int × Client → M Client} {a : Int × Client}
    (h : ∀ k, a.2.kcpSession.kcp = some k →
      Halts (runKcp ⟨env, fun reason c => close (reason, c)⟩ (.flush (closeReason a.1 a.2))
        (pvpIkcpFlush k) a.2)) :
    Halts (innerCloseBody env close a) := by
  obtain ⟨reason, c⟩ := a
  unfold innerCloseBody
  dsimp only
  split
  · refine Ends.bind (Q := fun _ => True) ?_ fun _ _ => .returned trivial
    refine Ends.bind (Q := fun _ => True) ?_ fun c₁ _ => ?_
    · unfold sessionFlush
      split
      · exact .returned trivial
      · rename_i k hk
        exact h k hk
    · refine Ends.bind (Q := fun _ => True) ?_ fun _ _ => .returned trivial
      unfold sessionRelease
      split
      · exact .stopped rfl
      · exact .returned trivial
  · exact .returned trivial

/-! ## Enough depth -/

variable {env : Env} {n : Nat} {data : List Byte}

theorem closeSockets_exhausted (env : Env) (reason : Int) (c : Client) :
    (closeSockets env reason c).exhausted = c.exhausted := by
  unfold closeSockets
  dsimp only
  split <;> rfl

/-- While relinks are left, an error closes the sockets and no more. -/
theorem innerClose_kept (env : Env) (n : Nat) (hc : c.exhausted = false) :
    innerClose env (n + 1) clientConnectError c
      = .ok (closeSockets env clientConnectError c) := by
  have hreason : closeReason clientConnectError c = clientConnectError := by
    unfold closeReason
    rw [hc, if_neg Bool.false_ne_true]
  show innerCloseBody env _ (clientConnectError, c) = _
  unfold innerCloseBody
  dsimp only
  rw [hreason, if_neg (by decide)]

theorem kcpOutput_kept (hn : 0 < n) (hc : c.exhausted = false) :
    Ends (fun c => c.exhausted = false) E (kcpOutput (.of env n) data c) := by
  obtain ⟨n, rfl⟩ : ∃ m, n = m + 1 := ⟨n - 1, by omega⟩
  obtain ⟨x, hx | hx⟩ := kcpOutput_sends (.of env (n + 1)) data c
  · rw [hx]
    exact .returned hc
  · rw [hx]
    have hlogged : ∀ e, ((c.sent x).log e).exhausted = false := fun _ => hc
    show Ends _ _ (innerClose env (n + 1) clientConnectError _)
    rw [innerClose_kept env n (hlogged _)]
    exact .returned ((closeSockets_exhausted ..).trans (hlogged _))

/-- Over UDP without a socket nothing is sent. -/
theorem kcpOutput_silent (hudp : c.enableUdp = true) (hsock : c.udpSock = -1) :
    kcpOutput cx data c = .ok c := by
  unfold kcpOutput sendUDPBuf
  rw [if_pos hudp, if_pos hsock]

/-- **With less backlog at every nested close, the nesting comes to an end.** -/
theorem innerClose_falling (hn : 0 < n) {reason : Int}
    (h : ∀ k, c.kcpSession.kcp = some k → (k.tuning.Sane ∧ AcksFit k) ∧ k.backlog < n) :
    Halts (innerClose env n reason c) := by
  let P : Int × Client → Prop := fun a =>
    ∀ k, a.2.kcpSession.kcp = some k → k.tuning.Sane ∧ AcksFit k
  -- the measure of a close is the backlog of its session; a client without a session closes at once
  let μ : Int × Client → Nat := fun a => (a.2.kcpSession.kcp.map IKCPCB.backlog).getD 0
  have hμ : μ (reason, c) < n := by
    show (c.kcpSession.kcp.map IKCPCB.backlog).getD 0 < n
    cases hk : c.kcpSession.kcp with
    | none => exact hn
    | some k => exact (h k hk).2
  refine unroll_returns (P := P) (μ := μ) (fun f a ha hf => ?_) n (reason, c) (fun k hk => (h k hk).1) hμ
  refine innerCloseBody_halts fun k hk => ?_
  obtain ⟨hsane, hfit⟩ := ha k hk
  obtain ⟨-, hdrains, -⟩ := pvpIkcpFlush_drains hsane
  refine runKcp_halts (I := fun _ => True) (fun e he c' _ => ?_) trivial
  obtain ⟨hkept, hless⟩ := hdrains e he
  -- an output of the flush: it is sent, or it fails and closes with the block of the moment
  obtain ⟨x, hx | hx⟩ := kcpOutput_sends ⟨env, fun reason c => f (reason, c)⟩ e.2
    { c' with kcpSession := { c'.kcpSession with kcp := some e.1 } }
  · rw [hx]
    exact .returned trivial
  · rw [hx]
    refine hf (clientConnectError, _) (fun k' hk' => ?_) ?_
    · cases hk'
      exact ⟨hkept.sane hsane, hkept.acksFit hfit⟩
    · show e.1.backlog < (a.2.kcpSession.kcp.map IKCPCB.backlog).getD 0
      rw [hk]
      exact hless hfit

/-- Some bound is above the backlogs of all outputs. -/
theorem exists_backlog_bound :
    ∀ outs : List (IKCPCB × List Byte), ∃ n, 0 < n ∧ ∀ e ∈ outs, e.1.backlog < n
  | [] => ⟨1, Nat.one_pos, fun _ he => absurd he List.not_mem_nil⟩
  | e :: outs => by
    obtain ⟨n, hn, hall⟩ := exists_backlog_bound outs
    refine ⟨n + e.1.backlog, by omega, fun e' he' => ?_⟩
    rcases List.mem_cons.mp he' with rfl | he'
    · omega
    · have hlt := hall e' he'
      omega

/-- **A routine of a shallow client comes to an end**, if its outputs are made from blocks with sane
    settings, whose acknowledgements fit if the block's did.  The depth that is enough is 1 when the
    session is kept, 0 when nothing is sent, and above the backlogs of all outputs else. -/
theorem runKcp_shallow (env : Env) (b : Bracket) {r : IKCPCB × List (IKCPCB × List Byte)}
    (hc : Shallow c) (hsane : ∀ e ∈ r.2, e.1.tuning.Sane)
    (hfit : (∀ k, c.kcpSession.kcp = some k → AcksFit k) → ∀ e ∈ r.2, AcksFit e.1) :
    Returns fun n => runKcp (.of env n) b r c := by
  cases hc with
  | kept h =>
    refine ⟨1, fun n hn => ?_⟩
    exact runKcp_halts (I := fun c => c.exhausted = false) (fun _ _ c' hc' => kcpOutput_kept hn hc') h
  | silent hudp hsock =>
    refine ⟨0, fun n _ => ?_⟩
    refine runKcp_halts (I := fun c => c.enableUdp = true ∧ c.udpSock = -1) (fun e _ c' hc' => ?_)
      ⟨hudp, hsock⟩
    rw [kcpOutput_silent (by exact hc'.1) (by exact hc'.2)]
    exact .returned hc'
  -- the outputs of one routine are finitely many, so one bound is above them all
  | falling h =>
    obtain ⟨n₀, hpos, hbound⟩ := exists_backlog_bound r.2
    refine ⟨n₀, fun n hn => ?_⟩
    refine runKcp_halts (I := fun _ => True) (fun e he c' _ => ?_) trivial
    obtain ⟨x, hx | hx⟩ := kcpOutput_sends (.of env n) e.2
      { c' with kcpSession := { c'.kcpSession with kcp := some e.1 } }
    · rw [hx]
      exact .returned trivial
    · rw [hx]
      have hlt := hbound e he
      refine innerClose_falling (by omega) fun k hk => ?_
      cases hk
      exact ⟨⟨hsane e he, hfit h e he⟩, by omega⟩

/-- **Every flushing call of a shallow client comes to an end.** -/
theorem Shallow.callsReturn (hc : Shallow c)
    (hsane : ∀ k, c.kcpSession.kcp = some k → k.tuning.Sane) : CallsReturn c := by
  cases hk : c.kcpSession.kcp with
  | none =>
    -- without a session there is nothing to flush
    have hnone : ∀ k, c.kcpSession.kcp ≠ some k := fun k h => nomatch hk.symm.trans h
    constructor
    · intro env reason
      refine ⟨1, fun n hn => ?_⟩
      obtain ⟨n, rfl⟩ : ∃ m, n = m + 1 := ⟨n - 1, by omega⟩
      exact innerCloseBody_halts fun k h => absurd h (hnone k)
    · intro env now
      exact ⟨0, fun n _ => sessionTick_halts fun k h => absurd h (hnone k)⟩
    · intro env msg
      exact ⟨0, fun n _ => sendKCPBuf_halts fun k h => absurd h (hnone k)⟩
  | some k =>
    have hs := hsane k hk
    have honly : ∀ {k'}, c.kcpSession.kcp = some k' → k' = k := fun h =>
      Option.some.inj (h.symm.trans hk)
    -- each call runs one KCP routine, whose outputs find blocks that are shallow themselves
    constructor
    · intro env reason
      obtain ⟨-, hdrains, -⟩ := pvpIkcpFlush_drains hs
      obtain ⟨n₀, hn₀⟩ := runKcp_shallow env (.flush (closeReason reason c)) hc
        (fun e he => (hdrains e he).1.sane hs) fun hfit e he => (hdrains e he).1.acksFit (hfit k hk)
      refine ⟨n₀ + 1, fun n hn => ?_⟩
      obtain ⟨n, rfl⟩ : ∃ m, n = m + 1 := ⟨n - 1, by omega⟩
      refine innerCloseBody_halts fun k' hk' => ?_
      rw [honly hk']
      exact hn₀ n (by omega)
    · intro env now
      obtain ⟨j, hj, hjfit, hheirs, -⟩ := pvpIkcpUpdate_heirs now
        ⟨rfl, hs.mtu_ge, hs.mtu_le, hs.interval, hs.rto_ge, hs.rto_le, hs.resend⟩
      obtain ⟨n₀, hn₀⟩ := runKcp_shallow env .update hc (fun e he => (hheirs.2 e he).sane hj)
        fun hfit e he => (hheirs.2 e he).acks (hjfit (hfit k hk))
      refine ⟨n₀, fun n hn => sessionTick_halts fun k' hk' => ?_⟩
      rw [honly hk']
      exact hn₀ n hn
    · intro env msg
      have hheirs := pvpIkcpSendEx_heirs k msg (BitVec.ofInt 32 (env.clock c.nclock))
      have hc' : Shallow ((getTimeMs env c).2.log (.handed msg)) := by
        cases hc with
        | kept h => exact .kept h
        | silent h h' => exact .silent h h'
        | falling h => exact .falling h
      obtain ⟨n₀, hn₀⟩ := runKcp_shallow env .sendEx hc' (fun e he => (hheirs.2 e he).sane hs)
        fun hfit e he => (hheirs.2 e he).acks (hfit k hk)
      refine ⟨n₀, fun n hn => sendKCPBuf_halts fun k' hk' => ?_⟩
      rw [honly hk']
      exact hn₀ n hn

/-! ## No depth is enough -/

/-- Every send fails for good. -/
def failingEnv : Env where
  send := fun _ => (-1, .other)
  clock := fun _ => 0
  dial := fun _ => none

theorem sendEx_fails (hcx : cx.env = failingEnv) (sock : Int) (len : Nat) :
    (sendEx cx.env sock len c).1 = (-1, .other) := by
  unfold sendEx
  split
  · rfl
  · rw [hcx]
    have hmin : min (-1 : Int) (len : Int) = -1 := by omega
    exact congrArg (·, Errno.other) hmin

/-- What is written to a socket that fails for good closes the connection. -/
theorem onTcpWrite_fails (hcx : cx.env = failingEnv) (hlen : c.writeStream.len ≠ 0) :
    ∃ x, onTcpWrite cx c = cx.close clientConnectError (c.sent x) := by
  have hfail := sendEx_fails (c := c) hcx c.tcpSock c.writeStream.len
  obtain ⟨x, hx⟩ := sendEx_sent cx.env c.tcpSock c.writeStream.len c
  unfold onTcpWrite
  rw [if_neg hlen]
  dsimp only
  generalize sendEx cx.env c.tcpSock c.writeStream.len c = r at hfail hx
  obtain ⟨⟨nwritten, eno⟩, c'⟩ := r
  cases hfail
  cases hx
  exact ⟨x, rfl⟩

theorem sendTCPBuf_fails (hcx : cx.env = failingEnv) (cmd : Byte) (msg : List Byte) :
    ∃ x, sendTCPBuf cx cmd msg c = cx.close clientConnectError (c.sent x) := by
  unfold sendTCPBuf
  dsimp only
  by_cases hno : (c.writeStream.ensureWritable (csConnHeadSize + msg.length : Nat)).1 = false
  · rw [if_pos hno]
    exact ⟨⟨_, c.tcpWritable, c.tcpPingExpire, c.udpPingExpire, c.pingSeq, c.nsend⟩, rfl⟩
  · rw [if_neg hno]
    obtain ⟨x, hx⟩ := onTcpWrite_fails (c := { c with writeStream := _ }) hcx
      (frame_pending c.flow c.magic cmd (eq_true_of_ne_false hno))
    exact ⟨x, hx⟩

theorem udpWrite_fails (hcx : cx.env = failingEnv) (pkg : List Byte) :
    ∃ x, udpWrite cx pkg c = cx.close clientConnectError (c.sent x) := by
  have hfail := sendEx_fails (c := c) hcx c.udpSock pkg.length
  obtain ⟨x, hx⟩ := sendEx_sent cx.env c.udpSock pkg.length c
  unfold udpWrite
  generalize sendEx cx.env c.udpSock pkg.length c = r at hfail hx
  obtain ⟨⟨sendLen, err⟩, c'⟩ := r
  cases hfail
  cases hx
  exact ⟨x, rfl⟩

/-- A datagram that goes out over a socket that fails for good closes the connection. -/
theorem kcpOutput_fails (hcx : cx.env = failingEnv) (hlen : data.length ≤ 1400)
    (hopen : ¬ (c.enableUdp = true ∧ c.udpSock = -1)) :
    ∃ x, kcpOutput cx data c = cx.fromOutput.close clientConnectError (c.sent x) := by
  unfold kcpOutput
  by_cases hudp : c.enableUdp = true
  · have hshort : ¬ data.length > maxUdpPkgLen - csUdpConnHeadSize := by
      unfold maxUdpPkgLen csUdpConnHeadSize
      omega
    rw [if_pos hudp, sendUDPBuf, if_neg fun hsock => hopen ⟨hudp, hsock⟩, if_neg hshort]
    exact udpWrite_fails (show cx.fromOutput.env = failingEnv from hcx) _
  · rw [if_neg hudp]
    exact sendTCPBuf_fails (show cx.fromOutput.env = failingEnv from hcx) ..

/-- **The relinks are used up, datagrams go out, and there is a block whose acknowledgements do not
    fit**: every nested close finds the same. -/
structure Spinning (k : IKCPCB) (c : Client) : Prop where
  exhausted : c.exhausted = true
  sends : ¬ (c.enableUdp = true ∧ c.udpSock = -1)
  kcp : c.kcpSession.kcp = some k

/-- The depth ran out. -/
inductive Deep : M Client → Prop where
  | intro (c : Client) : Deep (.error (.deep, c))

theorem Deep.not_halts {r : M Client} (h : Deep r) : ¬ Halts r := by
  cases h with
  | intro c =>
    intro hr
    cases hr with
    | stopped he => exact nomatch he

theorem Deep.bind {r : M Client} {f : Client → M Client} (h : Deep r) : Deep (r >>= f) := by
  cases h with
  | intro c => exact .intro c

theorem innerClose_deep {k : IKCPCB} (hs : k.tuning.Sane) (hfull : ¬ AcksFit k)
    (hc : Spinning k c) (n : Nat) (reason : Int) : Deep (innerClose failingEnv n reason c) := by
  refine unroll_deep (Q := fun a => Spinning k a.2) (fun a _ => .intro a.2) (fun f a ha hf => ?_) n
    (reason, c) hc
  obtain ⟨reason, c⟩ := a
  obtain ⟨hex, hsends, hkcp⟩ : Spinning k c := ha
  obtain ⟨data, rest, hflush, -, hlen⟩ := pvpIkcpFlush_full hs hfull
  have hreason : closeReason reason c = clientConnectTimeout := if_pos hex
  unfold innerCloseBody
  dsimp only
  rw [hreason, if_pos (by decide)]
  refine Deep.bind (Deep.bind ?_)
  unfold sessionFlush
  rw [hkcp]
  dsimp only
  unfold runKcp
  rw [hflush]
  refine Deep.bind (Deep.bind ?_)
  -- the first output fails, and closes in a state like this one
  obtain ⟨x, hx⟩ := kcpOutput_fails (c := { c with
      brackets := .flush clientConnectTimeout :: c.brackets
      kcpSession := { c.kcpSession with kcp := some k } })
    (show Cx.env ⟨failingEnv, fun reason c => f (reason, c)⟩ = failingEnv from rfl)
    (Nat.le_trans hlen hs.mtu_le) hsends
  rw [hx]
  exact hf _ ⟨hex, hsends, rfl⟩

end Halting

/-- **The flushing calls come to an end exactly in the shallow states.** -/
theorem callsReturn_iff {s : Sys} (hs : Reachable s) :
    CallsReturn s.client ↔ Shallow s.client := by
  constructor
  · intro hcalls
    obtain ⟨n, hn⟩ := hcalls.innerClose failingEnv clientConnectError
    have hhalts := hn n (Nat.le_refl _)
    -- relinks left, or a UDP socket that is closed, are shallow by themselves; else every send
    -- fails for good, and if the acknowledgements did not fit no depth were enough
    cases hex : s.client.exhausted with
    | false => exact .kept hex
    | true =>
      by_cases hsilent : s.client.enableUdp = true ∧ s.client.udpSock = -1
      · exact .silent hsilent.1 hsilent.2
      · refine .falling fun k hk => Decidable.byContradiction fun hfull => ?_
        have hdeep := innerClose_deep (reachable_sane hs hk) hfull ⟨hex, hsilent, hk⟩ n
          clientConnectError
        exact hdeep.not_halts hhalts
  · exact fun hc => hc.callsReturn fun k => reachable_sane hs

/-- Whether the due acknowledgements of the session fit one datagram. -/
def Client.acksFit (c : Client) : Bool :=
  match c.kcpSession.kcp with
  | none => true
  | some k => decide (AcksFit k)

/-- Three acknowledgements fit a datagram of 500 bytes: relinks used up or not, the calls return. -/
theorem callsReturn_iff_hello :
    ∃ s, Reachable s ∧ (s.client.live, s.client.exhausted, s.client.tcpSock) = (true, true, 3)
      ∧ CallsReturn s.client := by
  have hrun : (sampleExec (sampleRead
      (sampleInfo 500 ++ samplePush 0 ++ samplePush 1 ++ samplePush 2))).map
      (fun s => ((s.client.live, s.client.exhausted, s.client.tcpSock), s.client.acksFit))
      = some ((true, true, 3), true) := by decide +kernel
  obtain ⟨s, hs, hfields⟩ := Option.map_eq_some_iff.mp hrun
  obtain ⟨hstate, hfit⟩ := Prod.mk.inj hfields
  have h : Reachable s := .of_exec (fun _ _ _ => trivial) _ (.start ⟨_, _, rfl⟩) hs
  refine ⟨s, h, hstate, (callsReturn_iff h).mpr (.falling fun k hk => ?_)⟩
  rw [Client.acksFit, hk] at hfit
  exact of_decide_eq_true hfit

/-- They do not fit a datagram of 50. -/
theorem innerClose_hello_deep :
    ¬ ∀ s, Reachable s → s.client.live = true → CallsReturn s.client := by
  intro hclaim
  have hrun : (sampleExec (sampleRead sampleHello)).map
      (fun s => (s.client.live, s.client.exhausted, s.client.enableUdp, s.client.acksFit))
      = some (true, true, false, false) := by decide +kernel
  obtain ⟨s, hs, hfields⟩ := Option.map_eq_some_iff.mp hrun
  simp only [Prod.mk.injEq] at hfields
  obtain ⟨hlive, hex, hudp, hfit⟩ := hfields
  have h : Reachable s := .of_exec (fun _ _ _ => trivial) _ (.start ⟨_, _, rfl⟩) hs
  unfold Client.acksFit at hfit
  split at hfit
  · nomatch hfit
  · rename_i k hk
    have hspin : Spinning k s.client := ⟨hex, fun h => (nomatch hudp.symm.trans h.1), hk⟩
    obtain ⟨n, hn⟩ := (hclaim s h hlive).innerClose failingEnv clientConnectError
    have hdeep := innerClose_deep (reachable_sane h hk) (of_decide_eq_false hfit) hspin n
      clientConnectError
    exact hdeep.not_halts (hn n (Nat.le_refl _))

end ConnClient
