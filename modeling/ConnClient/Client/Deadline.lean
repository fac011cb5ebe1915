/-
  The wait before a relink.

  After a loss `CheckRelink` waits until the interval has passed since `conn_state_ts_`, the time
  `CS_INIT` was entered.  KCP goes on meanwhile: its session is kept, the ticks retransmit, and what
  they output is sent.  Over UDP there is no socket and nothing happens.  Over TCP the frame is put
  into the buffer and written to no socket at all, which is an error that closes: `CS_INIT` is entered
  again, the wait begins anew, and the disconnect is reported once more.  A tick that outputs nothing
  and every other step leave the deadline alone (`relink_deadline`).

  Two invariants of all reachable states are needed for that.  The counter is never negative, so
  `CheckRelink` does not set it to zero while it waits; it is even the number of attempts since the
  last login (`Counted`).  And there is no session before the net thread runs (`Unstarted`), so a step
  with a session is not the start of the thread, which sets the counter back.

  Then a step that waits is looked at place by place of the loop (`netStep_unmoved`), and the step
  that does not wait is followed to its close (`netStep_moves`).
-/
import ConnClient.Client.Clean
import ConnClient.Client.Relink

namespace ConnClient

open ConnClient.Lib ConnClient.Ikcp

/-! ## What the wait depends on -/

/-- The deadline, and what has been reported, did not change.  The deadline is `conn_state_ts_` and
    the interval that the counter picks; the reports are in `out_queue_`. -/
structure Unmoved (c c' : Client) : Prop where
  connState : c'.connState = c.connState
  connStateTs : c'.connStateTs = c.connStateTs
  relinkCount : c'.relinkCount = c.relinkCount
  running : c'.running = c.running
  outQueue : c'.outQueue = c.outQueue
  live : c'.live = c.live

theorem Unmoved.refl (c : Client) : Unmoved c c := by
  constructor <;> rfl

/-- The interval of the next relink has passed, and `CheckRelink` connects.  The test is that of the
    source, on the counter that is not negative. -/
def relinkDue (nowMs : Int) (c : Client) : Prop :=
  c.running = true ∧ (clampRelink c).exhausted = false ∧ c.connState = .init ∧
    c.connStateTs + c.relinkIntervalMsVec.getD (clampRelink c).relinkCount.toNat 0 < nowMs

/-- The next step of the net thread runs `InnerConnect`, or a `Close`. -/
inductive ConnectsOrCloses (s : Sys) : Prop where
  | connect {ip : String} {port : BitVec 32} {timeoutMs : Int} {rest : List Task}
      (hpc : s.pc = .drain) (hq : s.client.inQueue = .connect ip port timeoutMs :: rest) :
      ConnectsOrCloses s
  | close {rest : List Task} (hpc : s.pc = .drain) (hq : s.client.inQueue = .close :: rest) :
      ConnectsOrCloses s
  | relink (hpc : s.pc = .relink) (hdue : relinkDue s.nowMs s.client) : ConnectsOrCloses s

/-- The next step is a tick of KCP in TCP mode, and it outputs something. -/
structure OutputsOverTcp (s : Sys) : Prop where
  pc : s.pc = .tick
  tcp : s.client.enableUdp = false
  due : s.client.kcpSession.nextTimeMs ≤ BitVec.ofInt 32 s.nowMs ∨
    s.client.kcpSession.updateNow = true
  outputs : ∃ k, s.client.kcpSession.kcp = some k ∧
    (pvpIkcpUpdate k (BitVec.ofInt 32 s.nowMs)).2 ≠ []

/-! ## Every reachable state -/

/-- `relink_count_` counts the attempts since the last login.  It holds of the control state, so one
    case for each move shows it. -/
def Counted (k : Ctl) : Prop := k.relinkCount = attempts k.trace

theorem Move.counted {k k' : Ctl} (hm : Move k k') (h : Counted k) : Counted k' := by
  cases hm with
  | close hc =>
    cases hc with
    | enter | leave | output | terminal => exact h
    | shut =>
      -- a report is no attempt
      show k.relinkCount = attempts (k.report _ ++ .state .init :: k.trace)
      rw [Ctl.report]
      split
      · exact h
      · exact h
  | noRoom | connecting | dialFail | connected => exact h
  | loginLost => rfl
  | login _ hn =>
    rcases hn with ⟨rfl, -⟩ | rfl | rfl
    · rfl
    · rfl
    · rfl
  | lateNote _ ht =>
    rcases ht with rfl | rfl
    · exact h
    · exact h
  | clamp =>
    -- a number of attempts is never negative, so there is nothing to set to zero
    have hpos : ¬ k.relinkCount < 0 := by
      rw [h]
      omega
    show (if k.relinkCount < 0 then 0 else k.relinkCount) = _
    rw [if_neg hpos]
    exact h
  | attempt =>
    show k.relinkCount + 1 = ((attempts k.trace + 1 : Nat) : Int)
    rw [h]
    rfl
  | @take t rest live _ hq =>
    show k.relinkCount = attempts (handedBy _ live t ++ _ :: k.trace)
    cases t with
    | connect | close => exact h
    | send msg =>
      rw [handedBy]
      split
      · exact h
      · exact h

/-- Until the net thread runs there is no session. -/
structure Unstarted (s : Sys) : Prop where
  early : Early s
  noSession : s.pc = .none ∨ s.pc = .start → s.client.kcpSession.kcp = none

theorem unstarted_step {a : Act} {s s' : Sys} (h : Unstarted s) (hr : sysStep a s = .ok s') :
    Unstarted s' := by
  refine ⟨early_step h.early hr, ?_⟩
  have hquiet := h.early.2
  cases a with
  | connect ip port timeoutMs =>
    cases hr
    rw [connect]
    dsimp only
    split
    · exact h.noSession
    · rename_i ht
      intro _
      exact h.noSession (Or.inl (h.early.1 (Bool.of_not_eq_true ht)))
  | sendMsg msg =>
    cases hr
    rw [sendMsg]
    split
    · exact h.noSession
    · exact h.noSession
  | close | update | addRelinkInterval | clearRelinkInterval | setMagicNum =>
    cases hr
    exact h.noSession
  | switchNetwork w =>
    obtain ⟨c₁, h₁, h₂⟩ := bind_eq_ok.mp hr
    cases h₂
    intro hpc
    -- before the thread starts nobody is logged in, and the switch does nothing
    have hst : s.client.connState = .init := (hquiet hpc).2.1
    rw [switchNetwork, hst, if_neg (fun hl => ConnState.noConfusion hl.1)] at h₁
    cases h₁
    exact h.noSession hpc
  | net w =>
    change netStep w s = .ok s' at hr
    intro hpc
    -- once the thread runs it does not go back to its start
    by_cases hnone : s.pc = .none
    · rw [netStep, hnone] at hr
      cases hr
      exact h.noSession (Or.inl hnone)
    · obtain ⟨h₁, h₂⟩ := netStep_pc hnone hr
      rcases hpc with hpc | hpc
      · exact absurd hpc h₁
      · exact absurd hpc h₂

/-- Both hold of a client that was just constructed. -/
theorem reachable_unstarted {s : Sys} (hs : Reachable s) : Unstarted s := by
  refine hs.inv (I := Unstarted) ?_ fun _ _ _ _ h _ hr => unstarted_step h hr
  rintro s ⟨cb, now, rfl⟩
  refine ⟨⟨fun _ => rfl, fun _ => ⟨rfl, rfl, rfl⟩⟩, fun _ => rfl⟩

/-- The application makes no attempt. -/
theorem AppMove.counted {k k' : Ctl} (hm : AppMove k k') (h : Counted k) : Counted k' := by
  cases hm with
  | accept => exact h
  | ask => exact h

/-- **The counter is the number of attempts**, in every reachable state. -/
theorem reachable_counted {s : Sys} (hs : Reachable s) : Counted s.client.ctl := by
  refine hs.inv (I := fun s => Counted s.client.ctl) ?_ ?_
  · rintro s ⟨cb, now, rfl⟩
    rfl
  · intro s s' a hs h _ hr
    have hstep := sysStep_steps hr
    generalize s'.client.ctl = k at hstep ⊢
    cases hstep with
    | configured => exact h
    | asked hm => exact hm.counted h
    | moved hpath => exact hpath.inv (fun _ _ hm => hm.counted) h
    | started hpc =>
      -- no attempt was made before
      obtain ⟨htrace, -⟩ := (reachable_unstarted hs).early.2 (Or.inr hpc)
      show (0 : Int) = attempts s.client.trace
      rw [htrace]
      rfl

/-! ## What a tick outputs while no socket is open -/

variable {cx : Cx} {c c' : Client}

/-- Over UDP nothing is sent.  Induction on the outputs; each leaves the block of its moment, and no
    more. -/
theorem playOutputs_noUdp (henable : c.enableUdp = true) (hudp : c.udpSock = -1)
    (outs : List (IKCPCB × List Byte)) :
    ∃ session, playOutputs cx outs c = .ok { c with kcpSession := session } := by
  induction outs generalizing c with
  | nil => exact ⟨c.kcpSession, rfl⟩
  | cons e outs ih =>
    let c₁ : Client := { c with kcpSession := { c.kcpSession with kcp := some e.1 } }
    have hnone : kcpOutput cx e.2 c₁ = .ok c₁ := by
      rw [kcpOutput, if_pos henable, sendUDPBuf, if_pos hudp]
    obtain ⟨session, hrest⟩ := ih (c := c₁) henable hudp
    refine ⟨session, ?_⟩
    show kcpOutput cx e.2 c₁ >>= playOutputs cx outs = _
    rw [hnone]
    exact hrest

/-- Over TCP what is unsent cannot be written, and that closes. -/
theorem onTcpWrite_noSocket (cx : Cx) (htcp : c.tcpSock = -1) (hlen : c.writeStream.len ≠ 0) :
    onTcpWrite cx c = cx.close clientConnectError c := by
  have hsend : sendEx cx.env c.tcpSock c.writeStream.len c = ((-1, .other), c) := if_pos htcp
  rw [onTcpWrite, if_neg hlen]
  dsimp only
  rw [hsend]
  rfl

/-- The frame is put behind what is unsent, or there is no room for it; both ways it ends in a
    close. -/
theorem sendTCPBuf_noSocket (cx : Cx) (htcp : c.tcpSock = -1) (cmd : Byte) (msg : List Byte) :
    ∃ stream, sendTCPBuf cx cmd msg c
      = cx.close clientConnectError { c with writeStream := stream } := by
  rw [sendTCPBuf]
  dsimp only
  by_cases hno : (c.writeStream.ensureWritable (csConnHeadSize + msg.length : Nat)).1 = false
  · rw [if_pos hno]
    exact ⟨_, rfl⟩
  · have hlen := frame_pending c.flow c.magic cmd (eq_true_of_ne_false hno)
    rw [if_neg hno]
    refine ⟨_, onTcpWrite_noSocket cx ?_ hlen⟩
    exact htcp

/-- A close takes its time from the clock.  Whatever its flush did before, closing the sockets comes
    last. -/
theorem innerClose_ts {env : Env} {n : Nat} {reason time : Int} (hclock : ∀ i, env.clock i = time)
    (hr : innerClose env n reason c = .ok c') : c'.connStateTs = time := by
  have hsockets : ∀ r d, (closeSockets env r d).connStateTs = time := by
    intro r d
    simp only [closeSockets, setConnState]
    split
    · exact hclock _
    · exact hclock _
  cases n with
  | zero => cases hr
  | succ n =>
    change innerCloseBody env _ (reason, c) = .ok c' at hr
    rw [innerCloseBody] at hr
    dsimp only at hr
    split at hr
    · obtain ⟨c₁, -, h₂⟩ := bind_eq_ok.mp hr
      cases h₂
      exact hsockets _ _
    · cases hr
      exact hsockets _ _

/-- Once the first output has closed, the time stays that of a close.  Induction on the outputs. -/
theorem playOutputs_ts {env : Env} {n : Nat} {time : Int} (hclock : ∀ i, env.clock i = time)
    (hts : c.connStateTs = time) {outs : List (IKCPCB × List Byte)}
    (hr : playOutputs (.of env n) outs c = .ok c') : c'.connStateTs = time := by
  induction outs generalizing c with
  | nil =>
    cases hr
    exact hts
  | cons e outs ih =>
    obtain ⟨c₁, h₁, h₂⟩ := bind_eq_ok.mp hr
    refine ih ?_ h₂
    obtain ⟨x, hx | hx⟩ := kcpOutput_sends (.of env n) e.2
      { c with kcpSession := { c.kcpSession with kcp := some e.1 } }
    · rw [hx] at h₁
      cases h₁
      exact hts
    · rw [hx] at h₁
      exact innerClose_ts hclock h₁

/-- **The first output over TCP closes**, as there is no socket, and from there on the time is that
    of a close. -/
theorem playOutputs_tcp_ts {env : Env} {n : Nat} {time : Int} (hclock : ∀ i, env.clock i = time)
    (henable : c.enableUdp = false) (htcp : c.tcpSock = -1) {outs : List (IKCPCB × List Byte)}
    (hne : outs ≠ []) (hr : playOutputs (.of env n) outs c = .ok c') : c'.connStateTs = time := by
  cases outs with
  | nil => exact absurd rfl hne
  | cons e outs =>
    obtain ⟨c₁, h₁, h₂⟩ := bind_eq_ok.mp hr
    refine playOutputs_ts hclock ?_ h₂
    let c₀ : Client := { c with kcpSession := { c.kcpSession with kcp := some e.1 } }
    have htcp₀ : c₀.tcpSock = -1 := htcp
    have henable₀ : ¬ c₀.enableUdp = true := by
      show ¬ c.enableUdp = true
      rw [henable]
      exact Bool.false_ne_true
    change kcpOutput (.of env n) e.2 c₀ = .ok c₁ at h₁
    obtain ⟨stream, hclose⟩ := sendTCPBuf_noSocket (Cx.of env n).fromOutput htcp₀ controlReliableMsg e.2
    rw [kcpOutput, if_neg henable₀, hclose] at h₁
    exact innerClose_ts hclock h₁

/-! ## One step -/

/-- A tick that does not output over TCP changes the session at most: either nothing is output, or
    what is output goes to no UDP socket. -/
theorem sessionTick_quiet (cx : Cx) {now : IUINT32} (hudp : c.udpSock = -1)
    (hquiet : c.enableUdp = true ∨ ∀ k, c.kcpSession.kcp = some k →
      c.kcpSession.nextTimeMs ≤ now ∨ c.kcpSession.updateNow = true → (pvpIkcpUpdate k now).2 = []) :
    ∃ session, sessionTick cx now c = .ok { c with kcpSession := session }
      ∧ session.isNull = c.kcpSession.isNull := by
  have hsame : ∃ session, (.ok c : M Client) = .ok { c with kcpSession := session }
      ∧ session.isNull = c.kcpSession.isNull := ⟨c.kcpSession, rfl, rfl⟩
  rw [sessionTick]
  split
  · exact hsame
  split
  · rename_i hdue
    rw [sessionUpdate]
    cases hk : c.kcpSession.kcp with
    | none => exact ⟨_, rfl, rfl⟩
    | some k =>
      dsimp only
      have hplay : ∃ session, playOutputs cx (pvpIkcpUpdate k now).2
          { c with brackets := .update :: c.brackets }
          = .ok { c with brackets := .update :: c.brackets, kcpSession := session } := by
        rcases hquiet with henable | hquiet
        · exact playOutputs_noUdp (c := { c with brackets := .update :: c.brackets }) henable hudp _
        · rw [hquiet k hk hdue]
          exact ⟨c.kcpSession, rfl⟩
      obtain ⟨session, hplay⟩ := hplay
      have hnull : c.kcpSession.isNull = false := by
        rw [KcpSession.isNull, hk]
        rfl
      rw [runKcp, hplay, hnull]
      exact ⟨_, rfl, rfl⟩
  · exact hsame

/-- A counter that is one is not clamped. -/
theorem clampRelink_eq (h : 0 ≤ c.relinkCount) : clampRelink c = c := by
  rw [clampRelink, if_neg (Int.not_lt.mpr h)]

/-- `CheckRelink` returns at one of its three tests, or the interval has not passed. -/
theorem checkRelink_waits {now : Int} (hcount : 0 ≤ c.relinkCount) (hdue : ¬ relinkDue now c) :
    checkRelink cx now c = .ok c := by
  rw [checkRelink]
  by_cases hrun : c.running = false
  · rw [if_pos hrun]
  rw [if_neg hrun]
  dsimp only
  rw [relinkDue, clampRelink_eq hcount] at hdue
  rw [clampRelink_eq hcount]
  by_cases hx : c.exhausted = true
  · rw [if_pos hx]
  rw [if_neg hx, if_neg]
  rintro ⟨hinit, hlt⟩
  exact hdue ⟨eq_true_of_ne_false hrun, eq_false_of_ne_true hx, hinit, hlt⟩

/-- Below `CS_LOGIC_CONNECTED` a message is dropped. -/
theorem sendKCPBuf_init (hinit : c.connState = .init) (msg : List Byte) :
    sendKCPBuf cx msg c = .ok c := by
  rw [sendKCPBuf]
  split
  · rfl
  · rw [hinit, if_pos (by decide)]

/-- **A step that waits** returns, and leaves the deadline alone.  In `CS_INIT` there are no
    sockets, so most places of the loop have nothing to do. -/
theorem netStep_unmoved {s : Sys} (hs : Reachable s) (hinit : s.client.connState = .init)
    (hlive : s.client.live = true) (hno : ¬ ConnectsOrCloses s) (hquiet : ¬ OutputsOverTcp s)
    (w : World) : ∃ s', netStep w s = .ok s' ∧ Unmoved s.client s'.client := by
  have hclean := reachable_clean hs
  have htcp : s.client.tcpSock = -1 := hclean.tcp.mp hinit
  have hudp : s.client.udpSock = -1 := hclean.udp.mp hinit
  have hcount : 0 ≤ s.client.relinkCount := by
    have hcounted : s.client.relinkCount = attempts s.client.trace := reachable_counted hs
    omega
  -- there is a session, so the thread runs
  have hstarted : ¬ (s.pc = .none ∨ s.pc = .start) := by
    intro hpc
    have hnone := (reachable_unstarted hs).noSession hpc
    rw [Client.live, KcpSession.isNull, hnone] at hlive
    cases hlive
  rw [netStep]
  cases hpc : s.pc with
  | none => exact absurd (Or.inl hpc) hstarted
  | start => exact absurd (Or.inr hpc) hstarted
  | head =>
    dsimp only
    split
    · exact ⟨_, rfl, .refl _⟩
    · split
      · exact ⟨_, rfl, by constructor <;> rfl⟩
      · exact ⟨_, rfl, .refl _⟩
  | tcp =>
    dsimp only
    rw [tcpEvent, if_pos htcp]
    exact ⟨_, rfl, .refl _⟩
  | udp =>
    have hnone : udpEvent w s.curTime s.client = .ok s.client := by
      rw [udpEvent]
      split
      · rfl
      · exact if_pos hudp
    dsimp only
    rw [hnone]
    exact ⟨_, rfl, .refl _⟩
  | drain =>
    dsimp only
    cases hq : s.client.inQueue with
    | nil => exact ⟨_, rfl, by constructor <;> rfl⟩
    | cons t rest =>
      cases t with
      | connect ip port timeoutMs => exact absurd (.connect hpc hq) hno
      | close => exact absurd (.close hpc hq) hno
      | send msg =>
        -- before a login a message is dropped
        dsimp only
        rw [runTask, sendKCPBuf_init (by exact hinit)]
        exact ⟨_, rfl, by constructor <;> rfl⟩
  | tick =>
    -- over UDP an output finds no socket; over TCP there is none by assumption
    have hsend : s.client.enableUdp = true ∨ ∀ k, s.client.kcpSession.kcp = some k →
        s.client.kcpSession.nextTimeMs ≤ BitVec.ofInt 32 s.nowMs ∨
          s.client.kcpSession.updateNow = true →
        (pvpIkcpUpdate k (BitVec.ofInt 32 s.nowMs)).2 = [] := by
      cases henable : s.client.enableUdp with
      | true => exact Or.inl rfl
      | false =>
        right
        intro k hk hdue
        by_contra hne
        exact hquiet ⟨hpc, henable, hdue, k, hk, hne⟩
    obtain ⟨session, htick, hnull⟩ := sessionTick_quiet w.cx hudp hsend
    dsimp only
    rw [htick]
    exact ⟨_, rfl, rfl, rfl, rfl, rfl, rfl, congrArg not hnull⟩
  | tcpPing =>
    dsimp only
    -- no ping before a login, none without a socket, and no time runs out in `CS_INIT`
    rw [sendTcpPing, hinit, if_pos (by decide)]
    exact ⟨_, rfl, .refl _⟩
  | udpPing =>
    dsimp only
    rw [sendUdpPing, if_pos hudp]
    exact ⟨_, rfl, .refl _⟩
  | timeout =>
    dsimp only
    rw [checkTimeout, hinit, if_neg (fun h => absurd h.1 (by decide))]
    exact ⟨_, rfl, .refl _⟩
  | relink =>
    have hwaits : checkRelink w.cx s.nowMs s.client = .ok s.client :=
      checkRelink_waits hcount fun hdue => hno (.relink hpc hdue)
    dsimp only
    rw [hwaits]
    exact ⟨_, rfl, .refl _⟩
  | left => exact ⟨_, rfl, .refl _⟩

/-- **A tick that outputs over TCP does not**, if the clock has moved.  The tick is due and outputs
    something, so it comes to `playOutputs`, and that closes. -/
theorem netStep_moves {s s' : Sys} (hs : Reachable s) (hinit : s.client.connState = .init)
    (hout : OutputsOverTcp s) {w : World} {time : Int} (hclock : ∀ i, w.env.clock i = time)
    (hr : netStep w s = .ok s') : s'.client.connStateTs = time := by
  have htcp : s.client.tcpSock = -1 := (reachable_clean hs).tcp.mp hinit
  obtain ⟨k, hk, hne⟩ := hout.outputs
  have hnull : ¬ s.client.kcpSession.isNull = true := by
    rw [KcpSession.isNull, hk]
    exact Bool.false_ne_true
  rw [netStep, hout.pc] at hr
  obtain ⟨c₁, h₁, h₂⟩ := bind_eq_ok.mp hr
  cases h₂
  rw [sessionTick, if_neg hnull, if_pos hout.due] at h₁
  obtain ⟨c₂, h₂, h₃⟩ := bind_eq_ok.mp h₁
  cases h₃
  -- down to the outputs of the update
  rw [sessionUpdate, hk] at h₂
  obtain ⟨c₃, h₃, h₄⟩ := bind_eq_ok.mp h₂
  cases h₄
  obtain ⟨c₄, h₄, h₅⟩ := bind_eq_ok.mp h₃
  cases h₅
  let c₀ : Client := { s.client with brackets := .update :: s.client.brackets }
  change playOutputs (.of w.env w.depth) _ c₀ = .ok c₄ at h₄
  have htcp₀ : c₀.tcpSock = -1 := htcp
  have henable₀ : c₀.enableUdp = false := hout.tcp
  have hts : c₄.connStateTs = time := playOutputs_tcp_ts hclock henable₀ htcp₀ hne h₄
  exact hts

/-! ## The wait -/

/-- The steps of a wait: the net thread neither connects nor closes, and no tick outputs over TCP. -/
def KeepsWaiting (s : Sys) (a : Act) : Prop :=
  ∀ w, a = .net w → ¬ ConnectsOrCloses s ∧ ¬ OutputsOverTcp s

/-- The deadline of `s₀` stands, and nothing was reported since: `Update` may have taken reports out
    of the queue, so what is there is the end of what was. -/
structure Stands (s₀ s : Sys) : Prop where
  connState : s.client.connState = .init
  live : s.client.live = true
  connStateTs : s.client.connStateTs = s₀.client.connStateTs
  relinkCount : s.client.relinkCount = s₀.client.relinkCount
  running : s.client.running = s₀.client.running
  outQueue : s.client.outQueue <:+ s₀.client.outQueue

theorem Stands.refl {s : Sys} (hinit : s.client.connState = .init) (hlive : s.client.live = true) :
    Stands s s :=
  ⟨hinit, hlive, rfl, rfl, rfl, List.suffix_refl _⟩

/-- **One step of the wait.** The application may ask for what it likes: no message is taken without
    a login, and the switch of the network does nothing in `CS_INIT`. -/
theorem Stands.step {s₀ s s' : Sys} {a : Act} (hs : Reachable s) (h : Stands s₀ s)
    (hc : KeepsWaiting s a) (hr : sysStep a s = .ok s') : Stands s₀ s' := by
  cases a with
  | connect ip port timeoutMs =>
    cases hr
    rw [connect]
    dsimp only
    split
    · exact { h with }
    · exact { h with }
  | sendMsg msg =>
    cases hr
    rw [sendMsg, h.connState, if_pos (by decide)]
    exact { h with }
  | update =>
    cases hr
    exact { h with outQueue := (List.tail_suffix _).trans h.outQueue }
  | close | addRelinkInterval | clearRelinkInterval | setMagicNum =>
    cases hr
    exact { h with }
  | switchNetwork w =>
    obtain ⟨c₁, h₁, h₂⟩ := bind_eq_ok.mp hr
    cases h₂
    rw [switchNetwork, h.connState, if_neg (fun hl => ConnState.noConfusion hl.1)] at h₁
    cases h₁
    exact { h with }
  | net w =>
    obtain ⟨hno, hquiet⟩ := hc w rfl
    obtain ⟨s₁, h₁, hsame⟩ := netStep_unmoved hs h.connState h.live hno hquiet w
    change netStep w s = .ok s' at hr
    rw [h₁] at hr
    cases hr
    constructor
    · exact hsame.connState.trans h.connState
    · exact hsame.live.trans h.live
    · exact hsame.connStateTs.trans h.connStateTs
    · exact hsame.relinkCount.trans h.relinkCount
    · exact hsame.running.trans h.running
    · rw [hsame.outQueue]
      exact h.outQueue

/-- **The relink deadline is fixed by the loss, as long as no tick outputs over TCP.**  In every
    reachable state at `CS_INIT` with a live session, a step that neither connects nor closes returns
    and leaves the deadline and the reports alone, whatever the world does, exactly if it is no tick
    that outputs something in TCP mode; and in every run from such a state whose steps are all like
    that, the deadline stands, and nothing is added to what was reported. -/
theorem relink_deadline {s : Sys} (hs : Reachable s) (hinit : s.client.connState = .init)
    (hlive : s.client.live = true) :
    (¬ ConnectsOrCloses s →
      ((∀ w, ∃ s', netStep w s = .ok s' ∧ Unmoved s.client s'.client) ↔ ¬ OutputsOverTcp s)) ∧
    ∀ s', Reach sysStep (fun s₀ => s₀ = s) KeepsWaiting s' → Stands s s' := by
  constructor
  · intro hno
    constructor
    · -- a tick that outputs moves the deadline in some world, so it is not so in all worlds
      intro hall hout
      -- in a world whose clock has gone on by a millisecond
      let w : World := { sampleWorld 2000 with
        env := { sampleEnv 2000 with clock := fun _ => s.client.connStateTs + 1 } }
      obtain ⟨s', hr, hsame⟩ := hall w
      have hts : s'.client.connStateTs = s.client.connStateTs + 1 :=
        netStep_moves hs hinit hout (fun _ => rfl) hr
      have hsame := hsame.connStateTs
      omega
    · intro hquiet w
      exact netStep_unmoved hs hinit hlive hno hquiet w
  · intro s' hrun
    -- induction on the run, with the fact that its states are reachable
    have hboth : Reachable s' ∧ Stands s s' := by
      induction hrun with
      | start h =>
        subst h
        exact ⟨hs, .refl hinit hlive⟩
      | step _ hc hr ih => exact ⟨.step ih.1 trivial hr, ih.2.step ih.1 hc hr⟩
    exact hboth.2

/-! ## Two ticks after a loss -/

/-- `OutputsOverTcp`, as a test. -/
def outputsOverTcp (s : Sys) : Bool :=
  s.pc == .tick && !s.client.enableUdp &&
    (decide (s.client.kcpSession.nextTimeMs ≤ BitVec.ofInt 32 s.nowMs)
      || s.client.kcpSession.updateNow) &&
    s.client.kcpSession.kcp.any fun k => !(pvpIkcpUpdate k (BitVec.ofInt 32 s.nowMs)).2.isEmpty

theorem outputsOverTcp_complete {s : Sys} (h : OutputsOverTcp s) : outputsOverTcp s = true := by
  obtain ⟨hpc, htcp, hdue, k, hk, hne⟩ := h
  have hany : (!(pvpIkcpUpdate k (BitVec.ofInt 32 s.nowMs)).2.isEmpty) = true := by
    cases hout : (pvpIkcpUpdate k (BitVec.ofInt 32 s.nowMs)).2 with
    | nil => exact absurd hout hne
    | cons => rfl
  rw [outputsOverTcp, hpc, htcp, hk]
  rcases hdue with hdue | hdue
  · rw [decide_eq_true hdue]
    exact hany
  · rw [hdue, Bool.or_true]
    exact hany

/-- A session, then `data`, then a ping that breaks the connection; the next step is the tick. -/
def sampleLoss (data : List Byte) : List Act :=
  .addRelinkInterval 1000 ::
    sampleRead (sampleInfo 500 ++ data ++ tcpFrame 1 0 controlPing [])

/-- Nothing is to be sent: the tick leaves the deadline alone. -/
theorem relink_deadline_idle : ∃ s s', Reachable s ∧ s.pc = .tick ∧ s.client.connState = .init ∧
    netStep (sampleWorld 2000) s = .ok s' ∧ Unmoved s.client s'.client := by
  have hrun : (sampleExec (sampleLoss [])).map (fun s =>
      (s.pc, s.client.connState, s.client.live, outputsOverTcp s))
      = some (.tick, .init, true, false) := by decide +kernel
  obtain ⟨s, hs, hrun⟩ := Option.map_eq_some_iff.mp hrun
  simp only [Prod.mk.injEq] at hrun
  obtain ⟨hpc, hinit, hlive, hquiet⟩ := hrun
  have hreach : Reachable s := .of_exec (fun _ _ _ => trivial) _ (.start ⟨_, _, rfl⟩) hs
  have hno : ¬ ConnectsOrCloses s := by
    intro h
    cases h with
    | connect h | close h | relink h =>
      rw [hpc] at h
      cases h
  have hout : ¬ OutputsOverTcp s := fun h => by
    rw [outputsOverTcp_complete h] at hquiet
    cases hquiet
  obtain ⟨s', hr, hsame⟩ :=
    ((relink_deadline hreach hinit hlive).1 hno).mpr hout (sampleWorld 2000)
  exact ⟨s, s', hreach, hpc, hinit, hr, hsame⟩

/-- An acknowledgement is due: the tick starts the wait again. -/
theorem tick_restarts_wait :
    ¬ ∀ s w s', Reachable s → s.client.connState = .init → s.client.live = true →
      ¬ ConnectsOrCloses s → netStep w s = .ok s' → Unmoved s.client s'.client := by
  intro hclaim
  have hrun : (sampleExec (sampleLoss (samplePush 0))).map (fun s =>
      (s.pc, s.client.connState, s.client.live, s.client.outQueue.length,
        (netStep (sampleWorld 2000) s).toOption.map (·.client.outQueue.length)))
      = some (.tick, .init, true, 2, some 3) := by decide +kernel
  obtain ⟨s, hs, hrun⟩ := Option.map_eq_some_iff.mp hrun
  simp only [Prod.mk.injEq] at hrun
  obtain ⟨hpc, hinit, hlive, hq, hstep⟩ := hrun
  have hreach : Reachable s := .of_exec (fun _ _ _ => trivial) _ (.start ⟨_, _, rfl⟩) hs
  have hno : ¬ ConnectsOrCloses s := by
    intro h
    cases h with
    | connect h | close h | relink h =>
      rw [hpc] at h
      cases h
  cases hr : netStep (sampleWorld 2000) s with
  | error e =>
    rw [hr] at hstep
    cases hstep
  | ok s' =>
    rw [hr] at hstep
    have hthree : s'.client.outQueue.length = 3 := Option.some.inj hstep
    have hsame := congrArg List.length (hclaim s _ s' hreach hinit hlive hno hr).outQueue
    omega

end ConnClient
