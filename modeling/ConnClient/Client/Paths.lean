/-
  Every function of the client is a path of control moves.

  The functions are given the `InnerClose` to call, and all they need to know of it is `Closes`: a
  close that returns was a path of closing moves, and left nothing open.  `innerClose` itself has
  that property, by induction on how deep its calls nest.

  A close is a move only under a condition, `Shuts`: it does not report what was reported already,
  unless one of the branches was taken that may report twice.  So every function has to say, wherever
  it closes, why that is so, and there are three answers.

  1. Something is open.  The handlers run for a socket that is there and the timers for a state above
     `CS_INIT`, so this is the answer nearly everywhere (`shuts_error`).
  2. The trace has the event of a branch that may report twice (`shuts_hazard`): the output callback
     closed under a flush, the read buffer was full and `OnTcpRead` went on.
  3. Nothing was reported since the last attempt: a failed dial, and a task `Close`.

  What a function does after a call that may have closed is the other half.  On the way to
  `InnerClose` lies the flush, whose outputs may close the connection under it; `Sent` records what a
  caller can still say afterwards: nothing moved, or the event of such a close is there, with the KCP
  routine it happened in.  And `Kept` says that the TCP connection is as it was, or closed with
  nothing left to read, so the frame loop, which goes on reading, has a connection or has come to its
  end (`Open`).

  From the functions to the system it is one step each: a step of the net thread is a path
  (`netStep_path`), a step of the application is a move of its own, and `sysStep_inv` is what the
  rest of the development uses.
-/
import ConnClient.Client.Control
import ConnClient.Client.Sending

namespace ConnClient

open ConnClient.Lib ConnClient.Ikcp

/-! ## What a close and a send leave behind -/

/-- The TCP connection is as it was, or closed with nothing left to read.  There is no third case,
    because every close resets the read buffer. -/
def Kept (c c' : Client) : Prop :=
  (c'.tcpSock = c.tcpSock ∧ c'.readStream = c.readStream)
  ∨ (c'.tcpSock = -1 ∧ c'.readStream.len = 0)

theorem Kept.refl (c : Client) : Kept c c := Or.inl ⟨rfl, rfl⟩

theorem Kept.trans {c c' c'' : Client} (h : Kept c c') (h' : Kept c' c'') : Kept c c'' := by
  rcases h' with ⟨hs, hr⟩ | h'
  · unfold Kept
    rw [hs, hr]
    exact h
  · exact Or.inr h'

/-- After a close.  The brackets are those of before, since a flush takes its own off again; and the
    session is gone if the reason is terminal. -/
structure Closed (reason : Int) (c c' : Client) : Prop where
  path : Closing c.ctl c'.ctl
  brackets : c'.brackets = c.brackets
  tcpSock : c'.tcpSock = -1
  readStream : c'.readStream.len = 0
  released : c.ctl.closeReason reason < clientConnectError → c'.kcpSession.kcp = none

/-- How `InnerClose` behaves when it returns: the condition is asked for the reason it acts on,
    which with the relinks used up is not the one it was given. -/
def Closes (cx : Cx) : Prop :=
  ∀ reason c c', Shuts (c.ctl.closeReason reason) c.ctl → cx.close reason c = .ok c' →
    Closed reason c c'

/-- After KCP has sent: `b` is the routine that was running.  If the control state is not what it
    was, an output closed, and the event of that names `b`. -/
structure Sent (b : Option Bracket) (c c' : Client) : Prop where
  path : Closing c.ctl c'.ctl
  brackets : c'.brackets = c.brackets
  quiet : c'.ctl = c.ctl ∨ ∃ idle exhausted, .outputClose b idle exhausted ∈ c'.trace
  kept : Kept c c'

theorem Sent.refl (b : Option Bracket) (c : Client) : Sent b c c :=
  ⟨.refl, rfl, Or.inl rfl, .refl c⟩

theorem Sent.trans {b : Option Bracket} {c c' c'' : Client} (h : Sent b c c')
    (h' : Sent b c' c'') : Sent b c c'' := by
  refine ⟨h.path.trans h'.path, h'.brackets.trans h.brackets, ?_, h.kept.trans h'.kept⟩
  -- an event of the first half is still there after the second
  rcases h'.quiet with he | he
  · rcases h.quiet with hq | ⟨i, x, hq⟩
    · exact Or.inl (he.trans hq)
    · exact Or.inr ⟨i, x, h'.path.suffix.subset hq⟩
  · exact Or.inr he

/-- The session is not connection control. -/
theorem Sent.session {b : Option Bracket} {c c' : Client} (h : Sent b c c') (s : KcpSession) :
    Sent b c { c' with kcpSession := s } :=
  ⟨h.path, h.brackets, h.quiet, h.kept⟩

variable {cx : Cx} {c c' : Client}

/-- A close for an error, while something is open. -/
theorem shuts_error {k : Ctl} {reason : Int} (hr : 0 ≤ reason) (h : k.idle = false) :
    Shuts (k.closeReason reason) k := by
  refine ⟨fun _ => Or.inl h, fun hneg => ?_⟩
  unfold Ctl.closeReason clientConnectTimeout at hneg
  split at hneg <;> omega

/-- A close for an error, after a hazard. -/
theorem shuts_hazard {k : Ctl} {reason : Int} (hr : 0 ≤ reason) (h : hazard k.trace = true) :
    Shuts (k.closeReason reason) k := by
  refine ⟨fun _ => Or.inr (Or.inr h), fun hneg => ?_⟩
  unfold Ctl.closeReason clientConnectTimeout at hneg
  split at hneg <;> omega

/-! ## The output callback and the KCP routines -/

/-- **The output callback**: it sends, or it closes and leaves the event of that. -/
theorem kcpOutput_sent (h : Closes cx) {data : List Byte} (hr : kcpOutput cx data c = .ok c') :
    Sent c.brackets.head? c c' := by
  -- the send goes through, or fails and closes with its event in the trace
  obtain ⟨x, hx | hx⟩ := kcpOutput_sends cx data c
  · rw [hx] at hr
    cases hr
    exact ⟨.refl, rfl, Or.inl rfl, Or.inl ⟨rfl, rfl⟩⟩
  · let e : Ev := .outputClose c.brackets.head? c.idle c.exhausted
    rw [hx] at hr
    change cx.close clientConnectError ((c.sent x).log e) = .ok c' at hr
    have hlog : CloseMove c.ctl ((c.sent x).log e).ctl := .output c.ctl
    -- closing what is closed already is a hazard
    have hshuts : Shuts (((c.sent x).log e).ctl.closeReason clientConnectError)
        ((c.sent x).log e).ctl := by
      cases hidle : c.idle with
      | false => exact shuts_error (by decide) hidle
      | true =>
        refine shuts_hazard (by decide) ?_
        show hazard (e :: c.trace) = true
        simp [e, hazard, hidle]
    have hclosed := h _ _ _ hshuts hr
    exact ⟨(Relation.ReflTransGen.single hlog).trans hclosed.path, hclosed.brackets,
      Or.inr ⟨_, _, hclosed.path.suffix.subset (List.mem_cons_self ..)⟩,
      Or.inr ⟨hclosed.tcpSock, hclosed.readStream⟩⟩

/-- Output after output, each from the client that the one before left; the bracket on top is the
    same for all of them. -/
theorem playOutputs_sent (h : Closes cx) (outs : List (IKCPCB × List Byte)) {c c' : Client}
    (hr : playOutputs cx outs c = .ok c') : Sent c.brackets.head? c c' := by
  refine playOutputs_ok (R := fun c c' => Sent c.brackets.head? c c') (fun c => .refl ..) ?_ hr
  intro kcp data c c₁ c' h₁ hrest
  have hfirst := kcpOutput_sent h h₁
  rw [hfirst.brackets] at hrest
  -- the output comes with the block of the moment
  have hset : Sent c.brackets.head? c { c with kcpSession := { c.kcpSession with kcp := some kcp } } :=
    ⟨.refl, rfl, Or.inl rfl, Or.inl ⟨rfl, rfl⟩⟩
  exact (hset.trans hfirst).trans hrest

/-- **A KCP routine** enters, outputs and leaves. -/
theorem runKcp_sent (h : Closes cx) {b : Bracket} {r : IKCPCB × List (IKCPCB × List Byte)}
    (hr : runKcp cx b r c = .ok c') : Sent (some b) c c' := by
  obtain ⟨c₁, h₁, h₂⟩ := bind_eq_ok.mp hr
  have hs := playOutputs_sent h _ h₁
  cases h₂
  have hb : c₁.brackets = b :: c.brackets := hs.brackets
  -- the bracket on top is the one this routine put there, so taking it off restores the list
  have hctl : ∀ k : Ctl, c₁.ctl = { k with brackets := b :: c.brackets } →
      { c₁.ctl with brackets := c₁.brackets.tail } = { k with brackets := c.brackets } := by
    intro k hk
    rw [hk, hb]
    rfl
  refine ⟨?_, congrArg List.tail hb, ?_, hs.kept⟩
  · have hleave : CloseMove c₁.ctl { c₁.ctl with brackets := c₁.brackets.tail } := by
      have := CloseMove.leave b { c₁.ctl with brackets := c.brackets }
      rw [hb]
      rwa [← hb] at this
    exact ((Relation.ReflTransGen.single (.enter b c.ctl)).trans hs.path).tail hleave
  · exact hs.quiet.imp_left fun he => hctl c.ctl he

/-- The three routines of a session: without a block nothing happens. -/
theorem sessionFlush_sent (h : Closes cx) {reason : Int}
    (hr : sessionFlush cx reason c = .ok c') : Sent (some (.flush reason)) c c' := by
  unfold sessionFlush at hr
  split at hr
  · cases hr
    exact .refl ..
  · exact runKcp_sent h hr

theorem sessionUpdate_sent (h : Closes cx) {now : IUINT32} (hr : sessionUpdate cx now c = .ok c') :
    Sent (some .update) c c' := by
  unfold sessionUpdate at hr
  split at hr
  · cases hr
    exact .refl ..
  · obtain ⟨c₁, h₁, h₂⟩ := bind_eq_ok.mp hr
    cases h₂
    exact (runKcp_sent h h₁).session _

theorem sessionTick_sent (h : Closes cx) {now : IUINT32} (hr : sessionTick cx now c = .ok c') :
    Sent (some .update) c c' := by
  unfold sessionTick at hr
  split at hr
  · cases hr
    exact .refl ..
  · split at hr
    · obtain ⟨c₁, h₁, h₂⟩ := bind_eq_ok.mp hr
      cases h₂
      exact (sessionUpdate_sent h h₁).session _
    · cases hr
      exact .refl ..

/-! ## `InnerClose` -/

/-- The end of `InnerClose`, in the control state: everything is closed, and the report follows the
    state. -/
theorem closeSockets_ctl (env : Env) (reason : Int) (c : Client) :
    (closeSockets env reason c).ctl = c.ctl.shut reason := by
  simp only [closeSockets, Ctl.shut, Ctl.report, setConnState]
  by_cases hr : reason ≥ 0 ∧ c.cb.disconnect = true
  · rw [if_pos hr, if_pos (show reason ≥ 0 ∧ c.ctl.cb.disconnect = true from hr)]
    rfl
  · rw [if_neg hr, if_neg (show ¬ (reason ≥ 0 ∧ c.ctl.cb.disconnect = true) from hr)]
    rfl

/-- Nothing stays to be read, and the session is left alone. -/
theorem closeSockets_rest (env : Env) (reason : Int) (c : Client) :
    (closeSockets env reason c).readStream.len = 0
      ∧ (closeSockets env reason c).kcpSession = c.kcpSession := by
  simp only [closeSockets, setConnState]
  split <;> exact ⟨rfl, rfl⟩

/-- The terminal branch: after the flush the close may still be carried out, since an output that
    closed in the middle of a reporting flush was a hazard. -/
theorem closeSession_closes (h : Closes cx) {reason : Int}
    (hr : closeSession cx reason c = .ok c') :
    Closing c.ctl c'.ctl ∧ c'.brackets = c.brackets ∧ c'.kcpSession.kcp = none
      ∧ (Shuts reason c.ctl → Shuts reason c'.ctl) := by
  obtain ⟨c₁, h₁, h₂⟩ := bind_eq_ok.mp hr
  obtain ⟨c₂, h₂, h₃⟩ := bind_eq_ok.mp h₂
  have hs := sessionFlush_sent h h₁
  unfold sessionRelease at h₂
  split at h₂
  · nomatch h₂
  · cases h₂
    cases h₃
    refine ⟨hs.path.tail (.terminal c₁.ctl), hs.brackets, rfl, fun hshuts => ⟨fun hpos => ?_, ?_⟩⟩
    · -- Either the flush moved nothing, and what made the close permissible still does; or an
      -- output closed under it, which is a hazard if this close is to report.
      rcases hs.quiet with hq | ⟨i, x, hq⟩
      · have hidle : Ctl.idle c₁.ctl = Ctl.idle c.ctl := congrArg Ctl.idle hq
        have htrace : c₁.trace = c.trace := congrArg Ctl.trace hq
        have honce := hshuts.once hpos
        show Ctl.idle c₁.ctl = false ∨ reports c₁.trace = 0 ∨ hazard c₁.trace = true
        rw [hidle, htrace]
        exact honce
      · have hrep : Bracket.reporting (some (.flush reason)) = true := decide_eq_true hpos
        have hz : hazard c₁.trace = true := hazard_of_mem hrep hq
        exact Or.inr (Or.inr hz)
    · intro hneg
      -- a silent close stays permissible, since no close brings a success back
      exact hs.path.forgiven (hshuts.silent hneg)

/-- **`InnerClose` closes**, however deep its calls nest.  Induction on the depth. -/
theorem innerClose_closes (env : Env) (n : Nat) : Closes (.of env n) := by
  let S : Int × Client → Client → Prop := fun a c' =>
    Shuts (a.2.ctl.closeReason a.1) a.2.ctl → Closed a.1 a.2 c'
  suffices h : ∀ n a c', unroll (fun a => (Stop.deep, a.2)) (innerCloseBody env) n a = .ok c' → S a c'
    from fun reason c c' hshuts hr => h n (reason, c) c' hr hshuts
  refine unroll_ok fun f hf a c' hr hshuts => ?_
  obtain ⟨reason, c⟩ := a
  -- the calls one level further down close, by the hypothesis of the induction
  have hcloses : Closes ⟨env, fun reason c => f (reason, c)⟩ := fun reason c c' hs hr =>
    hf (reason, c) c' hr hs
  -- the end of every close, after whatever was done about the session
  have hclosed : ∀ c₁, Closing c.ctl c₁.ctl → c₁.brackets = c.brackets →
      Shuts (closeReason reason c) c₁.ctl →
      (c.ctl.closeReason reason < clientConnectError → c₁.kcpSession.kcp = none) →
      Closed reason c (closeSockets env (closeReason reason c) c₁) := by
    intro c₁ hpath hb hs hrel
    have hctl := closeSockets_ctl env (closeReason reason c) c₁
    obtain ⟨hread, hsession⟩ := closeSockets_rest env (closeReason reason c) c₁
    refine ⟨?_, ?_, ?_, hread, fun hlt => hsession ▸ hrel hlt⟩
    · rw [hctl]
      exact hpath.tail (.shut hs)
    · exact (congrArg Ctl.brackets hctl).trans hb
    · exact congrArg Ctl.tcpSock hctl
  unfold innerCloseBody at hr
  dsimp only at hr
  -- a terminal reason releases the session; any other keeps it for the next connection
  by_cases hlt : closeReason reason c < clientConnectError
  · rw [if_pos hlt] at hr
    obtain ⟨c₁, h₁, h₂⟩ := bind_eq_ok.mp hr
    cases h₂
    obtain ⟨hpath, hb, hnone, hs⟩ := closeSession_closes hcloses h₁
    exact hclosed c₁ hpath hb (hs hshuts) fun _ => hnone
  · rw [if_neg hlt] at hr
    cases hr
    exact hclosed c .refl rfl hshuts fun h => absurd h hlt

/-! ## Messages and logins -/

/-- Idle is having neither socket and being in `CS_INIT`; any one of the three says that something
    is open. -/
theorem idle_of_tcpSock (h : c.tcpSock ≠ -1) : c.idle = false := by
  unfold Client.idle
  simp [h]

theorem idle_of_udpSock (h : c.udpSock ≠ -1) : c.idle = false := by
  unfold Client.idle
  simp [h]

theorem idle_of_connState (h : c.connState ≠ .init) : c.idle = false := by
  unfold Client.idle
  simp [h]

/-- The last of the four states is the only one that is not below `CS_LOGIC_CONNECTED`. -/
theorem logic_of_ord (h : ¬ c.connState.ord < ConnState.logicConnected.ord) :
    c.connState = .logicConnected := by
  cases hst : c.connState with
  | logicConnected => rfl
  | init | connecting | connected =>
    rw [hst] at h
    exact absurd (by decide) h

/-- After a function of the net thread: the control state took a path, no bracket was left behind,
    and the connection is as it was or closed. -/
structure Moved (c c' : Client) : Prop where
  path : Path c.ctl c'.ctl
  brackets : c'.brackets = c.brackets
  kept : Kept c c'

theorem Moved.refl (c : Client) : Moved c c := ⟨.refl, rfl, .refl c⟩

theorem Moved.trans {c c' c'' : Client} (h : Moved c c') (h' : Moved c' c'') : Moved c c'' :=
  ⟨h.path.trans h'.path, h'.brackets.trans h.brackets, h.kept.trans h'.kept⟩

/-- Something else than connection control changed. -/
theorem Moved.inert (hctl : c'.ctl = c.ctl) (hread : c'.readStream = c.readStream) : Moved c c' :=
  ⟨hctl ▸ .refl, congrArg Ctl.brackets hctl, Or.inl ⟨congrArg Ctl.tcpSock hctl, hread⟩⟩

theorem Closed.moved {reason : Int} (h : Closed reason c c') : Moved c c' :=
  ⟨h.path.path, h.brackets, Or.inr ⟨h.tcpSock, h.readStream⟩⟩

theorem Sent.moved {b : Option Bracket} (h : Sent b c c') : Moved c c' :=
  ⟨h.path.path, h.brackets, h.kept⟩

/-- A close for an error, while something is open. -/
theorem close_moved (h : Closes cx) {reason : Int} (hpos : 0 ≤ reason) (hi : c.idle = false)
    (hr : cx.close reason c = .ok c') : Moved c c' :=
  (h _ _ _ (shuts_error hpos hi) hr).moved

/-- A send while something is open. -/
theorem sends_moved (h : Closes cx) {r : M Client} (hs : Sends cx c r) (hi : c.idle = false)
    (hr : r = .ok c') : Moved c c' := by
  obtain ⟨x, rfl | rfl⟩ := hs
  · cases hr
    exact .inert rfl rfl
  · have hsent : Moved c (c.sent x) := .inert rfl rfl
    exact hsent.trans (close_moved h (by decide) hi hr)

/-- A ping of the timer: the state says that something is open. -/
theorem sendTcpPing_moved (h : Closes cx) {nowMs : Int} {immediate : Bool}
    (hr : sendTcpPing cx nowMs immediate c = .ok c') : Moved c c' := by
  by_cases hst : c.connState = .init
  · unfold sendTcpPing at hr
    rw [hst, if_pos (by decide)] at hr
    cases hr
    exact .refl c
  · exact sends_moved h (sendTcpPing_sends ..) (idle_of_connState hst) hr

theorem sendUdpPing_moved (h : Closes cx) {nowMs : Int}
    (hr : sendUdpPing cx nowMs c = .ok c') : Moved c c' := by
  by_cases hudp : c.udpSock = -1
  · unfold sendUdpPing at hr
    rw [if_pos hudp] at hr
    cases hr
    exact .refl c
  · exact sends_moved h (sendUdpPing_sends ..) (idle_of_udpSock hudp) hr

/-- Data for the application is enqueued, and the queue is not connection control. -/
theorem output_moved {data : List Byte} {len : Int} (hr : output data len c = .ok c') :
    c'.ctl = c.ctl ∧ c'.readStream = c.readStream := by
  unfold output at hr
  split at hr
  · split at hr
    · nomatch hr
    · cases hr
      exact ⟨rfl, rfl⟩
  · cases hr
    exact ⟨rfl, rfl⟩

/-- Nothing is received without a session. -/
theorem recvLoop_null (hk : c.kcpSession.kcp = none) :
    ∀ (n : Nat) {recvLen recvLen' : Int}, recvLoop cx n recvLen c = .ok (recvLen', c') →
      c' = c ∧ (recvLen' = recvLen ∨ recvLen' = 0)
  | 0, _, _, hr => by
    cases hr
    exact ⟨rfl, Or.inl rfl⟩
  | n + 1, _, _, hr => by
    have hrecv : c.kcpSession.recv maxPkgSize = (⟨0, []⟩, c.kcpSession) := by
      unfold KcpSession.recv
      rw [hk]
    unfold recvLoop at hr
    rw [hrecv] at hr
    cases hr
    exact ⟨rfl, Or.inr rfl⟩

/-- The receive loop: it moved nothing, or closed once; then it does not end with `-3`.  Induction
    on the rounds. -/
theorem recvLoop_moved (h : Closes cx) :
    ∀ (n : Nat) {recvLen recvLen' : Int} {c c' : Client}, c.idle = false →
      recvLoop cx n recvLen c = .ok (recvLen', c') →
      (c'.ctl = c.ctl ∧ c'.readStream = c.readStream) ∨ (Moved c c' ∧ recvLen' ≠ -3)
  | 0, _, _, _, _, _, hr => by
    cases hr
    exact Or.inl ⟨rfl, rfl⟩
  | n + 1, recvLen, recvLen', c, c', hi, hr => by
    unfold recvLoop at hr
    generalize hrecv : c.kcpSession.recv maxPkgSize = r at hr
    obtain ⟨⟨ret, bytes⟩, session⟩ := r
    dsimp only at hr
    by_cases hret : ret ≤ 0
    · rw [if_pos hret] at hr
      cases hr
      -- nothing complete is left to receive
      exact Or.inl ⟨rfl, rfl⟩
    rw [if_neg hret] at hr
    by_cases hcmd : bytes.headD 0 = controlDisconnect
    · rw [if_pos hcmd] at hr
      obtain ⟨c₁, h₁, h₂⟩ := bind_eq_ok.mp hr
      have hpos : 0 ≤ controlServerClose := by decide
      have hclosed := h _ { c with kcpSession := session } _ (shuts_error hpos hi) h₁
      -- the session is released, so the next round receives nothing
      have hnone : c₁.kcpSession.kcp = none := by
        refine hclosed.released ?_
        unfold Ctl.closeReason
        split <;> decide
      obtain ⟨rfl, hlen⟩ := recvLoop_null hnone n h₂
      have hmoved : Moved c { c with kcpSession := session } := .inert rfl rfl
      exact Or.inr ⟨hmoved.trans hclosed.moved, by omega⟩
    rw [if_neg hcmd] at hr
    by_cases hlong : ret > 1
    · rw [if_pos hlong] at hr
      obtain ⟨c₁, h₁, h₂⟩ := bind_eq_ok.mp hr
      obtain ⟨hctl, hread⟩ := output_moved h₁
      have hi₁ : c₁.idle = false := (congrArg Ctl.idle hctl).trans hi
      have hmoved : Moved c c₁ := .inert hctl hread
      exact (recvLoop_moved h n hi₁ h₂).imp (fun he => ⟨he.1.trans hctl, he.2.trans hread⟩)
        fun he => ⟨hmoved.trans he.1, he.2⟩
    · rw [if_neg hlong] at hr
      have hmoved : Moved c { c with kcpSession := session } := .inert rfl rfl
      exact (recvLoop_moved h n (c := { c with kcpSession := session }) hi hr).imp id
        fun he => ⟨hmoved.trans he.1, he.2⟩

/-- **`InputToKcp`** closes at most once. -/
theorem inputToKcp_moved (h : Closes cx) {msg : List Byte} {curTime : Int} (hi : c.idle = false)
    (hr : inputToKcp cx msg curTime c = .ok c') : Moved c c' := by
  unfold inputToKcp at hr
  split at hr
  · exact close_moved h (by decide) hi hr
  generalize c.kcpSession.input msg curTime = r at hr
  obtain ⟨ret, session⟩ := r
  have hin : Moved c { c with kcpSession := session } := .inert rfl rfl
  dsimp only at hr
  split at hr
  · exact hin.trans (close_moved h (by decide) hi hr)
  · obtain ⟨⟨recvLen, c₁⟩, h₁, h₂⟩ := bind_eq_ok.mp hr
    dsimp only at h₂
    rcases recvLoop_moved h _ (c := { c with kcpSession := session }) hi h₁ with
      ⟨hctl, hread⟩ | ⟨hmoved, hlen⟩
    · -- nothing moved: the connection is still open, and the end of the loop may close it
      have hmoved : Moved c c₁ := .inert hctl hread
      have hi₁ : c₁.idle = false := (congrArg Ctl.idle hctl).trans hi
      split at h₂
      · exact hmoved.trans (close_moved h (by decide) hi₁ h₂)
      · cases h₂
        exact hmoved
    · -- the loop closed, and does not end with what would close a second time
      rw [if_neg hlen] at h₂
      cases h₂
      exact hin.trans hmoved

/-- `CreateKCP` replaces the session and updates the new one, which may output, and so close. -/
theorem createKCP_moved (h : Closes cx) {data : List Byte} (hr : createKCP cx data c = .ok c') :
    Moved c c' := by
  unfold createKCP at hr
  have hnew : Moved c (getTimeMs cx.env { c with
      kcpSession := c.kcpSession.createKCP (.ofBytes data)
      enableUdp := decide ((ControlKCPInfo.ofBytes data).enableUdp.toInt > 0) }).2 := .inert rfl rfl
  exact hnew.trans (sessionUpdate_sent h hr).moved

/-- The ping of a login: it moved nothing but the login, or it closed and that is noted. -/
theorem loginPing_moved (h : Closes cx) (hi : c.idle = false) (hr : loginPing cx c = .ok c') :
    (c'.ctl = c.ctl.login [] ∧ c'.readStream = c.readStream)
    ∨ (Moved c c' ∧ .loginPingClose ∈ c'.trace) := by
  unfold loginPing at hr
  let now := cx.env.clock (c.nclock + 1)
  let c₁ := (getTimeMs cx.env (setConnState cx.env .logicConnected c)).2
  let c₂ := { c₁ with tcpPingExpire := c₁.tcpPingExpire.reset now }
  obtain ⟨x, hx | hx⟩ := sendTcpPing_sends cx.fromLogin now true c₂
  · rw [show sendTcpPing cx.fromLogin now true c₂ = .ok c' from hr] at hx
    cases hx
    exact Or.inl ⟨rfl, rfl⟩
  · rw [show sendTcpPing cx.fromLogin now true c₂ = .ok c' from hr] at hx
    -- the state is `CS_LOGIC_CONNECTED` already, so something is open
    have hopen : Ctl.idle ((c₂.sent x).log .loginPingClose).ctl = false := rfl
    have hclosed := h _ _ _ (shuts_error (by decide) hopen) hx.symm
    have hlost : Move c.ctl ((c₂.sent x).log .loginPingClose).ctl := .loginLost hi
    exact Or.inr ⟨⟨(Relation.ReflTransGen.single hlost).trans hclosed.path.path, hclosed.brackets,
      Or.inr ⟨hclosed.tcpSock, hclosed.readStream⟩⟩, hclosed.path.suffix.subset
        (List.mem_cons_self ..)⟩

/-- A login, with the notification for it.  If the ping went out, the login and its notification are
    one move; if the ping failed, the connection is closed, and the notification comes after the
    disconnect. -/
theorem login_moved (h : Closes cx) (hi : c.idle = false) {c₁ : Client}
    (hr : loginPing cx c = .ok c₁) {registered : Bool} {t : OutTask}
    (ht : t = .connectSuccess ∨ t = .relinkSuccess)
    (hcb : registered = false → c₁.cb.connectSuccess = false ∨ c₁.cb.reconnectSuccess = false) :
    Moved c (if registered then c₁.notify t else c₁) := by
  rcases loginPing_moved h hi hr with ⟨hctl, hread⟩ | ⟨hmoved, hmem⟩
  · have hcbs : c₁.cb = c.cb := congrArg Ctl.cb hctl
    have hkept : Kept c c₁ := Or.inl ⟨congrArg Ctl.tcpSock hctl, hread⟩
    have hb : c₁.brackets = c.brackets := congrArg Ctl.brackets hctl
    cases registered with
    | false =>
      have hnone := hcb rfl
      rw [hcbs] at hnone
      have hm : Move c.ctl c₁.ctl := hctl ▸ .login hi (Or.inl ⟨rfl, hnone⟩)
      exact ⟨.single hm, hb, hkept⟩
    | true =>
      have hnote : LoginNote c.cb [.queued t] := by
        rcases ht with rfl | rfl
        · exact Or.inr (Or.inl rfl)
        · exact Or.inr (Or.inr rfl)
      have he : (c₁.notify t).ctl = c.ctl.login [.queued t] :=
        congrArg (fun k : Ctl => { k with trace := .queued t :: k.trace }) hctl
      have hm : Move c.ctl (c₁.notify t).ctl := he ▸ .login hi hnote
      exact ⟨.single hm, hb, hkept⟩
  · cases registered with
    | false => exact hmoved
    | true => exact ⟨hmoved.path.tail (.lateNote hmem ht), hmoved.brackets, hmoved.kept⟩

/-- The two kinds of login differ in the task they enqueue, and in the callback that is asked for.
    -/
theorem connectSuccess_moved (h : Closes cx) (hi : c.idle = false)
    (hr : connectSuccess cx c = .ok c') : Moved c c' := by
  obtain ⟨c₁, h₁, h₂⟩ := bind_eq_ok.mp hr
  cases h₂
  exact login_moved h hi h₁ (Or.inl rfl) Or.inl

theorem reConnectSuccess_moved (h : Closes cx) (hi : c.idle = false)
    (hr : reConnectSuccess cx c = .ok c') : Moved c c' := by
  obtain ⟨c₁, h₁, h₂⟩ := bind_eq_ok.mp hr
  cases h₂
  exact login_moved h hi h₁ (Or.inr rfl) Or.inr

/-! ## Reading -/

/-- There is a TCP connection, or nothing to read: what the frame loop relies on from round to
    round, although a branch may close. -/
def Open (c : Client) : Prop := c.tcpSock ≠ -1 ∨ c.readStream.len = 0

theorem Kept.open (h : Kept c c') (ho : Open c) : Open c' := by
  rcases h with ⟨hs, hr⟩ | ⟨-, hr⟩
  · unfold Open
    rw [hs, hr]
    exact ho
  · exact Or.inr hr

/-- **A frame's branch**, while the connection is open.  The branches come in the order of the
    source; each closes at most once, and nothing was closed before. -/
theorem dispatchFrame_moved (h : Closes cx) {d : Dispatch} {curTime : Int} {r : Round}
    (htcp : c.tcpSock ≠ -1) (hr : dispatchFrame cx d curTime c = .ok r) : Moved c r.client := by
  have hi := idle_of_tcpSock htcp
  unfold dispatchFrame at hr
  by_cases h2 : d.cmd = controlPing
  · rw [if_pos h2] at hr
    split at hr
    · obtain ⟨c₁, h₁, h₂⟩ := bind_eq_ok.mp hr
      cases h₂
      exact close_moved h (by decide) hi h₁
    · cases hr
      exact .refl c
  rw [if_neg h2] at hr
  by_cases h0 : d.cmd = controlReliableMsg
  · rw [if_pos h0] at hr
    obtain ⟨c₁, h₁, h₂⟩ := bind_eq_ok.mp hr
    cases h₂
    exact inputToKcp_moved h hi h₁
  rw [if_neg h0] at hr
  by_cases h1 : d.cmd = controlUnreliableMsg
  · rw [if_pos h1] at hr
    obtain ⟨c₁, h₁, h₂⟩ := bind_eq_ok.mp hr
    cases h₂
    obtain ⟨hctl, hread⟩ := output_moved h₁
    exact .inert hctl hread
  rw [if_neg h1] at hr
  by_cases h3 : d.cmd = controlKcpInfo
  · rw [if_pos h3] at hr
    split at hr
    · obtain ⟨c₁, h₁, h₂⟩ := bind_eq_ok.mp hr
      cases h₂
      exact createKCP_moved h h₁
    · obtain ⟨c₁, h₁, h₂⟩ := bind_eq_ok.mp hr
      cases h₂
      exact close_moved h (by decide) hi h₁
  rw [if_neg h3] at hr
  by_cases h4 : d.cmd = controlDisconnect
  · rw [if_pos h4] at hr
    split at hr
    · dsimp only at hr
      split at hr
      · rename_i hreason
        obtain ⟨c₁, h₁, h₂⟩ := bind_eq_ok.mp hr
        cases h₂
        -- of the reasons the server may give, only the three that are acted on
        have hpos : 0 ≤ (fieldAt d.data 0).toInt := by
          rcases hreason with he | he | he <;> rw [he] <;> decide
        exact close_moved h hpos hi h₁
      · cases hr
        exact .refl c
    · obtain ⟨c₁, h₁, h₂⟩ := bind_eq_ok.mp hr
      cases h₂
      exact close_moved h (by decide) hi h₁
  rw [if_neg h4] at hr
  by_cases h7 : d.cmd = controlSyncLabel
  · rw [if_pos h7] at hr
    split at hr
    · obtain ⟨c₁, h₁, h₂⟩ := bind_eq_ok.mp hr
      cases h₂
      -- `is_first_connect_` is not connection control
      have hfirst : Moved c { c with isFirstConnect := false } := .inert rfl rfl
      exact hfirst.trans (connectSuccess_moved h hi h₁)
    · obtain ⟨c₁, h₁, h₂⟩ := bind_eq_ok.mp hr
      cases h₂
      exact reConnectSuccess_moved h hi h₁
  · rw [if_neg h7] at hr
    cases hr
    exact .refl c

/-- Dropping a frame from an empty buffer leaves it empty, whatever length the frame claims. -/
theorem Round.skip_open {r : Round} {pkgLen : Int} (ho : Open r.client) :
    Open (r.skip pkgLen).client := by
  cases r with
  | done c => exact ho
  | next c => exact ho.imp_right fun hl => Stream.len_skip_of_empty hl pkgLen

theorem Round.skip_ctl (r : Round) (pkgLen : Int) :
    (r.skip pkgLen).client.ctl = r.client.ctl := by
  cases r <;> rfl

/-- **A round of `ReadStream`** keeps the connection open for the next one, or leaves it nothing. -/
theorem readRound_path (h : Closes cx) {curTime : Int} {r : Round} (ho : Open c)
    (hr : readRound cx curTime c = .ok r) :
    Path c.ctl r.client.ctl ∧ r.client.brackets = c.brackets ∧ Open r.client := by
  unfold readRound at hr
  dsimp only at hr
  by_cases hlen : c.readStream.len < csConnHeadSize
  · rw [if_pos hlen] at hr
    cases hr
    exact ⟨.refl, rfl, ho⟩
  rw [if_neg hlen] at hr
  split at hr
  · cases hr
    exact ⟨.refl, rfl, ho⟩
  · obtain ⟨r₁, h₁, h₂⟩ := bind_eq_ok.mp hr
    cases h₂
    -- a header is there to be read, so the connection is too
    have htcp : c.tcpSock ≠ -1 := ho.resolve_right fun he => hlen (by rw [he]; decide)
    have hmoved := dispatchFrame_moved h (by exact htcp) h₁
    refine ⟨?_, ?_, Round.skip_open (hmoved.kept.open ho)⟩
    · rw [Round.skip_ctl]
      exact hmoved.path
    · exact (congrArg Ctl.brackets (Round.skip_ctl r₁ _)).trans hmoved.brackets

/-- Any number of rounds.  Induction on the rounds; `Open` is handed from one to the next. -/
theorem readStream_path (h : Closes cx) {curTime : Int} :
    ∀ (n : Nat) {c c' : Client}, Open c → readStream cx curTime n c = .ok c' →
      Path c.ctl c'.ctl ∧ c'.brackets = c.brackets
  | 0, _, _, _, hr => nomatch hr
  | n + 1, c, c', ho, hr => by
    obtain ⟨r, h₁, h₂⟩ := bind_eq_ok.mp hr
    obtain ⟨hpath, hb, ho'⟩ := readRound_path h ho h₁
    cases r with
    | done c₁ =>
      cases h₂
      exact ⟨hpath, hb⟩
    | next c₁ =>
      obtain ⟨hpath', hb'⟩ := readStream_path h n ho' h₂
      exact ⟨hpath.trans hpath', hb'.trans hb⟩

/-- Making room closes only with the event of it. -/
theorem makeReadRoom_path (h : Closes cx) (hi : c.tcpSock ≠ -1)
    (hr : makeReadRoom cx c = .ok c') :
    Path c.ctl c'.ctl ∧ c'.brackets = c.brackets
      ∧ (c'.tcpSock ≠ -1 ∨ c'.tcpSock = -1 ∧ hazard c'.trace = true) := by
  unfold makeReadRoom at hr
  generalize c.readStream.ensureWritable recvOneTimeSize = r at hr
  obtain ⟨room, stream⟩ := r
  dsimp only at hr
  split at hr
  · cases hr
    exact ⟨.refl, rfl, Or.inl hi⟩
  · -- no room: the source closes here and goes on, so the event is kept for the second close
    let c₁ : Client := { c with readStream := stream }
    have hopen : Ctl.idle (c₁.log .noRoom).ctl = false := idle_of_tcpSock hi
    have hclosed := h _ (c₁.log .noRoom) _ (shuts_error (by decide) hopen) hr
    have hroom : Move c.ctl (c₁.log .noRoom).ctl := .noRoom c.ctl
    have hz : hazard (c₁.log .noRoom).trace = true := rfl
    exact ⟨(Relation.ReflTransGen.single hroom).trans hclosed.path.path, hclosed.brackets,
      Or.inr ⟨hclosed.tcpSock, hazard_suffix hclosed.path.suffix hz⟩⟩

/-- **A readable TCP socket.** -/
theorem onTcpRead_path (h : Closes cx) {n : Nat} {data : List Byte} {curTime : Int}
    (hi : c.tcpSock ≠ -1) (hr : onTcpRead cx n data curTime c = .ok c') :
    Path c.ctl c'.ctl ∧ c'.brackets = c.brackets := by
  obtain ⟨c₁, h₁, h₂⟩ := bind_eq_ok.mp hr
  obtain ⟨hpath, hb, hopen⟩ := makeReadRoom_path h hi h₁
  dsimp only at h₂
  rcases hopen with htcp | ⟨htcp, hz⟩
  · rw [if_neg htcp] at h₂
    -- something was read, or the server has closed
    split at h₂
    · obtain ⟨hpath', hb'⟩ := readStream_path h n (c := { c₁ with
        readStream := c₁.readStream.addSize (data.take recvOneTimeSize) }) (Or.inl htcp) h₂
      exact ⟨hpath.trans hpath', hb'.trans hb⟩
    · have hmoved := close_moved h (by decide) (idle_of_tcpSock htcp) h₂
      exact ⟨hpath.trans hmoved.path, hmoved.brackets.trans hb⟩
  · -- the buffer was full: `recv` fails on the closed socket, and the connection closes again
    rw [if_pos htcp, if_neg (by decide)] at h₂
    have hclosed := h _ _ _ (shuts_hazard (by decide) hz) h₂
    exact ⟨hpath.trans hclosed.path.path, hclosed.brackets.trans hb⟩

/-- **A readable UDP socket.** -/
theorem onUdpRead_moved (h : Closes cx) {r : UdpRecv} {curTime : Int}
    (hr : onUdpRead cx r curTime c = .ok c') : Moved c c' := by
  unfold onUdpRead at hr
  by_cases hudp : c.udpSock = -1
  · rw [if_pos hudp] at hr
    cases hr
    exact .refl c
  rw [if_neg hudp] at hr
  have hi := idle_of_udpSock hudp
  cases r with
  | fail err =>
    dsimp only at hr
    split at hr
    · cases hr
      exact .refl c
    · exact close_moved h (by decide) hi hr
  | datagram pkg =>
    dsimp only at hr
    split at hr
    · unfold udpDatagram at hr
      dsimp only at hr
      split at hr
      · cases hr
        exact .refl c
      split at hr
      · cases hr
        exact .refl c
      split at hr
      · obtain ⟨hctl, hread⟩ := output_moved hr
        exact .inert hctl hread
      split at hr
      · exact inputToKcp_moved h hi hr
      split at hr
      · exact close_moved h (by decide) hi hr
      · cases hr
        exact .refl c
    · cases hr
      exact .refl c

/-- **A writable TCP socket.** -/
theorem onTcpWritable_moved (h : Closes cx) (hi : c.tcpSock ≠ -1)
    (hr : onTcpWritable cx c = .ok c') : Moved c c' := by
  unfold onTcpWritable at hr
  dsimp only at hr
  split at hr
  · rename_i hst
    cases hr
    have hm : Move c.ctl (c.ctl.enter .connected) := .connected hst
    exact ⟨.single hm, rfl, Or.inl ⟨rfl, rfl⟩⟩
  · have hwait : Moved c { c with tcpWritable := false } := .inert rfl rfl
    exact hwait.trans (sends_moved h (onTcpWrite_sends ..) (idle_of_tcpSock hi) hr)

/-! ## Connecting, timers and tasks -/

/-- A failed dial closes: it is a hazard when the disconnect was reported already. -/
theorem dialFail_path (h : Closes cx) (hr : cx.close clientConnectError (c.log .dialFail) = .ok c')
    {k : Ctl} (hk : c.ctl = k.sockets c.tcpSock c.udpSock) :
    Path k c'.ctl ∧ c'.brackets = c.brackets := by
  -- either nothing was reported yet, or this very event is a hazard
  have hz : reports c.trace = 0 ∨ hazard (Ev.dialFail :: c.trace) = true := by
    by_cases hrep : reports c.trace = 0
    · exact Or.inl hrep
    · exact Or.inr (by simp [hazard, hrep])
  have hshuts : Shuts ((c.log .dialFail).ctl.closeReason clientConnectError)
      (c.log .dialFail).ctl := by
    rcases hz with hrep | hz
    · refine ⟨fun _ => Or.inr (Or.inl hrep), fun hneg => ?_⟩
      unfold Ctl.closeReason at hneg
      split at hneg <;> exact absurd hneg (by decide)
    · exact shuts_hazard (by decide) hz
  have hclosed := h _ _ _ hshuts hr
  have hm : Move k (c.log .dialFail).ctl := by
    have hm := Move.dialFail c.tcpSock c.udpSock k
    rw [← hk] at hm
    exact hm
  exact ⟨(Relation.ReflTransGen.single hm).trans hclosed.path.path, hclosed.brackets⟩

/-- **`InnerConnect`**: two sockets and a new attempt, or a failed dial.  It overwrites whatever
    sockets there are, so the source may lose open ones here; a new attempt is permissible from
    `CS_INIT`, or when the task that asks for it was noted. -/
theorem innerConnect_path (h : Closes cx) {ip : String} {port : BitVec 32} {timeoutMs : Int}
    (hf : c.connState = .init ∨ forgiven c.trace = true)
    (hr : innerConnect cx ip port timeoutMs c = .ok c') :
    Path c.ctl c'.ctl ∧ c'.brackets = c.brackets := by
  unfold innerConnect createConnect at hr
  dsimp only at hr
  split at hr
  · exact dialFail_path h hr rfl
  · unfold connectUdp createConnect at hr
    dsimp only at hr
    split at hr
    · exact dialFail_path h hr rfl
    · cases hr
      exact ⟨.single (.connecting _ _ hf), rfl⟩

theorem checkTimeout_moved (h : Closes cx) {nowMs : Int} (hr : checkTimeout cx nowMs c = .ok c') :
    Moved c c' := by
  unfold checkTimeout at hr
  split at hr
  · rename_i hst
    have hi : c.idle = false := by
      -- the timer runs out only above `CS_INIT`
      refine idle_of_connState fun he => ?_
      rw [he] at hst
      exact Nat.lt_irrefl _ hst.1
    refine close_moved h ?_ hi hr
    split <;> decide
  · cases hr
    exact .refl c

/-- **`CheckRelink`**: at most one attempt, and only while the relinks last. -/
theorem checkRelink_path (h : Closes cx) {nowMs : Int} (hr : checkRelink cx nowMs c = .ok c') :
    Path c.ctl c'.ctl ∧ c'.brackets = c.brackets := by
  unfold checkRelink at hr
  by_cases hrun : c.running = false
  · rw [if_pos hrun] at hr
    cases hr
    exact ⟨.refl, rfl⟩
  rw [if_neg hrun] at hr
  dsimp only at hr
  -- a negative counter is set to zero before anything else
  have hclamp : Path c.ctl (clampRelink c).ctl := .single (.clamp c.ctl)
  split at hr
  · cases hr
    exact ⟨hclamp, rfl⟩
  · rename_i hx
    split at hr
    · rename_i hdue
      obtain ⟨c₃, h₁, h₂⟩ := bind_eq_ok.mp hr
      cases h₂
      -- the attempt is counted before it is made
      let c₂ : Client := { clampRelink c with
        relinkCount := (clampRelink c).relinkCount + 1, trace := .attempt :: c.trace }
      have hattempt : Move (clampRelink c).ctl c₂.ctl :=
        .attempt (Bool.of_not_eq_false hrun) (Bool.of_not_eq_true hx) hdue.1
      obtain ⟨hpath, hb⟩ := innerConnect_path h (c := c₂) (Or.inl hdue.1) h₁
      have hall : Path c.ctl c₃.ctl := (hclamp.tail hattempt).trans hpath
      split <;> exact ⟨hall, hb⟩
    · cases hr
      exact ⟨hclamp, rfl⟩

/-- The application may close the connection to switch the network, if it is logged in. -/
theorem switchNetwork_moved (h : Closes cx) (hr : switchNetwork cx c = .ok c') : Moved c c' := by
  unfold switchNetwork at hr
  split at hr
  · rename_i hst
    have hi : c.idle = false := idle_of_connState fun he => nomatch he.symm.trans hst.1
    exact close_moved h (by decide) hi hr
  · cases hr
    exact .refl c

/-- A message of the application reaches KCP, or is dropped, and then KCP may output.  `note` is what
    `handedBy` says of the task: the two agree in every branch. -/
theorem sendKCPBuf_path (h : Closes cx) {msg : List Byte} (hr : sendKCPBuf cx msg c = .ok c')
    {note : List Ev} (hn : note = handedBy (c.connState == .logicConnected) c.live (.send msg)) :
    Path { c.ctl with trace := note ++ c.trace } c'.ctl ∧ c'.brackets = c.brackets := by
  unfold sendKCPBuf at hr
  by_cases hempty : msg.length = 0
  · rw [if_pos hempty] at hr
    rw [handedBy_drop fun hall => hall.1 (List.length_eq_zero_iff.mp hempty)] at hn
    cases hr
    exact ⟨hn ▸ .refl, rfl⟩
  rw [if_neg hempty] at hr
  by_cases hst : c.connState.ord < ConnState.logicConnected.ord
  · rw [if_pos hst] at hr
    -- the branches that drop the message, in the order of the source: it is empty, nobody is logged
    -- in, there is no session
    have hdrop : ¬ (msg ≠ [] ∧ (c.connState == .logicConnected) = true ∧ c.live = true) := by
      rintro ⟨-, hlogic, -⟩
      rw [beq_iff_eq.mp hlogic] at hst
      exact Nat.lt_irrefl _ hst
    rw [handedBy_drop hdrop] at hn
    cases hr
    exact ⟨hn ▸ .refl, rfl⟩
  rw [if_neg hst] at hr
  have hlogic := logic_of_ord hst
  dsimp only [getTimeMs] at hr
  cases hkcp : c.kcpSession.kcp with
  | none =>
    have hdead : c.live = false := by
      unfold Client.live KcpSession.isNull
      rw [hkcp]
      rfl
    rw [handedBy_drop fun hall => nomatch hdead.symm.trans hall.2.2] at hn
    rw [hkcp] at hr
    cases hr
    exact ⟨hn ▸ .refl, rfl⟩
  | some kcp =>
    have hlive : c.live = true := by
      unfold Client.live KcpSession.isNull
      rw [hkcp]
      rfl
    have hmsg : msg ≠ [] := fun he => hempty (congrArg List.length he)
    rw [handedBy_send ⟨hmsg, beq_iff_eq.mpr hlogic, hlive⟩] at hn
    rw [hkcp] at hr
    have hs := runKcp_sent h hr
    exact ⟨hn ▸ hs.path.path, hs.brackets⟩

/-- **A task.** -/
theorem runTask_path (h : Closes cx) {t : Task} {rest : List Task} (hq : c.inQueue = t :: rest)
    (hr : runTask cx t (takeTask t rest c) = .ok c') :
    Path c.ctl c'.ctl ∧ c'.brackets = c.brackets := by
  have htake := Move.take c.live (k := c.ctl) hq
  cases t with
  | connect ip port timeoutMs =>
    obtain ⟨hpath, hb⟩ := innerConnect_path h (c := takeTask _ rest c) (Or.inr rfl) hr
    exact ⟨(Relation.ReflTransGen.single htake).trans hpath, hb⟩
  | close =>
    -- a `Close` acts on a reason of its own only while the relinks last, and is silent then; with
    -- the relinks used up it reports, once or as a hazard
    have hshuts : Shuts ((takeTask .close rest c).ctl.closeReason (-1)) (takeTask .close rest c).ctl := by
      refine ⟨fun hpos => ?_, fun _ => rfl⟩
      unfold Ctl.closeReason at hpos
      split at hpos
      · rename_i hx
        have hx' : c.exhausted = true := hx
        by_cases hrep : reports c.trace = 0
        · exact Or.inr (Or.inl hrep)
        · refine Or.inr (Or.inr ?_)
          show hazard (.ran .close _ _ c.exhausted :: c.trace) = true
          simp [hazard, hx', hrep]
      · exact absurd hpos (by decide)
    have hclosed := h _ _ _ hshuts hr
    exact ⟨(Relation.ReflTransGen.single htake).trans hclosed.path.path, hclosed.brackets⟩
  | send msg =>
    obtain ⟨hpath, hb⟩ := sendKCPBuf_path h (c := takeTask _ rest c) hr rfl
    exact ⟨(Relation.ReflTransGen.single htake).trans hpath, hb⟩

/-! ## The system -/

/-- The acts that configure the relinks. -/
def Act.configures : Act → Bool
  | .addRelinkInterval _ => true
  | .clearRelinkInterval => true
  | _ => false

/-- **A step of the net thread**, but for the start of the thread, is a path.  One case for each
    place of its loop, in the order of the loop. -/
theorem netStep_path {w : World} {s s' : Sys} (hpc : s.pc ≠ .start)
    (hr : netStep w s = .ok s') :
    Path s.client.ctl s'.client.ctl ∧ s'.client.brackets = s.client.brackets := by
  have h : Closes w.cx := innerClose_closes w.env w.depth
  unfold netStep at hr
  split at hr
  case h_1 | h_12 =>
    cases hr
    exact ⟨.refl, rfl⟩
  case h_2 hstart => exact absurd hstart hpc
  case h_3 =>
    split at hr
    · cases hr
      exact ⟨.refl, rfl⟩
    · split at hr <;> cases hr <;> exact ⟨.refl, rfl⟩
  case h_4 =>
    obtain ⟨c₁, h₁, h₂⟩ := bind_eq_ok.mp hr
    cases h₂
    unfold tcpEvent at h₁
    split at h₁
    · cases h₁
      exact ⟨.refl, rfl⟩
    · rename_i htcp
      split at h₁
      · cases h₁
        exact ⟨.refl, rfl⟩
      · exact onTcpRead_path h htcp h₁
      · split at h₁
        · have hm := onTcpWritable_moved h htcp h₁
          exact ⟨hm.path, hm.brackets⟩
        · cases h₁
          exact ⟨.refl, rfl⟩
  case h_5 =>
    obtain ⟨c₁, h₁, h₂⟩ := bind_eq_ok.mp hr
    cases h₂
    unfold udpEvent at h₁
    split at h₁
    · cases h₁
      exact ⟨.refl, rfl⟩
    · have hm := onUdpRead_moved h h₁
      exact ⟨hm.path, hm.brackets⟩
  case h_6 =>
    split at hr
    · cases hr
      exact ⟨.refl, rfl⟩
    · rename_i hq
      obtain ⟨c₁, h₁, h₂⟩ := bind_eq_ok.mp hr
      cases h₂
      exact runTask_path h hq h₁
  -- the timers
  case h_7 =>
    obtain ⟨c₁, h₁, h₂⟩ := bind_eq_ok.mp hr
    cases h₂
    have hm := (sessionTick_sent h h₁).moved
    exact ⟨hm.path, hm.brackets⟩
  case h_8 =>
    obtain ⟨c₁, h₁, h₂⟩ := bind_eq_ok.mp hr
    cases h₂
    have hm := sendTcpPing_moved h h₁
    exact ⟨hm.path, hm.brackets⟩
  case h_9 =>
    obtain ⟨c₁, h₁, h₂⟩ := bind_eq_ok.mp hr
    cases h₂
    have hm := sendUdpPing_moved h h₁
    exact ⟨hm.path, hm.brackets⟩
  case h_10 =>
    obtain ⟨c₁, h₁, h₂⟩ := bind_eq_ok.mp hr
    cases h₂
    have hm := checkTimeout_moved h h₁
    exact ⟨hm.path, hm.brackets⟩
  case h_11 =>
    obtain ⟨c₁, h₁, h₂⟩ := bind_eq_ok.mp hr
    cases h₂
    exact checkRelink_path h h₁

/-- **A step of the application**, but for the configuration, is a move of its own, a path (it may
    switch the network), or nothing. -/
theorem appStep_path {a : Act} {s s' : Sys} (ha : a.configures = false) (hnet : ∀ w, a ≠ .net w)
    (hr : sysStep a s = .ok s') :
    AppMove s.client.ctl s'.client.ctl ∨ Path s.client.ctl s'.client.ctl := by
  cases a with
  | connect ip port timeoutMs =>
    cases hr
    refine Or.inl ?_
    unfold connect
    dsimp only
    split
    · exact .ask nofun id
    · exact .ask nofun fun _ => rfl
  | close =>
    cases hr
    exact Or.inl (.ask nofun id)
  | sendMsg msg =>
    cases hr
    unfold sendMsg
    split
    · exact Or.inr .refl
    · rename_i hst
      exact Or.inl (.accept msg (logic_of_ord hst))
  | update | setMagicNum =>
    cases hr
    exact Or.inr .refl
  | addRelinkInterval | clearRelinkInterval => nomatch ha
  | switchNetwork w =>
    obtain ⟨c₁, h₁, h₂⟩ := bind_eq_ok.mp hr
    cases h₂
    exact Or.inr (switchNetwork_moved (innerClose_closes w.env w.depth) h₁).path
  | net w => exact absurd rfl (hnet w)

/-- The net thread starts no thread. -/
theorem Path.thread {k k' : Ctl} (h : Path k k') : k'.thread = k.thread := by
  refine h.inv (I := fun j => j.thread = k.thread) (fun j j' hm hj => ?_) rfl
  cases hm with
  | close hc => cases hc <;> exact hj
  | _ => exact hj

/-- What a step does to the control state. -/
inductive Steps (s : Sys) : Ctl → Prop where
  | configured (vec : List Int) : Steps s { s.client.ctl with relinkIntervalMsVec := vec }
  | asked {k : Ctl} (h : AppMove s.client.ctl k) : Steps s k
  | moved {k : Ctl} (h : Path s.client.ctl k) : Steps s k
  | started (hpc : s.pc = .start) : Steps s { s.client.ctl with running := true, relinkCount := 0 }

/-- **A step of the system.** -/
theorem sysStep_steps {a : Act} {s s' : Sys} (hr : sysStep a s = .ok s') : Steps s s'.client.ctl := by
  by_cases hnet : ∀ w, a ≠ .net w
  · cases ha : a.configures with
    | true =>
      cases a with
      | addRelinkInterval msec =>
        cases hr
        exact .configured _
      | clearRelinkInterval =>
        cases hr
        exact .configured _
      | _ => cases ha
    | false =>
      rcases appStep_path ha hnet hr with hm | hpath
      · exact .asked hm
      · exact .moved hpath
  · obtain ⟨w, hw⟩ := not_forall.mp hnet
    cases not_not.mp hw
    -- the start of the thread sets the counter back, which is no move
    by_cases hpc : s.pc = .start
    · change netStep w s = .ok s' at hr
      rw [netStep, hpc] at hr
      cases hr
      exact .started hpc
    · exact .moved (netStep_path hpc hr).1

/-- **The invariant rule of the system.**  What every move keeps, and the configuration and the start
    of the thread keep, every step keeps. -/
theorem sysStep_inv {I : Ctl → Prop} (hmove : ∀ k k', Move k k' → I k → I k')
    (happ : ∀ k k', AppMove k k' → I k → I k')
    (hvec : ∀ k vec, I k → I { k with relinkIntervalMsVec := vec })
    (hstart : ∀ k, I k → I { k with running := true, relinkCount := 0 }) {a : Act} {s s' : Sys}
    (hr : sysStep a s = .ok s') (h : I s.client.ctl) : I s'.client.ctl := by
  have hstep := sysStep_steps hr
  generalize s'.client.ctl = k at hstep ⊢
  cases hstep with
  | configured vec => exact hvec _ _ h
  | asked hm => exact happ _ _ hm h
  | moved hpath => exact hpath.inv hmove h
  | started => exact hstart _ h

end ConnClient
