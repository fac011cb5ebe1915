/-
  When the KCP session is released.

  `KcpSession::Release` must not be executed while `pvp_ikcp_flush`, `pvp_ikcp_update` or
  `pvp_ikcp_send_ex` is working on the control block (`Stop.uaf`).  Outside of the output callback no
  such routine is running; inside it a close is for an error, and releases the session only when the
  relinks are used up.  So the one way to get there is a send from the output callback that closes
  the connection with the relinks used up (`released_after_return`), and it does get there
  (`released_while_updating`).

  `Safe` is what every function guarantees of its result, whether it returns or stops, and the proof
  goes through the functions in their order, each from what it calls.  The functions call each other in a
  circle: `InnerClose` flushes, the flush runs the output callback, and that may close again.  The circle is
  cut where the model cuts it, at the parameter `cx.close`: every function is safe if the close it is given is
  (`SafeClose`), and the close is, by induction on how deep the calls nest (`innerClose_safe`).
-/
import ConnClient.Client.Paths

namespace ConnClient

open ConnClient.Lib ConnClient.Ikcp

universe u

/-! ## What every function guarantees -/

/-- A send from the output callback has closed the connection with the relinks used up.  The trace
    only grows, so this is never taken back. -/
def Blamed (t : List Ev) : Prop := ∃ b idle, .outputClose b idle true ∈ t

theorem Blamed.mono {t t' : List Ev} (h : Blamed t) (hs : t <:+ t') : Blamed t' := by
  obtain ⟨b, i, hmem⟩ := h
  exact ⟨b, i, hs.subset hmem⟩

/-- From `c`, a function that returns has left every KCP routine it entered, and one that stops with
    `Stop.uaf` is not to blame alone.  `get` finds the client in the result. -/
inductive Safe {α : Type} (get : α → Client) (c : Client) : Except (Stop × Client) α → Prop where
  | returned {a : α} (hb : (get a).brackets = c.brackets) (ht : c.trace <:+ (get a).trace) :
      Safe get c (.ok a)
  | stopped {st : Stop} {e : Client} (ht : c.trace <:+ e.trace) (hst : st = .uaf → Blamed e.trace) :
      Safe get c (.error (st, e))

/-- `InnerClose` is safe where no KCP routine is running, and for an error in any case: if it
    releases the session then, there is someone to blame. -/
def SafeClose (cx : Cx) : Prop :=
  ∀ reason c, (c.brackets = [] ∨ (clientConnectError ≤ reason ∧ (c.exhausted = true → Blamed c.trace))) →
    Safe id c (cx.close reason c)

section Rules

variable {α β : Type} {get : α → Client} {get' : β → Client} {c c₁ : Client}

theorem safe_ok {a : α} (hb : (get a).brackets = c.brackets) (ht : (get a).trace = c.trace) :
    Safe get c (.ok a) :=
  .returned hb (ht ▸ List.suffix_refl _)

/-- A function called after something harmless. -/
theorem Safe.after {r : Except (Stop × Client) α} (h : Safe get c₁ r) (hb : c₁.brackets = c.brackets)
    (ht : c.trace <:+ c₁.trace) : Safe get c r := by
  cases h with
  | returned hb₁ ht₁ => exact .returned (hb₁.trans hb) (ht.trans ht₁)
  | stopped ht₁ hst => exact .stopped (ht.trans ht₁) hst

/-- One function after another. -/
theorem Safe.bind {x : Except (Stop × Client) α} {f : α → Except (Stop × Client) β}
    (hx : Safe get c x) (hf : ∀ a, (get a).brackets = c.brackets → Safe get' (get a) (f a)) :
    Safe get' c (x >>= f) := by
  cases hx with
  | returned hb ht => exact (hf _ hb).after hb ht
  | stopped ht hst => exact .stopped ht hst

end Rules

/-! ## The output callback and the KCP routines -/

variable {cx : Cx} {c : Client}

/-- A send, where a close for an error is safe. -/
theorem sends_safe (hclose : ∀ x, Safe id (c.sent x) (cx.close clientConnectError (c.sent x)))
    {r : M Client} (hs : Sends cx c r) : Safe id c r := by
  obtain ⟨x, rfl | rfl⟩ := hs
  · exact safe_ok rfl rfl
  · exact (hclose x).after rfl (List.suffix_refl _)

/-- **The output callback**: the event of the close is there before the close is made. -/
theorem kcpOutput_safe (h : SafeClose cx) (data : List Byte) (c : Client) :
    Safe id c (kcpOutput cx data c) := by
  refine sends_safe (fun x => ?_) (kcpOutput_sends cx data c)
  -- what the callback writes down before it closes
  let e : Ev := .outputClose c.brackets.head? c.idle c.exhausted
  have hsafe : Safe id ((c.sent x).log e) (cx.close clientConnectError ((c.sent x).log e)) := by
    refine h _ _ (Or.inr ⟨Int.le_refl _, fun hx => ⟨c.brackets.head?, c.idle, ?_⟩⟩)
    have he : e = .outputClose c.brackets.head? c.idle true :=
      congrArg (Ev.outputClose c.brackets.head? c.idle) hx
    exact he ▸ List.mem_cons_self ..
  exact hsafe.after rfl (List.suffix_cons ..)

theorem playOutputs_safe (h : SafeClose cx) :
    ∀ (outs : List (IKCPCB × List Byte)) (c : Client), Safe id c (playOutputs cx outs c)
  | [], _ => safe_ok rfl rfl
  | (kcp, data) :: outs, c => by
    let c₁ : Client := { c with kcpSession := { c.kcpSession with kcp := some kcp } }
    have hrest : Safe id c₁ (kcpOutput cx data c₁ >>= playOutputs cx outs) :=
      (kcpOutput_safe h data c₁).bind fun c₂ _ => playOutputs_safe h outs c₂
    exact hrest.after rfl (List.suffix_refl _)

/-- **A KCP routine** leaves what it entered. -/
theorem runKcp_safe (h : SafeClose cx) (b : Bracket) (r : IKCPCB × List (IKCPCB × List Byte))
    (c : Client) : Safe id c (runKcp cx b r c) := by
  have hplay := playOutputs_safe h r.2 { c with brackets := b :: c.brackets }
  unfold runKcp
  generalize playOutputs cx r.2 _ = x at hplay ⊢
  cases hplay with
  -- the callbacks left what they entered, so the routine finds its own bracket on top
  | returned hb ht => exact .returned (congrArg List.tail hb) ht
  | stopped ht hst => exact .stopped ht hst

theorem sessionFlush_safe (h : SafeClose cx) (reason : Int) (c : Client) :
    Safe id c (sessionFlush cx reason c) := by
  unfold sessionFlush
  split
  · exact safe_ok rfl rfl
  · exact runKcp_safe h ..

theorem sessionUpdate_safe (h : SafeClose cx) (now : IUINT32) (c : Client) :
    Safe id c (sessionUpdate cx now c) := by
  unfold sessionUpdate
  split
  · exact safe_ok rfl rfl
  · exact (runKcp_safe h ..).bind fun c₁ _ => safe_ok rfl rfl

theorem sessionTick_safe (h : SafeClose cx) (now : IUINT32) (c : Client) :
    Safe id c (sessionTick cx now c) := by
  unfold sessionTick
  split
  · exact safe_ok rfl rfl
  · split
    · exact (sessionUpdate_safe h now c).bind fun c₁ _ => safe_ok rfl rfl
    · exact safe_ok rfl rfl

theorem sendKCPBuf_safe (h : SafeClose cx) (msg : List Byte) (c : Client) :
    Safe id c (sendKCPBuf cx msg c) := by
  unfold sendKCPBuf
  split
  · exact safe_ok rfl rfl
  split
  · exact safe_ok rfl rfl
  dsimp only
  split
  · exact safe_ok rfl rfl
  · exact (runKcp_safe h ..).after rfl (List.suffix_cons ..)

/-! ## `InnerClose` -/

/-- The terminal branch: a release inside a KCP routine has someone to blame. -/
theorem closeSession_safe (h : SafeClose cx) (reason : Int) {c : Client}
    (hc : c.brackets = [] ∨ Blamed c.trace) : Safe id c (closeSession cx reason c) := by
  unfold closeSession
  have hflush := sessionFlush_safe h reason c
  generalize sessionFlush cx reason c = r at hflush ⊢
  cases hflush with
  | stopped ht hst => exact .stopped ht hst
  | @returned c₁ hb ht =>
    show Safe id c (sessionRelease c₁ >>= _)
    -- the release itself: the flush before it has left its bracket, but there may be others
    by_cases hrel : c₁.live = true ∧ c₁.brackets ≠ []
    · rw [sessionRelease, if_pos hrel]
      refine .stopped ht fun _ => ?_
      -- a bracket that was open before, so someone is to blame
      rcases hc with hc | hc
      · exact absurd (hb.trans hc) hrel.2
      · exact hc.mono ht
    · rw [sessionRelease, if_neg hrel]
      exact .returned hb (ht.trans (List.suffix_cons ..))

/-- **`InnerClose` is safe.**  Induction on how deep its calls nest. -/
theorem innerClose_safe (env : Env) (n : Nat) : SafeClose (.of env n) := by
  let R : Int × Client → M Client → Prop := fun a r =>
    (a.2.brackets = [] ∨ (clientConnectError ≤ a.1 ∧ (a.2.exhausted = true → Blamed a.2.trace))) →
      Safe id a.2 r
  suffices h : ∀ n a, R a (unroll (fun a => (Stop.deep, a.2)) (innerCloseBody env) n a) from
    fun reason c hc => h n (reason, c) hc
  refine unroll_rule (fun a _ => .stopped (List.suffix_refl _) nofun) fun f hf a hc => ?_
  obtain ⟨reason, c⟩ := a
  -- the close one level further down
  have hsafe : SafeClose ⟨env, fun reason c => f (reason, c)⟩ := fun reason c hc => hf (reason, c) hc
  -- the sockets are closed whether the session is or not
  have hsockets : ∀ c₁, Safe id c₁ (.ok (closeSockets env (closeReason reason c) c₁)) := by
    intro c₁
    have hctl := closeSockets_ctl env (closeReason reason c) c₁
    refine .returned (congrArg Ctl.brackets hctl) ?_
    show c₁.trace <:+ (closeSockets env (closeReason reason c) c₁).ctl.trace
    rw [hctl]
    exact (List.suffix_cons ..).trans (List.suffix_append ..)
  unfold innerCloseBody
  dsimp only
  split
  · rename_i hlt
    -- an error is terminal only when the relinks are used up
    have hblame : c.brackets = [] ∨ Blamed c.trace := by
      refine hc.imp_right fun he => he.2 ?_
      by_contra hx
      unfold closeReason at hlt
      rw [if_neg hx] at hlt
      exact absurd he.1 (by omega)
    exact (closeSession_safe hsafe _ hblame).bind fun c₁ _ => hsockets c₁
  · exact hsockets c

/-! ## The net thread -/

/-- Where no KCP routine is running, a close is safe. -/
theorem close_safe (h : SafeClose cx) (reason : Int) (hb : c.brackets = []) :
    Safe id c (cx.close reason c) :=
  h reason c (Or.inl hb)

theorem send_safe (h : SafeClose cx) (hb : c.brackets = []) {r : M Client} (hs : Sends cx c r) :
    Safe id c r :=
  sends_safe (fun _ => close_safe h _ hb) hs

theorem loginPing_safe (h : SafeClose cx) (hb : c.brackets = []) : Safe id c (loginPing cx c) := by
  let c₁ := (getTimeMs cx.env (setConnState cx.env .logicConnected c)).2
  let c₂ := { c₁ with tcpPingExpire := c₁.tcpPingExpire.reset (cx.env.clock (c.nclock + 1)) }
  -- the login ping closes with an event of its own; no routine is running here
  have hclose : ∀ x, Safe id (c₂.sent x) (cx.fromLogin.close clientConnectError (c₂.sent x)) := by
    intro x
    have hlog : Safe id ((c₂.sent x).log .loginPingClose)
        (cx.close clientConnectError ((c₂.sent x).log .loginPingClose)) := close_safe h _ hb
    exact hlog.after rfl (List.suffix_cons ..)
  have hping := sends_safe hclose (sendTcpPing_sends cx.fromLogin (cx.env.clock (c.nclock + 1)) true c₂)
  exact hping.after rfl (List.suffix_cons ..)

theorem connectSuccess_safe (h : SafeClose cx) (hb : c.brackets = []) :
    Safe id c (connectSuccess cx c) := by
  refine (loginPing_safe h hb).bind fun c₁ _ => ?_
  split
  · exact .returned rfl (List.suffix_cons ..)
  · exact safe_ok rfl rfl

theorem reConnectSuccess_safe (h : SafeClose cx) (hb : c.brackets = []) :
    Safe id c (reConnectSuccess cx c) := by
  refine (loginPing_safe h hb).bind fun c₁ _ => ?_
  split
  · exact .returned rfl (List.suffix_cons ..)
  · exact safe_ok rfl rfl

theorem output_safe (data : List Byte) (len : Int) (c : Client) : Safe id c (output data len c) := by
  unfold output
  split
  · split
    · exact .stopped (List.suffix_refl _) nofun
    · exact safe_ok rfl rfl
  · exact safe_ok rfl rfl

/-- Induction on the rounds. -/
theorem recvLoop_safe (h : SafeClose cx) :
    ∀ (n : Nat) (recvLen : Int) {c : Client}, c.brackets = [] →
      Safe Prod.snd c (recvLoop cx n recvLen c)
  | 0, _, _, _ => safe_ok rfl rfl
  | n + 1, _, c, hb => by
    unfold recvLoop
    generalize c.kcpSession.recv maxPkgSize = r
    obtain ⟨r, session⟩ := r
    dsimp only
    -- nothing left; a disconnect, which closes and goes on; a message; a lone type byte
    split
    · exact safe_ok rfl rfl
    split
    · exact ((close_safe h _ (c := { c with kcpSession := session }) hb).bind fun c₁ hb₁ =>
        recvLoop_safe h n _ (hb₁.trans hb)).after rfl (List.suffix_refl _)
    split
    · exact ((output_safe _ _ { c with kcpSession := session }).bind fun c₁ hb₁ =>
        recvLoop_safe h n _ (hb₁.trans hb)).after rfl (List.suffix_refl _)
    · exact (recvLoop_safe h n _ (c := { c with kcpSession := session }) hb).after rfl
        (List.suffix_refl _)

theorem inputToKcp_safe (h : SafeClose cx) (msg : List Byte) (curTime : Int) (hb : c.brackets = []) :
    Safe id c (inputToKcp cx msg curTime c) := by
  unfold inputToKcp
  split
  · exact close_safe h _ hb
  generalize c.kcpSession.input msg curTime = r
  obtain ⟨ret, session⟩ := r
  have hin : ({ c with kcpSession := session } : Client).brackets = [] := hb
  dsimp only
  split
  · exact (close_safe h _ hin).after rfl (List.suffix_refl _)
  · refine ((recvLoop_safe h _ _ hin).bind fun a hb₁ => ?_).after rfl (List.suffix_refl _)
    split
    · exact close_safe h _ (hb₁.trans hb)
    · exact safe_ok rfl rfl

theorem createKCP_safe (h : SafeClose cx) (data : List Byte) (c : Client) :
    Safe id c (createKCP cx data c) :=
  (sessionUpdate_safe h _ (getTimeMs cx.env { c with
    kcpSession := c.kcpSession.createKCP (.ofBytes data)
    enableUdp := decide ((ControlKCPInfo.ofBytes data).enableUdp.toInt > 0) }).2).after rfl
    (List.suffix_refl _)

/-- One frame.  A handler runs outside of every call on the session, so whatever closes the client
    here frees no block that is in use. -/
theorem dispatchFrame_safe (h : SafeClose cx) (d : Dispatch) (curTime : Int) (hb : c.brackets = []) :
    Safe Round.client c (dispatchFrame cx d curTime c) := by
  unfold dispatchFrame
  split
  · split
    · exact (close_safe h _ hb).bind fun c₁ _ => safe_ok rfl rfl
    · exact safe_ok rfl rfl
  split
  · exact (inputToKcp_safe h _ _ hb).bind fun c₁ _ => safe_ok rfl rfl
  split
  · exact (output_safe _ _ c).bind fun c₁ _ => safe_ok rfl rfl
  split
  · split
    · exact (createKCP_safe h _ c).bind fun c₁ _ => safe_ok rfl rfl
    · exact (close_safe h _ hb).bind fun c₁ _ => safe_ok rfl rfl
  split
  · split
    · dsimp only
      split
      · exact (close_safe h _ hb).bind fun c₁ _ => safe_ok rfl rfl
      · exact safe_ok rfl rfl
    · exact (close_safe h _ hb).bind fun c₁ _ => safe_ok rfl rfl
  split
  · split
    · let c₁ : Client := { c with isFirstConnect := false }
      have hlogin : Safe Round.client c₁ (connectSuccess cx c₁ >>= fun c => .ok (.next c)) :=
        (connectSuccess_safe (c := c₁) h hb).bind fun c₂ _ => safe_ok rfl rfl
      exact hlogin.after rfl (List.suffix_refl _)
    · exact (reConnectSuccess_safe h hb).bind fun c₁ _ => safe_ok rfl rfl
  · exact safe_ok rfl rfl

/-- One round of the loop: the bookkeeping around the handler opens no bracket. -/
theorem readRound_safe (h : SafeClose cx) (curTime : Int) (hb : c.brackets = []) :
    Safe Round.client c (readRound cx curTime c) := by
  unfold readRound
  dsimp only
  split
  · exact safe_ok rfl rfl
  split
  · exact safe_ok rfl rfl
  · let head := CsConnHead.ofBytes c.readStream.buf
    let d := head.dispatch c.readStream.buf
    let c₁ : Client := { c with
      flow := head.flow
      magic := head.magic.setWidth 32
      dispatched := d :: c.dispatched }
    have hb₁ : c₁.brackets = [] := hb
    have hframe : Safe Round.client c₁
        (dispatchFrame cx d curTime c₁ >>= fun r => .ok (r.skip head.pkgLen)) :=
      (dispatchFrame_safe h d curTime hb₁).bind fun r _ => safe_ok
        (congrArg Ctl.brackets (Round.skip_ctl r _)) (congrArg Ctl.trace (Round.skip_ctl r _))
    exact hframe.after rfl (List.suffix_refl _)

/-- Induction on the rounds. -/
theorem readStream_safe (h : SafeClose cx) (curTime : Int) :
    ∀ (n : Nat) {c : Client}, c.brackets = [] → Safe id c (readStream cx curTime n c)
  | 0, _, _ => .stopped (List.suffix_refl _) nofun
  | n + 1, c, hb => by
    refine (readRound_safe h curTime hb).bind fun r hr => ?_
    cases r with
    | done c₁ => exact safe_ok rfl rfl
    | next c₁ => exact readStream_safe h curTime n (hr.trans hb)

/-- Without room to read the client is closed. -/
theorem makeReadRoom_safe (h : SafeClose cx) (hb : c.brackets = []) :
    Safe id c (makeReadRoom cx c) := by
  unfold makeReadRoom
  generalize c.readStream.ensureWritable recvOneTimeSize = r
  obtain ⟨room, stream⟩ := r
  dsimp only
  split
  · exact safe_ok rfl rfl
  · let c₁ : Client := ({ c with readStream := stream } : Client).log .noRoom
    have hb₁ : c₁.brackets = [] := hb
    exact (close_safe h clientConnectError hb₁).after rfl (List.suffix_cons ..)

theorem onTcpRead_safe (h : SafeClose cx) (n : Nat) (data : List Byte) (curTime : Int)
    (hb : c.brackets = []) : Safe id c (onTcpRead cx n data curTime c) := by
  unfold onTcpRead
  refine (makeReadRoom_safe h hb).bind fun c₁ hb₁ => ?_
  have hb₂ : c₁.brackets = [] := hb₁.trans hb
  generalize (if c₁.tcpSock = -1 then [] else data.take recvOneTimeSize) = read
  dsimp only
  split
  · generalize c₁.readStream.addSize read = stream
    let c₂ : Client := { c₁ with readStream := stream }
    have hb₃ : c₂.brackets = [] := hb₂
    exact (readStream_safe h curTime n hb₃).after rfl (List.suffix_refl _)
  · exact close_safe h _ hb₂

/-- A datagram is handed on as a frame is; none of its branches reads the stream. -/
theorem onUdpRead_safe (h : SafeClose cx) (r : UdpRecv) (curTime : Int) (hb : c.brackets = []) :
    Safe id c (onUdpRead cx r curTime c) := by
  unfold onUdpRead
  split
  · exact safe_ok rfl rfl
  · split
    · split
      · unfold udpDatagram
        dsimp only
        split
        · exact safe_ok rfl rfl
        split
        · exact safe_ok rfl rfl
        split
        · exact output_safe ..
        split
        · exact inputToKcp_safe h _ _ hb
        split
        · exact close_safe h _ hb
        · exact safe_ok rfl rfl
      · exact safe_ok rfl rfl
    · split
      · exact safe_ok rfl rfl
      · exact close_safe h _ hb

/-- A dial that fails closes the client; there is no session at work then either. -/
theorem innerConnect_safe (h : SafeClose cx) (ip : String) (port : BitVec 32) (timeoutMs : Int)
    (hb : c.brackets = []) : Safe id c (innerConnect cx ip port timeoutMs c) := by
  have hfail : ∀ c₁ : Client, c₁.brackets = c.brackets → c₁.trace = c.trace →
      Safe id c (cx.close clientConnectError (c₁.log .dialFail)) := by
    intro c₁ hb₁ ht₁
    exact (close_safe h _ (c := c₁.log .dialFail) (hb₁.trans hb)).after hb₁
      (ht₁ ▸ List.suffix_cons ..)
  unfold innerConnect createConnect
  dsimp only
  split
  · exact hfail _ rfl rfl
  · unfold connectUdp createConnect
    dsimp only
    split
    · exact hfail _ rfl rfl
    · exact .returned rfl (List.suffix_cons ..)

/-- A relink is a dial. -/
theorem checkRelink_safe (h : SafeClose cx) (nowMs : Int) (hb : c.brackets = []) :
    Safe id c (checkRelink cx nowMs c) := by
  unfold checkRelink
  split
  · exact safe_ok rfl rfl
  · dsimp only
    split
    · exact safe_ok rfl rfl
    · split
      · refine ((innerConnect_safe h _ _ 0 ?_).bind fun c₁ _ => ?_).after rfl (List.suffix_cons ..)
        · exact hb
        · split <;> exact safe_ok rfl rfl
      · exact safe_ok rfl rfl

theorem runTask_safe (h : SafeClose cx) (t : Task) (hb : c.brackets = []) :
    Safe id c (runTask cx t c) := by
  cases t with
  | connect ip port timeoutMs => exact innerConnect_safe h ip port timeoutMs hb
  | close => exact close_safe h _ hb
  | send msg => exact sendKCPBuf_safe h msg c

/-! ## All runs -/

/-- **A step of the net thread.** -/
theorem netStep_safe {w : World} {s : Sys} (hb : s.client.brackets = []) :
    Safe Sys.client s.client (netStep w s) := by
  have h : SafeClose w.cx := innerClose_safe w.env w.depth
  unfold netStep
  split
  -- the phases in their order: what select found on either socket, one task, then the timers
  case h_1 | h_2 | h_12 => exact safe_ok rfl rfl
  case h_3 =>
    split
    · exact safe_ok rfl rfl
    · split <;> exact safe_ok rfl rfl
  case h_4 =>
    have hevent : Safe id s.client (tcpEvent w s.curTime s.client) := by
      unfold tcpEvent
      split
      · exact safe_ok rfl rfl
      · split
        · exact safe_ok rfl rfl
        · exact onTcpRead_safe h _ _ _ hb
        · split
          · unfold onTcpWritable
            dsimp only
            split
            · exact .returned rfl (List.suffix_cons ..)
            · let c₁ : Client := { s.client with tcpWritable := false }
              have hb₁ : c₁.brackets = [] := hb
              exact (send_safe h hb₁ (onTcpWrite_sends w.cx c₁)).after rfl (List.suffix_refl _)
          · exact safe_ok rfl rfl
    exact hevent.bind fun c₁ _ => safe_ok rfl rfl
  case h_5 =>
    have hevent : Safe id s.client (udpEvent w s.curTime s.client) := by
      unfold udpEvent
      split
      · exact safe_ok rfl rfl
      · exact onUdpRead_safe h _ _ hb
    exact hevent.bind fun c₁ _ => safe_ok rfl rfl
  case h_6 =>
    split
    · exact safe_ok rfl rfl
    · rename_i t rest hq
      let c₁ := takeTask t rest s.client
      have hb₁ : c₁.brackets = [] := hb
      have hrun : Safe Sys.client c₁ (runTask w.cx t c₁ >>= fun c => .ok { s with client := c }) :=
        (runTask_safe h t hb₁).bind fun c₂ _ => safe_ok rfl rfl
      exact hrun.after rfl (List.suffix_cons ..)
  -- from here on the timers: KCP, the two pings, the deadline, the relink
  case h_7 => exact (sessionTick_safe h _ s.client).bind fun c₁ _ => safe_ok rfl rfl
  case h_8 => exact (send_safe h hb (sendTcpPing_sends ..)).bind fun c₁ _ => safe_ok rfl rfl
  case h_9 => exact (send_safe h hb (sendUdpPing_sends ..)).bind fun c₁ _ => safe_ok rfl rfl
  case h_10 =>
    have htimeout : Safe id s.client (checkTimeout w.cx s.nowMs s.client) := by
      unfold checkTimeout
      split
      · exact close_safe h _ hb
      · exact safe_ok rfl rfl
    exact htimeout.bind fun c₁ _ => safe_ok rfl rfl
  case h_11 => exact (checkRelink_safe h _ hb).bind fun c₁ _ => safe_ok rfl rfl

/-- **A step of the system.** -/
theorem sysStep_safe {a : Act} {s : Sys} (hb : s.client.brackets = []) :
    Safe Sys.client s.client (sysStep a s) := by
  cases a with
  | connect ip port timeoutMs =>
    show Safe Sys.client s.client (.ok (connect ip port timeoutMs s))
    unfold connect
    dsimp only
    split <;> exact safe_ok rfl rfl
  | sendMsg msg =>
    show Safe Sys.client s.client (.ok { s with client := (sendMsg msg s.client).2 })
    unfold sendMsg
    split
    · exact safe_ok rfl rfl
    · exact .returned rfl (List.suffix_cons ..)
  | close | update | addRelinkInterval | clearRelinkInterval | setMagicNum => exact safe_ok rfl rfl
  | switchNetwork w =>
    have hswitch : Safe id s.client (switchNetwork w.cx s.client) := by
      unfold switchNetwork
      split
      · exact close_safe (innerClose_safe w.env w.depth) _ hb
      · exact safe_ok rfl rfl
    exact hswitch.bind fun c₁ _ => safe_ok rfl rfl
  | net w => exact netStep_safe hb

/-- The events after a step, whether it returned or stopped. -/
def eventsAfter : M Sys → List Ev
  | .ok s => s.client.trace
  | .error (_, c) => c.trace

/-- No send that the step makes from the KCP output callback closes the connection with the relinks
    used up. -/
def OutputsKept (s : Sys) (a : Act) : Prop := ¬ Blamed (eventsAfter (sysStep a s))

/-- Between the steps no KCP routine is running. -/
theorem Runs.brackets {C : Sys → Act → Prop} {s : Sys} (h : Runs C s) : s.client.brackets = [] := by
  refine h.inv (I := fun s => s.client.brackets = []) ?_ ?_
  · rintro s ⟨cb, now, rfl⟩
    rfl
  · intro s s' a _ hb _ hr
    -- a step that returns has left every bracket it entered
    have hsafe := sysStep_safe (a := a) hb
    rw [hr] at hsafe
    cases hsafe with
    | returned hb' _ => exact hb'.trans hb

/-- **The session is released only after every KCP routine has returned**, in every run whose steps
    meet the condition, up to and including its last step. -/
theorem released_after_return {s : Sys} {a : Act} (h : Runs OutputsKept s) (hc : OutputsKept s a)
    (e : Client) : sysStep a s ≠ .error (.uaf, e) := by
  have hb := h.brackets
  intro hr
  have hsafe := sysStep_safe (a := a) hb
  unfold OutputsKept at hc
  rw [hr] at hsafe hc
  cases hsafe with
  | stopped _ hst => exact hc (hst rfl)

/-- `OutputsKept`, as a test. -/
def outputsKept (s : Sys) (a : Act) : Bool :=
  (eventsAfter (sysStep a s)).all fun e => match e with
    | .outputClose _ _ true => false
    | _ => true

theorem outputsKept_sound (s : Sys) (a : Act) (h : outputsKept s a = true) : OutputsKept s a := by
  rintro ⟨b, idle, hmem⟩
  exact nomatch List.all_eq_true.mp h _ hmem

/-- A session with an acknowledgement due; the next step is the tick. -/
def sampleDue : List Act := sampleRead (sampleInfo 500 ++ samplePush 0)

/-- With a relink interval left, the send of the acknowledgement fails, the connection is closed and
    the session is kept. -/
theorem released_after_return_relink :
    ∃ s s', Runs OutputsKept s ∧ sysStep (.net (sampleWorld (-1))) s = .ok s'
      ∧ (s.client.connState, s'.client.connState, s'.client.live) = (.connected, .init, true)
      ∧ ∀ e, sysStep (.net (sampleWorld (-1))) s ≠ .error (.uaf, e) := by
  have hrun : (exec sysStep outputsKept (.addRelinkInterval 1000 :: sampleDue) sampleClient).map
      (fun s => (s.client.connState, outputsKept s (.net (sampleWorld (-1))),
        (exec sysStep outputsKept [.net (sampleWorld (-1))] s).map fun s' =>
          (s'.client.connState, s'.client.live)))
      = some (.connected, true, some (.init, true)) := by decide +kernel
  obtain ⟨s, hs, hfields⟩ := Option.map_eq_some_iff.mp hrun
  simp only [Prod.mk.injEq] at hfields
  obtain ⟨hconn, hkept, hnext⟩ := hfields
  obtain ⟨s', hs', hfields'⟩ := Option.map_eq_some_iff.mp hnext
  have hr : sysStep (.net (sampleWorld (-1))) s = .ok s' := by
    rw [exec, if_pos hkept] at hs'
    split at hs'
    · rename_i t ht
      exact ht.trans (congrArg Except.ok (Option.some.inj hs'))
    · cases hs'
  have h : Runs OutputsKept s := .of_exec outputsKept_sound _ (.start ⟨_, _, rfl⟩) hs
  refine ⟨s, s', h, hr, ?_, released_after_return h (outputsKept_sound _ _ hkept)⟩
  rw [hconn, hfields']

/-- Without relink intervals the failed send releases the session, while the update that made it is
    still working on the block. -/
theorem released_while_updating :
    ¬ ∀ s a e, Reachable s → sysStep a s ≠ .error (.uaf, e) := by
  intro hclaim
  have hrun : (sampleExec sampleDue).map (fun s =>
      match sysStep (.net (sampleWorld (-1))) s with
      | .error (.uaf, _) => true
      | _ => false) = some true := by decide +kernel
  obtain ⟨s, hs, hstop⟩ := Option.map_eq_some_iff.mp hrun
  have h : Reachable s := .of_exec (fun _ _ _ => trivial) _ (.start ⟨_, _, rfl⟩) hs
  split at hstop
  · rename_i e he
    exact hclaim s _ e h he
  · nomatch hstop

end ConnClient
