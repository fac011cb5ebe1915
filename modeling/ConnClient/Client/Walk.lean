/-
  The invariant rule of the net thread.

  Sending and receiving are about little of the client: the two sockets, the state, the two streams,
  the control block — its `Core`.  Everything else a function of the net thread does leaves the core
  as it is.  So an invariant `J` of the core holds of every reachable state if it is kept by the few
  things that do change the core; `Walk` lists them:

  1. something is written, or all that was unsent has gone out (`write`, `drained`);
  2. a KCP routine leaves a block (`block`);
  3. bytes arrive or are skipped (`read`), and a login is read off them (`login`);
  4. everything is closed (`shut`).

  Opening a connection and finding it established are not in the list.  An invariant may fail there,
  and then the runs are those whose steps keep it; so `Walk.runs` asks for the two as hypotheses, with
  what is known of the state in which they happen.

  Closing comes apart: it may be asked for in the middle of something, so all that is known then is
  `K`, and it is `Core.shut` that has to establish `J` again.  On the way there, the flush writes and
  outputs, and keeps `K`.  What is known of a control block, `B`, is kept by the KCP routines and holds
  at every output on the way (`BlockInv`).

  Of the tasks for the application the core has one number, how many of them are relink tasks.  The net
  thread changes it in one place, the end of `CheckRelink`; an invariant that is to hold across that
  place, and across `Update`, says nothing of it (`Unqueued`).

  After that the functions come in the order of the model, one lemma each: from `J`, a call that
  returns ends in `J` (`Ends`).  A call that does not return (a session released under a routine, a
  nesting too deep) leaves no state to say anything of.
-/
import ConnClient.Client.Sending
import ConnClient.Client.System

namespace ConnClient

open ConnClient.Lib ConnClient.Ikcp

/-! ## The core -/

/-- How many relink tasks are in `out_queue_`. -/
def relinkTasks (c : Client) : Nat := c.outQueue.count .relink

/-- What sending and receiving are about.  `opened` and `closed` are the descriptors that ever were,
    which no function reads. -/
structure Core where
  tcpSock : Int
  udpSock : Int
  connState : ConnState
  tcpWritable : Bool
  writeStream : Stream
  readStream : Stream
  kcp : Option IKCPCB
  opened : List Int
  closed : List Int
  relinks : Nat

/-- The core of a client. -/
def Client.core (c : Client) : Core :=
  ⟨c.tcpSock, c.udpSock, c.connState, c.tcpWritable, c.writeStream, c.readStream, c.kcpSession.kcp,
    c.opened, c.closed, relinkTasks c⟩

/-- A task for the application changes nothing of the core, unless it is a relink task. -/
theorem enqueueOut_core {t : OutTask} (h : t ≠ .relink) (c : Client) :
    (c.enqueueOut t).core = c.core := by
  have htasks : relinkTasks (c.enqueueOut t) = relinkTasks c := by
    show (c.outQueue ++ [t]).count .relink = c.outQueue.count .relink
    rw [List.count_append, List.count_singleton, if_neg (by simpa using h), Nat.add_zero]
  show { c.core with relinks := relinkTasks (c.enqueueOut t) } = c.core
  rw [htasks]
  rfl

/-- `notify` traces what it enqueues, and the trace is no part of the core. -/
theorem notify_core {t : OutTask} (h : t ≠ .relink) (c : Client) : (c.notify t).core = c.core :=
  enqueueOut_core h c

/-- And a relink task is one more. -/
theorem enqueueOut_relink (c : Client) :
    (c.enqueueOut .relink).core = { c.core with relinks := c.core.relinks + 1 } := by
  have htasks : relinkTasks (c.enqueueOut .relink) = relinkTasks c + 1 := by
    show (c.outQueue ++ [OutTask.relink]).count .relink = c.outQueue.count .relink + 1
    rw [List.count_append, List.count_singleton_self]
  show { c.core with relinks := relinkTasks (c.enqueueOut .relink) } = _
  rw [htasks]
  rfl

/-- The invariant does not count the tasks for the application. -/
def Unqueued (J : Core → Prop) : Prop := ∀ {k : Core} (n : Nat), J k → J { k with relinks := n }

/-- Everything is closed. -/
def Core.shut (k : Core) : Core :=
  { k with
    tcpSock := -1
    udpSock := -1
    connState := .init
    tcpWritable := true
    writeStream := k.writeStream.reset
    readStream := k.readStream.reset
    closed := [k.udpSock, k.tcpSock].filter (· ≠ -1) ++ k.closed }

/-- The end of `InnerClose`, in the core.  Its report is a task for the application. -/
theorem closeSockets_core (env : Env) (reason : Int) (c : Client) :
    (closeSockets env reason c).core = c.core.shut := by
  unfold closeSockets
  dsimp only
  split
  · exact notify_core (fun h => OutTask.noConfusion h) _
  · rfl

/-- What holds of the block a routine leaves, and of the block at each of its outputs: an output may
    close, and then the block of that moment is the one that is flushed. -/
def Every (B : IKCPCB → Prop) (r : IKCPCB × List (IKCPCB × List Byte)) : Prop :=
  B r.1 ∧ ∀ e ∈ r.2, B e.1

/-- What the KCP routines keep of a block, from its creation on. -/
structure BlockInv (B : IKCPCB → Prop) : Prop where
  input {k : IKCPCB} (data : List Byte) (now : IUINT32) : B k → B (pvpIkcpInput k data now).2
  recv {k : IKCPCB} (len : Int) : B k → B (pvpIkcpRecv k len).2
  flush {k : IKCPCB} : B k → Every B (pvpIkcpFlush k)
  update {k : IKCPCB} (now : IUINT32) : B k → Every B (pvpIkcpUpdate k now)
  sendEx {k : IKCPCB} (msg : List Byte) (now : IUINT32) : B k → Every B (pvpIkcpSendEx k msg now).2
  create (info : ControlKCPInfo) (now : IUINT32) :
    Every B (pvpIkcpUpdate (KcpSession.createBlock info) now)

/-- Nothing need be known of a block. -/
theorem blockInv_true : BlockInv fun _ => True :=
  ⟨fun _ _ _ => trivial, fun _ _ => trivial, fun _ => ⟨trivial, fun _ _ => trivial⟩,
    fun _ _ => ⟨trivial, fun _ _ => trivial⟩, fun _ _ _ => ⟨trivial, fun _ _ => trivial⟩,
    fun _ _ => ⟨trivial, fun _ _ => trivial⟩⟩

/-- **What an invariant `J` of the core has to be kept by**; `K` is what is left of it while a close
    is on its way. -/
structure Walk (B : IKCPCB → Prop) (K J : Core → Prop) : Prop where
  blocks : BlockInv B
  weak {k : Core} : J k → K k
  held {k : Core} {b : IKCPCB} : K k → k.kcp = some b → B b
  -- on the way to a close
  closing {k : Core} (s : Stream) (t : Bool) : K k → K { k with writeStream := s, tcpWritable := t }
  closingBlock {k : Core} {b : IKCPCB} : K k → B b → K { k with kcp := some b }
  release {k : Core} : K k → K { k with kcp := none }
  shut {k : Core} : K k → J k.shut
  -- elsewhere: what could not be written is registered
  write {k : Core} {s : Stream} {t : Bool} :
    J k → k.tcpSock ≠ -1 → (s.len ≠ 0 → t = true) → J { k with writeStream := s, tcpWritable := t }
  drained {k : Core} : J k → k.writeStream.len = 0 → J { k with tcpWritable := false }
  block {k : Core} {b : IKCPCB} : J k → B b → J { k with kcp := some b }
  read {k : Core} {s : Stream} :
    J k → s.len ≤ k.readStream.len ∨ k.tcpSock ≠ -1 → J { k with readStream := s }
  login {k : Core} : J k → csConnHeadSize ≤ k.readStream.len → J { k with connState := .logicConnected }

/-- A call that returns ends in `J`. -/
abbrev EndsIn {α : Type} (J : Core → Prop) (get : α → Client) : Except (Stop × Client) α → Prop :=
  Ends (fun a => J (get a).core) (fun _ => True)

/-- How closing behaves: from the little that is known when it is asked for, it establishes the
    invariant. -/
def ClosesInto (K J : Core → Prop) (cx : Cx) : Prop :=
  ∀ reason c, K c.core → EndsIn J id (cx.close reason c)

section Walking

variable {B : IKCPCB → Prop} {K J I : Core → Prop} {cx : Cx} {c : Client}

/-! ## Writing -/

/-- `SendEx` asks the socket and counts that it did, no more. -/
theorem sendEx_core (env : Env) (sock : Int) (len : Nat) (c : Client) :
    (sendEx env sock len c).2.core = c.core := by
  unfold sendEx
  split <;> rfl

/-- What writing to the TCP socket comes to: nothing was unsent; the socket took some of it, and
    what is left, if any, has the socket watched; or it failed, and the connection is closed. -/
inductive Wrote (cx : Cx) (c : Client) : M Client → Prop where
  | none (h : c.writeStream.len = 0) : Wrote cx c (.ok c)
  | left {s : Stream} {t : Bool} {n : Nat} (hs : c.tcpSock ≠ -1) (h : s.len ≠ 0 → t = true) :
      Wrote cx c (.ok { c with writeStream := s, tcpWritable := t, nsend := n })
  | failed (s : Stream) (n : Nat) :
      Wrote cx c (cx.close clientConnectError { c with writeStream := s, nsend := n })

theorem onTcpWrite_wrote (cx : Cx) (c : Client) : Wrote cx c (onTcpWrite cx c) := by
  unfold onTcpWrite
  by_cases hempty : c.writeStream.len = 0
  · rw [if_pos hempty]
    exact .none hempty
  rw [if_neg hempty]
  unfold sendEx
  dsimp only
  by_cases hsock : c.tcpSock = -1
  · -- there is no sending without a socket, and the error is a lasting one
    rw [if_pos hsock]
    exact .failed c.writeStream c.nsend
  rw [if_neg hsock]
  -- the socket says how much it took; all cases are about that number
  generalize min (cx.env.send c.nsend).1 (c.writeStream.len : Int) = nwritten
  dsimp only
  by_cases hpos : nwritten > 0
  · rw [if_pos hpos]
    -- part of it, so the rest has to be watched for, or all of it
    by_cases hpart : nwritten < c.writeStream.len
    · rw [if_pos hpart]
      exact .left hsock fun _ => rfl
    · rw [if_neg hpart]
      refine .left hsock fun hlen => absurd ?_ hlen
      rw [Stream.len_skip (by omega)]
      omega
  · rw [if_neg hpos]
    split
    · -- it would block: nothing was taken, and the socket is watched
      exact .left hsock fun _ => rfl
    · exact .failed c.writeStream (c.nsend + 1)

/-- A frame put behind what is unsent is something to write. -/
theorem frame_pending (flow magic : BitVec 32) (cmd : Byte) {msg : List Byte} {s : Stream}
    (hroom : (s.ensureWritable (csConnHeadSize + msg.length : Nat)).1 = true) :
    ((s.ensureWritable (csConnHeadSize + msg.length : Nat)).2.addSize
      (tcpFrame flow magic cmd msg)).len ≠ 0 := by
  have hpos : (0 : Int) < (csConnHeadSize + msg.length : Nat) := by
    unfold csConnHeadSize
    omega
  have hframe := length_tcpFrame flow magic cmd msg
  rw [Stream.len_addSize_ensureWritable hpos hroom (by omega), hframe]
  unfold csConnHeadSize
  omega

theorem sendTCPBuf_wrote (cx : Cx) (cmd : Byte) (msg : List Byte) (c : Client) :
    Wrote cx c (sendTCPBuf cx cmd msg c) := by
  unfold sendTCPBuf
  dsimp only
  by_cases hno : (c.writeStream.ensureWritable (csConnHeadSize + msg.length : Nat)).1 = false
  · rw [if_pos hno]
    exact .failed _ c.nsend
  rw [if_neg hno]
  -- the frame fits, so there is something unsent when the write begins
  have hlen := frame_pending c.flow c.magic cmd (eq_true_of_ne_false hno)
  have hwrote := onTcpWrite_wrote cx { c with
    writeStream := (c.writeStream.ensureWritable (csConnHeadSize + msg.length : Nat)).2.addSize
      (tcpFrame c.flow c.magic cmd msg) }
  generalize onTcpWrite cx _ = r at hwrote ⊢
  cases hwrote with
  | none h => exact absurd h hlen
  | left hs h => exact .left hs h
  | failed s n => exact .failed s n

/-- The closes of an output and of a login's ping leave an event first, which is no part of the
    core. -/
theorem ClosesInto.fromOutput (h : ClosesInto K J cx) : ClosesInto K J cx.fromOutput :=
  fun reason c hc => h reason (c.log _) hc

theorem ClosesInto.fromLogin (h : ClosesInto K J cx) : ClosesInto K J cx.fromLogin :=
  fun reason c hc => h reason (c.log .loginPingClose) hc

/-- Writing keeps `J`: what is left over is registered, and a failed write closes. -/
theorem Walk.wrote (hw : Walk B K J) (hcl : ClosesInto K J cx) (hc : J c.core) {r : M Client}
    (h : Wrote cx c r) : EndsIn J id r := by
  cases h with
  | none => exact .returned hc
  | left hs h => exact .returned (hw.write hc hs h)
  | failed s n => exact hcl _ { c with writeStream := s, nsend := n } (hw.closing s _ (hw.weak hc))

/-- The same on the way to a close. -/
theorem Walk.closingWrote (hw : Walk B K J) (hcl : ClosesInto K J cx) (hc : K c.core) {r : M Client}
    (h : Wrote cx c r) : EndsIn K id r := by
  cases h with
  | none => exact .returned hc
  | left hs h => exact .returned (hw.closing _ _ hc)
  | failed s n =>
    exact (hcl _ { c with writeStream := s, nsend := n } (hw.closing s _ hc)).imp
      (fun _ => hw.weak) fun _ => id

/-- A datagram leaves the core alone, or closes.  Stated for any `I` that closing keeps, since both
    `J` and, on the way to a close, `K` are needed. -/
theorem udpWrite_ends (hclose : ∀ c, I c.core → EndsIn I id (cx.close clientConnectError c))
    (pkg : List Byte) (hc : I c.core) : EndsIn I id (udpWrite cx pkg c) := by
  have hcore := sendEx_core cx.env c.udpSock pkg.length c
  unfold udpWrite
  generalize sendEx cx.env c.udpSock pkg.length c = r at hcore ⊢
  obtain ⟨⟨sendLen, err⟩, c₁⟩ := r
  dsimp only at hcore ⊢
  have hc₁ : I c₁.core := hcore.symm ▸ hc
  split
  · exact hclose c₁ hc₁
  split
  · exact hclose c₁ hc₁
  · exact .returned hc₁

theorem sendUDPBuf_ends (hclose : ∀ c, I c.core → EndsIn I id (cx.close clientConnectError c))
    (cmd : Byte) (msg : List Byte) (hc : I c.core) : EndsIn I id (sendUDPBuf cx cmd msg c) := by
  unfold sendUDPBuf
  split
  · exact .returned hc
  split
  · exact .returned hc
  · exact udpWrite_ends hclose _ hc

/-! ## The KCP routines -/

/-- The outputs of a routine, each with the block of its moment. -/
theorem playOutputs_ends (hblock : ∀ {k b}, I k → B b → I { k with kcp := some b })
    (hout : ∀ data c, I c.core → EndsIn I id (kcpOutput cx data c))
    (outs : List (IKCPCB × List Byte)) {c : Client} (hB : ∀ e ∈ outs, B e.1) (hc : I c.core) :
    EndsIn I id (playOutputs cx outs c) := by
  refine playOutputs_rule (I := fun c => I c.core) (fun e he c hc => ?_) hc
  exact hout e.2 _ (hblock hc (hB e he))

/-- Only what surrounds the block need be known before: the routine sees to the block.  With no
    output the block is set at the end; with some, the first of them sets it. -/
theorem runKcp_ends (hblock : ∀ {k b}, I k → B b → I { k with kcp := some b })
    (hout : ∀ data c, I c.core → EndsIn I id (kcpOutput cx data c)) (b : Bracket)
    {r : IKCPCB × List (IKCPCB × List Byte)} (hr : Every B r)
    (hc : ∀ k, B k → I { c.core with kcp := some k }) : EndsIn I id (runKcp cx b r c) := by
  obtain ⟨k, outs⟩ := r
  cases outs with
  | nil => exact .returned (hc k hr.1)
  | cons e outs =>
    obtain ⟨k₁, data⟩ := e
    have hk₁ : I ({ c with
        brackets := b :: c.brackets
        kcpSession := { c.kcpSession with kcp := some k₁ } } : Client).core :=
      hc k₁ (hr.2 _ (List.mem_cons_self ..))
    refine Ends.bind (Q := fun c₁ => I c₁.core) ?_ fun c₁ hc₁ => .returned (hblock hc₁ hr.1)
    exact (hout data _ hk₁).bind fun c₁ hc₁ =>
      playOutputs_ends hblock hout outs (fun e he => hr.2 e (List.mem_cons_of_mem _ he)) hc₁

/-- The output callback sends by UDP, or puts a frame behind what is unsent. -/
theorem Walk.kcpOutput (hw : Walk B K J) (hcl : ClosesInto K J cx) (data : List Byte) (c : Client)
    (hc : J c.core) : EndsIn J id (kcpOutput cx data c) := by
  unfold ConnClient.kcpOutput
  split
  · exact sendUDPBuf_ends (fun c hc => hcl.fromOutput _ c (hw.weak hc)) _ _ hc
  · exact hw.wrote hcl.fromOutput hc (sendTCPBuf_wrote ..)

theorem Walk.closingOutput (hw : Walk B K J) (hcl : ClosesInto K J cx) (data : List Byte)
    (c : Client) (hc : K c.core) : EndsIn K id (ConnClient.kcpOutput cx data c) := by
  unfold ConnClient.kcpOutput
  split
  · exact sendUDPBuf_ends (fun c hc => (hcl.fromOutput _ c hc).imp (fun _ => hw.weak) fun _ => id)
      _ _ hc
  · exact hw.closingWrote hcl.fromOutput hc (sendTCPBuf_wrote ..)

theorem Walk.runKcp (hw : Walk B K J) (hcl : ClosesInto K J cx) (b : Bracket)
    {r : IKCPCB × List (IKCPCB × List Byte)} (hr : Every B r) (hc : J c.core) :
    EndsIn J id (runKcp cx b r c) :=
  runKcp_ends hw.block (hw.kcpOutput hcl) b hr fun _ => hw.block hc

/-! ## `InnerClose` -/

/-- **`InnerClose` establishes the invariant**, from what is left of it.  Induction on how deep its
    calls nest. -/
theorem Walk.innerClose (hw : Walk B K J) (env : Env) (n : Nat) : ClosesInto K J (.of env n) := by
  let R : Int × Client → M Client → Prop := fun a r => K a.2.core → EndsIn J id r
  suffices h : ∀ n a, R a (unroll (fun a => (Stop.deep, a.2)) (innerCloseBody env) n a) from
    fun reason c hc => h n (reason, c) hc
  refine unroll_rule (fun a _ => .stopped trivial) fun f hf a hc => ?_
  obtain ⟨reason, c⟩ := a
  -- the calls one level further down, by the hypothesis of the induction
  have hcl : ClosesInto K J ⟨env, fun reason c => f (reason, c)⟩ := fun reason c hc =>
    hf (reason, c) hc
  -- closing the sockets establishes `J` from `K`, whatever came before
  have hsockets : ∀ c₁ : Client, K c₁.core →
      EndsIn J id (.ok (closeSockets env (closeReason reason c) c₁)) := fun c₁ hc₁ =>
    .returned ((closeSockets_core env (closeReason reason c) c₁).symm ▸ hw.shut hc₁)
  unfold innerCloseBody
  dsimp only
  split
  · -- a terminal reason flushes the session first, and then releases it
    have hflush : EndsIn K id (sessionFlush ⟨env, fun reason c => f (reason, c)⟩
        (closeReason reason c) c) := by
      unfold sessionFlush
      split
      · exact .returned hc
      · rename_i b hb
        exact runKcp_ends hw.closingBlock (hw.closingOutput hcl) _ (hw.blocks.flush (hw.held hc hb))
          fun _ => hw.closingBlock hc
    have hsession : EndsIn K id (closeSession ⟨env, fun reason c => f (reason, c)⟩
        (closeReason reason c) c) := by
      refine hflush.bind fun c₁ hc₁ => ?_
      unfold sessionRelease
      split
      · -- it is released under a routine that is still running
        exact .stopped trivial
      · exact .returned (hw.release hc₁)
    exact hsession.bind hsockets
  · exact hsockets c hc

/-! ## The other calls of the session -/

/-- The timer's update, and `SendKCPBuf`, run a routine on the block there is. -/
theorem Walk.sessionUpdate (hw : Walk B K J) (hcl : ClosesInto K J cx) (now : IUINT32)
    (hc : J c.core) : EndsIn J id (sessionUpdate cx now c) := by
  unfold ConnClient.sessionUpdate
  split
  · exact .returned hc
  · rename_i b hb
    exact (hw.runKcp hcl .update (hw.blocks.update now (hw.held (hw.weak hc) hb)) hc).bind
      fun _ hc₁ => .returned hc₁

theorem Walk.sessionTick (hw : Walk B K J) (hcl : ClosesInto K J cx) (now : IUINT32)
    (hc : J c.core) : EndsIn J id (sessionTick cx now c) := by
  unfold ConnClient.sessionTick
  split
  · exact .returned hc
  split
  · exact (hw.sessionUpdate hcl now hc).bind fun _ hc₁ => .returned hc₁
  · exact .returned hc

theorem Walk.sendKCPBuf (hw : Walk B K J) (hcl : ClosesInto K J cx) (msg : List Byte)
    (hc : J c.core) : EndsIn J id (sendKCPBuf cx msg c) := by
  unfold ConnClient.sendKCPBuf
  split
  · exact .returned hc
  split
  · exact .returned hc
  dsimp only
  split
  · exact .returned hc
  · rename_i b hb
    exact hw.runKcp hcl .sendEx (hw.blocks.sendEx msg _ (hw.held (hw.weak hc) hb)) hc

/-! ## Pings -/

/-- The pings only write. -/
theorem Walk.sendTcpPing (hw : Walk B K J) (hcl : ClosesInto K J cx) (now : Int) (immediate : Bool)
    (hc : J c.core) : EndsIn J id (sendTcpPing cx now immediate c) := by
  unfold ConnClient.sendTcpPing
  split
  · exact .returned hc
  dsimp only
  generalize (if immediate then (true, c.tcpPingExpire) else c.tcpPingExpire.tryExpire now) = r
  obtain ⟨due, expire⟩ := r
  dsimp only
  split
  · exact hw.wrote hcl (c := { c with tcpPingExpire := expire, pingSeq := now }) hc
      (sendTCPBuf_wrote ..)
  · exact .returned hc

theorem Walk.sendUdpPing (hw : Walk B K J) (hcl : ClosesInto K J cx) (now : Int) (hc : J c.core) :
    EndsIn J id (sendUdpPing cx now c) := by
  unfold ConnClient.sendUdpPing
  split
  · exact .returned hc
  split
  · exact .returned hc
  generalize c.udpPingExpire.tryExpire now = r
  obtain ⟨due, expire⟩ := r
  dsimp only
  split
  · exact udpWrite_ends (fun c hc => hcl _ c (hw.weak hc)) _
      (c := { c with udpPingExpire := expire }) hc
  · exact .returned hc

/-- A login sets the state and pings at once. -/
theorem Walk.loginPing (hw : Walk B K J) (hcl : ClosesInto K J cx) (hc : J c.core)
    (hlen : csConnHeadSize ≤ c.readStream.len) : EndsIn J id (loginPing cx c) := by
  unfold ConnClient.loginPing
  have hin : J (setConnState cx.env .logicConnected c).core := hw.login hc hlen
  exact hw.sendTcpPing hcl.fromLogin _ true hin

theorem Walk.connectSuccess (hw : Walk B K J) (hcl : ClosesInto K J cx) (hc : J c.core)
    (hlen : csConnHeadSize ≤ c.readStream.len) : EndsIn J id (connectSuccess cx c) := by
  refine (hw.loginPing hcl hc hlen).bind fun c₁ hc₁ => .returned ?_
  split
  · rw [id, notify_core]
    · exact hc₁
    · nofun
  · exact hc₁

theorem Walk.reConnectSuccess (hw : Walk B K J) (hcl : ClosesInto K J cx) (hc : J c.core)
    (hlen : csConnHeadSize ≤ c.readStream.len) : EndsIn J id (reConnectSuccess cx c) := by
  refine (hw.loginPing hcl hc hlen).bind fun c₁ hc₁ => .returned ?_
  split
  · rw [id, notify_core]
    · exact hc₁
    · nofun
  · exact hc₁

/-! ## Messages from the server -/

/-- A message for the application, which may be too long to copy. -/
theorem output_ends (data : List Byte) (len : Int) (hc : J c.core) :
    EndsIn J id (output data len c) := by
  unfold output
  split
  · split
    · exact .stopped trivial
    · refine .returned ?_
      rw [id, enqueueOut_core]
      · exact hc
      · nofun
  · exact .returned hc

/-- What a session receives leaves a block that is known. -/
theorem Walk.recv (hw : Walk B K J) (len : Int) (hc : J c.core) :
    J ({ c with kcpSession := (c.kcpSession.recv len).2 } : Client).core := by
  unfold KcpSession.recv
  split
  · exact hc
  · rename_i b hb
    exact hw.block hc (hw.blocks.recv len (hw.held (hw.weak hc) hb))

theorem Walk.input (hw : Walk B K J) (msg : List Byte) (now : Int) (hc : J c.core) :
    J ({ c with kcpSession := (c.kcpSession.input msg now).2 } : Client).core := by
  unfold KcpSession.input
  split
  · exact hc
  · rename_i b hb
    exact hw.block hc (hw.blocks.input msg _ (hw.held (hw.weak hc) hb))

/-- The receive loop.  Induction on its rounds. -/
theorem Walk.recvLoop (hw : Walk B K J) (hcl : ClosesInto K J cx) :
    ∀ (n : Nat) (recvLen : Int) {c : Client}, J c.core → EndsIn J Prod.snd (recvLoop cx n recvLen c)
  | 0, _, _, hc => .returned hc
  | n + 1, _, c, hc => by
    have hrecv := hw.recv maxPkgSize hc
    unfold ConnClient.recvLoop
    generalize c.kcpSession.recv maxPkgSize = r at hrecv
    obtain ⟨⟨ret, bytes⟩, session⟩ := r
    dsimp only at hrecv ⊢
    split
    · -- nothing complete is left
      exact .returned hrecv
    split
    · -- the server disconnects, and the loop goes on with what the close left
      exact (hcl _ _ (hw.weak hrecv)).bind fun _ hc₁ => hw.recvLoop hcl n ret hc₁
    split
    · exact (output_ends _ _ hrecv).bind fun _ hc₁ => hw.recvLoop hcl n ret hc₁
    · exact hw.recvLoop hcl n ret hrecv

theorem Walk.inputToKcp (hw : Walk B K J) (hcl : ClosesInto K J cx) (msg : List Byte) (now : Int)
    (hc : J c.core) : EndsIn J id (inputToKcp cx msg now c) := by
  unfold ConnClient.inputToKcp
  split
  · exact hcl _ c (hw.weak hc)
  have hin := hw.input msg now hc
  generalize c.kcpSession.input msg now = r at hin
  obtain ⟨ret, session⟩ := r
  dsimp only at hin ⊢
  split
  · -- the datagram was refused, which closes
    exact hcl _ _ (hw.weak hin)
  · refine (hw.recvLoop hcl whileLimit 0 hin).bind fun a hc₁ => ?_
    obtain ⟨recvLen, c₁⟩ := a
    dsimp only at hc₁ ⊢
    split
    · exact hcl _ c₁ (hw.weak hc₁)
    · exact .returned hc₁

/-- The update of a block that was just made: nothing is known of it before, and `J` comes with the
    block the update leaves. -/
theorem Walk.sessionUpdate_fresh (hw : Walk B K J) (hcl : ClosesInto K J cx) (now : IUINT32)
    {b : IKCPCB} (hb : c.kcpSession.kcp = some b) (hall : Every B (pvpIkcpUpdate b now))
    (hc : ∀ k, B k → J { c.core with kcp := some k }) : EndsIn J id (ConnClient.sessionUpdate cx now c) := by
  unfold ConnClient.sessionUpdate
  rw [hb]
  exact (runKcp_ends hw.block (hw.kcpOutput hcl) .update hall hc).bind fun _ hc₁ => .returned hc₁

/-- `CreateKCP` updates the block it makes at once. -/
theorem Walk.createKCP (hw : Walk B K J) (hcl : ClosesInto K J cx) (data : List Byte)
    (hc : J c.core) : EndsIn J id (createKCP cx data c) := by
  have hall := hw.blocks.create (.ofBytes data)
  unfold ConnClient.createKCP KcpSession.createKCP
  dsimp only
  generalize KcpSession.createBlock (.ofBytes data) = b at hall ⊢
  exact hw.sessionUpdate_fresh hcl _ rfl (hall _) fun _ => hw.block (k := c.core) hc

/-! ## Reading -/

/-- **A frame's branch**, with the frame's header still in the buffer: a login is only read off a
    frame, so there is something to read. -/
theorem Walk.dispatchFrame (hw : Walk B K J) (hcl : ClosesInto K J cx) (d : Dispatch) (now : Int)
    (hc : J c.core) (hlen : csConnHeadSize ≤ c.readStream.len) :
    EndsIn J Round.client (dispatchFrame cx d now c) := by
  have hclose : ∀ reason, EndsIn J id (cx.close reason c) := fun reason => hcl reason c (hw.weak hc)
  have hdone : ∀ {r : M Client}, EndsIn J id r →
      EndsIn J Round.client (do return .done (← r)) := fun hr => hr.bind fun _ h => .returned h
  have hnext : ∀ {r : M Client}, EndsIn J id r →
      EndsIn J Round.client (do return .next (← r)) := fun hr => hr.bind fun _ h => .returned h
  unfold ConnClient.dispatchFrame
  split
  · split
    · exact hdone (hclose _)
    · exact .returned hc
  split
  · exact hnext (hw.inputToKcp hcl d.data now hc)
  split
  · exact hnext (output_ends d.data d.dataLen hc)
  split
  · split
    · exact hnext (hw.createKCP hcl d.data hc)
    · exact hdone (hclose _)
  split
  · split
    · dsimp only
      split
      · exact hdone (hclose _)
      · exact .returned hc
    · exact hnext (hclose _)
  split
  · split
    · exact hnext (hw.connectSuccess hcl (c := { c with isFirstConnect := false }) hc hlen)
    · exact hnext (hw.reConnectSuccess hcl hc hlen)
  · exact .returned hc

/-- Skipping leaves no more than there was. -/
theorem Stream.len_skip_le (offset : Int) (s : Stream) : (s.skip offset).len ≤ s.len := by
  by_cases h : offset < 0
  · rw [Stream.skip_negative h]
  · rw [Stream.len_skip (by omega)]
    exact Nat.sub_le ..

theorem Walk.readRound (hw : Walk B K J) (hcl : ClosesInto K J cx) (now : Int) (hc : J c.core) :
    EndsIn J Round.client (readRound cx now c) := by
  unfold ConnClient.readRound
  dsimp only
  split
  · exact .returned hc
  split
  · exact .returned hc
  · rename_i hlen _
    -- `flow_` and `magic_` are checked before the branch, and are no part of the core
    refine Ends.bind (hw.dispatchFrame hcl _ now (c := { c with
      flow := _
      magic := _
      dispatched := _ }) hc (Nat.le_of_not_lt hlen)) fun r hr => .returned ?_
    cases r with
    | done => exact hr
    -- the frame is skipped afterwards
    | next c₁ => exact hw.read hr (Or.inl (Stream.len_skip_le _ _))

/-- The frame loop.  Induction on its rounds. -/
theorem Walk.readStream (hw : Walk B K J) (hcl : ClosesInto K J cx) (now : Int) :
    ∀ (n : Nat) {c : Client}, J c.core → EndsIn J id (readStream cx now n c)
  | 0, _, _ => .stopped trivial
  | n + 1, _, hc => (hw.readRound hcl now hc).bind fun r hr => by
    cases r with
    | done => exact .returned hr
    | next => exact hw.readStream hcl now n hr

/-! ## Socket events -/

/-- Making room moves the bytes of the buffer, or fails and closes. -/
theorem Walk.makeReadRoom (hw : Walk B K J) (hcl : ClosesInto K J cx) (hc : J c.core) :
    EndsIn J id (makeReadRoom cx c) := by
  have hbuf := Stream.buf_ensureWritable recvOneTimeSize c.readStream
  unfold ConnClient.makeReadRoom
  generalize c.readStream.ensureWritable recvOneTimeSize = r at hbuf
  obtain ⟨room, stream⟩ := r
  dsimp only at hbuf ⊢
  have hlen : stream.len = c.readStream.len := by
    rw [← Stream.length_buf, hbuf, Stream.length_buf]
  have hroom : J { c.core with readStream := stream } := hw.read hc (Or.inl (Nat.le_of_eq hlen))
  split
  · exact .returned hroom
  · exact hcl _ _ (hw.weak hroom)

/-- A readable TCP socket: room, `recv`, and the frame loop on what came. -/
theorem Walk.onTcpRead (hw : Walk B K J) (hcl : ClosesInto K J cx) (n : Nat) (data : List Byte)
    (now : Int) (hc : J c.core) : EndsIn J id (onTcpRead cx n data now c) := by
  refine (hw.makeReadRoom hcl hc).bind fun c₁ hc₁ => ?_
  dsimp only
  by_cases hsock : c₁.tcpSock = -1
  · -- nothing is read from no socket
    rw [if_pos hsock]
    exact hcl _ c₁ (hw.weak hc₁)
  rw [if_neg hsock]
  generalize data.take recvOneTimeSize = read
  split
  · -- there is a socket, so bytes may be added
    exact hw.readStream hcl now n (hw.read hc₁ (Or.inr hsock))
  · exact hcl _ c₁ (hw.weak hc₁)

/-- A datagram from the server: its first byte decides. -/
theorem Walk.udpDatagram (hw : Walk B K J) (hcl : ClosesInto K J cx) (pkg : List Byte) (now : Int)
    (hc : J c.core) : EndsIn J id (udpDatagram cx pkg now c) := by
  unfold ConnClient.udpDatagram
  dsimp only
  split
  · exact .returned hc
  split
  · exact .returned hc
  split
  · exact output_ends _ _ hc
  split
  · exact hw.inputToKcp hcl _ now hc
  split
  · exact hcl _ c (hw.weak hc)
  · exact .returned hc

theorem Walk.onUdpRead (hw : Walk B K J) (hcl : ClosesInto K J cx) (r : UdpRecv) (now : Int)
    (hc : J c.core) : EndsIn J id (onUdpRead cx r now c) := by
  unfold ConnClient.onUdpRead
  split
  · exact .returned hc
  split
  · split
    · exact hw.udpDatagram hcl _ now hc
    · exact .returned hc
  · split
    · exact .returned hc
    · exact hcl _ c (hw.weak hc)

/-- A writable socket: either the connection is there now, or what is unsent goes out. -/
theorem Walk.onTcpWritable (hw : Walk B K J) (hcl : ClosesInto K J cx) (hc : J c.core)
    (hestab : c.connState = .connecting →
      J { c.core with connState := .connected, tcpWritable := false }) :
    EndsIn J id (onTcpWritable cx c) := by
  unfold ConnClient.onTcpWritable
  dsimp only
  split
  · rename_i hstate
    exact .returned (hestab hstate)
  have hwrote := onTcpWrite_wrote cx { c with tcpWritable := false }
  generalize onTcpWrite cx { c with tcpWritable := false } = r at hwrote
  cases hwrote with
  | none h => exact .returned (hw.drained hc h)
  | left hs h => exact .returned (hw.write hc hs h)
  | failed s n => exact hcl _ _ (hw.closing s false (hw.weak hc))

/-! ## Connecting, timing out, relinking -/

/-- What is known of a connection attempt in `k`, when the two sockets turn out as `tcp` and `udp`:
    without either of them the attempt closes, with both it is `CS_CONNECTING`.  The fields are
    overwritten, whatever was in them. -/
structure Connects (K J : Core → Prop) (k : Core) (tcp udp : Option Nat) : Prop where
  noTcp (h : tcp = none) : K { k with tcpSock := -1 }
  noUdp {a : Nat} (h : tcp = some a) (h' : udp = none) :
    K { k with tcpSock := a, udpSock := -1, opened := (a : Int) :: k.opened }
  both {a b : Nat} (h : tcp = some a) (h' : udp = some b) :
    J { k with tcpSock := a, udpSock := b, connState := .connecting,
               opened := (b : Int) :: (a : Int) :: k.opened }

/-- A descriptor is not `-1`. -/
theorem elim_ne (a : Nat) : ¬ (some a).elim (-1) Int.ofNat = -1 := by
  show ¬ (a : Int) = -1
  omega

theorem innerConnect_ends (hcl : ClosesInto K J cx) {ip : String} {port : BitVec 32} {timeout : Int}
    (hk : Connects K J c.core (cx.env.dial c.ndial) (cx.env.dial (c.ndial + 1))) :
    EndsIn J id (innerConnect cx ip port timeout c) := by
  unfold innerConnect connectUdp createConnect
  dsimp only
  generalize cx.env.dial c.ndial = tcp at hk
  generalize cx.env.dial (c.ndial + 1) = udp at hk
  cases tcp with
  | none => exact hcl clientConnectError _ (hk.noTcp rfl)
  | some a =>
    rw [if_neg (elim_ne a)]
    cases udp with
    | none => exact hcl clientConnectError _ (hk.noUdp rfl rfl)
    | some b =>
      rw [if_neg (elim_ne b)]
      exact .returned (hk.both rfl rfl)

theorem Walk.checkTimeout (hw : Walk B K J) (hcl : ClosesInto K J cx) (now : Int) (hc : J c.core) :
    EndsIn J id (checkTimeout cx now c) := by
  unfold ConnClient.checkTimeout
  split
  · exact hcl _ c (hw.weak hc)
  · exact .returned hc

/-- `CheckRelink` connects only from `CS_INIT`, and reports the attempt.  Counting the attempt does
    not change the core. -/
theorem checkRelink_ends (hcl : ClosesInto K J cx) (hq : Unqueued J) (now : Int) (hc : J c.core)
    (hk : c.connState = .init →
      Connects K J c.core (cx.env.dial c.ndial) (cx.env.dial (c.ndial + 1))) :
    EndsIn J id (checkRelink cx now c) := by
  unfold checkRelink
  split
  · exact .returned hc
  dsimp only
  split
  · exact .returned hc
  split
  · rename_i hinit
    refine Ends.bind (innerConnect_ends hcl (hk hinit.1)) fun c₁ hc₁ => .returned ?_
    split
    · exact enqueueOut_relink c₁ ▸ hq _ hc₁
    · exact hc₁
  · exact .returned hc

/-! ## The net thread -/

/-- The next step of the net thread opens sockets, if it gets to it. -/
inductive Dials (s : Sys) : Prop where
  | task {ip : String} {port : BitVec 32} {timeout : Int} {rest : List Task} (hpc : s.pc = .drain)
      (hq : s.client.inQueue = .connect ip port timeout :: rest) : Dials s
  | relink (hpc : s.pc = .relink) (hs : s.client.connState = .init) : Dials s

/-- The next step of the net thread finds the connection established. -/
structure Establishes (w : World) (s : Sys) : Prop where
  pc : s.pc = .tcp
  writable : w.tcp = .writable
  open_ : s.client.tcpSock ≠ -1
  watched : s.client.tcpWritable = true
  connecting : s.client.connState = .connecting

theorem Walk.runTask (hw : Walk B K J) (hcl : ClosesInto K J cx) (t : Task) (hc : J c.core)
    (hk : ∀ ip port timeout, t = .connect ip port timeout →
      Connects K J c.core (cx.env.dial c.ndial) (cx.env.dial (c.ndial + 1))) :
    EndsIn J id (runTask cx t c) := by
  cases t with
  | connect ip port timeout => exact innerConnect_ends hcl (hk ip port timeout rfl)
  | close => exact hcl (-1) c (hw.weak hc)
  | send msg => exact hw.sendKCPBuf hcl msg hc

theorem Walk.tcpEvent (hw : Walk B K J) {w : World} {now : Int} (hc : J c.core)
    (hestab : c.tcpSock ≠ -1 → w.tcp = .writable → c.tcpWritable = true → c.connState = .connecting →
      J { c.core with connState := .connected, tcpWritable := false }) :
    EndsIn J id (tcpEvent w now c) := by
  have hcl := hw.innerClose w.env w.depth
  unfold ConnClient.tcpEvent
  by_cases hsock : c.tcpSock = -1
  · rw [if_pos hsock]
    exact .returned hc
  rw [if_neg hsock]
  cases htcp : w.tcp with
  | none => exact .returned hc
  | readable data => exact hw.onTcpRead hcl w.rounds data now hc
  | writable =>
    dsimp only
    split
    · rename_i hwatched
      exact hw.onTcpWritable hcl hc (hestab hsock htcp hwatched)
    · exact .returned hc

theorem Walk.udpEvent (hw : Walk B K J) {w : World} {now : Int} (hc : J c.core) :
    EndsIn J id (udpEvent w now c) := by
  unfold ConnClient.udpEvent
  split
  · exact .returned hc
  · exact hw.onUdpRead (hw.innerClose w.env w.depth) _ now hc

/-- **A step of the net thread keeps the invariant**, if opening a connection and finding it
    established do.  One case for each place of the loop, in its order. -/
theorem Walk.netStep (hw : Walk B K J) {w : World} {s : Sys} (hc : J s.client.core)
    (hdial : Dials s → Connects K J s.client.core (w.env.dial s.client.ndial)
      (w.env.dial (s.client.ndial + 1)))
    (hestab : Establishes w s → J { s.client.core with connState := .connected, tcpWritable := false })
    (hq : s.pc = .relink → Unqueued J) : EndsIn J Sys.client (netStep w s) := by
  have hcl := hw.innerClose w.env w.depth
  -- every place ends by putting the client back into the system
  have hthen : ∀ {r : M Client} {f : Client → Sys}, (∀ c, (f c).client = c) → EndsIn J id r →
      EndsIn J Sys.client (do .ok (f (← r))) := fun hf hr =>
    hr.bind fun c hc => .returned ((congrArg Client.core (hf c)).symm ▸ hc)
  unfold ConnClient.netStep
  split
  · exact .returned hc
  · exact .returned hc
  · split
    · exact .returned hc
    split
    · exact .returned hc
    · exact .returned hc
  · rename_i hpc
    exact hthen (fun _ => rfl) (hw.tcpEvent hc fun hs ht hw hn => hestab ⟨hpc, ht, hs, hw, hn⟩)
  · exact hthen (fun _ => rfl) (hw.udpEvent hc)
  · rename_i hpc
    split
    · exact .returned hc
    · rename_i t rest hq
      exact hthen (f := fun c => { s with client := c }) (fun _ => rfl)
        (hw.runTask hcl t (c := takeTask t rest s.client) hc fun ip port timeout ht =>
          hdial (.task hpc (ht ▸ hq)))
  · exact hthen (fun _ => rfl) (hw.sessionTick hcl _ hc)
  · exact hthen (fun _ => rfl) (hw.sendTcpPing hcl _ false hc)
  · exact hthen (fun _ => rfl) (hw.sendUdpPing hcl _ hc)
  · exact hthen (fun _ => rfl) (hw.checkTimeout hcl _ hc)
  · rename_i hpc
    exact hthen (fun _ => rfl) (checkRelink_ends hcl (hq hpc) _ hc fun hs => hdial (.relink hpc hs))
  · exact .returned hc

/-! ## Runs -/

/-- The calls of the application touch the core only by `SwitchNetwork`. -/
theorem Walk.sysStep (hw : Walk B K J) {i : Act} {s : Sys} (hc : J s.client.core)
    (hdial : ∀ w, i = .net w → Dials s → Connects K J s.client.core (w.env.dial s.client.ndial)
      (w.env.dial (s.client.ndial + 1)))
    (hestab : ∀ w, i = .net w → Establishes w s →
      J { s.client.core with connState := .connected, tcpWritable := false })
    (hq : Unqueued J) : EndsIn J Sys.client (sysStep i s) := by
  cases i with
  | connect ip port timeout =>
    refine .returned ?_
    unfold connect
    dsimp only
    split <;> exact hc
  | sendMsg msg =>
    refine .returned (a := { s with client := (sendMsg msg s.client).2 }) ?_
    unfold sendMsg
    split <;> exact hc
  | switchNetwork w =>
    refine Ends.bind (x := ConnClient.switchNetwork w.cx s.client) (Q := fun c => J c.core) ?_
      fun c hc => .returned hc
    unfold ConnClient.switchNetwork
    split
    · exact hw.innerClose w.env w.depth _ _ (hw.weak hc)
    · exact .returned hc
  | net w => exact hw.netStep hc (hdial w rfl) (hestab w rfl) fun _ => hq
  | close => exact .returned hc
  | update =>
    -- the task executed may be a relink task
    exact .returned (hq (relinkTasks (ConnClient.update s.client)) hc)
  | addRelinkInterval => exact .returned hc
  | clearRelinkInterval => exact .returned hc
  | setMagicNum => exact .returned hc

/-- A step that returned kept the invariant. -/
theorem EndsIn.kept {α : Type} {get : α → Client} {r : Except (Stop × Client) α} {a : α}
    (h : EndsIn J get r) (hr : r = .ok a) : J (get a).core := by
  subst hr
  cases h with
  | returned h => exact h

/-- **The invariant of runs**: it holds of a client just constructed, and every step of these runs
    that opens a connection or finds it established keeps it. -/
theorem Walk.runs (hw : Walk B K J) {C : Sys → Act → Prop}
    (hnew : ∀ cb now, J (Client.new cb now).core) (hq : Unqueued J)
    (hdial : ∀ w s, Runs C s → C s (.net w) → Dials s → J s.client.core →
      Connects K J s.client.core (w.env.dial s.client.ndial) (w.env.dial (s.client.ndial + 1)))
    (hestab : ∀ w s, Runs C s → C s (.net w) → Establishes w s → J s.client.core →
      J { s.client.core with connState := .connected, tcpWritable := false })
    {s : Sys} (hs : Runs C s) : J s.client.core := by
  refine hs.inv (I := fun s => J s.client.core) ?_ ?_
  · rintro _ ⟨cb, now, rfl⟩
    exact hnew cb now
  · intro s s' i hr hc hi hstep
    refine (show EndsIn J Sys.client (ConnClient.sysStep i s) from hw.sysStep hc ?_ ?_ hq).kept hstep
    · -- the two kinds of step that the invariant leaves open
      rintro w rfl hd
      exact hdial w s hr hi hd hc
    · rintro w rfl he
      exact hestab w s hr hi he hc

end Walking

end ConnClient
