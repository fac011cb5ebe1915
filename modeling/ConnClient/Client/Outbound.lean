/-
  The bytes of a TCP connection, on their way out.

  `SendTCPBuf` puts a frame behind the unsent bytes and `OnTcpWrite` gives the socket what is unsent;
  the socket takes some of it, and the rest waits for the socket to be writable.  Between a reset of
  the buffer and the next close (`Outbound`) the two together neither lose nor repeat a byte: what the
  socket took, and behind it what is unsent, are the frames of the calls so far (`outbound_framing`).

  A close ends the interval, so the calls are made in a context where a close stops the run
  (`Cx.untilClose`); a call that returns there called no `InnerClose` and returns the same anywhere
  (`sendTCPBuf_untilClose`, `onTcpWritable_untilClose`).
-/
import ConnClient.Client.Sending
import ConnClient.Client.System

namespace ConnClient

open ConnClient.Lib ConnClient.Ikcp

/-! ## Up to a close -/

/-- The context of an interval without a close. -/
def Cx.untilClose (env : Env) : Cx := .of env 0

theorem untilClose_stops (env : Env) (reason : Int) (c c' : Client) :
    (Cx.untilClose env).close reason c ≠ .ok c' := by
  intro h
  change Except.error _ = _ at h
  cases h

/-- A send that returns where no close does called none, and goes the same way anywhere. -/
theorem Alike.unclosed {cx cx' : Cx} {c c' : Client} {r r' : M Client} (h : Alike cx cx' c r r')
    (hstops : ∀ reason d d', cx'.close reason d ≠ .ok d') (hr : r' = .ok c') : r = .ok c' := by
  cases h with
  | sent x => exact hr
  | failed x => exact absurd hr (hstops _ _ _)

theorem onTcpWrite_untilClose {env : Env} {c c' : Client}
    (h : onTcpWrite (.untilClose env) c = .ok c') (close : Int → Client → M Client) :
    onTcpWrite ⟨env, close⟩ c = .ok c' := by
  have halike := onTcpWrite_alike ⟨env, close⟩ (.untilClose env) rfl c
  exact halike.unclosed (untilClose_stops env) h

/-- A frame is put behind what is unsent. -/
def queued (cmd : Byte) (msg : List Byte) (c : Client) : Client :=
  let stream := (c.writeStream.ensureWritable (csConnHeadSize + msg.length : Nat)).2
  { c with writeStream := stream.addSize (tcpFrame c.flow c.magic cmd msg) }

/-- What `SendTCPBuf` returns. -/
def sendTCPBufResult (msg : List Byte) (c : Client) : Int :=
  if (c.writeStream.ensureWritable (csConnHeadSize + msg.length : Nat)).1 = false then -1 else 0

theorem sendTCPBuf_eq (cx : Cx) (cmd : Byte) (msg : List Byte) (c : Client) :
    sendTCPBuf cx cmd msg c =
      if sendTCPBufResult msg c = 0 then onTcpWrite cx (queued cmd msg c)
      else cx.close clientConnectError { c with
        writeStream := (c.writeStream.ensureWritable (csConnHeadSize + msg.length : Nat)).2 } := by
  rw [sendTCPBuf, sendTCPBufResult]
  dsimp only
  split
  · rfl
  · rfl

theorem sendTCPBuf_untilClose {env : Env} {cmd : Byte} {msg : List Byte} {c c' : Client}
    (h : sendTCPBuf (.untilClose env) cmd msg c = .ok c') (close : Int → Client → M Client) :
    sendTCPBuf ⟨env, close⟩ cmd msg c = .ok c' := by
  have halike := sendTCPBuf_alike ⟨env, close⟩ (.untilClose env) rfl cmd msg c
  exact halike.unclosed (untilClose_stops env) h

theorem kcpOutput_untilClose {cx : Cx} {data : List Byte} {c c' : Client}
    (h : kcpOutput (.untilClose cx.env) data c = .ok c') : kcpOutput cx data c = .ok c' := by
  have halike := kcpOutput_alike cx (.untilClose cx.env) rfl data c
  exact halike.unclosed (fun reason c => untilClose_stops cx.env reason (c.log _)) h

theorem onTcpWritable_untilClose {env : Env} {c c' : Client}
    (h : onTcpWritable (.untilClose env) c = .ok c') (close : Int → Client → M Client) :
    onTcpWritable ⟨env, close⟩ c = .ok c' := by
  rw [onTcpWritable] at h ⊢
  dsimp only at h ⊢
  split
  · rename_i hstate
    rw [if_pos hstate] at h
    exact h
  · rename_i hstate
    rw [if_neg hstate] at h
    exact onTcpWrite_untilClose h close

/-! ## One connection -/

/-- A connection since its buffer was reset. -/
structure Outbound where
  client : Client
  /-- What the socket has accepted. -/
  accepted : List Byte
  /-- The frames of the calls of `SendTCPBuf` that returned 0. -/
  frames : List (List Byte)

/-- What happens to a connection. -/
inductive OutboundAct where
  | sendTCPBuf (env : Env) (cmd : Byte) (msg : List Byte)
  | onTcpWritable (env : Env)
  /-- Anything that leaves the buffer and the connection alone. -/
  | other (f : Client → Client)

/-- The bytes at `Buf` that `send_ex` accepts in `OnTcpWrite`. -/
def acceptedBytes (env : Env) (c : Client) : List Byte :=
  if c.writeStream.len = 0 then []
  else c.writeStream.buf.take (sendEx env c.tcpSock c.writeStream.len c).1.1.toNat

/-- One step. -/
def outboundStep : OutboundAct → Outbound → M Outbound
  | .sendTCPBuf env cmd msg, o => do
    let c ← sendTCPBuf (.untilClose env) cmd msg o.client
    .ok {
      client := c
      accepted := o.accepted ++ acceptedBytes env (queued cmd msg o.client)
      frames := o.frames ++
        if sendTCPBufResult msg o.client = 0
        then [tcpFrame o.client.flow o.client.magic cmd msg] else [] }
  | .onTcpWritable env, o => do
    let c ← onTcpWritable (.untilClose env) o.client
    .ok { o with
      client := c
      accepted := o.accepted ++
        if o.client.connState = .connecting then []
        else acceptedBytes env { o.client with tcpWritable := false } }
  | .other f, o =>
    .ok { o with client :=
      { f o.client with tcpSock := o.client.tcpSock, writeStream := o.client.writeStream } }

/-- The buffer was just reset. -/
def Outbound.WasReset (o : Outbound) : Prop :=
  o.accepted = [] ∧ o.frames = [] ∧ ∃ s : Stream, o.client.writeStream = s.reset

/-! ## Nothing is lost, nothing repeated -/

/-- **What the socket accepts leaves the front of the buffer**, and nothing else does. -/
theorem onTcpWrite_accepted {env : Env} {c c' : Client}
    (h : onTcpWrite (.untilClose env) c = .ok c') :
    acceptedBytes env c ++ c'.writeStream.buf = c.writeStream.buf := by
  rw [onTcpWrite] at h
  rw [acceptedBytes]
  by_cases hempty : c.writeStream.len = 0
  · rw [if_pos hempty] at h ⊢
    cases h
    rfl
  rw [if_neg hempty] at h ⊢
  have hstream : (sendEx env c.tcpSock c.writeStream.len c).2.writeStream = c.writeStream := by
    rw [sendEx]
    split <;> rfl
  dsimp only [Cx.untilClose, Cx.of] at h
  generalize sendEx env c.tcpSock c.writeStream.len c = r at h hstream ⊢
  obtain ⟨⟨nwritten, eno⟩, c₁⟩ := r
  dsimp only at h hstream ⊢
  by_cases hpos : nwritten > 0
  · rw [if_pos hpos] at h
    have hskip : c'.writeStream = c.writeStream.skip nwritten := by
      rw [← hstream]
      split at h
      · cases h
        rfl
      · cases h
        rfl
    rw [hskip, Stream.buf_skip (Int.le_of_lt hpos)]
    exact List.take_append_drop ..
  · -- nothing was accepted, and nothing is skipped
    rw [if_neg hpos] at h
    have hzero : nwritten.toNat = 0 := by omega
    rw [hzero, List.take_zero, List.nil_append]
    split at h
    · cases h
      exact congrArg _ hstream
    · nomatch h

/-- The frame that is queued is the new end of the buffer. -/
theorem buf_queued {cmd : Byte} {msg : List Byte} {c : Client} (h : sendTCPBufResult msg c = 0) :
    (queued cmd msg c).writeStream.buf
      = c.writeStream.buf ++ tcpFrame c.flow c.magic cmd msg := by
  have hroom : (c.writeStream.ensureWritable (csConnHeadSize + msg.length : Nat)).1 = true := by
    rw [sendTCPBufResult] at h
    split at h
    · nomatch h
    · rename_i hroom
      exact eq_true_of_ne_false hroom
  have hlen : (tcpFrame c.flow c.magic cmd msg).length = csConnHeadSize + msg.length :=
    length_tcpFrame c.flow c.magic cmd msg
  apply Stream.buf_addSize_ensureWritable
  · have hhead : 0 < csConnHeadSize := by decide
    omega
  · exact hroom
  · omega

/-- The bytes out and the bytes to go are the frames. -/
def Outbound.Framed (o : Outbound) : Prop :=
  o.accepted ++ o.client.writeStream.buf = o.frames.flatten

/-- **A step keeps the framing.** -/
theorem outboundStep_framed {a : OutboundAct} {o o' : Outbound} (h : o.Framed)
    (hr : outboundStep a o = .ok o') : o'.Framed := by
  cases a with
  | sendTCPBuf env cmd msg =>
    obtain ⟨c, hc, ho'⟩ := bind_eq_ok.mp hr
    cases ho'
    rw [sendTCPBuf_eq] at hc
    by_cases hroom : sendTCPBufResult msg o.client = 0
    · rw [if_pos hroom] at hc
      rw [Outbound.Framed, if_pos hroom]
      calc o.accepted ++ acceptedBytes env (queued cmd msg o.client) ++ c.writeStream.buf
          = o.accepted ++ (acceptedBytes env (queued cmd msg o.client) ++ c.writeStream.buf) :=
            List.append_assoc ..
        _ = o.accepted ++ (queued cmd msg o.client).writeStream.buf := by
            rw [onTcpWrite_accepted hc]
        _ = (o.accepted ++ o.client.writeStream.buf)
              ++ tcpFrame o.client.flow o.client.magic cmd msg := by
            rw [buf_queued hroom, List.append_assoc]
        _ = (o.frames ++ [tcpFrame o.client.flow o.client.magic cmd msg]).flatten := by
            rw [show o.accepted ++ o.client.writeStream.buf = o.frames.flatten from h,
              List.flatten_concat]
    · rw [if_neg hroom] at hc
      nomatch hc
  | onTcpWritable env =>
    obtain ⟨c, hc, ho'⟩ := bind_eq_ok.mp hr
    cases ho'
    rw [onTcpWritable] at hc
    dsimp only at hc
    rw [Outbound.Framed]
    dsimp only
    by_cases hstate : o.client.connState = .connecting
    · -- the connection is there now; nothing is written
      rw [if_pos hstate] at hc ⊢
      cases hc
      rw [List.append_nil]
      exact h
    · rw [if_neg hstate] at hc ⊢
      rw [List.append_assoc, onTcpWrite_accepted hc]
      exact h
  | other f =>
    cases hr
    exact h

/-- **Outbound framing.**  From a reset of the buffer to the next close, over any calls of
    `SendTCPBuf`, any readiness of the socket and anything it makes of what it is given, and with any
    `flow_` and `magic_` in between: the bytes that the socket accepted, followed by those that are
    unsent, are the frames of the calls that returned 0, in their order. -/
theorem outbound_framing {o : Outbound}
    (h : Reach outboundStep Outbound.WasReset (fun _ _ => True) o) :
    o.accepted ++ o.client.writeStream.buf = o.frames.flatten := by
  refine h.inv (I := Outbound.Framed) ?_ fun _ _ _ _ hframed _ => outboundStep_framed hframed
  rintro o ⟨haccepted, hframes, s, hs⟩
  rw [Outbound.Framed, haccepted, hframes, hs]
  rfl

/-- A connection with nothing to send. -/
def sampleOutbound : Outbound :=
  ⟨{ Client.new ⟨true, true, true, true, true⟩ 1000 with tcpSock := 3, connState := .connected }, [], []⟩

/-- Half of a frame goes out; then the socket would block, in the middle of a second frame's call with
    another `flow_`; then the rest of the first frame goes out and part of the second. -/
def sampleWrites : List OutboundAct :=
  [.sendTCPBuf (sampleEnv 5) 7 [1, 2], .other fun c => { c with flow := 9 },
    .sendTCPBuf { sampleEnv 0 with send := fun _ => (-1, .wouldBlock) } 8 [3],
    .onTcpWritable (sampleEnv 10)]

/-- The socket accepted 15 bytes and 8 are unsent, the end of a frame with the second `flow_`; together
    they are the two frames. -/
theorem outbound_framing_sample :
    ∃ o, Reach outboundStep Outbound.WasReset (fun _ _ => True) o ∧ o.accepted.length = 15 ∧
      o.client.writeStream.len = 8 ∧ o.frames = [tcpFrame 0 0 7 [1, 2], tcpFrame 9 0 8 [3]] ∧
      o.accepted ++ o.client.writeStream.buf = o.frames.flatten := by
  have hrun : (exec outboundStep (fun _ _ => true) sampleWrites sampleOutbound).map
      (fun o => (o.accepted.length, o.client.writeStream.len, o.frames))
      = some (15, 8, [tcpFrame 0 0 7 [1, 2], tcpFrame 9 0 8 [3]]) := by decide +kernel
  obtain ⟨o, ho, hrun⟩ := Option.map_eq_some_iff.mp hrun
  simp only [Prod.mk.injEq] at hrun
  have hreach : Reach outboundStep Outbound.WasReset (fun _ _ => True) o :=
    .of_exec (fun _ _ _ => trivial) _ (.start ⟨rfl, rfl, Stream.new, rfl⟩) ho
  exact ⟨o, hreach, hrun.1, hrun.2.1, hrun.2.2, outbound_framing hreach⟩

end ConnClient
