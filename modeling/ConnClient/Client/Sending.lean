/-
  What sending does to the client.

  Every send, over TCP or UDP, of a datagram of KCP or of a ping, comes to one of two things: it
  changes the write buffer, the counters and the ping times (`Sending`) and nothing else, or it does
  that and then closes the connection with `CLIENT_CONNECT_ERROR`.  That is `Sends`, and it is all
  that the proofs about closing, releasing and nesting need to know of the seven functions below.

  How a send closes is a parameter of the model, the `close` of its context.  So the same send can be
  run in a context where the close nests, and in one where it stops; `Alike` says that up to the close
  nothing is different, and `Sends` is one half of it.
-/
import ConnClient.Client.Net

namespace ConnClient

open ConnClient.Lib ConnClient.Ikcp

/-- What sending changes.  No socket, no state, no session and no queue is among it. -/
structure Sending where
  writeStream : Stream
  tcpWritable : Bool
  tcpPingExpire : TimeExpire
  udpPingExpire : TimeExpire
  pingSeq : Int
  nsend : Nat

/-- The client after a send. -/
def Client.sent (x : Sending) (c : Client) : Client :=
  { c with
    writeStream := x.writeStream
    tcpWritable := x.tcpWritable
    tcpPingExpire := x.tcpPingExpire
    udpPingExpire := x.udpPingExpire
    pingSeq := x.pingSeq
    nsend := x.nsend }

/-- The send only changed what sends change, or after that it failed and closes. -/
def Sends (cx : Cx) (c : Client) (r : M Client) : Prop :=
  ∃ x, r = .ok (c.sent x) ∨ r = cx.close clientConnectError (c.sent x)

variable {cx : Cx} {c : Client} {r : M Client}

/-- Nothing was sent. -/
theorem Sends.none (cx : Cx) (c : Client) : Sends cx c (.ok c) :=
  ⟨⟨c.writeStream, c.tcpWritable, c.tcpPingExpire, c.udpPingExpire, c.pingSeq, c.nsend⟩, Or.inl rfl⟩

/-- `send_ex` counts its calls. -/
theorem sendEx_sent (env : Env) (sock : Int) (len : Nat) (c : Client) :
    ∃ x, (sendEx env sock len c).2 = c.sent x := by
  unfold sendEx
  split
  · exact ⟨⟨c.writeStream, c.tcpWritable, c.tcpPingExpire, c.udpPingExpire, c.pingSeq, c.nsend⟩, rfl⟩
  · exact ⟨⟨c.writeStream, c.tcpWritable, c.tcpPingExpire, c.udpPingExpire, c.pingSeq, c.nsend + 1⟩,
      rfl⟩

/-! ## One send in two contexts -/

/-- The same send in two contexts with one environment: it goes the same way, up to how it closes. -/
inductive Alike (cx cx' : Cx) (c : Client) : M Client → M Client → Prop where
  | sent (x : Sending) : Alike cx cx' c (.ok (c.sent x)) (.ok (c.sent x))
  | failed (x : Sending) : Alike cx cx' c (cx.close clientConnectError (c.sent x))
      (cx'.close clientConnectError (c.sent x))

variable {cx' : Cx} {r' : M Client}

theorem Alike.sends (h : Alike cx cx' c r r') : Sends cx c r := by
  cases h with
  | sent x => exact ⟨x, Or.inl rfl⟩
  | failed x => exact ⟨x, Or.inr rfl⟩

/-- Nothing is sent. -/
theorem Alike.none (cx cx' : Cx) (c : Client) : Alike cx cx' c (.ok c) (.ok c) :=
  .sent ⟨c.writeStream, c.tcpWritable, c.tcpPingExpire, c.udpPingExpire, c.pingSeq, c.nsend⟩

/-- Alike, after something a send may change. -/
theorem Alike.after (x : Sending) (h : Alike cx cx' (c.sent x) r r') : Alike cx cx' c r r' := by
  cases h with
  | sent y => exact .sent y
  | failed y => exact .failed y

theorem onTcpWrite_alike (cx cx' : Cx) (henv : cx.env = cx'.env) (c : Client) :
    Alike cx cx' c (onTcpWrite cx c) (onTcpWrite cx' c) := by
  unfold onTcpWrite
  rw [henv]
  split
  · exact .none cx cx' c
  · obtain ⟨x, hx⟩ := sendEx_sent cx'.env c.tcpSock c.writeStream.len c
    dsimp only
    generalize sendEx cx'.env c.tcpSock c.writeStream.len c = r at hx ⊢
    obtain ⟨⟨nwritten, eno⟩, c'⟩ := r
    subst hx
    dsimp only
    split
    · split
      · exact .sent { x with writeStream := x.writeStream.skip nwritten, tcpWritable := true }
      · exact .sent { x with writeStream := x.writeStream.skip nwritten }
    · split
      · exact .sent { x with tcpWritable := true }
      · exact .failed x

theorem sendTCPBuf_alike (cx cx' : Cx) (henv : cx.env = cx'.env) (cmd : Byte) (msg : List Byte) (c : Client) :
    Alike cx cx' c (sendTCPBuf cx cmd msg c) (sendTCPBuf cx' cmd msg c) := by
  let x : Stream → Sending := fun s =>
    ⟨s, c.tcpWritable, c.tcpPingExpire, c.udpPingExpire, c.pingSeq, c.nsend⟩
  unfold sendTCPBuf
  dsimp only
  split
  · exact .failed (x _)
  · exact (onTcpWrite_alike cx cx' henv _).after (x _)

theorem udpWrite_alike (cx cx' : Cx) (henv : cx.env = cx'.env) (pkg : List Byte) (c : Client) :
    Alike cx cx' c (udpWrite cx pkg c) (udpWrite cx' pkg c) := by
  unfold udpWrite
  rw [henv]
  obtain ⟨x, hx⟩ := sendEx_sent cx'.env c.udpSock pkg.length c
  generalize sendEx cx'.env c.udpSock pkg.length c = r at hx ⊢
  obtain ⟨⟨sendLen, err⟩, c'⟩ := r
  subst hx
  dsimp only
  split
  · exact .failed x
  · split
    · exact .failed x
    · exact .sent x

theorem sendUDPBuf_alike (cx cx' : Cx) (henv : cx.env = cx'.env) (cmd : Byte) (msg : List Byte) (c : Client) :
    Alike cx cx' c (sendUDPBuf cx cmd msg c) (sendUDPBuf cx' cmd msg c) := by
  unfold sendUDPBuf
  split
  · exact .none cx cx' c
  · split
    · exact .none cx cx' c
    · exact udpWrite_alike cx cx' henv _ c

/-- The output callback sends, in either mode. -/
theorem kcpOutput_alike (cx cx' : Cx) (henv : cx.env = cx'.env) (data : List Byte) (c : Client) :
    Alike cx.fromOutput cx'.fromOutput c (kcpOutput cx data c) (kcpOutput cx' data c) := by
  unfold kcpOutput
  split
  · exact sendUDPBuf_alike cx.fromOutput cx'.fromOutput henv _ data c
  · exact sendTCPBuf_alike cx.fromOutput cx'.fromOutput henv _ data c

/-! ## What each function sends -/

theorem onTcpWrite_sends (cx : Cx) (c : Client) : Sends cx c (onTcpWrite cx c) :=
  (onTcpWrite_alike cx cx rfl c).sends

theorem sendTCPBuf_sends (cx : Cx) (cmd : Byte) (msg : List Byte) (c : Client) :
    Sends cx c (sendTCPBuf cx cmd msg c) :=
  (sendTCPBuf_alike cx cx rfl cmd msg c).sends

theorem udpWrite_sends (cx : Cx) (pkg : List Byte) (c : Client) : Sends cx c (udpWrite cx pkg c) :=
  (udpWrite_alike cx cx rfl pkg c).sends

theorem kcpOutput_sends (cx : Cx) (data : List Byte) (c : Client) :
    Sends cx.fromOutput c (kcpOutput cx data c) :=
  (kcpOutput_alike cx cx rfl data c).sends

theorem sendTcpPing_sends (cx : Cx) (nowMs : Int) (immediate : Bool) (c : Client) :
    Sends cx c (sendTcpPing cx nowMs immediate c) := by
  unfold sendTcpPing
  split
  · exact Sends.none cx c
  · generalize (if immediate then (true, c.tcpPingExpire) else c.tcpPingExpire.tryExpire nowMs) = r
    obtain ⟨due, expire⟩ := r
    dsimp only
    split
    · exact sendTCPBuf_sends cx controlPing _ { c with tcpPingExpire := expire, pingSeq := nowMs }
    · exact Sends.none cx { c with tcpPingExpire := expire }

theorem sendUdpPing_sends (cx : Cx) (nowMs : Int) (c : Client) :
    Sends cx c (sendUdpPing cx nowMs c) := by
  unfold sendUdpPing
  split
  · exact Sends.none cx c
  · split
    · exact Sends.none cx c
    · generalize c.udpPingExpire.tryExpire nowMs = r
      obtain ⟨due, expire⟩ := r
      dsimp only
      split
      · exact udpWrite_sends cx _ { c with udpPingExpire := expire }
      · exact Sends.none cx { c with udpPingExpire := expire }

/-! ## The outputs of a KCP routine -/

/-- **The rule for the outputs of a routine**: an invariant that every output keeps, with the block it
    brings with it.  Induction on the outputs. -/
theorem playOutputs_rule {I : Client → Prop} {E : Stop × Client → Prop}
    {outs : List (IKCPCB × List Byte)}
    (hout : ∀ e ∈ outs, ∀ c, I c → Ends I E (kcpOutput cx e.2
      { c with kcpSession := { c.kcpSession with kcp := some e.1 } })) (hc : I c) :
    Ends I E (playOutputs cx outs c) := by
  induction outs generalizing c with
  | nil => exact .returned hc
  | cons e outs ih =>
    have hfirst := hout e (List.mem_cons_self ..) c hc
    exact hfirst.bind fun c₁ hc₁ => ih (fun e he => hout e (List.mem_cons_of_mem _ he)) hc₁

/-- The same for what outputs that return do to the client they start with. -/
theorem playOutputs_ok {R : Client → Client → Prop} {outs : List (IKCPCB × List Byte)} {c' : Client}
    (hrefl : ∀ c, R c c)
    (hout : ∀ kcp data c c₁ c', kcpOutput cx data
      { c with kcpSession := { c.kcpSession with kcp := some kcp } } = .ok c₁ → R c₁ c' → R c c')
    (hr : playOutputs cx outs c = .ok c') : R c c' := by
  induction outs generalizing c with
  | nil =>
    cases hr
    exact hrefl _
  | cons e outs ih =>
    obtain ⟨c₁, h₁, h₂⟩ := bind_eq_ok.mp hr
    exact hout e.1 e.2 c c₁ c' h₁ (ih h₂)

end ConnClient
