/-
  `conn_client.cpp` — sending, and closing.

  These functions call each other in a circle: `InnerClose` flushes the KCP session, the flush calls
  back `KCPOutput` for every datagram, that sends over TCP or UDP, and a send that fails calls
  `InnerClose`.  The circle is cut at `InnerClose`: everything else is given the `InnerClose` to call
  (`Cx.close`), and `innerClose n` is the recursion with at most `n` nested calls of it.

  A KCP routine comes with the list of its outputs and the block as it stood at each of them
  (`ConnClient.Ikcp.Flush`), and `runKcp` plays that list: it puts the block of the moment in place
  and calls `KCPOutput`.  That is what the routine does as long as a call that returns leaves the
  block alone, and it does: of everything below only `KcpSession::Release` touches the session, and
  a release inside a KCP routine is a `Stop.uaf`.
-/
import ConnClient.Lib.Run
import ConnClient.Client.State

namespace ConnClient

open ConnClient.Lib ConnClient.Ikcp

/-! ## Sending -/

/-- `ConnClientPrivate::OnTcpWrite` -/
def onTcpWrite (cx : Cx) (c : Client) : M Client :=
  if c.writeStream.len = 0 then .ok c
  else
    let needSendLen := c.writeStream.len
    let ((nwritten, eno), c) := sendEx cx.env c.tcpSock needSendLen c
    if nwritten > 0 then
      let c := { c with writeStream := c.writeStream.skip nwritten }
      .ok (if nwritten < needSendLen then { c with tcpWritable := true } else c)
    else if eno = .wouldBlock ∨ eno = .intr then .ok { c with tcpWritable := true }
    else cx.close clientConnectError c

/-- The header of a TCP frame and its payload. -/
def tcpFrame (flow magic : BitVec 32) (cmd : Byte) (msg : List Byte) : List Byte :=
  toBE 4 (csConnHeadSize + msg.length) ++ toLE 4 flow.toNat ++ [magic.setWidth 8, cmd] ++ msg

theorem length_tcpFrame (flow magic : BitVec 32) (cmd : Byte) (msg : List Byte) :
    (tcpFrame flow magic cmd msg).length = csConnHeadSize + msg.length := by
  simp only [tcpFrame, List.length_append, length_toBE, length_toLE, List.length_cons,
    List.length_nil, csConnHeadSize]

/-- `ConnClientPrivate::SendTCPBuf`; its result `-1` or `0` is not used by any caller. -/
def sendTCPBuf (cx : Cx) (cmd : Byte) (msg : List Byte) (c : Client) : M Client :=
  let totalLen := csConnHeadSize + msg.length
  let (room, stream) := c.writeStream.ensureWritable totalLen
  if room = false then cx.close clientConnectError { c with writeStream := stream }
  else
    onTcpWrite cx { c with writeStream := stream.addSize (tcpFrame c.flow c.magic cmd msg) }

/-- `ConnClientPrivate::UdpWrite` -/
def udpWrite (cx : Cx) (pkg : List Byte) (c : Client) : M Client :=
  let ((sendLen, err), c) := sendEx cx.env c.udpSock pkg.length c
  if sendLen ≤ 0 ∧ ¬ (err = .wouldBlock ∨ err = .intr) then cx.close clientConnectError c
  else if sendLen ≠ pkg.length then cx.close clientConnectError c
  else .ok c

/-- `ConnClientPrivate::SendUDPBuf` -/
def sendUDPBuf (cx : Cx) (cmd : Byte) (msg : List Byte) (c : Client) : M Client :=
  if c.udpSock = -1 then .ok c
  else if msg.length > maxUdpPkgLen - csUdpConnHeadSize then .ok c
  else udpWrite cx (toLE 4 c.flow.toNat ++ [c.magic.setWidth 8, cmd] ++ msg) c

/-! ## The KCP output callback -/

/-- A close decided by the output callback is noted before it is carried out. -/
def Cx.fromOutput (cx : Cx) : Cx :=
  { cx with close := fun reason c =>
      cx.close reason (c.log (.outputClose c.brackets.head? c.idle c.exhausted)) }

/-- `ConnClientPrivate::KCPOutput`; `pvp_ikcp` ignores its result. -/
def kcpOutput (cx : Cx) (data : List Byte) (c : Client) : M Client :=
  if c.enableUdp then sendUDPBuf cx.fromOutput controlReliableMsg data c
  else sendTCPBuf cx.fromOutput controlReliableMsg data c

/-- The outputs of a KCP routine, each with the block as it stood. -/
def playOutputs (cx : Cx) : List (IKCPCB × List Byte) → Client → M Client
  | [], c => .ok c
  | (kcp, data) :: rest, c => do
    let c ← kcpOutput cx data { c with kcpSession := { c.kcpSession with kcp := some kcp } }
    playOutputs cx rest c

/-- A KCP routine with this result runs on the session's block. -/
def runKcp (cx : Cx) (b : Bracket) (r : IKCPCB × List (IKCPCB × List Byte)) (c : Client) :
    M Client := do
  let c ← playOutputs cx r.2 { c with brackets := b :: c.brackets }
  .ok { c with
    kcpSession := { c.kcpSession with kcp := some r.1 }
    brackets := c.brackets.tail }

/-! ## Closing -/

/-- `KcpSession::Flush` for a close with this reason. -/
def sessionFlush (cx : Cx) (reason : Int) (c : Client) : M Client :=
  match c.kcpSession.kcp with
  | none => .ok c
  | some kcp => runKcp cx (.flush reason) (pvpIkcpFlush kcp) c

/-- `KcpSession::Release`, unless a KCP routine is running on the block. -/
def sessionRelease (c : Client) : M Client :=
  if c.live ∧ c.brackets ≠ [] then .error (.uaf, c)
  else .ok { c with kcpSession := c.kcpSession.release }

/-- The terminal branch of `InnerClose`. -/
def closeSession (cx : Cx) (reason : Int) (c : Client) : M Client := do
  let c ← sessionFlush cx reason c
  let c ← sessionRelease c
  .ok { c with running := false, trace := .terminal :: c.trace }

/-- The rest of `InnerClose`: sockets, state and buffers, and the report. -/
def closeSockets (env : Env) (reason : Int) (c : Client) : Client :=
  let c := setConnState env .init { c with
    tcpSock := -1
    udpSock := -1
    closed := [c.udpSock, c.tcpSock].filter (· ≠ -1) ++ c.closed }
  let c := { c with writeStream := c.writeStream.reset, readStream := c.readStream.reset }
  if reason ≥ 0 ∧ c.cb.disconnect then c.notify (.disconnect reason) else c

/-- The reason `InnerClose` acts on. -/
def closeReason (reason : Int) (c : Client) : Int :=
  if c.exhausted then clientConnectTimeout else reason

/-- `ConnClientPrivate::InnerClose`, given how to call it. -/
def innerCloseBody (env : Env) (close : Int × Client → M Client) (a : Int × Client) : M Client :=
  let cx : Cx := ⟨env, fun reason c => close (reason, c)⟩
  let reason := closeReason a.1 a.2
  if reason < clientConnectError then do
    let c ← closeSession cx reason a.2
    .ok (closeSockets env reason c)
  else .ok (closeSockets env reason a.2)

/-- `ConnClientPrivate::InnerClose`, with at most `n` calls inside each other. -/
def innerClose (env : Env) (n : Nat) (reason : Int) (c : Client) : M Client :=
  unroll (fun a => (.deep, a.2)) (innerCloseBody env) n (reason, c)

/-- The context of the net thread, with at most `n` calls of `InnerClose` inside each other. -/
def Cx.of (env : Env) (n : Nat) : Cx := ⟨env, innerClose env n⟩

/-! ## The KCP session's other calls -/

/-- `KcpSession::Update` -/
def sessionUpdate (cx : Cx) (currentMs : IUINT32) (c : Client) : M Client :=
  match c.kcpSession.kcp with
  | none => .ok c
  | some kcp => do
    let c ← runKcp cx .update (pvpIkcpUpdate kcp currentMs) c
    .ok { c with kcpSession := { c.kcpSession with updateNow := false } }

/-- `KcpSession::Tick` -/
def sessionTick (cx : Cx) (currentMs : IUINT32) (c : Client) : M Client :=
  if c.kcpSession.isNull then .ok c
  else if c.kcpSession.nextTimeMs ≤ currentMs ∨ c.kcpSession.updateNow then do
    let c ← sessionUpdate cx currentMs c
    .ok { c with kcpSession :=
      { c.kcpSession with nextTimeMs := c.kcpSession.check currentMs } }
  else .ok c

/-- `ConnClientPrivate::SendKCPBuf` -/
def sendKCPBuf (cx : Cx) (msg : List Byte) (c : Client) : M Client :=
  if msg.length = 0 then .ok c
  else if c.connState.ord < ConnState.logicConnected.ord then .ok c
  else
    let (now, c) := getTimeMs cx.env c
    match c.kcpSession.kcp with
    | none => .ok c
    | some kcp =>
      runKcp cx .sendEx (pvpIkcpSendEx kcp msg (BitVec.ofInt 32 now)).2 (c.log (.handed msg))

end ConnClient
