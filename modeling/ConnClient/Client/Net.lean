/-
  `conn_client.cpp` — what the net thread does on socket events and on its timers.

  The functions are given the `InnerClose` to call (`Cx`), as in `ConnClient.Client.Close`.  What
  `recv` and `recvfrom` return is an argument: the bytes, cut to the size of the buffer, or nothing
  for a result that is not positive.  `ReadStream`'s loop runs with a bound on its rounds, and stops
  with `Stop.spin` when that is not enough; the bound of the loop in `InputToKcp` is the program's
  own (`while_s`).
-/
import ConnClient.Client.Close

namespace ConnClient

open ConnClient.Lib ConnClient.Ikcp

/-! ## Pings -/

/-- `ConnClientPrivate::SendTcpPing` -/
def sendTcpPing (cx : Cx) (nowMs : Int) (immediate : Bool) (c : Client) : M Client :=
  if c.connState.ord < ConnState.connected.ord then .ok c
  else
    let (due, expire) :=
      if immediate then (true, c.tcpPingExpire) else c.tcpPingExpire.tryExpire nowMs
    let c := { c with tcpPingExpire := expire }
    if due then
      sendTCPBuf cx controlPing (toLE 8 (BitVec.ofInt 64 nowMs).toNat) { c with pingSeq := nowMs }
    else .ok c

/-- `ConnClientPrivate::SendUdpPing` -/
def sendUdpPing (cx : Cx) (nowMs : Int) (c : Client) : M Client :=
  if c.udpSock = -1 then .ok c
  else if c.connState.ord < ConnState.connected.ord then .ok c
  else
    let (due, expire) := c.udpPingExpire.tryExpire nowMs
    let c := { c with udpPingExpire := expire }
    if due then udpWrite cx (toLE 4 0 ++ toLE 8 (BitVec.ofInt 64 nowMs).toNat) c else .ok c

/-! ## Logging in -/

/-- A close decided by the ping of a login is noted before it is carried out. -/
def Cx.fromLogin (cx : Cx) : Cx :=
  { cx with close := fun reason c => cx.close reason (c.log .loginPingClose) }

/-- The common part of `ConnectSuccess` and `ReConnectSuccess`. -/
def loginPing (cx : Cx) (c : Client) : M Client :=
  let c := setConnState cx.env .logicConnected c
  let (nowMs, c) := getTimeMs cx.env c
  sendTcpPing cx.fromLogin nowMs true { c with tcpPingExpire := c.tcpPingExpire.reset nowMs }

/-- `ConnClientPrivate::ConnectSuccess` -/
def connectSuccess (cx : Cx) (c : Client) : M Client := do
  let c ← loginPing cx c
  .ok (if c.cb.connectSuccess then c.notify .connectSuccess else c)

/-- `ConnClientPrivate::ReConnectSuccess` -/
def reConnectSuccess (cx : Cx) (c : Client) : M Client := do
  let c ← loginPing cx c
  .ok (if c.cb.reconnectSuccess then c.notify .relinkSuccess else c)

/-! ## Messages from the server -/

/-- `ConnClientPrivate::Output`, of `len` bytes at `data`. -/
def output (data : List Byte) (len : Int) (c : Client) : M Client :=
  if c.cb.output then
    if len < 0 then .error (.abort, c) else .ok (c.enqueueOut (.output (data.take len.toNat)))
  else .ok c

/-- `while_s` -/
def whileLimit : Nat := 1000000

/-- The loop of `InputToKcp`, with the last `recv_len`. -/
def recvLoop (cx : Cx) : Nat → Int → Client → M (Int × Client)
  | 0, recvLen, c => .ok (recvLen, c)
  | n + 1, _, c =>
    let (r, session) := c.kcpSession.recv maxPkgSize
    let c := { c with kcpSession := session }
    if r.ret ≤ 0 then .ok (r.ret, c)
    else if r.bytes.headD 0 = controlDisconnect then do
      let c ← cx.close controlServerClose c
      recvLoop cx n r.ret c
    else if r.ret > 1 then do
      let c ← output (r.bytes.drop 1) (r.ret - 1) c
      recvLoop cx n r.ret c
    else recvLoop cx n r.ret c

/-- `ConnClientPrivate::InputToKcp`; its result is not used by any caller. -/
def inputToKcp (cx : Cx) (msg : List Byte) (curTime : Int) (c : Client) : M Client :=
  if c.kcpSession.isNull then cx.close clientConnectError c
  else
    let (ret, session) := c.kcpSession.input msg curTime
    let c := { c with kcpSession := session }
    if ret ≠ 0 then cx.close clientConnectError c
    else do
      let (recvLen, c) ← recvLoop cx whileLimit 0 c
      if recvLen = -3 then cx.close clientConnectError c else .ok c

/-- `ConnClientPrivate::CreateKCP` -/
def createKCP (cx : Cx) (data : List Byte) (c : Client) : M Client :=
  let info := ControlKCPInfo.ofBytes data
  let c := { c with
    kcpSession := c.kcpSession.createKCP info
    enableUdp := decide (info.enableUdp.toInt > 0) }
  let (now, c) := getTimeMs cx.env c
  sessionUpdate cx (BitVec.ofInt 32 now) c

/-! ## `ReadStream` -/

/-- `CsConnHead`: the header of a TCP frame. -/
structure CsConnHead where
  secPkgLen : BitVec 32
  flow : BitVec 32
  magic : Byte
  cmd : Byte

/-- The header at the front of the buffer. -/
def CsConnHead.ofBytes (buf : List Byte) : CsConnHead where
  secPkgLen := BitVec.ofNat 32 (ofBE (buf.take 4))
  flow := BitVec.ofNat 32 (ofLE ((buf.drop 4).take 4))
  magic := (buf.drop 8).headD 0
  cmd := (buf.drop 9).headD 0

/-- `ntohl(head->sec_pkg_len)`, as an `int`. -/
def CsConnHead.pkgLen (head : CsConnHead) : Int := head.secPkgLen.toInt

/-- The frame at the front of the buffer, as its branch is given it. -/
def CsConnHead.dispatch (head : CsConnHead) (buf : List Byte) : Dispatch where
  cmd := head.cmd
  dataLen := head.pkgLen - csConnHeadSize
  data := (buf.drop csConnHeadSize).take (head.pkgLen - csConnHeadSize).toNat

/-- What a round of the loop comes to: `return`, or the next round. -/
inductive Round where
  | done (c : Client)
  | next (c : Client)

/-- The client after the round. -/
def Round.client : Round → Client
  | .done c => c
  | .next c => c

/-- The branch of the command: whether it returns, or goes on to the `Skip` at the end of the loop
    (the `continue` of a ping skips the same bytes). -/
def dispatchFrame (cx : Cx) (d : Dispatch) (curTime : Int) (c : Client) : M Round :=
  if d.cmd = controlPing then
    if d.dataLen ≠ 8 then return .done (← cx.close clientConnectError c) else .ok (.next c)
  else if d.cmd = controlReliableMsg then return .next (← inputToKcp cx d.data curTime c)
  else if d.cmd = controlUnreliableMsg then return .next (← output d.data d.dataLen c)
  else if d.cmd = controlKcpInfo then
    if d.dataLen ≥ sizeofControlKCPInfo ∧ c.kcpSession.isNull then
      return .next (← createKCP cx d.data c)
    else return .done (← cx.close clientConnectError c)
  else if d.cmd = controlDisconnect then
    if d.dataLen ≥ 4 then
      let reason := (fieldAt d.data 0).toInt
      if reason = controlServerClose ∨ reason = controlServerFull ∨ reason = controlFlowNotExist then
        return .done (← cx.close reason c)
      else .ok (.next c)
    else return .next (← cx.close controlServerClose c)
  else if d.cmd = controlSyncLabel then
    if c.isFirstConnect then
      let c := { c with isFirstConnect := false }
      return .next (← connectSuccess cx c)
    else return .next (← reConnectSuccess cx c)
  else .ok (.next c)

/-- `read_stream_.Skip(pkg_len)` at the end of a round that did not return. -/
def Round.skip (pkgLen : Int) : Round → Round
  | .done c => .done c
  | .next c => .next { c with readStream := c.readStream.skip pkgLen }

/-- One round of `ConnClientPrivate::ReadStream`. -/
def readRound (cx : Cx) (curTime : Int) (c : Client) : M Round :=
  let buf := c.readStream.buf
  if c.readStream.len < csConnHeadSize then .ok (.done c)
  else
    let head := CsConnHead.ofBytes buf
    let c := { c with flow := head.flow, magic := head.magic.setWidth 32 }
    if c.readStream.len < head.pkgLen then .ok (.done c)
    else
      let d := head.dispatch buf
      let c := { c with dispatched := d :: c.dispatched }
      return (← dispatchFrame cx d curTime c).skip head.pkgLen

/-- `ConnClientPrivate::ReadStream`, with at most `n` rounds. -/
def readStream (cx : Cx) (curTime : Int) : Nat → Client → M Client
  | 0, c => .error (.spin, c)
  | n + 1, c => do
    match ← readRound cx curTime c with
    | .done c => .ok c
    | .next c => readStream cx curTime n c

/-! ## Socket events -/

/-- The `EnsureWritable` of `OnTcpRead`; a refusal closes the connection. -/
def makeReadRoom (cx : Cx) (c : Client) : M Client :=
  let (room, stream) := c.readStream.ensureWritable recvOneTimeSize
  let c := { c with readStream := stream }
  if room then .ok c else cx.close clientConnectError (c.log .noRoom)

/-- `ConnClientPrivate::OnTcpRead`, where `recv` on the open socket would give `data`. -/
def onTcpRead (cx : Cx) (n : Nat) (data : List Byte) (curTime : Int) (c : Client) : M Client := do
  let c ← makeReadRoom cx c
  let read := if c.tcpSock = -1 then [] else data.take recvOneTimeSize
  if read.length > 0 then
    readStream cx curTime n { c with readStream := c.readStream.addSize read }
  else cx.close clientConnectError c

/-- What `recvfrom` gives: a datagram, or `-1` and `errno`. -/
inductive UdpRecv where
  | datagram (pkg : List Byte)
  | fail (err : Errno)
  deriving DecidableEq

/-- A datagram of at least a header's length.  A route ping is only measured. -/
def udpDatagram (cx : Cx) (pkg : List Byte) (curTime : Int) (c : Client) : M Client :=
  let flow : BitVec 32 := BitVec.ofNat 32 (ofLE (pkg.take 4))
  let cmd := (pkg.drop 5).headD 0
  let msg := pkg.drop csUdpConnHeadSize
  if pkg.length = 12 ∧ flow = 0 then .ok c
  else if flow ≠ c.flow then .ok c
  else if cmd = controlUnreliableMsg then output msg msg.length c
  else if cmd = controlReliableMsg then inputToKcp cx msg curTime c
  else if cmd = controlDisconnect then cx.close controlServerClose c
  else .ok c

/-- `ConnClientPrivate::OnUdpRead` -/
def onUdpRead (cx : Cx) (r : UdpRecv) (curTime : Int) (c : Client) : M Client :=
  if c.udpSock = -1 then .ok c
  else match r with
    | .datagram pkg =>
      if (pkg.take maxUdpPkgLen).length ≥ csUdpConnHeadSize then
        udpDatagram cx (pkg.take maxUdpPkgLen) curTime c
      else .ok c
    | .fail err =>
      if err = .wouldBlock ∨ err = .intr then .ok c else cx.close clientConnectError c

/-- A writable TCP socket: the connection is there, or there may be room again. -/
def onTcpWritable (cx : Cx) (c : Client) : M Client :=
  let c := { c with tcpWritable := false }
  if c.connState = .connecting then .ok (setConnState cx.env .connected c) else onTcpWrite cx c

/-! ## Connecting, timing out, relinking -/

/-- `ConnClientPrivate::CreateConnect`: the descriptor, or `-1`. -/
def createConnect (env : Env) (c : Client) : Int × Client :=
  ((env.dial c.ndial).elim (-1) Int.ofNat,
    { c with
      ndial := c.ndial + 1
      opened := ((env.dial c.ndial).map Int.ofNat).toList ++ c.opened })

/-- The timeout `InnerConnect` sets. -/
def clampTimeout (old timeoutMs : Int) : Int :=
  let timeoutMs := if timeoutMs > 10000 then 10000 else timeoutMs
  if timeoutMs > 0 then timeoutMs else old

/-- The UDP half of `InnerConnect`. -/
def connectUdp (cx : Cx) (c : Client) : M Client :=
  let (sock, c) := createConnect cx.env c
  let c := { c with udpSock := sock }
  if sock = -1 then cx.close clientConnectError (c.log .dialFail)
  else .ok (setConnState cx.env .connecting c)

/-- `ConnClientPrivate::InnerConnect` -/
def innerConnect (cx : Cx) (ip : String) (port : BitVec 32) (timeoutMs : Int) (c : Client) :
    M Client :=
  let c := { c with
    ip := ip
    port := port.setWidth 16
    connectTimeoutMs := clampTimeout c.connectTimeoutMs timeoutMs }
  let (sock, c) := createConnect cx.env c
  let c := { c with tcpSock := sock }
  if sock = -1 then cx.close clientConnectError (c.log .dialFail) else connectUdp cx c

/-- `ConnClientPrivate::CheckTimeout` -/
def checkTimeout (cx : Cx) (nowMs : Int) (c : Client) : M Client :=
  if c.connState.ord > ConnState.init.ord ∧ c.connState.ord < ConnState.logicConnected.ord ∧
      c.connStateTs + c.connectTimeoutMs < nowMs then
    cx.close (if c.exhausted then clientConnectTimeout else clientConnectTimeoutContinue) c
  else .ok c

/-- A negative counter is reset. -/
def clampRelink (c : Client) : Client :=
  { c with relinkCount := if c.relinkCount < 0 then 0 else c.relinkCount }

/-- `ConnClientPrivate::CheckRelink` -/
def checkRelink (cx : Cx) (nowMs : Int) (c : Client) : M Client :=
  if c.running = false then .ok c
  else
    let c := clampRelink c
    if c.exhausted then .ok c
    else
      let interval := c.relinkIntervalMsVec.getD c.relinkCount.toNat 0
      if c.connState = .init ∧ c.connStateTs + interval < nowMs then do
        let c := { c with relinkCount := c.relinkCount + 1, trace := .attempt :: c.trace }
        let c ← innerConnect cx c.ip (c.port.setWidth 32) 0 c
        .ok (if c.cb.relink then c.enqueueOut .relink else c)
      else .ok c

end ConnClient
