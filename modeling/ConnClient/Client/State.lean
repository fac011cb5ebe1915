/-
  `conn_client.cpp` — the state of `ConnClientPrivate`, and what surrounds it.

  The client talks to the operating system through three kinds of calls whose outcome it does not
  control: sending on a socket, reading the clock, and opening a connected socket.  An `Env` fixes
  those outcomes, the `n`-th call of each kind; the client counts its calls.

  Some things are recorded that the program does not: `brackets`, the calls of `pvp_ikcp_flush`,
  `pvp_ikcp_update` and `pvp_ikcp_send_ex` that have been entered and not left; the descriptors that
  were opened and closed; and `trace`, the events the properties of whole runs speak of, newest
  first.

  A call may also fail to return: see `Stop`.  Logging, `select` and its descriptor sets, the wake-up
  pipe, thread priorities and socket options are left out; callbacks are `Bool`s, registered or not.
-/
import ConnClient.Client.Stream
import ConnClient.Client.Session

namespace ConnClient

open ConnClient.Lib ConnClient.Ikcp

/-! ## Constants -/

def recvOneTimeSize : Nat := 1024 * 16
def csConnHeadSize : Nat := 10
def csUdpConnHeadSize : Nat := 6
def maxUdpPkgLen : Nat := 2048
def maxPkgSize : Int := 3 * 1024 * 1024

/-- `CsConnCmd` -/
def controlReliableMsg : Byte := 0
def controlUnreliableMsg : Byte := 1
def controlPing : Byte := 2
def controlKcpInfo : Byte := 3
def controlDisconnect : Byte := 4
def controlSyncLabel : Byte := 7

/-- `ControlDisconnectReason` -/
def controlServerClose : Int := 0
def controlServerFull : Int := 1
def controlFlowNotExist : Int := 2
def clientConnectTimeout : Int := 4
def clientConnectError : Int := 5
def clientConnectTimeoutContinue : Int := 6
def clientConnectSwitch : Int := 7

/-- `ConnState`. -/
inductive ConnState where
  | init
  | connecting
  | connected
  | logicConnected
  deriving DecidableEq

/-- The number behind the enumerator, by which states are compared. -/
def ConnState.ord : ConnState → Nat
  | .init => 0
  | .connecting => 1
  | .connected => 2
  | .logicConnected => 3

/-- `TimeExpire`. -/
structure TimeExpire where
  lastTime : Int
  expireLong : Int

/-- `TimeExpire::TryExpire` -/
def TimeExpire.tryExpire (t : TimeExpire) (nowMs : Int) : Bool × TimeExpire :=
  if nowMs > t.lastTime + t.expireLong then (true, { t with lastTime := nowMs }) else (false, t)

/-- `TimeExpire::Reset` -/
def TimeExpire.reset (t : TimeExpire) (nowMs : Int) : TimeExpire := { t with lastTime := nowMs }

/-! ## Queues and events -/

/-- The tasks of `in_queue_`. -/
inductive Task where
  | connect (ip : String) (port : BitVec 32) (timeoutMs : Int)
  | close
  | send (msg : List Byte)
  deriving DecidableEq

/-- The tasks of `out_queue_`. -/
inductive OutTask where
  | output (data : List Byte)
  | disconnect (reason : Int)
  | connectSuccess
  | relinkSuccess
  | relink
  deriving DecidableEq

/-- Which KCP routine is running: a flush on behalf of `InnerClose` with this reason, an update, or a
    send. -/
inductive Bracket where
  | flush (reason : Int)
  | update
  | sendEx
  deriving DecidableEq

/-- The events of a run. -/
inductive Ev where
  /-- `SetConnState` entered a state. -/
  | state (s : ConnState)
  /-- A connect-success, relink-success or disconnect task went into `out_queue_`. -/
  | queued (t : OutTask)
  /-- `InnerClose` released the session and cleared `running_`. -/
  | terminal
  /-- `CheckRelink` started an attempt. -/
  | attempt
  /-- `InnerConnect` could not create a socket. -/
  | dialFail
  /-- `OnTcpRead` found no room in `read_stream_`. -/
  | noRoom
  /-- A send made from the KCP output callback closes the connection: for which KCP routine, whether
      no socket was open and the state `CS_INIT`, and whether the relinks were exhausted. -/
  | outputClose (b : Option Bracket) (idle exhausted : Bool)
  /-- The ping that `ConnectSuccess` or `ReConnectSuccess` sends closes the connection. -/
  | loginPingClose
  /-- `SendMsg` accepted a message. -/
  | accepted (msg : List Byte)
  /-- A task of `in_queue_` starts to run: whether the state is `CS_LOGIC_CONNECTED`, whether there
      is a KCP session, and whether the relinks are exhausted. -/
  | ran (t : Task) (connected live exhausted : Bool)
  /-- A message was handed to `pvp_ikcp_send_ex`. -/
  | handed (msg : List Byte)
  deriving DecidableEq

/-- What `ReadStream` hands to the branch of a command: the payload length it computed, and the
    bytes buffered behind the header, that many at most. -/
structure Dispatch where
  cmd : Byte
  dataLen : Int
  data : List Byte
  deriving DecidableEq

/-! ## The client -/

/-- Which callbacks are registered. -/
structure Callbacks where
  output : Bool
  disconnect : Bool
  connectSuccess : Bool
  reconnectSuccess : Bool
  relink : Bool

/-- `ConnClientPrivate`. -/
structure Client where
  running : Bool
  inQueue : List Task
  outQueue : List OutTask
  /-- `thread_.joinable()` -/
  thread : Bool
  ip : String
  port : BitVec 16
  tcpSock : Int
  udpSock : Int
  tcpWritable : Bool
  connState : ConnState
  connStateTs : Int
  writeStream : Stream
  readStream : Stream
  flow : BitVec 32
  magic : BitVec 32
  tcpPingExpire : TimeExpire
  udpPingExpire : TimeExpire
  pingSeq : Int
  kcpSession : KcpSession
  enableUdp : Bool
  isFirstConnect : Bool
  relinkIntervalMsVec : List Int
  relinkCount : Int
  connectTimeoutMs : Int
  cb : Callbacks
  brackets : List Bracket
  /-- Every frame `ReadStream` dispatched, newest first. -/
  dispatched : List Dispatch
  nsend : Nat
  nclock : Nat
  ndial : Nat
  /-- Every descriptor `CreateConnect` returned, newest first. -/
  opened : List Int
  /-- Every descriptor passed to `closesocket_ex`, newest first. -/
  closed : List Int
  trace : List Ev

namespace Client

/-- A client just constructed at time `now`, with the callbacks registered then. -/
def new (cb : Callbacks) (now : Int) : Client where
  running := false
  inQueue := []
  outQueue := []
  thread := false
  ip := ""
  port := 0
  tcpSock := -1
  udpSock := -1
  tcpWritable := true
  connState := .init
  connStateTs := now
  writeStream := .new
  readStream := .new
  flow := 0
  magic := 0
  tcpPingExpire := ⟨0, 2000⟩
  udpPingExpire := ⟨0, 2000⟩
  pingSeq := 0
  kcpSession := .new
  enableUdp := false
  isFirstConnect := true
  relinkIntervalMsVec := []
  relinkCount := 0
  connectTimeoutMs := 3000
  cb := cb
  brackets := []
  dispatched := []
  nsend := 0
  nclock := 0
  ndial := 0
  opened := []
  closed := []
  trace := []

/-- The relinks are used up: `relink_count_ >= (int)relink_interval_ms_vec_.size()`. -/
def exhausted (c : Client) : Bool := decide (c.relinkCount ≥ c.relinkIntervalMsVec.length)

/-- No socket is open and the state is `CS_INIT`. -/
def idle (c : Client) : Bool := c.connState == .init && c.tcpSock == -1 && c.udpSock == -1

/-- There is a KCP session. -/
def live (c : Client) : Bool := !c.kcpSession.isNull

def log (e : Ev) (c : Client) : Client := { c with trace := e :: c.trace }

/-- `out_queue_.enqueue`, of a notification. -/
def notify (t : OutTask) (c : Client) : Client :=
  { c with outQueue := c.outQueue ++ [t], trace := .queued t :: c.trace }

/-- `out_queue_.enqueue`, of anything else. -/
def enqueueOut (t : OutTask) (c : Client) : Client := { c with outQueue := c.outQueue ++ [t] }

end Client

/-! ## The environment -/

/-- The values of `errno` the client tells apart (`EAGAIN` is `EWOULDBLOCK`). -/
inductive Errno where
  | wouldBlock
  | intr
  | other
  deriving DecidableEq

/-- The outcomes of the system calls. -/
structure Env where
  /-- The value `send` returns on an open socket, and `errno`. -/
  send : Nat → Int × Errno
  clock : Nat → Int
  /-- The descriptor `CreateConnect` ends up with; `none` when the address, the socket or its mode
      could not be had.  (`connect_ex` returns a `bool`, so its failure is not seen there.) -/
  dial : Nat → Option Nat

/-- Why a call does not return. -/
inductive Stop where
  /-- More nested calls of `InnerClose` than allowed. -/
  | deep
  /-- More rounds of `ReadStream`'s loop than allowed. -/
  | spin
  /-- `KcpSession::Release` on a control block that a KCP routine is working on. -/
  | uaf
  /-- A `std::string` of negative length. -/
  | abort
  deriving DecidableEq

/-- The result of a call: where it stopped, or the state it returned in. -/
abbrev M := Except (Stop × Client)

/-- What the functions of the client are given: the environment, and how `InnerClose` is called. -/
structure Cx where
  env : Env
  close : Int → Client → M Client

/-- `TimeAPI::GetTimeMs` -/
def getTimeMs (env : Env) (c : Client) : Int × Client :=
  (env.clock c.nclock, { c with nclock := c.nclock + 1 })

/-- `SocketAPI::send_ex` of `len` bytes; there is no sending without a socket. -/
def sendEx (env : Env) (sock : Int) (len : Nat) (c : Client) : (Int × Errno) × Client :=
  if sock = -1 then ((-1, .other), c)
  else ((min (env.send c.nsend).1 len, (env.send c.nsend).2), { c with nsend := c.nsend + 1 })

/-- `ConnClientPrivate::SetConnState` -/
def setConnState (env : Env) (state : ConnState) (c : Client) : Client :=
  { c with
    connState := state
    connStateTs := env.clock c.nclock
    nclock := c.nclock + 1
    tcpWritable := if state = .init then true else c.tcpWritable
    relinkCount := if state = .logicConnected then 0 else c.relinkCount
    trace := .state state :: c.trace }

end ConnClient
