/-
  `conn_client.cpp` — the application's calls, the net thread, and their interleavings.

  `NetThreadLoop` is cut where its phases meet (`Pc`), and every other call of the application is one
  step, so a run is any interleaving of the two.  `in_queue_` is first in, first out: a phase that
  drains it takes one task a step, and ends when the queue is empty.

  A step of the net thread is given the `World` of that step: what the system calls return, what
  `select` found, and how deep the calls may nest.  Callbacks are registered before anything else;
  `ConnectBlock` is `Connect` followed by `Update`s, and the destructor, which ends the run, is left
  out.
-/
import ConnClient.Client.Net

namespace ConnClient

open ConnClient.Lib ConnClient.Ikcp

/-- Where the net thread is. -/
inductive Pc where
  /-- No thread was started yet. -/
  | none
  /-- The thread was started and has not run yet. -/
  | start
  /-- `while (running_)` -/
  | head
  | tcp
  | udp
  | drain
  | tick
  | tcpPing
  | udpPing
  | timeout
  | relink
  /-- `NetThreadLoop` has returned. -/
  | left
  deriving DecidableEq

/-- The client and its net thread, with the two times the loop keeps. -/
structure Sys where
  client : Client
  pc : Pc
  curTime : Int
  nowMs : Int

/-- What `select` found on the TCP socket; a readable one comes with what `recv` will give. -/
inductive TcpEvent where
  | none
  | readable (data : List Byte)
  | writable

/-- The world during one step. -/
structure World where
  env : Env
  /-- Calls of `InnerClose` inside each other, at most. -/
  depth : Nat
  /-- Rounds of `ReadStream`, at most. -/
  rounds : Nat
  /-- `select` returned a positive number. -/
  ready : Bool
  tcp : TcpEvent
  udp : Option UdpRecv

/-- The context of a step. -/
def World.cx (w : World) : Cx := .of w.env w.depth

/-- The application's calls, and a step of the net thread. -/
inductive Act where
  | connect (ip : String) (port : BitVec 32) (timeoutMs : Int)
  | close
  | sendMsg (msg : List Byte)
  | update
  | addRelinkInterval (msec : Int)
  | clearRelinkInterval
  | setMagicNum (magic : BitVec 32)
  | switchNetwork (w : World)
  | net (w : World)

/-! ## The application -/

/-- `ConnClientPrivate::Connect`, with `StartNetThreadLoop`. -/
def connect (ip : String) (port : BitVec 32) (timeoutMs : Int) (s : Sys) : Sys :=
  let c := { s.client with inQueue := s.client.inQueue ++ [.connect ip port timeoutMs] }
  if c.thread then { s with client := c } else { s with client := { c with thread := true }, pc := .start }

/-- `ConnClientPrivate::Close` -/
def close (c : Client) : Client := { c with inQueue := c.inQueue ++ [.close] }

/-- `ConnClientPrivate::SendMsg`: its result, and the client. -/
def sendMsg (msg : List Byte) (c : Client) : Int × Client :=
  if c.connState.ord < ConnState.logicConnected.ord then (-1, c)
  else (0, { c with inQueue := c.inQueue ++ [.send msg], trace := .accepted msg :: c.trace })

/-- One task of `ConnClientPrivate::Update`; what the callbacks do is not the client's. -/
def update (c : Client) : Client := { c with outQueue := c.outQueue.tail }

/-- `ConnClientPrivate::AddRelinkInterval` -/
def addRelinkInterval (msec : Int) (c : Client) : Client :=
  let vec := if c.relinkIntervalMsVec = [] then [0] else c.relinkIntervalMsVec
  { c with relinkIntervalMsVec :=
      if vec.length < 5 then (vec ++ [msec]).insertionSort (· ≤ ·) else vec }

/-- `ConnClientPrivate::ClearRelinkInterval` -/
def clearRelinkInterval (c : Client) : Client := { c with relinkIntervalMsVec := [] }

/-- `ConnClientPrivate::SwitchNetwork` -/
def switchNetwork (cx : Cx) (c : Client) : M Client :=
  if c.connState = .logicConnected ∧ c.relinkCount = 0 then cx.close clientConnectSwitch c else .ok c

/-! ## The net thread -/

/-- A task of `in_queue_`. -/
def runTask (cx : Cx) : Task → Client → M Client
  | .connect ip port timeoutMs, c => innerConnect cx ip port timeoutMs c
  | .close, c => cx.close (-1) c
  | .send msg, c => sendKCPBuf cx msg c

/-- The next task is taken. -/
def takeTask (t : Task) (rest : List Task) (c : Client) : Client :=
  { c with
    inQueue := rest
    trace := .ran t (c.connState == .logicConnected) c.live c.exhausted :: c.trace }

/-- The TCP socket after `select`. -/
def tcpEvent (w : World) (curTime : Int) (c : Client) : M Client :=
  if c.tcpSock = -1 then .ok c
  else match w.tcp with
    | .none => .ok c
    | .readable data => onTcpRead w.cx w.rounds data curTime c
    | .writable => if c.tcpWritable then onTcpWritable w.cx c else .ok c

/-- The UDP socket after `select`. -/
def udpEvent (w : World) (curTime : Int) (c : Client) : M Client :=
  match w.udp with
  | none => .ok c
  | some r => onUdpRead w.cx r curTime c

/-- One step of `NetThreadLoop`. -/
def netStep (w : World) (s : Sys) : M Sys :=
  match s.pc with
  | .none => .ok s
  | .start => .ok { s with client := { s.client with running := true, relinkCount := 0 }, pc := .head }
  | .head =>
    if s.client.running = false then .ok { s with pc := .left }
    else if w.ready then
      let (now, c) := getTimeMs w.env s.client
      .ok { s with client := c, curTime := now, pc := .tcp }
    else .ok { s with pc := .drain }
  | .tcp => do .ok { s with client := ← tcpEvent w s.curTime s.client, pc := .udp }
  | .udp => do .ok { s with client := ← udpEvent w s.curTime s.client, pc := .drain }
  | .drain =>
    match s.client.inQueue with
    | [] =>
      let (now, c) := getTimeMs w.env s.client
      .ok { s with client := c, nowMs := now, pc := .tick }
    | t :: rest => do .ok { s with client := ← runTask w.cx t (takeTask t rest s.client) }
  | .tick => do
    .ok { s with client := ← sessionTick w.cx (BitVec.ofInt 32 s.nowMs) s.client, pc := .tcpPing }
  | .tcpPing => do .ok { s with client := ← sendTcpPing w.cx s.nowMs false s.client, pc := .udpPing }
  | .udpPing => do .ok { s with client := ← sendUdpPing w.cx s.nowMs s.client, pc := .timeout }
  | .timeout => do .ok { s with client := ← checkTimeout w.cx s.nowMs s.client, pc := .relink }
  | .relink => do .ok { s with client := ← checkRelink w.cx s.nowMs s.client, pc := .head }
  | .left => .ok s

/-! ## Runs -/

/-- A step of the system. -/
def sysStep : Act → Sys → M Sys
  | .connect ip port timeoutMs, s => .ok (connect ip port timeoutMs s)
  | .close, s => .ok { s with client := close s.client }
  | .sendMsg msg, s => .ok { s with client := (sendMsg msg s.client).2 }
  | .update, s => .ok { s with client := update s.client }
  | .addRelinkInterval msec, s => .ok { s with client := addRelinkInterval msec s.client }
  | .clearRelinkInterval, s => .ok { s with client := clearRelinkInterval s.client }
  | .setMagicNum magic, s => .ok { s with client := { s.client with magic := magic } }
  | .switchNetwork w, s => do .ok { s with client := ← switchNetwork w.cx s.client }
  | .net w, s => netStep w s

/-- A client that was just constructed. -/
def Sys.new (cb : Callbacks) (now : Int) : Sys := ⟨.new cb now, .none, 0, 0⟩

/-- The initial states. -/
def Fresh (s : Sys) : Prop := ∃ cb now, s = .new cb now

/-- The states that runs get to when every step, taken with `i` in `t`, meets `C t i`. -/
abbrev Runs (C : Sys → Act → Prop) : Sys → Prop := Reach sysStep Fresh C

/-- The states that runs get to. -/
abbrev Reachable : Sys → Prop := Runs fun _ _ => True

/-! ## A sample server

The runs that show what can go wrong are variations of one: a connection is made, and the server
sends a `CONTROL_KCP_INFO` with the smallest MTU and three messages, so that three acknowledgements
are due and do not fit one datagram. -/

/-- All sends have this outcome, a clock that advances when it is read, and sockets. -/
def sampleEnv (sent : Int) : Env where
  send := fun _ => (sent, .other)
  clock := fun n => 1000 + 20 * n
  dial := fun n => some (n + 3)

/-- A world in which nothing arrives. -/
def sampleWorld (sent : Int) : World where
  env := sampleEnv sent
  depth := 4
  rounds := 8
  ready := false
  tcp := .none
  udp := none

/-- A world in which the TCP socket has news. -/
def sampleNews (sent : Int) (tcp : TcpEvent) : World :=
  { sampleWorld sent with ready := true, tcp := tcp }

/-- A `CONTROL_KCP_INFO` frame. -/
def sampleInfo (mtu : Nat) : List Byte :=
  tcpFrame 1 0 controlKcpInfo
    ([0, 7, 1, 10, 0, 1, mtu, 10, 0, 32, 32, 0, 0, 0, 0, 0, 0].flatMap (toLE 4)
      ++ List.replicate 25 0)

/-- A frame with one message of KCP. -/
def samplePush (sn : IUINT32) : List Byte :=
  tcpFrame 1 0 controlReliableMsg
    (ikcpSegBytes { conv := 7, cmd := ikcpCmdPush, wnd := 32, sn := sn, data := [1, 9] })

/-- The frame that completes a login. -/
def sampleLabel : List Byte := tcpFrame 1 0 controlSyncLabel []

/-- A connection is made; the net thread is back at the head of its loop. -/
def sampleLink : List Act :=
  .connect "10.0.0.1" 80 3000 :: List.replicate 9 (.net (sampleWorld 2000))
    ++ List.replicate 2 (.net (sampleNews 2000 .writable))
    ++ List.replicate 7 (.net (sampleWorld 2000))

/-- Then the server sends `data`; the next step is the tick. -/
def sampleRead (data : List Byte) : List Act :=
  sampleLink ++ List.replicate 2 (.net (sampleNews 2000 (.readable data)))
    ++ List.replicate 2 (.net (sampleWorld 2000))

/-- Three messages over the smallest MTU. -/
def sampleHello : List Byte := sampleInfo 50 ++ samplePush 0 ++ samplePush 1 ++ samplePush 2

/-- The application registers everything. -/
def sampleClient : Sys := .new ⟨true, true, true, true, true⟩ 1000

/-- The run of these acts, if no step stops. -/
def sampleExec (acts : List Act) : Option Sys := exec sysStep (fun _ _ => true) acts sampleClient

end ConnClient
