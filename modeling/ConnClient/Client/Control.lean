/-
  Connection control in the abstract.

  What happens to a connection — sockets, state, the relink counter, the queue of tasks, and the
  events so far — does not depend on bytes, times or KCP.  `Ctl` is that part of the client, and
  `Move` says what can happen to it at all, each move with what is known when it is made.  The moves
  of a close come first (`CloseMove`), because a close may happen in the middle of anything.

  Every function of the net thread is a path of moves (`ConnClient.Client.Paths`), so a property of
  all runs is one case analysis over the moves.  Three questions about a list of events are needed
  to say what is known at a move: how often a disconnect was reported since the last attempt
  (`reports`), whether a step was taken that may report one twice (`hazard`), and whether the last
  login is still the last word (`forgiven`).
-/
import ConnClient.Client.System

namespace ConnClient

open ConnClient.Lib ConnClient.Ikcp

/-! ## Questions about the events, newest first -/

/-- The disconnects reported since the last entry to `CS_CONNECTING`. -/
def reports : List Ev → Nat
  | [] => 0
  | .state .connecting :: _ => 0
  | .queued (.disconnect _) :: t => reports t + 1
  | _ :: t => reports t

/-- A flush on behalf of an `InnerClose` that will itself report. -/
def Bracket.reporting : Option Bracket → Bool
  | some (.flush reason) => decide (reason ≥ 0)
  | _ => false

/-- A step after which a disconnect may be reported twice: `OnTcpRead` goes on after its buffer was
    full; the KCP output callback closes what is closed already, or what the `InnerClose` around it
    is closing; a socket cannot be had, or `Close` meets used-up relinks, when the disconnect was
    reported before. -/
def hazard : List Ev → Bool
  | [] => false
  | .noRoom :: _ => true
  | .outputClose b idle _ :: t => idle || Bracket.reporting b || hazard t
  | .dialFail :: t => decide (reports t ≠ 0) || hazard t
  | .ran .close _ _ exhausted :: t => (exhausted && decide (reports t ≠ 0)) || hazard t
  | _ :: t => hazard t

/-- The last notification is not a success, or a `Close` or a `Connect` ran since. -/
def forgiven : List Ev → Bool
  | [] => true
  | .queued .connectSuccess :: _ => false
  | .queued .relinkSuccess :: _ => false
  | .queued (.disconnect _) :: _ => true
  | .ran .close _ _ _ :: _ => true
  | .ran (.connect ..) _ _ _ :: _ => true
  | _ :: t => forgiven t

/-- A hazard stays one. -/
theorem hazard_cons (e : Ev) {t : List Ev} (h : hazard t = true) : hazard (e :: t) = true := by
  unfold hazard
  split <;> simp_all

theorem hazard_suffix {t t' : List Ev} (h : t <:+ t') (ht : hazard t = true) : hazard t' = true := by
  obtain ⟨new, rfl⟩ := h
  induction new with
  | nil => exact ht
  | cons e new ih => exact hazard_cons e ih

/-- A close from inside a reporting flush is a hazard. -/
theorem hazard_of_mem {b : Option Bracket} (hb : Bracket.reporting b = true) {i x : Bool} :
    ∀ {t : List Ev}, Ev.outputClose b i x ∈ t → hazard t = true
  | e :: t, h => by
    rcases List.mem_cons.mp h with rfl | h
    · simp [hazard, hb]
    · exact hazard_cons e (hazard_of_mem hb h)

/-! ## The control state -/

/-- What connection control is about. -/
structure Ctl where
  running : Bool
  inQueue : List Task
  thread : Bool
  tcpSock : Int
  udpSock : Int
  connState : ConnState
  relinkCount : Int
  relinkIntervalMsVec : List Int
  cb : Callbacks
  brackets : List Bracket
  trace : List Ev

/-- The control state of a client. -/
def Client.ctl (c : Client) : Ctl where
  running := c.running
  inQueue := c.inQueue
  thread := c.thread
  tcpSock := c.tcpSock
  udpSock := c.udpSock
  connState := c.connState
  relinkCount := c.relinkCount
  relinkIntervalMsVec := c.relinkIntervalMsVec
  cb := c.cb
  brackets := c.brackets
  trace := c.trace

namespace Ctl

def exhausted (k : Ctl) : Bool := decide (k.relinkCount ≥ k.relinkIntervalMsVec.length)

def idle (k : Ctl) : Bool := k.connState == .init && k.tcpSock == -1 && k.udpSock == -1

def log (e : Ev) (k : Ctl) : Ctl := { k with trace := e :: k.trace }

/-- The reason `InnerClose` acts on. -/
def closeReason (reason : Int) (k : Ctl) : Int :=
  if k.exhausted then clientConnectTimeout else reason

/-- The report of a close for this reason. -/
def report (reason : Int) (k : Ctl) : List Ev :=
  if reason ≥ 0 ∧ k.cb.disconnect then [.queued (.disconnect reason)] else []

/-- Everything is closed, and reported. -/
def shut (reason : Int) (k : Ctl) : Ctl :=
  { k with
    tcpSock := -1
    udpSock := -1
    connState := .init
    trace := k.report reason ++ .state .init :: k.trace }

/-- A login, with what is enqueued for it. -/
def login (note : List Ev) (k : Ctl) : Ctl :=
  { k with
    connState := .logicConnected
    relinkCount := 0
    trace := note ++ .state .logicConnected :: k.trace }

/-- New sockets. -/
def sockets (tcp udp : Int) (k : Ctl) : Ctl := { k with tcpSock := tcp, udpSock := udp }

/-- Another state. -/
def enter (st : ConnState) (k : Ctl) : Ctl :=
  { k with connState := st, trace := .state st :: k.trace }

/-- A task taken from the queue, and a message handed on at once. -/
def take (t : Task) (rest : List Task) (live : Bool) (handed : List Ev) (k : Ctl) : Ctl :=
  { k with
    inQueue := rest
    trace := handed ++ .ran t (k.connState == .logicConnected) live k.exhausted :: k.trace }

end Ctl

/-- What holds when a close for `reason` is carried out: it does not report what was reported, and
    it is silent only when that is the application's wish. -/
structure Shuts (reason : Int) (k : Ctl) : Prop where
  once : 0 ≤ reason → k.idle = false ∨ reports k.trace = 0 ∨ hazard k.trace = true
  silent : reason < 0 → forgiven k.trace = true

/-- The moves of a close, and of the KCP routines around it. -/
inductive CloseMove : Ctl → Ctl → Prop where
  | enter (b : Bracket) (k : Ctl) : CloseMove k { k with brackets := b :: k.brackets }
  | leave (b : Bracket) (k : Ctl) : CloseMove { k with brackets := b :: k.brackets } k
  | output (k : Ctl) :
      CloseMove k (k.log (.outputClose k.brackets.head? k.idle k.exhausted))
  | terminal (k : Ctl) : CloseMove k { k with running := false, trace := .terminal :: k.trace }
  | shut {reason : Int} {k : Ctl} (h : Shuts reason k) : CloseMove k (k.shut reason)

/-- Closing, any number of times. -/
abbrev Closing : Ctl → Ctl → Prop := Relation.ReflTransGen CloseMove

/-- What is enqueued for a login: a success notification, or nothing. -/
def LoginNote (cb : Callbacks) (note : List Ev) : Prop :=
  note = [] ∧ (cb.connectSuccess = false ∨ cb.reconnectSuccess = false)
  ∨ note = [.queued .connectSuccess] ∨ note = [.queued .relinkSuccess]

/-- What a task gives to KCP. -/
def handedBy (connected live : Bool) : Task → List Ev
  | .send msg => if msg ≠ [] ∧ connected ∧ live then [.handed msg] else []
  | _ => []

theorem handedBy_send {msg : List Byte} {connected live : Bool}
    (h : msg ≠ [] ∧ connected = true ∧ live = true) :
    handedBy connected live (.send msg) = [.handed msg] :=
  if_pos h

theorem handedBy_drop {msg : List Byte} {connected live : Bool}
    (h : ¬ (msg ≠ [] ∧ connected = true ∧ live = true)) : handedBy connected live (.send msg) = [] :=
  if_neg h

/-- Everything the net thread can do, apart from starting. -/
inductive Move : Ctl → Ctl → Prop where
  | close {k k' : Ctl} (h : CloseMove k k') : Move k k'
  | noRoom (k : Ctl) : Move k (k.log .noRoom)
  | connecting {k : Ctl} (tcp udp : Int) (h : k.connState = .init ∨ forgiven k.trace = true) :
      Move k ((k.sockets tcp udp).enter .connecting)
  | dialFail (tcp udp : Int) (k : Ctl) : Move k ((k.sockets tcp udp).log .dialFail)
  | connected {k : Ctl} (h : k.connState = .connecting) : Move k (k.enter .connected)
  | login {note : List Ev} {k : Ctl} (h : k.idle = false) (hn : LoginNote k.cb note) :
      Move k (k.login note)
  | loginLost {k : Ctl} (h : k.idle = false) : Move k ((k.login []).log .loginPingClose)
  | lateNote {t : OutTask} {k : Ctl} (h : .loginPingClose ∈ k.trace)
      (ht : t = .connectSuccess ∨ t = .relinkSuccess) : Move k (k.log (.queued t))
  | clamp (k : Ctl) :
      Move k { k with relinkCount := if k.relinkCount < 0 then 0 else k.relinkCount }
  | attempt {k : Ctl} (hr : k.running = true) (hx : k.exhausted = false) (h : k.connState = .init) :
      Move k { k with relinkCount := k.relinkCount + 1, trace := .attempt :: k.trace }
  | take {t : Task} {rest : List Task} (live : Bool) {k : Ctl} (h : k.inQueue = t :: rest) :
      Move k (k.take t rest live (handedBy (k.connState == .logicConnected) live t))

/-- What the application can do: a message is accepted, or something else is asked for. -/
inductive AppMove : Ctl → Ctl → Prop where
  | accept (msg : List Byte) {k : Ctl} (h : k.connState = .logicConnected) :
      AppMove k { k with inQueue := k.inQueue ++ [.send msg], trace := .accepted msg :: k.trace }
  | ask {t : Task} {thread : Bool} {k : Ctl} (ht : ∀ msg, t ≠ .send msg)
      (hth : k.thread = true → thread = true) :
      AppMove k { k with inQueue := k.inQueue ++ [t], thread := thread }

/-- Any number of moves of the net thread. -/
abbrev Path : Ctl → Ctl → Prop := Relation.ReflTransGen Move

/-- Closing is a path. -/
theorem Closing.path {k k' : Ctl} (h : Closing k k') : Path k k' := by
  induction h with
  | refl => exact .refl
  | tail _ hm ih => exact ih.tail (.close hm)

/-- **The invariant rule of paths.** -/
theorem Path.inv {I : Ctl → Prop} (hmove : ∀ k k', Move k k' → I k → I k') {k k' : Ctl}
    (h : Path k k') (hk : I k) : I k' := by
  induction h with
  | refl => exact hk
  | tail _ hm ih => exact hmove _ _ hm ih

/-- **The invariant rule of closing.** -/
theorem Closing.inv {I : Ctl → Prop} (hmove : ∀ k k', CloseMove k k' → I k → I k') {k k' : Ctl}
    (h : Closing k k') (hk : I k) : I k' := by
  induction h with
  | refl => exact hk
  | tail _ hm ih => exact hmove _ _ hm ih

/-! ## What closing keeps -/

/-- The events only grow. -/
theorem CloseMove.suffix {k k' : Ctl} (h : CloseMove k k') : k.trace <:+ k'.trace := by
  cases h with
  | enter | leave => exact List.suffix_refl _
  | output | terminal => exact List.suffix_cons ..
  | shut => exact (List.suffix_cons ..).trans (List.suffix_append ..)

theorem Closing.suffix {k k' : Ctl} (h : Closing k k') : k.trace <:+ k'.trace :=
  h.inv (I := fun j => k.trace <:+ j.trace) (fun _ _ hm hs => hs.trans hm.suffix)
    (List.suffix_refl _)

/-- No close brings a success back. -/
theorem Closing.forgiven {k k' : Ctl} (h : Closing k k') (hk : forgiven k.trace = true) :
    ConnClient.forgiven k'.trace = true := by
  refine h.inv (I := fun j => ConnClient.forgiven j.trace = true) (fun j j' hm hj => ?_) hk
  cases hm with
  | enter | leave | output | terminal => exact hj
  | shut =>
    show ConnClient.forgiven (j.report _ ++ _) = true
    unfold Ctl.report
    split
    · rfl
    · exact hj

end ConnClient
