/-
  `myextension.cpp` — the clients that scripts have, and the frame loop that updates them.

  A script names a client by its address.  `pop_conn_client` looks the address up in `g_connclients`
  before anything is done with it, and `OnUpdateMyExtension` counts through the same vector.  Both are
  run by the main thread: a script runs between two frames, or in a callback, that is, in the middle of
  that loop.  Each client has a net thread of its own.

  What can go wrong with a table of raw pointers is followed over any interleaving (`ExtOk`):

  * a client is never deleted (`connect` would, if `Connect` failed, but `Connect` returns `0`), so no
    address comes back, and what is in the table is there: no step touches an object that is gone;
  * an address passes `pop_conn_client` exactly if `create` returned it and `close` was not called with
    it since;
  * the frame loop is a `Cursor`: a client is updated at most once a frame, and a callback that closes a
    client at a position the loop has passed makes it miss at most one.

  What the clients share besides the table is left out.  `SendUDPBuf`, `OnUdpRead` and `InputToKcp` keep
  their packet in a `static` buffer of the function, one for all clients, so two net threads that handle
  packets at the same time can overwrite each other's.  Here a step of a net thread is one step: packets of
  different clients are handled one after the other.  The table and the frame loop do not depend on it;
  that a client is what it would be by itself (`client_alone`) does.

  A client is created without callbacks, and the eight functions `set_..._cb` register them.  The client by
  itself has its callbacks from the start, so `client_alone` is about scripts that register them before they
  do anything else with it.
-/
import ConnClient.Lib.Cursor
import ConnClient.Client.System

namespace ConnClient

open ConnClient.Lib ConnClient.Ikcp

/-- Where the main thread is. -/
inductive MainPc where
  /-- Between two frames. -/
  | outside
  /-- `i < g_connclients.size()` -/
  | loop (i : Nat)
  /-- `out_queue_.try_dequeue(fun)` in the `Update` of the client at `i`. -/
  | updating (i conn : Nat)
  /-- `fun()` there. -/
  | callback (i conn : Nat)
  deriving DecidableEq

/-- Scripts run between frames and in callbacks. -/
def MainPc.script : MainPc → Bool
  | .outside => true
  | .loop _ => false
  | .updating .. => false
  | .callback .. => true

/-- The extension, with what was done so far. -/
structure Extension where
  gConnclients : List Nat
  /-- The object at an address. -/
  heap : Nat → Option Sys
  main : MainPc
  /-- What `create` returned, in order. -/
  created : List Nat
  /-- What `close` was called with, the last one first. -/
  closed : List Nat
  /-- The clients that were updated in this frame, in order. -/
  updated : List Nat
  /-- How many clients were closed in this frame at positions that were passed. -/
  missed : Nat
  /-- The callbacks that were run, the last one first. -/
  ran : List (Nat × OutTask)

/-- The callbacks of a client, one for each function `set_..._cb`. -/
inductive LuaCallback where
  | logdebug
  | loginfo
  | logerror
  | output
  | disconnect
  | connectsuccess
  | relinksuccess
  | relink

/-- `SetLogDebugCB` and its seven siblings; the log is not modelled. -/
def Callbacks.set : LuaCallback → Callbacks → Callbacks
  | .logdebug, cb => cb
  | .loginfo, cb => cb
  | .logerror, cb => cb
  | .output, cb => { cb with output := true }
  | .disconnect, cb => { cb with disconnect := true }
  | .connectsuccess, cb => { cb with connectSuccess := true }
  | .relinksuccess, cb => { cb with reconnectSuccess := true }
  | .relink, cb => { cb with relink := true }

/-- No callback is registered. -/
def Callbacks.none : Callbacks := ⟨false, false, false, false, false⟩

/-- The functions of the module that take a client. -/
inductive LuaCall where
  | connect (ip : String) (port : BitVec 32) (timeoutMs : Int)
  | close
  | send (msg : List Byte)
  | addRelinkInterval (interval : Int)
  | setMagicNum (magic : BitVec 32)
  /-- `set_logdebug_cb`, …, `set_relink_cb` -/
  | setCb (which : LuaCallback)

/-- Why a step stops: a call of the client does, or there is no object at the address. -/
inductive Fault where
  | client (s : Stop × Client)
  | dangling (conn : Nat)

/-! ## The functions -/

/-- `IsConnectionValid` -/
def isConnectionValid (conn : Nat) (g : List Nat) : Bool := conn != 0 && g.any (· == conn)

/-- `RemoveConnection` -/
def removeConnection (conn : Nat) (g : List Nat) : List Nat := if conn = 0 then g else g.erase conn

/-- `pop_conn_client`; the argument is `none` if it is not a light userdata. -/
def popConnClient (arg : Option Nat) (g : List Nat) : Except String Nat :=
  match arg with
  | none => .error "The first argument must be a valid connection!"
  | some conn => if isConnectionValid conn g then .ok conn else .error "Invalid connection"

/-- A method of the object at `conn` runs. -/
def Extension.method (run : Sys → M Sys) (conn : Nat) (e : Extension) : Except Fault Extension :=
  match e.heap conn with
  | none => .error (.dangling conn)
  | some s =>
    match run s with
    | .ok s' => .ok { e with heap := Function.update e.heap conn (some s') }
    | .error stop => .error (.client stop)

/-- `RemoveConnection` in `lua_connclient_close`. -/
def Extension.closing (conn : Nat) (e : Extension) : Extension :=
  let passed := match e.main with
    | .callback i _ => e.gConnclients.take (i + 1)
    | _ => []
  { e with
    gConnclients := removeConnection conn e.gConnclients
    closed := conn :: e.closed
    missed := if conn ∈ passed then e.missed + 1 else e.missed }

/-- `lua_connclient_close`, past `pop_conn_client`. -/
def Extension.close (conn : Nat) (e : Extension) : Except Fault Extension := do
  .ok ((← e.method (sysStep .close) conn).closing conn)

/-- A callback is registered. -/
def Sys.setCb (which : LuaCallback) (s : Sys) : Sys :=
  { s with client := { s.client with cb := s.client.cb.set which } }

/-- The method that a function of the module calls. -/
def LuaCall.run : LuaCall → Sys → M Sys
  | .connect ip port timeoutMs => sysStep (.connect ip port timeoutMs)
  | .close => sysStep .close
  | .send msg => sysStep (.sendMsg msg)
  | .addRelinkInterval interval => sysStep (.addRelinkInterval interval)
  | .setMagicNum magic => sysStep (.setMagicNum magic)
  | .setCb which => fun s => .ok (s.setCb which)

/-- What a function of the module does with its client. -/
def LuaCall.on : LuaCall → Nat → Extension → Except Fault Extension
  | .close, conn, e => e.close conn
  -- `Connect` returns `0`: the client is not deleted in `lua_connclient_connect`
  | c, conn, e => e.method c.run conn

/-- A client as `lua_connclient_create` hands it out, but for its callbacks. -/
def Sys.created (magic : BitVec 32) (cb : Callbacks) (now : Int) : Sys :=
  let s := Sys.new cb now
  { s with client := { s.client with magic := magic } }

/-- `lua_connclient_create`, where `new` returns `conn`. -/
def Extension.create (magic : BitVec 32) (now : Int) (conn : Nat) (e : Extension) : Extension :=
  { e with
    gConnclients := e.gConnclients ++ [conn]
    heap := Function.update e.heap conn (some (.created magic .none now))
    created := e.created ++ [conn] }

/-- The main thread goes on with `OnUpdateMyExtension`. -/
def Extension.mainStep (e : Extension) : Except Fault Extension :=
  match e.main with
  | .outside => .ok { e with main := .loop 0, updated := [], missed := 0 }
  | .loop i =>
    match e.gConnclients[i]? with
    | some conn => .ok { e with main := .updating i conn, updated := e.updated ++ [conn] }
    | none => .ok { e with main := .outside }
  | .updating i conn =>
    match e.heap conn with
    | none => .error (.dangling conn)
    | some s =>
      match s.client.outQueue with
      | [] => .ok { e with main := .loop (i + 1) }
      | t :: _ => do
        let e ← e.method (sysStep .update) conn
        .ok { e with main := .callback i conn, ran := (conn, t) :: e.ran }
  | .callback i conn => .ok { e with main := .updating i conn }

/-! ## Runs -/

/-- A call of a script, or a step of one of the threads. -/
inductive ExtAct where
  /-- `create`; `new` returns the address. -/
  | create (magic : BitVec 32) (now : Int) (conn : Nat)
  /-- Another function, with its first argument. -/
  | call (c : LuaCall) (arg : Option Nat)
  | main
  | net (conn : Nat) (w : World)

/-- A step of the extension.  An error that `pop_conn_client` raises ends the script's call, and nothing
    else; a script that is not running calls nothing; and where there is no client there is no net thread.
    A net thread is alone in its step, and so with the buffers that the net threads share. -/
def extStep : ExtAct → Extension → Except Fault Extension
  | .create magic now conn, e => .ok (if e.main.script then e.create magic now conn else e)
  | .call c arg, e =>
    if e.main.script then
      match popConnClient arg e.gConnclients with
      | .ok conn => c.on conn e
      | .error _ => .ok e
    else .ok e
  | .main, e => e.mainStep
  | .net conn w, e => if (e.heap conn).isSome then e.method (sysStep (.net w)) conn else .ok e

/-- The extension is loaded. -/
def Extension.loaded : Extension := ⟨[], fun _ => none, .outside, [], [], [], 0, []⟩

/-- `new` returns the address of no object that is there. -/
def Allocates (e : Extension) : ExtAct → Bool
  | .create _ _ conn => conn != 0 && (e.heap conn).isNone
  | _ => true

/-- The states that runs get to. -/
abbrev ExtReachable : Extension → Prop :=
  Reach extStep (· = .loaded) (fun e i => Allocates e i = true)

/-! ## One client of many -/

/-- What is asked of a client when a function of the module is called with it: that the call meets `C`; and
    of a registration, that the client is as it was created, and could have been with any callbacks. -/
def LuaCall.Asks (C : Sys → Act → Prop) (s : Sys) : LuaCall → Prop
  | .connect ip port timeoutMs => C s (.connect ip port timeoutMs)
  | .close => C s .close
  | .send msg => C s (.sendMsg msg)
  | .addRelinkInterval interval => C s (.addRelinkInterval interval)
  | .setMagicNum magic => C s (.setMagicNum magic)
  | .setCb _ => ∃ magic cb now, s = .created magic cb now ∧ ∀ cb, C (.new cb now) (.setMagicNum magic)

/-- The calls of the clients that a step makes all meet `C`. -/
def Meets (C : Sys → Act → Prop) (e : Extension) : ExtAct → Prop
  | .create magic now _ => C (.new .none now) (.setMagicNum magic)
  | .call c arg => ∀ conn s, popConnClient arg e.gConnclients = .ok conn → e.heap conn = some s → c.Asks C s
  | .main => ∀ i conn s, e.main = .updating i conn → e.heap conn = some s → C s .update
  | .net conn w => ∀ s, e.heap conn = some s → C s (.net w)

/-- Without a condition, only registrations ask for something. -/
theorem Meets.always (e : Extension) {i : ExtAct} (hi : ∀ which arg, i ≠ .call (.setCb which) arg) :
    Meets (fun _ _ => True) e i := by
  cases i with
  | create magic now conn => trivial
  | call c arg =>
    intro conn s _ _
    cases c with
    | setCb which => exact absurd rfl (hi which arg)
    | connect | close | send | addRelinkInterval | setMagicNum => trivial
  | main => exact fun _ _ _ _ _ => trivial
  | net conn w => exact fun _ _ => trivial

section Objects

variable {e e' : Extension} {conn p : Nat} {run : Sys → M Sys} {s s' : Sys}

/-- A method that returns changed its object. -/
theorem method_ok (h : e.method run conn = .ok e') :
    ∃ s s', e.heap conn = some s ∧ run s = .ok s'
      ∧ e' = { e with heap := Function.update e.heap conn (some s') } := by
  rw [Extension.method] at h
  split at h
  · nomatch h
  · rename_i s hs
    split at h
    · rename_i s' hs'
      cases h
      exact ⟨s, s', hs, hs', rfl⟩
    · nomatch h

/-- A function of the module that returns made its call, and `close` then took the client out of the table. -/
theorem LuaCall.on_ok {c : LuaCall} (h : c.on conn e = .ok e') :
    ∃ e₁, e.method c.run conn = .ok e₁ ∧ (e' = e₁ ∨ c = .close ∧ e' = e₁.closing conn) := by
  cases c with
  | close =>
    obtain ⟨e₁, h₁, h₂⟩ := bind_eq_ok.mp h
    cases h₂
    exact ⟨e₁, h₁, Or.inr ⟨rfl, rfl⟩⟩
  | connect | send | addRelinkInterval | setMagicNum | setCb => exact ⟨e', h, Or.inl rfl⟩

/-- **A call of the module is a step of its client**, or a registration. -/
theorem LuaCall.run_ok {C : Sys → Act → Prop} {c : LuaCall} (hasks : c.Asks C s) (h : c.run s = .ok s') :
    (∃ act, C s act ∧ sysStep act s = .ok s')
      ∨ ∃ magic cb now, s' = .created magic cb now ∧ C (.new cb now) (.setMagicNum magic) := by
  cases c with
  | setCb which =>
    obtain ⟨magic, cb, now, rfl, hall⟩ := hasks
    cases h
    exact Or.inr ⟨magic, cb.set which, now, rfl, hall _⟩
  | connect | close | send | addRelinkInterval | setMagicNum => exact Or.inl ⟨_, hasks, h⟩

/-- **What a step of the main thread can be**: a frame begins, goes on with a client, ends its turn or ends;
    or a callback of the client whose turn it is begins or is over. -/
theorem mainStep_cases (h : e.mainStep = .ok e') :
    (e.main = .outside ∧ e' = { e with main := .loop 0, updated := [], missed := 0 })
    ∨ (∃ i conn, e.main = .loop i ∧ e.gConnclients[i]? = some conn
        ∧ e' = { e with main := .updating i conn, updated := e.updated ++ [conn] })
    ∨ (∃ i, e.main = .loop i ∧ e.gConnclients.length ≤ i ∧ e' = { e with main := .outside })
    ∨ (∃ i conn, e.main = .updating i conn ∧ e' = { e with main := .loop (i + 1) })
    ∨ (∃ i conn t e₁, e.main = .updating i conn ∧ e.method (sysStep .update) conn = .ok e₁
        ∧ e' = { e₁ with main := .callback i conn, ran := (conn, t) :: e₁.ran })
    ∨ (∃ i conn, e.main = .callback i conn ∧ e' = { e with main := .updating i conn }) := by
  rw [Extension.mainStep] at h
  split at h
  · rename_i hm
    cases h
    exact Or.inl ⟨hm, rfl⟩
  · rename_i i hm
    split at h
    · rename_i conn hi
      cases h
      exact Or.inr (Or.inl ⟨i, conn, hm, hi, rfl⟩)
    · rename_i hi
      cases h
      exact Or.inr (Or.inr (Or.inl ⟨i, hm, List.getElem?_eq_none_iff.mp hi, rfl⟩))
  · rename_i i conn hm
    split at h
    · nomatch h
    · split at h
      · cases h
        exact Or.inr (Or.inr (Or.inr (Or.inl ⟨i, conn, hm, rfl⟩)))
      · rename_i t _ _
        obtain ⟨e₁, h₁, h₂⟩ := bind_eq_ok.mp h
        cases h₂
        exact Or.inr (Or.inr (Or.inr (Or.inr (Or.inl ⟨i, conn, t, e₁, hm, h₁, rfl⟩))))
  · rename_i i conn hm
    cases h
    exact Or.inr (Or.inr (Or.inr (Or.inr (Or.inr ⟨i, conn, hm, rfl⟩))))

/-- **What a step does to the objects**: nothing, a step of one of them, or one is as it is created. -/
theorem extStep_heap {C : Sys → Act → Prop} {i : ExtAct} (hC : Meets C e i) (h : extStep i e = .ok e') :
    e'.heap = e.heap ∨ ∃ conn s', e'.heap = Function.update e.heap conn (some s')
      ∧ ((∃ act s, e.heap conn = some s ∧ C s act ∧ sysStep act s = .ok s')
        ∨ ∃ magic cb now, s' = .created magic cb now ∧ C (.new cb now) (.setMagicNum magic)) := by
  cases i with
  | create magic now conn =>
    rw [extStep, Except.ok.injEq] at h
    split at h
    · cases h
      exact Or.inr ⟨conn, _, rfl, Or.inr ⟨magic, .none, now, rfl, hC⟩⟩
    · exact Or.inl (congrArg Extension.heap h.symm)
  | call c arg =>
    rw [extStep] at h
    split at h
    · split at h
      · rename_i conn hpop
        obtain ⟨e₁, h₁, h₂⟩ := LuaCall.on_ok h
        obtain ⟨s, s', hs, hs', rfl⟩ := method_ok h₁
        have hheap : e'.heap = Function.update e.heap conn (some s') := by
          rcases h₂ with rfl | ⟨-, rfl⟩
          · rfl
          · rfl
        refine Or.inr ⟨conn, s', hheap, ?_⟩
        rcases LuaCall.run_ok (hC conn s hpop hs) hs' with ⟨act, hact, hstep⟩ | hcreated
        · exact Or.inl ⟨act, s, hs, hact, hstep⟩
        · exact Or.inr hcreated
      · cases h
        exact Or.inl rfl
    · cases h
      exact Or.inl rfl
  | main =>
    rcases mainStep_cases h with ⟨-, rfl⟩ | ⟨_, _, -, -, rfl⟩ | ⟨_, -, -, rfl⟩ | ⟨_, _, -, rfl⟩ |
      ⟨i, conn, t, e₁, hm, h₁, rfl⟩ | ⟨_, _, -, rfl⟩
    · exact Or.inl rfl
    · exact Or.inl rfl
    · exact Or.inl rfl
    · exact Or.inl rfl
    · obtain ⟨s, s', hs, hs', rfl⟩ := method_ok h₁
      exact Or.inr ⟨conn, s', rfl, Or.inl ⟨.update, s, hs, hC i conn s hm hs, hs'⟩⟩
    · exact Or.inl rfl
  | net conn w =>
    rw [extStep] at h
    split at h
    · obtain ⟨s, s', hs, hs', rfl⟩ := method_ok h
      exact Or.inr ⟨conn, s', rfl, Or.inl ⟨.net w, s, hs, hC s hs, hs'⟩⟩
    · cases h
      exact Or.inl rfl

end Objects

/-! ## A sample script -/

/-- A world without sockets: every connection fails at once. -/
def noSockets : World := { sampleWorld 2000 with env := { sampleEnv 2000 with dial := fun _ => none } }

/-- The first client fails to connect, and closes itself in the callback that tells it so. -/
def sampleFailure : List ExtAct :=
  .call (.connect "10.0.0.1" 80 3000) (some 8) :: List.replicate 3 (.net 8 noSockets)
    ++ [.main, .main, .main, .call .close (some 8), .main, .main]

/-- Two clients, the first one with a callback for the end of its connection. -/
def sampleScript : List ExtAct :=
  [.create 117 1000 8, .create 117 1000 16, .call (.setCb .disconnect) (some 8)] ++ sampleFailure

/-- The run of a script, if no step stops. -/
def extExec (acts : List ExtAct) : Option Extension := exec extStep Allocates acts .loaded

theorem ExtReachable.of_exec {acts : List ExtAct} {e : Extension} (h : extExec acts = some e) : ExtReachable e :=
  Reach.of_exec (fun _ _ hc => hc) acts (.start rfl) h

/-! ## Every client by itself -/

/-- **A client of the extension is a lone client.**  Whatever scripts, frames and the other clients do, each client
    gets to states that it gets to by itself, under the same conditions on what is asked of it; its callbacks are
    registered before anything else. -/
theorem client_alone {C : Sys → Act → Prop} {e : Extension}
    (h : Reach extStep (· = .loaded) (fun e i => Allocates e i = true ∧ Meets C e i) e) {conn : Nat}
    {s : Sys} (hs : e.heap conn = some s) : Runs C s := by
  induction h generalizing conn s with
  | start h =>
    cases h
    nomatch hs
  | @step e e' i hr hc hstep ih =>
    rcases extStep_heap hc.2 hstep with heq | ⟨p, s', heq, hhow⟩
    · exact ih (heq ▸ hs)
    · rw [heq] at hs
      by_cases hp : conn = p
      · subst hp
        rw [Function.update_self, Option.some.injEq] at hs
        subst hs
        rcases hhow with ⟨act, t, ht, hact, ht'⟩ | ⟨magic, cb, now, rfl, hnew⟩
        · exact .step (ih ht) hact ht'
        · exact .step (.start ⟨cb, now, rfl⟩) hnew rfl
      · rw [Function.update_of_ne hp] at hs
        exact ih hs

/-- A client with one callback that a script registered is a client whose connection failed. -/
theorem client_alone_sample : ∃ s, Reachable s ∧ s.client.connState = .init ∧ s.client.outQueue = [] := by
  let plain : Extension → ExtAct → Bool := fun e i => Allocates e i && match i with
    | .call (.setCb _) _ => false
    | _ => true
  let e₁ := Extension.loaded.create 117 1000 8
  let s₂ := Sys.created 117 (Callbacks.set .disconnect .none) 1000
  let e₂ : Extension := { e₁ with heap := Function.update e₁.heap 8 (some s₂) }
  have hrun : (exec extStep plain sampleFailure e₂).bind (fun e => (e.heap 8).map fun s =>
      (s.client.connState, s.client.outQueue)) = some (.init, []) := by decide
  obtain ⟨e, he, hclient⟩ := Option.bind_eq_some_iff.mp hrun
  obtain ⟨s, hs, hview⟩ := Option.map_eq_some_iff.mp hclient
  obtain ⟨hinit, hq⟩ : s.client.connState = .init ∧ s.client.outQueue = [] := by
    simpa only [Prod.mk.injEq] using hview
  have h₁ : Reach extStep (· = .loaded)
      (fun e i => Allocates e i = true ∧ Meets (fun _ _ => True) e i) e₁ :=
    .step (i := .create 117 1000 8) (.start rfl) ⟨by decide, trivial⟩ rfl
  -- the callback is registered while the client is as it was created
  have h₂ : Reach extStep (· = .loaded)
      (fun e i => Allocates e i = true ∧ Meets (fun _ _ => True) e i) e₂ := by
    refine .step (i := .call (.setCb .disconnect) (some 8)) h₁ ⟨rfl, fun conn s hpop hs => ?_⟩ rfl
    cases hpop
    cases hs
    exact ⟨117, .none, 1000, rfl, fun _ => trivial⟩
  have hreach : Reach extStep (· = .loaded)
      (fun e i => Allocates e i = true ∧ Meets (fun _ _ => True) e i) e := by
    refine Reach.of_exec (c := plain) (fun e i hc => ?_) _ h₂ he
    obtain ⟨halloc, hplain⟩ := Bool.and_eq_true_iff.mp hc
    refine ⟨halloc, Meets.always e fun which arg hi => ?_⟩
    subst hi
    exact Bool.false_ne_true hplain
  exact ⟨s, client_alone hreach hs, hinit, hq⟩

/-! ## The table -/

/-- The client whose turn it is. -/
def MainPc.turn : MainPc → Option Nat
  | .outside => none
  | .loop _ => none
  | .updating _ conn => some conn
  | .callback _ conn => some conn

/-- How far the loop is; between two frames there is none. -/
def Extension.cursor (e : Extension) : Cursor Nat :=
  match e.main with
  | .outside => .start e.gConnclients e.created
  | .loop i => ⟨e.gConnclients, i, e.created, e.updated, e.missed⟩
  | .updating i _ => ⟨e.gConnclients, i + 1, e.created, e.updated, e.missed⟩
  | .callback i _ => ⟨e.gConnclients, i + 1, e.created, e.updated, e.missed⟩

/-- What holds of the extension at any moment. -/
structure ExtOk (e : Extension) : Prop where
  sound : e.cursor.Sound
  table : e.gConnclients = e.created.filter (· ∉ e.closed)
  there : ∀ conn, (e.heap conn).isSome ↔ conn ∈ e.created
  null : 0 ∉ e.created
  gone : ∀ conn ∈ e.closed, conn ∈ e.created
  turn : ∀ conn, e.main.turn = some conn → conn ∈ e.created

section Table

variable {e e' : Extension} {conn p : Nat} {run : Sys → M Sys} {s s' : Sys}

theorem ExtOk.loaded : ExtOk .loaded where
  sound := Cursor.start_sound List.nodup_nil (List.Sublist.refl [])
  table := rfl
  there := fun _ => ⟨fun h => (nomatch h), fun h => (nomatch h)⟩
  null := List.not_mem_nil
  gone := fun _ h => nomatch h
  turn := fun _ h => nomatch h

/-- The log of the loop is what was created, and its list is the table. -/
theorem ExtOk.created_nodup (h : ExtOk e) : e.created.Nodup := by
  have := h.sound.log
  rw [Extension.cursor] at this
  split at this
  all_goals exact this

/-- An address is in the table exactly if it was created and not closed. -/
theorem ExtOk.mem_table (h : ExtOk e) : conn ∈ e.gConnclients ↔ conn ∈ e.created ∧ conn ∉ e.closed := by
  rw [h.table, List.mem_filter, decide_eq_true_eq]

/-- A call of a client changes only the object. -/
theorem ExtOk.method (h : ExtOk e) (hr : e.method run conn = .ok e') :
    ExtOk e' ∧ e'.main = e.main ∧ e'.ran = e.ran ∧ e'.closed = e.closed := by
  obtain ⟨s, s', hs, -, rfl⟩ := method_ok hr
  refine ⟨⟨h.sound, h.table, fun p => ?_, h.null, h.gone, h.turn⟩, rfl, rfl, rfl⟩
  by_cases hp : p = conn
  · subst hp
    show (Function.update e.heap p (some s') p).isSome ↔ p ∈ e.created
    rw [Function.update_self, ← h.there p, hs]
    exact ⟨fun _ => rfl, fun _ => rfl⟩
  · show (Function.update e.heap conn (some s') p).isSome ↔ p ∈ e.created
    rw [Function.update_of_ne hp]
    exact h.there p

/-- `create` adds an element to the list of the loop. -/
theorem create_cursor (magic : BitVec 32) (now : Int) (conn : Nat) (e : Extension) :
    (e.create magic now conn).cursor = e.cursor.push conn := by
  show Extension.cursor _ = Cursor.push conn (Extension.cursor e)
  rw [Extension.cursor, Extension.cursor]
  show (match e.main with | .outside => _ | .loop i => _ | .updating i _ => _ | .callback i _ => _) = _
  cases e.main with
  | outside => rfl
  | loop i => rfl
  | updating i conn => rfl
  | callback i conn => rfl

/-- `close` removes one. -/
theorem closing_cursor (hscript : e.main.script = true) (hconn : conn ≠ 0) :
    (e.closing conn).cursor = e.cursor.drop conn := by
  rw [Extension.cursor, Extension.cursor, Extension.closing, removeConnection, if_neg hconn]
  cases hm : e.main with
  | outside => rfl
  | loop i => rw [hm] at hscript; nomatch hscript
  | updating i c => rw [hm] at hscript; nomatch hscript
  | callback i c => rfl

/-- `create`, with an address that is free. -/
theorem ExtOk.create (h : ExtOk e) {magic : BitVec 32} {now : Int} (hconn : conn ≠ 0)
    (hfree : e.heap conn = none) : ExtOk (e.create magic now conn) := by
  have hnew : conn ∉ e.created := fun hmem => by
    have := (h.there conn).mpr hmem
    rw [hfree] at this
    nomatch this
  have hopen : conn ∉ e.closed := fun hmem => hnew (h.gone conn hmem)
  refine ⟨?_, ?_, fun p => ?_, ?_, fun p hp => ?_, fun p hp => ?_⟩
  · rw [create_cursor]
    refine h.sound.push ?_
    rw [Extension.cursor]
    split
    all_goals exact hnew
  · show e.gConnclients ++ [conn] = (e.created ++ [conn]).filter (· ∉ e.closed)
    have hself : [conn].filter (· ∉ e.closed) = [conn] := by simp [hopen]
    rw [List.filter_append, ← h.table, hself]
  · show (Function.update e.heap conn _ p).isSome ↔ p ∈ e.created ++ [conn]
    by_cases hp : p = conn
    · subst hp
      rw [Function.update_self]
      exact ⟨fun _ => List.mem_append_right _ (List.mem_singleton_self p), fun _ => rfl⟩
    · rw [Function.update_of_ne hp, h.there p, List.mem_append, List.mem_singleton]
      exact ⟨Or.inl, fun hmem => hmem.resolve_right hp⟩
  · intro hzero
    rcases List.mem_append.mp hzero with hold | hself
    · exact h.null hold
    · exact hconn (List.mem_singleton.mp hself).symm
  · exact List.mem_append_left _ (h.gone p hp)
  · exact List.mem_append_left _ (h.turn p hp)

/-- `close`, with a client of the table. -/
theorem ExtOk.closing (h : ExtOk e) (hscript : e.main.script = true) (hmem : conn ∈ e.gConnclients) :
    ExtOk (e.closing conn) := by
  have hcreated := (h.mem_table.mp hmem).1
  have hconn : conn ≠ 0 := fun hzero => h.null (hzero ▸ hcreated)
  refine ⟨?_, ?_, h.there, h.null, fun p hp => ?_, h.turn⟩
  · rw [closing_cursor hscript hconn]
    exact h.sound.drop
  · show removeConnection conn e.gConnclients = e.created.filter (· ∉ conn :: e.closed)
    have hnodup : e.gConnclients.Nodup := h.table ▸ h.created_nodup.filter _
    rw [removeConnection, if_neg hconn, hnodup.erase_eq_filter, h.table, List.filter_filter]
    refine List.filter_congr fun p _ => ?_
    rw [Bool.eq_iff_iff]
    simp only [Bool.and_eq_true, bne_iff_ne, ne_eq, decide_eq_true_eq, List.mem_cons, not_or]
  · rcases List.mem_cons.mp hp with rfl | hp
    · exact hcreated
    · exact h.gone p hp

/-- What `pop_conn_client` lets through. -/
theorem popConnClient_ok {arg : Option Nat} {g : List Nat} :
    popConnClient arg g = .ok conn ↔ arg = some conn ∧ conn ≠ 0 ∧ conn ∈ g := by
  cases arg with
  | none => exact ⟨fun h => (nomatch h), fun h => (nomatch h.1)⟩
  | some p =>
    have hvalid : isConnectionValid p g = true ↔ p ≠ 0 ∧ p ∈ g := by
      rw [isConnectionValid, Bool.and_eq_true, bne_iff_ne, List.any_beq', List.contains_iff_mem]
    show (if isConnectionValid p g then _ else _) = _ ↔ _
    constructor
    · intro h
      split at h
      · rename_i hv
        cases h
        exact ⟨rfl, hvalid.mp hv⟩
      · nomatch h
    · rintro ⟨heq, hv⟩
      cases heq
      rw [if_pos (hvalid.mpr hv)]

/-- A function of the module. -/
theorem ExtOk.on (h : ExtOk e) {c : LuaCall} (hscript : e.main.script = true) (hmem : conn ∈ e.gConnclients)
    (hr : c.on conn e = .ok e') : ExtOk e' := by
  obtain ⟨e₁, h₁, h₂⟩ := LuaCall.on_ok hr
  obtain ⟨hok, hmain, -, hclosed⟩ := h.method h₁
  rcases h₂ with rfl | ⟨-, rfl⟩
  · exact hok
  · obtain ⟨s, s', -, -, rfl⟩ := method_ok h₁
    exact hok.closing hscript hmem

/-- The main thread. -/
theorem ExtOk.mainStep (h : ExtOk e) (hr : e.mainStep = .ok e') : ExtOk e' := by
  have hsound := h.sound
  rcases mainStep_cases hr with ⟨hm, rfl⟩ | ⟨i, conn, hm, hi, rfl⟩ | ⟨i, hm, hi, rfl⟩ |
    ⟨i, conn, hm, rfl⟩ | ⟨i, conn, t, e₁, hm, h₁, rfl⟩ | ⟨i, conn, hm, rfl⟩
  · rw [Extension.cursor, hm] at hsound
    exact ⟨hsound, h.table, h.there, h.null, h.gone, fun _ hp => nomatch hp⟩
  · rw [Extension.cursor, hm] at hsound
    refine ⟨hsound.meet hi, h.table, h.there, h.null, h.gone, fun p hp => ?_⟩
    cases hp
    exact (h.mem_table.mp (List.mem_of_getElem? hi)).1
  · refine ⟨Cursor.start_sound h.created_nodup ?_, h.table, h.there, h.null, h.gone, fun _ hp => nomatch hp⟩
    show e.gConnclients.Sublist e.created
    rw [h.table]
    exact List.filter_sublist
  · rw [Extension.cursor, hm] at hsound
    exact ⟨hsound, h.table, h.there, h.null, h.gone, fun _ hp => nomatch hp⟩
  · obtain ⟨hok, hmain, -, -⟩ := h.method h₁
    have hsound₁ := hok.sound
    rw [Extension.cursor, hmain, hm] at hsound₁
    refine ⟨hsound₁, hok.table, hok.there, hok.null, hok.gone, fun p hp => hok.turn p ?_⟩
    rw [hmain, hm]
    exact hp
  · rw [Extension.cursor, hm] at hsound
    refine ⟨hsound, h.table, h.there, h.null, h.gone, fun p hp => h.turn p ?_⟩
    rw [hm]
    exact hp

/-- **Every step** keeps it. -/
theorem ExtOk.step (h : ExtOk e) {i : ExtAct} (hc : Allocates e i = true) (hr : extStep i e = .ok e') :
    ExtOk e' := by
  cases i with
  | create magic now conn =>
    obtain ⟨hconn, hfree⟩ := Bool.and_eq_true_iff.mp hc
    rw [extStep, Except.ok.injEq] at hr
    split at hr
    · cases hr
      exact h.create (bne_iff_ne.mp hconn) (Option.isNone_iff_eq_none.mp hfree)
    · exact hr ▸ h
  | call c arg =>
    rw [extStep] at hr
    split at hr
    · rename_i hscript
      split at hr
      · rename_i conn hpop
        exact h.on hscript (popConnClient_ok.mp hpop).2.2 hr
      · cases hr
        exact h
    · cases hr
      exact h
  | main => exact h.mainStep hr
  | net conn w =>
    rw [extStep] at hr
    split at hr
    · exact (h.method hr).1
    · cases hr
      exact h

/-- A method of an object that is there may stop, but not for want of an object. -/
theorem method_there (h : (e.heap conn).isSome) : e.method run conn ≠ .error (.dangling p) := by
  obtain ⟨s, hs⟩ := Option.isSome_iff_exists.mp h
  rw [Extension.method, hs]
  intro hr
  dsimp only at hr
  split at hr
  · nomatch hr
  · nomatch hr

/-- A function of the module goes no further than its method. -/
theorem LuaCall.on_there {c : LuaCall} (h : (e.heap conn).isSome) : c.on conn e ≠ .error (.dangling p) := by
  intro hr
  have hmethod : e.method c.run conn = .error (.dangling p) := by
    cases c with
    | close =>
      rw [LuaCall.on, Extension.close] at hr
      cases hm : e.method (sysStep .close) conn with
      | ok e₁ => rw [hm] at hr; nomatch hr
      | error fault =>
        rw [hm] at hr
        cases hr
        exact hm
    | connect | send | addRelinkInterval | setMagicNum | setCb => exact hr
  exact method_there h hmethod

/-- **No step touches an object that is not there.** -/
theorem ExtOk.never_dangling (h : ExtOk e) (i : ExtAct) : extStep i e ≠ .error (.dangling p) := by
  cases i with
  | create magic now conn => intro hr; nomatch hr
  | call c arg =>
    rw [extStep]
    split
    · split
      · rename_i conn hpop
        have hmem := h.mem_table.mp (popConnClient_ok.mp hpop).2.2
        exact LuaCall.on_there ((h.there conn).mpr hmem.1)
      · intro hr; nomatch hr
    · intro hr; nomatch hr
  | main =>
    intro hr
    rw [extStep, Extension.mainStep] at hr
    split at hr
    · nomatch hr
    · split at hr
      · nomatch hr
      · nomatch hr
    · rename_i i conn hm
      have hthere := (h.there conn).mpr (h.turn conn (by rw [hm]; rfl))
      split at hr
      · rename_i hnone
        rw [hnone] at hthere
        nomatch hthere
      · split at hr
        · nomatch hr
        · cases hmeth : e.method (sysStep .update) conn with
          | ok e₁ => rw [hmeth] at hr; nomatch hr
          | error fault =>
            rw [hmeth] at hr
            cases hr
            exact method_there hthere hmeth
    · nomatch hr
  | net conn w =>
    rw [extStep]
    split
    · rename_i hthere
      exact method_there hthere
    · intro hr; nomatch hr

/-- The callbacks of a client that were run. -/
def Extension.ranFor (e : Extension) (conn : Nat) : List (Nat × OutTask) := e.ran.filter (·.1 = conn)

/-- **A step of any thread** leaves a closed client closed and, outside its own `Update`, runs none of its
    callbacks. -/
theorem ExtOk.silent (h : ExtOk e) (hclosed : conn ∈ e.closed) (hturn : e.main.turn ≠ some conn) {i : ExtAct}
    (hr : extStep i e = .ok e') :
    conn ∈ e'.closed ∧ e'.main.turn ≠ some conn ∧ e'.ranFor conn = e.ranFor conn := by
  cases i with
  | create magic now conn' =>
    rw [extStep, Except.ok.injEq] at hr
    subst hr
    split
    · exact ⟨hclosed, hturn, rfl⟩
    · exact ⟨hclosed, hturn, rfl⟩
  | call c arg =>
    rw [extStep] at hr
    split at hr
    · split at hr
      · obtain ⟨e₁, h₁, h₂⟩ := LuaCall.on_ok hr
        obtain ⟨s, s', -, -, rfl⟩ := method_ok h₁
        rcases h₂ with rfl | ⟨-, rfl⟩
        · exact ⟨hclosed, hturn, rfl⟩
        · exact ⟨List.mem_cons_of_mem _ hclosed, hturn, rfl⟩
      · cases hr
        exact ⟨hclosed, hturn, rfl⟩
    · cases hr
      exact ⟨hclosed, hturn, rfl⟩
  | main =>
    rcases mainStep_cases hr with ⟨-, rfl⟩ | ⟨i, p, hm, hi, rfl⟩ | ⟨i, -, -, rfl⟩ |
      ⟨i, p, -, rfl⟩ | ⟨i, p, t, e₁, hm, h₁, rfl⟩ | ⟨i, p, hm, rfl⟩
    · exact ⟨hclosed, (fun heq => nomatch heq), rfl⟩
    · -- the client that is next is in the table, so it is not closed
      refine ⟨hclosed, fun heq => ?_, rfl⟩
      cases heq
      exact (h.mem_table.mp (List.mem_of_getElem? hi)).2 hclosed
    · exact ⟨hclosed, (fun heq => nomatch heq), rfl⟩
    · exact ⟨hclosed, (fun heq => nomatch heq), rfl⟩
    · obtain ⟨s, s', -, -, rfl⟩ := method_ok h₁
      rw [hm] at hturn
      have hne : p ≠ conn := fun heq => hturn (congrArg some heq)
      refine ⟨hclosed, hturn, ?_⟩
      rw [Extension.ranFor, List.filter_cons_of_neg (by simpa using hne)]
      rfl
    · rw [hm] at hturn
      exact ⟨hclosed, hturn, rfl⟩
  | net p w =>
    rw [extStep] at hr
    split at hr
    · obtain ⟨s, s', -, -, rfl⟩ := method_ok hr
      exact ⟨hclosed, hturn, rfl⟩
    · cases hr
      exact ⟨hclosed, hturn, rfl⟩

end Table

theorem ExtReachable.ok {e : Extension} (h : ExtReachable e) : ExtOk e :=
  h.inv (fun _ hs => hs ▸ .loaded) fun _ _ _ _ hs hc hstep => hs.step hc hstep

/-- **Handles.**  `create` never returns an address twice; `pop_conn_client` lets an address through exactly if it
    was created and not closed since; and no call, callback or thread ever touches a client that is gone. -/
theorem handles_sound {e : Extension} (h : ExtReachable e) :
    e.created.Nodup
      ∧ (∀ arg conn, popConnClient arg e.gConnclients = .ok conn ↔
          arg = some conn ∧ conn ∈ e.created ∧ conn ∉ e.closed)
      ∧ ∀ i conn, extStep i e ≠ .error (.dangling conn) := by
  have hok := ExtReachable.ok h
  refine ⟨hok.created_nodup, fun arg conn => ?_, fun i _ => hok.never_dangling i⟩
  rw [popConnClient_ok, hok.mem_table]
  constructor
  · rintro ⟨harg, -, hmem⟩
    exact ⟨harg, hmem⟩
  · rintro ⟨harg, hmem⟩
    exact ⟨harg, fun hzero => hok.null (hzero ▸ hmem.1), hmem⟩

/-- The second client of the sample script may be used, the first one may not. -/
theorem handles_sound_sample : ∃ e : Extension, ExtReachable e ∧ popConnClient (some 16) e.gConnclients = .ok 16
    ∧ popConnClient (some 8) e.gConnclients ≠ .ok 8 := by
  have hrun : (extExec sampleScript).map (fun e => (e.created, e.closed)) = some ([8, 16], [8]) := by decide
  obtain ⟨e, he, hview⟩ := Option.map_eq_some_iff.mp hrun
  obtain ⟨hcreated, hclosed⟩ : e.created = [8, 16] ∧ e.closed = [8] := by simpa only [Prod.mk.injEq] using hview
  have hreach := ExtReachable.of_exec he
  have hpop := (handles_sound hreach).2.1
  rw [hcreated, hclosed] at hpop
  exact ⟨e, hreach, (hpop _ _).mpr ⟨rfl, by decide⟩, fun heq => absurd ((hpop _ _).mp heq).2.2 (by decide)⟩

/-- **A frame.**  At every turn of the loop, no client was updated twice, those that were updated come in the order of
    their creation, and those still ahead were not updated; and when the loop ends, at most `missed` of the clients
    in the table were not updated in it: the number of clients that callbacks closed behind the loop. -/
theorem frame_updates {e : Extension} (h : ExtReachable e) {i : Nat} (hm : e.main = .loop i) :
    e.updated.Nodup ∧ e.updated.Sublist e.created
      ∧ (∀ conn ∈ e.gConnclients.drop i, conn ∉ e.updated)
      ∧ (e.gConnclients.length ≤ i → (e.gConnclients.filter (· ∉ e.updated)).length ≤ e.missed) := by
  have hsound := (ExtReachable.ok h).sound
  rw [Extension.cursor, hm] at hsound
  refine ⟨hsound.once, ?_, fun _ hmem => hsound.ahead hmem, hsound.over⟩
  exact (List.sublist_append_left ..).trans hsound.order

/-- The first client closes itself in its callback, and the second one is missed: the bound is met. -/
theorem frame_updates_missed : ∃ e, ExtReachable e ∧ e.main = .loop 1 ∧ e.gConnclients = [16]
    ∧ e.updated = [8] ∧ (e.gConnclients.filter (· ∉ e.updated)).length = e.missed
    ∧ (e.gConnclients.filter (· ∉ e.updated)).length ≤ e.missed := by
  have hrun : (extExec sampleScript).map (fun e => (e.main, e.gConnclients, e.updated, e.missed))
      = some (.loop 1, [16], [8], 1) := by decide
  obtain ⟨e, he, hview⟩ := Option.map_eq_some_iff.mp hrun
  obtain ⟨hm, hg, hu, hmissed⟩ : e.main = .loop 1 ∧ e.gConnclients = [16] ∧ e.updated = [8] ∧ e.missed = 1 := by
    simpa only [Prod.mk.injEq] using hview
  have hreach := ExtReachable.of_exec he
  refine ⟨e, hreach, hm, hg, hu, ?_, (frame_updates hreach hm).2.2.2 ?_⟩
  · rw [hg, hu, hmissed]
    decide
  · rw [hg]
    decide

/-- **A closed client is silent**: from the moment on at which it is closed and not in the middle of its own `Update`,
    no callback of it is run, whatever its net thread still puts into `out_queue_`. -/
theorem closed_silent {e e' : Extension} (h : ExtReachable e) {conn : Nat} (hclosed : conn ∈ e.closed)
    (hturn : e.main.turn ≠ some conn)
    (h' : Reach extStep (· = e) (fun e i => Allocates e i = true) e') : e'.ranFor conn = e.ranFor conn := by
  have hkept : ExtOk e' ∧ conn ∈ e'.closed ∧ e'.main.turn ≠ some conn ∧ e'.ranFor conn = e.ranFor conn := by
    refine h'.inv (I := fun e' => ExtOk e' ∧ conn ∈ e'.closed ∧ e'.main.turn ≠ some conn
      ∧ e'.ranFor conn = e.ranFor conn) (fun s hs => ?_) fun s s' i _ hs hc hstep => ?_
    · subst hs
      exact ⟨ExtReachable.ok h, hclosed, hturn, rfl⟩
    · obtain ⟨hok, hcl, htu, hran⟩ := hs
      obtain ⟨hcl', htu', hran'⟩ := hok.silent hcl htu hstep
      exact ⟨hok.step hc hstep, hcl', htu', hran'.trans hran⟩
  exact hkept.2.2.2

/-- After the sample script another frame runs, and the net thread of the closed client goes on. -/
theorem closed_silent_sample : ∃ e e' : Extension, 8 ∈ e.closed ∧ e.main = .loop 1 ∧ e'.main = .loop 1
    ∧ e'.updated = [16] ∧ e'.ranFor 8 = e.ranFor 8 := by
  have hrun : (extExec sampleScript).bind (fun e =>
      (exec extStep Allocates ([.net 8 noSockets] ++ List.replicate 4 .main) e).map fun e' =>
        (e.main, e.closed, e'.main, e'.updated)) = some (.loop 1, [8], .loop 1, [16]) := by decide
  obtain ⟨e, he, hmore⟩ := Option.bind_eq_some_iff.mp hrun
  obtain ⟨e', he', hview⟩ := Option.map_eq_some_iff.mp hmore
  obtain ⟨hm, hclosed, hm', hu⟩ : e.main = .loop 1 ∧ e.closed = [8] ∧ e'.main = .loop 1 ∧ e'.updated = [16] := by
    simpa only [Prod.mk.injEq] using hview
  have hmem : 8 ∈ e.closed := by rw [hclosed]; exact List.mem_singleton_self 8
  have hturn : e.main.turn ≠ some 8 := by rw [hm]; exact fun heq => nomatch heq
  exact ⟨e, e', hmem, hm, hm', hu, closed_silent (ExtReachable.of_exec he) hmem hturn
    (Reach.of_exec (fun _ _ hc => hc) _ (.start rfl) he')⟩

end ConnClient
