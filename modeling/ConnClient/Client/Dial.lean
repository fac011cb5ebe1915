/-
  `conn_client.cpp`, `socket_api.cpp` — what `InnerConnect` makes of each system call.

  `createConnect` of the model is given the descriptor that `CreateConnect` ends up with.  Here the
  function is taken apart: resolving the address, creating the socket, making it non-blocking, and
  `connect`, each with its own outcome (`DialCalls`), and `InnerConnect` with its result and with the
  descriptors it created and those it closed on the way (`innerConnectCalls`).  That is the same
  `InnerConnect` (`innerConnectCalls_client`).

  `connect_ex` returns a `bool`, and `CreateConnect` compares it with `-1`.  So a `connect` that fails
  is taken for one that succeeded, whatever its `errno`; all the other failures are seen and undone.
  Undoing them is an `InnerClose`, and one that is terminal flushes the session before it closes the
  sockets: a send that fails there closes again, and that close finds a session it must not release.

  So there are two things that can go wrong, and `FailuresSeen` names both by what the system calls
  and the sends come to: every `connect` that is reached connects, and the close after any other
  failure comes back (`ComesBack`).  That a close comes back exactly then is shown in two steps:

    * inside a KCP routine, with the relinks used up, no close comes back at all
      (`innerClose_inRoutine`), so outputs that come back have closed nothing (`playOutputs_through`);
    * outputs that close nothing leave the sockets, the session and the open routines alone
      (`Untouched`), so the close goes on as if there had been no flush (`innerClose_undoes`).
-/
import ConnClient.Client.Reasons
import ConnClient.Client.Release
import ConnClient.Client.Depth

namespace ConnClient

open ConnClient.Lib ConnClient.Ikcp

/-! ## The system calls -/

/-- An entry of the list that `getaddrinfo` makes. -/
structure AddrInfo where
  /-- `sa_family == AF_INET` -/
  inet : Bool
  addr : List Byte

/-- What the system calls of one `CreateConnect` come to. -/
structure DialCalls where
  /-- `getaddrinfo`: its list, or nothing for an error. -/
  getaddrinfo : Option (List AddrInfo)
  /-- `socket`: a descriptor, or nothing for an error. -/
  socket : Option Nat
  /-- The socket could be made non-blocking. -/
  nonblocking : Bool
  /-- `connect` to an address: nothing for success, else `errno`. -/
  connect : List Byte → Option Int

def einprogress : Int := 115

/-- `SocketAPI::GetHostAddressV4`: `0` and the address, or `-1`. -/
def getHostAddressV4 (servinfo : Option (List AddrInfo)) : Int × List Byte :=
  match servinfo.bind (List.find? AddrInfo.inet) with
  | some p => (0, p.addr)
  | none => (-1, [])

/-- `SocketAPI::connect_ex` -/
def connectEx (d : DialCalls) (addr : List Byte) : Bool := (d.connect addr).isNone

/-- What `CreateConnect` returns, the descriptors it created and those it closed itself.  A
    descriptor that is neither returned nor closed would be lost. -/
structure SocketCalls where
  sock : Int
  created : List Int
  dropped : List Int
  deriving DecidableEq

/-- `ConnClientPrivate::CreateConnect` -/
def createConnectCalls (d : DialCalls) : SocketCalls :=
  let (ret, addr) := getHostAddressV4 d.getaddrinfo
  if ret ≠ 0 then ⟨-1, [], []⟩
  else match d.socket with
    | none => ⟨-1, [], []⟩
    | some sock =>
      if d.nonblocking = false then ⟨-1, [sock], [sock]⟩
      else
        -- a `bool` as an `int`
        let ret : Int := if connectEx d addr then 1 else 0
        if ret = -1 then
          if d.connect addr = some einprogress then ⟨sock, [sock], []⟩ else ⟨-1, [sock], [sock]⟩
        else ⟨sock, [sock], []⟩

/-- What `InnerConnect` returns, and what became of the descriptors. -/
structure Dialed where
  ret : Int
  client : Client
  created : List Int
  dropped : List Int

/-- A `CreateConnect` was called. -/
def Client.dialed (t : SocketCalls) (c : Client) : Client :=
  { c with
    ndial := c.ndial + 1
    opened := (if t.sock = -1 then [] else [t.sock]) ++ c.opened }

/-- `InnerConnect` as far as the TCP socket. -/
def dialTcp (tcp : DialCalls) (ip : String) (port : BitVec 32) (timeoutMs : Int) (c : Client) : Client :=
  let c := { c with
    ip := ip
    port := port.setWidth 16
    connectTimeoutMs := clampTimeout c.connectTimeoutMs timeoutMs }
  { c.dialed (createConnectCalls tcp) with tcpSock := (createConnectCalls tcp).sock }

/-- Then the UDP socket. -/
def dialUdp (udp : DialCalls) (c : Client) : Client :=
  { c.dialed (createConnectCalls udp) with udpSock := (createConnectCalls udp).sock }

/-- `ConnClientPrivate::InnerConnect` -/
def innerConnectCalls (cx : Cx) (tcp udp : DialCalls) (ip : String) (port : BitVec 32)
    (timeoutMs : Int) (c : Client) : M Dialed :=
  let t := createConnectCalls tcp
  let c := dialTcp tcp ip port timeoutMs c
  if c.tcpSock = -1 then do
    .ok ⟨-1, ← cx.close clientConnectError (c.log .dialFail), t.created, t.dropped⟩
  else
    let u := createConnectCalls udp
    let c := dialUdp udp c
    if c.udpSock = -1 then do
      .ok ⟨-1, ← cx.close clientConnectError (c.log .dialFail), t.created ++ u.created,
        t.dropped ++ u.dropped⟩
    else .ok ⟨0, setConnState cx.env .connecting c, t.created ++ u.created, t.dropped ++ u.dropped⟩

/-! ## The steps that can fail -/

/-- The address is resolved, the socket created and non-blocking. -/
def DialCalls.Opens (d : DialCalls) : Prop :=
  (getHostAddressV4 d.getaddrinfo).1 = 0 ∧ d.socket.isSome ∧ d.nonblocking = true

/-- The connection is made or under way. -/
def DialCalls.Connects (d : DialCalls) : Prop :=
  d.connect (getHostAddressV4 d.getaddrinfo).2 = none ∨
    d.connect (getHostAddressV4 d.getaddrinfo).2 = some einprogress

instance (d : DialCalls) : Decidable d.Opens := inferInstanceAs (Decidable (_ ∧ _ ∧ _))

instance (d : DialCalls) : Decidable d.Connects := inferInstanceAs (Decidable (_ ∨ _))

/-- Every step succeeds. -/
def AllSucceed (tcp udp : DialCalls) : Prop :=
  (tcp.Opens ∧ tcp.Connects) ∧ udp.Opens ∧ udp.Connects

/-- **A socket, whatever `connect` says.** -/
theorem createConnectCalls_opens {d : DialCalls} (h : d.Opens) :
    ∃ sock : Nat, d.socket = some sock ∧ createConnectCalls d = ⟨sock, [(sock : Int)], []⟩ := by
  obtain ⟨hret, hsock, hmode⟩ := h
  obtain ⟨sock, hsock⟩ := Option.isSome_iff_exists.mp hsock
  refine ⟨sock, hsock, ?_⟩
  rw [createConnectCalls, hsock, hmode]
  generalize getHostAddressV4 d.getaddrinfo = r at hret ⊢
  obtain ⟨ret, addr⟩ := r
  dsimp only at hret ⊢
  rw [if_neg (fun h => h hret), if_neg Bool.false_ne_true.symm]
  -- neither value of a `bool` is `-1`
  refine if_neg ?_
  split
  · decide
  · decide

/-- A failure before that is seen, and nothing stays open. -/
theorem createConnectCalls_fails {d : DialCalls} (h : ¬ d.Opens) :
    ∃ socks, createConnectCalls d = ⟨-1, socks, socks⟩ := by
  rw [createConnectCalls]
  by_cases hret : (getHostAddressV4 d.getaddrinfo).1 = 0
  · cases hsock : d.socket with
    | none =>
      refine ⟨[], ?_⟩
      dsimp only
      rw [if_neg (fun hne => hne hret)]
    | some sock =>
      have hmode : d.nonblocking = false := by
        by_contra hmode
        exact h ⟨hret, by rw [hsock]; rfl, eq_true_of_ne_false hmode⟩
      refine ⟨[(sock : Int)], ?_⟩
      dsimp only
      rw [if_neg (fun hne => hne hret), if_pos hmode]
  · exact ⟨[], if_pos hret⟩

theorem sock_opens {d : DialCalls} (h : d.Opens) : (createConnectCalls d).sock ≠ -1 := by
  obtain ⟨sock, -, hd⟩ := createConnectCalls_opens h
  rw [hd]
  show (sock : Int) ≠ -1
  omega

theorem sock_fails {d : DialCalls} (h : ¬ d.Opens) : (createConnectCalls d).sock = -1 := by
  obtain ⟨socks, hd⟩ := createConnectCalls_fails h
  rw [hd]

/-! ## The same `InnerConnect` -/

/-- The descriptor the model's `createConnect` is given. -/
def DialCalls.result (d : DialCalls) : Option Nat := if d.Opens then d.socket else none

theorem createConnect_calls {env : Env} {c : Client} {d : DialCalls}
    (h : env.dial c.ndial = d.result) :
    createConnect env c = ((createConnectCalls d).sock, c.dialed (createConnectCalls d)) := by
  rw [createConnect, Client.dialed, h, DialCalls.result]
  by_cases hopens : d.Opens
  · obtain ⟨sock, hsock, hd⟩ := createConnectCalls_opens hopens
    have hne : (sock : Int) ≠ -1 := by omega
    rw [if_pos hopens, hsock, hd]
    dsimp only
    rw [if_neg hne]
    rfl
  · obtain ⟨socks, hd⟩ := createConnectCalls_fails hopens
    rw [if_neg hopens, hd]
    rfl

theorem connectUdp_calls {cx : Cx} {c : Client} {udp : DialCalls}
    (h : cx.env.dial c.ndial = udp.result) :
    connectUdp cx c = if (dialUdp udp c).udpSock = -1
      then cx.close clientConnectError ((dialUdp udp c).log .dialFail)
      else .ok (setConnState cx.env .connecting (dialUdp udp c)) := by
  rw [connectUdp, createConnect_calls h]
  rfl

theorem innerConnect_calls {cx : Cx} {c : Client} {tcp : DialCalls}
    (h : cx.env.dial c.ndial = tcp.result) (ip : String) (port : BitVec 32) (timeoutMs : Int) :
    innerConnect cx ip port timeoutMs c = if (dialTcp tcp ip port timeoutMs c).tcpSock = -1
      then cx.close clientConnectError ((dialTcp tcp ip port timeoutMs c).log .dialFail)
      else connectUdp cx (dialTcp tcp ip port timeoutMs c) := by
  let c₁ : Client := { c with
    ip := ip
    port := port.setWidth 16
    connectTimeoutMs := clampTimeout c.connectTimeoutMs timeoutMs }
  have hdial : cx.env.dial c₁.ndial = tcp.result := h
  rw [innerConnect]
  dsimp only
  rw [createConnect_calls hdial]
  rfl

/-- **The client is the model's**, when its two descriptors are what these calls come to. -/
theorem innerConnectCalls_client {cx : Cx} {tcp udp : DialCalls} {c : Client}
    (htcp : cx.env.dial c.ndial = tcp.result) (hudp : cx.env.dial (c.ndial + 1) = udp.result)
    (ip : String) (port : BitVec 32) (timeoutMs : Int) :
    (innerConnectCalls cx tcp udp ip port timeoutMs c).map Dialed.client
      = innerConnect cx ip port timeoutMs c := by
  have hmap : ∀ (r : M Client) (f : Client → Dialed), (∀ c, (f c).client = c) →
      (do .ok (f (← r)) : M Dialed).map Dialed.client = r := by
    intro r f hf
    cases r with
    | error e => rfl
    | ok c => exact congrArg Except.ok (hf c)
  have hnext : cx.env.dial (dialTcp tcp ip port timeoutMs c).ndial = udp.result := hudp
  rw [innerConnect_calls htcp, innerConnectCalls]
  dsimp only
  by_cases ht : (dialTcp tcp ip port timeoutMs c).tcpSock = -1
  · rw [if_pos ht, if_pos ht]
    exact hmap _ _ fun _ => rfl
  rw [if_neg ht, if_neg ht, connectUdp_calls hnext]
  by_cases hu : (dialUdp udp (dialTcp tcp ip port timeoutMs c)).udpSock = -1
  · rw [if_pos hu, if_pos hu]
    exact hmap _ _ fun _ => rfl
  · rw [if_neg hu, if_neg hu]
    rfl

/-! ## The close that undoes a failure -/

variable {env : Env} {n : Nat} {c c' : Client}

/-- A flush leaves a block behind. -/
theorem sessionFlush_live {cx : Cx} {reason : Int} (hlive : c.live = true)
    (hr : sessionFlush cx reason c = .ok c') : c'.live = true := by
  rw [sessionFlush] at hr
  cases hk : c.kcpSession.kcp with
  | none =>
    rw [Client.live, KcpSession.isNull, hk] at hlive
    cases hlive
  | some kcp =>
    rw [hk] at hr
    obtain ⟨c₁, -, h₂⟩ := bind_eq_ok.mp hr
    cases h₂
    rfl

/-- Inside a KCP routine, with the relinks used up, no close comes back: it would release the session
    the routine is working on. -/
theorem innerClose_inRoutine (hx : c.exhausted = true) (hlive : c.live = true)
    (hb : c.brackets ≠ []) (reason : Int) (c' : Client) : innerClose env n reason c ≠ .ok c' := by
  intro hr
  cases n with
  | zero => cases hr
  | succ n =>
    have hreason : closeReason reason c = clientConnectTimeout := if_pos hx
    change innerCloseBody env _ (reason, c) = .ok c' at hr
    rw [innerCloseBody] at hr
    dsimp only at hr
    rw [hreason, if_pos (by decide)] at hr
    obtain ⟨c₁, h₁, -⟩ := bind_eq_ok.mp hr
    obtain ⟨c₂, h₂, h₃⟩ := bind_eq_ok.mp h₁
    obtain ⟨c₃, h₃, -⟩ := bind_eq_ok.mp h₃
    -- a flush leaves a block behind, and the routine it was called in is still open
    have hlive₂ := sessionFlush_live hlive h₂
    have hflush := sessionFlush_safe (innerClose_safe env n) clientConnectTimeout c
    rw [show sessionFlush (.of env n) clientConnectTimeout c = .ok c₂ from h₂] at hflush
    cases hflush with
    | returned hb₂ _ =>
      have hb₂ : c₂.brackets = c.brackets := hb₂
      rw [sessionRelease, if_pos ⟨hlive₂, hb₂ ▸ hb⟩] at h₃
      cases h₃

/-- What a flush that goes through leaves alone. -/
structure Untouched (c c' : Client) : Prop where
  tcpSock : c'.tcpSock = c.tcpSock
  udpSock : c'.udpSock = c.udpSock
  closed : c'.closed = c.closed
  brackets : c'.brackets = c.brackets
  exhausted : c'.exhausted = c.exhausted

theorem Untouched.trans {c'' : Client} (h : Untouched c c') (h' : Untouched c' c'') : Untouched c c'' := by
  constructor
  · exact h'.tcpSock.trans h.tcpSock
  · exact h'.udpSock.trans h.udpSock
  · exact h'.closed.trans h.closed
  · exact h'.brackets.trans h.brackets
  · exact h'.exhausted.trans h.exhausted

/-- A send that closes nothing. -/
theorem kcpOutput_untouched {data : List Byte} (hr : kcpOutput (.untilClose env) data c = .ok c') :
    Untouched c c' ∧ c'.kcpSession = c.kcpSession := by
  obtain ⟨x, hx | hx⟩ := kcpOutput_sends (.untilClose env) data c
  · rw [hx] at hr
    cases hr
    exact ⟨⟨rfl, rfl, rfl, rfl, rfl⟩, rfl⟩
  · rw [hx] at hr
    exact absurd hr (untilClose_stops env _ _ _)

/-- The outputs of a routine, when none of them closes.  Induction on the outputs. -/
theorem playOutputs_untouched {outs : List (IKCPCB × List Byte)}
    (hr : playOutputs (.untilClose env) outs c = .ok c') :
    Untouched c c' ∧ playOutputs (.of env n) outs c = .ok c' := by
  induction outs generalizing c with
  | nil =>
    cases hr
    exact ⟨⟨rfl, rfl, rfl, rfl, rfl⟩, rfl⟩
  | cons e outs ih =>
    obtain ⟨c₁, h₁, h₂⟩ := bind_eq_ok.mp hr
    obtain ⟨hfirst, -⟩ := kcpOutput_untouched h₁
    obtain ⟨hrest, hsame⟩ := ih h₂
    refine ⟨Untouched.trans ?_ hrest, bind_eq_ok.mpr ⟨c₁, kcpOutput_untilClose h₁, hsame⟩⟩
    exact ⟨hfirst.tcpSock, hfirst.udpSock, hfirst.closed, hfirst.brackets, hfirst.exhausted⟩

/-- With the relinks used up, outputs that come back have closed nothing.  Induction on the outputs. -/
theorem playOutputs_through (hx : c.exhausted = true) (hb : c.brackets ≠ [])
    {outs : List (IKCPCB × List Byte)} (hr : playOutputs (.of env n) outs c = .ok c') :
    Through (playOutputs (.untilClose env) outs c) := by
  induction outs generalizing c with
  | nil => exact ⟨c, rfl⟩
  | cons e outs ih =>
    obtain ⟨c₁, h₁, h₂⟩ := bind_eq_ok.mp hr
    let c₀ : Client := { c with kcpSession := { c.kcpSession with kcp := some e.1 } }
    have halike := kcpOutput_alike (.of env n) (.untilClose env) rfl e.2 c₀
    change kcpOutput (.of env n) e.2 c₀ = .ok c₁ at h₁
    cases hout : kcpOutput (.untilClose env) e.2 c₀ with
    | error st =>
      -- this output closes, and that does not come back
      rw [h₁, hout] at halike
      generalize hok : Except.ok c₁ = r at halike
      cases halike with
      | failed x =>
        let c₁ : Client := (c₀.sent x).log
          (.outputClose (c₀.sent x).brackets.head? (c₀.sent x).idle (c₀.sent x).exhausted)
        have hlive : c₁.live = true := rfl
        exact absurd hok.symm (innerClose_inRoutine (c := c₁) hx hlive hb _ _)
    | ok c₂ =>
      have hsent : kcpOutput (.of env n) e.2 c₀ = .ok c₂ := kcpOutput_untilClose hout
      cases h₁.symm.trans hsent
      obtain ⟨hsame, -⟩ := kcpOutput_untouched hout
      obtain ⟨d, hd⟩ := ih (hsame.exhausted.trans hx) (hsame.brackets ▸ hb) h₂
      exact ⟨d, bind_eq_ok.mpr ⟨c₁, hout, hd⟩⟩

theorem sessionFlush_untouched {reason : Int} (hr : sessionFlush (.untilClose env) reason c = .ok c') :
    Untouched c c' ∧ sessionFlush (.of env n) reason c = .ok c' := by
  rw [sessionFlush] at hr
  rw [sessionFlush]
  cases hk : c.kcpSession.kcp with
  | none =>
    rw [hk] at hr
    cases hr
    exact ⟨⟨rfl, rfl, rfl, rfl, rfl⟩, rfl⟩
  | some kcp =>
    rw [hk] at hr
    obtain ⟨c₁, h₁, h₂⟩ := bind_eq_ok.mp hr
    obtain ⟨hsame, hplay⟩ := playOutputs_untouched (n := n) h₁
    cases h₂
    refine ⟨⟨hsame.tcpSock, hsame.udpSock, hsame.closed, ?_, hsame.exhausted⟩,
      bind_eq_ok.mpr ⟨c₁, hplay, rfl⟩⟩
    exact congrArg List.tail hsame.brackets

theorem sessionFlush_through {reason : Int} (hx : c.exhausted = true)
    (hr : sessionFlush (.of env n) reason c = .ok c') : FlushThrough env reason c := by
  rw [sessionFlush] at hr
  rw [FlushThrough, sessionFlush]
  cases hk : c.kcpSession.kcp with
  | none => exact ⟨c, rfl⟩
  | some kcp =>
    rw [hk] at hr
    obtain ⟨c₁, h₁, -⟩ := bind_eq_ok.mp hr
    let c₀ : Client := { c with brackets := .flush reason :: c.brackets }
    have hin : c₀.brackets ≠ [] := List.cons_ne_nil _ _
    obtain ⟨d, hd⟩ := playOutputs_through (c := c₀) hx hin h₁
    exact ⟨_, bind_eq_ok.mpr ⟨d, hd, rfl⟩⟩

/-- The close after a failure comes back: it is not terminal, or all its flush sends goes through.
    Both are conditions on the state before it. -/
def ComesBack (env : Env) (c : Client) : Prop :=
  c.exhausted = false ∨ FlushThrough env clientConnectTimeout c

/-- Everything is closed, each socket once. -/
structure Undone (c c' : Client) : Prop where
  connState : c'.connState = .init
  tcpSock : c'.tcpSock = -1
  udpSock : c'.udpSock = -1
  closed : c'.closed = [c.udpSock, c.tcpSock].filter (· ≠ -1) ++ c.closed

theorem closeSockets_undone {c₁ : Client} (htcp : c₁.tcpSock = c.tcpSock)
    (hudp : c₁.udpSock = c.udpSock) (hclosed : c₁.closed = c.closed) (reason : Int) :
    Undone c (closeSockets env reason c₁) := by
  rw [closeSockets]
  dsimp only
  rw [htcp, hudp, hclosed]
  split
  · exact ⟨rfl, rfl, rfl, rfl⟩
  · exact ⟨rfl, rfl, rfl, rfl⟩

theorem innerClose_undoes (hb : c.brackets = []) (h : ComesBack env c) :
    ∃ c', innerClose env (n + 1) clientConnectError c = .ok c' ∧ Undone c c' := by
  by_cases hx : c.exhausted = true
  · have hreason : closeReason clientConnectError c = clientConnectTimeout := if_pos hx
    rcases h with h | ⟨d, hd⟩
    · rw [hx] at h
      cases h
    obtain ⟨hsame, hflush⟩ := sessionFlush_untouched (n := n) hd
    -- no routine is open once the flush is over, so the session may be released
    have hrelease : sessionRelease d = .ok { d with kcpSession := d.kcpSession.release } :=
      if_neg fun hrel => hrel.2 (hsame.brackets.trans hb)
    let d₁ : Client := { d with
      kcpSession := d.kcpSession.release
      running := false
      trace := .terminal :: d.trace }
    have hsession : closeSession (.of env n) clientConnectTimeout c = .ok d₁ :=
      bind_eq_ok.mpr ⟨d, hflush, bind_eq_ok.mpr ⟨_, hrelease, rfl⟩⟩
    have hundone : Undone c (closeSockets env clientConnectTimeout d₁) := by
      apply closeSockets_undone
      · exact hsame.tcpSock
      · exact hsame.udpSock
      · exact hsame.closed
    refine ⟨closeSockets env clientConnectTimeout d₁, ?_, hundone⟩
    show innerCloseBody env _ (clientConnectError, c) = _
    rw [innerCloseBody]
    dsimp only
    rw [hreason, if_pos (by decide)]
    exact bind_eq_ok.mpr ⟨d₁, hsession, rfl⟩
  · have hx : c.exhausted = false := Bool.of_not_eq_true hx
    exact ⟨_, innerClose_kept env n hx, closeSockets_undone rfl rfl rfl _⟩

theorem innerClose_comesBack (hr : innerClose env n clientConnectError c = .ok c') :
    ComesBack env c := by
  by_cases hx : c.exhausted = true
  · cases n with
    | zero => cases hr
    | succ n =>
      have hreason : closeReason clientConnectError c = clientConnectTimeout := if_pos hx
      change innerCloseBody env _ (clientConnectError, c) = .ok c' at hr
      rw [innerCloseBody] at hr
      dsimp only at hr
      rw [hreason, if_pos (by decide)] at hr
      obtain ⟨c₁, h₁, -⟩ := bind_eq_ok.mp hr
      obtain ⟨c₂, h₂, -⟩ := bind_eq_ok.mp h₁
      exact Or.inr (sessionFlush_through hx h₂)
  · exact Or.inl (Bool.of_not_eq_true hx)

/-! ## All or nothing -/

/-- The call succeeded because every step did, or else it failed and undid everything: the
    descriptors it created are those that were closed, each once. -/
inductive AllOrNothing (tcp udp : DialCalls) (c : Client) : M Dialed → Prop where
  | all {d : Dialed} (hall : AllSucceed tcp udp) (hret : d.ret = 0)
      (hstate : d.client.connState = .connecting) : AllOrNothing tcp udp c (.ok d)
  | nothing {d : Dialed} {closed : List Int} (hfail : ¬ AllSucceed tcp udp) (hret : d.ret = -1)
      (hstate : d.client.connState = .init) (htcp : d.client.tcpSock = -1)
      (hudp : d.client.udpSock = -1) (hclosed : d.client.closed = closed ++ c.closed)
      (hcreated : d.created.Perm (closed ++ d.dropped)) : AllOrNothing tcp udp c (.ok d)

/-- A `connect` that fails is not lost, and the close after a failure before that comes back. -/
structure FailuresSeen (env : Env) (tcp udp : DialCalls) (ip : String) (port : BitVec 32)
    (timeoutMs : Int) (c : Client) : Prop where
  connects : tcp.Opens → udp.Opens → tcp.Connects ∧ udp.Connects
  noTcp : ¬ tcp.Opens → ComesBack env ((dialTcp tcp ip port timeoutMs c).log .dialFail)
  noUdp : tcp.Opens → ¬ udp.Opens →
    ComesBack env ((dialUdp udp (dialTcp tcp ip port timeoutMs c)).log .dialFail)

/-- A failure that is seen is undone, if the close comes back. -/
theorem failure_undone {tcp udp : DialCalls} (hfail : ¬ AllSucceed tcp udp) (c₁ : Client)
    (hb : c₁.brackets = []) (hclosed : c₁.closed = c.closed) {created dropped : List Int}
    (hcreated : created.Perm ([c₁.udpSock, c₁.tcpSock].filter (· ≠ -1) ++ dropped)) :
    AllOrNothing tcp udp c
        (do .ok ⟨-1, ← innerClose env (n + 1) clientConnectError c₁, created, dropped⟩)
      ↔ ComesBack env c₁ := by
  constructor
  · intro h
    cases hr : innerClose env (n + 1) clientConnectError c₁ with
    | error e =>
      rw [hr] at h
      cases h
    | ok c₂ => exact innerClose_comesBack hr
  · intro h
    obtain ⟨c₂, hr, hundone⟩ := innerClose_undoes (n := n) hb h
    rw [hr]
    refine .nothing hfail rfl hundone.connState hundone.tcpSock hundone.udpSock ?_ hcreated
    rw [← hclosed]
    exact hundone.closed

/-- Without a TCP socket: all that was created was closed on the way. -/
theorem created_noTcp {tcp : DialCalls} (ip : String) (port : BitVec 32) (timeoutMs : Int)
    (hudp : c.udpSock = -1) (hto : ¬ tcp.Opens) :
    (createConnectCalls tcp).created.Perm
      ([(dialTcp tcp ip port timeoutMs c).udpSock,
        (dialTcp tcp ip port timeoutMs c).tcpSock].filter (· ≠ -1)
        ++ (createConnectCalls tcp).dropped) := by
  have hsock : (dialTcp tcp ip port timeoutMs c).tcpSock = -1 := sock_fails hto
  have husock : (dialTcp tcp ip port timeoutMs c).udpSock = -1 := hudp
  obtain ⟨socks, ht⟩ := createConnectCalls_fails hto
  rw [husock, hsock, ht, List.filter_cons_of_neg (by decide),
    List.filter_cons_of_neg (by decide), List.filter_nil]
  exact List.Perm.refl _

/-- Without a UDP socket: the TCP socket is there to be closed. -/
theorem created_noUdp {tcp udp : DialCalls} (ip : String) (port : BitVec 32) (timeoutMs : Int)
    (c : Client) (hto : tcp.Opens) (huo : ¬ udp.Opens) :
    ((createConnectCalls tcp).created ++ (createConnectCalls udp).created).Perm
      ([(dialUdp udp (dialTcp tcp ip port timeoutMs c)).udpSock,
        (dialUdp udp (dialTcp tcp ip port timeoutMs c)).tcpSock].filter (· ≠ -1)
        ++ ((createConnectCalls tcp).dropped ++ (createConnectCalls udp).dropped)) := by
  obtain ⟨sock, -, ht⟩ := createConnectCalls_opens hto
  obtain ⟨socks, hu⟩ := createConnectCalls_fails huo
  have husock : (dialUdp udp (dialTcp tcp ip port timeoutMs c)).udpSock = -1 := sock_fails huo
  have htsock : (dialUdp udp (dialTcp tcp ip port timeoutMs c)).tcpSock = sock :=
    congrArg SocketCalls.sock ht
  have hne : (sock : Int) ≠ -1 := by omega
  have hheld : [-1, (sock : Int)].filter (· ≠ -1) = [(sock : Int)] := by simp [hne]
  rw [husock, htsock, ht, hu, hheld]
  exact List.Perm.refl _

/-- **All or nothing, but for two things.**  Where no KCP routine is running, and from a state without a
    UDP socket, `InnerConnect` returns `0` in `CS_CONNECTING` because every step succeeded, or `-1` in
    `CS_INIT` with everything closed that it created, if and only if no failed `connect` is taken for
    a success and the close after any other failure comes back. -/
theorem allOrNothing_iff {c : Client} (env : Env) {n : Nat} (ip : String) (port : BitVec 32)
    (timeoutMs : Int) (tcp udp : DialCalls) (hn : 0 < n) (hb : c.brackets = []) (hudp : c.udpSock = -1) :
    AllOrNothing tcp udp c (innerConnectCalls (.of env n) tcp udp ip port timeoutMs c)
      ↔ FailuresSeen env tcp udp ip port timeoutMs c := by
  obtain ⟨n, rfl⟩ : ∃ m, n = m + 1 := ⟨n - 1, by omega⟩
  rw [innerConnectCalls]
  dsimp only
  by_cases hto : tcp.Opens
  · have hsock : (dialTcp tcp ip port timeoutMs c).tcpSock ≠ -1 := sock_opens hto
    rw [if_neg hsock]
    by_cases huo : udp.Opens
    · have husock : (dialUdp udp (dialTcp tcp ip port timeoutMs c)).udpSock ≠ -1 := sock_opens huo
      rw [if_neg husock]
      constructor
      · intro h
        cases h with
        | all hall =>
          exact ⟨fun _ _ => ⟨hall.1.2, hall.2.2⟩, fun hno => absurd hto hno, fun _ hno => absurd huo hno⟩
        | nothing _ hret =>
          change (0 : Int) = -1 at hret
          omega
      · intro h
        obtain ⟨htc, huc⟩ := h.connects hto huo
        exact .all ⟨⟨hto, htc⟩, huo, huc⟩ rfl rfl
    · have husock : (dialUdp udp (dialTcp tcp ip port timeoutMs c)).udpSock = -1 := sock_fails huo
      rw [if_pos husock]
      let c₁ := (dialUdp udp (dialTcp tcp ip port timeoutMs c)).log .dialFail
      have hcreated := created_noUdp ip port timeoutMs c hto huo
      refine (failure_undone (c := c) (fun h => huo h.2.1) c₁ hb rfl hcreated).trans ?_
      constructor
      · intro h
        exact ⟨fun _ hyes => absurd hyes huo, fun hno => absurd hto hno, fun _ _ => h⟩
      · intro h
        exact h.noUdp hto huo
  · have hsock : (dialTcp tcp ip port timeoutMs c).tcpSock = -1 := sock_fails hto
    rw [if_pos hsock]
    let c₁ := (dialTcp tcp ip port timeoutMs c).log .dialFail
    have hcreated := created_noTcp ip port timeoutMs hudp hto
    refine (failure_undone (c := c) (fun h => hto h.1.1) c₁ hb rfl hcreated).trans ?_
    constructor
    · intro h
      exact ⟨fun hyes => absurd hyes hto, fun _ => h, fun hyes => absurd hyes hto⟩
    · intro h
      exact h.noTcp hto

/-- The address is resolved and the socket made; then `connect` comes to this. -/
def sampleDial (sock : Nat) (connect : Option Int) : DialCalls where
  getaddrinfo := some [⟨true, [10, 0, 0, 1]⟩]
  socket := some sock
  nonblocking := true
  connect := fun _ => connect

end ConnClient
