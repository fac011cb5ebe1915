/-
  What a reconnect starts from.

  `InnerClose` closes both sockets, sets `CS_INIT` and resets both streams, and it is called from the
  middle of sends, of the frame loop, of its own flush.  What its callers do afterwards can write and
  read again, but only through a socket that is not there: a frame put behind the reset buffer is
  written at once, the write fails for good, and that closes once more (`Walk.write` is only asked for
  a socket that is open).  So `CS_INIT`, closed sockets and empty streams come together (`Clean`), and
  they are there between any two steps.
-/
import ConnClient.Client.Walk

namespace ConnClient

open ConnClient.Lib ConnClient.Ikcp

/-- `CS_INIT` is having no sockets, and then nothing is unsent or unread. -/
structure Clean (k : Core) : Prop where
  tcp : k.connState = .init ↔ k.tcpSock = -1
  udp : k.connState = .init ↔ k.udpSock = -1
  unsent : k.connState = .init → k.writeStream.len = 0
  unread : k.connState = .init → k.readStream.len = 0

theorem Clean.shut (k : Core) : Clean k.shut := by
  constructor
  · exact ⟨fun _ => rfl, fun _ => rfl⟩
  · exact ⟨fun _ => rfl, fun _ => rfl⟩
  · intro _
    rfl
  · intro _
    rfl

/-- With a socket the streams are free. -/
theorem Clean.of_open {k : Core} (htcp : k.tcpSock ≠ -1) (hudp : k.udpSock ≠ -1)
    (hs : k.connState ≠ .init) : Clean k := by
  constructor
  · exact ⟨fun h => absurd h hs, fun h => absurd h htcp⟩
  · exact ⟨fun h => absurd h hs, fun h => absurd h hudp⟩
  · exact fun h => absurd h hs
  · exact fun h => absurd h hs

theorem walk_clean : Walk (fun _ => True) (fun _ => True) Clean where
  blocks := blockInv_true
  weak _ := trivial
  held _ _ := trivial
  closing _ _ _ := trivial
  closingBlock _ _ := trivial
  release _ := trivial
  shut _ := Clean.shut _
  write h hsock _ := by
    refine ⟨h.tcp, h.udp, fun hinit => ?_, h.unread⟩
    exact absurd (h.tcp.mp hinit) hsock
  drained h _ := ⟨h.tcp, h.udp, h.unsent, h.unread⟩
  block h _ := ⟨h.tcp, h.udp, h.unsent, h.unread⟩
  read {k s} h hread := by
    refine ⟨h.tcp, h.udp, h.unsent, fun hinit => ?_⟩
    rcases hread with hle | hsock
    · have hempty := h.unread hinit
      show s.len = 0
      omega
    · exact absurd (h.tcp.mp hinit) hsock
  login {k} h hhead := by
    -- there is a frame's header to read, so the connection is not at `CS_INIT`
    have hs : k.connState ≠ .init := fun hinit => by
      rw [h.unread hinit] at hhead
      exact absurd hhead (by decide)
    refine Clean.of_open (fun htcp => ?_) (fun hudp => ?_) (by nofun)
    · exact hs (h.tcp.mpr htcp)
    · exact hs (h.udp.mpr hudp)

/-- A new connection is `CS_CONNECTING`, over two sockets. -/
theorem connects_clean (k : Core) (tcp udp : Option Nat) : Connects (fun _ => True) Clean k tcp udp where
  noTcp _ := trivial
  noUdp _ _ := trivial
  both {a b} _ _ := by
    apply Clean.of_open
    · show (a : Int) ≠ -1
      omega
    · show (b : Int) ≠ -1
      omega
    · nofun

/-- An established connection has both sockets. -/
theorem Clean.established {k : Core} (h : Clean k) (hs : k.connState = .connecting) :
    Clean { k with connState := .connected, tcpWritable := false } := by
  have hinit : k.connState ≠ .init := by
    rw [hs]
    nofun
  apply Clean.of_open
  · exact fun htcp => hinit (h.tcp.mpr htcp)
  · exact fun hudp => hinit (h.udp.mpr hudp)
  · nofun

theorem clean_unqueued : Unqueued Clean := fun _ h => ⟨h.tcp, h.udp, h.unsent, h.unread⟩

theorem reachable_clean {s : Sys} (hs : Reachable s) : Clean s.client.core := by
  refine walk_clean.runs (fun cb now => ?_) clean_unqueued (fun _ _ _ _ _ _ => connects_clean ..)
    (fun _ _ _ _ he h => h.established he.connecting) hs
  constructor <;> intros <;> first | rfl | exact ⟨fun _ => rfl, fun _ => rfl⟩

/-! ## Relinking -/

/-- A client without a TCP socket gets one only by connecting. -/
theorem walk_noTcp : Walk (fun _ => True) (fun _ => True) fun k => k.tcpSock = -1 where
  blocks := blockInv_true
  weak _ := trivial
  held _ _ := trivial
  closing _ _ _ := trivial
  closingBlock _ _ := trivial
  release _ := trivial
  shut _ := rfl
  write h _ _ := h
  drained h _ := h
  block h _ := h
  read h _ := h
  login h _ := h

/-- Nothing is unsent and nothing unread. -/
def AtBoundary (k : Core) : Prop := k.writeStream.len = 0 ∧ k.readStream.len = 0

/-- **What `CheckRelink` opens starts empty**: it connects from `CS_INIT`, and connecting leaves the
    streams alone. -/
theorem checkRelink_atBoundary (env : Env) (n : Nat) {now : Int} {c c' : Client}
    (hc : Clean c.core) (hno : c.tcpSock = -1) (hr : checkRelink (.of env n) now c = .ok c')
    (hopen : c'.tcpSock ≠ -1) : AtBoundary c'.core := by
  let J : Core → Prop := fun k => k.tcpSock ≠ -1 → AtBoundary k
  have hcl : ClosesInto (fun _ => True) J (.of env n) := fun reason c hc =>
    (walk_noTcp.innerClose env n reason c hc).imp (fun _ hno hopen => absurd hno hopen) fun _ => id
  have hends : EndsIn J id (checkRelink (.of env n) now c) := by
    refine checkRelink_ends hcl (fun _ h => h) now (fun hopen => absurd hno hopen) fun hinit => ?_
    refine ⟨fun _ => trivial, fun _ _ => trivial, fun _ _ _ => ?_⟩
    exact ⟨hc.unsent hinit, hc.unread hinit⟩
  exact hends.kept hr hopen

/-- **A reconnect starts clean.**  In every reachable state `CS_INIT` is having no TCP socket and is
    having no UDP socket, and both streams are empty then; and a connection that a step of
    `CheckRelink` opens has nothing unsent and nothing unread. -/
theorem reconnect_clean {s : Sys} (hs : Reachable s) :
    Clean s.client.core ∧
    ∀ w s', s.pc = .relink → s.client.tcpSock = -1 → netStep w s = .ok s' → s'.client.tcpSock ≠ -1 →
      AtBoundary s'.client.core := by
  have hclean := reachable_clean hs
  refine ⟨hclean, fun w s' hpc hno hr hopen => ?_⟩
  unfold netStep at hr
  rw [hpc] at hr
  obtain ⟨c, hc, rfl⟩ : ∃ c, checkRelink w.cx s.nowMs s.client = .ok c
      ∧ s' = { s with client := c, pc := .head } := by
    cases hcheck : checkRelink w.cx s.nowMs s.client with
    | error e =>
      rw [hcheck] at hr
      cases hr
    | ok c =>
      rw [hcheck] at hr
      cases hr
      exact ⟨c, rfl, rfl⟩
  exact checkRelink_atBoundary w.env w.depth hclean hno hc hopen

/-- The server closes the connection, and `CheckRelink` opens the next. -/
theorem reconnect_clean_sample :
    ∃ s s', Reachable s ∧ s.pc = .relink ∧ netStep (sampleWorld 2000) s = .ok s' ∧
      s'.client.tcpSock = 5 ∧ Clean s.client.core ∧ AtBoundary s'.client.core := by
  have hrun : (sampleExec (.addRelinkInterval 1000 :: sampleRead []
      ++ List.replicate 4 (.net (sampleWorld 2000)))).map (fun s => (s.pc, s.client.tcpSock,
        (netStep (sampleWorld 2000) s).toOption.map (·.client.tcpSock)))
      = some (.relink, -1, some 5) := by decide +kernel
  obtain ⟨s, hs, hrun⟩ := Option.map_eq_some_iff.mp hrun
  simp only [Prod.mk.injEq] at hrun
  obtain ⟨hpc, hno, hstep⟩ := hrun
  have hreach : Reachable s := .of_exec (fun _ _ _ => trivial) _ (.start ⟨_, _, rfl⟩) hs
  cases hr : netStep (sampleWorld 2000) s with
  | error e =>
    rw [hr] at hstep
    cases hstep
  | ok s' =>
    rw [hr] at hstep
    have hopen : s'.client.tcpSock = 5 := Option.some.inj hstep
    obtain ⟨hclean, hopened⟩ := reconnect_clean hreach
    refine ⟨s, s', hreach, hpc, hr, hopen, hclean, ?_⟩
    refine hopened _ s' hpc hno hr ?_
    rw [hopen]
    decide

end ConnClient
