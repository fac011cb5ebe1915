/-
  Whether what is unsent waits for the socket.

  `tcp_writable_` says that the net thread asks `select` whether the TCP socket is writable.  It has
  two uses: a connection that is being made is there when its socket is writable, and bytes that could
  not be written go out then.  `OnTcpWrite` sets it when it leaves something, and a close sets it when
  it empties the buffer, so what is unsent is registered — as long as the two uses do not meet.  They
  meet when the control block of a session outputs while a relink is connecting: the bytes wait, the
  socket gets writable, and the event is taken for the connection alone (`pending_stuck`).
-/
import ConnClient.Client.Clean

namespace ConnClient

open ConnClient.Lib ConnClient.Ikcp

/-- What is unsent on an open connection has write-readiness registered with `select`. -/
def Registered (k : Core) : Prop :=
  k.tcpSock ≠ -1 → k.writeStream.len ≠ 0 → k.tcpWritable = true

/-- The invariant: a client without a connection has nothing to send that a new one would find. -/
structure Waits (k : Core) : Prop where
  clean : Clean k
  registered : Registered k

theorem walk_waits : Walk (fun _ => True) (fun _ => True) Waits where
  blocks := blockInv_true
  weak _ := trivial
  held _ _ := trivial
  closing _ _ _ := trivial
  closingBlock _ _ := trivial
  release _ := trivial
  shut _ := by
    constructor
    · exact Clean.shut _
    · exact fun _ _ => rfl
  write h hsock hleft := by
    constructor
    · exact walk_clean.write h.clean hsock hleft
    · exact fun _ => hleft
  drained h hempty := by
    constructor
    · exact walk_clean.drained h.clean hempty
    · exact fun _ hlen => absurd hempty hlen
  block h hb := ⟨walk_clean.block h.clean hb, h.registered⟩
  read h hread := ⟨walk_clean.read h.clean hread, h.registered⟩
  login h hhead := ⟨walk_clean.login h.clean hhead, h.registered⟩

/-- A new connection finds the buffer as it was: empty after a close, registered otherwise. -/
theorem connects_waits {k : Core} (h : Waits k) (tcp udp : Option Nat) :
    Connects (fun _ => True) Waits k tcp udp where
  noTcp _ := trivial
  noUdp _ _ := trivial
  both hu hv := by
    refine ⟨(connects_clean k tcp udp).both hu hv, fun _ hlen => ?_⟩
    by_cases hno : k.tcpSock = -1
    · exact absurd (h.clean.unsent (h.clean.tcp.mpr hno)) hlen
    · exact h.registered hno hlen

/-! ## The two uses apart -/

/-- A connection is found to be there only with nothing unsent. -/
def NothingPending (s : Sys) (a : Act) : Prop :=
  ∀ w, a = .net w → Establishes w s → s.client.writeStream.len = 0

theorem reachable_waits {s : Sys} (hs : Runs NothingPending s) : Waits s.client.core := by
  refine walk_waits.runs (fun cb now => ?_) (fun n h => ⟨clean_unqueued n h.clean, h.registered⟩)
    (fun _ _ _ _ _ h => connects_waits h _ _) (fun w s _ hc he h => ?_) hs
  · exact ⟨reachable_clean (.start ⟨cb, now, rfl⟩), fun _ hlen => absurd rfl hlen⟩
  · exact ⟨h.clean.established he.connecting, fun _ hlen => absurd (hc w rfl he) hlen⟩

/-- What finding the connection comes to. -/
theorem netStep_establishes {w : World} {s : Sys} (h : Establishes w s) :
    netStep w s = .ok { s with
      client := setConnState w.env .connected { s.client with tcpWritable := false }
      pc := .udp } := by
  unfold netStep
  rw [h.pc]
  dsimp only
  unfold tcpEvent
  rw [if_neg h.open_, h.writable]
  dsimp only
  rw [if_pos h.watched]
  unfold onTcpWritable
  dsimp only
  rw [if_pos h.connecting]
  rfl

/-- **No output is stuck, unless it is pending when the connection is found.**  In every run in which
    the writable event that turns `CS_CONNECTING` into `CS_CONNECTED` finds nothing unsent, what is
    unsent on an open connection has write-readiness registered.  And from such a run, a step keeps it
    so exactly if it is no such event with something unsent. -/
theorem pending_registered {s : Sys} (hs : Runs NothingPending s) :
    Registered s.client.core ∧
    ∀ a s', sysStep a s = .ok s' → (Registered s'.client.core ↔ NothingPending s a) := by
  refine ⟨(reachable_waits hs).registered, fun a s' hr => ⟨fun hreg w ha he => ?_, fun ha => ?_⟩⟩
  · by_contra hlen
    subst ha
    have hstep : s' = _ := Except.ok.inj (hr.symm.trans (netStep_establishes he))
    subst hstep
    -- the event cleared the flag
    exact absurd (hreg he.open_ hlen) Bool.false_ne_true
  · exact (reachable_waits (hs.step ha hr)).registered

/-! ## Samples -/

/-- `NothingPending`, as a test. -/
def nothingPending (s : Sys) (_ : Act) : Bool :=
  s.pc != .tcp || s.client.connState != .connecting || s.client.writeStream.len == 0

theorem nothingPending_sound (s : Sys) (a : Act) (h : nothingPending s a = true) :
    NothingPending s a := by
  intro w _ he
  simpa [nothingPending, he.pc, he.connecting] using h

/-- The same world at one time, with sockets that take nothing for now. -/
def sampleBlocked (time : Int) : World :=
  { sampleWorld 0 with env :=
    { sampleEnv 0 with send := fun _ => (-1, .wouldBlock), clock := fun _ => time } }

/-- The server sends a message and closes the connection before its acknowledgement is due; the relink
    is connecting when it is, so the acknowledgement waits in the buffer. -/
def samplePending : List Act :=
  .addRelinkInterval 1000 :: sampleLink
    ++ List.replicate 2 (.net { sampleBlocked 1200 with
      ready := true, tcp := .readable (sampleInfo 50 ++ samplePush 0) })
    ++ List.replicate 7 (.net (sampleBlocked 1200))
    ++ List.replicate 2 (.net { sampleBlocked 1201 with ready := true, tcp := .readable [] })
    ++ List.replicate 7 (.net (sampleBlocked 1202)) ++ List.replicate 7 (.net (sampleBlocked 1300))

/-- The acknowledgement is registered. -/
theorem pending_registered_sample :
    ∃ s, Runs NothingPending s ∧ s.client.connState = .connecting ∧ s.client.tcpSock = 5 ∧
      s.client.writeStream.len = 29 ∧ s.client.tcpWritable = true := by
  have hrun : (exec sysStep nothingPending samplePending sampleClient).map
      (fun s => (s.client.connState, s.client.tcpSock, s.client.writeStream.len))
      = some (.connecting, 5, 29) := by decide +kernel
  obtain ⟨s, hs, hrun⟩ := Option.map_eq_some_iff.mp hrun
  simp only [Prod.mk.injEq] at hrun
  obtain ⟨hstate, hsock, hlen⟩ := hrun
  have hreach : Runs NothingPending s := .of_exec nothingPending_sound _ (.start ⟨_, _, rfl⟩) hs
  refine ⟨s, hreach, hstate, hsock, hlen, (pending_registered hreach).1 ?_ ?_⟩
  · show s.client.tcpSock ≠ -1
    rw [hsock]
    decide
  · show s.client.writeStream.len ≠ 0
    rw [hlen]
    decide

/-- Then the socket gets writable: the connection is there, and the acknowledgement is stuck. -/
theorem pending_stuck : ¬ ∀ s, Reachable s → Registered s.client.core := by
  have hrun : (sampleExec (samplePending ++ List.replicate 2 (.net { sampleBlocked 1300 with
      ready := true, tcp := .writable }))).map
      (fun s => (s.client.tcpSock, s.client.writeStream.len, s.client.tcpWritable))
      = some (5, 29, false) := by decide +kernel
  obtain ⟨s, hs, hrun⟩ := Option.map_eq_some_iff.mp hrun
  simp only [Prod.mk.injEq] at hrun
  obtain ⟨hsock, hlen, hwatched⟩ := hrun
  intro h
  have hreach : Reachable s := .of_exec (fun _ _ _ => trivial) _ (.start ⟨_, _, rfl⟩) hs
  have htrue : s.client.tcpWritable = true := by
    refine h s hreach ?_ ?_
    · show s.client.tcpSock ≠ -1
      rw [hsock]
      decide
    · show s.client.writeStream.len ≠ 0
      rw [hlen]
      decide
  rw [hwatched] at htrue
  nomatch htrue

end ConnClient
