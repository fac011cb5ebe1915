/-
  Who owns a descriptor.

  A descriptor that `CreateConnect` returned is in `tcp_sock_` or `udp_sock_` until `InnerClose` passes
  it to `closesocket_ex`.  What was opened is thus what is held and what was closed, in every run
  (`descriptors_held`) — as long as `InnerConnect` finds the two fields empty.  It does when
  `CheckRelink` calls it, which asks for `CS_INIT`; a `Connect` of the application asks for nothing and
  writes over what is there.  The descriptors written over are in neither field from then on, and
  nothing closes them (`Lost`).
-/
import ConnClient.Client.Clean
import ConnClient.Lib.Ledger

namespace ConnClient

open ConnClient.Lib ConnClient.Ikcp

/-! ## The ledger -/

/-- The descriptors in the two fields. -/
def Core.held (k : Core) : List Int := [k.tcpSock, k.udpSock].filter (· ≠ -1)

/-- What was opened is held or was closed. -/
def Ledger (k : Core) : Prop := Balanced k.opened k.held k.closed

theorem Ledger.shut {k : Core} (h : Ledger k) : Ledger k.shut :=
  h.release ((List.Perm.swap k.udpSock k.tcpSock []).filter _)

theorem walk_ledger : Walk (fun _ => True) Ledger Ledger where
  blocks := blockInv_true
  weak h := h
  held _ _ := trivial
  closing _ _ h := h
  closingBlock h _ := h
  release h := h
  shut h := h.shut
  write h _ _ := h
  drained h _ := h
  block h _ := h
  read h _ := h
  login h _ := h

/-- With both fields empty, what is opened is entered in them. -/
theorem connects_ledger {k : Core} (htcp : k.tcpSock = -1) (hudp : k.udpSock = -1) (h : Ledger k)
    (tcp udp : Option Nat) : Connects Ledger Ledger k tcp udp := by
  have hnone : k.held = [] := by
    unfold Core.held
    rw [htcp, hudp]
    rfl
  unfold Ledger at h
  rw [hnone] at h
  have hdesc : ∀ a : Nat, ((a : Int) ≠ -1) := fun a => by omega
  constructor
  · intro _
    show Balanced k.opened ([-1, k.udpSock].filter (· ≠ -1)) k.closed
    rw [hudp]
    exact h
  · intro a _ _
    show Balanced ((a : Int) :: k.opened) ([(a : Int), -1].filter (· ≠ -1)) k.closed
    simpa [hdesc a] using h.acquire (a : Int)
  · intro a b _ _
    show Balanced ((b : Int) :: (a : Int) :: k.opened) ([(a : Int), (b : Int)].filter (· ≠ -1)) k.closed
    have hboth := ((h.acquire (a : Int)).acquire (b : Int)).reorder (List.Perm.swap _ _ [])
    simpa [hdesc a, hdesc b] using hboth

/-! ## Connecting over open sockets -/

/-- The next step of the net thread runs a `Connect`. -/
def Sys.connects (s : Sys) : Bool :=
  s.pc == .drain && match s.client.inQueue with
    | .connect .. :: _ => true
    | _ => false

/-- A `Connect` is run only while both fields are empty. -/
def ConnectsEmpty (s : Sys) (a : Act) : Prop :=
  ∀ w, a = .net w → s.connects = true → s.client.tcpSock = -1 ∧ s.client.udpSock = -1

theorem Sys.connects_iff {s : Sys} : s.connects = true ↔
    s.pc = .drain ∧ ∃ ip port timeout rest, s.client.inQueue = .connect ip port timeout :: rest := by
  unfold Sys.connects
  rw [Bool.and_eq_true, beq_iff_eq]
  refine and_congr_right fun _ => ?_
  constructor
  · intro h
    split at h
    · exact ⟨_, _, _, _, by assumption⟩
    · nomatch h
  · rintro ⟨ip, port, timeout, rest, hq⟩
    rw [hq]

/-- **What was opened is held or was closed**, in every run that connects only with empty fields. -/
theorem descriptors_ledger {s : Sys} (hs : Runs ConnectsEmpty s) : Ledger s.client.core := by
  refine walk_ledger.runs (fun _ _ => balanced_nil) (fun _ h => h) (fun w s hs hc hd h => ?_)
    (fun _ _ _ _ _ h => h) hs
  have hempty : s.client.tcpSock = -1 ∧ s.client.udpSock = -1 := by
    cases hd with
    | task hpc hq => exact hc w rfl (Sys.connects_iff.mpr ⟨hpc, _, _, _, _, hq⟩)
    | relink _ hinit =>
      have hclean := reachable_clean (hs.mono fun _ _ _ => trivial)
      exact ⟨hclean.tcp.mp hinit, hclean.udp.mp hinit⟩
  exact connects_ledger hempty.1 hempty.2 h _ _

/-- A descriptor that is open and in neither field. -/
def Leaked (fd : Int) (k : Core) : Prop :=
  fd ≠ -1 ∧ (fd ∈ k.opened ∧ fd ∉ k.closed) ∧ fd ≠ k.tcpSock ∧ fd ≠ k.udpSock

theorem Leaked.shut {fd : Int} {k : Core} (h : Leaked fd k) : Leaked fd k.shut := by
  obtain ⟨hdesc, ⟨hopened, hclosed⟩, htcp, hudp⟩ := h
  refine ⟨hdesc, ⟨hopened, fun hin => ?_⟩, hdesc, hdesc⟩
  rcases List.mem_append.mp hin with hin | hin
  · simp only [List.mem_filter, List.mem_cons, List.not_mem_nil, or_false] at hin
    rcases hin.1 with hfd | hfd
    · exact hudp hfd
    · exact htcp hfd
  · exact hclosed hin

/-- Nothing closes what is leaked. -/
theorem walk_leaked (fd : Int) :
    Walk (fun _ => True) (fun k => k.opened.Nodup → Leaked fd k)
      fun k => k.opened.Nodup → Leaked fd k where
  blocks := blockInv_true
  weak h := h
  held _ _ := trivial
  closing _ _ h := h
  closingBlock h _ := h
  release h := h
  shut h hnew := (h hnew).shut
  write h _ _ := h
  drained h _ := h
  block h _ := h
  read h _ := h
  login h _ := h

/-- **Connecting over an open socket leaks it.** -/
theorem innerConnect_leaks (env : Env) (n : Nat) {ip : String} {port : BitVec 32} {timeout : Int}
    {c c' : Client} (hl : Ledger c.core) (hopen : c.tcpSock ≠ -1)
    (hr : innerConnect (.of env n) ip port timeout c = .ok c') (hnew : c'.opened.Nodup) :
    Leaked c.tcpSock c'.core := by
  have hheld : c.tcpSock ∈ c.core.held := by
    simp [Core.held, Client.core, hopen]
  have hout : ∀ hnew : c.opened.Nodup, c.tcpSock ∈ c.opened ∧ c.tcpSock ∉ c.closed := fun hnew =>
    (hl.outstanding hnew _).mpr hheld
  refine (innerConnect_ends ((walk_leaked c.tcpSock).innerClose env n) ?_).kept hr hnew
  constructor
  · intro _ hnew
    refine ⟨hopen, hout hnew, hopen, fun hudp => ?_⟩
    -- the two fields hold different descriptors
    have hapart : ([c.tcpSock, c.udpSock].filter (· ≠ -1)).Nodup := hl.held_nodup hnew
    change c.tcpSock = c.udpSock at hudp
    rw [← hudp, List.filter_cons_of_pos (by simpa using hopen)] at hapart
    simp [hopen] at hapart
  · intro a _ _ hnew
    obtain ⟨hin, hold⟩ := List.nodup_cons.mp hnew
    exact ⟨hopen, ⟨List.mem_cons_of_mem _ (hout hold).1, (hout hold).2⟩,
      ne_of_mem_of_not_mem (hout hold).1 hin, hopen⟩
  · intro a b _ _ hnew
    obtain ⟨hinb, hrest⟩ := List.nodup_cons.mp hnew
    obtain ⟨hina, hold⟩ := List.nodup_cons.mp hrest
    have hin := List.mem_cons_of_mem (a : Int) (hout hold).1
    exact ⟨hopen, ⟨List.mem_cons_of_mem _ hin, (hout hold).2⟩,
      ne_of_mem_of_not_mem (hout hold).1 hina, ne_of_mem_of_not_mem hin hinb⟩

/-! ## No leak -/

/-- What was opened and not closed is what the two fields hold, and nothing was closed twice. -/
def NoLeak (c : Client) : Prop :=
  (∀ fd, fd ∈ c.opened ∧ fd ∉ c.closed ↔ fd ≠ -1 ∧ (fd = c.tcpSock ∨ fd = c.udpSock)) ∧ c.closed.Nodup

theorem Ledger.noLeak {c : Client} (h : Ledger c.core) (hnew : c.opened.Nodup) : NoLeak c := by
  refine ⟨fun fd => ?_, h.once hnew⟩
  have hin : fd ∈ c.core.held ↔ fd ≠ -1 ∧ (fd = c.tcpSock ∨ fd = c.udpSock) := by
    simp only [Core.held, Client.core, List.mem_filter, List.mem_cons, List.not_mem_nil, or_false,
      decide_eq_true_eq]
    exact and_comm
  rw [← hin]
  exact h.outstanding hnew fd

theorem Leaked.not_noLeak {fd : Int} {c : Client} (h : Leaked fd c.core) : ¬ NoLeak c := by
  intro hno
  obtain ⟨hdesc, hout, htcp, hudp⟩ := h
  rcases ((hno.1 fd).mp hout).2 with hfd | hfd
  · exact htcp hfd
  · exact hudp hfd

/-- **Descriptors do not leak, unless a `Connect` is run over open sockets.**  In every run whose
    `Connect`s are run with both fields empty, what was opened is held or was closed, once for each
    time it was opened; so if `CreateConnect` never returns a descriptor twice, those open are those
    held and none is closed twice.  And from such a run, the first step that runs a `Connect` over an
    open socket leaks. -/
theorem descriptors_held {s : Sys} (hs : Runs ConnectsEmpty s) :
    s.client.opened.Perm (s.client.core.held ++ s.client.closed) ∧
    (s.client.opened.Nodup → NoLeak s.client) ∧
    ∀ a s', sysStep a s = .ok s' → s'.client.opened.Nodup → (NoLeak s'.client ↔ ConnectsEmpty s a) := by
  have hl := descriptors_ledger hs
  refine ⟨hl, hl.noLeak, fun a s' hr hnew => ⟨fun hno w ha hconn => ?_, fun ha => ?_⟩⟩
  · by_contra hopen
    obtain ⟨hpc, ip, port, timeout, rest, hq⟩ := Sys.connects_iff.mp hconn
    have htcp : s.client.tcpSock ≠ -1 := by
      intro htcp
      have hclean := reachable_clean (hs.mono fun _ _ _ => trivial)
      exact hopen ⟨htcp, hclean.udp.mp (hclean.tcp.mpr htcp)⟩
    subst ha
    change netStep w s = .ok s' at hr
    unfold netStep at hr
    rw [hpc, hq] at hr
    dsimp only at hr
    generalize htask : runTask w.cx _ _ = r at hr
    cases r with
    | error e => cases hr
    | ok c =>
      cases hr
      exact (innerConnect_leaks w.env w.depth (c := takeTask _ rest s.client) hl htcp htask
        hnew).not_noLeak hno
  · exact (descriptors_ledger (hs.step ha hr)).noLeak hnew

/-! ## Samples -/

/-- `ConnectsEmpty`, as a test. -/
def connectsEmpty (s : Sys) (_ : Act) : Bool :=
  !s.connects || (s.client.tcpSock == -1 && s.client.udpSock == -1)

theorem connectsEmpty_sound (s : Sys) (a : Act) (h : connectsEmpty s a = true) :
    ConnectsEmpty s a := by
  intro w _ hconn
  simpa [connectsEmpty, hconn] using h

/-- A connection, a close, and the next connection: four descriptors, two of them closed. -/
theorem descriptors_held_sample :
    ∃ s, Runs ConnectsEmpty s ∧ s.client.opened = [6, 5, 4, 3] ∧ s.client.closed = [4, 3] ∧
      NoLeak s.client := by
  have hrun : (exec sysStep connectsEmpty (.addRelinkInterval 1000 :: sampleRead []
      ++ List.replicate 5 (.net (sampleWorld 2000))) sampleClient).map
      (fun s => (s.client.opened, s.client.closed)) = some ([6, 5, 4, 3], [4, 3]) := by
    decide +kernel
  obtain ⟨s, hs, hrun⟩ := Option.map_eq_some_iff.mp hrun
  simp only [Prod.mk.injEq] at hrun
  have hreach : Runs ConnectsEmpty s := .of_exec connectsEmpty_sound _ (.start ⟨_, _, rfl⟩) hs
  refine ⟨s, hreach, hrun.1, hrun.2, (descriptors_held hreach).2.1 ?_⟩
  rw [hrun.1]
  decide

/-- A second `Connect`, with the first connection open: the first two descriptors leak. -/
theorem connect_leaks :
    ¬ ∀ s, Reachable s → s.client.opened.Nodup → NoLeak s.client := by
  have hrun : (sampleExec (sampleLink ++ .connect "10.0.0.1" 80 3000
      :: List.replicate 3 (.net (sampleWorld 2000)))).map
      (fun s => (s.client.opened, s.client.closed, s.client.tcpSock, s.client.udpSock))
      = some ([6, 5, 4, 3], [], 5, 6) := by decide +kernel
  obtain ⟨s, hs, hrun⟩ := Option.map_eq_some_iff.mp hrun
  simp only [Prod.mk.injEq] at hrun
  obtain ⟨hopened, hclosed, htcp, hudp⟩ := hrun
  intro h
  have hreach : Reachable s := .of_exec (fun _ _ _ => trivial) _ (.start ⟨_, _, rfl⟩) hs
  have hheld := ((h s hreach (by rw [hopened]; decide)).1 3).mp ⟨by rw [hopened]; decide, by
    rw [hclosed]; exact List.not_mem_nil⟩
  rw [htcp, hudp] at hheld
  revert hheld
  decide

end ConnClient
