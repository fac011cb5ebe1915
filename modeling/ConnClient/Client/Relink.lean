/-
  The relink state machine.

  With the intervals configured before the first `Connect`, `relink_count_` counts the attempts since
  the last login, and there are at most as many as intervals.  What ends it all is a terminal close:
  `InnerClose` is terminal whenever the relinks are used up (`innerClose_exhausted`), no attempt
  follows one (`RelinkOk.after`), and an error before that is not terminal and leaves the session
  alone (`innerClose_error`).

  There are two halves.  The first is about ONE close, and reads the two branches of `InnerClose` off
  the reason it ends up with: below `CLIENT_CONNECT_ERROR` the session is released, `running_` cleared
  and the event of that written down; from there on the sockets are closed and no more.

  The second is about ALL runs.  `attempts` reads the trace of events from its end back to the last
  login, and `RelinkInv` says that the counter is that number.  Each move of the client writes one
  event, and only two kinds of events matter:

    a login    starts the count again, in the code and in the trace (`RelinkInv.login`);
    an attempt is made while `running_` is set and the relinks last, so it comes behind no terminal
               close and leaves the count within the intervals (`RelinkInv.attempt`).

  That the thread is not running behind a terminal close is the clause which makes the second one go
  through, and is why `RelinkInv` has it beside what the result says (`RelinkOk`).
-/
import ConnClient.Client.Paths

namespace ConnClient

open ConnClient.Lib ConnClient.Ikcp

/-! ## One close -/

/-- The branch that ends the session. -/
theorem closeSession_terminal {cx : Cx} {reason : Int} {c c' : Client}
    (hr : closeSession cx reason c = .ok c') :
    c'.kcpSession.kcp = none ∧ c'.running = false ∧ ∃ t, c'.trace = .terminal :: t := by
  obtain ⟨c₁, -, h₂⟩ := bind_eq_ok.mp hr
  obtain ⟨c₂, h₂, h₃⟩ := bind_eq_ok.mp h₂
  unfold sessionRelease at h₂
  split at h₂
  · nomatch h₂
  · cases h₂
    cases h₃
    exact ⟨rfl, rfl, _, rfl⟩

/-- What is left of a close after that keeps `running_` and the session, and adds two events at
    most. -/
theorem closeSockets_keeps (env : Env) (reason : Int) (c : Client) :
    (closeSockets env reason c).running = c.running
      ∧ (closeSockets env reason c).kcpSession = c.kcpSession
      ∧ ∀ e t, c.trace = e :: t → e ∈ (closeSockets env reason c).trace.take 3 := by
  have hctl := closeSockets_ctl env reason c
  refine ⟨congrArg Ctl.running hctl, (closeSockets_rest env reason c).2, fun e t he => ?_⟩
  rw [show (closeSockets env reason c).trace = c.ctl.report reason ++ .state .init :: c.trace from
    congrArg Ctl.trace hctl, he]
  unfold Ctl.report
  split <;> simp

/-- **A close for a reason below `CLIENT_CONNECT_ERROR` is terminal**: the session is released,
    `running_` is cleared, and the event of that is among the last three. -/
theorem innerClose_terminal {env : Env} {n : Nat} {reason : Int} {c c' : Client}
    (hr : innerClose env n reason c = .ok c') (hlt : closeReason reason c < clientConnectError) :
    c'.kcpSession.kcp = none ∧ c'.running = false ∧ .terminal ∈ c'.trace.take 3 := by
  cases n with
  | zero => cases hr
  | succ n =>
    change innerCloseBody env _ (reason, c) = .ok c' at hr
    rw [innerCloseBody] at hr
    dsimp only at hr
    rw [if_pos hlt] at hr
    obtain ⟨c₁, h₁, h₂⟩ := bind_eq_ok.mp hr
    cases h₂
    obtain ⟨hkcp, hrun, t, ht⟩ := closeSession_terminal h₁
    obtain ⟨hrun', hsession, hevents⟩ := closeSockets_keeps env (closeReason reason c) c₁
    exact ⟨hsession ▸ hkcp, hrun'.trans hrun, hevents _ _ ht⟩

/-- **With the relinks used up, every close is.** -/
theorem innerClose_exhausted {env : Env} {n : Nat} {reason : Int} {c c' : Client}
    (hr : innerClose env n reason c = .ok c') (hx : c.exhausted = true) :
    c'.kcpSession.kcp = none ∧ c'.running = false ∧ .terminal ∈ c'.trace.take 3 := by
  have hreason : closeReason reason c = clientConnectTimeout := if_pos hx
  refine innerClose_terminal hr ?_
  rw [hreason]
  decide

/-- **Before that, an error leaves the net thread running and the session alone.** -/
theorem innerClose_error {env : Env} {n : Nat} {reason : Int} {c c' : Client}
    (hr : innerClose env n reason c = .ok c') (hpos : clientConnectError ≤ reason)
    (hx : c.exhausted = false) : c'.running = c.running ∧ c'.kcpSession = c.kcpSession := by
  cases n with
  | zero => nomatch hr
  | succ n =>
    -- the reason is rewritten only when the relinks are used up
    have hreason : closeReason reason c = reason := if_neg (by rw [hx]; exact Bool.false_ne_true)
    change innerCloseBody env _ (reason, c) = .ok c' at hr
    unfold innerCloseBody at hr
    dsimp only at hr
    rw [hreason, if_neg (by omega)] at hr
    cases hr
    obtain ⟨hrun, hsession, -⟩ := closeSockets_keeps env reason c
    exact ⟨hrun, hsession⟩

/-! ## All runs -/

/-- The attempts since the last login. -/
def attempts : List Ev → Nat
  | [] => 0
  | .state .logicConnected :: _ => 0
  | .attempt :: t => attempts t + 1
  | _ :: t => attempts t

/-- The configuration is done before the first `Connect`. -/
def Preconfigured (s : Sys) (a : Act) : Prop := a.configures = true → s.client.thread = false

/-- The state of the relinks. -/
structure RelinkOk (k : Ctl) : Prop where
  /-- `relink_count_` is the number of attempts since the last login. -/
  count : k.relinkCount = attempts k.trace
  /-- Between two logins, and since the last, there were at most as many as there are intervals. -/
  bound : ∀ t, t <:+ k.trace → attempts t ≤ k.relinkIntervalMsVec.length
  five : k.relinkIntervalMsVec.length ≤ 5
  /-- No attempt after a terminal close. -/
  after : ∀ new old, k.trace = new ++ .terminal :: old → .attempt ∉ new

/-- After a terminal close the net thread is to end. -/
structure RelinkInv (k : Ctl) : Prop extends RelinkOk k where
  stopped : .terminal ∈ k.trace → k.running = false

/-- Nothing before a terminal close. -/
theorem after_cons {e : Ev} {t : List Ev} (h : ∀ new old, t = new ++ .terminal :: old → .attempt ∉ new)
    (he : e = .attempt → .terminal ∉ t) :
    ∀ new old, e :: t = new ++ .terminal :: old → .attempt ∉ new := by
  intro new old hsplit
  cases new with
  | nil => exact List.not_mem_nil
  | cons x new =>
    rw [List.cons_append, List.cons.injEq] at hsplit
    obtain ⟨rfl, rfl⟩ := hsplit
    intro hmem
    rcases List.mem_cons.mp hmem with hx | hmem
    · exact he hx.symm (List.mem_append_right _ (List.mem_cons_self ..))
    · exact h new old rfl hmem

/-- An event that is no attempt and no login. -/
theorem RelinkInv.log {k k' : Ctl} {e : Ev} (h : RelinkInv k) (htrace : k'.trace = e :: k.trace)
    (hcount : attempts (e :: k.trace) = attempts k.trace) (he : e ≠ .attempt)
    (hrun : k'.running = k.running ∧ e ≠ .terminal ∨ k'.running = false)
    (hsame : k'.relinkCount = k.relinkCount ∧ k'.relinkIntervalMsVec = k.relinkIntervalMsVec) :
    RelinkInv k' := by
  refine ⟨⟨?_, ?_, ?_, ?_⟩, ?_⟩
  · rw [hsame.1, htrace, hcount]
    exact h.count
  · intro t ht
    rw [hsame.2]
    rw [htrace] at ht
    rcases List.suffix_cons_iff.mp ht with rfl | ht
    · rw [hcount]
      exact h.bound _ (List.suffix_refl _)
    · exact h.bound t ht
  · rw [hsame.2]
    exact h.five
  · rw [htrace]
    exact after_cons h.after fun hattempt => absurd hattempt he
  · rw [htrace]
    intro hmem
    rcases hrun with ⟨hrun, hterm⟩ | hrun
    · rw [hrun]
      exact h.stopped ((List.mem_cons.mp hmem).resolve_left fun hx => hterm hx.symm)
    · exact hrun

/-- A login starts the count again. -/
theorem RelinkInv.login {k : Ctl} (h : RelinkInv k) : RelinkInv (k.login []) := by
  refine ⟨⟨rfl, ?_, h.five, after_cons h.after nofun⟩, ?_⟩
  · intro t ht
    rcases List.suffix_cons_iff.mp ht with rfl | ht
    · exact Nat.zero_le _
    · exact h.bound t ht
  · intro hmem
    exact h.stopped ((List.mem_cons.mp hmem).resolve_left fun hx => nomatch hx)

/-- An attempt is made while the thread is to run, so after no terminal close, and while the relinks
    last. -/
theorem RelinkInv.attempt {k : Ctl} (h : RelinkInv k) (hr : k.running = true)
    (hx : k.exhausted = false) :
    RelinkInv { k with relinkCount := k.relinkCount + 1, trace := .attempt :: k.trace } := by
  have hterm : .terminal ∉ k.trace := fun hmem => nomatch hr.symm.trans (h.stopped hmem)
  have hlt : attempts k.trace < k.relinkIntervalMsVec.length := by
    have hlt := of_decide_eq_false hx
    rw [h.count] at hlt
    omega
  refine ⟨⟨?_, ?_, h.five, after_cons h.after fun _ => hterm⟩, ?_⟩
  · show k.relinkCount + 1 = ((attempts k.trace + 1 : Nat) : Int)
    rw [h.count]
    rfl
  · intro t ht
    rcases List.suffix_cons_iff.mp ht with rfl | ht
    · exact hlt
    · exact h.bound t ht
  · intro hmem
    exact absurd ((List.mem_cons.mp hmem).resolve_left fun hx => nomatch hx) hterm

/-- **Every move keeps it.** -/
theorem Move.relinkInv {k k' : Ctl} (hm : Move k k') (h : RelinkInv k) : RelinkInv k' := by
  cases hm with
  | close hc =>
    cases hc with
    | enter | leave => exact ⟨⟨h.count, h.bound, h.five, h.after⟩, h.stopped⟩
    | output => exact h.log rfl rfl nofun (Or.inl ⟨rfl, nofun⟩) ⟨rfl, rfl⟩
    | terminal => exact h.log rfl rfl nofun (Or.inr rfl) ⟨rfl, rfl⟩
    | @shut reason _ hs =>
      have hinit : RelinkInv { k with
          tcpSock := -1, udpSock := -1, connState := .init, trace := .state .init :: k.trace } :=
        h.log rfl rfl nofun (Or.inl ⟨rfl, nofun⟩) ⟨rfl, rfl⟩
      unfold Ctl.shut Ctl.report
      split
      · exact hinit.log rfl rfl nofun (Or.inl ⟨rfl, nofun⟩) ⟨rfl, rfl⟩
      · exact hinit
  | noRoom | connecting | dialFail | connected =>
    exact h.log rfl rfl nofun (Or.inl ⟨rfl, nofun⟩) ⟨rfl, rfl⟩
  | login _ hn =>
    rcases hn with ⟨rfl, -⟩ | rfl | rfl
    · exact h.login
    · exact h.login.log rfl rfl nofun (Or.inl ⟨rfl, nofun⟩) ⟨rfl, rfl⟩
    · exact h.login.log rfl rfl nofun (Or.inl ⟨rfl, nofun⟩) ⟨rfl, rfl⟩
  | loginLost =>
    exact h.login.log rfl rfl nofun (Or.inl ⟨rfl, nofun⟩) ⟨rfl, rfl⟩
  | lateNote _ ht =>
    rcases ht with rfl | rfl <;>
      exact h.log rfl rfl nofun (Or.inl ⟨rfl, nofun⟩) ⟨rfl, rfl⟩
  -- the source puts a negative counter to zero; it is a number of attempts, so it never is
  | clamp =>
    refine ⟨⟨?_, h.bound, h.five, h.after⟩, h.stopped⟩
    show (if k.relinkCount < 0 then 0 else k.relinkCount) = _
    rw [if_neg (by rw [h.count]; omega)]
    exact h.count
  | attempt hr hx => exact h.attempt hr hx
  | @take t rest live _ hq =>
    have hran : RelinkInv (k.take t rest live []) :=
      h.log rfl rfl nofun (Or.inl ⟨rfl, nofun⟩) ⟨rfl, rfl⟩
    unfold handedBy
    split
    · split
      · exact hran.log rfl rfl nofun (Or.inl ⟨rfl, nofun⟩) ⟨rfl, rfl⟩
      · exact hran
    · exact hran

theorem AppMove.relinkInv {k k' : Ctl} (hm : AppMove k k') (h : RelinkInv k) : RelinkInv k' := by
  cases hm with
  | accept => exact h.log rfl rfl nofun (Or.inl ⟨rfl, nofun⟩) ⟨rfl, rfl⟩
  | ask => exact ⟨⟨h.count, h.bound, h.five, h.after⟩, h.stopped⟩

/-- Until the net thread runs, nothing happens. -/
def Early (s : Sys) : Prop :=
  (s.client.thread = false → s.pc = .none)
  ∧ (s.pc = .none ∨ s.pc = .start →
      s.client.trace = [] ∧ s.client.connState = .init ∧ s.client.relinkCount = 0)

/-- The configuration, while nothing has happened. -/
theorem relinkInv_vec {k : Ctl} (h : RelinkInv k) (htrace : k.trace = []) {vec : List Int}
    (hvec : vec.length ≤ 5) : RelinkInv { k with relinkIntervalMsVec := vec } := by
  refine ⟨⟨h.count, fun t ht => ?_, hvec, h.after⟩, h.stopped⟩
  rw [show ({ k with relinkIntervalMsVec := vec } : Ctl).trace = [] from htrace] at ht
  rw [List.suffix_nil.mp ht]
  exact Nat.zero_le _

/-- `AddRelinkInterval` keeps five intervals at most. -/
theorem length_addRelinkInterval {msec : Int} {c : Client} (h : c.relinkIntervalMsVec.length ≤ 5) :
    (addRelinkInterval msec c).relinkIntervalMsVec.length ≤ 5 := by
  unfold addRelinkInterval
  generalize hvec : (if c.relinkIntervalMsVec = [] then [0] else c.relinkIntervalMsVec) = vec
  have hlen : vec.length ≤ 5 := by
    rw [← hvec]
    split
    · decide
    · exact h
  dsimp only
  split
  · rename_i hlt
    rw [List.length_insertionSort, List.length_append]
    exact hlt
  · exact hlen

/-- The net thread does not go back. -/
theorem netStep_pc {w : World} {s s' : Sys} (hpc : s.pc ≠ .none) (hr : netStep w s = .ok s') :
    s'.pc ≠ .none ∧ s'.pc ≠ .start := by
  unfold netStep at hr
  split at hr
  case h_1 hnone => exact absurd hnone hpc
  case h_2 =>
    cases hr
    exact ⟨nofun, nofun⟩
  case h_3 =>
    split at hr
    · cases hr
      exact ⟨nofun, nofun⟩
    · split at hr <;> cases hr <;> exact ⟨nofun, nofun⟩
  case h_6 hdrain =>
    split at hr
    · cases hr
      exact ⟨nofun, nofun⟩
    · obtain ⟨c₁, h₁, h₂⟩ := bind_eq_ok.mp hr
      cases h₂
      rw [hdrain]
      exact ⟨nofun, nofun⟩
  case h_12 hleft =>
    cases hr
    rw [hleft]
    exact ⟨nofun, nofun⟩
  all_goals
    obtain ⟨c₁, h₁, h₂⟩ := bind_eq_ok.mp hr
    cases h₂
    exact ⟨nofun, nofun⟩

/-- Before the thread runs, no application call does anything but enqueue. -/
theorem early_step {a : Act} {s s' : Sys} (he : Early s) (hr : sysStep a s = .ok s') : Early s' := by
  obtain ⟨hthread, hquiet⟩ := he
  cases a with
  | connect ip port timeoutMs =>
    cases hr
    unfold connect
    dsimp only
    split
    · rename_i ht
      exact ⟨fun hf => (nomatch ht.symm.trans hf), hquiet⟩
    · rename_i ht
      exact ⟨nofun, fun _ => hquiet (Or.inl (hthread (Bool.of_not_eq_true ht)))⟩
  | sendMsg msg =>
    cases hr
    unfold sendMsg
    split
    · exact ⟨hthread, hquiet⟩
    · -- a message is taken only when logged in
      rename_i hst
      refine ⟨hthread, fun hpc => absurd (hquiet hpc).2.1 fun hinit => ?_⟩
      exact nomatch (logic_of_ord hst).symm.trans hinit
  | close | update | addRelinkInterval | clearRelinkInterval | setMagicNum =>
    cases hr
    exact ⟨hthread, hquiet⟩
  -- without a login there is nothing to switch
  | switchNetwork w =>
    obtain ⟨c₁, h₁, h₂⟩ := bind_eq_ok.mp hr
    cases h₂
    have hmoved := switchNetwork_moved (innerClose_closes w.env w.depth) h₁
    refine ⟨fun hf => hthread (hmoved.path.thread.symm.trans hf), fun hpc => ?_⟩
    · have hst := (hquiet hpc).2.1
      have hlogic : ¬ (s.client.connState = .logicConnected ∧ s.client.relinkCount = 0) :=
        fun hl => nomatch hst.symm.trans hl.1
      unfold switchNetwork at h₁
      rw [if_neg hlogic] at h₁
      cases h₁
      exact hquiet hpc
  | net w =>
    have hr : netStep w s = .ok s' := hr
    by_cases hpc : s.pc = .none
    · unfold netStep at hr
      rw [hpc] at hr
      cases hr
      exact ⟨hthread, hquiet⟩
    · obtain ⟨hn, hs⟩ := netStep_pc hpc hr
      have ht : s.client.thread = true := by
        cases ht : s.client.thread with
        | true => rfl
        | false => exact absurd (hthread ht) hpc
      have ht' : s'.client.thread = true := by
        by_cases hstart : s.pc = .start
        · unfold netStep at hr
          rw [hstart] at hr
          cases hr
          exact ht
        · exact (netStep_path hstart hr).1.thread.trans ht
      exact ⟨fun hf => (nomatch ht'.symm.trans hf), fun hpc' => (hpc'.elim hn hs).elim⟩

/-- **A step of a configured client.** -/
theorem relinkInv_step {a : Act} {s s' : Sys} (hc : Preconfigured s a) (he : Early s)
    (h : RelinkInv s.client.ctl) (hr : sysStep a s = .ok s') : RelinkInv s'.client.ctl := by
  by_cases hnet : ∀ w, a ≠ .net w
  · cases ha : a.configures with
    | true =>
      -- nothing has happened before the first `Connect`, so every vector of intervals bounds it
      have htrace := (he.2 (Or.inl (he.1 (hc ha)))).1
      cases a with
      | addRelinkInterval msec =>
        cases hr
        exact relinkInv_vec h htrace (length_addRelinkInterval h.five)
      | clearRelinkInterval =>
        cases hr
        exact relinkInv_vec h htrace (Nat.zero_le 5)
      | _ => nomatch ha
    | false =>
      rcases appStep_path ha hnet hr with hm | hpath
      · exact hm.relinkInv h
      · exact hpath.inv (fun _ _ hm => hm.relinkInv) h
  · obtain ⟨w, hw⟩ := not_forall.mp hnet
    cases not_not.mp hw
    by_cases hpc : s.pc = .start
    · -- the thread starts: `running_` is set and the counter, which is zero, cleared
      obtain ⟨htrace, -, hcount⟩ := he.2 (Or.inr hpc)
      change netStep w s = .ok s' at hr
      unfold netStep at hr
      rw [hpc] at hr
      cases hr
      refine ⟨⟨?_, h.bound, h.five, h.after⟩, fun hmem => ?_⟩
      · exact hcount ▸ h.count
      · rw [show Ctl.trace _ = [] from htrace] at hmem
        exact absurd hmem List.not_mem_nil
    · exact (netStep_path hpc hr).1.inv (fun _ _ hm => hm.relinkInv) h

/-- **The relink state machine.**  In every run with the intervals configured before the first
    `Connect`, the counter is the number of attempts since the last login, at most one for each of
    at most five intervals, and none after a terminal close; and every `InnerClose` that returns is
    terminal when the relinks are used up, and for an error before that leaves `running_` and the
    session as they were. -/
theorem relink_machine :
    (∀ s, Runs Preconfigured s → RelinkOk s.client.ctl)
    ∧ ∀ env n reason c c', innerClose env n reason c = .ok c' →
      (c.exhausted = true →
        c'.kcpSession.kcp = none ∧ c'.running = false ∧ .terminal ∈ c'.trace.take 3)
      ∧ (clientConnectError ≤ reason → c.exhausted = false →
        c'.running = c.running ∧ c'.kcpSession = c.kcpSession) := by
  refine ⟨fun s h => ?_, fun env n reason c c' hr => ⟨innerClose_exhausted hr, innerClose_error hr⟩⟩
  have hok : RelinkInv s.client.ctl ∧ Early s := by
    refine h.inv (I := fun s => RelinkInv s.client.ctl ∧ Early s) ?_ ?_
    · rintro s ⟨cb, now, rfl⟩
      refine ⟨⟨⟨rfl, fun t ht => ?_, Nat.zero_le 5, fun new old hsplit => ?_⟩, nofun⟩,
        fun _ => rfl, fun _ => ⟨rfl, rfl, rfl⟩⟩
      · rw [List.suffix_nil.mp ht]
        exact Nat.le_refl 0
      · have hlen := congrArg List.length hsplit
        rw [List.length_append, List.length_cons] at hlen
        exact absurd hlen (Nat.succ_ne_zero _).symm
    · intro s s' a _ hs hc hr
      exact ⟨relinkInv_step hc hs.2 hs.1 hr, early_step hs.2 hr⟩
  exact hok.1.toRelinkOk

/-- `Preconfigured`, as a test. -/
def preconfigured (s : Sys) (a : Act) : Bool := !a.configures || !s.client.thread

/-- A server that closes the connection, and the first relink. -/
theorem relink_machine_attempt :
    ∃ s, Runs Preconfigured s ∧ attempts s.client.trace = 1 ∧ RelinkOk s.client.ctl := by
  have hrun : (exec sysStep preconfigured (.addRelinkInterval 1000 :: sampleRead []
      ++ List.replicate 5 (.net (sampleWorld 2000))) sampleClient).map
      (fun s => attempts s.client.trace) = some 1 := by decide +kernel
  obtain ⟨s, hs, hone⟩ := Option.map_eq_some_iff.mp hrun
  have hsound : ∀ s a, preconfigured s a = true → Preconfigured s a := by
    intro s a htest hconf
    simpa [preconfigured, hconf] using htest
  have h : Runs Preconfigured s := .of_exec hsound _ (.start ⟨_, _, rfl⟩) hs
  exact ⟨s, h, hone, relink_machine.1 s h⟩

end ConnClient
