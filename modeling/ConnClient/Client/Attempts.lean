/-
  Which attempt a relink is reported as.

  `CheckRelink` counts the attempt and enqueues a task for the application, and the task reads
  `relink_count_` when `Update` executes it, not when it is enqueued.  In between the net thread goes
  on: another attempt counts further, a login sets the counter to zero.  Then the first attempt is
  reported as the second, or as none (`attempt_misreported`).

  The counter itself is right: it is the number of attempts since the last login, in every reachable
  state.  So a report is right as long as no attempt and no login comes between the task and its
  execution (`attempts_reported`).  `Followed` is the system together with what the property speaks of:
  for every relink task in `out_queue_` what was true when it was enqueued.  That these stamps are the
  right ones rests on nothing but `CheckRelink` enqueueing relink tasks, and on its doing so one at a
  time (`sysStep_tasks`).  The number of relink tasks is of the core, so for everything but `CheckRelink`
  and `Update` the rule of the net thread says that it stays (`walk_tasks`).
-/
import ConnClient.Client.Deadline
import ConnClient.Client.Release

namespace ConnClient

open ConnClient.Lib ConnClient.Ikcp

/-! ## The relink tasks -/

/-- A call that returns leaves `n` relink tasks in the queue. -/
abbrev Leaves {α : Type} (n : Nat) (get : α → Client) : Except (Stop × Client) α → Prop :=
  Ends (fun a => relinkTasks (get a) = n) (fun _ => True)

/-- Their number is of the core, and no change of the core is a change of it. -/
theorem walk_tasks (n : Nat) :
    Walk (fun _ => True) (fun k => k.relinks = n) fun k => k.relinks = n where
  blocks := blockInv_true
  weak h := h
  held _ _ := trivial
  closing _ _ h := h
  closingBlock h _ := h
  release h := h
  shut h := h
  write h _ _ := h
  drained h _ := h
  block h _ := h
  read h _ := h
  login h _ := h

/-- Nor is opening sockets. -/
theorem connects_tasks {n : Nat} {k : Core} (h : k.relinks = n) (tcp udp : Option Nat) :
    Connects (fun k => k.relinks = n) (fun k => k.relinks = n) k tcp udp where
  noTcp _ := h
  noUdp _ _ := h
  both _ _ := h

/-- A call that returns adds one relink task, or none. -/
abbrev AddsOne (n : Nat) : M Client → Prop :=
  Ends (fun c => relinkTasks c = n ∨ relinkTasks c = n + 1) (fun _ => True)

/-- **`CheckRelink` adds at most one**: the one it enqueues when the attempt is made. -/
theorem checkRelink_leaves {c : Client} {n : Nat} (env : Env) (depth : Nat) (hc : relinkTasks c = n)
    (nowMs : Int) : AddsOne n (checkRelink (.of env depth) nowMs c) := by
  unfold checkRelink
  split
  · exact .returned (Or.inl hc)
  dsimp only
  split
  · exact .returned (Or.inl hc)
  split
  · -- the counter and the time of the attempt are no part of the core
    refine Ends.bind (Q := fun c₁ => c₁.core.relinks = n) (innerConnect_ends
      ((walk_tasks n).innerClose env depth) (connects_tasks ?_ _ _)) ?_
    · exact hc
    intro c₁ hc₁
    split
    · refine .returned (Or.inr ?_)
      show (c₁.enqueueOut .relink).core.relinks = n + 1
      rw [enqueueOut_relink, hc₁]
    · exact .returned (Or.inl hc₁)
  · exact .returned (Or.inl hc)

/-! ## A step of the system -/

/-- `Update` is about to execute a relink task. -/
def Act.takesRelink (s : Sys) : Act → Bool
  | .update => s.client.outQueue.head? == some .relink
  | _ => false

/-- What a step does to the relink tasks in the queue. -/
inductive TaskStep (s : Sys) (a : Act) (s' : Sys) : Prop where
  | taken (h : a.takesRelink s = true) (hn : relinkTasks s.client = relinkTasks s'.client + 1) :
      TaskStep s a s'
  | enqueued (h : a.takesRelink s = false) (hpc : s.pc = .relink)
      (hn : relinkTasks s'.client = relinkTasks s.client + 1) : TaskStep s a s'
  | kept (h : a.takesRelink s = false) (hn : relinkTasks s'.client = relinkTasks s.client) :
      TaskStep s a s'

/-- The net thread at work leaves the tasks alone, `CheckRelink` apart. -/
theorem netStep_leaves {w : World} {s : Sys} (hpc : s.pc ≠ .relink) :
    Leaves (relinkTasks s.client) Sys.client (netStep w s) :=
  (walk_tasks (relinkTasks s.client)).netStep rfl (fun _ => connects_tasks (k := s.client.core) rfl _ _)
    (fun _ => rfl) fun h => absurd h hpc

/-- So does a close, whoever asks for it. -/
theorem switchNetwork_leaves (w : World) (c : Client) :
    Leaves (relinkTasks c) id (switchNetwork w.cx c) := by
  unfold switchNetwork
  split
  · exact (walk_tasks (relinkTasks c)).innerClose w.env w.depth _ c rfl
  · exact .returned rfl

/-- `Update` takes the first task out, a relink task ... -/
theorem update_takes {s : Sys} (h : Act.takesRelink s .update = true) :
    relinkTasks s.client = relinkTasks (update s.client) + 1 := by
  show s.client.outQueue.count .relink = s.client.outQueue.tail.count .relink + 1
  rw [Act.takesRelink] at h
  cases hq : s.client.outQueue with
  | nil =>
    rw [hq] at h
    cases h
  | cons t rest =>
    rw [hq] at h
    have ht : t = .relink := Option.some.inj (eq_of_beq h)
    rw [ht, List.count_cons_self, List.tail_cons]

/-- ... or another one. -/
theorem update_keeps {s : Sys} (h : Act.takesRelink s .update = false) :
    relinkTasks (update s.client) = relinkTasks s.client := by
  show s.client.outQueue.tail.count .relink = s.client.outQueue.count .relink
  rw [Act.takesRelink] at h
  cases hq : s.client.outQueue with
  | nil => rfl
  | cons t rest =>
    rw [hq] at h
    have ht : t ≠ .relink := fun ht => ne_of_beq_false h (congrArg some ht)
    rw [List.count_cons_of_ne ht, List.tail_cons]

/-- **What a step does to the relink tasks**: `Update` takes one out, `CheckRelink` puts one in, and
    nothing else changes their number. -/
theorem sysStep_tasks {a : Act} {s s' : Sys} (hr : sysStep a s = .ok s') : TaskStep s a s' := by
  cases a with
  | connect ip port timeoutMs =>
    cases hr
    refine .kept rfl ?_
    unfold connect
    dsimp only
    split
    · rfl
    · rfl
  | sendMsg msg =>
    cases hr
    refine .kept rfl ?_
    unfold sendMsg
    split
    · rfl
    · rfl
  | close | addRelinkInterval | clearRelinkInterval | setMagicNum =>
    cases hr
    exact .kept rfl rfl
  | update =>
    cases hr
    cases htakes : Act.takesRelink s .update with
    | true => exact .taken htakes (update_takes htakes)
    | false => exact .kept htakes (update_keeps htakes)
  | switchNetwork w =>
    obtain ⟨c₁, h₁, h₂⟩ := bind_eq_ok.mp hr
    cases h₂
    refine .kept rfl ?_
    have hswitch := switchNetwork_leaves w s.client
    rw [h₁] at hswitch
    cases hswitch with
    | returned h => exact h
  | net w =>
    change netStep w s = .ok s' at hr
    by_cases hpc : s.pc = .relink
    · rw [netStep, hpc] at hr
      obtain ⟨c₁, h₁, h₂⟩ := bind_eq_ok.mp hr
      cases h₂
      have hrelink := checkRelink_leaves w.env w.depth (c := s.client) rfl s.nowMs
      rw [show checkRelink (.of w.env w.depth) s.nowMs s.client = .ok c₁ from h₁] at hrelink
      cases hrelink with
      | returned h =>
        rcases h with h | h
        · exact .kept rfl h
        · exact .enqueued rfl hpc h
    · have hleaves := netStep_leaves (w := w) hpc
      rw [hr] at hleaves
      cases hleaves with
      | returned h => exact .kept rfl h

/-! ## What is reported -/

/-- What was true when a relink task was enqueued. -/
structure Stamp where
  /-- `relink_count_` -/
  count : Int
  /-- Which attempt since the last login it is. -/
  attempt : Nat
  deriving DecidableEq

/-- The system, and what became of its relink tasks. -/
structure Followed where
  sys : Sys
  /-- The stamps of the relink tasks in `out_queue_`, oldest first. -/
  waiting : List Stamp
  /-- What `CallLuaCallback` was given for the tasks that were executed, newest first. -/
  passed : List (Int × Stamp)

/-- A step.  Enqueueing a relink task is the last thing `CheckRelink` does, so the state after the
    step is that of the stamp; executing it is all its `Update` does, so the value is that before. -/
def follow (a : Act) (t : Followed) : M Followed := do
  let s ← sysStep a t.sys
  if a.takesRelink t.sys then
    .ok ⟨s, t.waiting.drop 1,
      (t.waiting.take 1).map (fun stamp => (t.sys.client.relinkCount, stamp)) ++ t.passed⟩
  else if relinkTasks t.sys.client < relinkTasks s.client then
    .ok ⟨s, t.waiting ++ [⟨s.client.relinkCount, attempts s.client.trace⟩], t.passed⟩
  else .ok { t with sys := s }

/-- Nothing has happened yet. -/
def NewlyFollowed (t : Followed) : Prop := Fresh t.sys ∧ t.waiting = [] ∧ t.passed = []

/-- The runs of the followed system. -/
abbrev FollowedRuns (C : Followed → Act → Prop) : Followed → Prop := Reach follow NewlyFollowed C

/-- The events of a step. -/
def eventsOf (s : Sys) (a : Act) : List Ev :=
  (eventsAfter (sysStep a s)).take ((eventsAfter (sysStep a s)).length - s.client.trace.length)

/-- While a relink task waits, the step makes no attempt and no login. -/
def TaskInTime (t : Followed) (a : Act) : Prop :=
  .relink ∈ t.sys.client.outQueue →
    .attempt ∉ eventsOf t.sys a ∧ .state .logicConnected ∉ eventsOf t.sys a

theorem attempts_append {new : List Ev} (ha : .attempt ∉ new) (hl : .state .logicConnected ∉ new)
    (t : List Ev) : attempts (new ++ t) = attempts t := by
  induction new with
  | nil => rfl
  | cons e new ih =>
    have ih := ih (fun h => ha (List.mem_cons_of_mem _ h)) fun h => hl (List.mem_cons_of_mem _ h)
    cases e with
    | attempt => exact absurd (List.mem_cons_self ..) ha
    | state st =>
      cases st with
      | logicConnected => exact absurd (List.mem_cons_self ..) hl
      | init | connecting | connected => exact ih
    | _ => exact ih

/-- A step that makes no attempt and no login keeps the counter. -/
theorem relinkCount_kept {s s' : Sys} {a : Act} (hs : Reachable s) (hr : sysStep a s = .ok s')
    (ha : .attempt ∉ eventsOf s a) (hl : .state .logicConnected ∉ eventsOf s a) :
    s'.client.relinkCount = s.client.relinkCount := by
  have hsafe := sysStep_safe (a := a) (Runs.brackets hs)
  rw [eventsOf, hr] at ha hl
  rw [hr] at hsafe
  cases hsafe with
  | returned _ ht =>
    obtain ⟨new, hnew⟩ := ht
    have hevents : s'.client.trace.take (s'.client.trace.length - s.client.trace.length) = new := by
      rw [← hnew, List.length_append, Nat.add_sub_cancel, List.take_left]
    rw [eventsAfter, hevents] at ha hl
    have hcount : s.client.relinkCount = attempts s.client.trace := reachable_counted hs
    have hcount' : s'.client.relinkCount = attempts s'.client.trace :=
      reachable_counted (.step hs trivial hr)
    rw [hcount', hcount, ← hnew, attempts_append ha hl]

/-- The stamps are those of the tasks in the queue, the counter still has the value of each, and
    everything that was passed on was right. -/
structure Timely (t : Followed) : Prop where
  reachable : Reachable t.sys
  stamps : t.waiting.length = relinkTasks t.sys.client
  current : ∀ stamp ∈ t.waiting,
    stamp.count = t.sys.client.relinkCount ∧ stamp.attempt = t.sys.client.relinkCount
  passed : ∀ p ∈ t.passed, p.1 = p.2.count ∧ p.1 = p.2.attempt

/-- **A step in time.** -/
theorem timely_step {t t' : Followed} {a : Act} (h : Timely t) (hc : TaskInTime t a)
    (hr : follow a t = .ok t') : Timely t' := by
  obtain ⟨s, hs, hr⟩ := bind_eq_ok.mp hr
  have hreach : Reachable s := .step h.reachable trivial hs
  -- a stamp in waiting means a task in the queue, so the counter is kept
  have hcurrent : ∀ stamp ∈ t.waiting,
      stamp.count = s.client.relinkCount ∧ stamp.attempt = s.client.relinkCount := by
    intro stamp hstamp
    have hpos : 0 < relinkTasks t.sys.client := h.stamps ▸ List.length_pos_of_mem hstamp
    obtain ⟨hattempt, hlogin⟩ := hc (List.count_pos_iff.mp hpos)
    rw [relinkCount_kept h.reachable hs hattempt hlogin]
    exact h.current stamp hstamp
  cases sysStep_tasks hs with
  | taken htake hn =>
    rw [if_pos htake] at hr
    cases hr
    constructor
    · exact hreach
    · show (t.waiting.drop 1).length = relinkTasks s.client
      rw [List.length_drop, h.stamps]
      omega
    · intro stamp hstamp
      exact hcurrent stamp (List.mem_of_mem_drop hstamp)
    · intro p hp
      rcases List.mem_append.mp hp with hp | hp
      · obtain ⟨stamp, hstamp, rfl⟩ := List.mem_map.mp hp
        obtain ⟨hcount, hattempt⟩ := h.current stamp (List.mem_of_mem_take hstamp)
        exact ⟨hcount.symm, hattempt.symm⟩
      · exact h.passed p hp
  | enqueued hno hpc hn =>
    rw [if_neg (by rw [hno]; exact Bool.false_ne_true), if_pos (by omega)] at hr
    cases hr
    constructor
    · exact hreach
    · show (t.waiting ++ [_]).length = relinkTasks s.client
      rw [List.length_append, List.length_singleton, h.stamps, hn]
    · intro stamp hstamp
      rcases List.mem_append.mp hstamp with hstamp | hstamp
      · exact hcurrent stamp hstamp
      · cases List.mem_singleton.mp hstamp
        exact ⟨rfl, (reachable_counted hreach).symm⟩
    · exact h.passed
  | kept hno hn =>
    rw [if_neg (by rw [hno]; exact Bool.false_ne_true), if_neg (by omega)] at hr
    cases hr
    constructor
    · exact hreach
    · exact h.stamps.trans hn.symm
    · exact hcurrent
    · exact h.passed

/-- **What is reported of the attempts.**  In every run in which no attempt and no login happens while
    a relink task waits, each relink task has its stamp, and each one executed passes on the value
    `relink_count_` had when it was enqueued: for the `k`-th attempt since the last login, `k`. -/
theorem attempts_reported {t : Followed} (h : FollowedRuns TaskInTime t) :
    t.waiting.length = relinkTasks t.sys.client
      ∧ ∀ p ∈ t.passed, p.1 = p.2.count ∧ p.1 = p.2.attempt := by
  have htimely : Timely t := by
    refine h.inv (I := Timely) ?_ fun t t' a _ ht hc hr => timely_step ht hc hr
    rintro t ⟨⟨cb, now, hsys⟩, hwaiting, hpassed⟩
    constructor
    · exact .start ⟨cb, now, hsys⟩
    · rw [hwaiting, hsys]
      rfl
    · intro stamp hstamp
      rw [hwaiting] at hstamp
      cases hstamp
    · intro p hp
      rw [hpassed] at hp
      cases hp
  exact ⟨htimely.stamps, htimely.passed⟩

/-- `TaskInTime`, as a test. -/
def taskInTime (t : Followed) (a : Act) : Bool :=
  !t.sys.client.outQueue.contains .relink ||
    (!(eventsOf t.sys a).contains .attempt && !(eventsOf t.sys a).contains (.state .logicConnected))

theorem taskInTime_sound (t : Followed) (a : Act) (h : taskInTime t a = true) : TaskInTime t a := by
  intro hmem
  rw [taskInTime, List.contains_iff_mem.mpr hmem] at h
  simpa using h

/-- The connection is lost, and the first of two relinks is attempted at once. -/
def sampleAttempt : List Act :=
  .addRelinkInterval 0 :: sampleRead [] ++ List.replicate 5 (.net (sampleWorld 2000))

/-- `Update` executes the relink task before anything else happens. -/
theorem attempts_reported_once :
    ∃ t, FollowedRuns TaskInTime t ∧ t.passed = [(1, ⟨1, 1⟩)]
      ∧ t.waiting.length = relinkTasks t.sys.client
      ∧ ∀ p ∈ t.passed, p.1 = p.2.count ∧ p.1 = p.2.attempt := by
  have hrun : (exec follow taskInTime (sampleAttempt ++ [.update, .update])
      ⟨sampleClient, [], []⟩).map (·.passed) = some [(1, ⟨1, 1⟩)] := by decide +kernel
  obtain ⟨t, ht, hpassed⟩ := Option.map_eq_some_iff.mp hrun
  have h : FollowedRuns TaskInTime t :=
    .of_exec taskInTime_sound _ (.start ⟨⟨_, _, rfl⟩, rfl, rfl⟩) ht
  exact ⟨t, h, hpassed, attempts_reported h⟩

/-- The first attempt fails and the second is made, then comes the `Update`: it reports the first
    attempt as the second. -/
theorem attempt_misreported :
    ¬ ∀ t, FollowedRuns (fun _ _ => True) t →
      ∀ p ∈ t.passed, p.1 = p.2.count ∧ p.1 = p.2.attempt := by
  intro hclaim
  have hrun : (exec follow (fun _ _ => true) (sampleAttempt
      ++ List.replicate 2 (.net (sampleNews 2000 (.readable [])))
      ++ List.replicate 20 (.net (sampleWorld 2000)) ++ [.update, .update])
      ⟨sampleClient, [], []⟩).map (·.passed) = some [(2, ⟨1, 1⟩)] := by decide +kernel
  obtain ⟨t, ht, hpassed⟩ := Option.map_eq_some_iff.mp hrun
  have h : FollowedRuns (fun _ _ => True) t :=
    .of_exec (fun _ _ _ => trivial) _ (.start ⟨⟨_, _, rfl⟩, rfl, rfl⟩) ht
  have hright := hclaim t h (2, ⟨1, 1⟩) (hpassed ▸ List.mem_cons_self ..)
  exact absurd hright.1 (by decide)

end ConnClient
