/-
  Whether an accepted `Connect` is executed.

  `Connect` queues a task and starts the net thread if `thread_.joinable()` says that there is none.
  A terminal close only clears `running_`: the thread leaves its loop, but stays joinable, so a task
  queued from then on, or queued in the loop after its last drain, is never run
  (`connect_stranded`).  That is the only way: `connect_executed` says that a `Connect` made while
  the loop will drain again is not stranded, if no terminal close comes between the drain and the
  next test of `running_`.

  One iteration of the loop tests `running_` at its head, waits, reads, drains the queue, and has then
  five more phases in which a close may be made.  Up to the drain a queued task is safe, whatever happens;
  behind it, it is safe as long as `running_` stays set up to the test.  `Pc.late` is that second
  part, and `WillDrain` says the same of a state.
-/
import ConnClient.Client.Paths

namespace ConnClient

open ConnClient.Lib ConnClient.Ikcp

/-- The loop tests `running_` before it drains the queue again, or has ended. -/
def Pc.late : Pc → Bool
  | .head | .tick | .tcpPing | .udpPing | .timeout | .relink | .left => true
  | _ => false

/-- A `Connect` is queued. -/
def ConnectQueued (q : List Task) : Prop := ∃ ip port timeoutMs, .connect ip port timeoutMs ∈ q

/-- A `Connect` is queued, and the net thread has left its loop. -/
def Stranded (s : Sys) : Prop := ConnectQueued s.client.inQueue ∧ s.pc = .left

/-- What is asked of a step between the drain and the test of `running_`: a `Connect` is only made
    while the loop goes on, and no terminal close is made while one is queued. -/
def KeepsConnect (s : Sys) (a : Act) : Prop :=
  s.pc.late = true →
    ((∃ ip port timeoutMs, a = .connect ip port timeoutMs) → s.client.running = true ∧ s.pc ≠ .left)
    ∧ (ConnectQueued s.client.inQueue → s.client.running = true →
      ∀ s', sysStep a s = .ok s' → s'.client.running = true)

/-- With a `Connect` queued behind the drain, the loop goes on. -/
def WillDrain (s : Sys) : Prop :=
  s.pc.late = true → ConnectQueued s.client.inQueue → s.client.running = true ∧ s.pc ≠ .left

/-- The net thread queues nothing. -/
theorem Path.connectQueued {k k' : Ctl} (h : Path k k') (hq : ConnectQueued k'.inQueue) :
    ConnectQueued k.inQueue := by
  refine h.inv (I := fun j => ConnectQueued j.inQueue → ConnectQueued k.inQueue) ?_ id hq
  intro j j' hm hj hq
  cases hm with
  | close hc => cases hc <;> exact hj hq
  | take live hd =>
    obtain ⟨ip, port, timeoutMs, hmem⟩ := hq
    exact hj ⟨ip, port, timeoutMs, hd ▸ List.mem_cons_of_mem _ hmem⟩
  | _ => exact hj hq

/-- A queue that grew by something else holds the same `Connect`s. -/
theorem ConnectQueued.of_append {q : List Task} {t : Task} (h : ConnectQueued (q ++ [t]))
    (ht : ∀ ip port timeoutMs, t ≠ .connect ip port timeoutMs) : ConnectQueued q := by
  obtain ⟨ip, port, timeoutMs, hmem⟩ := h
  rcases List.mem_append.mp hmem with hmem | hmem
  · exact ⟨ip, port, timeoutMs, hmem⟩
  · exact absurd (List.mem_singleton.mp hmem).symm (ht ip port timeoutMs)

/-- **The application's steps.** -/
theorem willDrain_app {a : Act} {s s' : Sys} (hc : KeepsConnect s a) (hnet : ∀ w, a ≠ .net w)
    (h : WillDrain s) (hr : sysStep a s = .ok s') : WillDrain s' := by
  cases a with
  | connect ip port timeoutMs =>
    cases hr
    unfold connect
    dsimp only
    split
    · -- a thread is there, so the task waits for its next drain
      exact fun hl _ => (hc hl).1 ⟨_, _, _, rfl⟩
    · exact nofun
  | close =>
    cases hr
    exact fun hl hq => h hl (ConnectQueued.of_append hq nofun)
  | sendMsg msg =>
    cases hr
    unfold sendMsg
    split
    · exact h
    · exact fun hl hq => h hl (ConnectQueued.of_append hq nofun)
  | update | addRelinkInterval | clearRelinkInterval | setMagicNum =>
    cases hr
    exact h
  -- its close may be terminal, and is made in the application's thread
  | switchNetwork w =>
    obtain ⟨c₁, h₁, h₂⟩ := bind_eq_ok.mp hr
    have hpath := (switchNetwork_moved (innerClose_closes w.env w.depth) h₁).path
    cases h₂
    intro hl hq
    have hq' := hpath.connectQueued hq
    obtain ⟨hrun, hleft⟩ := h hl hq'
    exact ⟨(hc hl).2 hq' hrun _ hr, hleft⟩
  | net w => exact absurd rfl (hnet w)

/-- **The steps of the net thread**, phase by phase. -/
theorem willDrain_net {w : World} {s s' : Sys} (hc : KeepsConnect s (.net w)) (h : WillDrain s)
    (hr : netStep w s = .ok s') : WillDrain s' := by
  -- behind the drain, what is queued was queued before, and the condition keeps the loop going
  have hlate : s.pc.late = true → s.pc ≠ .start → s'.pc ≠ .left → WillDrain s' := by
    intro hl hstart hleft _ hq
    have hq' := (netStep_path hstart hr).1.connectQueued hq
    exact ⟨(hc hl).2 hq' (h hl hq').1 s' hr, hleft⟩
  cases hpc : s.pc with
  | none | left =>
    unfold netStep at hr
    rw [hpc] at hr
    cases hr
    exact h
  | start =>
    unfold netStep at hr
    rw [hpc] at hr
    cases hr
    exact fun _ _ => ⟨rfl, nofun⟩
  | head =>
    unfold netStep at hr
    rw [hpc] at hr
    dsimp only at hr
    split at hr
    · rename_i hrun
      cases hr
      have hl : s.pc.late = true := by rw [hpc]; rfl
      exact fun _ hq => nomatch hrun.symm.trans (h hl hq).1
    · split at hr <;> cases hr <;> exact nofun
  | tcp | udp =>
    unfold netStep at hr
    rw [hpc] at hr
    obtain ⟨c₁, h₁, h₂⟩ := bind_eq_ok.mp hr
    cases h₂
    exact nofun
  | drain =>
    unfold netStep at hr
    rw [hpc] at hr
    dsimp only at hr
    split at hr
    · rename_i hempty
      cases hr
      rintro - ⟨ip, port, timeoutMs, hmem⟩
      rw [show (getTimeMs w.env s.client).2.inQueue = [] from hempty] at hmem
      exact absurd hmem List.not_mem_nil
    · obtain ⟨c₁, h₁, h₂⟩ := bind_eq_ok.mp hr
      cases h₂
      exact nofun
  | tick | tcpPing | udpPing | timeout | relink =>
    refine hlate (by rw [hpc]; rfl) (fun hs => nomatch hpc.symm.trans hs) ?_
    unfold netStep at hr
    rw [hpc] at hr
    obtain ⟨c₁, h₁, h₂⟩ := bind_eq_ok.mp hr
    cases h₂
    exact nofun

/-- **An accepted `Connect` is not stranded**, in every run whose steps meet the condition. -/
theorem connect_executed {s : Sys} (h : Runs KeepsConnect s) : ¬ Stranded s := by
  have hdrain : WillDrain s := by
    refine h.inv (I := WillDrain) ?_ ?_
    · rintro s ⟨cb, now, rfl⟩
      exact nofun
    · intro s s' a _ hs hc hr
      by_cases hnet : ∀ w, a ≠ .net w
      · exact willDrain_app hc hnet hs hr
      · obtain ⟨w, hw⟩ := not_forall.mp hnet
        cases not_not.mp hw
        exact willDrain_net hc hs hr
  rintro ⟨hq, hleft⟩
  exact (hdrain (by rw [hleft]; rfl) hq).2 hleft

/-- `KeepsConnect`, as a test. -/
def keepsConnect (s : Sys) (a : Act) : Bool :=
  !s.pc.late
    || (match a with
        | .connect .. => s.client.running && s.pc != .left
        | _ => true)
      && (s.client.inQueue.isEmpty
        || match sysStep a s with
          | .ok s' => s'.client.running
          | .error _ => true)

theorem keepsConnect_sound (s : Sys) (a : Act) (h : keepsConnect s a = true) : KeepsConnect s a := by
  intro hl
  unfold keepsConnect at h
  rw [hl, Bool.not_true, Bool.false_or, Bool.and_eq_true] at h
  refine ⟨?_, ?_⟩
  · rintro ⟨ip, port, timeoutMs, rfl⟩
    simpa using h.1
  · rintro ⟨ip, port, timeoutMs, hmem⟩ _ s' hr
    have hne : s.client.inQueue.isEmpty = false := by
      cases hq : s.client.inQueue with
      | nil => exact absurd (hq ▸ hmem) List.not_mem_nil
      | cons t rest => rfl
    rw [hne, hr] at h
    exact h.2

/-- A second `Connect`, made while the first connection is there and executed in the next drain. -/
theorem connect_executed_again :
    ∃ s, Runs KeepsConnect s ∧ (s.client.ip, s.client.connState) = ("10.0.0.2", .connecting)
      ∧ ¬ Stranded s := by
  have hrun : (exec sysStep keepsConnect (sampleLink ++ .connect "10.0.0.2" 80 3000 ::
      List.replicate 2 (.net (sampleWorld 2000))) sampleClient).map
      (fun s => (s.client.ip, s.client.connState)) = some ("10.0.0.2", .connecting) := by
    decide +kernel
  obtain ⟨s, hs, hst⟩ := Option.map_eq_some_iff.mp hrun
  have h : Runs KeepsConnect s := .of_exec keepsConnect_sound _ (.start ⟨_, _, rfl⟩) hs
  exact ⟨s, h, hst, connect_executed h⟩

/-- The application's own `Close`. -/
def Act.isClose : Act → Bool
  | .close => true
  | _ => false

/-- A world without a network. -/
def sampleOffline : World :=
  { sampleWorld 2000 with env := { sampleEnv 2000 with dial := fun _ => none } }

/-- A `Connect` that fails for good, and another one: the net thread has left its loop, and no new
    one is started. -/
theorem connect_stranded : ¬ ∀ s, Runs (fun _ a => a.isClose = false) s → ¬ Stranded s := by
  intro hclaim
  have hrun : (exec sysStep (fun _ a => !a.isClose) (.connect "10.0.0.1" 80 3000 ::
      List.replicate 10 (.net sampleOffline) ++ [.connect "10.0.0.1" 80 3000]) sampleClient).map
      (fun s => (s.client.inQueue, s.pc)) = some ([.connect "10.0.0.1" 80 3000], .left) := by
    decide +kernel
  obtain ⟨s, hs, hfields⟩ := Option.map_eq_some_iff.mp hrun
  rw [Prod.mk.injEq] at hfields
  have h : Runs (fun _ a => a.isClose = false) s :=
    .of_exec (fun _ a hc => Bool.not_eq_true' _ ▸ hc) _ (.start ⟨_, _, rfl⟩) hs
  refine hclaim s h ⟨⟨"10.0.0.1", 80, 3000, ?_⟩, hfields.2⟩
  rw [hfields.1]
  exact List.mem_cons_self ..

end ConnClient
