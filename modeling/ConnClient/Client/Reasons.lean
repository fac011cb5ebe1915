/-
  What a close tells the application.

  `InnerClose` begins by replacing its reason: when the relinks are used up it becomes
  `CLIENT_CONNECT_TIMEOUT`, whatever it was.  The replacement is meant for errors that could have been
  followed by another attempt, but it is made for every reason; with no interval configured the
  relinks are used up from the start.  So a server that is full is reported as a timeout, and a
  `Close` of the application, which should report nothing, reports one.

  There is a second way for a close to say too much.  Its flush sends, a send that fails closes on its
  own account, and that close reports first.  `innerClose_told` has both: the tasks that a close
  enqueues are the reports of the closes its flush makes, none if no send fails, and then its own.

  The first part is a list that a close ends with, so the reason it acted on can be read off the last
  task (`report_last`), and both directions of every `iff` below come from that one equation.  For the
  second part the flush is run in two contexts: the real one, and one in which a close stops the run
  (`untilClose`).  They go the same way up to the first send that fails, so "no send of this flush
  fails" is that the second run comes through, a condition on the state before the call that does
  not mention what was reported (`FlushThrough`).
-/
import ConnClient.Client.Outbound
import ConnClient.Client.Relink

namespace ConnClient

open ConnClient.Lib ConnClient.Ikcp

/-! ## What is enqueued -/

/-- Disconnects with these reasons were enqueued, and nothing else. -/
structure Told (rs : List Int) (c c' : Client) : Prop where
  cb : c'.cb = c.cb
  queue : c'.outQueue = c.outQueue ++ rs.map OutTask.disconnect
  trace : c.trace <:+ c'.trace

theorem Told.same {c c' : Client} (hcb : c'.cb = c.cb) (hq : c'.outQueue = c.outQueue)
    (ht : c'.trace = c.trace) : Told [] c c' := by
  constructor
  · exact hcb
  · rw [hq, List.map_nil, List.append_nil]
  · rw [ht]

theorem Told.trans {rs rs' : List Int} {c c' c'' : Client} (h : Told rs c c') (h' : Told rs' c' c'') :
    Told (rs ++ rs') c c'' := by
  constructor
  · exact h'.cb.trans h.cb
  · rw [h'.queue, h.queue, List.map_append, List.append_assoc]
  · exact h.trace.trans h'.trace

/-- The call goes through. -/
def Through (r : M Client) : Prop := ∃ c, r = .ok c

/-- Disconnects with these reasons were enqueued, and none exactly if the call returns where a close
    stops it.  This is what one output, the outputs of a routine and a flush have in common. -/
structure Says (rs : List Int) (c c' : Client) (untilClose : M Client) : Prop extends Told rs c c' where
  silent : c.cb.disconnect = true → (rs = [] ↔ Through untilClose)

/-- How a close for an error behaves: it reports. -/
def Tells (cx : Cx) : Prop := ∀ c c', cx.close clientConnectError c = .ok c' →
  ∃ rs, Told rs c c' ∧ (c.cb.disconnect = true → rs ≠ [])

variable {cx : Cx} {c c' : Client}

/-! ## The flush -/

theorem kcpOutput_says (h : Tells cx) {data : List Byte} (hr : kcpOutput cx data c = .ok c') :
    ∃ rs, Says rs c c' (kcpOutput (.untilClose cx.env) data c) := by
  have halike := kcpOutput_alike cx (.untilClose cx.env) rfl data c
  generalize kcpOutput (.untilClose cx.env) data c = r at halike ⊢
  rw [hr] at halike
  generalize hok : Except.ok c' = r' at halike
  cases halike with
  | sent x =>
    cases hok
    exact ⟨[], .same rfl rfl rfl, fun _ => ⟨fun _ => ⟨_, rfl⟩, fun _ => rfl⟩⟩
  -- the send failed: here a close reports, there the run stops
  | failed x =>
    obtain ⟨rs, htold, hne⟩ := h _ _ hok.symm
    have htrace : c.trace <:+ c'.trace := (List.suffix_cons ..).trans htold.trace
    refine ⟨rs, ⟨htold.cb, htold.queue, htrace⟩, fun hcb => ⟨fun hnil => absurd hnil (hne hcb), ?_⟩⟩
    rintro ⟨c₀, hc₀⟩
    change Except.error _ = _ at hc₀
    cases hc₀

/-- Once an output has closed, the others add to what is told.  Induction on the outputs. -/
theorem playOutputs_says (h : Tells cx) {outs : List (IKCPCB × List Byte)}
    (hr : playOutputs cx outs c = .ok c') :
    ∃ rs, Says rs c c' (playOutputs (.untilClose cx.env) outs c) := by
  induction outs generalizing c with
  | nil =>
    cases hr
    exact ⟨[], .same rfl rfl rfl, fun _ => ⟨fun _ => ⟨_, rfl⟩, fun _ => rfl⟩⟩
  | cons e outs ih =>
    obtain ⟨kcp, data⟩ := e
    obtain ⟨c₁, h₁, h₂⟩ := bind_eq_ok.mp hr
    obtain ⟨rs₁, hs₁⟩ := kcpOutput_says h h₁
    obtain ⟨rs₂, hs₂⟩ := ih h₂
    have hset : Told [] c { c with kcpSession := { c.kcpSession with kcp := some kcp } } :=
      .same rfl rfl rfl
    refine ⟨rs₁ ++ rs₂, (hset.trans hs₁.toTold).trans hs₂.toTold, fun hcb => ?_⟩
    have hcb₁ : c₁.cb.disconnect = true := by rw [hs₁.cb]; exact hcb
    rw [List.append_eq_nil_iff, hs₁.silent hcb, hs₂.silent hcb₁]
    constructor
    · rintro ⟨⟨d, hd⟩, d', hd'⟩
      -- the first output goes the same way in both contexts
      cases h₁.symm.trans (kcpOutput_untilClose hd)
      exact ⟨d', bind_eq_ok.mpr ⟨_, hd, hd'⟩⟩
    · rintro ⟨d', h'⟩
      obtain ⟨d, hd, hd'⟩ := bind_eq_ok.mp h'
      cases h₁.symm.trans (kcpOutput_untilClose hd)
      exact ⟨⟨_, hd⟩, d', hd'⟩

theorem sessionFlush_says (h : Tells cx) {reason : Int} (hr : sessionFlush cx reason c = .ok c') :
    ∃ rs, Says rs c c' (sessionFlush (.untilClose cx.env) reason c) := by
  rw [sessionFlush] at hr
  rw [sessionFlush]
  cases hk : c.kcpSession.kcp with
  | none =>
    rw [hk] at hr
    cases hr
    exact ⟨[], .same rfl rfl rfl, fun _ => ⟨fun _ => ⟨c, rfl⟩, fun _ => rfl⟩⟩
  | some kcp =>
    rw [hk] at hr
    obtain ⟨c₁, h₁, h₂⟩ := bind_eq_ok.mp hr
    obtain ⟨rs, hs⟩ := playOutputs_says h h₁
    cases h₂
    refine ⟨rs, ⟨hs.cb, hs.queue, hs.trace⟩, fun hcb => (hs.silent hcb).trans ?_⟩
    constructor
    · rintro ⟨d, hd⟩
      exact ⟨_, bind_eq_ok.mpr ⟨d, hd, rfl⟩⟩
    · rintro ⟨d', hd'⟩
      obtain ⟨d, hd, -⟩ := bind_eq_ok.mp hd'
      exact ⟨d, hd⟩

/-! ## The close -/

/-- What a close reports itself. -/
def ownReport (reason : Int) (c : Client) : List Int :=
  if closeReason reason c ≥ 0 ∧ c.cb.disconnect then [closeReason reason c] else []

/-- Every send that the flush of this close makes goes through.  Without a session there is none. -/
def FlushThrough (env : Env) (reason : Int) (c : Client) : Prop :=
  Through (sessionFlush (.untilClose env) reason c)

/-- The closes that the flush makes report `rs`, then the close itself reports.  `plain` is the
    branch without a flush. -/
structure Reports (env : Env) (reason : Int) (c c' : Client) (rs : List Int) : Prop where
  told : Told (rs ++ ownReport reason c) c c'
  event : c.trace.length < c'.trace.length
  plain : clientConnectError ≤ closeReason reason c → rs = []
  flush : closeReason reason c < clientConnectError → c.cb.disconnect = true →
    (rs = [] ↔ FlushThrough env (closeReason reason c) c)

theorem closeSockets_told (env : Env) (reason : Int) (c c' : Client) {rs : List Int}
    (h : Told rs c c') : Told (rs ++ ownReport reason c) c
        (closeSockets env (closeReason reason c) c')
      ∧ c.trace.length < (closeSockets env (closeReason reason c) c').trace.length := by
  have hlen := h.trace.length_le
  rw [ownReport, ← h.cb]
  simp only [closeSockets, setConnState]
  by_cases hreport : closeReason reason c ≥ 0 ∧ c'.cb.disconnect = true
  · rw [if_pos hreport, if_pos hreport]
    refine ⟨⟨h.cb, ?_, ?_⟩, ?_⟩
    · show c'.outQueue ++ [.disconnect (closeReason reason c)] = _
      rw [h.queue, List.append_assoc, List.map_append]
      rfl
    · exact h.trace.trans ((List.suffix_cons ..).trans (List.suffix_cons ..))
    · exact Nat.lt_succ_of_le (Nat.le_succ_of_le hlen)
  · rw [if_neg hreport, if_neg hreport, List.append_nil]
    refine ⟨⟨h.cb, h.queue, h.trace.trans (List.suffix_cons ..)⟩, ?_⟩
    exact Nat.lt_succ_of_le hlen

theorem closeSession_told {cx : Cx} {reason : Int} {c c' : Client} (h : Tells cx)
    (hr : closeSession cx reason c = .ok c') :
    ∃ rs, Says rs c c' (sessionFlush (.untilClose cx.env) reason c) := by
  obtain ⟨c₁, h₁, h₂⟩ := bind_eq_ok.mp hr
  obtain ⟨rs, hs⟩ := sessionFlush_says h h₁
  obtain ⟨c₂, h₂, h₃⟩ := bind_eq_ok.mp h₂
  rw [sessionRelease] at h₂
  split at h₂
  · cases h₂
  · cases h₂
    cases h₃
    exact ⟨rs, ⟨hs.cb, hs.queue, hs.trace.trans (List.suffix_cons ..)⟩, hs.silent⟩

/-- A close for an error reports something. -/
theorem ownReport_error {reason : Int} {c : Client} (hpos : 0 ≤ reason)
    (hcb : c.cb.disconnect = true) : ownReport reason c ≠ [] := by
  have hreason : closeReason reason c ≥ 0 := by
    rw [closeReason, clientConnectTimeout]
    split
    · omega
    · exact hpos
  rw [ownReport, if_pos ⟨hreason, hcb⟩]
  exact List.cons_ne_nil _ _

/-- **What a close enqueues.**  Induction on how deep its calls nest. -/
theorem innerClose_told {env : Env} {n : Nat} {reason : Int} {c c' : Client}
    (hr : innerClose env n reason c = .ok c') : ∃ rs, Reports env reason c c' rs := by
  let S : Int × Client → Client → Prop := fun a c' => ∃ rs, Reports env a.1 a.2 c' rs
  suffices h : ∀ n a c', unroll (fun a => (Stop.deep, a.2)) (innerCloseBody env) n a = .ok c' → S a c'
    from h n (reason, c) c' hr
  clear hr c' c reason n
  refine unroll_ok fun f hf a c' hr => ?_
  obtain ⟨reason, c⟩ := a
  -- the closes that are nested in this one are the induction hypothesis
  have htells : Tells ⟨env, fun reason c => f (reason, c)⟩ := by
    intro c c' hr
    obtain ⟨rs, hs⟩ := hf (clientConnectError, c) c' hr
    have hpos : 0 ≤ clientConnectError := by decide
    refine ⟨_, hs.told, fun hcb hnil => ?_⟩
    exact ownReport_error hpos hcb (List.append_eq_nil_iff.mp hnil).2
  rw [innerCloseBody] at hr
  dsimp only at hr
  by_cases hlt : closeReason reason c < clientConnectError
  · rw [if_pos hlt] at hr
    obtain ⟨c₁, h₁, h₂⟩ := bind_eq_ok.mp hr
    obtain ⟨rs, hs⟩ := closeSession_told htells h₁
    cases h₂
    obtain ⟨htold, hevent⟩ := closeSockets_told env reason c c₁ hs.toTold
    refine ⟨rs, htold, hevent, fun hle => ?_, fun _ => hs.silent⟩
    exact absurd hlt (Int.not_lt.mpr hle)
  · rw [if_neg hlt] at hr
    cases hr
    obtain ⟨htold, hevent⟩ := closeSockets_told env reason c c (.same rfl rfl rfl)
    refine ⟨[], htold, hevent, fun _ => rfl, fun h => ?_⟩
    exact absurd h hlt

/-! ## The reason -/

/-- The reasons the server closes for. -/
def ServerReason (reason : Int) : Prop :=
  reason = controlServerClose ∨ reason = controlServerFull ∨ reason = controlFlowNotExist

instance (reason : Int) : Decidable (ServerReason reason) :=
  inferInstanceAs (Decidable (_ ∨ _ ∨ _))

theorem ServerReason.bounds {reason : Int} (h : ServerReason reason) :
    0 ≤ reason ∧ reason < clientConnectTimeout := by
  unfold ServerReason controlServerClose controlServerFull controlFlowNotExist at h
  unfold clientConnectTimeout
  omega

theorem closeReason_kept {reason : Int} {c : Client} (hx : c.exhausted = false) :
    closeReason reason c = reason :=
  if_neg (by rw [hx]; exact Bool.false_ne_true)

theorem closeReason_exhausted {reason : Int} {c : Client} (hx : c.exhausted = true) :
    closeReason reason c = clientConnectTimeout := if_pos hx

/-- A close for an error of its own, or the server's, reports last. -/
theorem innerClose_report {env : Env} {n : Nat} {reason : Int} {c c' : Client}
    (hcb : c.cb.disconnect = true) (hpos : 0 ≤ reason) (hr : innerClose env n reason c = .ok c') :
    ∃ rs, Reports env reason c c' rs
      ∧ c'.outQueue = c.outQueue ++ rs.map .disconnect ++ [.disconnect (closeReason reason c)] := by
  obtain ⟨rs, hs⟩ := innerClose_told hr
  have hreason : closeReason reason c ≥ 0 := by
    rw [closeReason, clientConnectTimeout]
    split
    · omega
    · exact hpos
  refine ⟨rs, hs, ?_⟩
  rw [hs.told.queue, ownReport, if_pos ⟨hreason, hcb⟩, List.map_append, List.append_assoc]
  rfl

/-- The last task names the reason the close acts on. -/
theorem report_last {q q' : List OutTask} {reason reason' : Int}
    (h : q ++ [.disconnect reason] = q' ++ [.disconnect reason']) : reason = reason' := by
  have hlast := (List.append_inj' h rfl).2
  rw [List.cons.injEq, OutTask.disconnect.injEq] at hlast
  exact hlast.1

/-- **A close for one of the server's reasons reports that reason exactly if the relinks are not used
    up**, and it reports nothing else exactly if its flush goes through. -/
theorem serverClose_report {env : Env} {n : Nat} {reason : Int} {c c' : Client}
    (hcb : c.cb.disconnect = true) (hs : ServerReason reason)
    (hr : innerClose env n reason c = .ok c') :
    ((∃ q, c'.outQueue = c.outQueue ++ q ++ [.disconnect reason]) ↔ c.exhausted = false) ∧
    (c'.outQueue = c.outQueue ++ [.disconnect reason] ↔
      c.exhausted = false ∧ FlushThrough env reason c) := by
  obtain ⟨hpos, hlt⟩ := hs.bounds
  obtain ⟨rs, hrep, hq⟩ := innerClose_report hcb hpos hr
  -- if the last task is the reason asked for, the reason was not replaced; `CLIENT_CONNECT_TIMEOUT`
  -- is none of the server's
  have hown : ∀ q, c'.outQueue = c.outQueue ++ q ++ [.disconnect reason] → c.exhausted = false := by
    intro q hq'
    rw [hq] at hq'
    have hsame := report_last hq'
    cases hx : c.exhausted with
    | false => rfl
    | true =>
      rw [closeReason_exhausted hx] at hsame
      omega
  have hfatal : reason < clientConnectError := by
    unfold clientConnectTimeout at hlt
    unfold clientConnectError
    omega
  refine ⟨⟨fun ⟨q, hq'⟩ => hown q hq', fun hx => ?_⟩, ?_⟩
  · rw [closeReason_kept hx] at hq
    exact ⟨_, hq⟩
  constructor
  · intro hq'
    have hx := hown [] (by rw [hq', List.append_nil])
    have hflush := hrep.flush
    rw [closeReason_kept hx] at hflush hq
    refine ⟨hx, (hflush hfatal hcb).mp ?_⟩
    rw [hq'] at hq
    have hnil := (List.append_inj' hq rfl).1
    exact List.map_eq_nil_iff.mp (List.append_right_eq_self.mp hnil.symm)
  · rintro ⟨hx, hthrough⟩
    have hflush := hrep.flush
    rw [closeReason_kept hx] at hflush hq
    rw [hq, (hflush hfatal hcb).mpr hthrough, List.map_nil, List.append_nil]

/-- **`Close` reports nothing exactly if the relinks are not used up and its flush goes through.** -/
theorem close_report {env : Env} {n : Nat} {c c' : Client} (hcb : c.cb.disconnect = true)
    (hr : innerClose env n (-1) c = .ok c') :
    c'.outQueue = c.outQueue ↔ c.exhausted = false ∧ FlushThrough env (-1) c := by
  obtain ⟨rs, hs⟩ := innerClose_told hr
  have hq := hs.told.queue
  have hnothing : c'.outQueue = c.outQueue ↔ rs = [] ∧ ownReport (-1) c = [] := by
    rw [hq, List.append_right_eq_self, List.map_eq_nil_iff, List.append_eq_nil_iff]
  rw [hnothing]
  cases hx : c.exhausted with
  | true =>
    have hown : ownReport (-1) c ≠ [] := by
      rw [ownReport, closeReason_exhausted hx, if_pos ⟨by decide, hcb⟩]
      exact List.cons_ne_nil _ _
    exact ⟨fun h => absurd h.2 hown, fun h => absurd h.1.symm Bool.false_ne_true⟩
  | false =>
    have hflush := hs.flush
    rw [closeReason_kept hx] at hflush
    have hown : ownReport (-1) c = [] := by
      rw [ownReport, closeReason_kept hx, if_neg (by omega)]
    rw [hflush (by decide) hcb]
    exact ⟨fun h => ⟨rfl, h.1⟩, fun h => ⟨h.2, hown⟩⟩

/-- Any other reason is replaced exactly when the relinks are used up. -/
theorem close_replaced {env : Env} {n : Nat} {reason : Int} {c c' : Client}
    (hcb : c.cb.disconnect = true) (hpos : 0 ≤ reason) (hne : reason ≠ clientConnectTimeout)
    (hr : innerClose env n reason c = .ok c') :
    (∃ q, c'.outQueue = c.outQueue ++ q ++ [.disconnect clientConnectTimeout]) ↔
      c.exhausted = true := by
  obtain ⟨rs, -, hq⟩ := innerClose_report hcb hpos hr
  constructor
  · rintro ⟨q, hq'⟩
    rw [hq] at hq'
    have hsame := report_last hq'
    cases hx : c.exhausted with
    | true => rfl
    | false =>
      rw [closeReason_kept hx] at hsame
      exact absurd hsame hne
  · intro hx
    rw [closeReason_exhausted hx] at hq
    exact ⟨_, hq⟩

/-- **The reason reported is the real one exactly if the relinks are not used up.**  For every client
    with a disconnect callback: a close for one of the server's reasons enqueues that reason as its
    own task exactly then, and no other task exactly if its flush goes through as well; a `Close` of
    the application enqueues nothing exactly if both hold; and any reason at all is replaced by
    `CLIENT_CONNECT_TIMEOUT` exactly if the relinks are used up. -/
theorem reason_reported {env : Env} {n : Nat} {c : Client} (hcb : c.cb.disconnect = true) :
    (∀ reason c', ServerReason reason → innerClose env n reason c = .ok c' →
      ((∃ q, c'.outQueue = c.outQueue ++ q ++ [.disconnect reason]) ↔ c.exhausted = false) ∧
      (c'.outQueue = c.outQueue ++ [.disconnect reason] ↔
        c.exhausted = false ∧ FlushThrough env reason c)) ∧
    (∀ c', runTask (.of env n) .close c = .ok c' →
      (c'.outQueue = c.outQueue ↔ c.exhausted = false ∧ FlushThrough env (-1) c)) ∧
    (∀ reason c', 0 ≤ reason → reason ≠ clientConnectTimeout →
      innerClose env n reason c = .ok c' →
      ((∃ q, c'.outQueue = c.outQueue ++ q ++ [.disconnect clientConnectTimeout]) ↔
        c.exhausted = true)) := by
  refine ⟨?_, ?_, ?_⟩
  · intro reason c' hs hr
    exact serverClose_report hcb hs hr
  · intro c' hr
    exact close_report hcb hr
  · intro reason c' hpos hne hr
    exact close_replaced hcb hpos hne hr

/-- With a relink interval, a server that is full is reported as that. -/
theorem reason_reported_full :
    ∃ s c', Reachable s ∧ innerClose (sampleEnv 2000) 4 controlServerFull s.client = .ok c' ∧
      c'.outQueue = s.client.outQueue ++ [.disconnect controlServerFull] := by
  have hrun : (sampleExec (.addRelinkInterval 1000 :: sampleLink)).map (fun s =>
      (s.client.cb.disconnect, s.client.exhausted, s.client.kcpSession.isNull,
        (innerClose (sampleEnv 2000) 4 controlServerFull s.client).toOption.isSome))
      = some (true, false, true, true) := by decide +kernel
  obtain ⟨s, hs, hrun⟩ := Option.map_eq_some_iff.mp hrun
  simp only [Prod.mk.injEq] at hrun
  obtain ⟨hcb, hx, hnull, hsome⟩ := hrun
  cases hr : innerClose (sampleEnv 2000) 4 controlServerFull s.client with
  | error e =>
    rw [hr] at hsome
    cases hsome
  | ok c' =>
    have hthrough : FlushThrough (sampleEnv 2000) controlServerFull s.client := by
      rw [FlushThrough, sessionFlush, Option.isNone_iff_eq_none.mp hnull]
      exact ⟨_, rfl⟩
    refine ⟨s, c', .of_exec (fun _ _ _ => trivial) _ (.start ⟨_, _, rfl⟩) hs, hr, ?_⟩
    have hreason : ServerReason controlServerFull := Or.inr (Or.inl rfl)
    exact (((reason_reported hcb).1 _ c' hreason hr).2).mpr ⟨hx, hthrough⟩

/-- Without one it is reported as a timeout. -/
theorem full_timeout :
    ¬ ∀ s reason env n c', Reachable s → s.client.cb.disconnect = true → ServerReason reason →
      innerClose env n reason s.client = .ok c' →
      ∃ q, c'.outQueue = s.client.outQueue ++ q ++ [.disconnect reason] := by
  intro hclaim
  have hrun : (sampleExec sampleLink).map (fun s =>
      (s.client.cb.disconnect, s.client.outQueue,
        (innerClose (sampleEnv 2000) 4 controlServerFull s.client).toOption.map (·.outQueue)))
      = some (true, [], some [.disconnect clientConnectTimeout]) := by decide +kernel
  obtain ⟨s, hs, hrun⟩ := Option.map_eq_some_iff.mp hrun
  simp only [Prod.mk.injEq] at hrun
  obtain ⟨hcb, hq, hclosed⟩ := hrun
  cases hr : innerClose (sampleEnv 2000) 4 controlServerFull s.client with
  | error e =>
    rw [hr] at hclosed
    cases hclosed
  | ok c' =>
    rw [hr] at hclosed
    have hreach : Reachable s := .of_exec (fun _ _ _ => trivial) _ (.start ⟨_, _, rfl⟩) hs
    obtain ⟨q, hq'⟩ := hclaim s _ _ _ c' hreach hcb (Or.inr (Or.inl rfl)) hr
    have htimeout : c'.outQueue = [] ++ [.disconnect clientConnectTimeout] := Option.some.inj hclosed
    rw [htimeout] at hq'
    exact absurd (report_last hq') (by decide)

end ConnClient
