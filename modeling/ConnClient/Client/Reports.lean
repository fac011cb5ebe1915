/-
  What the application is told.

  Two properties of the notifications in `out_queue_`, over all runs.  **A disconnect is reported at
  most once per attempt** (`disconnect_once`) as long as no step does one of the things `hazard`
  lists; and **the last notification agrees with the state** (`notified_agrees`) as long as the ping
  of a login does not close the connection.  Both are one case analysis over the moves, and both
  fail without their condition: each is followed by a run that shows it.

  1. **Once.**  `reports` counts back to the last entry to `CS_CONNECTING`.  That a close does not
     count twice cannot be seen from its own report; it is that the close leaves nothing open, and
     that every close after it finds nothing open.  So the invariant is that a count of one comes with
     an idle client (`ReportOk`), and the hazards are the closes made without looking.

  2. **Agreement.**  A success is the truth when it is enqueued, and may be overtaken by a `Close` or
     a `Connect` of the application before it is handed out; `forgiven` reads off the trace whether
     it was.  A disconnect is enqueued in `CS_INIT`, and the way back to a login leads over another
     notification.  The one exception is a login whose ping fails: the client closes, reports that,
     and then reports the success all the same.
-/
import ConnClient.Client.Paths

namespace ConnClient

open ConnClient.Lib ConnClient.Ikcp

/-! ## One report per attempt -/

/-- Between two entries to `CS_CONNECTING`, and since the last one, at most one disconnect was
    reported. -/
def DisconnectOnce (t : List Ev) : Prop := ∀ t', t' <:+ t → reports t' ≤ 1

theorem DisconnectOnce.cons {e : Ev} {t : List Ev} (h : DisconnectOnce t)
    (he : reports (e :: t) ≤ 1) : DisconnectOnce (e :: t) := by
  intro t' hs
  rcases List.suffix_cons_iff.mp hs with rfl | hs
  · exact he
  · exact h t' hs

/-- What the moves keep: once a disconnect was reported, nothing is open.  Behind a hazard nothing
    is promised any more. -/
def ReportOk (k : Ctl) : Prop :=
  hazard k.trace = true
  ∨ (DisconnectOnce k.trace ∧ (reports k.trace = 0 ∨ reports k.trace = 1 ∧ k.idle = true))

/-- An event that is neither an attempt nor a report. -/
theorem ReportOk.log {k k' : Ctl} {e : Ev} (h : ReportOk k) (htrace : k'.trace = e :: k.trace)
    (hrep : reports (e :: k.trace) = reports k.trace)
    (hidle : hazard (e :: k.trace) = true ∨ reports k.trace = 0 ∨ k'.idle = k.idle) :
    ReportOk k' := by
  unfold ReportOk
  rw [htrace, hrep]
  rcases h with hz | ⟨honce, hcount⟩
  · exact Or.inl (hazard_cons e hz)
  · have honce' : DisconnectOnce (e :: k.trace) := honce.cons (by rw [hrep]; omega)
    rcases hidle with hz | h0 | hi
    · exact Or.inl hz
    · exact Or.inr ⟨honce', Or.inl h0⟩
    · rw [hi]
      exact Or.inr ⟨honce', hcount⟩

/-- While something is open, nothing was reported. -/
theorem ReportOk.open {k : Ctl} (h : ReportOk k) (hi : k.idle = false) :
    hazard k.trace = true ∨ reports k.trace = 0 := by
  rcases h with hz | ⟨-, h0 | ⟨-, hi'⟩⟩
  · exact Or.inl hz
  · exact Or.inr h0
  · exact nomatch hi.symm.trans hi'

/-- A close reports once. -/
theorem ReportOk.shut {k : Ctl} {reason : Int} (h : ReportOk k) (hs : Shuts reason k) :
    ReportOk (k.shut reason) := by
  have hz : hazard k.trace = true → ReportOk (k.shut reason) := fun hz =>
    Or.inl (hazard_suffix (CloseMove.shut hs).suffix hz)
  rcases h with hz' | ⟨honce, hcount⟩
  · exact hz hz'
  have hle : reports k.trace ≤ 1 := honce _ (List.suffix_refl _)
  have honce' : DisconnectOnce (.state .init :: k.trace) := honce.cons hle
  have hidle : (k.shut reason).idle = true := rfl
  unfold ReportOk
  rw [hidle]
  show hazard (k.report reason ++ _) = true ∨ DisconnectOnce (k.report reason ++ _)
    ∧ (reports (k.report reason ++ _) = 0 ∨ reports (k.report reason ++ _) = 1 ∧ true = true)
  unfold Ctl.report
  by_cases hrep : reason ≥ 0 ∧ k.cb.disconnect = true
  · -- nothing was reported before, or there was a hazard
    have h0 : hazard k.trace = true ∨ reports k.trace = 0 := by
      rcases hs.once hrep.1 with hi | h0 | hz'
      · exact ReportOk.open (Or.inr ⟨honce, hcount⟩) hi
      · exact Or.inr h0
      · exact Or.inl hz'
    rw [if_pos hrep]
    rcases h0 with hz' | h0
    · exact Or.inl hz'
    · have h1 : reports (.queued (.disconnect reason) :: .state .init :: k.trace) = 1 :=
        congrArg (· + 1) h0
      exact Or.inr ⟨honce'.cons (Nat.le_of_eq h1), Or.inr ⟨h1, rfl⟩⟩
  · rw [if_neg hrep]
    refine Or.inr ⟨honce', hcount.imp_right fun he => ⟨he.1, rfl⟩⟩

/-- **Every move keeps it.** -/
theorem Move.reportOk {k k' : Ctl} (hm : Move k k') (h : ReportOk k) : ReportOk k' := by
  cases hm with
  | close hc =>
    cases hc with
    | enter | leave => exact h
    | output =>
      refine h.log rfl rfl ?_
      cases hi : k.idle with
      | true => exact Or.inl (by simp [hazard])
      | false => exact Or.inr (Or.inr hi)
    | terminal => exact h.log rfl rfl (Or.inr (Or.inr rfl))
    | shut hs => exact h.shut hs
  | noRoom => exact Or.inl rfl
  | connecting =>
    rcases h with hz | ⟨honce, -⟩
    · exact Or.inl hz
    · exact Or.inr ⟨honce.cons (Nat.zero_le 1), Or.inl rfl⟩
  -- a socket that could not be had is closed and reported by a close of its own, which is a hazard
  -- where a report went before
  | dialFail =>
    refine h.log rfl rfl ?_
    by_cases h0 : reports k.trace = 0
    · exact Or.inr (Or.inl h0)
    · exact Or.inl (by simp [hazard, h0])
  -- only an attempt under way is connected, so something is open
  | connected hst =>
    have hi : k.idle = false := by simp [Ctl.idle, hst]
    exact h.log rfl rfl ((h.open hi).imp_right Or.inl)
  | login hi hn =>
    have hlogin : ReportOk (k.login []) := h.log rfl rfl ((h.open hi).imp_right Or.inl)
    rcases hn with ⟨rfl, -⟩ | rfl | rfl
    · exact hlogin
    · exact hlogin.log rfl rfl (Or.inr (Or.inr rfl))
    · exact hlogin.log rfl rfl (Or.inr (Or.inr rfl))
  | loginLost hi =>
    have hlogin : ReportOk (k.login []) := h.log rfl rfl ((h.open hi).imp_right Or.inl)
    exact hlogin.log rfl rfl (Or.inr (Or.inr rfl))
  | lateNote _ ht =>
    rcases ht with rfl | rfl <;> exact h.log rfl rfl (Or.inr (Or.inr rfl))
  | clamp => exact h
  | attempt => exact h.log rfl rfl (Or.inr (Or.inr rfl))
  | @take t rest live _ hq =>
    have hran : ReportOk (k.take t rest live []) := by
      refine h.log rfl ?_ (Or.inr (Or.inr rfl))
      cases t <;> rfl
    unfold handedBy
    split
    · split
      · exact hran.log rfl rfl (Or.inr (Or.inr rfl))
      · exact hran
    · exact hran

theorem AppMove.reportOk {k k' : Ctl} (hm : AppMove k k') (h : ReportOk k) : ReportOk k' := by
  cases hm with
  | accept => exact h.log rfl rfl (Or.inr (Or.inr rfl))
  | ask => exact h

/-- The step does not do one of the things after which a disconnect may be reported twice. -/
def Hazardless (s : Sys) (a : Act) : Prop :=
  ∀ s', sysStep a s = .ok s' → hazard s'.client.trace = false

/-- **One lost connection or failed attempt is reported at most once**, in every run without a
    hazard. -/
theorem disconnect_once {s : Sys} (h : Runs Hazardless s) : DisconnectOnce s.client.trace := by
  have hok : ReportOk s.client.ctl ∧ hazard s.client.trace = false := by
    refine h.inv (I := fun s => ReportOk s.client.ctl ∧ hazard s.client.trace = false) ?_ ?_
    · rintro s ⟨cb, now, rfl⟩
      refine ⟨Or.inr ⟨fun t' hs => ?_, Or.inl rfl⟩, rfl⟩
      rw [List.suffix_nil.mp hs]
      exact Nat.zero_le 1
    · intro s s' a _ hs hc hr
      exact ⟨sysStep_inv (fun _ _ hm => hm.reportOk) (fun _ _ hm => hm.reportOk) (fun _ _ h => h)
        (fun _ h => h) hr hs.1, hc s' hr⟩
  rcases hok.1 with hz | ⟨honce, -⟩
  · exact nomatch hok.2.symm.trans hz
  · exact honce

/-- `Hazardless`, as a test. -/
def hazardless (s : Sys) (a : Act) : Bool :=
  match sysStep a s with
  | .ok s' => !hazard s'.client.trace
  | .error _ => false

theorem hazardless_sound (s : Sys) (a : Act) (h : hazardless s a = true) : Hazardless s a := by
  intro s' hr
  unfold hazardless at h
  rw [hr] at h
  exact Bool.not_eq_true' _ ▸ h

/-- A connection that the server closes: the run has no hazard, and one report. -/
theorem disconnect_once_lost :
    ∃ s, Runs Hazardless s ∧ reports s.client.trace = 1 ∧ DisconnectOnce s.client.trace := by
  have hrun : (exec sysStep hazardless (sampleRead []) sampleClient).map
      (fun s => reports s.client.trace) = some 1 := by decide +kernel
  obtain ⟨s, hs, hone⟩ := Option.map_eq_some_iff.mp hrun
  have h : Runs Hazardless s := .of_exec hazardless_sound _ (.start ⟨_, _, rfl⟩) hs
  exact ⟨s, h, hone, disconnect_once h⟩

/-- A connection that is lost while KCP sends its acknowledgements: the first datagram closes it, and
    the second closes it again, since `SendTCPBuf` does not ask whether there still is a socket. -/
theorem disconnect_twice :
    ¬ ∀ s, Reachable s → s.client.cb.disconnect = true → DisconnectOnce s.client.trace := by
  intro hclaim
  have hrun : (sampleExec (.addRelinkInterval 1000 :: sampleRead sampleHello
      ++ [.net (sampleWorld (-1))])).map (fun s => (s.client.cb.disconnect, reports s.client.trace))
      = some (true, 2) := by decide +kernel
  obtain ⟨s, hs, htwice⟩ := Option.map_eq_some_iff.mp hrun
  rw [Prod.mk.injEq] at htwice
  have h : Reachable s := .of_exec (fun _ _ _ => trivial) _ (.start ⟨_, _, rfl⟩) hs
  have hone := hclaim s h htwice.1 _ (List.suffix_refl _)
  omega

/-! ## The last notification and the state -/

/-- The most recent notification. -/
def lastNote : List Ev → Option OutTask
  | [] => none
  | .queued t :: _ => some t
  | _ :: t => lastNote t

/-- A `Close` or a `Connect` of the application ran since the most recent notification. -/
def ranSince : List Ev → Bool
  | [] => false
  | .queued _ :: _ => false
  | .ran .close _ _ _ :: _ => true
  | .ran (.connect ..) _ _ _ :: _ => true
  | _ :: t => ranSince t

/-- The most recent notification agrees with the state. -/
structure Agrees (t : List Ev) (st : ConnState) : Prop where
  success : lastNote t = some .connectSuccess ∨ lastNote t = some .relinkSuccess →
    st = .logicConnected ∨ ranSince t = true
  lost : ∀ reason, lastNote t = some (.disconnect reason) → st ≠ .logicConnected

/-- A success that is forgiven is one after which a `Close` or a `Connect` ran. -/
theorem ranSince_of_forgiven : ∀ {t : List Ev},
    lastNote t = some .connectSuccess ∨ lastNote t = some .relinkSuccess → forgiven t = true →
      ranSince t = true
  | [], h, _ => by rcases h with h | h <;> nomatch h
  | e :: t, h, hf => by
    have ih := @ranSince_of_forgiven t
    cases e with
    | queued note => cases note <;> simp_all [lastNote, forgiven]
    | ran task => cases task <;> simp_all [lastNote, forgiven, ranSince]
    | _ => exact ih h hf

/-- All three callbacks are registered. -/
def Callbacks.all (cb : Callbacks) : Prop :=
  cb.connectSuccess = true ∧ cb.reconnectSuccess = true ∧ cb.disconnect = true

/-- What the moves keep: a success that is not forgiven is the truth, and so is a disconnect.
    Without all three callbacks a notification may be missing, and then nothing is said. -/
def NoteOk (k : Ctl) : Prop :=
  k.cb.all → .loginPingClose ∈ k.trace
    ∨ ((forgiven k.trace = false → k.connState = .logicConnected)
      ∧ ∀ reason, lastNote k.trace = some (.disconnect reason) → k.connState ≠ .logicConnected)

/-- An event that is no notification, in the same state. -/
theorem NoteOk.log {k k' : Ctl} {e : Ev} (h : NoteOk k) (hcb : k'.cb = k.cb)
    (htrace : k'.trace = e :: k.trace) (hnote : lastNote (e :: k.trace) = lastNote k.trace)
    (hf : forgiven (e :: k.trace) = true ∨ forgiven (e :: k.trace) = forgiven k.trace)
    (hst : k'.connState = k.connState) : NoteOk k' := by
  intro hall
  rw [htrace, hnote, hst]
  refine (h (hcb ▸ hall)).imp (List.mem_cons_of_mem _) fun he => ⟨fun hno => ?_, he.2⟩
  rcases hf with hf | hf
  · exact nomatch hno.symm.trans hf
  · exact he.1 (hf ▸ hno)

/-- A state that is not `CS_LOGIC_CONNECTED`, after what is forgiven. -/
theorem NoteOk.away {k k' : Ctl} (hf : k.cb.all → .loginPingClose ∈ k.trace ∨ forgiven k.trace = true)
    (hcb : k'.cb = k.cb) {st : ConnState} (htrace : k'.trace = .state st :: k.trace)
    (hst : k'.connState ≠ .logicConnected) : NoteOk k' := by
  intro hall
  rw [htrace]
  refine (hf (hcb ▸ hall)).imp (List.mem_cons_of_mem _) fun hf => ⟨fun hno => ?_, fun _ _ => hst⟩
  exact nomatch (show forgiven k.trace = false from hno).symm.trans hf

/-- In another state than `CS_LOGIC_CONNECTED`, everything is forgiven. -/
theorem NoteOk.forgiven {k : Ctl} (h : NoteOk k) (hst : k.connState ≠ .logicConnected)
    (hall : k.cb.all) : .loginPingClose ∈ k.trace ∨ ConnClient.forgiven k.trace = true := by
  refine (h hall).imp_right fun he => ?_
  by_contra hno
  exact hst (he.1 (Bool.of_not_eq_true hno))

/-- A close is reported, or it was the application's. -/
theorem NoteOk.shut {k : Ctl} {reason : Int} (hs : Shuts reason k) : NoteOk (k.shut reason) := by
  intro hall
  by_cases hpos : reason ≥ 0
  · have htrace : (k.shut reason).trace
        = .queued (.disconnect reason) :: .state .init :: k.trace := by
      show k.report reason ++ _ = _
      unfold Ctl.report
      rw [if_pos ⟨hpos, hall.2.2⟩]
      rfl
    rw [htrace]
    exact Or.inr ⟨fun hno => (nomatch hno), fun _ _ he => nomatch he⟩
  · have htrace : (k.shut reason).trace = .state .init :: k.trace := by
      show k.report reason ++ _ = _
      unfold Ctl.report
      rw [if_neg fun hrep => hpos hrep.1]
      rfl
    have hsilent := hs.silent (by omega)
    exact NoteOk.away (k := k) (fun _ => Or.inr hsilent) rfl htrace (fun he => nomatch he) hall

/-- **Every move keeps it.** -/
theorem Move.noteOk {k k' : Ctl} (hm : Move k k') (h : NoteOk k) : NoteOk k' := by
  cases hm with
  | close hc =>
    cases hc with
    | enter | leave => exact h
    | output | terminal => exact h.log rfl rfl rfl (Or.inr rfl) rfl
    | shut hs => exact NoteOk.shut hs
  | noRoom | dialFail | attempt => exact h.log rfl rfl rfl (Or.inr rfl) rfl
  | connecting _ _ hst =>
    refine NoteOk.away (k := k) (fun hall => ?_) rfl rfl fun he => nomatch he
    rcases hst with hst | hf
    · exact h.forgiven (fun he => nomatch hst.symm.trans he) hall
    · exact Or.inr hf
  | connected hst =>
    exact NoteOk.away (k := k) (h.forgiven fun he => nomatch hst.symm.trans he) rfl rfl
      fun he => nomatch he
  -- a login without a notification means that the callback for it is missing
  | login _ hn =>
    intro hall
    rcases hn with ⟨rfl, hno | hno⟩ | rfl | rfl
    · exact nomatch hno.symm.trans hall.1
    · exact nomatch hno.symm.trans hall.2.1
    · exact Or.inr ⟨fun _ => rfl, fun _ he => nomatch he⟩
    · exact Or.inr ⟨fun _ => rfl, fun _ he => nomatch he⟩
  | loginLost => exact fun _ => Or.inl (List.mem_cons_self ..)
  | lateNote hmem => exact fun _ => Or.inl (List.mem_cons_of_mem _ hmem)
  | clamp => exact h
  | @take t rest live _ hq =>
    have hran : NoteOk (k.take t rest live []) := by
      refine h.log rfl rfl rfl ?_ rfl
      cases t with
      | connect | close => exact Or.inl rfl
      | send => exact Or.inr rfl
    unfold handedBy
    split
    · split
      · exact hran.log rfl rfl rfl (Or.inr rfl) rfl
      · exact hran
    · exact hran

theorem AppMove.noteOk {k k' : Ctl} (hm : AppMove k k') (h : NoteOk k) : NoteOk k' := by
  cases hm with
  | accept => exact h.log rfl rfl rfl (Or.inr rfl) rfl
  | ask => exact h

/-- The ping of a login in this step does not close the connection. -/
def PingKept (s : Sys) (a : Act) : Prop :=
  ∀ s', sysStep a s = .ok s' → .loginPingClose ∉ s'.client.trace

/-- **The most recent notification agrees with the state**, in every run in which no login's ping
    closes the connection. -/
theorem notified_agrees {s : Sys} (h : Runs PingKept s) (hall : s.client.cb.all) :
    Agrees s.client.trace s.client.connState := by
  have hok : NoteOk s.client.ctl ∧ .loginPingClose ∉ s.client.trace := by
    refine h.inv (I := fun s => NoteOk s.client.ctl ∧ .loginPingClose ∉ s.client.trace) ?_ ?_
    · rintro s ⟨cb, now, rfl⟩
      exact ⟨fun _ => Or.inr ⟨fun he => (nomatch he), fun _ he => (nomatch he)⟩, fun he => nomatch he⟩
    · intro s s' a _ hs hc hr
      exact ⟨sysStep_inv (fun _ _ hm => hm.noteOk) (fun _ _ hm => hm.noteOk) (fun _ _ h => h)
        (fun _ h => h) hr hs.1, hc s' hr⟩
  rcases hok.1 hall with hmem | ⟨hsuccess, hlost⟩
  · exact absurd hmem hok.2
  · refine ⟨fun hnote => ?_, hlost⟩
    cases hf : forgiven s.client.trace with
    | false => exact Or.inl (hsuccess hf)
    | true => exact Or.inr (ranSince_of_forgiven hnote hf)

/-- `PingKept`, as a test. -/
def pingKept (s : Sys) (a : Act) : Bool :=
  match sysStep a s with
  | .ok s' => !s'.client.trace.contains .loginPingClose
  | .error _ => false

theorem pingKept_sound (s : Sys) (a : Act) (h : pingKept s a = true) : PingKept s a := by
  intro s' hr hmem
  unfold pingKept at h
  rw [hr] at h
  simp [hmem] at h

/-- A login whose ping is sent. -/
theorem notified_agrees_login :
    ∃ s, Runs PingKept s ∧ lastNote s.client.trace = some .connectSuccess
      ∧ Agrees s.client.trace s.client.connState := by
  have hrun : (exec sysStep pingKept (sampleRead sampleLabel) sampleClient).map
      (fun s => (lastNote s.client.trace, s.client.cb.connectSuccess, s.client.cb.reconnectSuccess,
        s.client.cb.disconnect)) = some (some .connectSuccess, true, true, true) := by
    decide +kernel
  obtain ⟨s, hs, hfields⟩ := Option.map_eq_some_iff.mp hrun
  simp only [Prod.mk.injEq] at hfields
  obtain ⟨hnote, hall⟩ := hfields
  have h : Runs PingKept s := .of_exec pingKept_sound _ (.start ⟨_, _, rfl⟩) hs
  exact ⟨s, h, hnote, notified_agrees h hall⟩

/-- A login whose ping fails: the connection is closed and that is reported, and then the success
    is. -/
theorem notified_disagrees :
    ¬ ∀ s, Reachable s → s.client.cb.all → Agrees s.client.trace s.client.connState := by
  intro hclaim
  have hrun : (sampleExec (sampleLink ++ [.net (sampleNews (-1) .none),
      .net (sampleNews (-1) (.readable sampleLabel))])).map
      (fun s => (s.client.connState, lastNote s.client.trace, ranSince s.client.trace,
        s.client.cb.connectSuccess, s.client.cb.reconnectSuccess, s.client.cb.disconnect))
      = some (.init, some .connectSuccess, false, true, true, true) := by decide +kernel
  obtain ⟨s, hs, hfields⟩ := Option.map_eq_some_iff.mp hrun
  simp only [Prod.mk.injEq] at hfields
  obtain ⟨hst, hnote, hsince, hall⟩ := hfields
  have h : Reachable s := .of_exec (fun _ _ _ => trivial) _ (.start ⟨_, _, rfl⟩) hs
  rcases (hclaim s h hall).success (Or.inl hnote) with hlogic | hran
  · exact nomatch hst.symm.trans hlogic
  · exact nomatch hsince.symm.trans hran

end ConnClient
