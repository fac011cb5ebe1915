/-
  `KcpSession::Tick` against `KcpSession::Update`.

  The net loop calls `Tick` in every iteration, and `Tick` updates the block only when the time kept
  in `next_time_ms_` has come, or after an `Input`.  The block at hand then is `Late` for the block
  that an `Update` in every iteration would have, and no datagram shows the difference
  (`tick_datagrams`) — as long as

  * no iteration is skipped when a flush is due.  `next_time_ms_` is compared as an unsigned number,
    the time of the flush as a signed difference, so this happens behind a wrap of the clock, and with
    a `next_time_ms_` that another block left (`Misses`);
  * no call comes at a time that truncates to `0`, which the block does not take for a time, while its
    clock is behind.

  A session that starts with a `next_time_ms_` not after its clock never misses a flush before the
  clock wraps (`promptly_of_period`).

  The two sessions run side by side, and `Follows` is the relation between them: an iteration that is
  skipped leaves one block behind by its clock alone, and the next update, or the next call that is
  told a time, brings it up again.  What being behind does to a block, function by function, is in
  `ConnClient.Ikcp.Late`; this module has the schedule.  Within one period of the clock the schedule
  keeps its word because `pvp_ikcp_check` never names a time behind the next flush (`Punctual`).

  The session's calls are those of `kcp_session.cpp`, with the outputs listed; `sessionTick_session`
  connects them with the client's.
-/
import ConnClient.Ikcp.Late
import ConnClient.Client.Depth

namespace ConnClient

open ConnClient.Lib ConnClient.Ikcp

/-! ## The session's calls -/

namespace KcpSession

/-- `KcpSession::Update` -/
def update (s : KcpSession) (currentMs : IUINT32) : KcpSession × List (IKCPCB × List Byte) :=
  match s.kcp with
  | none => (s, [])
  | some kcp =>
    let (kcp, sent) := pvpIkcpUpdate kcp currentMs
    ({ s with kcp := some kcp, updateNow := false }, sent)

/-- `KcpSession::Tick` -/
def tick (s : KcpSession) (currentMs : IUINT32) : KcpSession × List (IKCPCB × List Byte) :=
  if s.isNull then (s, [])
  else if s.nextTimeMs ≤ currentMs ∨ s.updateNow then
    let (s, sent) := s.update currentMs
    ({ s with nextTimeMs := s.check currentMs }, sent)
  else (s, [])

/-- `KcpSession::Send` -/
def send (s : KcpSession) (buffer : List Byte) (curTime : Int) :
    Int × KcpSession × List (IKCPCB × List Byte) :=
  match s.kcp with
  | none => (0, s, [])
  | some kcp =>
    let (ret, kcp, sent) := pvpIkcpSendEx kcp buffer (BitVec.ofInt 32 curTime)
    (ret, { s with kcp := some kcp }, sent)

/-- A session whose `CreateKCP` was followed by `Update`. -/
def opened (s : KcpSession) (info : ControlKCPInfo) (start : Int) : KcpSession :=
  ((s.createKCP info).update (BitVec.ofInt 32 start)).1

end KcpSession

/-- What happens to a session. -/
inductive SessionCall where
  /-- An iteration of the net loop. -/
  | iterate (nowMs : Int)
  | input (data : List Byte) (curTime : Int)
  | send (buffer : List Byte) (curTime : Int)
  | recv (len : Int)

/-- What an iteration does with the session. -/
abbrev Loop := KcpSession → IUINT32 → KcpSession × List (IKCPCB × List Byte)

/-- One call, with its outputs. -/
def drive (loop : Loop) (s : KcpSession) : SessionCall → KcpSession × List (IKCPCB × List Byte)
  | .iterate nowMs => loop s (BitVec.ofInt 32 nowMs)
  | .input data curTime => ((s.input data curTime).2, [])
  | .send buffer curTime => (s.send buffer curTime).2
  | .recv len => ((s.recv len).2, [])

/-- The datagrams handed to `output`, call by call. -/
def datagrams (loop : Loop) : List SessionCall → KcpSession → List (List (List Byte))
  | [], _ => []
  | call :: calls, s =>
    (drive loop s call).2.map Prod.snd :: datagrams loop calls (drive loop s call).1

/-! ## The condition -/

/-- `Tick` would skip an update that flushes. -/
def KcpSession.Misses (s : KcpSession) (currentMs : IUINT32) : Prop :=
  s.updateNow = false ∧ currentMs < s.nextTimeMs ∧ ∃ k ∈ s.kcp, flushDue k currentMs

/-- The block's clock shows `now`. -/
def KcpSession.Shows (s : KcpSession) (now : IUINT32) : Prop := ∀ k ∈ s.kcp, k.current = now

/-- The latest time that was told. -/
def SessionCall.told (now : IUINT32) : SessionCall → IUINT32
  | .iterate nowMs => BitVec.ofInt 32 nowMs
  | .input _ curTime => clockAfter now (BitVec.ofInt 32 curTime)
  | .send _ curTime => clockAfter now (BitVec.ofInt 32 curTime)
  | .recv _ => now

/-- The call does not come upon one of the two. -/
def KcpSession.Ready (s : KcpSession) (now : IUINT32) : SessionCall → Prop
  | .iterate nowMs => ¬ s.Misses (BitVec.ofInt 32 nowMs)
  | .input _ curTime => BitVec.ofInt 32 curTime = 0 → s.Shows now
  | .send _ curTime => BitVec.ofInt 32 curTime = 0 → s.Shows now
  | .recv _ => True

/-- None of the calls does, in the session that is ticked; `now` is the time at their start. -/
def Promptly : IUINT32 → KcpSession → List SessionCall → Prop
  | _, _, [] => True
  | now, s, call :: calls =>
    s.Ready now call ∧ Promptly (call.told now) (drive KcpSession.tick s call).1 calls

instance (s : KcpSession) (currentMs : IUINT32) : Decidable (s.Misses currentMs) :=
  inferInstanceAs (Decidable (_ ∧ _ ∧ _))

instance (s : KcpSession) (now : IUINT32) : Decidable (s.Shows now) :=
  inferInstanceAs (Decidable (∀ _ ∈ _, _))

instance (s : KcpSession) (now : IUINT32) : ∀ call, Decidable (s.Ready now call)
  | .iterate _ => inferInstanceAs (Decidable (¬ _))
  | .input _ _ => inferInstanceAs (Decidable (_ → _))
  | .send _ _ => inferInstanceAs (Decidable (_ → _))
  | .recv _ => inferInstanceAs (Decidable True)

instance decidablePromptly :
    ∀ (now : IUINT32) (s : KcpSession) (calls : List SessionCall), Decidable (Promptly now s calls)
  | _, _, [] => inferInstanceAs (Decidable True)
  | now, s, call :: calls =>
    have := decidablePromptly (call.told now) (drive KcpSession.tick s call).1 calls
    inferInstanceAs (Decidable (_ ∧ _))

/-! ## The two sessions -/

/-- `s'` is where `s` would be had it been updated in every iteration: each has a block, and the
    first is late for the second. -/
def Follows (now : IUINT32) (s s' : KcpSession) : Prop :=
  ∃ k k', s.kcp = some k ∧ s'.kcp = some k' ∧ k.tuning.Sane ∧ Late now k k'

section Following

variable {now : IUINT32} {s s' : KcpSession}

theorem update_of_kcp {k : IKCPCB} (hk : s.kcp = some k) (current : IUINT32) :
    s.update current = ({ s with kcp := some (pvpIkcpUpdate k current).1, updateNow := false },
      (pvpIkcpUpdate k current).2) := by
  rw [KcpSession.update, hk]

theorem send_of_kcp {k : IKCPCB} (hk : s.kcp = some k) (buffer : List Byte) (curTime : Int) :
    (s.send buffer curTime).2
      = ({ s with kcp := some (pvpIkcpSendEx k buffer (BitVec.ofInt 32 curTime)).2.1 },
        (pvpIkcpSendEx k buffer (BitVec.ofInt 32 curTime)).2.2) := by
  rw [KcpSession.send, hk]

theorem input_of_kcp {k : IKCPCB} (hk : s.kcp = some k) (data : List Byte) (curTime : Int) :
    (s.input data curTime).2 = { s with
      kcp := some (pvpIkcpInput k data (BitVec.ofInt 32 curTime)).2, updateNow := true } := by
  rw [KcpSession.input, hk]

theorem recv_of_kcp {k : IKCPCB} (hk : s.kcp = some k) (len : Int) :
    (s.recv len).2 = { s with kcp := some (pvpIkcpRecv k len).2 } := by
  rw [KcpSession.recv, hk]

/-- A tick is an update, or nothing at all. -/
theorem tick_cases {k : IKCPCB} (hk : s.kcp = some k) (current : IUINT32) :
    (s.tick current = ({ (s.update current).1 with
        nextTimeMs := (s.update current).1.check current }, (s.update current).2))
      ∨ (s.tick current = (s, []) ∧ s.updateNow = false ∧ current < s.nextTimeMs) := by
  have hlive : ¬ s.isNull = true := by
    rw [KcpSession.isNull, hk]
    exact Bool.false_ne_true
  rw [KcpSession.tick, if_neg hlive]
  split
  · exact Or.inl rfl
  · rename_i hskip
    have hskip := not_or.mp hskip
    exact Or.inr ⟨rfl, eq_false_of_ne_true hskip.2, BitVec.not_le.mp hskip.1⟩

/-- **One call.** -/
theorem Follows.step (h : Follows now s s') {call : SessionCall} (hc : s.Ready now call) :
    Follows (call.told now) (drive KcpSession.tick s call).1 (drive KcpSession.update s' call).1
      ∧ (drive KcpSession.tick s call).2.map Prod.snd
          = (drive KcpSession.update s' call).2.map Prod.snd := by
  rcases h with ⟨k, k', hk, hk', hs, hlate⟩
  cases call with
  | iterate nowMs =>
    have hup := blockInv_sane.update (BitVec.ofInt 32 nowMs) hs
    obtain ⟨hnext, hout⟩ := hlate.update hs (BitVec.ofInt 32 nowMs)
    dsimp only [drive]
    rw [update_of_kcp hk']
    rcases tick_cases hk (BitVec.ofInt 32 nowMs) with htick | ⟨htick, hnow, hlt⟩
    · rw [htick, update_of_kcp hk]
      exact ⟨⟨_, _, rfl, rfl, hup.1, hnext⟩, hout.symm⟩
    · -- skipped, and no flush was due
      have hnot : ¬ flushDue k (BitVec.ofInt 32 nowMs) := fun hdue => hc ⟨hnow, hlt, k, hk, hdue⟩
      obtain ⟨hskip, hnone⟩ := hlate.skip hs.updated hnot
      rw [htick, hnone]
      exact ⟨⟨k, _, hk, rfl, hs, hskip⟩, rfl⟩
  | input data curTime =>
    have hin := blockInv_sane.input data (BitVec.ofInt 32 curTime) hs
    dsimp only [drive]
    rw [input_of_kcp hk, input_of_kcp hk']
    exact ⟨⟨_, _, rfl, rfl, hin, hlate.input data fun hz => hc hz k hk⟩, rfl⟩
  | send buffer curTime =>
    have hsend := blockInv_sane.sendEx buffer (BitVec.ofInt 32 curTime) hs
    obtain ⟨hnext, hout⟩ := hlate.sendEx buffer fun hz => hc hz k hk
    dsimp only [drive]
    rw [send_of_kcp hk, send_of_kcp hk']
    exact ⟨⟨_, _, rfl, rfl, hsend.1, hnext⟩, hout.symm⟩
  | recv len =>
    dsimp only [drive]
    rw [recv_of_kcp hk, recv_of_kcp hk']
    exact ⟨⟨_, _, rfl, rfl, blockInv_sane.recv len hs, hlate.recv len⟩, rfl⟩

/-- All calls.  Induction on them. -/
theorem Follows.datagrams : ∀ (calls : List SessionCall) {now : IUINT32} {s s' : KcpSession},
    Follows now s s' → Promptly now s calls →
      datagrams KcpSession.tick calls s = datagrams KcpSession.update calls s'
  | [], _, _, _, _, _ => rfl
  | call :: calls, _, _, _, h, hp => by
    obtain ⟨hnext, hout⟩ := h.step hp.1
    rw [ConnClient.datagrams, ConnClient.datagrams, hout, Follows.datagrams calls hnext hp.2]

theorem opened_kcp (s : KcpSession) (info : ControlKCPInfo) (start : Int) :
    (s.opened info start).kcp
      = some (pvpIkcpUpdate (KcpSession.createBlock info) (BitVec.ofInt 32 start)).1 := by
  rw [KcpSession.opened, update_of_kcp rfl]

/-- A new block's clock is right. -/
theorem opened_follows (s : KcpSession) (info : ControlKCPInfo) (start : Int) :
    Follows (BitVec.ofInt 32 start) (s.opened info start) (s.opened info start) := by
  have hk := opened_kcp s info start
  have hsane := (blockInv_sane.create info (BitVec.ofInt 32 start)).1
  have htuning := pvpIkcpUpdate_tuning (BitVec.ofInt 32 start) (createBlock_sane info)
  generalize (pvpIkcpUpdate (KcpSession.createBlock info) (BitVec.ofInt 32 start)).1 = k
    at hk hsane htuning
  have hnow : k.current = BitVec.ofInt 32 start := congrArg Tuning.current htuning
  have hlate := (Twins.refl True k).late fun _ => trivial
  rw [hnow] at hlate
  exact ⟨k, k, hk, hk, hsane, hlate⟩

end Following

/-- **Ticking is as good as updating.** -/
theorem tick_datagrams (s : KcpSession) (info : ControlKCPInfo) (start : Int)
    (calls : List SessionCall)
    (h : Promptly (BitVec.ofInt 32 start) (s.opened info start) calls) :
    datagrams KcpSession.tick calls (s.opened info start)
      = datagrams KcpSession.update calls (s.opened info start) :=
  (opened_follows s info start).datagrams calls h

/-! ## What goes wrong otherwise -/

/-- A block without redundant copies, flushed every ten milliseconds. -/
def sampleKcp : ControlKCPInfo where
  dupSendCount := 0
  kcpConv := 7
  nodelay := 1
  interval := 10
  resend := 0
  nc := 1
  mtu := 500
  rxMinrto := 10
  fastresend := 0
  sndWnd := 32
  rcvWnd := 128
  enableUdp := 0
  dupAck := 0
  dupDynamic := 0
  dupWait := 0
  dupWndOn := 0

/-- A message, and an iteration when it is to be sent again. -/
def sampleCalls (now : Int) : List SessionCall :=
  [.iterate (now + 10), .send [1] (now + 10), .iterate (now + 330)]

/-- A session that starts at one second. -/
theorem tick_datagrams_sample :
    datagrams KcpSession.tick (sampleCalls 1000) (KcpSession.new.opened sampleKcp 1000)
      = datagrams KcpSession.update (sampleCalls 1000) (KcpSession.new.opened sampleKcp 1000) :=
  tick_datagrams KcpSession.new sampleKcp 1000 (sampleCalls 1000) (by decide +kernel)

/-- **Behind the wrap of the clock** the message is not sent again. -/
theorem tick_wrapped :
    datagrams KcpSession.tick (sampleCalls (2 ^ 32 - 30))
        (KcpSession.new.opened sampleKcp (2 ^ 32 - 30))
      ≠ datagrams KcpSession.update (sampleCalls (2 ^ 32 - 30))
        (KcpSession.new.opened sampleKcp (2 ^ 32 - 30)) := by
  decide +kernel

/-- Nor is it after a reconnect, ahead of the time the last block was to be checked. -/
example :
    datagrams KcpSession.tick (sampleCalls 1000)
        (({ KcpSession.new with nextTimeMs := 6000 } : KcpSession).opened sampleKcp 1000)
      ≠ datagrams KcpSession.update (sampleCalls 1000)
        (({ KcpSession.new with nextTimeMs := 6000 } : KcpSession).opened sampleKcp 1000) := by
  decide +kernel

/-- And a message sent when the clock reads `0` carries the time of the last update. -/
example :
    datagrams KcpSession.tick [.iterate (2 ^ 32 - 20), .iterate (2 ^ 32 - 15), .send [1] (2 ^ 32)]
        (KcpSession.new.opened sampleKcp (2 ^ 32 - 30))
      ≠ datagrams KcpSession.update
        [.iterate (2 ^ 32 - 20), .iterate (2 ^ 32 - 15), .send [1] (2 ^ 32)]
        (KcpSession.new.opened sampleKcp (2 ^ 32 - 30)) := by
  decide +kernel

/-! ## What is missed -/

/-- **A missed flush**: `Tick` leaves the block as it is, where `Update` would have flushed. -/
theorem tick_misses {s : KcpSession} {currentMs : IUINT32} {k : IKCPCB} (hk : s.kcp = some k)
    (hup : k.updated = true) (hm : s.Misses currentMs) :
    s.tick currentMs = (s, []) ∧ (updateHead k currentMs).1 = true := by
  obtain ⟨hnow, hlt, k', hk', hdue⟩ := hm
  cases hk.symm.trans hk'
  refine ⟨?_, updateHead_due hup hdue⟩
  have hskip : ¬ (s.nextTimeMs ≤ currentMs ∨ s.updateNow = true) := by
    rintro (hle | htrue)
    · exact BitVec.not_le.mpr hlt hle
    · rw [hnow] at htrue
      exact Bool.false_ne_true htrue
  rw [KcpSession.tick, if_neg hskip]
  split <;> rfl

/-! ## Before the clock wraps -/

/-- The iterations come at non-decreasing times from `now` on, before the next wrap of the 32-bit
    clock, and the other calls are told a time. -/
def InPeriod : Int → List SessionCall → Prop
  | _, [] => True
  | now, .iterate nowMs :: calls =>
    now ≤ nowMs ∧ nowMs / 2 ^ 32 = now / 2 ^ 32 ∧ InPeriod nowMs calls
  | now, .input _ curTime :: calls => BitVec.ofInt 32 curTime ≠ 0 ∧ InPeriod now calls
  | now, .send _ curTime :: calls => BitVec.ofInt 32 curTime ≠ 0 ∧ InPeriod now calls
  | now, .recv _ :: calls => InPeriod now calls

/-- `next_time_ms_` is behind the clock, or it is what `pvp_ikcp_check` gave at the last update: `m`
    milliseconds from then, with the flush `d` milliseconds from then and `m` at most `d`. -/
structure Punctual (s : KcpSession) (k : IKCPCB) (now : IUINT32) : Prop where
  kcp : s.kcp = some k
  sane : k.tuning.Sane
  interval : k.interval.toNat ≤ 5000
  deadline : s.nextTimeMs ≤ now ∨ ∃ last d m, last ≤ now ∧ FlushIn k last d ∧ m ≤ d
    ∧ s.nextTimeMs = last + BitVec.ofNat 32 m

section Period

variable {s : KcpSession} {k : IKCPCB} {now : IUINT32}

/-- **Nothing is missed** while the clock goes on. -/
theorem Punctual.ready (h : Punctual s k now) {later : IUINT32} (hle : now ≤ later) :
    ¬ s.Misses later := by
  rintro ⟨-, hlt, k', hk', hdue⟩
  cases h.kcp.symm.trans hk'
  rcases h.deadline with hpast | ⟨last, d, m, hlast, hin, hm, hnext⟩
  · -- the time kept has passed, so `Tick` updates
    exact BitVec.not_le.mpr hlt (BitVec.le_trans hpast hle)
  · rw [hnext] at hlt
    exact not_flushDue_of_lt hin hm (BitVec.le_trans hlast hle) hlt hdue

/-- A call that leaves the time of the flush alone. -/
theorem Punctual.keep (h : Punctual s k now) {s' : KcpSession} {k' : IKCPCB}
    (hk' : s'.kcp = some k') (hs : k'.tuning.Sane) (hint : k'.interval = k.interval)
    (hts : k'.tsFlush = k.tsFlush) (hnext : s'.nextTimeMs = s.nextTimeMs) : Punctual s' k' now := by
  refine ⟨hk', hs, hint ▸ h.interval, ?_⟩
  rcases h.deadline with hpast | ⟨last, d, m, hlast, hin, hm, hd⟩
  · exact Or.inl (hnext ▸ hpast)
  · exact Or.inr ⟨last, d, m, hlast, ⟨hts.trans hin.ts, hin.pos, hin.le⟩, hm, hnext.trans hd⟩

/-- An iteration. -/
theorem Punctual.tick (h : Punctual s k now) {later : IUINT32} (hle : now ≤ later) :
    ∃ k', Punctual (s.tick later).1 k' later := by
  rcases tick_cases h.kcp later with htick | ⟨htick, -⟩
  · have hs := h.sane
    have htuning := pvpIkcpUpdate_tuning later
      ⟨rfl, hs.mtu_ge, hs.mtu_le, hs.interval, hs.rto_ge, hs.rto_le, hs.resend⟩
    have hahead : ∃ d, FlushIn (pvpIkcpUpdate k later).1 later d :=
      pvpIkcpUpdate_flushIn hs.interval h.interval
    obtain ⟨d, hin⟩ := hahead
    obtain ⟨m, hm, hcheck⟩ := pvpIkcpCheck_le hin
    refine ⟨(pvpIkcpUpdate k later).1, ?_, (blockInv_sane.update later hs).1, ?_, Or.inr ?_⟩
    · rw [htick, update_of_kcp h.kcp]
    · rw [show (pvpIkcpUpdate k later).1.interval = k.interval from congrArg Tuning.interval htuning]
      exact h.interval
    · refine ⟨later, d, m, BitVec.le_refl later, hin, hm, ?_⟩
      rw [htick, update_of_kcp h.kcp]
      exact hcheck
  · rw [htick]
    refine ⟨k, h.kcp, h.sane, h.interval, ?_⟩
    rcases h.deadline with hpast | ⟨last, d, m, hlast, hrest⟩
    · exact Or.inl (BitVec.le_trans hpast hle)
    · exact Or.inr ⟨last, d, m, BitVec.le_trans hlast hle, hrest⟩

/-- All calls.  Induction on them. -/
theorem Punctual.promptly : ∀ (calls : List SessionCall) {s : KcpSession} {k : IKCPCB} {now : Int}
    (shown : IUINT32), Punctual s k (BitVec.ofInt 32 now) → InPeriod now calls →
      Promptly shown s calls
  | [], _, _, _, _, _, _ => trivial
  | .iterate nowMs :: calls, s, k, now, shown, h, ⟨hle, hperiod, hrest⟩ => by
    have hlater : BitVec.ofInt 32 now ≤ BitVec.ofInt 32 nowMs := by
      show (BitVec.ofInt 32 now).toNat ≤ (BitVec.ofInt 32 nowMs).toNat
      rw [BitVec.toNat_ofInt, BitVec.toNat_ofInt]
      omega
    obtain ⟨k', h'⟩ := h.tick hlater
    exact ⟨h.ready hlater, h'.promptly calls _ hrest⟩
  | .input data curTime :: calls, s, k, now, shown, h, ⟨htold, hrest⟩ => by
    have htuning := pvpIkcpInput_tuning k data (BitVec.ofInt 32 curTime)
    have h' := h.keep (congrArg KcpSession.kcp (input_of_kcp h.kcp data curTime))
      (blockInv_sane.input data _ h.sane) (congrArg Tuning.interval htuning)
      (pvpIkcpInput_tsFlush ..) (by rw [input_of_kcp h.kcp])
    exact ⟨fun hz => absurd hz htold, h'.promptly calls _ hrest⟩
  | .send buffer curTime :: calls, s, k, now, shown, h, ⟨htold, hrest⟩ => by
    have htuning := pvpIkcpSendEx_tuning k buffer (BitVec.ofInt 32 curTime)
    have hsend := congrArg Prod.fst (send_of_kcp h.kcp buffer curTime)
    have h' := h.keep (congrArg KcpSession.kcp hsend)
      (blockInv_sane.sendEx buffer _ h.sane).1 (congrArg Tuning.interval htuning)
      (pvpIkcpSendEx_tsFlush ..) (by rw [hsend])
    exact ⟨fun hz => absurd hz htold, h'.promptly calls _ hrest⟩
  | .recv len :: calls, s, k, now, shown, h, hrest => by
    have h' := h.keep (congrArg KcpSession.kcp (recv_of_kcp h.kcp len))
      (blockInv_sane.recv len h.sane) (congrArg Tuning.interval (pvpIkcpRecv_tuning k len))
      (pvpIkcpRecv_tsFlush k len) (by rw [recv_of_kcp h.kcp])
    exact ⟨trivial, h'.promptly calls _ hrest⟩

end Period

/-- No interval is longer than five seconds. -/
theorem createBlock_interval (info : ControlKCPInfo) :
    (KcpSession.createBlock info).interval.toNat ≤ 5000 := by
  let Short : IKCPCB → Prop := fun k => k.interval.toNat ≤ 5000
  have hshort : Short (KcpSession.createBlock info) := by
    refine KcpSession.createBlock_rule (by show ikcpInterval.toNat ≤ 5000; decide) ?_ ?_ ?_ ?_ ?_
    · intro k nodelay interval resend nc h
      have hint : (BitVec.ofInt 32 (clampInterval 10 5000 interval)).toNat ≤ 5000 := by
        have hlo : 10 ≤ clampInterval 10 5000 interval ∧ clampInterval 10 5000 interval ≤ 5000 := by
          unfold clampInterval
          split
          · omega
          · split <;> omega
        rw [BitVec.toNat_ofInt]
        omega
      unfold pvpIkcpNodelay
      by_cases h1 : nodelay ≥ 0 <;> by_cases h2 : interval ≥ 0 <;> by_cases h3 : resend ≥ 0
        <;> by_cases h4 : nc ≥ 0 <;> simp only [h1, h2, h3, h4, if_true, if_false]
        <;> first | exact h | exact hint
    · intro k sndwnd rcvwnd h
      unfold pvpIkcpWndsize
      split <;> split <;> exact h
    · intro k count dupack dynamic wait wndOn h
      exact h
    · intro k mtu _ h
      unfold pvpIkcpSetmtu
      split <;> exact h
    · intro k h
      exact h
  exact hshort

/-- **Before the clock wraps, nothing is missed**: so the two schedules agree on every run within one
    period of the clock, of a session whose `next_time_ms_` is not ahead of it. -/
theorem promptly_of_period (s : KcpSession) (info : ControlKCPInfo) (start : Int)
    (hnext : s.nextTimeMs ≤ BitVec.ofInt 32 start) {calls : List SessionCall}
    (hin : InPeriod start calls) :
    Promptly (BitVec.ofInt 32 start) (s.opened info start) calls := by
  have hk := opened_kcp s info start
  have hsane := (blockInv_sane.create info (BitVec.ofInt 32 start)).1
  have htuning := pvpIkcpUpdate_tuning (BitVec.ofInt 32 start) (createBlock_sane info)
  generalize (pvpIkcpUpdate (KcpSession.createBlock info) (BitVec.ofInt 32 start)).1 = k
    at hk hsane htuning
  have hint : k.interval = (KcpSession.createBlock info).interval :=
    congrArg Tuning.interval htuning
  have hpunctual : Punctual (s.opened info start) k (BitVec.ofInt 32 start) := by
    refine ⟨hk, hsane, hint ▸ createBlock_interval info, Or.inl ?_⟩
    rw [KcpSession.opened, update_of_kcp rfl]
    exact hnext
  exact hpunctual.promptly calls _ hin

/-! ## The client's session -/

/-- What a close leaves alone, and an update sets. -/
def Client.schedule (c : Client) : IUINT32 × Bool := (c.kcpSession.nextTimeMs, c.kcpSession.updateNow)

section Schedule

variable {cx : Cx} {c c' : Client}

theorem playOutputs_schedule
    (hclose : ∀ reason c c', cx.close reason c = .ok c' → c'.schedule = c.schedule)
    (outs : List (IKCPCB × List Byte)) {c c' : Client} (hr : playOutputs cx outs c = .ok c') :
    c'.schedule = c.schedule := by
  refine playOutputs_ok (R := fun c c' => c'.schedule = c.schedule) (fun _ => rfl) ?_ hr
  intro kcp data c c₁ c' h₁ hrest
  refine hrest.trans ?_
  obtain ⟨x, hx | hx⟩ := kcpOutput_sends cx data
    { c with kcpSession := { c.kcpSession with kcp := some kcp } }
  · cases hx.symm.trans h₁
    rfl
  · rw [hx] at h₁
    change cx.close clientConnectError (Client.log _ _) = .ok c₁ at h₁
    have hclosed := hclose _ _ _ h₁
    exact hclosed

theorem runKcp_schedule
    (hclose : ∀ reason c c', cx.close reason c = .ok c' → c'.schedule = c.schedule) {b : Bracket}
    {r : IKCPCB × List (IKCPCB × List Byte)} (hr : runKcp cx b r c = .ok c') :
    c'.schedule = c.schedule ∧ c'.kcpSession.kcp = some r.1 := by
  obtain ⟨c₁, h₁, h₂⟩ := bind_eq_ok.mp hr
  have hplayed := playOutputs_schedule hclose r.2 h₁
  cases h₂
  exact ⟨hplayed, rfl⟩

theorem closeSockets_schedule (env : Env) (reason : Int) (c : Client) :
    (closeSockets env reason c).schedule = c.schedule := by
  simp only [closeSockets]
  split <;> rfl

/-- Whatever calls nest, the schedule stays.  Induction on their depth. -/
theorem innerClose_schedule (env : Env) (n : Nat) (reason : Int) (c c' : Client)
    (hr : innerClose env n reason c = .ok c') : c'.schedule = c.schedule := by
  refine unroll_ok (S := fun a (c' : Client) => c'.schedule = a.2.schedule) ?_ n (reason, c) c' hr
  rintro f hf ⟨reason, c⟩ c' hr
  rw [innerCloseBody] at hr
  dsimp only at hr
  split at hr
  · obtain ⟨c₁, h₁, h₂⟩ := bind_eq_ok.mp hr
    cases h₂
    refine (closeSockets_schedule env _ c₁).trans ?_
    obtain ⟨c₂, hflush, h₂⟩ := bind_eq_ok.mp h₁
    obtain ⟨c₃, hrelease, h₃⟩ := bind_eq_ok.mp h₂
    cases h₃
    have hflushed : c₂.schedule = c.schedule := by
      rw [sessionFlush] at hflush
      split at hflush
      · cases hflush
        rfl
      · exact (runKcp_schedule (fun reason c c' h => hf (reason, c) c' h) hflush).1
    rw [sessionRelease] at hrelease
    split at hrelease
    · nomatch hrelease
    · cases hrelease
      exact hflushed
  · cases hr
    exact closeSockets_schedule env _ c

/-- **The client's tick does to the session what the session's does**, if it returns; the conversation
    number aside, which a release clears. -/
theorem sessionTick_session {env : Env} {n : Nat} {now : IUINT32}
    (hr : sessionTick (.of env n) now c = .ok c') :
    c'.kcpSession = { (c.kcpSession.tick now).1 with kcpConv := c'.kcpSession.kcpConv } := by
  rw [sessionTick] at hr
  cases hk : c.kcpSession.kcp with
  | none =>
    have hnull : c.kcpSession.isNull = true := by rw [KcpSession.isNull, hk]; rfl
    rw [if_pos hnull] at hr
    cases hr
    rw [KcpSession.tick, if_pos hnull]
  | some k =>
    have hlive : ¬ c.kcpSession.isNull = true := by
      rw [KcpSession.isNull, hk]
      exact Bool.false_ne_true
    rw [if_neg hlive] at hr
    rw [KcpSession.tick, if_neg hlive]
    split at hr
    · -- the block is what the update left, whatever the closes of its outputs did meanwhile
      rename_i hdue
      rw [if_pos hdue, update_of_kcp hk]
      obtain ⟨c₁, h₁, h₂⟩ := bind_eq_ok.mp hr
      rw [sessionUpdate, hk] at h₁
      obtain ⟨c₂, h₃, h₄⟩ := bind_eq_ok.mp h₁
      obtain ⟨hschedule, hblock⟩ := runKcp_schedule (innerClose_schedule env n) h₃
      cases h₄
      cases h₂
      dsimp only
      generalize c₂.kcpSession = s at hblock
      obtain ⟨kcp, conv, next, now⟩ := s
      cases hblock
      rfl
    · rename_i hskip
      rw [if_neg hskip]
      cases hr
      rfl

end Schedule

end ConnClient
