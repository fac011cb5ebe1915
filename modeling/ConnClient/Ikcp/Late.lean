/-
  A block that is updated at every occasion, and one that is updated when it has to be.

  An update sets the clock and the switch of the redundant copies, and flushes when it is time to.
  So a block that skips an update before that time is `Late`: its clock is behind and its switch may
  be old.  No call depends on these, if it is told the time: it sets the clock itself (`Late.input`,
  `Late.sendEx`), or does not look at it (`Late.recv`), and the next update brings the two blocks
  together again (`Late.update`).  But `0` is not taken for a time, so a call made when the clock shows
  it goes by the block's own clock.

  When an update has to come is for `pvp_ikcp_check` to say: not after the time of the flush, whatever
  the clock shows and wherever it wraps (`pvpIkcpCheck_cases`).

  The source compares times by signed differences and takes one that is 10 seconds off for nonsense, in which
  case it flushes at once.  So a flush that is not due lies ahead by at most 10 seconds (`FlushIn`), and in
  that distance times are compared as numbers again.
-/
import ConnClient.Ikcp.Backlog
import ConnClient.Ikcp.Twins

namespace ConnClient.Ikcp

open ConnClient.Lib

/-! ## An update -/

/-- `k'` is `k`, but for its clock, which shows `now`, and the switch of a block that sends copies.
    The time of the next flush is the same in both: only an update moves it. -/
def Late (now : IUINT32) (k k' : IKCPCB) : Prop :=
  Twins (k.dupsendcount = 0) k.tsFlush (k.clocked now) k'

section Update

variable {now : IUINT32} {k k' : IKCPCB}

/-- The switch is set from what twins share. -/
theorem pvpIkcpUpdateDupsendOn_book (k : IKCPCB) (b : Books) :
    pvpIkcpUpdateDupsendOn (k.book b) = (pvpIkcpUpdateDupsendOn k).book
      { b with dupsendOn := (pvpIkcpUpdateDupsendOn k).dupsendOn } := by
  simp only [pvpIkcpUpdateDupsendOn, IKCPCB.book_dupsendDynamic, IKCPCB.book_cwnd,
    IKCPCB.book_ssthresh, IKCPCB.book_dupsendWndOn]
  split
  · rfl
  · split <;> rfl

/-- An update sets the clock and the switch. -/
theorem updateEnter_twins (h : Late now k k') (current : IUINT32) :
    Twins True (updateEnter k current).tsFlush (updateEnter k current) (updateEnter k' current) := by
  rcases h with ⟨b, hts, hon, rfl⟩
  let entered (k : IKCPCB) : IKCPCB :=
    if k.updated = false then { k with current := current, updated := true, tsFlush := current }
    else { k with current := current }
  have hunfold : ∀ k, updateEnter k current
      = if (entered k).dupsendcount > 0 then pvpIkcpUpdateDupsendOn (entered k) else entered k :=
    fun _ => rfl
  -- a first update starts the timer in both, any other leaves it
  have hentered : ∃ b₁ : Books, b₁.tsFlush = (entered k).tsFlush ∧ b₁.dupsendOn = b.dupsendOn
      ∧ entered ((k.clocked now).book b) = (entered k).book b₁ := by
    simp only [entered, IKCPCB.book_updated, IKCPCB.clocked_updated]
    split
    · exact ⟨{ b with tsFlush := current }, rfl, rfl, rfl⟩
    · exact ⟨b, hts, rfl, rfl⟩
  have hswitch : (entered k).dupsendcount = k.dupsendcount
      ∧ (entered k).dupsendOn = k.dupsendOn := by
    simp only [entered]
    split <;> exact ⟨rfl, rfl⟩
  obtain ⟨b₁, hts₁, hon₁, he⟩ := hentered
  rw [hunfold, hunfold, he]
  by_cases hd : (entered k).dupsendcount > 0
  · rw [if_pos hd, if_pos (show ((entered k).book b₁).dupsendcount > 0 from hd),
      pvpIkcpUpdateDupsendOn_book]
    obtain ⟨switch, hset⟩ := pvpIkcpUpdateDupsendOn_switch (entered k)
    rw [hset]
    exact ⟨{ b₁ with dupsendOn := switch }, hts₁, fun _ => rfl, rfl⟩
  · rw [if_neg hd, if_neg (show ¬ ((entered k).book b₁).dupsendcount > 0 from hd)]
    -- without copies nothing ever sets the switch
    have hzero : k.dupsendcount = 0 := by
      rw [hswitch.1] at hd
      exact BitVec.eq_of_toNat_eq (Nat.eq_zero_of_not_pos hd)
    exact ⟨b₁, hts₁, fun _ => hon₁.trans ((hon hzero).trans hswitch.2.symm), rfl⟩

/-- Both find the same time to the flush. -/
theorem updateHead_twins (h : Late now k k') (current : IUINT32) :
    (updateHead k' current).1 = (updateHead k current).1
      ∧ Twins True (updateHead k current).2.tsFlush (updateHead k current).2
          (updateHead k' current).2 := by
  have henter := updateEnter_twins h current
  rw [updateHead, updateHead]
  generalize updateEnter k current = k at henter ⊢
  generalize updateEnter k' current = k' at henter ⊢
  rcases henter with ⟨b, hts, hon, rfl⟩
  -- the timer goes on by an interval, or starts again from now
  have hnext : ∀ {k : IKCPCB} {b : Books}, b.tsFlush = k.tsFlush → b.dupsendOn = k.dupsendOn →
      Twins True (nextFlush k).tsFlush (nextFlush k) (nextFlush (k.book b)) := by
    intro k b hts hon
    have hts' : (k.book b).tsFlush = k.tsFlush := hts
    simp only [nextFlush, hts', IKCPCB.book_current, IKCPCB.book_interval]
    split
    · exact ⟨{ b with tsFlush := k.current + k.interval }, rfl, fun _ => hon, rfl⟩
    · exact ⟨{ b with tsFlush := k.tsFlush + k.interval }, rfl, fun _ => hon, rfl⟩
  -- a timer that is 10 seconds off is set to now
  have hslap : ∃ b₁ : Books, b₁.tsFlush = (updateSlap k).2.tsFlush
      ∧ b₁.dupsendOn = (updateSlap k).2.dupsendOn
      ∧ updateSlap (k.book b) = ((updateSlap k).1, (updateSlap k).2.book b₁) := by
    have hts' : (k.book b).tsFlush = k.tsFlush := hts
    simp only [updateSlap, hts', IKCPCB.book_current]
    split
    · exact ⟨{ b with tsFlush := k.current }, rfl, hon trivial, rfl⟩
    · exact ⟨b, hts, hon trivial, rfl⟩
  obtain ⟨b₁, hts₁, hon₁, he⟩ := hslap
  rw [he]
  dsimp only
  split
  · exact ⟨rfl, hnext hts₁ hon₁⟩
  · exact ⟨rfl, b₁, hts₁, fun _ => hon₁, rfl⟩

/-- Keeping the loss rate concerns the books alone. -/
theorem pvpIkcpUpdateLost_books (k : IKCPCB) (current : IUINT32) :
    ∃ b : Books, b.tsFlush = k.tsFlush ∧ b.dupsendOn = k.dupsendOn
      ∧ pvpIkcpUpdateLost k current = k.book b := by
  obtain ⟨_, _, _, _, hset⟩ := pvpIkcpUpdateLost_eq k current
  refine ⟨(pvpIkcpUpdateLost k current).books, ?_⟩
  rw [hset]
  exact ⟨rfl, rfl, rfl⟩

theorem Twins.lost {on : Prop} {ts : IUINT32} (h : Twins on ts k k') (current : IUINT32) :
    Twins on ts (pvpIkcpUpdateLost k current) (pvpIkcpUpdateLost k' current) := by
  rcases h with ⟨b, hts, hon, rfl⟩
  obtain ⟨b₁, -, hon₁, h₁⟩ := pvpIkcpUpdateLost_books k current
  obtain ⟨b₂, hts₂, hon₂, h₂⟩ := pvpIkcpUpdateLost_books (k.book b) current
  rw [h₁, h₂]
  exact ⟨b₂, hts₂.trans hts, fun ho => hon₂.trans ((hon ho).trans hon₁.symm), rfl⟩

/-- **An update**, whatever the clocks showed. -/
theorem pvpIkcpUpdate_twins (h : Late now k k') (current : IUINT32) :
    SentTwins True (updateHead k current).2.tsFlush (pvpIkcpUpdate k current)
      (pvpIkcpUpdate k' current) := by
  obtain ⟨hflush, hhead⟩ := updateHead_twins h current
  rw [pvpIkcpUpdate, pvpIkcpUpdate]
  generalize updateHead k current = r at hflush hhead ⊢
  generalize updateHead k' current = r' at hflush hhead ⊢
  obtain ⟨flush, j⟩ := r
  obtain ⟨flush', j'⟩ := r'
  dsimp only at hflush hhead ⊢
  subst hflush
  split
  · have hsent := pvpIkcpFlush_twins hhead
    exact ⟨hsent.1.lost current, hsent.2⟩
  · exact ⟨hhead.lost current, rfl⟩

/-! ## Every call at its time -/

/-- The time of the next flush is for an update to set. -/
theorem pvpIkcpFlush_tsFlush (k : IKCPCB) : (pvpIkcpFlush k).1.tsFlush = k.tsFlush := by
  obtain ⟨⟨b, hts, -, hk⟩, -⟩ := pvpIkcpFlush_twins (Twins.refl True k)
  rw [hk]
  exact hts

/-- `send_ex` sends, too, without a timer of its own. -/
theorem pvpIkcpSendEx_tsFlush (k : IKCPCB) (buffer : List Byte) (current : IUINT32) :
    (pvpIkcpSendEx k buffer current).2.1.tsFlush = k.tsFlush := by
  obtain ⟨-, ⟨b, hts, -, hk⟩, -⟩ := pvpIkcpSendEx_twins (Twins.refl True k) buffer current
  rw [hk]
  exact hts

theorem pvpIkcpInput_tsFlush (k : IKCPCB) (data : List Byte) (current : IUINT32) :
    (pvpIkcpInput k data current).2.tsFlush = k.tsFlush := by
  have hown := congrArg (fun r => r.2.tsFlush) (pvpIkcpInput_book k k.books data current)
  exact hown

theorem pvpIkcpRecv_tsFlush (k : IKCPCB) (len : Int) :
    (pvpIkcpRecv k len).2.tsFlush = k.tsFlush := by
  have hown := congrArg (fun r => r.2.tsFlush) (pvpIkcpRecv_clocked k k.books k.current len)
  exact hown

/-- An update sets it in its head; the flush and the loss rates leave it. -/
theorem pvpIkcpUpdate_tsFlush (k : IKCPCB) (current : IUINT32) :
    (pvpIkcpUpdate k current).1.tsFlush = (updateHead k current).2.tsFlush := by
  have hlost : ∀ j, (pvpIkcpUpdateLost j current).tsFlush = j.tsFlush := by
    intro j
    obtain ⟨b, hts, -, hj⟩ := pvpIkcpUpdateLost_books j current
    rw [hj]
    exact hts
  rw [pvpIkcpUpdate]
  generalize updateHead k current = r
  obtain ⟨flush, j⟩ := r
  dsimp only
  split
  · exact (hlost _).trans (pvpIkcpFlush_tsFlush j)
  · exact hlost j

/-- A block is late for itself at its own time. -/
theorem Twins.late {on : Prop} (h : Twins on k.tsFlush k k') (hon : k.dupsendcount = 0 → on) :
    Late k.current k k' := by
  rcases h with ⟨b, hts, hswitch, hk⟩
  exact ⟨b, hts, fun hz => hswitch (hon hz), hk⟩

/-- The time is told once: to tell it before a call that tells it itself is no difference. -/
theorem told_told (k : IKCPCB) (current : IUINT32) : told (told k current) current = told k current := by
  unfold told
  split <;> rfl

theorem pvpIkcpInput_told (k : IKCPCB) (data : List Byte) (current : IUINT32) :
    pvpIkcpInput (told k current) data current = pvpIkcpInput k data current := by
  have henter : ∀ k, inputEnter k current
      = if (told k current).state = -1 then { told k current with state := 0, xmit := 0 }
        else told k current := fun _ => rfl
  unfold pvpIkcpInput
  rw [henter, henter, told_told]

theorem pvpIkcpSendEx_told (k : IKCPCB) (buffer : List Byte) (current : IUINT32) :
    pvpIkcpSendEx (told k current) buffer current = pvpIkcpSendEx k buffer current := by
  have hsend : pvpIkcpSend (told k current) buffer current = pvpIkcpSend k buffer current := by
    have hunfold : ∀ k, pvpIkcpSend k buffer current
        = if (told k current).stream ≠ 0 then
            let r := sendStreamAppend (told k current) buffer
            if r.2.length = 0 then (0, r.1) else sendQueue r.1 r.2
          else sendQueue (told k current) buffer := fun _ => rfl
    rw [hunfold, hunfold, told_told]
  unfold pvpIkcpSendEx
  rw [hsend]

/-- Blocks that are told the time agree on it; one that is told nothing goes by its own. -/
theorem Late.agree (h : Late now k k') {current : IUINT32} (hzero : current = 0 → k.current = now) :
    ∃ b : Books, b.tsFlush = k.tsFlush ∧ (k.dupsendcount = 0 → b.dupsendOn = k.dupsendOn)
      ∧ told k' current = (told k current).book b := by
  rcases h with ⟨b, hts, hon, rfl⟩
  refine ⟨b, hts, hon, ?_⟩
  unfold told
  split
  · rfl
  · rename_i hpos
    have hnow := hzero (BitVec.eq_of_toNat_eq (Nat.eq_zero_of_not_pos hpos))
    rw [← hnow]
    rfl

/-- After such a call the clock shows the latest time that was told. -/
theorem clockAfter_latest {current : IUINT32} (hzero : current = 0 → k.current = now) :
    clockAfter k.current current = clockAfter now current := by
  unfold clockAfter
  split
  · rfl
  · rename_i hpos
    exact hzero (BitVec.eq_of_toNat_eq (Nat.eq_zero_of_not_pos hpos))

/-- **Input** at a time the block can go by. -/
theorem Late.input (h : Late now k k') (data : List Byte) {current : IUINT32}
    (hzero : current = 0 → k.current = now) :
    Late (clockAfter now current) (pvpIkcpInput k data current).2 (pvpIkcpInput k' data current).2 := by
  obtain ⟨b, hts, hon, hk⟩ := h.agree hzero
  -- told the time, the two blocks differ in their books only, which input does not read
  have hinput := pvpIkcpInput_book (told k current) b data current
  rw [← hk, pvpIkcpInput_told, pvpIkcpInput_told] at hinput
  have htuning := pvpIkcpInput_tuning k data current
  have hown := congrArg (fun r => r.2.dupsendOn) (pvpIkcpInput_book k k.books data current)
  have hcount : (pvpIkcpInput k data current).2.dupsendcount = k.dupsendcount :=
    congrArg Tuning.dupsendcount htuning
  have hnow : (pvpIkcpInput k data current).2.current = clockAfter now current :=
    (congrArg Tuning.current htuning).trans (clockAfter_latest hzero)
  have htwins : Twins (k.dupsendcount = 0) (pvpIkcpInput k data current).2.tsFlush
      (pvpIkcpInput k data current).2 (pvpIkcpInput k' data current).2 := by
    refine ⟨b, hts.trans (pvpIkcpInput_tsFlush ..).symm, fun hz => (hon hz).trans hown.symm, ?_⟩
    rw [hinput]
  exact hnow ▸ htwins.late fun hz => hcount ▸ hz

/-- **A message sent at once**, at a time the block can go by. -/
theorem Late.sendEx (h : Late now k k') (buffer : List Byte) {current : IUINT32}
    (hzero : current = 0 → k.current = now) :
    Late (clockAfter now current) (pvpIkcpSendEx k buffer current).2.1
        (pvpIkcpSendEx k' buffer current).2.1
      ∧ (pvpIkcpSendEx k' buffer current).2.2.map Prod.snd
          = (pvpIkcpSendEx k buffer current).2.2.map Prod.snd := by
  obtain ⟨b, hts, hon, hk⟩ := h.agree hzero
  have hclock : (told k current).dupsendOn = k.dupsendOn := by
    unfold told
    split <;> rfl
  have htwins : Twins (k.dupsendcount = 0) k.tsFlush (told k current) (told k' current) :=
    ⟨b, hts, fun hz => (hon hz).trans hclock.symm, hk⟩
  obtain ⟨-, hsent, hout⟩ := pvpIkcpSendEx_twins htwins buffer current
  rw [pvpIkcpSendEx_told, pvpIkcpSendEx_told] at hsent hout
  have htuning := pvpIkcpSendEx_tuning k buffer current
  have hcount : (pvpIkcpSendEx k buffer current).2.1.dupsendcount = k.dupsendcount :=
    congrArg Tuning.dupsendcount htuning
  have hnow : (pvpIkcpSendEx k buffer current).2.1.current = clockAfter now current :=
    (congrArg Tuning.current htuning).trans (clockAfter_latest hzero)
  rw [← pvpIkcpSendEx_tsFlush k buffer current] at hsent
  exact ⟨hnow ▸ hsent.late fun hz => hcount ▸ hz, hout⟩

/-- **Receiving** never goes by the time. -/
theorem Late.recv (h : Late now k k') (len : Int) :
    Late now (pvpIkcpRecv k len).2 (pvpIkcpRecv k' len).2 := by
  rcases h with ⟨b, hts, hon, rfl⟩
  have hown := congrArg (fun r => r.2.dupsendOn) (pvpIkcpRecv_clocked k k.books k.current len)
  have hcount : (pvpIkcpRecv k len).2.dupsendcount = k.dupsendcount :=
    congrArg Tuning.dupsendcount (pvpIkcpRecv_tuning k len)
  rw [pvpIkcpRecv_clocked]
  exact ⟨b, hts.trans (pvpIkcpRecv_tsFlush k len).symm,
    fun hz => (hon (hcount ▸ hz)).trans hown.symm, rfl⟩

/-- **An update** of both brings them together. -/
theorem Late.update (h : Late now k k') (hs : k.tuning.Sane) (current : IUINT32) :
    Late current (pvpIkcpUpdate k current).1 (pvpIkcpUpdate k' current).1
      ∧ (pvpIkcpUpdate k' current).2.map Prod.snd = (pvpIkcpUpdate k current).2.map Prod.snd := by
  obtain ⟨hblock, hout⟩ := pvpIkcpUpdate_twins h current
  rw [← pvpIkcpUpdate_tsFlush] at hblock
  have hnow : (pvpIkcpUpdate k current).1.current = current :=
    congrArg Tuning.current (pvpIkcpUpdate_tuning current
      ⟨rfl, hs.mtu_ge, hs.mtu_le, hs.interval, hs.rto_ge, hs.rto_le, hs.resend⟩)
  have hlate := hblock.late fun _ => trivial
  rw [hnow] at hlate
  exact ⟨hlate, hout⟩

/-- The time of the flush has come, as `pvp_ikcp_update` sees it. -/
def flushDue (k : IKCPCB) (current : IUINT32) : Prop :=
  itimediff current k.tsFlush ≥ 0 ∨ itimediff current k.tsFlush < -10000

instance (k : IKCPCB) (current : IUINT32) : Decidable (flushDue k current) :=
  inferInstanceAs (Decidable (_ ∨ _))

theorem updateEnter_clock (k : IKCPCB) (current : IUINT32) :
    (updateEnter k current).current = current ∧ (updateEnter k current).interval = k.interval := by
  obtain ⟨_, _, hset⟩ := updateEnter_eq k current
  rw [hset]
  exact ⟨rfl, rfl⟩

theorem updateEnter_tsFlush (hup : k.updated = true) (current : IUINT32) :
    (updateEnter k current).tsFlush = k.tsFlush := by
  have hnew : ¬ k.updated = false := fun hf => nomatch hf.symm.trans hup
  obtain ⟨on, hset⟩ := pvpIkcpUpdateDupsendOn_switch { k with current := current }
  rw [updateEnter]
  dsimp only
  rw [if_neg hnew]
  split
  · rw [hset]
  · rfl

/-- And then it flushes. -/
theorem updateHead_due (hup : k.updated = true) {current : IUINT32} (hdue : flushDue k current) :
    (updateHead k current).1 = true := by
  rw [flushDue] at hdue
  rw [updateHead, updateSlap]
  dsimp only
  rw [updateEnter_tsFlush hup, (updateEnter_clock k current).1]
  by_cases hfar : itimediff current k.tsFlush ≥ 10000 ∨ itimediff current k.tsFlush < -10000
  · rw [if_pos hfar]
    rfl
  · rw [if_neg hfar]
    dsimp only
    rw [if_pos (by omega)]

/-- Until then it does not. -/
theorem updateHead_early (hup : k.updated = true) {current : IUINT32} (hnot : ¬ flushDue k current) :
    updateHead k current = (false, updateEnter k current) := by
  rw [flushDue] at hnot
  have hnear : ¬ (itimediff current k.tsFlush ≥ 10000 ∨ itimediff current k.tsFlush < -10000) := by
    omega
  rw [updateHead, updateSlap]
  dsimp only
  rw [updateEnter_tsFlush hup, (updateEnter_clock k current).1, if_neg hnear]
  dsimp only
  rw [if_neg (by omega)]

/-- **An update of one alone**, before the time of the flush, is only a look at the clock. -/
theorem Late.skip (h : Late now k k') (hup : k.updated = true) {current : IUINT32}
    (hnot : ¬ flushDue k current) :
    Late current k (pvpIkcpUpdate k' current).1 ∧ (pvpIkcpUpdate k' current).2 = [] := by
  rcases h with ⟨b, hts, hon, rfl⟩
  have henter : ∃ b₁ : Books, b₁.tsFlush = k.tsFlush
      ∧ (k.dupsendcount = 0 → b₁.dupsendOn = k.dupsendOn)
      ∧ updateEnter ((k.clocked now).book b) current = (k.clocked current).book b₁ := by
    -- what an update does that does not flush: clock and switch
    have hstay : updateEnter ((k.clocked now).book b) current = if k.dupsendcount > 0 then
        pvpIkcpUpdateDupsendOn ((k.clocked current).book b) else (k.clocked current).book b := by
      have hold : ¬ k.updated = false := fun hf => nomatch hf.symm.trans hup
      unfold updateEnter
      simp only [IKCPCB.book_updated, IKCPCB.clocked_updated]
      rw [if_neg hold]
      rfl
    rw [hstay]
    split
    · rename_i hpos
      obtain ⟨switch, hset⟩ := pvpIkcpUpdateDupsendOn_switch ((k.clocked current).book b)
      rw [hset]
      refine ⟨{ b with dupsendOn := switch }, hts, fun hz => ?_, rfl⟩
      rw [hz] at hpos
      exact absurd hpos (by decide)
    · exact ⟨b, hts, hon, rfl⟩
  obtain ⟨b₁, hts₁, hon₁, he⟩ := henter
  have hearly : ¬ flushDue ((k.clocked now).book b) current := by
    have hts' : ((k.clocked now).book b).tsFlush = k.tsFlush := hts
    rw [flushDue, hts']
    exact hnot
  have hhead := updateHead_early (k := (k.clocked now).book b) hup hearly
  rw [he] at hhead
  obtain ⟨b₂, hts₂, hon₂, hlost⟩ := pvpIkcpUpdateLost_books ((k.clocked current).book b₁) current
  rw [pvpIkcpUpdate, hhead]
  dsimp only
  rw [if_neg (by decide), hlost]
  exact ⟨⟨b₂, hts₂.trans hts₁, fun hz => hon₂.trans (hon₁ hz), rfl⟩, rfl⟩

end Update

/-! ## When the next update has to come -/

/-- The flush is `d` milliseconds after `now`. -/
structure FlushIn (k : IKCPCB) (now : IUINT32) (d : Nat) : Prop where
  ts : k.tsFlush = now + BitVec.ofNat 32 d
  pos : 0 < d
  le : d ≤ 10000

section Deadlines

variable {k : IKCPCB} {now : IUINT32}

/-- A flush that is near and not due lies ahead. -/
theorem flushIn_of_near (hnear : ¬ itimediff now k.tsFlush < -10000) (hnot : itimediff now k.tsFlush < 0) :
    FlushIn k now (k.tsFlush - now).toNat := by
  have hcases := itimediff_cases now k.tsFlush
  simp only [BitVec.toNat_sub] at hcases
  constructor
  · apply BitVec.eq_of_toNat_eq
    simp only [BitVec.toNat_sub, BitVec.toNat_add, BitVec.toNat_ofNat]
    omega
  · simp only [BitVec.toNat_sub]
    omega
  · simp only [BitVec.toNat_sub]
    omega

/-- From a flush that is due, the next one is an interval away, at most: the timer goes on from
    where it was, unless that is over by now too. -/
theorem nextFlush_flushIn {j : IKCPCB} (hlo : 10 ≤ j.interval.toNat) (hhi : j.interval.toNat ≤ 5000)
    (hdue : 0 ≤ itimediff j.current j.tsFlush) : ∃ d, FlushIn (nextFlush j) j.current d := by
  rw [nextFlush]
  split
  · refine ⟨j.interval.toNat, ?_, by omega, by omega⟩
    show j.current + j.interval = _
    rw [BitVec.ofNat_toNat, BitVec.setWidth_eq]
  · rename_i hahead
    have hsince := itimediff_cases j.current j.tsFlush
    have hthen := itimediff_cases j.current (j.tsFlush + j.interval)
    have hts := j.tsFlush.isLt
    have hcur := j.current.isLt
    simp only [BitVec.toNat_sub, BitVec.toNat_add] at hsince hthen
    refine ⟨j.interval.toNat - (j.current - j.tsFlush).toNat, ?_, ?_, by omega⟩
    · show j.tsFlush + j.interval = _
      apply BitVec.eq_of_toNat_eq
      simp only [BitVec.toNat_sub, BitVec.toNat_add, BitVec.toNat_ofNat]
      omega
    · simp only [BitVec.toNat_sub]
      omega

/-- Before the flush of an update, the next one is set. -/
theorem updateHead_flushIn (hlo : 10 ≤ k.interval.toNat) (hhi : k.interval.toNat ≤ 5000) :
    ∃ d, FlushIn (updateHead k now).2 now d := by
  obtain ⟨hnow, hint⟩ := updateEnter_clock k now
  rw [updateHead, updateSlap]
  generalize updateEnter k now = j at hnow hint
  rw [← hint] at hlo hhi
  subst hnow
  -- 10 seconds off: as if the flush were due now
  by_cases hfar : itimediff j.current j.tsFlush ≥ 10000 ∨ itimediff j.current j.tsFlush < -10000
  · dsimp only
    rw [if_pos hfar]
    dsimp only
    rw [if_pos (Int.le_refl 0)]
    have hdue : 0 ≤ itimediff j.current j.current := Int.le_of_eq (itimediff_self _).symm
    exact nextFlush_flushIn (j := { j with tsFlush := j.current }) hlo hhi hdue
  · dsimp only
    rw [if_neg hfar]
    dsimp only
    split
    · rename_i hdue
      exact nextFlush_flushIn hlo hhi hdue
    · rename_i hahead
      exact ⟨_, flushIn_of_near (fun hlt => hfar (Or.inr hlt)) (Int.not_le.mp hahead)⟩

/-- **After an update the flush lies ahead.** -/
theorem pvpIkcpUpdate_flushIn (hlo : 10 ≤ k.interval.toNat) (hhi : k.interval.toNat ≤ 5000) :
    ∃ d, FlushIn (pvpIkcpUpdate k now).1 now d := by
  have hhead : ∃ d, FlushIn (updateHead k now).2 now d := updateHead_flushIn hlo hhi
  obtain ⟨d, hd⟩ := hhead
  exact ⟨d, (pvpIkcpUpdate_tsFlush k now).trans hd.ts, hd.pos, hd.le⟩

/-- What is left to the nearest segment is positive.  Recursion on the segments. -/
theorem checkLoop_pos (k : IKCPCB) (now : IUINT32) :
    ∀ (buf : List IKCPSEG) (tm : Int), 0 < tm → ∀ tm', checkLoop k now buf tm = some tm' → 0 < tm'
  | [], tm, h, tm', hr => by
    cases hr
    exact h
  | seg :: rest, tm, h, tm', hr => by
    rw [checkLoop] at hr
    dsimp only at hr
    -- a segment that is due ends the search; so does a copy that is
    split at hr
    · nomatch hr
    · rename_i hdiff
      have hnear : 0 < if itimediff seg.resendts now < tm then itimediff seg.resendts now else tm := by
        split <;> omega
      split at hr
      · split at hr
        · nomatch hr
        · refine checkLoop_pos k now rest _ ?_ tm' hr
          split <;> omega
      · exact checkLoop_pos k now rest _ hnear tm' hr

/-- The time to a flush that lies ahead. -/
theorem FlushIn.diff {d : Nat} (h : FlushIn k now d) : itimediff k.tsFlush now = d := by
  have hpos := h.pos
  have hle := h.le
  have hcases := itimediff_cases k.tsFlush now
  rw [h.ts] at hcases ⊢
  simp only [BitVec.toNat_sub, BitVec.toNat_add, BitVec.toNat_ofNat] at hcases
  omega

/-- What `pvp_ikcp_check` answers: now, or a time no later than the flush and no later than an
    interval from now. -/
theorem pvpIkcpCheck_cases (k : IKCPCB) (now : IUINT32) :
    pvpIkcpCheck k now = now ∨ k.updated = true ∧ ∃ d m : Nat, FlushIn k now d ∧ m ≤ d
      ∧ m ≤ k.interval.toNat ∧ pvpIkcpCheck k now = now + BitVec.ofNat 32 m := by
  rw [pvpIkcpCheck]
  split
  · exact .inl rfl
  rename_i hup
  dsimp only
  by_cases hfar : itimediff now k.tsFlush ≥ 10000 ∨ itimediff now k.tsFlush < -10000
  · -- a flush that is not near is taken for one that is due
    rw [if_pos hfar, if_pos (Int.le_of_eq (itimediff_self now).symm)]
    exact .inl rfl
  rw [if_neg hfar]
  by_cases hdue : itimediff now k.tsFlush ≥ 0
  · rw [if_pos hdue]
    exact .inl rfl
  rw [if_neg hdue]
  split
  · exact .inl rfl
  rename_i tmPacket hloop
  have htm := checkLoop_pos k now _ _ (by decide) _ hloop
  have hin := flushIn_of_near (fun hlt => hfar (Or.inr hlt)) (Int.not_le.mp hdue)
  have hle := hin.le
  rw [hin.diff]
  generalize (k.tsFlush - now).toNat = d at hin hle
  have hmin : ∃ m : Nat, m ≤ d ∧ (if tmPacket < d then tmPacket else (d : Int)) = m := by
    split
    · exact ⟨tmPacket.toNat, by omega, by omega⟩
    · exact ⟨d, Nat.le_refl d, rfl⟩
  obtain ⟨m, hm, hmin⟩ := hmin
  rw [hmin, BitVec.ofInt_natCast]
  have hto : (BitVec.ofNat 32 m).toNat = m := by
    rw [BitVec.toNat_ofNat]
    omega
  by_cases hcap : BitVec.ofNat 32 m ≥ k.interval
  · rw [if_pos hcap]
    have hcap' : k.interval.toNat ≤ (BitVec.ofNat 32 m).toNat := hcap
    refine .inr ⟨by simpa using hup, d, k.interval.toNat, hin, by omega, Nat.le_refl _, ?_⟩
    rw [BitVec.ofNat_toNat, BitVec.setWidth_eq]
  · rw [if_neg hcap]
    have hcap' : ¬ k.interval.toNat ≤ (BitVec.ofNat 32 m).toNat := hcap
    exact .inr ⟨by simpa using hup, d, m, hin, hm, by omega, rfl⟩

/-- **`pvp_ikcp_check` never gives a time after that of the flush.** -/
theorem pvpIkcpCheck_le {d : Nat} (h : FlushIn k now d) :
    ∃ m, m ≤ d ∧ pvpIkcpCheck k now = now + BitVec.ofNat 32 m := by
  rcases pvpIkcpCheck_cases k now with heq | ⟨-, d', m, h', hm, -, heq⟩
  · exact ⟨0, Nat.zero_le _, heq.trans (BitVec.add_zero now).symm⟩
  · have hsame : (d' : Int) = d := h'.diff.symm.trans h.diff
    exact ⟨m, by omega, heq⟩

/-- **Before the deadline no flush is due.** -/
theorem not_flushDue_of_near {d m : Nat} (h : FlushIn k now d) (hm : m ≤ d) {later : IUINT32}
    (hlt : (later - now).toNat < m) : ¬ flushDue k later := by
  have hpos := h.pos
  have hd := h.le
  have hcases := itimediff_cases later k.tsFlush
  rw [flushDue]
  rw [h.ts] at hcases ⊢
  simp only [BitVec.toNat_sub, BitVec.toNat_add, BitVec.toNat_ofNat] at hcases hlt
  omega

/-- In particular on a clock that was not set back since `now`. -/
theorem not_flushDue_of_lt {d m : Nat} (h : FlushIn k now d) (hm : m ≤ d) {later : IUINT32}
    (hle : now ≤ later) (hlt : later < now + BitVec.ofNat 32 m) : ¬ flushDue k later := by
  have hd := h.le
  have hle' : now.toNat ≤ later.toNat := hle
  have hlt' : later.toNat < (now + BitVec.ofNat 32 m).toNat := hlt
  refine not_flushDue_of_near h hm ?_
  simp only [BitVec.toNat_sub, BitVec.toNat_add, BitVec.toNat_ofNat] at hlt' ⊢
  omega

/-- **`pvp_ikcp_check` never sleeps past a flush, nor for longer than an interval.**  An update before
    the time it gave is only a look at the clock. -/
theorem pvpIkcpCheck_before_flush (k : IKCPCB) (current : IUINT32) :
    (pvpIkcpCheck k current - current).toNat ≤ k.interval.toNat ∧
      ∀ c, (c - current).toNat < (pvpIkcpCheck k current - current).toNat →
        updateHead k c = (false, updateEnter k c)
          ∧ pvpIkcpUpdate k c = (pvpIkcpUpdateLost (updateEnter k c) c, []) := by
  rcases pvpIkcpCheck_cases k current with heq | ⟨hup, d, m, hin, hm, hint, heq⟩
  · rw [heq, BitVec.sub_self]
    exact ⟨Nat.zero_le _, fun c hc => absurd hc (Nat.not_lt_zero _)⟩
  · have hsleep : (pvpIkcpCheck k current - current).toNat = m := by
      have hd := hin.le
      rw [heq]
      simp only [BitVec.toNat_sub, BitVec.toNat_add, BitVec.toNat_ofNat]
      omega
    rw [hsleep]
    refine ⟨hint, fun c hc => ?_⟩
    have hhead := updateHead_early hup (not_flushDue_of_near hin hm hc)
    refine ⟨hhead, ?_⟩
    rw [pvpIkcpUpdate, hhead]
    rfl

/-- A block with an interval of a second, which sent two bytes at `20`: a copy falls due after 40 ms,
    the segment counts as lost at `245`, and the next flush is at `1000`. -/
def sampleSleeper : IKCPCB :=
  let kcp := pvpIkcpSetdupsend (pvpIkcpNodelay (pvpIkcpCreate 7) 0 1000 0 0) 1 0 0 40 0
  (pvpIkcpSendEx (pvpIkcpUpdate kcp 0).1 [1, 2] 20).2.1

/-- With the segment in `snd_buf`, it may sleep until the copy falls due, and an update before that
    sends nothing. -/
theorem pvpIkcpCheck_before_flush_waiting :
    sampleSleeper.sndBuf.map (·.resendts) = [245] ∧ sampleSleeper.tsFlush = 1000
      ∧ pvpIkcpCheck sampleSleeper 30 = 60
      ∧ (pvpIkcpCheck sampleSleeper 30 - 30).toNat ≤ sampleSleeper.interval.toNat
      ∧ (pvpIkcpUpdate sampleSleeper 59).2 = [] := by
  have hcheck : pvpIkcpCheck sampleSleeper 30 = 60 := by decide
  obtain ⟨hint, hearly⟩ := pvpIkcpCheck_before_flush sampleSleeper 30
  refine ⟨by decide, by decide, hcheck, hint, ?_⟩
  have hquiet := (hearly 59 (by rw [hcheck]; decide)).2
  rw [hquiet]

end Deadlines

end ConnClient.Ikcp
