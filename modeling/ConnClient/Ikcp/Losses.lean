/-
  The loss rates.

  A segment is counted sent at its first transmission and counted lost at its first timeout, and never
  again.  So of all segments no more are counted lost than were transferred (`Counted`), and the rate
  over all of them is a percentage.

  The rate of the current interval is one only as long as what is counted lost in an interval was
  counted sent in it.  `pvp_ikcp_update_lost` sets both counts back, but the segments stay, and when one
  that was sent before times out afterwards it counts against the new interval.  `Rated` is what holds
  while that does not happen; `mark` is the number of segments that were sent before the interval.

  Both are balances: a count on the block plus the segments that may yet be added to it is at most what
  bounds the count.  A transfer raises both sides, a loss moves one from the segments to the count, and letting
  a segment go only lowers the left.  Within a flush the balance is uneven for a while, as segments are
  transferred first and counted sent later; `pending` are those in between.

  The counters are 32 bits wide and are multiplied by 100, so the rates are right up to `2 ^ 25` segments.
-/
import ConnClient.Ikcp.Calls
import ConnClient.Ikcp.Tallies

namespace ConnClient.Ikcp

open ConnClient.Lib

/-- `pvp_ikcp_getlostrate` -/
def pvpIkcpGetlostrate (kcp : IKCPCB) : Int :=
  if kcp.sndNxt = 0 then 0 else (kcp.totallostcount * 100 / kcp.sndNxt).toInt

/-- `pvp_ikcp_getcurlostrate` -/
def pvpIkcpGetcurlostrate (kcp : IKCPCB) : Int :=
  if kcp.lastlostrate > 0 then kcp.lastlostrate.toInt
  else if kcp.cursendcount = 0 then 0
  else (kcp.curlostcount * 100 / kcp.cursendcount).toInt

/-! ## The counts -/

/-- Counting after one element was replaced. -/
theorem countP_set_add {α : Type} (p : α → Bool) {l : List α} {i : Nat} {a b : α} (h : l[i]? = some a) :
    (l.set i b).countP p + (if p a then 1 else 0) = l.countP p + if p b then 1 else 0 := by
  obtain ⟨hlt, rfl⟩ := List.getElem?_eq_some_iff.mp h
  have hle := List.boole_getElem_le_countP (p := p) hlt
  rw [List.countP_set hlt]
  omega

/-- What was not sent, or was sent from number `mark` on, and was not counted lost. -/
def unlost (mark : Nat) (s : SegTally) : Bool := s.lost = 0 ∧ mark ≤ s.sn.toNat

/-- What waits in `snd_buf` for its first transmission. -/
def unsent (s : SegTally) : Bool := s.xmit = 0

/-- Of `total` segments, each is counted lost at most once: those counted and those not yet lost are
    no more than all. -/
structure Counted (total : Nat) (t : Tallies) : Prop where
  nxt : t.sndNxt = BitVec.ofNat 32 total
  sn : ∀ s ∈ t.segs, s.sn.toNat < total
  length : t.segs.length ≤ total
  lost : t.totallostcount.toNat + t.segs.countP (fun s => s.lost = 0) ≤ total
  cur : t.curlostcount.toNat ≤ t.totallostcount.toNat

/-- And those from number `mark` on were sent in this interval, but for `pending` of them, which are
    yet to be counted.  `room` keeps the count of those sent from coming round. -/
structure Rated (mark total pending : Nat) (t : Tallies) : Prop where
  le : mark ≤ total
  books : t.curlostcount.toNat + t.segs.countP (unlost mark) ≤ t.cursendcount.toNat + pending
  room : t.cursendcount.toNat + pending < 2 ^ 32
  last : t.lastlostrate.toNat ≤ 100

/-! ## What each step does to them -/

section Steps

variable {mark total pending i : Nat} {t : Tallies} {s : SegTally}

/-- A counter that is not at its end counts. -/
theorem toNat_succ {n : IUINT32} (h : n.toNat < 2 ^ 32 - 1) : (n + 1).toNat = n.toNat + 1 := by
  rw [BitVec.toNat_add]
  exact Nat.mod_eq_of_lt (by show n.toNat + 1 < _; omega)

theorem Counted.transfer (h : Counted total t) (hfew : total < 2 ^ 32) :
    Counted (total + 1) t.transfer := by
  have hsn : t.sndNxt.toNat = total := by
    rw [h.nxt, BitVec.toNat_ofNat, Nat.mod_eq_of_lt hfew]
  constructor
  · show t.sndNxt + 1 = _
    rw [h.nxt, BitVec.ofNat_add]
    rfl
  · intro s hs
    rcases List.mem_append.mp hs with hs | hs
    · exact Nat.lt_succ_of_lt (h.sn s hs)
    · rw [List.mem_singleton.mp hs]
      show t.sndNxt.toNat < _
      omega
  · show (t.segs ++ [_]).length ≤ _
    rw [List.length_append]
    exact Nat.succ_le_succ h.length
  · show t.totallostcount.toNat + (t.segs ++ [_]).countP _ ≤ _
    have hlost := h.lost
    rw [List.countP_append, List.countP_singleton]
    simp only [decide_true, if_true]
    omega
  · exact h.cur

/-- A segment that enters `snd_buf` is one that may still be lost, and one that is still to be
    counted sent: both sides of the books grow by one. -/
theorem Rated.transfer (h : Rated mark total pending t) (hc : Counted total t) (hfew : total < 2 ^ 32)
    (hroom : t.cursendcount.toNat + (pending + 1) < 2 ^ 32) :
    Rated mark (total + 1) (pending + 1) t.transfer := by
  have hsn : t.sndNxt.toNat = total := by
    rw [hc.nxt, BitVec.toNat_ofNat, Nat.mod_eq_of_lt hfew]
  have hmark := h.le
  have hbooks := h.books
  constructor
  · omega
  · show t.curlostcount.toNat + (t.segs ++ [_]).countP _ ≤ t.cursendcount.toNat + (pending + 1)
    -- the new segment may yet be lost, and is yet to be counted sent
    have hone : unlost mark ⟨t.sndNxt, 0, 0, 0⟩ = true :=
      decide_eq_true ⟨rfl, by show mark ≤ t.sndNxt.toNat; omega⟩
    rw [List.countP_append, List.countP_singleton, if_pos hone]
    omega
  · exact hroom
  · exact h.last

/-- Letting segments go. -/
theorem Counted.sub {segs : List SegTally} (h : Counted total t) (hsub : segs.Sublist t.segs) :
    Counted total { t with segs := segs } := by
  refine ⟨h.nxt, fun s hs => h.sn s (hsub.subset hs), hsub.length_le.trans h.length, ?_, h.cur⟩
  have hle := hsub.countP_le (p := fun s => s.lost = 0)
  have hlost := h.lost
  show t.totallostcount.toNat + segs.countP _ ≤ _
  omega

/-- A segment that is acknowledged is not going to be lost any more. -/
theorem Rated.sub {segs : List SegTally} (h : Rated mark total pending t)
    (hsub : segs.Sublist t.segs) : Rated mark total pending { t with segs := segs } := by
  refine ⟨h.le, ?_, h.room, h.last⟩
  have hle := hsub.countP_le (p := unlost mark)
  have hbooks := h.books
  show t.curlostcount.toNat + segs.countP _ ≤ t.cursendcount.toNat + pending
  omega

/-- A segment whose number stays, and which is not more lost than before. -/
theorem Counted.set (h : Counted total t) (s' : SegTally) (hi : t.segs[i]? = some s) (hsn : s'.sn = s.sn)
    (hlost : s'.lost = s.lost) : Counted total { t with segs := t.segs.set i s' } := by
  refine ⟨h.nxt, fun r hr => ?_, List.length_set.trans_le h.length, ?_, h.cur⟩
  · rcases List.mem_or_eq_of_mem_set hr with hr | rfl
    · exact h.sn r hr
    · rw [hsn]
      exact h.sn s (List.mem_of_getElem? hi)
  · have hcount := countP_set_add (fun s => s.lost = 0) (b := s') hi
    have hsum := h.lost
    rw [hlost] at hcount
    show t.totallostcount.toNat + (t.segs.set i s').countP _ ≤ _
    omega

/-- The same for the books of the interval. -/
theorem Rated.set (h : Rated mark total pending t) (s' : SegTally) (hi : t.segs[i]? = some s)
    (hsn : s'.sn = s.sn) (hlost : s'.lost = s.lost) :
    Rated mark total pending { t with segs := t.segs.set i s' } := by
  refine ⟨h.le, ?_, h.room, h.last⟩
  have hcount := countP_set_add (unlost mark) (b := s') hi
  have hsame : unlost mark s' = unlost mark s := by
    rw [unlost, unlost, hsn, hlost]
  have hbooks := h.books
  rw [hsame] at hcount
  show t.curlostcount.toNat + (t.segs.set i s').countP _ ≤ t.cursendcount.toNat + pending
  omega

/-- **A segment is sent.** Only a timeout is about losses, and only the first one. -/
theorem Counted.send (h : Counted total t) (hfew : total < 2 ^ 32) (hi : t.segs[i]? = some s)
    (due : Due) : Counted total (t.send i s due) := by
  cases due with
  | first =>
    have hset := h.set ⟨s.sn, s.xmit + 1, s.lost, s.dupsendcount⟩ hi rfl rfl
    exact ⟨hset.nxt, hset.sn, hset.length, hset.lost, hset.cur⟩
  | timeout =>
    rw [Tallies.send]
    by_cases hlost : s.lost = 0
    · -- it is counted lost, and never again
      let s' : SegTally := ⟨s.sn, s.xmit + 1, 1, s.dupsendcount⟩
      have hcount := countP_set_add (fun s => s.lost = 0) (b := s') hi
      have hold : (decide (s.lost = 0)) = true := decide_eq_true hlost
      have hnew : (decide (s'.lost = 0)) = false := decide_eq_false (by decide : ¬ (1 : IUINT32) = 0)
      rw [hold, hnew] at hcount
      simp only [if_true, Bool.false_eq_true, if_false] at hcount
      have hsum := h.lost
      have hcur := h.cur
      have hsucc : (t.totallostcount + 1).toNat = t.totallostcount.toNat + 1 := toNat_succ (by omega)
      have hsucc' : (t.curlostcount + 1).toNat = t.curlostcount.toNat + 1 := toNat_succ (by omega)
      simp only [if_pos hlost]
      refine ⟨h.nxt, ?_, List.length_set.trans_le h.length, ?_, ?_⟩
      · intro r hr
        rcases List.mem_or_eq_of_mem_set hr with hr | rfl
        · exact h.sn r hr
        · exact h.sn s (List.mem_of_getElem? hi)
      · show (t.totallostcount + 1).toNat + (t.segs.set i s').countP _ ≤ _
        omega
      · show (t.curlostcount + 1).toNat ≤ (t.totallostcount + 1).toNat
        omega
    · simp only [if_neg hlost]
      exact h.set _ hi rfl rfl
  | fastack => exact h.set _ hi rfl rfl
  | no => exact h

/-- A first transmission is counted now; one that is counted lost was counted sent in this interval. -/
theorem Rated.send (hc : Counted total t) (hfew : total < 2 ^ 32) (hi : t.segs[i]? = some s) {due : Due}
    (h : Rated mark total (pending + if due = .first then 1 else 0) t)
    (hlate : due = .timeout → s.lost = 0 → mark ≤ s.sn.toNat) :
    Rated mark total pending (t.send i s due) := by
  have hle := h.le
  cases due with
  -- one pending segment less, one counted sent more
  | first =>
    have hset := h.set ⟨s.sn, s.xmit + 1, s.lost, s.dupsendcount⟩ hi rfl rfl
    have hbooks := hset.books
    have hroom := h.room
    rw [if_pos rfl] at hbooks hroom
    have hsucc : (t.cursendcount + 1).toNat = t.cursendcount.toNat + 1 := toNat_succ (by omega)
    refine ⟨hle, ?_, ?_, h.last⟩
    · show t.curlostcount.toNat + (t.segs.set i { s with xmit := s.xmit + 1 }).countP _
        ≤ (t.cursendcount + 1).toNat + pending
      rw [hsucc]
      exact Nat.le_trans hbooks (by show t.cursendcount.toNat + _ ≤ _; omega)
    · show (t.cursendcount + 1).toNat + pending < _
      omega
  -- one that may be lost less, one counted lost more; this is where it must belong to the interval
  | timeout =>
    rw [if_neg (by decide), Nat.add_zero] at h
    rw [Tallies.send]
    by_cases hlost : s.lost = 0
    · let s' : SegTally := ⟨s.sn, s.xmit + 1, 1, s.dupsendcount⟩
      have hcount := countP_set_add (unlost mark) (b := s') hi
      have hold : unlost mark s = true := decide_eq_true ⟨hlost, hlate rfl hlost⟩
      have hnew : unlost mark s' = false :=
        decide_eq_false fun hboth => absurd hboth.1 (by decide : ¬ (1 : IUINT32) = 0)
      rw [hold, hnew] at hcount
      simp only [if_true, Bool.false_eq_true, if_false] at hcount
      have hbooks := h.books
      have hsum := hc.lost
      have hcur := hc.cur
      have hnotlost : 0 < t.segs.countP (fun s => s.lost = 0) :=
        List.countP_pos_iff.mpr ⟨s, List.mem_of_getElem? hi, decide_eq_true hlost⟩
      have hsucc : (t.curlostcount + 1).toNat = t.curlostcount.toNat + 1 := toNat_succ (by omega)
      simp only [if_pos hlost]
      refine ⟨hle, ?_, h.room, h.last⟩
      show (t.curlostcount + 1).toNat + (t.segs.set i s').countP _ ≤ t.cursendcount.toNat + pending
      omega
    · simp only [if_neg hlost]
      exact h.set _ hi rfl rfl
  | fastack =>
    rw [if_neg (by decide), Nat.add_zero] at h
    exact h.set _ hi rfl rfl
  | no =>
    rw [if_neg (by decide), Nat.add_zero] at h
    exact h

/-- A copy is no matter of the rates. -/
theorem Counted.copied (h : Counted total t) (d : IUINT32) (i : Nat) : Counted total (t.copied d i) := by
  rw [Tallies.copied]
  cases hi : t.segs[i]? with
  | none => exact h
  | some s => exact h.set _ hi rfl rfl

theorem Rated.copied (h : Rated mark total pending t) (d : IUINT32) (i : Nat) :
    Rated mark total pending (t.copied d i) := by
  rw [Tallies.copied]
  cases hi : t.segs[i]? with
  | none => exact h
  | some s => exact h.set _ hi rfl rfl

/-- Induction on the copies. -/
theorem Counted.copies (h : Counted total t) (d : IUINT32) (is : List Nat) :
    Counted total (is.foldl (Tallies.copied d) t) := by
  induction is generalizing t with
  | nil => exact h
  | cons i is ih => exact ih (h.copied d i)

theorem Rated.copies (h : Rated mark total pending t) (d : IUINT32) (is : List Nat) :
    Rated mark total pending (is.foldl (Tallies.copied d) t) := by
  induction is generalizing t with
  | nil => exact h
  | cons i is ih => exact ih (h.copied d i)

/-- Transferring and sending at once. -/
theorem Counted.sendNew (h : Counted total t) (hfew : total < 2 ^ 32) :
    Counted (total + 1) t.sendNew := by
  have hmoved := h.transfer hfew
  refine ⟨hmoved.nxt, ?_, ?_, ?_, hmoved.cur⟩
  · intro s hs
    rcases List.mem_append.mp hs with hs | hs
    · exact hmoved.sn s (List.mem_append_left _ hs)
    · rw [List.mem_singleton.mp hs]
      exact hmoved.sn ⟨t.sndNxt, 0, 0, 0⟩ (List.mem_append_right _ (List.mem_singleton_self _))
  · have hlen := hmoved.length
    rw [Tallies.transfer, List.length_append] at hlen
    show (t.segs ++ [_]).length ≤ _
    rw [List.length_append]
    exact hlen
  · have hlost := hmoved.lost
    show t.totallostcount.toNat + (t.segs ++ [_]).countP _ ≤ _
    rw [Tallies.transfer, List.countP_append] at hlost
    rw [List.countP_append]
    exact hlost

/-- `send_ex` moves a segment and counts it sent in one go, so nothing is pending behind it. -/
theorem Rated.sendNew (h : Rated mark total 0 t) (hc : Counted total t) (hfew : total < 2 ^ 32)
    (hroom : t.cursendcount.toNat + 1 < 2 ^ 32) : Rated mark (total + 1) 0 t.sendNew := by
  have hmoved := h.transfer hc hfew hroom
  have hbooks := hmoved.books
  have hsucc : (t.cursendcount + 1).toNat = t.cursendcount.toNat + 1 := toNat_succ (by omega)
  refine ⟨hmoved.le, ?_, ?_, h.last⟩
  · show t.curlostcount.toNat + (t.segs ++ [_]).countP _ ≤ (t.cursendcount + 1).toNat + 0
    rw [Tallies.transfer, List.countP_append] at hbooks
    rw [List.countP_append, hsucc]
    exact hbooks
  · exact (t.cursendcount + 1).isLt

/-- A rate is a percentage if the part is no more than the whole, and the product by 100 does not
    wrap. -/
theorem rate_le {part whole : IUINT32} (hle : part.toNat ≤ whole.toNat) (hfew : part.toNat ≤ 2 ^ 25) :
    (part * 100 / whole).toNat ≤ 100 := by
  have hmul : (part * 100).toNat = part.toNat * 100 := by
    rw [BitVec.toNat_mul]
    exact Nat.mod_eq_of_lt (by show part.toNat * 100 < _; omega)
  rw [BitVec.toNat_udiv, hmul]
  by_cases hzero : whole.toNat = 0
  · rw [hzero, Nat.div_zero]
    exact Nat.zero_le _
  · calc part.toNat * 100 / whole.toNat ≤ whole.toNat * 100 / whole.toNat :=
        Nat.div_le_div_right (Nat.mul_le_mul_right 100 hle)
      _ = 100 := Nat.mul_div_cancel_left 100 (Nat.pos_of_ne_zero hzero)

/-- **An interval ends**: what was sent so far was sent before the next, and the two counts of the
    interval start again. -/
theorem Counted.close (h : Counted total t) : Counted total t.close := by
  rw [Tallies.close]
  split
  · exact h
  · exact ⟨h.nxt, h.sn, h.length, h.lost, Nat.zero_le _⟩

theorem Rated.close (h : Rated mark total 0 t) (hc : Counted total t) (hfew : total ≤ 2 ^ 25) :
    Rated total total 0 t.close := by
  have hbooks := h.books
  have hlost := hc.lost
  have hcur := hc.cur
  -- every segment was sent before the new mark
  have hnone : t.segs.countP (unlost total) = 0 := by
    rw [List.countP_eq_zero]
    intro s hs hnew
    have hlt := hc.sn s hs
    have hge := (of_decide_eq_true hnew).2
    omega
  rw [Tallies.close]
  split
  · refine ⟨Nat.le_refl _, ?_, h.room, h.last⟩
    rw [hnone]
    omega
  · refine ⟨Nat.le_refl _, ?_, (0 : IUINT32).isLt, ?_⟩
    · show (0 : IUINT32).toNat + t.segs.countP (unlost total) ≤ _
      rw [hnone]
    · exact rate_le (by omega) (by omega)

end Steps

/-! ## A flush -/

/-- Transferred segments are not counted yet. -/
theorem transfers_grow (t : Tallies) (n : Nat) :
    (Tallies.transfer^[n] t).segs.length = t.segs.length + n
      ∧ (Tallies.transfer^[n] t).cursendcount = t.cursendcount := by
  induction n with
  | zero => exact ⟨rfl, rfl⟩
  | succ n ih =>
    obtain ⟨hlen, hcount⟩ := ih
    rw [Function.iterate_succ_apply', Tallies.transfer, List.length_append, hlen]
    exact ⟨rfl, hcount⟩

theorem Counted.transfers {total : Nat} {t : Tallies} (h : Counted total t) (n : Nat)
    (hfew : total + n ≤ 2 ^ 32) : Counted (total + n) (Tallies.transfer^[n] t) := by
  induction n with
  | zero => exact h
  | succ n ih =>
    rw [Function.iterate_succ_apply']
    exact (ih (by omega)).transfer (by omega)

/-- The segments that enter `snd_buf` in one flush, by induction on how many there are. -/
theorem Rated.transfers {mark total pending : Nat} {t : Tallies} (h : Rated mark total pending t)
    (hc : Counted total t) (n : Nat) (hfew : total + n ≤ 2 ^ 32)
    (hroom : t.cursendcount.toNat + (pending + n) < 2 ^ 32) :
    Rated mark (total + n) (pending + n) (Tallies.transfer^[n] t) := by
  induction n with
  | zero => exact h
  | succ n ih =>
    obtain ⟨-, hcount⟩ := transfers_grow t n
    rw [Function.iterate_succ_apply']
    refine (ih (by omega) (by omega)).transfer (hc.transfers n (by omega)) (by omega) ?_
    rw [hcount]
    exact hroom

/-- More may be yet to be counted. -/
theorem Rated.more {mark total : Nat} {t : Tallies} (h : Rated mark total 0 t) (pending : Nat)
    (hroom : t.cursendcount.toNat + pending < 2 ^ 32) : Rated mark total pending t :=
  ⟨h.le, h.books.trans (Nat.add_le_add_left (Nat.zero_le _) _), hroom, h.last⟩

/-- A segment that is counted lost `now` was sent in this interval. -/
def Prompt (mark : Nat) (now : IUINT32) (seg : IKCPSEG) : Prop :=
  seg.xmit ≠ 0 → itimediff now seg.resendts ≥ 0 → seg.lost = 0 → mark ≤ seg.sn.toNat

/-- That goes for all segments. -/
def InTime (mark : Nat) (now : IUINT32) (k : IKCPCB) : Prop := ∀ seg ∈ k.sndBuf, Prompt mark now seg

/-- The counts are right; and if `ok`, so are those of the interval.  `ok` is any proposition, so
    that one induction serves the run in which the condition fails too. -/
structure Audit (ok : Prop) (mark total pending : Nat) (t : Tallies) : Prop where
  counted : Counted total t
  rated : ok → Rated mark total pending t

section Flushing

variable {ok : Prop} {mark total : Nat} {k : IKCPCB}

/-- The data loop in front of number `i`: what is left of `snd_buf` still has its unsent segments
    pending. -/
structure AuditAt (ok : Prop) (mark total : Nat) (a : FlushArgs) (i : Nat) (st : FlushSt) : Prop where
  audit : Audit ok mark total ((st.out.kcp.sndBuf.drop i).countP fun seg => unsent seg.tally)
    st.out.kcp.tallies
  prompt : ok → ∀ seg ∈ st.out.kcp.sndBuf.drop i, Prompt mark a.current seg

/-- **A round of the data loop.** -/
theorem AuditAt.round {a : FlushArgs} (hfew : total < 2 ^ 32) {i : Nat} {segment : IKCPSEG}
    {st : FlushSt} (h : AuditAt ok mark total a i st) (hi : st.out.kcp.sndBuf[i]? = some segment) :
    AuditAt ok mark total a (i + 1) (flushSegment a i segment st) := by
  have hdrop : st.out.kcp.sndBuf.drop i = segment :: st.out.kcp.sndBuf.drop (i + 1) := by
    obtain ⟨hlt, hget⟩ := List.getElem?_eq_some_iff.mp hi
    rw [List.drop_eq_getElem_cons hlt, hget]
  have htally : st.out.kcp.tallies.segs[i]? = some segment.tally := by
    show (st.out.kcp.sndBuf.map IKCPSEG.tally)[i]? = _
    rw [List.getElem?_map, hi]
    rfl
  obtain ⟨⟨hcounted, hrated⟩, hprompt⟩ := h
  rw [hdrop] at hrated hprompt
  -- the segment is counted among the unsent ones exactly if it is due for its first transmission
  have hfirst : (if unsent segment.tally = true then 1 else 0)
      = if segmentDue a segment = .first then 1 else 0 := by
    by_cases hnew : segment.xmit = 0
    · rw [if_pos (segmentDue_first.mpr hnew)]
      exact if_pos (decide_eq_true hnew)
    · rw [if_neg (mt segmentDue_first.mp hnew)]
      exact if_neg fun h => hnew (of_decide_eq_true h)
  have hlate : ok → segmentDue a segment = .timeout → segment.lost = 0 → mark ≤ segment.sn.toNat := by
    intro hok hdue
    obtain ⟨hold, hts⟩ := segmentDue_timeout hdue
    exact hprompt hok segment (List.mem_cons_self ..) hold hts
  have hrest := (flushSegment_buf a i segment st).2
  constructor
  · rw [flushSegment_tallies, hrest]
    refine ⟨hcounted.send hfew htally _, fun hok => ?_⟩
    have hr := hrated hok
    rw [List.countP_cons, hfirst] at hr
    exact hr.send hcounted hfew htally (hlate hok)
  · rw [hrest]
    exact fun hok seg hs => hprompt hok seg (List.mem_cons_of_mem _ hs)

/-- What the transfers of a flush leave to its data loop. -/
theorem flushHead_audit (h : Audit ok mark total 0 k.tallies) (hin : ok → InTime mark k.current k)
    (hroom : ok → k.cursendcount.toNat < 2 ^ 31) :
    ∃ n, (flushHead k).2.kcp.sndBuf.length = k.sndBuf.length + n ∧ (total + n ≤ 2 ^ 25 →
      AuditAt ok mark (total + n) (flushArgs (flushHead k).2.kcp (ikcpWndUnused k)) 0
        { out := (flushHead k).2 }) := by
  obtain ⟨n, hmoved⟩ := flushHead_tallies k
  obtain ⟨_, _, _, new, _, _, _, hhead, hunsent⟩ := flushHead_eq k
  have hbuf : (flushHead k).2.kcp.sndBuf = k.sndBuf ++ new := by rw [hhead]
  have hcurrent : (flushHead k).2.kcp.current = k.current := by rw [hhead]
  -- the new segments are those that were transferred
  have hcount : new.length = n := by
    have hlen := length_tallies (flushHead k).2.kcp
    rw [hmoved, (transfers_grow k.tallies n).1, length_tallies, hbuf, List.length_append] at hlen
    exact (Nat.add_left_cancel hlen).symm
  refine ⟨n, ?_, fun hfew => ⟨⟨?_, fun hok => ?_⟩, fun hok seg hs => ?_⟩⟩
  · rw [hbuf, List.length_append, hcount]
  · show Counted (total + n) (flushHead k).2.kcp.tallies
    rw [hmoved]
    exact h.counted.transfers n (by omega)
  · show Rated mark (total + n) ((flushHead k).2.kcp.sndBuf.countP fun seg => unsent seg.tally)
      (flushHead k).2.kcp.tallies
    have hold : k.sndBuf.countP (fun seg => unsent seg.tally) ≤ total :=
      List.countP_le_length.trans ((length_tallies k).symm.trans_le h.counted.length)
    have hcount' := hroom hok
    have hall : new.countP (fun seg => unsent seg.tally) = new.length := by
      rw [List.countP_eq_length]
      exact fun seg hs => decide_eq_true (hunsent seg hs)
    have hmore := (h.rated hok).more (k.sndBuf.countP fun seg => unsent seg.tally) (by
      show k.cursendcount.toNat + _ < _
      omega)
    rw [hbuf, List.countP_append, hall, hcount, hmoved]
    refine hmore.transfers h.counted n (by omega) ?_
    show k.cursendcount.toNat + _ < _
    omega
  · have hs : seg ∈ (flushHead k).2.kcp.sndBuf := hs
    rw [hbuf] at hs
    rcases List.mem_append.mp hs with hs | hs
    · show Prompt mark (flushHead k).2.kcp.current seg
      rw [hcurrent]
      exact hin hok seg hs
    · exact fun hx => absurd (hunsent seg hs) hx

/-- **`pvp_ikcp_flush`** transfers some segments, and keeps the counts. -/
theorem flush_audit (h : Audit ok mark total 0 k.tallies)
    (hin : ok → k.updated = true → InTime mark k.current k)
    (hroom : ok → k.cursendcount.toNat < 2 ^ 31) :
    ∃ n, (pvpIkcpFlush k).1.sndBuf.length = k.sndBuf.length + n ∧
      (total + n ≤ 2 ^ 25 → Audit ok mark (total + n) 0 (pvpIkcpFlush k).1.tallies) := by
  by_cases hup : k.updated = true
  · obtain ⟨n, hlen, hhead⟩ := flushHead_audit h (fun hok => hin hok hup) hroom
    let a := flushArgs (flushHead k).2.kcp (ikcpWndUnused k)
    let st := flushData a (flushHead k).2.kcp.sndBuf.length 0 { out := (flushHead k).2 }
    have hflush : (pvpIkcpFlush k).1.tallies
        = st.dupSegs.foldl (Tallies.copied 1) st.out.kcp.tallies := by
      have hnot : ¬ k.updated = false := by
        rw [hup]
        decide
      rw [pvpIkcpFlush, if_neg hnot]
      dsimp only
      rw [flushTail_tallies, ikcpOutput_kcp, flushDups_tallies]
    have hlength : st.out.kcp.sndBuf.length = (flushHead k).2.kcp.sndBuf.length :=
      flushData_rule (P := fun _ st => st.out.kcp.sndBuf.length = (flushHead k).2.kcp.sndBuf.length)
        (fun i segment st h _ => (flushSegment_buf a i segment st).1.trans h) _ 0 _ (Nat.zero_add _) rfl
    refine ⟨n, ?_, fun hfew => ?_⟩
    · rw [← length_tallies, hflush, length_copies, length_tallies, hlength, hlen]
    · have hdata := flushData_rule (fun i segment st h hi => AuditAt.round (by omega) h hi) _ 0
        { out := (flushHead k).2 } (Nat.zero_add _) (hhead hfew)
      -- at the end of the loop nothing is pending
      have hend : st.out.kcp.sndBuf.drop (0 + (flushHead k).2.kcp.sndBuf.length) = [] := by
        rw [Nat.zero_add, ← hlength]
        exact List.drop_length ..
      obtain ⟨hcounted, hrated⟩ := hdata.audit
      rw [hend] at hrated
      rw [hflush]
      exact ⟨hcounted.copies 1 _, fun hok => (hrated hok).copies 1 _⟩
  · rw [pvpIkcpFlush, if_pos (Bool.eq_false_of_not_eq_true hup)]
    exact ⟨0, rfl, fun _ => h⟩

/-- **`pvp_ikcp_update`**, up to the interval. -/
theorem updateFlush_audit (h : Audit ok mark total 0 k.tallies) (current : IUINT32)
    (hin : ok → (updateHead k current).1 = true → InTime mark current k)
    (hroom : ok → k.cursendcount.toNat < 2 ^ 31) :
    ∃ n, (updateFlush k current).sndBuf.length = k.sndBuf.length + n ∧
      (total + n ≤ 2 ^ 25 → Audit ok mark (total + n) 0 (updateFlush k current).tallies) := by
  have hhead := updateHead_tallies k current
  obtain ⟨_, _, hset⟩ := updateHead_eq k current
  have hbuf : (updateHead k current).2.sndBuf = k.sndBuf := by rw [hset]
  have hnow : (updateHead k current).2.current = current := by rw [hset]
  rw [updateFlush]
  split
  · rename_i hflush
    have hin' : ok → (updateHead k current).2.updated = true →
        InTime mark (updateHead k current).2.current (updateHead k current).2 := by
      intro hok _
      rw [InTime, hbuf, hnow]
      exact hin hok hflush
    have hcount : (updateHead k current).2.cursendcount = k.cursendcount := by rw [hset]
    rw [← hbuf]
    exact flush_audit (hhead.symm ▸ h) hin' (hcount.symm ▸ hroom)
  · exact ⟨0, by rw [hbuf]; rfl, fun _ => hhead.symm ▸ h⟩

theorem sendNews_length (t : Tallies) (n : Nat) :
    (Tallies.sendNew^[n] t).segs.length = t.segs.length + n := by
  induction n with
  | zero => rfl
  | succ n ih =>
    rw [Function.iterate_succ_apply', Tallies.sendNew, List.length_append, ih]
    rfl

theorem sendNews_count (t : Tallies) (n : Nat) (hroom : t.cursendcount.toNat + n < 2 ^ 32) :
    (Tallies.sendNew^[n] t).cursendcount.toNat = t.cursendcount.toNat + n := by
  induction n with
  | zero => rfl
  | succ n ih =>
    have hn := ih (by omega)
    rw [Function.iterate_succ_apply', Tallies.sendNew, toNat_succ (by omega), hn]
    rfl

/-- Induction on the segments sent. -/
theorem Audit.sendNews {t : Tallies} (h : Audit ok mark total 0 t) (n : Nat) (hfew : total + n ≤ 2 ^ 25)
    (hroom : ok → t.cursendcount.toNat < 2 ^ 31) :
    Audit ok mark (total + n) 0 (Tallies.sendNew^[n] t) := by
  induction n with
  | zero => exact h
  | succ n ih =>
    obtain ⟨hcounted, hrated⟩ := ih (by omega)
    rw [Function.iterate_succ_apply']
    refine ⟨hcounted.sendNew (by omega), fun hok => ?_⟩
    have hcount := hroom hok
    have hn := sendNews_count t n (by omega)
    exact (hrated hok).sendNew hcounted (by omega) (by omega)

/-- **`pvp_ikcp_send_ex`** -/
theorem sendEx_audit (h : Audit ok mark total 0 k.tallies) (msg : List Byte) (current : IUINT32)
    (hroom : ok → k.cursendcount.toNat < 2 ^ 31) :
    ∃ n, (pvpIkcpSendEx k msg current).2.1.sndBuf.length = k.sndBuf.length + n ∧
      (total + n ≤ 2 ^ 25 → Audit ok mark (total + n) 0 (pvpIkcpSendEx k msg current).2.1.tallies) := by
  obtain ⟨n, is, hsent⟩ := pvpIkcpSendEx_tallies k msg current
  refine ⟨n, ?_, fun hfew => ?_⟩
  · rw [← length_tallies, hsent, length_copies, sendNews_length, length_tallies]
  · obtain ⟨hcounted, hrated⟩ := h.sendNews n hfew hroom
    rw [hsent]
    exact ⟨hcounted.copies 0 is, fun hok => (hrated hok).copies 0 is⟩

end Flushing

/-! ## Runs -/

/-- A block in use, with the number of segments transferred to `snd_buf` so far, and before the current
    interval. -/
structure Survey where
  kcp : IKCPCB
  total : Nat := 0
  mark : Nat := 0

/-- The call ends an interval. -/
def EndsInterval (k : IKCPCB) : Call → Prop
  | .update current => IntervalOver (updateFlush k current) current
  | _ => False

instance (k : IKCPCB) : ∀ c, Decidable (EndsInterval k c)
  | .update _ => inferInstanceAs (Decidable (IntervalOver _ _))
  | .send .. | .sendEx .. | .flush | .recv _ | .input .. | .nodelay .. | .wndsize .. | .setdupsend ..
  | .intervalLost _ | .fields .. => inferInstanceAs (Decidable False)

/-- Only transfers lengthen `snd_buf`, and nothing leaves it in a call that transfers. -/
def Survey.call (s : Survey) (c : Call) : Survey :=
  let kcp := (c.run s.kcp).1
  let total := s.total + (kcp.sndBuf.length - s.kcp.sndBuf.length)
  { kcp := kcp, total := total, mark := if EndsInterval s.kcp c then total else s.mark }

/-- No call stops. -/
def surveyStep (c : Call) (s : Survey) : Except Unit Survey := .ok (s.call c)

/-- The time of the flush that the call makes, if it makes one. -/
def flushTime (k : IKCPCB) : Call → Option IUINT32
  | .update current => if (updateHead k current).1 = true then some current else none
  | .flush => if k.updated = true then some k.current else none
  | .send .. | .sendEx .. | .recv _ | .input .. | .nodelay .. | .wndsize .. | .setdupsend ..
  | .intervalLost _ | .fields .. => none

/-- If the call flushes, no segment is counted lost but those sent in the interval, and the count of
    those is not about to come round to `0`. -/
def Survey.InTime (s : Survey) (c : Call) : Prop :=
  s.kcp.cursendcount.toNat < 2 ^ 31 ∧ ∀ now ∈ flushTime s.kcp c, Ikcp.InTime s.mark now s.kcp

/-- The counts of a block in use. -/
def Survey.Audited (ok : Prop) (s : Survey) : Prop := Audit ok s.mark s.total 0 s.kcp.tallies

section Surveying

variable {ok : Prop} {s : Survey} {c : Call}

/-- A call in an interval. -/
theorem Survey.Audited.within (hends : ¬ EndsInterval s.kcp c) {n : Nat}
    (hlen : (c.run s.kcp).1.sndBuf.length - s.kcp.sndBuf.length = n)
    (h : Audit ok s.mark (s.total + n) 0 (c.run s.kcp).1.tallies) : (s.call c).Audited ok := by
  rw [Survey.Audited, Survey.call]
  dsimp only
  rw [if_neg hends, hlen]
  exact h

/-- One that is not counted. -/
theorem Survey.Audited.rest (h : s.Audited ok) (hends : ¬ EndsInterval s.kcp c)
    (hsame : (c.run s.kcp).1.tallies = s.kcp.tallies) : (s.call c).Audited ok := by
  have hlen : (c.run s.kcp).1.sndBuf.length - s.kcp.sndBuf.length = 0 := by
    rw [← length_tallies, ← length_tallies, hsame, Nat.sub_self]
  refine .within hends hlen ?_
  rw [hsame]
  exact h

/-- **An update**, which may end the interval. -/
theorem Survey.Audited.update (h : s.Audited ok) {current : IUINT32}
    (hin : ok → s.InTime (.update current)) (hfew : (s.call (.update current)).total ≤ 2 ^ 25) :
    (s.call (.update current)).Audited ok := by
  obtain ⟨n, hlen, haudit⟩ := updateFlush_audit h current
    (fun hok hflush => (hin hok).2 current (if_pos hflush)) fun hok => (hin hok).1
  have hrun : (Call.run s.kcp (.update current)).1
      = pvpIkcpUpdateLost (updateFlush s.kcp current) current := pvpIkcpUpdate_lost s.kcp current
  have htallies := pvpIkcpUpdateLost_tallies (updateFlush s.kcp current) current
  have hgrown : (Call.run s.kcp (.update current)).1.sndBuf.length - s.kcp.sndBuf.length = n := by
    have hsame : (pvpIkcpUpdateLost (updateFlush s.kcp current) current).sndBuf.length
        = (updateFlush s.kcp current).sndBuf.length := by
      rw [← length_tallies, ← length_tallies, htallies]
      split
      · rw [Tallies.close]
        split <;> rfl
      · rfl
    rw [hrun, hsame, hlen, Nat.add_sub_cancel_left]
  have htotal : (s.call (.update current)).total = s.total + n := by
    rw [Survey.call]
    dsimp only
    rw [hgrown]
  rw [htotal] at hfew
  obtain ⟨hcounted, hrated⟩ := haudit hfew
  by_cases hends : IntervalOver (updateFlush s.kcp current) current
  · rw [if_pos hends] at htallies
    rw [Survey.Audited, htotal, Survey.call]
    dsimp only
    rw [if_pos (show EndsInterval s.kcp (.update current) from hends), hgrown, hrun, htallies]
    exact ⟨hcounted.close, fun hok => (hrated hok).close hcounted hfew⟩
  · rw [if_neg hends] at htallies
    refine .within hends hgrown ?_
    rw [hrun, htallies]
    exact ⟨hcounted, hrated⟩

/-- **Every call** keeps the counts, up to `2 ^ 25` segments. -/
theorem Survey.Audited.call (h : s.Audited ok) (hin : ok → s.InTime c)
    (hfew : (s.call c).total ≤ 2 ^ 25) : (s.call c).Audited ok := by
  cases c with
  | send msg current => exact h.rest id (pvpIkcpSend_tallies ..)
  | sendEx msg current =>
    obtain ⟨n, hlen, haudit⟩ := sendEx_audit h msg current fun hok => (hin hok).1
    have hgrown : (pvpIkcpSendEx s.kcp msg current).2.1.sndBuf.length - s.kcp.sndBuf.length = n := by
      rw [hlen, Nat.add_sub_cancel_left]
    refine .within id hgrown (haudit ?_)
    rw [← hgrown]
    exact hfew
  | update current => exact h.update hin hfew
  | flush =>
    obtain ⟨n, hlen, haudit⟩ := flush_audit h
      (fun hok hup => (hin hok).2 s.kcp.current (if_pos hup)) fun hok => (hin hok).1
    have hgrown : (pvpIkcpFlush s.kcp).1.sndBuf.length - s.kcp.sndBuf.length = n := by
      rw [hlen, Nat.add_sub_cancel_left]
    refine .within id hgrown (haudit ?_)
    rw [← hgrown]
    exact hfew
  | recv len => exact h.rest id (pvpIkcpRecv_tallies ..)
  | input data current =>
    have hlets := pvpIkcpInput_lets s.kcp data current
    have hshort : (pvpIkcpInput s.kcp data current).2.sndBuf.length - s.kcp.sndBuf.length = 0 := by
      rw [← length_tallies, ← length_tallies]
      exact Nat.sub_eq_zero_of_le hlets.sub.length_le
    refine .within id hshort ?_
    show Audit ok s.mark s.total 0 (pvpIkcpInput s.kcp data current).2.tallies
    rw [hlets.rest]
    exact ⟨h.counted.sub hlets.sub, fun hok => (h.rated hok).sub hlets.sub⟩
  | nodelay on interval resend nc => exact h.rest id (pvpIkcpNodelay_tallies ..)
  | wndsize sndwnd rcvwnd => exact h.rest id (pvpIkcpWndsize_tallies ..)
  | setdupsend count dupack dupDynamic dupWait dupWndOn =>
    obtain ⟨⟨hnxt, hsn, hlength, hlost, hcur⟩, hrated⟩ := h
    refine .within id (Nat.sub_self _) ⟨⟨hnxt, hsn, hlength, hlost, hcur⟩, fun hok => ?_⟩
    exact ⟨(hrated hok).le, (hrated hok).books, (hrated hok).room, (hrated hok).last⟩
  | intervalLost interval => exact h.rest id rfl
  | fields rxMinrto fastresend => exact h.rest id rfl

/-- At creation, and configured in any way, nothing is counted. -/
theorem Configured.tallies {conv : IUINT32} {k : IKCPCB} (h : Configured conv k) :
    ∃ n, k.tallies = ⟨0, 0, 0, 0, 0, n, []⟩ := by
  obtain ⟨s, rfl⟩ := h.settings
  exact ⟨s.dupsendcount, rfl⟩

/-- The start: a block that was created and configured. -/
structure Survey.Start (conv : IUINT32) (s : Survey) : Prop where
  kcp : Configured conv s.kcp
  total : s.total = 0
  mark : s.mark = 0

/-- A created block has sent nothing: every book is empty. -/
theorem Survey.Start.audited {conv : IUINT32} (h : s.Start conv) : s.Audited ok := by
  obtain ⟨n, hn⟩ := h.kcp.tallies
  rw [Survey.Audited, h.total, h.mark, hn]
  constructor
  · exact ⟨rfl, fun s hs => absurd hs List.not_mem_nil, Nat.le_refl _, Nat.le_refl _, Nat.le_refl _⟩
  · exact fun _ => ⟨Nat.le_refl _, Nat.le_refl _, (0 : IUINT32).isLt, Nat.zero_le _⟩

/-- **Every run** keeps the counts, up to `2 ^ 25` segments. -/
theorem Survey.audited_of_reach {conv : IUINT32} {C : Survey → Call → Prop}
    (hC : ∀ s c, C s c → ok → s.InTime c) (h : Reach surveyStep (Survey.Start conv) C s) :
    s.total ≤ 2 ^ 25 → s.Audited ok := by
  refine Reach.inv (I := fun s => s.total ≤ 2 ^ 25 → s.Audited ok) ?_ ?_ h
  · exact fun s hstart _ => hstart.audited
  · intro s s' c _ ih hc hs hfew
    obtain rfl : s.call c = s' := Except.ok.inj hs
    have hmono : s.total ≤ (s.call c).total := Nat.le_add_right ..
    exact (ih (hmono.trans hfew)).call (hC s c hc) hfew

/-- What is at most `100` without its sign is at most `100`. -/
theorem percentage {rate : IUINT32} (h : rate.toNat ≤ 100) : 0 ≤ rate.toInt ∧ rate.toInt ≤ 100 := by
  rw [BitVec.toInt_eq_toNat_of_lt (by omega)]
  omega

theorem Counted.rate {total : Nat} {k : IKCPCB} (h : Counted total k.tallies) (hfew : total ≤ 2 ^ 25) :
    0 ≤ pvpIkcpGetlostrate k ∧ pvpIkcpGetlostrate k ≤ 100 := by
  have hnxt : k.sndNxt.toNat = total := by
    rw [show k.sndNxt = _ from h.nxt, BitVec.toNat_ofNat, Nat.mod_eq_of_lt (by omega)]
  have hlost : k.totallostcount.toNat + _ ≤ total := h.lost
  rw [pvpIkcpGetlostrate]
  split
  · decide
  · exact percentage (rate_le (by omega) (by omega))

theorem Rated.rate {mark total : Nat} {k : IKCPCB} (h : Rated mark total 0 k.tallies)
    (hc : Counted total k.tallies) (hfew : total ≤ 2 ^ 25) :
    0 ≤ pvpIkcpGetcurlostrate k ∧ pvpIkcpGetcurlostrate k ≤ 100 := by
  have hbooks : k.curlostcount.toNat + _ ≤ k.cursendcount.toNat + 0 := h.books
  have hcur : k.curlostcount.toNat ≤ k.totallostcount.toNat := hc.cur
  have hlost : k.totallostcount.toNat + _ ≤ total := hc.lost
  rw [pvpIkcpGetcurlostrate]
  split
  · exact percentage h.last
  split
  · decide
  · exact percentage (rate_le (by omega) (by omega))

/-- **The loss rates are percentages**: over all segments in every run, and over the interval in every
    run that counts lost in an interval only what was sent in it. -/
theorem loss_rates (conv : IUINT32) (s : Survey) (hfew : s.total ≤ 2 ^ 25) :
    (Reach surveyStep (Survey.Start conv) (fun _ _ => True) s →
        0 ≤ pvpIkcpGetlostrate s.kcp ∧ pvpIkcpGetlostrate s.kcp ≤ 100)
      ∧ (Reach surveyStep (Survey.Start conv) Survey.InTime s →
        0 ≤ pvpIkcpGetcurlostrate s.kcp ∧ pvpIkcpGetcurlostrate s.kcp ≤ 100) := by
  constructor
  · intro h
    have haudit : s.Audited False := Survey.audited_of_reach (fun _ _ _ hno => hno.elim) h hfew
    exact haudit.counted.rate hfew
  · intro h
    have haudit : s.Audited True := Survey.audited_of_reach (fun _ _ hin _ => hin) h hfew
    exact (haudit.rated trivial).rate haudit.counted hfew

end Surveying

instance (mark : Nat) (now : IUINT32) (seg : IKCPSEG) : Decidable (Prompt mark now seg) :=
  inferInstanceAs (Decidable (_ → _ → _ → _))

instance (mark : Nat) (now : IUINT32) (k : IKCPCB) : Decidable (InTime mark now k) :=
  inferInstanceAs (Decidable (∀ seg ∈ k.sndBuf, Prompt mark now seg))

instance (s : Survey) (c : Call) : Decidable (s.InTime c) :=
  @instDecidableAnd _ _ _ (Option.decidableForallMem _)

/-- A fresh block. -/
def Survey.fresh : Survey := { kcp := pvpIkcpCreate 7 }

theorem Survey.fresh_start : Survey.fresh.Start 7 := ⟨.create, rfl, rfl⟩

/-- Two segments, of which one is acknowledged and one is lost, and the interval over. -/
def halfLost : List Call :=
  [.nodelay 1 10 0 1, .update 10, .sendEx [1] 4000, .sendEx [2] 4000,
    .input (ikcpSegBytes { conv := 7, cmd := ikcpCmdAck, wnd := 128, una := 1 }) 4100, .update 4300, .update 4310]

/-- Of the two segments sent in the interval one is lost, and both rates are `50`. -/
theorem loss_rates_halfLost :
    ∃ s, exec surveyStep (fun s c => decide (s.InTime c)) halfLost .fresh = some s
      ∧ pvpIkcpGetlostrate s.kcp = 50 ∧ pvpIkcpGetcurlostrate s.kcp = 50
      ∧ (0 ≤ pvpIkcpGetlostrate s.kcp ∧ pvpIkcpGetlostrate s.kcp ≤ 100)
      ∧ (0 ≤ pvpIkcpGetcurlostrate s.kcp ∧ pvpIkcpGetcurlostrate s.kcp ≤ 100) := by
  have hrun : (exec surveyStep (fun s c => decide (s.InTime c)) halfLost .fresh).map
      (fun s => (s.total, pvpIkcpGetlostrate s.kcp, pvpIkcpGetcurlostrate s.kcp)) = some (2, 50, 50) := by
    decide +kernel
  obtain ⟨s, hs, hrates⟩ := Option.map_eq_some_iff.mp hrun
  obtain ⟨htotal, hboth⟩ := Prod.mk_inj.mp hrates
  obtain ⟨hlost, hcur⟩ := Prod.mk_inj.mp hboth
  have hstart : Reach surveyStep (Survey.Start 7) Survey.InTime .fresh := .start Survey.fresh_start
  have hreach := hstart.of_exec (fun _ _ h => of_decide_eq_true h) halfLost hs
  have hbounds := loss_rates 7 s (by omega)
  exact ⟨s, hs, hlost, hcur, hbounds.1 (hreach.mono fun _ _ _ => trivial), hbounds.2 hreach⟩

/-- Two segments at the end of an interval and one in the next, all of which are lost. -/
def lateLosses : List Call :=
  [.nodelay 1 10 0 1, .update 10, .sendEx [1] 5000, .sendEx [2] 5000, .update 5016, .sendEx [3] 5020,
    .update 5300]

/-- The one segment that was sent in the interval makes three lost ones a rate of `300`. -/
theorem loss_rates_over :
    ¬ ∀ (conv : IUINT32) (s : Survey), Reach surveyStep (Survey.Start conv) (fun _ _ => True) s →
      s.total ≤ 2 ^ 25 →
        (0 ≤ pvpIkcpGetlostrate s.kcp ∧ pvpIkcpGetlostrate s.kcp ≤ 100)
          ∧ (0 ≤ pvpIkcpGetcurlostrate s.kcp ∧ pvpIkcpGetcurlostrate s.kcp ≤ 100) := by
  intro h
  have hrun : (exec surveyStep (fun _ _ => true) lateLosses .fresh).map
      (fun s => (s.total, pvpIkcpGetcurlostrate s.kcp)) = some (3, 300) := by decide +kernel
  obtain ⟨s, hs, hrates⟩ := Option.map_eq_some_iff.mp hrun
  obtain ⟨htotal, hcur⟩ := Prod.mk_inj.mp hrates
  have hstart : Reach surveyStep (Survey.Start 7) (fun _ _ => True) .fresh := .start Survey.fresh_start
  have hreach := hstart.of_exec (fun _ _ _ => trivial) lateLosses hs
  obtain ⟨_, _, hle⟩ := h 7 s hreach (by omega)
  rw [hcur] at hle
  exact absurd hle (by decide)

end ConnClient.Ikcp
