/-
  The receive loop of `InputToKcp`.

  After an input the loop takes messages from the session until `KcpSession::Recv` returns a number
  that is not positive.  That number is the length of a message as well as the sign that there is
  none, so an empty message ends the loop: it is taken, and what is complete behind it stays where it
  is until the next packet.  Apart from that the loop does what it is for (`input_drains`): it takes
  every message that is complete, also those that `pvp_ikcp_recv` itself promotes from `rcv_buf` on the
  way, and hands them to `Output` in order.

  `IKCPCB.complete` says which messages are complete without looking at what `Recv` returns: those that
  come out when one takes a message, into a buffer of its size, as long as `pvp_ikcp_peeksize` is not
  negative.

  The loop is taken apart in two.  On the block alone it is `taken`, the messages, and `afterLoop`, the last
  number and the block it leaves; both are then read off `complete` (`taken_complete`, `afterLoop_tooLong`,
  `afterLoop_complete`).  On the client it hands the messages on up to the first disconnect, which closes the
  connection and takes the session away, so that nothing comes out behind it (`inputToKcp_cases`).
-/
import ConnClient.Client.Reasons

namespace ConnClient

open ConnClient.Lib ConnClient.Ikcp

/-! ## The complete messages of a block -/

namespace Ikcp

/-- The message at the front, and the block without it. -/
def IKCPCB.takeFront (k : IKCPCB) : List Byte × IKCPCB :=
  ((pvpIkcpRecv k (pvpIkcpPeeksize k)).1.bytes, (pvpIkcpRecv k (pvpIkcpPeeksize k)).2)

/-- The complete messages, at most `n` of them. -/
def IKCPCB.completeUpTo : Nat → IKCPCB → List (List Byte)
  | 0, _ => []
  | n + 1, k =>
    if pvpIkcpPeeksize k < 0 then [] else k.takeFront.1 :: completeUpTo n k.takeFront.2

/-- The segments that wait. -/
def IKCPCB.waiting (k : IKCPCB) : Nat := k.rcvQueue.length + k.rcvBuf.length

/-- The complete messages.  Every one has a segment of its own, even an empty one, so there are no
    more of them than segments wait, and any larger bound gives the same list
    (`completeUpTo_enough`). -/
def IKCPCB.complete (k : IKCPCB) : List (List Byte) := k.completeUpTo k.waiting

theorem moveRcvBuf_waiting (buf : List IKCPSEG) {k : IKCPCB} (hbuf : k.rcvBuf = buf) :
    (moveRcvBuf buf k).waiting = k.waiting := by
  induction buf generalizing k with
  | nil =>
    rw [moveRcvBuf]
    show k.rcvQueue.length + 0 = k.rcvQueue.length + k.rcvBuf.length
    rw [hbuf]
    rfl
  | cons seg rest ih =>
    rw [moveRcvBuf]
    split
    · rw [ih rfl]
      show (k.rcvQueue ++ [seg]).length + rest.length = k.rcvQueue.length + k.rcvBuf.length
      rw [hbuf, List.length_append, List.length_singleton, List.length_cons]
      omega
    · show k.rcvQueue.length + (seg :: rest).length = k.rcvQueue.length + k.rcvBuf.length
      rw [hbuf]

/-- The merge loop takes a fragment at least. -/
theorem mergeFragments_shorter {queue : List IKCPSEG} (h : queue ≠ []) :
    (mergeFragments queue).2.1.length < queue.length := by
  induction queue with
  | nil => exact absurd rfl h
  | cons seg rest ih =>
    rw [mergeFragments]
    split
    · exact Nat.lt_succ_self _
    · by_cases hrest : rest = []
      · subst hrest
        exact Nat.zero_lt_one
      · exact Nat.lt_succ_of_lt (ih hrest)

/-- **Taking a message takes segments.** -/
theorem IKCPCB.waiting_takeFront {k : IKCPCB} (h : 0 ≤ pvpIkcpPeeksize k) :
    k.takeFront.2.waiting < k.waiting := by
  have hne : k.rcvQueue ≠ [] := by
    intro hnil
    have hnone : pvpIkcpPeeksize k = -1 := by rw [pvpIkcpPeeksize, hnil]
    omega
  have hroom : ¬ pvpIkcpPeeksize k > (pvpIkcpPeeksize k).natAbs := by omega
  have hfewer := mergeFragments_shorter hne
  rw [IKCPCB.takeFront, pvpIkcpRecv, if_neg hne]
  dsimp only
  rw [if_neg (Int.not_lt.mpr h), if_neg hroom, if_neg (Int.not_lt.mpr h)]
  -- the merge takes segments away, the promotion behind it only moves some
  let k₁ : IKCPCB := { k with
    rcvQueue := (mergeFragments k.rcvQueue).2.1
    nrcvQue := k.nrcvQue - (mergeFragments k.rcvQueue).2.2 }
  have hlt : (moveRcvBuf k.rcvBuf k₁).waiting < k.waiting := by
    have hmoved : (moveRcvBuf k.rcvBuf k₁).waiting = k₁.waiting := moveRcvBuf_waiting k.rcvBuf rfl
    rw [hmoved]
    exact Nat.add_lt_add_right hfewer _
  split
  · exact hlt
  · exact hlt

/-- Nothing waits, so nothing is complete. -/
theorem IKCPCB.completeUpTo_nil {k : IKCPCB} (h : k.waiting = 0) (n : Nat) :
    k.completeUpTo n = [] := by
  cases n with
  | zero => rfl
  | succ n =>
    refine if_pos (Int.not_le.mp fun hpeek => ?_)
    have hlt := IKCPCB.waiting_takeFront hpeek
    omega

/-- Any bound that is large enough gives the same. -/
theorem IKCPCB.completeUpTo_enough {m n : Nat} {k : IKCPCB} (hm : k.waiting ≤ m)
    (hn : k.waiting ≤ n) : k.completeUpTo m = k.completeUpTo n := by
  induction m generalizing n k with
  | zero =>
    have hnone : k.waiting = 0 := by omega
    rw [completeUpTo_nil hnone, completeUpTo_nil hnone]
  | succ m ih =>
    cases n with
    | zero =>
      have hnone : k.waiting = 0 := by omega
      rw [completeUpTo_nil hnone, completeUpTo_nil hnone]
    | succ n =>
      rw [completeUpTo, completeUpTo]
      split
      · rfl
      · rename_i hpeek
        have hlt := IKCPCB.waiting_takeFront (Int.not_lt.mp hpeek)
        -- the rest has fewer segments that wait, so both bounds are large enough for it
        congr 1
        exact ih (by omega) (by omega)

theorem IKCPCB.complete_none {k : IKCPCB} (h : pvpIkcpPeeksize k < 0) : k.complete = [] := by
  rw [complete]
  cases k.waiting with
  | zero => rfl
  | succ n => exact if_pos h

theorem IKCPCB.complete_cons {k : IKCPCB} (h : 0 ≤ pvpIkcpPeeksize k) :
    k.complete = k.takeFront.1 :: k.takeFront.2.complete := by
  have hlt := IKCPCB.waiting_takeFront h
  rw [complete, complete]
  obtain ⟨n, hn⟩ : ∃ n, k.waiting = n + 1 := ⟨k.waiting - 1, by omega⟩
  rw [hn, completeUpTo, if_neg (Int.not_lt.mpr h)]
  congr 1
  exact completeUpTo_enough (by omega) (Nat.le_refl _)

/-- A message for which the buffer is large enough comes out of any such buffer. -/
theorem pvpIkcpRecv_takeFront {k : IKCPCB} {len : Int} (h : 0 ≤ pvpIkcpPeeksize k)
    (hlen : pvpIkcpPeeksize k ≤ len) :
    pvpIkcpRecv k len = (⟨k.takeFront.1.length, k.takeFront.1⟩, k.takeFront.2) := by
  have hne : k.rcvQueue ≠ [] := by
    intro hnil
    have hnone : pvpIkcpPeeksize k = -1 := by rw [pvpIkcpPeeksize, hnil]
    omega
  have hroom : ¬ pvpIkcpPeeksize k > (pvpIkcpPeeksize k).natAbs := by omega
  have hroom' : ¬ pvpIkcpPeeksize k > len.natAbs := by omega
  rw [IKCPCB.takeFront, pvpIkcpRecv, pvpIkcpRecv, if_neg hne, if_neg hne]
  dsimp only
  rw [if_neg (Int.not_lt.mpr h), if_neg hroom, if_neg hroom', if_neg (Int.not_lt.mpr h),
    if_neg (by omega : ¬ len < 0), if_neg (Int.not_lt.mpr h)]

/-- Otherwise nothing comes out, and the block stays as it is.  Of the negative numbers, -3 is the
    one for a message that is too long. -/
theorem pvpIkcpRecv_refused {k : IKCPCB} {len : Int} (hlen : 0 ≤ len)
    (h : pvpIkcpPeeksize k < 0 ∨ len < pvpIkcpPeeksize k) :
    (pvpIkcpRecv k len).1.ret < 0 ∧ (pvpIkcpRecv k len).2 = k
      ∧ (0 ≤ pvpIkcpPeeksize k → (pvpIkcpRecv k len).1.ret = -3) := by
  rw [pvpIkcpRecv]
  by_cases hnil : k.rcvQueue = []
  · rw [if_pos hnil]
    have hnone : pvpIkcpPeeksize k = -1 := by rw [pvpIkcpPeeksize, hnil]
    exact ⟨Int.negSucc_lt_zero _, rfl, fun h => by omega⟩
  rw [if_neg hnil]
  dsimp only
  by_cases hpeek : pvpIkcpPeeksize k < 0
  · rw [if_pos hpeek]
    exact ⟨Int.negSucc_lt_zero _, rfl, fun h => by omega⟩
  rw [if_neg hpeek, if_pos (by omega)]
  exact ⟨Int.negSucc_lt_zero _, rfl, fun _ => rfl⟩

/-- What comes out with a positive number has that length. -/
theorem pvpIkcpRecv_length {k : IKCPCB} {len : Int} (hlen : 0 ≤ len)
    (h : 0 < (pvpIkcpRecv k len).1.ret) :
    (pvpIkcpRecv k len).1.ret = (pvpIkcpRecv k len).1.bytes.length := by
  by_cases hout : 0 ≤ pvpIkcpPeeksize k ∧ pvpIkcpPeeksize k ≤ len
  · rw [pvpIkcpRecv_takeFront hout.1 hout.2]
  · have hneg := (pvpIkcpRecv_refused (k := k) hlen (by omega)).1
    omega

/-! ## The loop, on the block alone -/

/-- The messages that `n` rounds of the loop take: up to the first number that is not positive. -/
def IKCPCB.taken : Nat → IKCPCB → List (List Byte)
  | 0, _ => []
  | n + 1, k =>
    if (pvpIkcpRecv k maxPkgSize).1.ret ≤ 0 then []
    else (pvpIkcpRecv k maxPkgSize).1.bytes :: taken n (pvpIkcpRecv k maxPkgSize).2

/-- The last number, and the block, after `n` rounds. -/
def IKCPCB.afterLoop : Nat → Int → IKCPCB → Int × IKCPCB
  | 0, recvLen, k => (recvLen, k)
  | n + 1, _, k =>
    if (pvpIkcpRecv k maxPkgSize).1.ret ≤ 0 then
      ((pvpIkcpRecv k maxPkgSize).1.ret, (pvpIkcpRecv k maxPkgSize).2)
    else afterLoop n (pvpIkcpRecv k maxPkgSize).1.ret (pvpIkcpRecv k maxPkgSize).2

end Ikcp

/-! ## The loop -/

/-- The tasks of `Output` for these messages: a message of one byte is only its control byte. -/
def outputsOf (ms : List (List Byte)) : List OutTask :=
  (ms.filter fun m => decide (1 < m.length)).map fun m => .output (m.drop 1)

/-- The client once these messages have been taken, and handed on, and the block is `k`. -/
def Client.drained (ms : List (List Byte)) (k : IKCPCB) (c : Client) : Client :=
  { c with
    kcpSession := { c.kcpSession with kcp := some k }
    outQueue := c.outQueue ++ (if c.cb.output then outputsOf ms else []) }

variable {cx : Cx} {c : Client} {k : IKCPCB}

theorem drained_nil (hk : c.kcpSession.kcp = some k) : c.drained [] k = c := by
  have hsession : ({ c.kcpSession with kcp := some k } : KcpSession) = c.kcpSession := by rw [← hk]
  have hnone : (if c.cb.output then outputsOf [] else []) = [] := by
    split
    · rfl
    · rfl
  rw [Client.drained, hsession, hnone, List.append_nil]

theorem drained_drained (ms ms' : List (List Byte)) (k k' : IKCPCB) :
    (c.drained ms k).drained ms' k' = c.drained (ms ++ ms') k' := by
  have hq : ∀ b : Bool, c.outQueue ++ (if b then outputsOf ms else [])
      ++ (if b then outputsOf ms' else []) = c.outQueue ++ (if b then outputsOf (ms ++ ms') else []) := by
    intro b
    cases b with
    | false => rw [List.append_assoc]; rfl
    | true =>
      show _ ++ outputsOf ms ++ outputsOf ms' = _ ++ outputsOf (ms ++ ms')
      rw [List.append_assoc, outputsOf, outputsOf, outputsOf, List.filter_append, List.map_append]
  show ({ c with
    kcpSession := { c.kcpSession with kcp := some k' }
    outQueue := c.outQueue ++ (if c.cb.output then outputsOf ms else [])
      ++ (if c.cb.output then outputsOf ms' else []) } : Client) = _
  rw [hq]
  rfl

/-- A round that takes a message which is no disconnect. -/
theorem recvLoop_message {n : Nat} {recvLen : Int} (hk : c.kcpSession.kcp = some k)
    (hret : 0 < (pvpIkcpRecv k maxPkgSize).1.ret)
    (hno : (pvpIkcpRecv k maxPkgSize).1.bytes.headD 0 ≠ controlDisconnect) :
    recvLoop cx (n + 1) recvLen c = recvLoop cx n (pvpIkcpRecv k maxPkgSize).1.ret
      (c.drained [(pvpIkcpRecv k maxPkgSize).1.bytes] (pvpIkcpRecv k maxPkgSize).2) := by
  have hlength := pvpIkcpRecv_length (by decide) hret
  rw [recvLoop, KcpSession.recv, hk]
  dsimp only
  generalize pvpIkcpRecv k maxPkgSize = r at hret hno hlength ⊢
  obtain ⟨⟨ret, bytes⟩, k₁⟩ := r
  dsimp only at hret hno hlength ⊢
  rw [if_neg (by omega), if_neg hno]
  have htake : (bytes.drop 1).take (ret - 1).toNat = bytes.drop 1 := by
    refine List.take_of_length_le ?_
    rw [List.length_drop]
    omega
  -- with more than the control byte there is something to hand on
  by_cases hlong : ret > 1
  · have houts : outputsOf [bytes] = [.output (bytes.drop 1)] := by
      rw [outputsOf, List.filter_cons_of_pos (by rw [decide_eq_true_eq]; omega)]
      rfl
    rw [if_pos hlong, output]
    by_cases hcb : c.cb.output = true
    · rw [if_pos hcb, if_neg (by omega), htake, Client.drained, if_pos hcb, houts]
      rfl
    · rw [if_neg hcb, Client.drained, if_neg hcb, List.append_nil]
      rfl
  · have houts : outputsOf [bytes] = [] := by
      rw [outputsOf, List.filter_cons_of_neg (by rw [decide_eq_true_eq]; omega)]
      rfl
    have hnone : (if c.cb.output then outputsOf [bytes] else []) = [] := by
      rw [houts]
      split
      · rfl
      · rfl
    rw [if_neg hlong, Client.drained, hnone, List.append_nil]

/-- **The loop gets past messages that are no disconnects.**  Induction on these. -/
theorem recvLoop_messages (cx : Cx) {before rest : List (List Byte)}
    (hno : ∀ m ∈ before, m.headD 0 ≠ controlDisconnect) :
    ∀ {n : Nat} (recvLen : Int) {c : Client} {k : IKCPCB}, c.kcpSession.kcp = some k →
      k.taken n = before ++ rest →
      ∃ n' recvLen' k', recvLoop cx n recvLen c = recvLoop cx n' recvLen' (c.drained before k')
        ∧ k'.taken n' = rest ∧ k'.afterLoop n' recvLen' = k.afterLoop n recvLen := by
  induction before with
  | nil =>
    intro n recvLen c k hk htaken
    exact ⟨n, recvLen, k, by rw [drained_nil hk], htaken, rfl⟩
  -- one round for the first message, the induction for those behind it
  | cons m before ih =>
    intro n recvLen c k hk htaken
    cases n with
    | zero => cases htaken
    | succ n =>
      rw [IKCPCB.taken] at htaken
      by_cases hret : (pvpIkcpRecv k maxPkgSize).1.ret ≤ 0
      · rw [if_pos hret] at htaken
        cases htaken
      rw [if_neg hret, List.cons_append, List.cons.injEq] at htaken
      obtain ⟨rfl, htaken⟩ := htaken
      have hfirst := hno _ (List.mem_cons_self ..)
      obtain ⟨n', recvLen', k', hloop, htaken', hafter⟩ :=
        ih (fun m hm => hno m (List.mem_cons_of_mem _ hm)) (pvpIkcpRecv k maxPkgSize).1.ret
          (c := c.drained [(pvpIkcpRecv k maxPkgSize).1.bytes] (pvpIkcpRecv k maxPkgSize).2) rfl
          htaken
      refine ⟨n', recvLen', k', ?_, htaken', ?_⟩
      · rw [recvLoop_message hk (by omega) hfirst, hloop, drained_drained]
        rfl
      · rw [hafter, IKCPCB.afterLoop, if_neg hret]

/-- A loop that takes no disconnect. -/
theorem recvLoop_drained {n : Nat} {recvLen : Int} (hk : c.kcpSession.kcp = some k)
    (hno : ∀ m ∈ k.taken n, m.headD 0 ≠ controlDisconnect) :
    recvLoop cx n recvLen c
      = .ok ((k.afterLoop n recvLen).1, c.drained (k.taken n) (k.afterLoop n recvLen).2) := by
  obtain ⟨n', recvLen', k', hloop, htaken, hafter⟩ :=
    recvLoop_messages cx hno recvLen hk (List.append_nil _).symm
  rw [hloop, ← hafter]
  cases n' with
  | zero => rfl
  | succ n' =>
    have hret : (pvpIkcpRecv k' maxPkgSize).1.ret ≤ 0 := by
      rw [IKCPCB.taken] at htaken
      split at htaken
      · assumption
      · cases htaken
    rw [recvLoop, KcpSession.recv, IKCPCB.afterLoop, if_pos hret]
    dsimp only [Client.drained]
    rw [if_pos hret]

/-- **A loop that takes a disconnect** closes there, and goes on. -/
theorem recvLoop_disconnect (cx : Cx) {n : Nat} (recvLen : Int) {before after : List (List Byte)}
    {m : List Byte} (hk : c.kcpSession.kcp = some k) (htaken : k.taken n = before ++ m :: after)
    (hno : ∀ x ∈ before, x.headD 0 ≠ controlDisconnect) (hm : m.headD 0 = controlDisconnect) :
    ∃ n' recvLen' k', 0 < recvLen' ∧ recvLoop cx n recvLen c
      = cx.close controlServerClose (c.drained before k') >>= recvLoop cx n' recvLen' := by
  obtain ⟨n', recvLen', k', hloop, htaken, -⟩ := recvLoop_messages cx hno recvLen hk htaken
  rw [hloop]
  cases n' with
  -- the disconnect is among the messages taken, so a round is left for it
  | zero => cases htaken
  | succ n' =>
    rw [IKCPCB.taken] at htaken
    by_cases hret : (pvpIkcpRecv k' maxPkgSize).1.ret ≤ 0
    · rw [if_pos hret] at htaken
      cases htaken
    rw [if_neg hret, List.cons.injEq] at htaken
    refine ⟨n', (pvpIkcpRecv k' maxPkgSize).1.ret, (pvpIkcpRecv k' maxPkgSize).2, by omega, ?_⟩
    rw [recvLoop, KcpSession.recv]
    dsimp only [Client.drained]
    rw [if_neg hret, htaken.1, if_pos hm]

/-! ## Where the loop ends -/

/-- The merge loop merges what the summing loop of `pvp_ikcp_peeksize` adds up. -/
theorem length_mergeFragments (queue : List IKCPSEG) :
    (mergeFragments queue).1.length = peekLength queue := by
  induction queue with
  | nil => rfl
  | cons seg rest ih =>
    rw [mergeFragments, peekLength]
    split
    · rfl
    · show (seg.data ++ (mergeFragments rest).1).length = seg.len + peekLength rest
      rw [List.length_append, ih, IKCPSEG.len]

/-- `pvp_ikcp_peeksize` is the length of the message at the front. -/
theorem length_takeFront {k : IKCPCB} (h : 0 ≤ pvpIkcpPeeksize k) :
    (k.takeFront.1.length : Int) = pvpIkcpPeeksize k := by
  have hroom : ¬ pvpIkcpPeeksize k > (pvpIkcpPeeksize k).natAbs := by omega
  have hmerged : k.takeFront.1 = (mergeFragments k.rcvQueue).1 := by
    have hne : k.rcvQueue ≠ [] := by
      intro hnil
      have hnone : pvpIkcpPeeksize k = -1 := by rw [pvpIkcpPeeksize, hnil]
      omega
    rw [IKCPCB.takeFront, pvpIkcpRecv, if_neg hne]
    dsimp only
    rw [if_neg (Int.not_lt.mpr h), if_neg hroom]
  rw [hmerged, length_mergeFragments]
  unfold pvpIkcpPeeksize at h ⊢
  cases hq : k.rcvQueue with
  | nil =>
    rw [hq] at h
    exact absurd h (by decide : ¬ (0 : Int) ≤ -1)
  | cons seg rest =>
    rw [hq] at h
    dsimp only at h ⊢
    by_cases hfrg : seg.frg = 0
    · rw [if_pos hfrg, peekLength, if_pos hfrg]
    · rw [if_neg hfrg] at h ⊢
      by_cases hfew : k.nrcvQue < seg.frg.toNat + 1
      · rw [if_pos hfew] at h
        exact absurd h (by decide)
      · rw [if_neg hfew]

/-- **What one `Recv` finds**: no message is complete; or the first one is longer than the buffer, and
    stays; or the first one comes out. -/
theorem recv_round (k : IKCPCB) :
    (k.complete = [] ∧ pvpIkcpPeeksize k < 0 ∧ (pvpIkcpRecv k maxPkgSize).1.ret < 0
      ∧ (pvpIkcpRecv k maxPkgSize).1.ret ≠ -3 ∧ (pvpIkcpRecv k maxPkgSize).2 = k) ∨
    (∃ m rest, k.complete = m :: rest ∧ maxPkgSize < m.length
      ∧ (pvpIkcpRecv k maxPkgSize).1.ret = -3) ∨
    ∃ m k₁, k.complete = m :: k₁.complete ∧ m.length ≤ maxPkgSize
      ∧ pvpIkcpRecv k maxPkgSize = (⟨m.length, m⟩, k₁) := by
  have hsize : (0 : Int) ≤ maxPkgSize := by decide
  by_cases hpeek : pvpIkcpPeeksize k < 0
  · left
    obtain ⟨hneg, hsame, -⟩ := pvpIkcpRecv_refused hsize (Or.inl hpeek)
    refine ⟨IKCPCB.complete_none hpeek, hpeek, hneg, ?_, hsame⟩
    rw [pvpIkcpRecv]
    by_cases hnil : k.rcvQueue = []
    · rw [if_pos hnil]
      exact (by decide : (-1 : Int) ≠ -3)
    · rw [if_neg hnil]
      dsimp only
      rw [if_pos hpeek]
      exact (by decide : (-2 : Int) ≠ -3)
  have hpos : 0 ≤ pvpIkcpPeeksize k := Int.not_lt.mp hpeek
  have hlen := length_takeFront hpos
  right
  by_cases hlong : maxPkgSize < pvpIkcpPeeksize k
  · left
    obtain ⟨-, -, hret⟩ := pvpIkcpRecv_refused hsize (Or.inr hlong)
    exact ⟨_, _, IKCPCB.complete_cons hpos, hlen ▸ hlong, hret hpos⟩
  · right
    have hfits := Int.not_lt.mp hlong
    exact ⟨_, _, IKCPCB.complete_cons hpos, hlen ▸ hfits, pvpIkcpRecv_takeFront hpos hfits⟩

/-- The loop gets past a message that has a byte and fits its buffer. -/
def passes (m : List Byte) : Bool := decide (m ≠ [] ∧ m.length ≤ maxPkgSize)

/-- The loop ends at a message that does not fit its buffer: the first that it does not get past. -/
def EndsTooLong (ms : List (List Byte)) : Prop :=
  ∃ m, (ms.dropWhile passes).head? = some m ∧ maxPkgSize < m.length

/-- A message that comes out and is empty ends the loop, and any other one does not. -/
theorem passes_iff {m : List Byte} (hfits : m.length ≤ maxPkgSize) :
    passes m = true ↔ ¬ (m.length : Int) ≤ 0 := by
  rw [passes, decide_eq_true_eq]
  constructor
  · intro h
    have hpos := List.length_pos_of_ne_nil h.1
    omega
  · intro h
    refine ⟨fun hnil => h ?_, hfits⟩
    rw [hnil]
    exact Int.le_refl _

/-- **The messages that `n` rounds take**: the first `n`, up to one that the loop does not get past.
    Induction on the rounds. -/
theorem taken_complete {n : Nat} {k : IKCPCB} :
    k.taken n = (k.complete.take n).takeWhile passes := by
  induction n generalizing k with
  | zero => rfl
  | succ n ih =>
    rw [IKCPCB.taken]
    rcases recv_round k with ⟨hnone, -, hneg, -⟩ | ⟨m, rest, hms, hlong, hret⟩ | ⟨m, k₁, hms, hfits, hout⟩
    · rw [if_pos (Int.le_of_lt hneg), hnone]
      rfl
    · rw [hret, if_pos (by decide), hms, List.take_succ_cons, List.takeWhile_cons_of_neg]
      rw [passes, decide_eq_true_eq]
      omega
    · rw [hout, hms, List.take_succ_cons]
      by_cases hempty : (m.length : Int) ≤ 0
      · rw [if_pos hempty, List.takeWhile_cons_of_neg]
        rw [passes_iff hfits]
        exact not_not_intro hempty
      · rw [if_neg hempty, List.takeWhile_cons_of_pos ((passes_iff hfits).mpr hempty), ← ih]

/-- **The loop ends with -3** exactly if the first message that it does not get past is too long for
    it.  Induction on the rounds. -/
theorem afterLoop_tooLong {n : Nat} {recvLen : Int} {k : IKCPCB} (hrecv : recvLen ≠ -3) :
    (k.afterLoop n recvLen).1 = -3 ↔ EndsTooLong (k.complete.take n) := by
  induction n generalizing recvLen k with
  | zero =>
    refine ⟨fun h => absurd h hrecv, fun h => ?_⟩
    obtain ⟨_, hnil, -⟩ := h
    cases hnil
  | succ n ih =>
    rw [IKCPCB.afterLoop]
    rcases recv_round k with ⟨hnone, -, hneg, hret, -⟩ | ⟨m, rest, hms, hlong, hret⟩ |
      ⟨m, k₁, hms, hfits, hout⟩
    · rw [if_pos (Int.le_of_lt hneg), hnone]
      refine ⟨fun h => absurd h hret, fun h => ?_⟩
      obtain ⟨_, hnil, -⟩ := h
      cases hnil
    · rw [hret, if_pos (by decide), hms, List.take_succ_cons]
      refine ⟨fun _ => ⟨m, ?_, hlong⟩, fun _ => rfl⟩
      rw [List.dropWhile_cons_of_neg, List.head?_cons]
      rw [passes, decide_eq_true_eq]
      omega
    · rw [hout, hms, List.take_succ_cons]
      by_cases hempty : (m.length : Int) ≤ 0
      · rw [if_pos hempty, EndsTooLong, List.dropWhile_cons_of_neg
          (by rw [passes_iff hfits]; exact not_not_intro hempty)]
        dsimp only
        constructor
        · intro h
          omega
        · rintro ⟨m', hhead, hlong⟩
          cases hhead
          omega
      · have hpass := (passes_iff hfits).mpr hempty
        rw [if_neg hempty, EndsTooLong, List.dropWhile_cons_of_pos hpass, ih (by dsimp only; omega)]
        rfl

/-- **The loop against the complete messages**, when it does not end with a message that is too long:
    it takes those before the first empty one, and leaves a complete one exactly if one is behind an
    empty one.  Induction on the rounds. -/
theorem afterLoop_complete {n : Nat} {recvLen : Int} {k : IKCPCB} (hn : k.complete.length < n)
    (hend : (k.afterLoop n recvLen).1 ≠ -3) :
    k.taken n = k.complete.takeWhile (fun m => decide (m ≠ [])) ∧
    (pvpIkcpPeeksize (k.afterLoop n recvLen).2 < 0 ↔ ∀ m ∈ k.complete.dropLast, m ≠ []) := by
  induction n generalizing recvLen k with
  | zero => exact absurd hn (Nat.not_lt_zero _)
  | succ n ih =>
    rw [IKCPCB.afterLoop] at hend
    rw [IKCPCB.taken, IKCPCB.afterLoop]
    rcases recv_round k with ⟨hnone, hpeek, hneg, -, hsame⟩ | ⟨m, rest, -, -, hret⟩ |
      ⟨m, k₁, hms, -, hout⟩
    · -- nothing is complete
      rw [if_pos (Int.le_of_lt hneg), if_pos (Int.le_of_lt hneg), hnone, hsame]
      refine ⟨rfl, fun _ m hm => ?_, fun _ => hpeek⟩
      cases hm
    · rw [hret, if_pos (by decide)] at hend
      exact absurd rfl hend
    rw [hout] at hend ⊢
    rw [hms] at hn ⊢
    dsimp only at hend ⊢
    rw [List.length_cons] at hn
    by_cases hempty : m = []
    · -- an empty message: the loop ends behind it
      subst hempty
      rw [if_pos (by decide), if_pos (by decide)]
      refine ⟨rfl, ?_⟩
      by_cases hpeek₁ : pvpIkcpPeeksize k₁ < 0
      · rw [IKCPCB.complete_none hpeek₁]
        refine ⟨fun _ m hm => ?_, fun _ => hpeek₁⟩
        cases hm
      · rw [IKCPCB.complete_cons (Int.not_lt.mp hpeek₁)]
        refine ⟨fun h => absurd h hpeek₁, fun h => ?_⟩
        exact absurd rfl (h [] (List.mem_cons_self ..))
    · have hlen : 0 < m.length := List.length_pos_of_ne_nil hempty
      rw [if_neg (by omega)] at hend
      rw [if_neg (by omega), if_neg (by omega)]
      obtain ⟨htaken, hleft⟩ := ih (by omega) hend
      rw [htaken, hleft, List.takeWhile_cons_of_pos (by rw [decide_eq_true_eq]; exact hempty)]
      refine ⟨rfl, ?_⟩
      cases hrest : k₁.complete with
      | nil =>
        refine ⟨fun _ m hm => ?_, fun _ m hm => ?_⟩
        · cases hm
        · cases hm
      | cons m₁ rest =>
        rw [List.dropLast_cons_cons, List.forall_mem_cons]
        exact ⟨fun h => ⟨hempty, h⟩, fun h => h.2⟩

/-- The first disconnect among these messages. -/
theorem disconnect_or_none (ms : List (List Byte)) :
    (∀ m ∈ ms, m.headD 0 ≠ controlDisconnect) ∨
    ∃ before m after, ms = before ++ m :: after ∧ (∀ x ∈ before, x.headD 0 ≠ controlDisconnect)
      ∧ m.headD 0 = controlDisconnect := by
  induction ms with
  | nil =>
    left
    intro m hm
    cases hm
  | cons m ms ih =>
    by_cases hm : m.headD 0 = controlDisconnect
    · exact Or.inr ⟨[], m, ms, rfl, fun x hx => (by cases hx), hm⟩
    rcases ih with hnone | ⟨before, m', after, rfl, hno, hm'⟩
    · exact Or.inl (List.forall_mem_cons.mpr ⟨hm, hnone⟩)
    · exact Or.inr ⟨m :: before, m', after, rfl, List.forall_mem_cons.mpr ⟨hm, hno⟩, hm'⟩

/-- A close that the server asks for is terminal. -/
theorem closeReason_lt {reason : Int} (h : reason < clientConnectError) (c : Client) :
    closeReason reason c < clientConnectError := by
  rw [closeReason]
  split
  · decide
  · exact h

/-- **What `InputToKcp` comes to** after an input that was accepted: the loop took no disconnect, and
    the client is as the loop left it, unless a message was too long; or the first disconnect closed
    the connection, and that was all. -/
theorem inputToKcp_cases {env : Env} {n : Nat} {msg : List Byte} {now : Int} {c' : Client}
    {k' : IKCPCB} (hk : c.kcpSession.kcp = some k)
    (hin : pvpIkcpInput k msg (BitVec.ofInt 32 now) = (0, k'))
    (hr : inputToKcp (.of env n) msg now c = .ok c') :
    ∃ c₁, c₁ = { c with kcpSession := { c.kcpSession with kcp := some k', updateNow := true } } ∧
    (((∀ m ∈ k'.taken whileLimit, m.headD 0 ≠ controlDisconnect) ∧
        (k'.afterLoop whileLimit 0).1 ≠ -3 ∧
        c' = c₁.drained (k'.taken whileLimit) (k'.afterLoop whileLimit 0).2) ∨
      ((∀ m ∈ k'.taken whileLimit, m.headD 0 ≠ controlDisconnect) ∧
        (k'.afterLoop whileLimit 0).1 = -3 ∧
        innerClose env n clientConnectError
          (c₁.drained (k'.taken whileLimit) (k'.afterLoop whileLimit 0).2) = .ok c') ∨
      ∃ before m after k₁, k'.taken whileLimit = before ++ m :: after ∧
        (∀ x ∈ before, x.headD 0 ≠ controlDisconnect) ∧ m.headD 0 = controlDisconnect ∧
        innerClose env n controlServerClose (c₁.drained before k₁) = .ok c') := by
  refine ⟨_, rfl, ?_⟩
  have hnull : c.kcpSession.isNull = false := by rw [KcpSession.isNull, hk]; rfl
  rw [inputToKcp, if_neg (by rw [hnull]; exact Bool.false_ne_true), KcpSession.input, hk] at hr
  dsimp only at hr
  rw [hin] at hr
  dsimp only at hr
  rw [if_neg (fun h => h rfl)] at hr
  generalize hc₁ : ({ c with kcpSession :=
    { c.kcpSession with kcp := some k', updateNow := true } } : Client) = c₁ at hr ⊢
  have hk₁ : c₁.kcpSession.kcp = some k' := by rw [← hc₁]
  rcases disconnect_or_none (k'.taken whileLimit) with hno | ⟨before, m, after, htaken, hno, hm⟩
  · rw [recvLoop_drained hk₁ hno] at hr
    change (if (k'.afterLoop whileLimit 0).1 = -3 then _ else _) = _ at hr
    by_cases hend : (k'.afterLoop whileLimit 0).1 = -3
    · rw [if_pos hend] at hr
      exact Or.inr (Or.inl ⟨hno, hend, hr⟩)
    · rw [if_neg hend] at hr
      exact Or.inl ⟨hno, hend, (Except.ok.inj hr).symm⟩
  · -- the first disconnect: the close is terminal, and takes the session away
    obtain ⟨n', recvLen', k₁, hpos, hloop⟩ := recvLoop_disconnect (.of env n) 0 hk₁ htaken hno hm
    rw [hloop] at hr
    obtain ⟨⟨last, c₃⟩, hr₁, hr₂⟩ := bind_eq_ok.mp hr
    obtain ⟨c₂, hclose, hrest⟩ := bind_eq_ok.mp hr₁
    obtain ⟨hnone, -⟩ := innerClose_terminal hclose (closeReason_lt (by decide) _)
    -- nothing comes out of a session that is gone
    obtain ⟨hsame, hlen⟩ := recvLoop_null hnone n' hrest
    have hend : last ≠ -3 := by omega
    change (if last = -3 then _ else _) = _ at hr₂
    rw [if_neg hend] at hr₂
    refine Or.inr (Or.inr ⟨before, m, after, k₁, htaken, hno, hm, ?_⟩)
    rw [← Except.ok.inj hr₂, hsame]
    exact hclose

/-! ## What an input leaves behind -/

/-- No complete message is left, and those that were there went to `Output`, in order, each once and
    without its control byte.  Without a callback there is no queue to hand them to. -/
structure Drained (k : IKCPCB) (c c' : Client) : Prop where
  empty : ∃ k', c'.kcpSession.kcp = some k' ∧ pvpIkcpPeeksize k' < 0
  handed : c'.outQueue = c.outQueue ++ (if c.cb.output then outputsOf k.complete else [])

/-- Nothing comes before the first empty message but messages: if only the last one may be empty,
    the loop misses none that has anything to hand on. -/
theorem takeWhile_eq_self {ms : List (List Byte)} (h : ∀ m ∈ ms.dropLast, m ≠ []) :
    outputsOf (ms.takeWhile fun m => decide (m ≠ [])) = outputsOf ms := by
  induction ms with
  | nil => rfl
  | cons m ms ih =>
    cases ms with
    | nil =>
      by_cases hm : m = []
      · subst hm
        rfl
      · rw [List.takeWhile_cons_of_pos (by rw [decide_eq_true_eq]; exact hm)]
        rfl
    | cons m' ms =>
      rw [List.dropLast_cons_cons, List.forall_mem_cons] at h
      have hrest := ih h.2
      rw [List.takeWhile_cons_of_pos (by rw [decide_eq_true_eq]; exact h.1)]
      rw [outputsOf, outputsOf] at hrest ⊢
      rw [List.filter_cons, List.filter_cons]
      split
      · rw [List.map_cons, List.map_cons, hrest]
      · exact hrest

/-- **`InputToKcp` drains exactly if no empty message stands before another complete one.**  For every
    client with a session, every packet that is accepted and every number of complete messages below
    the bound of the loop: if the call returns without having closed the connection (a close would be
    among the events), no complete message is left and each that was there has been handed to
    `Output`, if and only if only the last of them may be empty. -/
theorem input_drains {env : Env} {n : Nat} {msg : List Byte} {now : Int} {c' : Client}
    {k' : IKCPCB} (hk : c.kcpSession.kcp = some k)
    (hin : pvpIkcpInput k msg (BitVec.ofInt 32 now) = (0, k'))
    (hfew : k'.complete.length ≤ 999999)
    (hr : inputToKcp (.of env n) msg now c = .ok c') (hopen : c'.trace = c.trace) :
    Drained k' c c' ↔ ∀ m ∈ k'.complete.dropLast, m ≠ [] := by
  -- a close would be seen among the events
  have hnoclose : ∀ {reason : Int} {c₂ : Client}, c₂.trace = c.trace →
      innerClose env n reason c₂ ≠ .ok c' := by
    intro reason c₂ ht hclose
    obtain ⟨rs, hs⟩ := innerClose_told hclose
    have hlonger := hs.event
    rw [ht, hopen] at hlonger
    exact absurd hlonger (Nat.lt_irrefl _)
  have hlt : k'.complete.length < whileLimit := by
    unfold whileLimit
    omega
  obtain ⟨c₁, hc₁, ⟨-, hend, hleft⟩ | ⟨-, -, hclose⟩ | ⟨before, m, after, k₁, -, -, -, hclose⟩⟩ :=
    inputToKcp_cases hk hin hr
  · obtain ⟨htaken, hpeek⟩ := afterLoop_complete hlt hend
    subst hc₁
    have hkcp : c'.kcpSession.kcp = some (k'.afterLoop whileLimit 0).2 := by rw [hleft]; rfl
    constructor
    · rintro ⟨⟨k₂, hk₂, hempty⟩, -⟩
      rw [hkcp] at hk₂
      cases hk₂
      exact hpeek.mp hempty
    · intro hlast
      refine ⟨⟨_, hkcp, hpeek.mpr hlast⟩, ?_⟩
      rw [hleft]
      show c.outQueue ++ (if c.cb.output then outputsOf (k'.taken whileLimit) else []) = _
      rw [htaken, takeWhile_eq_self hlast]
  · subst hc₁
    exact absurd hclose (hnoclose rfl)
  · subst hc₁
    exact absurd hclose (hnoclose rfl)

/-! ## Two inputs -/

/-- A datagram with these messages, each in one fragment. -/
def sampleMessages (ms : List (List Byte)) : List Byte :=
  ((List.range ms.length).zip ms).flatMap fun m =>
    ikcpSegBytes { conv := 7, cmd := ikcpCmdPush, wnd := 32, sn := BitVec.ofNat 32 m.1, data := m.2 }

/-- A new session is given these messages: what `pvp_ikcp_input` returns, the messages that are
    complete then, and of `InputToKcp` whether there was no event, and whether a message is left. -/
def sampleInput (ms : List (List Byte)) : Option (Int × List (List Byte) × Option (Bool × Bool)) :=
  (sampleExec (sampleRead (sampleInfo 500))).bind fun s => s.client.kcpSession.kcp.map fun k =>
    let r := pvpIkcpInput k (sampleMessages ms) (BitVec.ofInt 32 1000)
    (r.1, r.2.complete,
      (inputToKcp (.of (sampleEnv 2000) 4) (sampleMessages ms) 1000 s.client).toOption.map fun c =>
        (decide (c.trace = s.client.trace),
          c.kcpSession.kcp.any fun k => decide (0 ≤ pvpIkcpPeeksize k)))

theorem sampleInput_run {ms : List (List Byte)} {left : Bool}
    (h : sampleInput ms = some (0, ms, some (true, left))) :
    ∃ s k k' c', sampleExec (sampleRead (sampleInfo 500)) = some s ∧ Reachable s ∧
      s.client.kcpSession.kcp = some k ∧
      pvpIkcpInput k (sampleMessages ms) (BitVec.ofInt 32 1000) = (0, k') ∧ k'.complete = ms ∧
      inputToKcp (.of (sampleEnv 2000) 4) (sampleMessages ms) 1000 s.client = .ok c' ∧
      c'.trace = s.client.trace ∧
      (c'.kcpSession.kcp.any fun k => decide (0 ≤ pvpIkcpPeeksize k)) = left := by
  obtain ⟨s, hs, h⟩ := Option.bind_eq_some_iff.mp h
  obtain ⟨k, hk, h⟩ := Option.map_eq_some_iff.mp h
  simp only [Prod.mk.injEq] at h
  obtain ⟨hret, hcomplete, h⟩ := h
  obtain ⟨c', hc', h⟩ := Option.map_eq_some_iff.mp h
  simp only [Prod.mk.injEq, decide_eq_true_eq] at h
  refine ⟨s, k, _, c', hs, .of_exec (fun _ _ _ => trivial) _ (.start ⟨_, _, rfl⟩) hs, hk,
    Prod.ext hret rfl, hcomplete, ?_, h⟩
  cases hr : inputToKcp (.of (sampleEnv 2000) 4) (sampleMessages ms) 1000 s.client with
  | error e =>
    rw [hr] at hc'
    cases hc'
  | ok c =>
    rw [hr] at hc'
    exact congrArg Except.ok (Option.some.inj hc')

/-- Three messages, none of them empty. -/
theorem input_drains_sample : ∃ (c c' : Client) (k : IKCPCB),
    k.complete = [[1, 9], [1], [1, 8]] ∧ Drained k c c' := by
  obtain ⟨s, k, k', c', -, -, hk, hin, hcomplete, hr, htrace, -⟩ :=
    sampleInput_run (show sampleInput [[1, 9], [1], [1, 8]] = some (0, _, some (true, false)) by
      decide +kernel)
  refine ⟨s.client, c', k', hcomplete, (input_drains hk hin ?_ hr htrace).mpr ?_⟩
  · rw [hcomplete]
    decide
  · rw [hcomplete]
    decide

/-- An empty message first: the other two are left behind it. -/
theorem message_left : ¬ ∀ s msg now env n k k' c', Reachable s → s.client.kcpSession.kcp = some k →
    pvpIkcpInput k msg (BitVec.ofInt 32 now) = (0, k') → k'.complete.length ≤ 999999 →
    inputToKcp (.of env n) msg now s.client = .ok c' → c'.trace = s.client.trace →
    Drained k' s.client c' := by
  intro hclaim
  obtain ⟨s, k, k', c', -, hreach, hk, hin, hcomplete, hr, htrace, hleft⟩ :=
    sampleInput_run (show sampleInput [[], [1], [1, 8]] = some (0, _, some (true, true)) by
      decide +kernel)
  have hfew : k'.complete.length ≤ 999999 := by
    rw [hcomplete]
    decide
  obtain ⟨⟨k₁, hk₁, hempty⟩, -⟩ := hclaim s _ _ _ _ k k' c' hreach hk hin hfew hr htrace
  rw [hk₁] at hleft
  have hpos : 0 ≤ pvpIkcpPeeksize k₁ := of_decide_eq_true hleft
  omega

end ConnClient
