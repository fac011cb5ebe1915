/-
  What `pvp_ikcp_input` accepts.

  The accepted strings are a language: whole segments, each with the `conv` of the block, a payload as
  long as its header says and a command that is known, and then fewer bytes than a header
  (`Grammar`).  Any other string has a first segment that offends, and the value returned says how
  (`Offends`).  Both speak of bytes at fixed places of a header and of nothing else, while the function
  changes the block between its checks; the verdict is the same because no change reaches `conv`.

  The function reads through a pointer and counts down a size beside it.  `inputAt` is the function with
  these two: a read that does not lie inside the bytes it was given has no result.  It always has one,
  and it is that of the model (`input_grammar`).

  The header takes 19 bytes, little endian: `conv` 4, `cmd` 1, `frg` 2, `wnd` 2, `ts` 4, `sn` 2, `una` 2,
  `len` 2.  The checks come in the order `conv`, `len`, `cmd`, so a segment of another connection is
  refused for that even if it is cut short, and a command is looked at only when the payload is there.
-/
import ConnClient.Ikcp.Datagrams

namespace ConnClient.Ikcp

open ConnClient.Lib

/-! ## The layout of a header -/

/-- `k` bytes at this place, as a number. -/
def fieldLE (bytes : List Byte) (pos k : Nat) : Nat := ofLE ((bytes.drop pos).take k)

def headerConv (header : List Byte) : IUINT32 := BitVec.ofNat 32 (fieldLE header 0 4)
def headerCmd (header : List Byte) : IUINT8 := (header.drop 4).headD 0
def headerLen (header : List Byte) : IUINT16 := BitVec.ofNat 16 (fieldLE header 17 2)

/-- The commands there are. -/
def Known (cmd : IUINT8) : Prop :=
  cmd = ikcpCmdPush ∨ cmd = ikcpCmdAck ∨ cmd = ikcpCmdWask ∨ cmd = ikcpCmdWins ∨ cmd = ikcpCmdDups

instance (cmd : IUINT8) : Decidable (Known cmd) := inferInstanceAs (Decidable (_ ∨ _ ∨ _ ∨ _ ∨ _))

/-- A header and its payload that may stand in a datagram. -/
structure WholeSegment (conv : IUINT32) (header payload : List Byte) : Prop where
  whole : header.length = ikcpOverhead
  conv : headerConv header = conv
  fits : payload.length = (headerLen header).toNat
  cmd : Known (headerCmd header)

/-- Whole segments, and fewer bytes than a header behind them.  Those bytes are not looked at; the
    empty rest is one case of it. -/
inductive Grammar (conv : IUINT32) : List Byte → Prop where
  | done {rest : List Byte} (h : rest.length < ikcpOverhead) : Grammar conv rest
  | seg {header payload rest : List Byte} (h : WholeSegment conv header payload)
      (hrest : Grammar conv rest) : Grammar conv (header ++ (payload ++ rest))

/-- What the first segment that offends does: `conv` before `len` before `cmd`.  The segments in
    front of it are whole, and have been taken in by then. -/
inductive Offends (conv : IUINT32) : List Byte → Int → Prop where
  | conv {header rest : List Byte} (h : header.length = ikcpOverhead)
      (hconv : headerConv header ≠ conv) : Offends conv (header ++ rest) (-1)
  | len {header rest : List Byte} (h : header.length = ikcpOverhead)
      (hconv : headerConv header = conv) (hlen : rest.length < (headerLen header).toNat) :
      Offends conv (header ++ rest) (-2)
  | cmd {header rest : List Byte} (h : header.length = ikcpOverhead)
      (hconv : headerConv header = conv) (hlen : (headerLen header).toNat ≤ rest.length)
      (hcmd : ¬ Known (headerCmd header)) : Offends conv (header ++ rest) (-3)
  | later {header payload rest : List Byte} {ret : Int} (h : WholeSegment conv header payload)
      (hrest : Offends conv rest ret) : Offends conv (header ++ (payload ++ rest)) ret

/-! ## One round -/

/-- The decoders, one after the other, read the fields at their places. -/
theorem ikcpDecodeHead_layout {header : List Byte} (h : header.length = ikcpOverhead)
    (rest : List Byte) :
    (ikcpDecode32u (header ++ rest)).1 = headerConv header ∧
    (ikcpDecodeHead (header ++ rest)).1.cmd = headerCmd header ∧
    (ikcpDecodeHead (header ++ rest)).1.len = headerLen header ∧
    (ikcpDecodeHead (header ++ rest)).2 = rest := by
  have hlen : header.length = 19 := h
  -- a field of the header is not moved by what follows it
  have hfield : ∀ pos k, pos + k ≤ 19 →
      ((header ++ rest).drop pos).take k = (header.drop pos).take k := by
    intro pos k hle
    have hdrop : k ≤ (header.drop pos).length := by
      rw [List.length_drop]
      omega
    rw [List.drop_append_of_le_length (by omega), List.take_append_of_le_length hdrop]
  have hhead : ((header ++ rest).drop 4).headD 0 = (header.drop 4).headD 0 := by
    rw [List.headD_eq_head?_getD, List.headD_eq_head?_getD, List.head?_drop, List.head?_drop,
      List.getElem?_append_left (by omega)]
  simp only [ikcpDecodeHead, ikcpDecode32u, ikcpDecode8u, ikcpDecode16u, List.drop_drop]
  refine ⟨?_, hhead, ?_, ?_⟩
  · exact congrArg (fun bytes => BitVec.ofNat 32 (ofLE bytes)) (hfield 0 4 (by omega))
  · exact congrArg (fun bytes => BitVec.ofNat 16 (ofLE bytes)) (hfield 17 2 (by omega))
  · exact List.drop_left' hlen

/-- **What one round makes of a header and what follows it.** -/
theorem parseSeg_layout (conv : IUINT32) {header : List Byte} (h : header.length = ikcpOverhead)
    (rest : List Byte) :
    parseSeg conv (header ++ rest) =
      if headerConv header ≠ conv then .fail (-1)
      else if rest.length < (headerLen header).toNat then .fail (-2)
      else if ¬ Known (headerCmd header) then .fail (-3)
      else .seg (ikcpDecodeHead (header ++ rest)).1 (rest.take (headerLen header).toNat)
        (rest.drop (headerLen header).toNat) := by
  obtain ⟨hconv, hcmd, hlen, hrest⟩ := ikcpDecodeHead_layout h rest
  have hsize : ¬ (header ++ rest).length < ikcpOverhead := by
    rw [List.length_append]
    omega
  have hknown : (headerCmd header ≠ ikcpCmdPush ∧ headerCmd header ≠ ikcpCmdAck ∧
      headerCmd header ≠ ikcpCmdWask ∧ headerCmd header ≠ ikcpCmdWins ∧
      headerCmd header ≠ ikcpCmdDups) ↔ ¬ Known (headerCmd header) := by
    rw [Known]
    tauto
  rw [parseSeg, if_neg hsize, hconv]
  generalize ikcpDecodeHead (header ++ rest) = r at hcmd hlen hrest ⊢
  obtain ⟨head, data⟩ := r
  dsimp only at hcmd hlen hrest ⊢
  subst hrest
  rw [hlen, hcmd]
  simp only [hknown]

/-! ## The whole string -/

variable {conv : IUINT32} {data : List Byte}

/-- A string of the language is decoded to its end.  Induction on its segments. -/
theorem Grammar.parses (h : Grammar conv data) :
    ∀ n, data.length ≤ n → (parseSegs conv n data).1 = none := by
  induction h with
  | done hshort =>
    intro n _
    cases n with
    | zero => rfl
    | succ n =>
      rw [parseSegs, parseSeg, if_pos hshort]
  | @seg header payload rest hwhole hrest ih =>
    intro n hn
    have hlen : header.length = 19 := hwhole.whole
    rw [List.length_append, List.length_append] at hn
    cases n with
    | zero => omega
    | succ n =>
      have hsize : ¬ (payload ++ rest).length < (headerLen header).toNat := by
        rw [List.length_append, ← hwhole.fits]
        omega
      rw [parseSegs, parseSeg_layout conv hwhole.whole, if_neg (not_not_intro hwhole.conv),
        if_neg hsize, if_neg (not_not_intro hwhole.cmd), ← hwhole.fits, List.drop_left]
      exact ih n (by omega)

/-- One that offends is decoded up to the segment that does.  Induction on the segments before it. -/
theorem Offends.parses {ret : Int} (h : Offends conv data ret) :
    ∀ n, data.length ≤ n → (parseSegs conv n data).1 = some ret := by
  induction h with
  | @conv header rest hwhole hconv =>
    intro n hn
    have hlen : header.length = 19 := hwhole
    rw [List.length_append] at hn
    cases n with
    | zero => omega
    | succ n => rw [parseSegs, parseSeg_layout conv hwhole, if_pos hconv]
  | @len header rest hwhole hconv hshort =>
    intro n hn
    have hlen : header.length = 19 := hwhole
    rw [List.length_append] at hn
    cases n with
    | zero => omega
    | succ n =>
      rw [parseSegs, parseSeg_layout conv hwhole, if_neg (not_not_intro hconv), if_pos hshort]
  | @cmd header rest hwhole hconv hfits hcmd =>
    intro n hn
    have hlen : header.length = 19 := hwhole
    rw [List.length_append] at hn
    cases n with
    | zero => omega
    | succ n =>
      rw [parseSegs, parseSeg_layout conv hwhole, if_neg (not_not_intro hconv),
        if_neg (Nat.not_lt_of_le hfits), if_pos hcmd]
  | @later header payload rest ret hwhole hrest ih =>
    intro n hn
    have hlen : header.length = 19 := hwhole.whole
    rw [List.length_append, List.length_append] at hn
    cases n with
    | zero => omega
    | succ n =>
      have hsize : ¬ (payload ++ rest).length < (headerLen header).toNat := by
        rw [List.length_append, ← hwhole.fits]
        omega
      rw [parseSegs, parseSeg_layout conv hwhole.whole, if_neg (not_not_intro hwhole.conv),
        if_neg hsize, if_neg (not_not_intro hwhole.cmd), ← hwhole.fits, List.drop_left]
      exact ih n (by omega)

/-- **Every string is one or the other.**  Induction on its length. -/
theorem grammar_or_offends (conv : IUINT32) (data : List Byte) :
    Grammar conv data ∨ ∃ ret, Offends conv data ret := by
  induction hn : data.length using Nat.strong_induction_on generalizing data with
  | _ n ih =>
    by_cases hshort : data.length < ikcpOverhead
    · exact Or.inl (.done hshort)
    obtain ⟨header, rest, hwhole, rfl⟩ : ∃ header rest, header.length = ikcpOverhead ∧
        data = header ++ rest := by
      refine ⟨data.take ikcpOverhead, data.drop ikcpOverhead, ?_, (List.take_append_drop ..).symm⟩
      rw [List.length_take]
      omega
    by_cases hconv : headerConv header = conv
    · -- The checks in their order; what passes them all is a segment, and the rest is shorter.
      by_cases hfits : (headerLen header).toNat ≤ rest.length
      · by_cases hcmd : Known (headerCmd header)
        · let payload := rest.take (headerLen header).toNat
          let after := rest.drop (headerLen header).toNat
          have hsplit : rest = payload ++ after := (List.take_append_drop ..).symm
          have hpayload : payload.length = (headerLen header).toNat := by
            rw [List.length_take, Nat.min_eq_left hfits]
          have hseg : WholeSegment conv header payload := ⟨hwhole, hconv, hpayload, hcmd⟩
          have hless : after.length < n := by
            rw [← hn, List.length_append, hwhole, List.length_drop, ikcpOverhead]
            omega
          rw [hsplit]
          rcases ih after.length hless after rfl with h | ⟨ret, h⟩
          · exact Or.inl (.seg hseg h)
          · exact Or.inr ⟨ret, .later hseg h⟩
        · exact Or.inr ⟨-3, .cmd hwhole hconv hfits hcmd⟩
      · exact Or.inr ⟨-2, .len hwhole hconv (Nat.lt_of_not_le hfits)⟩
    · exact Or.inr ⟨-1, .conv hwhole hconv⟩

/-! ## The pointer and the size -/

/-- `k` bytes at `p`, when they lie inside the bytes that were given. -/
def readAt (mem : List Byte) (p k : Nat) : Option (List Byte) :=
  if p + k ≤ mem.length then some ((mem.drop p).take k) else none

def decode8At (mem : List Byte) (p : Nat) : Option (IUINT8 × Nat) :=
  (readAt mem p 1).map fun bytes => (bytes.headD 0, p + 1)

def decode16At (mem : List Byte) (p : Nat) : Option (IUINT16 × Nat) :=
  (readAt mem p 2).map fun bytes => (BitVec.ofNat 16 (ofLE bytes), p + 2)

def decode32At (mem : List Byte) (p : Nat) : Option (IUINT32 × Nat) :=
  (readAt mem p 4).map fun bytes => (BitVec.ofNat 32 (ofLE bytes), p + 4)

/-- What a round finds at the pointer; after a segment the pointer and the size have moved on. -/
inductive RoundAt where
  | stop
  | fail (ret : Int)
  | seg (head : SegHead) (payload : List Byte) (p : Nat) (size : Int)

/-- The reads and checks of one round of `pvp_ikcp_input`.  The payload is read in any case; the
    source reads it only for a segment it keeps.  So that the reads lie inside is shown for more
    reads than there are. -/
def roundAt (conv : IUINT32) (mem : List Byte) (p : Nat) (size : Int) : Option RoundAt :=
  if size < ikcpOverhead then some .stop
  else do
    let (segConv, p) ← decode32At mem p
    if segConv ≠ conv then some (.fail (-1))
    else do
      let (cmd, p) ← decode8At mem p
      let (frg, p) ← decode16At mem p
      let (wnd, p) ← decode16At mem p
      let (ts, p) ← decode32At mem p
      let (tmpSn, p) ← decode16At mem p
      let (tmpUna, p) ← decode16At mem p
      let (len, p) ← decode16At mem p
      let size := size - ikcpOverhead
      if size < len.toNat then some (.fail (-2))
      else if cmd ≠ ikcpCmdPush ∧ cmd ≠ ikcpCmdAck ∧ cmd ≠ ikcpCmdWask
          ∧ cmd ≠ ikcpCmdWins ∧ cmd ≠ ikcpCmdDups then some (.fail (-3))
      else do
        let payload ← readAt mem p len.toNat
        some (.seg ⟨segConv, cmd, frg, wnd, ts, tmpSn, tmpUna, len⟩ payload (p + len.toNat)
          (size - len.toNat))

/-- The loop, for `n` rounds: without a result when they are not enough. -/
def loopAt (mem : List Byte) : Nat → Nat → Int → InputSt → Option (Option Int × InputSt)
  | 0, _, _, _ => none
  | n + 1, p, size, st => do
    match ← roundAt st.kcp.conv mem p size with
    | .stop => some (none, st)
    | .fail ret => some (some ret, st)
    | .seg head payload p size => loopAt mem n p size (inputSeg st head payload)

/-- `pvp_ikcp_input`, with `n` rounds of its loop. -/
def inputAt (n : Nat) (kcp : IKCPCB) (mem : List Byte) (size : Int) (current : IUINT32) :
    Option (Int × IKCPCB) :=
  let kcp := inputEnter kcp current
  let una := kcp.sndUna
  if (BitVec.ofInt 32 size).toInt < ikcpOverhead then some (-1, kcp)
  else do
    match ← loopAt mem n 0 size { kcp := kcp, flag := false, maxack := 0 } with
    | (some ret, st) => some (ret, st.kcp)
    | (none, st) =>
      let kcp := if st.flag then ikcpParseFastack st.kcp st.maxack else st.kcp
      some (0, inputCwnd kcp una)

/-- What the model finds in the bytes from the pointer on. -/
def Parsed.roundAt (mem : List Byte) : Parsed → RoundAt
  | .stop => .stop
  | .fail ret => .fail ret
  | .seg head payload rest => .seg head payload (mem.length - rest.length) rest.length

theorem decode8At_eq {mem : List Byte} {p : Nat} (h : p + 1 ≤ mem.length) :
    decode8At mem p = some ((ikcpDecode8u (mem.drop p)).1, p + 1) := by
  obtain ⟨b, rest, hdrop⟩ : ∃ b rest, mem.drop p = b :: rest :=
    List.exists_cons_of_length_pos (by rw [List.length_drop]; omega)
  rw [decode8At, readAt, if_pos h, hdrop]
  rfl

theorem decode16At_eq {mem : List Byte} {p : Nat} (h : p + 2 ≤ mem.length) :
    decode16At mem p = some ((ikcpDecode16u (mem.drop p)).1, p + 2) := by
  rw [decode16At, readAt, if_pos h]
  rfl

theorem decode32At_eq {mem : List Byte} {p : Nat} (h : p + 4 ≤ mem.length) :
    decode32At mem p = some ((ikcpDecode32u (mem.drop p)).1, p + 4) := by
  rw [decode32At, readAt, if_pos h]
  rfl

/-- **Every read of a round lies inside**: a header is read only when 19 bytes are left, and a
    payload only when it is there. -/
theorem roundAt_parseSeg (conv : IUINT32) {mem : List Byte} {p : Nat} (hp : p ≤ mem.length) :
    roundAt conv mem p ((mem.drop p).length : Nat) = some ((parseSeg conv (mem.drop p)).roundAt mem) := by
  have hlen : (mem.drop p).length = mem.length - p := List.length_drop
  rw [roundAt, parseSeg]
  by_cases hshort : (mem.drop p).length < ikcpOverhead
  · rw [if_pos hshort, if_pos (by omega)]
    rfl
  rw [if_neg hshort, if_neg (by omega)]
  have hroom : p + 19 ≤ mem.length := by
    rw [ikcpOverhead] at hshort
    omega
  rw [decode32At_eq (by omega)]
  by_cases hconv : (ikcpDecode32u (mem.drop p)).1 = conv
  · have h₄ : decode8At mem (p + 4) = _ := decode8At_eq (by omega)
    have h₅ : decode16At mem (p + 5) = _ := decode16At_eq (by omega)
    have h₇ : decode16At mem (p + 7) = _ := decode16At_eq (by omega)
    have h₉ : decode32At mem (p + 9) = _ := decode32At_eq (by omega)
    have h₁₃ : decode16At mem (p + 13) = _ := decode16At_eq (by omega)
    have h₁₅ : decode16At mem (p + 15) = _ := decode16At_eq (by omega)
    have h₁₇ : decode16At mem (p + 17) = _ := decode16At_eq (by omega)
    have hhead : ikcpDecodeHead (mem.drop p) = (⟨conv, (ikcpDecode8u (mem.drop (p + 4))).1,
        (ikcpDecode16u (mem.drop (p + 5))).1, (ikcpDecode16u (mem.drop (p + 7))).1,
        (ikcpDecode32u (mem.drop (p + 9))).1, (ikcpDecode16u (mem.drop (p + 13))).1,
        (ikcpDecode16u (mem.drop (p + 15))).1, (ikcpDecode16u (mem.drop (p + 17))).1⟩,
        mem.drop (p + 19)) := by
      rw [← hconv]
      simp only [ikcpDecodeHead, ikcpDecode32u, ikcpDecode8u, ikcpDecode16u, List.drop_drop,
        Nat.add_assoc, Nat.reduceAdd]
    have hrest : (mem.drop (p + 19)).length = mem.length - (p + 19) := List.length_drop
    rw [if_neg (not_not_intro hconv), hhead]
    simp only [Option.bind_eq_bind, Option.bind_some, hconv, ne_eq, not_true_eq_false, if_false,
      h₄, h₅, h₇, h₉, h₁₃, h₁₅, h₁₇]
    -- from here on only the command and the length matter
    generalize (ikcpDecode16u (mem.drop (p + 17))).1 = len
    generalize (ikcpDecode8u (mem.drop (p + 4))).1 = cmd
    by_cases hfits : (mem.drop (p + 19)).length < len.toNat
    · rw [if_pos hfits, if_pos (by rw [ikcpOverhead]; omega)]
      rfl
    rw [if_neg hfits, if_neg (by rw [ikcpOverhead]; omega)]
    split
    · rfl
    · have hpayload : readAt mem (p + 17 + 2) len.toNat = some ((mem.drop (p + 19)).take len.toNat) :=
        if_pos (by omega)
      have hafter : ((mem.drop (p + 19)).drop len.toNat).length = mem.length - (p + 19) - len.toNat := by
        rw [List.length_drop, hrest]
      rw [hpayload, Parsed.roundAt, hafter]
      refine congrArg some ?_
      have hptr : p + 17 + 2 + len.toNat = mem.length - (mem.length - (p + 19) - len.toNat) := by omega
      have hsize : ((mem.drop p).length : Int) - ikcpOverhead - len.toNat
          = (mem.length - (p + 19) - len.toNat : Nat) := by
        rw [ikcpOverhead]
        omega
      rw [hptr, hsize]
  · rw [if_pos hconv]
    exact if_pos hconv

/-- A round that finds a segment goes on behind its header and its payload. -/
theorem parseSeg_rest {head : SegHead} {payload rest : List Byte}
    (h : parseSeg conv data = .seg head payload rest) :
    ∃ k, ikcpOverhead ≤ k ∧ k ≤ data.length ∧ rest = data.drop k := by
  have hhead : (ikcpDecodeHead data).2 = data.drop ikcpOverhead := by
    simp only [ikcpDecodeHead, ikcpDecode32u, ikcpDecode8u, ikcpDecode16u, List.drop_drop]
    rfl
  rw [parseSeg] at h
  split at h
  · cases h
  split at h
  · cases h
  dsimp only at h
  rw [hhead] at h
  split at h
  · cases h
  rename_i hshort _ hfits
  split at h
  · cases h
  cases h
  rw [List.length_drop] at hfits
  refine ⟨ikcpOverhead + (ikcpDecodeHead data).1.len.toNat, Nat.le_add_right .., by omega, ?_⟩
  rw [List.drop_drop]

/-- **The loop never reads outside, and comes to an end.**  Induction on the rounds, of which each
    takes a header. -/
theorem loopAt_inputLoop {mem : List Byte} (n m : Nat) {p : Nat} (hp : p ≤ mem.length) (st : InputSt)
    (hn : (mem.drop p).length < n) (hm : (mem.drop p).length ≤ m) :
    loopAt mem n p ((mem.drop p).length : Nat) st = some (inputLoop m (mem.drop p) st) := by
  induction n generalizing p m st with
  | zero => omega
  | succ n ih =>
    rw [loopAt, roundAt_parseSeg _ hp]
    cases m with
    | zero =>
      -- no byte is left
      have hstop : parseSeg st.kcp.conv (mem.drop p) = .stop := if_pos (by rw [ikcpOverhead]; omega)
      rw [hstop]
      rfl
    | succ m =>
      rw [inputLoop]
      cases hfound : parseSeg st.kcp.conv (mem.drop p) with
      | stop => rfl
      | fail ret => rfl
      | seg head payload rest =>
        -- the pointer has moved on by a header at least
        obtain ⟨k, hk, hle, hrest⟩ := parseSeg_rest hfound
        rw [List.length_drop] at hle hn hm
        have hafter : rest = mem.drop (p + k) := by rw [hrest, List.drop_drop]
        have hlen : (mem.drop (p + k)).length = mem.length - (p + k) := List.length_drop
        have hptr : mem.length - rest.length = p + k := by
          rw [hafter, hlen]
          omega
        rw [ikcpOverhead] at hk
        have hnext := ih m (p := p + k) (by omega) (inputSeg st head payload) (by omega) (by omega)
        rw [← hafter] at hnext
        show loopAt mem n (mem.length - rest.length) rest.length _ = _
        rw [hptr]
        exact hnext

/-! ## The function -/

theorem inputEnter_conv (kcp : IKCPCB) (current : IUINT32) :
    (inputEnter kcp current).conv = kcp.conv :=
  congrArg (fun g => g.snd.conv) (inputEnter_ground kcp current)

/-- The value returned is what the decoder says, whatever happens to the block. -/
theorem pvpIkcpInput_fst (kcp : IKCPCB) (current : IUINT32) (hlong : ikcpOverhead ≤ data.length) :
    (pvpIkcpInput kcp data current).1 = (parseSegs kcp.conv data.length data).1.getD 0 := by
  rw [pvpIkcpInput, if_neg (Nat.not_lt_of_le hlong),
    inputLoop_parseSegs data.length data _ (inputEnter_conv kcp current)]
  cases (parseSegs kcp.conv data.length data).1 with
  | none => rfl
  | some ret => rfl

theorem inputAt_pvpIkcpInput (kcp : IKCPCB) (current : IUINT32) (hsize : data.length < 2 ^ 31) {n : Nat}
    (hn : data.length < n) :
    inputAt n kcp data data.length current = some (pvpIkcpInput kcp data current) := by
  -- the size is passed as a `long` and compared as an `int`; below `2 ^ 31` that is the same
  have hint : (BitVec.ofInt 32 (data.length : Int)).toInt = data.length := by
    rw [BitVec.toInt_ofInt, Int.bmod_def]
    omega
  rw [inputAt, pvpIkcpInput, hint]
  by_cases hshort : data.length < ikcpOverhead
  · rw [if_pos hshort]
    exact if_pos (by omega)
  rw [if_neg hshort]
  refine (if_neg (by omega)).trans ?_
  have hloop := loopAt_inputLoop n data.length (Nat.zero_le data.length)
    { kcp := inputEnter kcp current, flag := false, maxack := 0 } hn (Nat.le_refl _)
  rw [List.drop_zero] at hloop
  rw [hloop]
  generalize inputLoop data.length data _ = r
  obtain ⟨ret, st⟩ := r
  cases ret with
  | none => rfl
  | some ret => rfl

theorem Offends.ne_zero {ret : Int} (h : Offends conv data ret) : ret ≠ 0 := by
  induction h with
  | conv | len | cmd => decide
  | later _ _ ih => exact ih

/-- **`pvp_ikcp_input` accepts exactly its grammar.**  It returns `0` for a string of it that is not
    shorter than a header, `-1` for one that is, and else what the first segment that offends asks for.
    And whatever the bytes: the function that reads through a pointer comes to the same result, when it
    is given more rounds than there are bytes, and every byte it reads is one of them. -/
theorem input_grammar (kcp : IKCPCB) (data : List Byte) (current : IUINT32)
    (hsize : data.length < 2 ^ 31) :
    ((pvpIkcpInput kcp data current).1 = 0 ↔
      ikcpOverhead ≤ data.length ∧ Grammar kcp.conv data) ∧
    (data.length < ikcpOverhead → (pvpIkcpInput kcp data current).1 = -1) ∧
    (ikcpOverhead ≤ data.length → ∀ ret ≠ 0,
      (pvpIkcpInput kcp data current).1 = ret ↔ Offends kcp.conv data ret) ∧
    ∀ n, data.length < n →
      inputAt n kcp data data.length current = some (pvpIkcpInput kcp data current) := by
  have hshort : data.length < ikcpOverhead → (pvpIkcpInput kcp data current).1 = -1 := fun h => by
    rw [pvpIkcpInput, if_pos h]
  have haccept : ikcpOverhead ≤ data.length → Grammar kcp.conv data →
      (pvpIkcpInput kcp data current).1 = 0 := by
    intro hlong hg
    rw [pvpIkcpInput_fst kcp current hlong, hg.parses _ (Nat.le_refl _)]
    rfl
  have hreject : ∀ ret, ikcpOverhead ≤ data.length → Offends kcp.conv data ret →
      (pvpIkcpInput kcp data current).1 = ret := by
    intro ret hlong ho
    rw [pvpIkcpInput_fst kcp current hlong, ho.parses _ (Nat.le_refl _)]
    rfl
  refine ⟨⟨fun hzero => ?_, fun h => haccept h.1 h.2⟩, hshort, fun hlong ret hne => ⟨fun hret => ?_,
    hreject ret hlong⟩, fun n hn => inputAt_pvpIkcpInput kcp current hsize hn⟩
  · by_cases hlong : ikcpOverhead ≤ data.length
    · refine ⟨hlong, (grammar_or_offends kcp.conv data).resolve_right ?_⟩
      rintro ⟨ret, ho⟩
      exact ho.ne_zero ((hreject ret hlong ho).symm.trans hzero)
    · rw [hshort (Nat.lt_of_not_le hlong)] at hzero
      cases hzero
  · rcases grammar_or_offends kcp.conv data with hg | ⟨ret', ho⟩
    · exact absurd (hret.symm.trans (haccept hlong hg)) hne
    · exact hret.symm.trans (hreject ret' hlong ho) ▸ ho

/-- One acknowledgement, and one byte behind it. -/
theorem input_grammar_ack :
    (pvpIkcpInput { (pvpIkcpCreate 7) with sndNxt := 1 }
        (ikcpSegBytes { conv := 7, cmd := ikcpCmdAck, wnd := 32 } ++ [0]) 100).1 = 0 ∧
      Grammar 7 (ikcpSegBytes { conv := 7, cmd := ikcpCmdAck, wnd := 32 } ++ [0]) := by
  have hgrammar := input_grammar { (pvpIkcpCreate 7) with sndNxt := 1 }
    (ikcpSegBytes { conv := 7, cmd := ikcpCmdAck, wnd := 32 } ++ [0]) 100 (by decide)
  have hzero : (pvpIkcpInput { (pvpIkcpCreate 7) with sndNxt := 1 }
      (ikcpSegBytes { conv := 7, cmd := ikcpCmdAck, wnd := 32 } ++ [0]) 100).1 = 0 := by
    decide +kernel
  exact ⟨hzero, (hgrammar.1.mp hzero).2⟩

end ConnClient.Ikcp
