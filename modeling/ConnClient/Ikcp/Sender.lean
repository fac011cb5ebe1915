/-
  The sending half of a control block, against the log of what was queued on it.

  `SndOk` says what a sending half is, in terms of the log and of two numbers: `sndNum`, which
  `snd_nxt` stands for, and `una`, which `snd_una` stands for.  What is not numbered yet is in
  `snd_queue`; what is in `snd_buf` is numbered from `una` on, in ascending order, and is the log's
  fragment of that number.  The window keeps `sndNum` within `0x7fff` of `una`, which is what makes
  16 bits on the wire enough.

  An acknowledgement, right or wrong, only ever removes segments from `snd_buf`
  (`SndOk.sublist`) — so nothing here depends on `una` or an acknowledged `sn` being understood.
  A sender keeps `SndOk` and puts only fragments of the log on the wire: `pvpIkcpFlush_ok`,
  `pvpIkcpSendEx_ok` and `pvpIkcpUpdate_ok`.

  The numbers need not be without gaps: a sublist of ascending numbers is ascending, and that is all
  `SndOk.buf` asks for.  What a wrong acknowledgement costs is that `una` runs ahead, to the first
  segment that is left, so the window admits more; it stays a window of `0x7fff` numbers.

  The loops of the senders do not appear here.  `sndKept_emitter` shows the six things that
  `ConnClient.Ikcp.Emit` asks for, of which `move` is the one with content (`moveSegment_ok`): the
  comparison that admits a segment is a comparison of residues, and is right since the numbers are
  near each other.
-/
import ConnClient.Ikcp.Emit

namespace ConnClient.Ikcp

open ConnClient.Lib

/-! ## The sending half -/

/-- Fragment `n` of the log as a segment of `snd_buf`. -/
def bufEntry (conv : IUINT32) (log : List (Nat × List Byte)) (n : Nat) :
    IUINT32 × IUINT8 × IUINT32 × Option (Nat × List Byte) :=
  (conv, ikcpCmdPush, logEntry log n)

/-- What the creation and the configuration of a block fix. -/
structure Link where
  conv : IUINT32
  mss : Nat

/-- The fragments of a log fit the wire format's mark and length, 16 bits each. -/
def Fits (log : List (Nat × List Byte)) : Prop :=
  ∀ f ∈ log, f.1 < 2 ^ 16 ∧ f.2.length < 2 ^ 16

/-- `SndOk ln log una sndNum h` — the sending half `h` has numbered the first `sndNum` fragments of
    `log` and may still send those from `una` on.  `near` is the window, as a statement about
    numbers. -/
structure SndOk (ln : Link) (log : List (Nat × List Byte)) (una sndNum : Nat) (h : SndHalf) :
    Prop where
  conv : h.conv = ln.conv
  mss : h.mss = ln.mss
  stream : h.stream = 0
  wnd : h.sndWnd.toNat ≤ 0x7fff
  sndUna : h.sndUna = BitVec.ofNat 32 una
  sndNxt : h.sndNxt = BitVec.ofNat 32 sndNum
  le : una ≤ sndNum
  near : sndNum ≤ una + 0x7fff
  len : sndNum ≤ log.length
  queue : h.sndQueue = log.drop sndNum
  buf : ∃ ns : List Nat, h.sndBuf = ns.map (bufEntry ln.conv log) ∧ ns.Pairwise (· < ·)
    ∧ ∀ n ∈ ns, una ≤ n ∧ n < sndNum
  fits : Fits log

section Sender

variable {ln : Link} {log : List (Nat × List Byte)} {una sndNum : Nat} {h h' : SndHalf}

/-- **Forgetting segments keeps the half**: any sublist of `snd_buf` will do. -/
theorem SndOk.sublist (hok : SndOk ln log una sndNum h)
    {buf : List (IUINT32 × IUINT8 × IUINT32 × Option (Nat × List Byte))}
    (hsub : buf.Sublist h.sndBuf) : SndOk ln log una sndNum { h with sndBuf := buf } := by
  obtain ⟨ns, hmap, hsorted, hns⟩ := hok.buf
  rw [hmap] at hsub
  obtain ⟨ns', hsub', hmap'⟩ := List.sublist_map_iff.mp hsub
  exact { hok with
    buf := ⟨ns', hmap', hsorted.sublist hsub', fun n hn => hns n (hsub'.subset hn)⟩ }

/-- The log grows by whole messages; what was not numbered before is still queued. -/
theorem SndOk.log_append (hok : SndOk ln log una sndNum h) {more : List (Nat × List Byte)}
    (hfits : Fits more) :
    SndOk ln (log ++ more) una sndNum { h with sndQueue := h.sndQueue ++ more } := by
  obtain ⟨ns, hmap, hsorted, hns⟩ := hok.buf
  have hlen := hok.len
  refine { hok with
    len := by rw [List.length_append]; omega
    queue := by
      show h.sndQueue ++ more = _
      rw [hok.queue, List.drop_append_of_le_length hlen]
    buf := ⟨ns, ?_, hsorted, hns⟩
    fits := fun f hf => (List.mem_append.mp hf).elim (hok.fits f) (hfits f) }
  show h.sndBuf = _
  rw [hmap]
  apply List.map_congr_left
  intro n hn
  rw [bufEntry, bufEntry, logEntry, logEntry,
    List.getElem?_append_left (Nat.lt_of_lt_of_le (hns n hn).2 hlen)]

/-! ## Acknowledgements -/

/-- `ikcp_shrink_buf` moves `snd_una` up to the first segment kept. -/
theorem ikcpShrinkBuf_ok {kcp : IKCPCB} (hok : SndOk ln log una sndNum kcp.sndHalf) :
    ∃ una', una ≤ una' ∧ SndOk ln log una' sndNum (ikcpShrinkBuf kcp).sndHalf := by
  obtain ⟨ns, hmap, hsorted, hns⟩ := hok.buf
  rw [ikcpShrinkBuf]
  split
  · rename_i seg rest hb
    have hmap' : (seg :: rest).map IKCPSEG.key = ns.map (bufEntry ln.conv log) := hb ▸ hmap
    cases ns with
    | nil => cases hmap'
    | cons n ns =>
      obtain ⟨hn1, hn2⟩ := hns n (List.mem_cons_self ..)
      have hnear := hok.near
      have hsn : seg.sn = BitVec.ofNat 32 n :=
        congrArg (fun k => k.2.2.1) (List.cons.inj hmap').1
      -- the number in front becomes `una`; none of the others is below it
      refine ⟨n, hn1, { hok with
        sndUna := hsn, le := by omega, near := by omega
        buf := ⟨n :: ns, hmap, hsorted, fun m hm => ⟨?_, (hns m hm).2⟩⟩ }⟩
      rcases List.mem_cons.mp hm with rfl | hm
      · exact Nat.le_refl _
      · exact Nat.le_of_lt ((List.pairwise_cons.mp hsorted).1 m hm)
  · rename_i hb
    -- nothing waits: the window starts at the next number
    refine ⟨sndNum, hok.le, { hok with
      sndUna := hok.sndNxt, le := Nat.le_refl _, near := Nat.le_add_right _ _
      buf := ⟨[], ?_, List.Pairwise.nil, fun n hn => absurd hn List.not_mem_nil⟩ }⟩
    show kcp.sndBuf.map IKCPSEG.key = []
    rw [hb]
    rfl

end Sender

/-- Every `ikcp_parse_*` function and the timing leave the rest of the block alone: the receiving
    half as it is, and in the sending half no more than a sublist of `snd_buf`. -/
structure OnlyForgets (kcp kcp' : IKCPCB) : Prop where
  rcv : kcp'.rcvHalf = kcp.rcvHalf
  snd : kcp'.sndHalf = { kcp.sndHalf with sndBuf := kcp'.sndBuf.map IKCPSEG.key }
  sub : (kcp'.sndBuf.map IKCPSEG.key).Sublist (kcp.sndBuf.map IKCPSEG.key)

theorem OnlyForgets.refl (kcp : IKCPCB) : OnlyForgets kcp kcp := ⟨rfl, rfl, List.Sublist.refl _⟩

theorem OnlyForgets.trans {a b c : IKCPCB} (h : OnlyForgets a b) (h' : OnlyForgets b c) :
    OnlyForgets a c :=
  ⟨h'.rcv.trans h.rcv, by rw [h'.snd, h.snd], h'.sub.trans h.sub⟩

theorem OnlyForgets.snd_ok {kcp kcp' : IKCPCB} (h : OnlyForgets kcp kcp') {ln : Link}
    {log : List (Nat × List Byte)} {una sndNum : Nat}
    (hok : SndOk ln log una sndNum kcp.sndHalf) : SndOk ln log una sndNum kcp'.sndHalf := by
  rw [h.snd]
  exact hok.sublist h.sub

theorem ackRtt_forgets (kcp : IKCPCB) (seg : IKCPSEG) : OnlyForgets kcp (ackRtt kcp seg) := by
  rw [ackRtt]
  split
  · exact ⟨rfl, rfl, List.Sublist.refl _⟩
  · exact .refl kcp

/-- Recursion on the segments of `snd_buf`, as in the loop. -/
theorem parseUnaLoop_forgets (una : IUINT32) :
    ∀ (buf : List IKCPSEG) (kcp : IKCPCB), kcp.sndBuf = buf →
      OnlyForgets kcp (parseUnaLoop una buf kcp)
  | [], kcp, hb => by
    rw [parseUnaLoop, ← hb]
    exact .refl kcp
  | seg :: rest, kcp, hb => by
    rw [parseUnaLoop]
    split
    · refine OnlyForgets.trans ?_ (parseUnaLoop_forgets una rest _ rfl)
      have hrtt := ackRtt_forgets kcp seg
      refine ⟨hrtt.rcv, ?_, ?_⟩
      · have := hrtt.snd
        rw [IKCPCB.sndHalf, SndHalf.mk.injEq] at this ⊢
        obtain ⟨h1, h2, h3, h4, h5, h6, h7, -⟩ := this
        exact ⟨h1, h2, h3, h4, h5, h6, h7, rfl⟩
      · rw [hb]
        exact (List.sublist_cons_self seg rest).map _
    · rw [← hb]
      exact .refl kcp

/-- The segment found leaves, the others stay in their order. -/
theorem findAck_sublist (sn : IUINT32) :
    ∀ (buf : List IKCPSEG) (seg : IKCPSEG) (rest : List IKCPSEG),
      findAck sn buf = some (seg, rest) → rest.Sublist buf
  | [], _, _, h => nomatch h
  | s :: buf, seg, rest, h => by
    rw [findAck] at h
    split at h
    · cases h
      exact List.sublist_cons_self _ _
    · split at h
      · nomatch h
      · cases hrec : findAck sn buf with
        | none => rw [hrec] at h; nomatch h
        | some found =>
          rw [hrec] at h
          cases h
          exact (findAck_sublist sn buf _ _ hrec).cons_cons s

theorem ikcpParseAck_forgets (kcp : IKCPCB) (sn : IUINT32) :
    OnlyForgets kcp (ikcpParseAck kcp sn) := by
  rw [ikcpParseAck]
  split
  · exact .refl kcp
  · split
    · exact .refl kcp
    · rename_i seg rest hfound
      have hrtt := ackRtt_forgets kcp seg
      refine ⟨hrtt.rcv, ?_, (findAck_sublist sn _ _ _ hfound).map _⟩
      have := hrtt.snd
      rw [IKCPCB.sndHalf, SndHalf.mk.injEq] at this ⊢
      obtain ⟨h1, h2, h3, h4, h5, h6, h7, -⟩ := this
      exact ⟨h1, h2, h3, h4, h5, h6, h7, rfl⟩

/-- Counting overtakings changes no key. -/
theorem fastackLoop_key (sn : IUINT32) :
    ∀ buf : List IKCPSEG, (fastackLoop sn buf).map IKCPSEG.key = buf.map IKCPSEG.key
  | [] => rfl
  | seg :: rest => by
    rw [fastackLoop]
    split
    · rfl
    · split
      · exact congrArg (seg.key :: ·) (fastackLoop_key sn rest)
      · exact congrArg (seg.key :: ·) (fastackLoop_key sn rest)

theorem ikcpParseFastack_forgets (kcp : IKCPCB) (sn : IUINT32) :
    OnlyForgets kcp (ikcpParseFastack kcp sn) := by
  rw [ikcpParseFastack]
  split
  · exact .refl kcp
  · refine ⟨rfl, rfl, ?_⟩
    have hkey := fastackLoop_key sn kcp.sndBuf
    show ((fastackLoop sn kcp.sndBuf).map IKCPSEG.key).Sublist (kcp.sndBuf.map IKCPSEG.key)
    exact hkey ▸ List.Sublist.refl _

/-- The growth of the congestion window concerns neither half. -/
theorem inputCwnd_forgets (kcp : IKCPCB) (una : IUINT32) : OnlyForgets kcp (inputCwnd kcp una) := by
  rw [inputCwnd]
  split
  · dsimp only
    split <;> exact ⟨rfl, rfl, List.Sublist.refl _⟩
  · exact .refl kcp

theorem inputEnter_forgets (kcp : IKCPCB) (current : IUINT32) :
    OnlyForgets kcp (inputEnter kcp current) := by
  rw [inputEnter]
  split <;> split <;> exact ⟨rfl, rfl, List.Sublist.refl _⟩

/-! ## What goes on the wire -/

/-- A segment a sender may put on the wire while its window starts at `lo`: one that is accepted,
    and, if it carries data, a fragment of the log near `lo`. -/
structure WireOk (conv : IUINT32) (log : List (Nat × List Byte)) (lo : Nat) (seg : IKCPSEG) :
    Prop where
  accepted : Accepted conv seg
  data : seg.cmd = ikcpCmdPush ∨ seg.cmd = ikcpCmdDups →
    ∃ n, lo ≤ n ∧ n < lo + 0x8000 ∧ n < log.length ∧ seg.numbered = logEntry log n

/-- A data segment with the key of a fragment of the log. -/
theorem wireOk_of_numbered {conv : IUINT32} {log : List (Nat × List Byte)} {lo n : Nat}
    {seg : IKCPSEG} (hfits : Fits log) (hconv : seg.conv = conv)
    (hcmd : seg.cmd = ikcpCmdPush ∨ seg.cmd = ikcpCmdDups) (hnum : seg.numbered = logEntry log n)
    (h1 : lo ≤ n) (h2 : n < lo + 0x8000) (h3 : n < log.length) : WireOk conv log lo seg := by
  refine ⟨⟨hconv, ?_, ?_⟩, fun _ => ⟨n, h1, h2, h3, hnum⟩⟩
  · have hu : log[n]? = some seg.unit := (congrArg Prod.snd hnum).symm
    exact (hfits _ (List.mem_of_getElem? hu)).2
  · exact hcmd.imp_right fun hc => Or.inr (Or.inr (Or.inr hc))

section Sending

variable {ln : Link} {log : List (Nat × List Byte)} {una sndNum : Nat} {rcv : RcvHalf} {out : Out}

/-- **One transfer**: the head of `snd_queue` gets the next number. -/
theorem moveSegment_ok {kcp : IKCPCB} {seg : IKCPSEG} {rest : List IKCPSEG} {cwnd : IUINT32}
    (h : SndOk ln log una sndNum kcp.sndHalf) (hq : kcp.sndQueue = seg :: rest)
    (hcwnd : cwnd.toNat ≤ 0x7fff) (hwnd : itimediff kcp.sndNxt (kcp.sndUna + cwnd) < 0)
    (current wnd : IUINT32) :
    SndOk ln log una (sndNum + 1) (moveSegment current wnd seg rest kcp).sndHalf
      ∧ sndNum < una + 0x7fff ∧ (newSegment kcp current wnd seg).key = bufEntry ln.conv log sndNum
      ∧ sndNum < log.length := by
  have hle := h.le
  have hnear := h.near
  -- the comparison of the code is right, because the numbers are near each other
  have hlt : sndNum < una + cwnd.toNat := by
    have hu : kcp.sndUna = BitVec.ofNat 32 una := h.sndUna
    have hn : kcp.sndNxt = BitVec.ofNat 32 sndNum := h.sndNxt
    have hc : kcp.sndUna + cwnd = BitVec.ofNat 32 (una + cwnd.toNat) := by
      rw [hu, BitVec.ofNat_add, BitVec.ofNat_toNat, BitVec.setWidth_eq]
    rw [hc, hn, itimediff_ofNat (by omega) (by omega)] at hwnd
    omega
  have hqueue : seg.unit :: rest.map IKCPSEG.unit = log.drop sndNum := by
    have hdrop : kcp.sndQueue.map IKCPSEG.unit = log.drop sndNum := h.queue
    rw [← hdrop, hq, List.map_cons]
  have hlog : log[sndNum]? = some seg.unit := by
    rw [← List.head?_drop, ← hqueue]
    rfl
  have hlen : sndNum < log.length := (List.getElem?_eq_some_iff.mp hlog).1
  have hkey : (newSegment kcp current wnd seg).key = bufEntry ln.conv log sndNum := by
    have hn : kcp.sndNxt = BitVec.ofNat 32 sndNum := h.sndNxt
    have hc : kcp.conv = ln.conv := h.conv
    rw [bufEntry, logEntry, hlog, ← hn, ← hc]
    rfl
  refine ⟨?_, by omega, hkey, hlen⟩
  obtain ⟨ns, hmap, hsorted, hns⟩ := h.buf
  exact { h with
    sndNxt := by
      show kcp.sndNxt + 1 = BitVec.ofNat 32 (sndNum + 1)
      have hn : kcp.sndNxt = BitVec.ofNat 32 sndNum := h.sndNxt
      rw [hn, BitVec.ofNat_add]
      rfl
    le := by omega
    near := by omega
    len := hlen
    queue := by
      show rest.map IKCPSEG.unit = log.drop (sndNum + 1)
      rw [← List.tail_drop, ← hqueue]
      rfl
    buf := by
      refine ⟨ns ++ [sndNum], ?_, ?_, fun n hn => ?_⟩
      · show (kcp.sndBuf ++ [newSegment kcp current wnd seg]).map IKCPSEG.key = _
        have hbuf : kcp.sndBuf.map IKCPSEG.key = ns.map (bufEntry ln.conv log) := hmap
        rw [List.map_append, List.map_append, hbuf, List.map_singleton, hkey]
        rfl
      · refine List.pairwise_append.mpr ⟨hsorted, List.pairwise_singleton _ _, fun a ha b hb => ?_⟩
        rw [List.mem_singleton.mp hb]
        exact (hns a ha).2
      · rcases List.mem_append.mp hn with hn | hn
        · exact ⟨(hns n hn).1, Nat.lt_succ_of_lt (hns n hn).2⟩
        · rw [List.mem_singleton.mp hn]
          exact ⟨hle, Nat.lt_succ_self _⟩ }

/-- A segment of `snd_buf` is a fragment of the log inside the window. -/
theorem SndOk.entry {kcp : IKCPCB} (h : SndOk ln log una sndNum kcp.sndHalf) {seg : IKCPSEG}
    (hs : seg ∈ kcp.sndBuf) :
    ∃ n, una ≤ n ∧ n < sndNum ∧ seg.key = bufEntry ln.conv log n := by
  obtain ⟨ns, hmap, -, hns⟩ := h.buf
  have hkey : seg.key ∈ kcp.sndHalf.sndBuf := List.mem_map_of_mem hs
  rw [hmap] at hkey
  obtain ⟨n, hn, he⟩ := List.mem_map.mp hkey
  obtain ⟨h1, h2⟩ := hns n hn
  exact ⟨n, h1, h2, he.symm⟩

/-- The sending half as a sender called on `k₀` keeps it: more of the log may be numbered. -/
def SndKept (ln : Link) (log : List (Nat × List Byte)) (una sndNum : Nat) (k₀ kcp : IKCPCB) : Prop :=
  (∃ n, sndNum ≤ n ∧ SndOk ln log una n kcp.sndHalf) ∧ kcp.rcvHalf = k₀.rcvHalf

/-- **A sender keeps the half and puts fragments of the log on the wire.** -/
theorem sndKept_emitter {k₀ : IKCPCB} (hconv : k₀.conv = ln.conv) :
    Emitter k₀ (SndKept ln log una sndNum k₀) (WireOk ln.conv log una) where
  same := by
    rintro k k' ⟨⟨n, hle, hok⟩, hrcv⟩ he
    have hsnd : k'.sndHalf = k.sndHalf := congrArg Ground.snd he
    exact ⟨⟨n, hle, hsnd ▸ hok⟩, (congrArg Ground.rcv he).trans hrcv⟩
  half h := h.2
  push := by
    rintro k seg ⟨⟨n, -, hok⟩, -⟩ hs
    obtain ⟨m, -, -, hkey⟩ := hok.entry hs
    exact congrArg (fun k => k.2.1) hkey
  move := by
    rintro k seg rest cwnd ⟨⟨n, hle, hok⟩, hrcv⟩ hq hs - hopen current wnd
    have hcwnd : cwnd.toNat ≤ 0x7fff := Nat.le_trans hs hok.wnd
    exact ⟨⟨n + 1, by omega, (moveSegment_ok hok hq hcwnd hopen current wnd).1⟩, hrcv⟩
  control hc := by
    refine ⟨⟨hc.conv.trans hconv, ?_, ?_⟩, fun hd => ?_⟩
    · rw [IKCPSEG.len, hc.data]
      decide
    · rcases hc.cmd with h | h | h
      · exact Or.inr (Or.inl h)
      · exact Or.inr (Or.inr (Or.inl h))
      · exact Or.inr (Or.inr (Or.inr (Or.inl h)))
    · -- a control segment carries no data
      exfalso
      rcases hc.cmd with h | h | h <;> rw [h] at hd <;> exact absurd hd (by decide)
  data := by
    rintro k seg copy ⟨⟨n, -, hok⟩, -⟩ hs hcopy
    obtain ⟨m, h1, h2, hkey⟩ := hok.entry hs
    have hnear := hok.near
    have hlen := hok.len
    exact wireOk_of_numbered hok.fits (hcopy.conv.trans (congrArg Prod.fst hkey)) hcopy.cmd
      (hcopy.numbered.trans (congrArg (fun k => k.2.2) hkey)) h1 (by omega) (by omega)

/-- What a sender guarantees of the block it leaves and of the datagrams it output. -/
def Sends (ln : Link) (log : List (Nat × List Byte)) (una sndNum : Nat) (kcp : IKCPCB)
    (r : IKCPCB × List (IKCPCB × List Byte)) : Prop :=
  ∃ n, sndNum ≤ n ∧ SndOk ln log una n r.1.sndHalf ∧ r.1.rcvHalf = kcp.rcvHalf
    ∧ ∀ d ∈ r.2, Packed (WireOk ln.conv log una) d.2

theorem Emits.sends {k₀ kcp : IKCPCB} {r : IKCPCB × List (IKCPCB × List Byte)}
    (h : Emits (SndKept ln log una sndNum k₀) (WireOk ln.conv log una) r)
    (hrcv : k₀.rcvHalf = kcp.rcvHalf) : Sends ln log una sndNum kcp r := by
  obtain ⟨⟨⟨n, hle, hok⟩, hr⟩, hsent⟩ := h
  exact ⟨n, hle, hok, hr.trans hrcv, fun d hd => (hsent d hd).packed⟩

/-- **`pvp_ikcp_flush`** keeps the halves and outputs fragments of the log. -/
theorem pvpIkcpFlush_ok {kcp : IKCPCB} (h : SndOk ln log una sndNum kcp.sndHalf) :
    Sends ln log una sndNum kcp (pvpIkcpFlush kcp) :=
  (pvpIkcpFlush_emits (sndKept_emitter h.conv) ⟨⟨sndNum, Nat.le_refl _, h⟩, rfl⟩).sends rfl

theorem sendExFlush_ok {kcp : IKCPCB} (h : SndOk ln log una sndNum kcp.sndHalf)
    (current : IUINT32) :
    Sends ln log una sndNum kcp ((sendExFlush kcp current).kcp, (sendExFlush kcp current).sent) := by
  generalize hk : (if current.toNat > 0 then { kcp with current := current } else kcp) = k
  have hs : k.sndHalf = kcp.sndHalf ∧ k.rcvHalf = kcp.rcvHalf := by
    rw [← hk]
    split <;> exact ⟨rfl, rfl⟩
  rw [← hs.1] at h
  have hemit := sendExFlush_emits (sndKept_emitter h.conv)
    (⟨⟨sndNum, Nat.le_refl _, h⟩, rfl⟩ : SndKept ln log una sndNum k k) hk
  exact Emits.sends ⟨hemit.block, hemit.sent⟩ hs.2

end Sending

/-! ## Queueing a message -/

/-- The fragments of a message that is not refused fit the wire format. -/
theorem fits_cutMessage {mss : Nat} (hmss : mss < 2 ^ 16) {buffer : List Byte}
    (hcount : fragmentCount mss buffer.length < 10000) : Fits (cutMessage mss buffer) := by
  intro f hf
  obtain ⟨hmark, hlen⟩ := sendFragments_bounds mss 0 _ buffer f hf
  constructor
  · omega
  · omega

/-- **`pvp_ikcp_send`** (streaming mode off) either queues the fragments of the message or refuses it
    and changes neither half. -/
theorem pvpIkcpSend_ok {ln : Link} {log : List (Nat × List Byte)} {una sndNum : Nat}
    {kcp : IKCPCB} (hmss : ln.mss < 2 ^ 16) (h : SndOk ln log una sndNum kcp.sndHalf)
    (buffer : List Byte) (current : IUINT32) :
    (pvpIkcpSend kcp buffer current).2.rcvHalf = kcp.rcvHalf ∧
    (((pvpIkcpSend kcp buffer current).1 ≠ 0
        ∧ SndOk ln log una sndNum (pvpIkcpSend kcp buffer current).2.sndHalf)
      ∨ ((pvpIkcpSend kcp buffer current).1 = 0 ∧ fragmentCount ln.mss buffer.length < 10000
        ∧ SndOk ln (log ++ cutMessage ln.mss buffer) una sndNum
            (pvpIkcpSend kcp buffer current).2.sndHalf)) := by
  rw [pvpIkcpSend]
  generalize hk : (if current.toNat > 0 then { kcp with current := current } else kcp) = k
  have hs : k.sndHalf = kcp.sndHalf ∧ k.rcvHalf = kcp.rcvHalf := by
    rw [← hk]
    split <;> exact ⟨rfl, rfl⟩
  rw [← hs.1] at h
  have hstream : k.stream = 0 := h.stream
  have hm : k.mss = ln.mss := h.mss
  rw [if_neg (not_not_intro hstream), sendQueue]
  by_cases hcount : fragmentCount k.mss buffer.length ≥ 10000
  · rw [if_pos hcount]
    exact ⟨hs.2, Or.inl ⟨Int.negSucc_ne_zero 1, h⟩⟩
  · rw [if_neg hcount]
    rw [hm] at hcount
    have hlt : fragmentCount ln.mss buffer.length < 10000 := by omega
    refine ⟨hs.2, Or.inr ⟨rfl, hlt, ?_⟩⟩
    have hq : (k.sndQueue
          ++ sendFragments k.mss k.stream (fragmentCount k.mss buffer.length) buffer).map IKCPSEG.unit
        = k.sndHalf.sndQueue ++ cutMessage ln.mss buffer := by
      rw [hstream, hm, List.map_append]
      rfl
    -- the fragments go to the end of the log and to the end of `snd_queue`
    have happ := h.log_append (fits_cutMessage hmss hlt)
    rw [← hq] at happ
    exact happ

/-- **`pvp_ikcp_send_ex`**: the message is queued or refused as by `pvp_ikcp_send`, and what is sent
    is packed. -/
theorem pvpIkcpSendEx_ok {ln : Link} {log : List (Nat × List Byte)} {una sndNum : Nat}
    {kcp : IKCPCB} (hmss : ln.mss < 2 ^ 16) (h : SndOk ln log una sndNum kcp.sndHalf)
    (buffer : List Byte) (current : IUINT32) :
    ((pvpIkcpSendEx kcp buffer current).1 ≠ 0
        ∧ Sends ln log una sndNum kcp (pvpIkcpSendEx kcp buffer current).2)
      ∨ ((pvpIkcpSendEx kcp buffer current).1 = 0 ∧ fragmentCount ln.mss buffer.length < 10000
        ∧ Sends ln (log ++ cutMessage ln.mss buffer) una sndNum kcp
            (pvpIkcpSendEx kcp buffer current).2) := by
  obtain ⟨hr, hsend⟩ := pvpIkcpSend_ok hmss h buffer current
  rw [pvpIkcpSendEx]
  generalize pvpIkcpSend kcp buffer current = r at hr hsend
  obtain ⟨ret, k⟩ := r
  dsimp only at hr hsend ⊢
  rcases hsend with ⟨hret, hs⟩ | ⟨hret, hcount, hs⟩
  · left
    rw [if_pos hret]
    exact ⟨hret, sndNum, Nat.le_refl _, hs, hr, fun d hd => nomatch hd⟩
  · right
    rw [if_neg (not_not_intro hret)]
    split
    · exact ⟨rfl, hcount, sndNum, Nat.le_refl _, hs, hr, fun d hd => nomatch hd⟩
    · obtain ⟨n, hle, hn, hrcv, hsent⟩ := sendExFlush_ok hs current
      exact ⟨rfl, hcount, n, hle, hn, hrcv.trans hr, hsent⟩

/-! ## `pvp_ikcp_update` -/

/-- **`pvp_ikcp_update`** sends as `pvp_ikcp_flush` does. -/
theorem pvpIkcpUpdate_ok {ln : Link} {log : List (Nat × List Byte)} {una sndNum : Nat}
    {kcp : IKCPCB} (h : SndOk ln log una sndNum kcp.sndHalf) (current : IUINT32) :
    Sends ln log una sndNum kcp (pvpIkcpUpdate kcp current) := by
  have hground := updateHead_ground kcp current
  have e2 : (updateHead kcp current).2.rcvHalf = kcp.rcvHalf := congrArg Ground.rcv hground
  rw [show kcp.sndHalf = (updateHead kcp current).2.sndHalf from
    (congrArg Ground.snd hground).symm] at h
  rw [pvpIkcpUpdate]
  generalize updateHead kcp current = r at h e2
  obtain ⟨flush, k⟩ := r
  have hmid : Sends ln log una sndNum kcp (if flush then pvpIkcpFlush k else (k, [])) := by
    split
    · obtain ⟨n, hle, hs, hr, hd⟩ := pvpIkcpFlush_ok h
      exact ⟨n, hle, hs, hr.trans e2, hd⟩
    · exact ⟨sndNum, Nat.le_refl _, h, e2, fun d hd => nomatch hd⟩
  dsimp only
  generalize (if flush then pvpIkcpFlush k else (k, [])) = r at hmid
  obtain ⟨n, hle, hs, hr, hd⟩ := hmid
  have hlost := pvpIkcpUpdateLost_ground r.1 current
  have hsnd : (pvpIkcpUpdateLost r.1 current).sndHalf = r.1.sndHalf := congrArg Ground.snd hlost
  exact ⟨n, hle, hsnd.symm ▸ hs, (congrArg Ground.rcv hlost).trans hr, hd⟩

end ConnClient.Ikcp
