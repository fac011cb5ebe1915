/-
  Two control blocks and the network between them.

  A `Net` is two peers, each with its control block, the messages its application handed over and
  got back, and every datagram it ever output.  The network loses, repeats and reorders: a step may
  deliver any datagram the other side ever output, any number of times.

  The blocks number their fragments modulo `2 ^ 32`, and modulo `2 ^ 16` on the wire.  `sndNum` and
  `rcvNum` are the numbers themselves, kept beside each block by counting how far its `snd_nxt` and
  `rcv_nxt` move.  A 16-bit `sn` in a datagram stands for the number nearest to the sender's counter
  when the datagram was output (`Datagram.base`), and `timely` is the condition under which it may
  be delivered: while each data segment is looked at, its number is less than `0x8000` from the
  counter that `get_id` rebuilds it from.  Of the `sn` of an acknowledgement and of a `una` nothing
  is asked: misread, they cost retransmissions or the connection, but never a wrong byte.

  THE INVARIANT is one `Flow` for each direction.  It speaks of both ends at once: what the receiver
  has in order is a front of the LOG of the sender, the fragments of all messages it accepted, and
  every datagram ever output carries fragments of that log.  The log is never forgotten, so a datagram
  that is delivered for the second time, or late, is judged by the same log as the first time; and it
  only grows, so what was true of a datagram when it was output stays true (`Datagram.Ok.log_append`).

  A step of one peer is seen twice, once in the direction it sends on and once in the direction it
  receives on: a sender changes the first (`Flow.transmit`) and leaves the second alone
  (`Flow.transmit_rcv`), a receiving call the other way round (`Flow.take`, `Flow.take_snd`).

  `received_prefix` is the result: whatever the interleaving, what an application received is a
  prefix of what the other one sent.
-/
import ConnClient.Lib.Run
import ConnClient.Ikcp.Sender

namespace ConnClient.Ikcp

open ConnClient.Lib

/-! ## Peers and the network -/

/-- A datagram on the network, with the number its sender's `snd_nxt` stood for when it was output. -/
structure Datagram where
  bytes : List Byte
  base : Nat

/-- One end of the connection. -/
structure Peer where
  kcp : IKCPCB
  /-- The messages `pvp_ikcp_send` or `pvp_ikcp_send_ex` accepted, in order. -/
  accepted : List (List Byte)
  /-- The messages `pvp_ikcp_recv` returned, in order. -/
  received : List (List Byte)
  sndNum : Nat
  rcvNum : Nat
  /-- Every datagram output so far. -/
  wire : List Datagram

inductive Side where
  | a
  | b
  deriving DecidableEq

def Side.other : Side → Side
  | .a => .b
  | .b => .a

abbrev Net := Side → Peer

/-- What the application, the clock or the network does to a peer. -/
inductive Act where
  | send (msg : List Byte) (current : IUINT32)
  | sendEx (msg : List Byte) (current : IUINT32)
  | update (current : IUINT32)
  | flush
  /-- Not peeking, with a buffer of `len` bytes. -/
  | recv (len : Nat)
  /-- Datagram number `d` of the other side arrives. -/
  | input (d : Nat) (current : IUINT32)

/-- A sender returned: the block, the numbers given out, and the datagrams. -/
def Peer.transmit (p : Peer) (r : IKCPCB × List (IKCPCB × List Byte)) : Peer :=
  let sndNum := p.sndNum + advance p.kcp.sndNxt r.1.sndNxt
  { p with kcp := r.1, sndNum := sndNum, wire := p.wire ++ r.2.map fun d => ⟨d.2, sndNum⟩ }

/-- A message is accepted when the sender returns `0`. -/
def Peer.accept (p : Peer) (ret : Int) (msg : List Byte) : Peer :=
  if ret = 0 then { p with accepted := p.accepted ++ [msg] } else p

/-- A receiving call returned: the block, and how far `rcv_nxt` moved. -/
def Peer.take (p : Peer) (kcp : IKCPCB) : Peer :=
  { p with kcp := kcp, rcvNum := p.rcvNum + advance p.kcp.rcvNxt kcp.rcvNxt }

/-- A step of peer `p`, whose other side is `q`; there is none for a datagram never output. -/
def Peer.step (p q : Peer) : Act → Except Unit Peer
  | .send msg current =>
    let (ret, kcp) := pvpIkcpSend p.kcp msg current
    .ok ((p.accept ret msg).transmit (kcp, []))
  | .sendEx msg current =>
    let (ret, r) := pvpIkcpSendEx p.kcp msg current
    .ok ((p.accept ret msg).transmit r)
  | .update current => .ok (p.transmit (pvpIkcpUpdate p.kcp current))
  | .flush => .ok (p.transmit (pvpIkcpFlush p.kcp))
  | .recv len =>
    let (r, kcp) := pvpIkcpRecv p.kcp len
    let p := p.take kcp
    .ok (if r.ret ≥ 0 then { p with received := p.received ++ [r.bytes] } else p)
  | .input d current =>
    match q.wire[d]? with
    | none => .error ()
    | some dg => .ok (p.take (pvpIkcpInput p.kcp dg.bytes current).2)

/-- A step of the network: side `i.1` does `i.2`. -/
def netStep (i : Side × Act) (s : Net) : Except Unit Net :=
  match (s i.1).step (s i.1.other) i.2 with
  | .error e => .error e
  | .ok p => .ok fun x => if x = i.1 then p else s x

/-- While the loop of `pvp_ikcp_input` goes through a datagram, every data segment it accepts stands
    for a number less than `0x8000` from what `rcv_nxt` then stands for. -/
def timely (base : Nat) : Nat → List Byte → Nat → InputSt → Bool
  | 0, _, _, _ => true
  | n + 1, data, rcvNum, st =>
    match parseSeg st.kcp.conv data with
    | .stop => true
    | .fail _ => true
    | .seg head payload rest =>
      (!(head.cmd == ikcpCmdPush || head.cmd == ikcpCmdDups)
        || decide (near base head.tmpSn - rcvNum > -0x8000)
          && decide (near base head.tmpSn - rcvNum < 0x8000))
      && timely base n rest (rcvNum + advance st.kcp.rcvNxt (inputSeg st head payload).kcp.rcvNxt)
        (inputSeg st head payload)

/-- The condition on a step: a datagram arrives in time. -/
def Timely (s : Net) (i : Side × Act) : Bool :=
  match i.2 with
  | .input d current =>
    match (s i.1.other).wire[d]? with
    | some dg => timely dg.base dg.bytes.length dg.bytes (s i.1).rcvNum
        { kcp := inputEnter (s i.1).kcp current, flag := false, maxack := 0 }
    | none => true
  | _ => true

/-- A block that was created and then configured, in any way. -/
inductive Configured (conv : IUINT32) : IKCPCB → Prop where
  | create : Configured conv (pvpIkcpCreate conv)
  | setmtu {kcp : IKCPCB} (h : Configured conv kcp) (mtu : Int) :
      Configured conv (pvpIkcpSetmtu kcp mtu).2
  | nodelay {kcp : IKCPCB} (h : Configured conv kcp) (nodelay interval resend nc : Int) :
      Configured conv (pvpIkcpNodelay kcp nodelay interval resend nc)
  | wndsize {kcp : IKCPCB} (h : Configured conv kcp) (sndwnd rcvwnd : Int) :
      Configured conv (pvpIkcpWndsize kcp sndwnd rcvwnd)
  | setdupsend {kcp : IKCPCB} (h : Configured conv kcp)
      (count dupack dupDynamic dupWait dupWndOn : Int) :
      Configured conv (pvpIkcpSetdupsend kcp count dupack dupDynamic dupWait dupWndOn)
  | intervalLost {kcp : IKCPCB} (h : Configured conv kcp) (interval : Int) :
      Configured conv (pvpIkcpIntervalLost kcp interval)
  | fields {kcp : IKCPCB} (h : Configured conv kcp) (rxMinrto fastresend : Int) :
      Configured conv { kcp with rxMinrto := rxMinrto, fastresend := fastresend }

/-- A peer at the start: windows of at most `0x7fff`, and segments whose length fits the wire
    format's 16 bits. -/
structure Peer.Start (conv : IUINT32) (p : Peer) : Prop where
  kcp : Configured conv p.kcp
  sndWnd : p.kcp.sndWnd.toNat ≤ 0x7fff
  rcvWnd : p.kcp.rcvWnd.toNat ≤ 0x7fff
  mss : p.kcp.mss < 2 ^ 16
  accepted : p.accepted = []
  received : p.received = []
  sndNum : p.sndNum = 0
  rcvNum : p.rcvNum = 0
  wire : p.wire = []

/-- The start of the network: two blocks with the same `conv`, else configured independently. -/
def Start (conv : IUINT32) (s : Net) : Prop := ∀ x, (s x).Start conv

/-! ## One segment -/

theorem sndHalf_pvpIkcpRecv (kcp : IKCPCB) (len : Int) :
    (pvpIkcpRecv kcp len).2.sndHalf = kcp.sndHalf := by
  obtain ⟨_, _, _, _, _, _, hset⟩ := pvpIkcpRecv_eq kcp len
  rw [hset]
  rfl

theorem sndHalf_inputData (kcp : IKCPCB) (head : SegHead) (una : IUINT32) (payload : List Byte) :
    (inputData kcp head una payload).sndHalf = kcp.sndHalf := by
  obtain ⟨_, _, _, _, _, _, _, _, hset⟩ := inputData_eq kcp head una payload
  rw [hset]
  rfl

/-- What the acknowledgements in a segment do: they only forget, and move `snd_una`, to whatever
    number is left in front. -/
structure Settles (kcp kcp' : IKCPCB) : Prop where
  conv : kcp'.conv = kcp.conv
  nxt : kcp'.sndNxt = kcp.sndNxt
  rcv : kcp'.rcvHalf = kcp.rcvHalf
  snd : ∀ {ln : Link} {log : List (Nat × List Byte)} {una sndNum : Nat},
    SndOk ln log una sndNum kcp.sndHalf → ∃ una', SndOk ln log una' sndNum kcp'.sndHalf

theorem Settles.trans {k1 k2 k3 : IKCPCB} (h : Settles k1 k2) (h' : Settles k2 k3) :
    Settles k1 k3 :=
  ⟨h'.conv.trans h.conv, h'.nxt.trans h.nxt, h'.rcv.trans h.rcv,
    fun hok => (h.snd hok).elim fun _ h2 => h'.snd h2⟩

theorem OnlyForgets.settles {kcp kcp' : IKCPCB} (h : OnlyForgets kcp kcp') : Settles kcp kcp' :=
  ⟨congrArg SndHalf.conv h.snd, congrArg SndHalf.sndNxt h.snd, h.rcv, fun hok => ⟨_, h.snd_ok hok⟩⟩

theorem ikcpShrinkBuf_settles (kcp : IKCPCB) : Settles kcp (ikcpShrinkBuf kcp) := by
  have hok : ∀ {ln log una sndNum}, SndOk ln log una sndNum kcp.sndHalf →
      ∃ una', SndOk ln log una' sndNum (ikcpShrinkBuf kcp).sndHalf := by
    intro ln log una sndNum h
    obtain ⟨una', -, h'⟩ := ikcpShrinkBuf_ok h
    exact ⟨una', h'⟩
  obtain ⟨_, hset⟩ := ikcpShrinkBuf_eq kcp
  rw [hset] at hok ⊢
  exact ⟨rfl, rfl, rfl, hok⟩

/-- The part of a round that every segment goes through. -/
theorem una_settles (kcp : IKCPCB) (wnd una : IUINT32) :
    Settles kcp (ikcpShrinkBuf (ikcpParseUna { kcp with rmtWnd := wnd } una)) := by
  have h0 : OnlyForgets kcp { kcp with rmtWnd := wnd } := ⟨rfl, rfl, List.Sublist.refl _⟩
  have h1 := parseUnaLoop_forgets una kcp.sndBuf { kcp with rmtWnd := wnd } rfl
  exact (h0.trans h1).settles.trans (ikcpShrinkBuf_settles _)

/-- A round on a segment without data only settles acknowledgements. -/
theorem inputSeg_settles (st : InputSt) (head : SegHead) (payload : List Byte)
    (h : ¬ (head.cmd = ikcpCmdPush ∨ head.cmd = ikcpCmdDups)) :
    Settles st.kcp (inputSeg st head payload).kcp := by
  have huna := una_settles st.kcp (head.wnd.setWidth 32) (getId st.kcp.sndNxt head.tmpUna)
  have hack : ∀ k sn, Settles k (ikcpShrinkBuf (ikcpParseAck k sn)) := fun k sn =>
    (ikcpParseAck_forgets k sn).settles.trans (ikcpShrinkBuf_settles _)
  rw [inputSeg]
  dsimp only
  by_cases hcmd : head.cmd = ikcpCmdAck
  · rw [if_pos hcmd]
    split <;> exact huna.trans (hack _ _)
  · rw [if_neg hcmd, if_neg h]
    split
    · exact huna.trans (OnlyForgets.settles ⟨rfl, rfl, List.Sublist.refl _⟩)
    · exact huna

/-- A round on a data segment settles its `una` and then takes the data in. -/
theorem inputSeg_data (st : InputSt) (head : SegHead) (payload : List Byte)
    (h : head.cmd = ikcpCmdPush ∨ head.cmd = ikcpCmdDups) :
    ∃ k una, Settles st.kcp k ∧ (inputSeg st head payload).kcp = inputData k head una payload := by
  have huna := una_settles st.kcp (head.wnd.setWidth 32) (getId st.kcp.sndNxt head.tmpUna)
  have hack : head.cmd ≠ ikcpCmdAck := by
    rcases h with h | h <;> rw [h] <;> decide
  refine ⟨_, getId st.kcp.sndNxt head.tmpUna, huna, ?_⟩
  rw [inputSeg]
  dsimp only
  rw [if_neg hack, if_pos h]

theorem inputSeg_conv (st : InputSt) (seg : IKCPSEG) :
    (inputSeg st seg.head seg.data).kcp.conv = st.kcp.conv := by
  by_cases h : seg.head.cmd = ikcpCmdPush ∨ seg.head.cmd = ikcpCmdDups
  · obtain ⟨k, una, hk, he⟩ := inputSeg_data st seg.head seg.data h
    rw [he, ← hk.conv]
    exact congrArg SndHalf.conv (sndHalf_inputData k seg.head una seg.data)
  · exact (inputSeg_settles st seg.head seg.data h).conv

/-! ## A whole datagram -/

section Input

variable {lnp lnq : Link} {logp logq taken : List (Nat × List Byte)}

/-- **One segment of a peer's datagram**, in time if it carries data, keeps both halves. -/
theorem inputSeg_ok {lo base una sndNum rcvNum : Nat} {st : InputSt} {seg : IKCPSEG}
    (hs : SndOk lnp logp una sndNum st.kcp.sndHalf) (hr : RcvOk logq taken rcvNum st.kcp)
    (hfits : Fits logq) (hseg : WireOk lnq.conv logq lo seg) (hlo : lo ≤ base)
    (hbase : base ≤ lo + 0x7fff)
    (hnear : seg.head.cmd = ikcpCmdPush ∨ seg.head.cmd = ikcpCmdDups →
      near base seg.head.tmpSn - rcvNum > -0x8000 ∧ near base seg.head.tmpSn - rcvNum < 0x8000) :
    ∃ una' n, SndOk lnp logp una' sndNum (inputSeg st seg.head seg.data).kcp.sndHalf
      ∧ rcvNum ≤ n ∧ RcvOk logq taken n (inputSeg st seg.head seg.data).kcp := by
  by_cases hd : seg.head.cmd = ikcpCmdPush ∨ seg.head.cmd = ikcpCmdDups
  · obtain ⟨k, u, hk, he⟩ := inputSeg_data st seg.head seg.data hd
    obtain ⟨una', hs'⟩ := hk.snd hs
    obtain ⟨m, h1, h2, h3, hnum⟩ := hseg.data hd
    have hsn : seg.sn = BitVec.ofNat 32 m := congrArg Prod.fst hnum
    -- the 16 bits stand for the number of the fragment, which lies in the window of its sender
    have hm : near base seg.head.tmpSn = (m : Int) := by
      show near base (seg.sn.setWidth 16) = _
      rw [hsn, BitVec.setWidth_ofNat_of_le (by decide), near_ofNat (by omega) (by omega)]
    obtain ⟨hn1, hn2⟩ := hnear hd
    have hu : logq[m]? = some seg.unit := (congrArg Prod.snd hnum).symm
    obtain ⟨n, hle, hr'⟩ := inputData_ok (hr.congr hk.rcv) hnum
      (hfits _ (List.mem_of_getElem? hu)).1 h3 (by omega) (by omega) u
    refine ⟨una', n, ?_, hle, ?_⟩
    · rw [he, sndHalf_inputData]
      exact hs'
    · rw [he]
      exact hr'
  · have hk := inputSeg_settles st seg.head seg.data hd
    obtain ⟨una', hs'⟩ := hk.snd hs
    exact ⟨una', rcvNum, hs', Nat.le_refl _, hr.congr hk.rcv⟩

/-- **A datagram in time** keeps both halves.  Induction on its segments. -/
theorem inputSegs_ok {lo base sndNum : Nat} (hfits : Fits logq) (hlo : lo ≤ base)
    (hbase : base ≤ lo + 0x7fff) (segs : List IKCPSEG) (k una rcvNum : Nat) (st : InputSt)
    (hk : segs.length ≤ k) (hsegs : ∀ seg ∈ segs, WireOk lnq.conv logq lo seg)
    (hconv : st.kcp.conv = lnq.conv) (hs : SndOk lnp logp una sndNum st.kcp.sndHalf)
    (hr : RcvOk logq taken rcvNum st.kcp)
    (ht : timely base k (segs.flatMap ikcpSegBytes) rcvNum st = true) :
    ∃ una' n, SndOk lnp logp una' sndNum (inputSegs segs st).kcp.sndHalf
      ∧ rcvNum ≤ n ∧ RcvOk logq taken n (inputSegs segs st).kcp := by
  induction segs generalizing k una rcvNum st with
  | nil => exact ⟨una, rcvNum, hs, Nat.le_refl _, hr⟩
  | cons seg segs ih =>
    cases k with
    | zero => exact absurd hk (Nat.not_succ_le_zero _)
    | succ k =>
      have hseg := hsegs seg (List.mem_cons_self ..)
      rw [List.flatMap_cons, timely, hconv, parseSeg_segBytes hseg.accepted] at ht
      dsimp only at ht
      rw [Bool.and_eq_true] at ht
      obtain ⟨hnow, hlater⟩ := ht
      obtain ⟨una1, n1, hs1, hle1, hr1⟩ := inputSeg_ok hs hr hfits hseg hlo hbase (by
        intro hd
        have hd' : (seg.head.cmd == ikcpCmdPush || seg.head.cmd == ikcpCmdDups) = true := by
          rcases hd with hd | hd <;> rw [hd] <;> decide
        rw [hd', Bool.not_true, Bool.false_or, Bool.and_eq_true, decide_eq_true_eq,
          decide_eq_true_eq] at hnow
        exact hnow)
      -- the counter kept in `timely` is the number of the invariant
      rw [hr.advance hr1 hle1] at hlater
      obtain ⟨una', n, hs', hle', hr'⟩ := ih k una1 n1 _ (Nat.le_of_succ_le_succ hk)
        (fun s h => hsegs s (List.mem_cons_of_mem _ h)) ((inputSeg_conv st seg).trans hconv) hs1 hr1
        hlater
      exact ⟨una', n, hs', Nat.le_trans hle1 hle', hr'⟩

/-- **`pvp_ikcp_input`** of a peer's datagram. -/
theorem pvpIkcpInput_ok {lo base una sndNum rcvNum : Nat} {kcp : IKCPCB} {bytes : List Byte}
    {current : IUINT32} (hfits : Fits logq) (hlo : lo ≤ base) (hbase : base ≤ lo + 0x7fff)
    (hconv : lnp.conv = lnq.conv) (hs : SndOk lnp logp una sndNum kcp.sndHalf)
    (hr : RcvOk logq taken rcvNum kcp) (hp : Packed (WireOk lnq.conv logq lo) bytes)
    (ht : timely base bytes.length bytes rcvNum
      { kcp := inputEnter kcp current, flag := false, maxack := 0 } = true) :
    ∃ una' n, SndOk lnp logp una' sndNum (pvpIkcpInput kcp bytes current).2.sndHalf
      ∧ rcvNum ≤ n ∧ RcvOk logq taken n (pvpIkcpInput kcp bytes current).2 := by
  have henter := inputEnter_forgets kcp current
  have hs0 := henter.snd_ok hs
  have hr0 := hr.congr henter.rcv
  obtain ⟨segs, rfl, hsegs⟩ := hp
  have hc0 : (inputEnter kcp current).conv = lnq.conv := hs0.conv.trans hconv
  rw [pvpIkcpInput]
  split
  · exact ⟨una, rcvNum, hs0, Nat.le_refl _, hr0⟩
  · -- the decoder finds the segments that were encoded, and the loop goes through them
    rw [inputLoop_packed inputSeg_conv segs _ { kcp := inputEnter kcp current, flag := false, maxack := 0 }
      (length_segs_le segs) hc0 (fun seg h => (hsegs seg h).accepted)]
    obtain ⟨una1, n, hs1, hle, hr1⟩ := inputSegs_ok hfits hlo hbase segs _ una rcvNum
      { kcp := inputEnter kcp current, flag := false, maxack := 0 } (length_segs_le segs) hsegs hc0 hs0 hr0 ht
    have hcwnd : ∀ k : IKCPCB, Settles k (inputCwnd k (inputEnter kcp current).sndUna) :=
      fun k => (inputCwnd_forgets k _).settles
    have htail : Settles (inputSegs segs
          { kcp := inputEnter kcp current, flag := false, maxack := 0 }).kcp
        (inputCwnd (if (inputSegs segs
            { kcp := inputEnter kcp current, flag := false, maxack := 0 }).flag
          then ikcpParseFastack (inputSegs segs
              { kcp := inputEnter kcp current, flag := false, maxack := 0 }).kcp (inputSegs segs
              { kcp := inputEnter kcp current, flag := false, maxack := 0 }).maxack
          else (inputSegs segs { kcp := inputEnter kcp current, flag := false, maxack := 0 }).kcp)
          (inputEnter kcp current).sndUna) := by
      split
      · exact (ikcpParseFastack_forgets _ _).settles.trans (hcwnd _)
      · exact hcwnd _
    obtain ⟨una', hs'⟩ := htail.snd hs1
    exact ⟨una', n, hs', hle, hr1.congr htail.rcv⟩

end Input

/-! ## The invariant of one direction -/

/-- The fragments of the messages a peer accepted. -/
def Peer.log (ln : Link) (p : Peer) : List (Nat × List Byte) :=
  p.accepted.flatMap (cutMessage ln.mss)

/-- A datagram of a peer with this log: its window began at some `lo` when it was output, and its
    data is of the log from there on. -/
def Datagram.Ok (ln : Link) (log : List (Nat × List Byte)) (d : Datagram) : Prop :=
  ∃ lo, lo ≤ d.base ∧ d.base ≤ lo + 0x7fff ∧ Packed (WireOk ln.conv log lo) d.bytes

/-- The direction from `p` to `q`: `p` sends the log of what it accepted, its datagrams carry
    fragments of it, and `q` has received a prefix.  Of the `una` of the sender it is said only that
    there is one. -/
structure Flow (ln : Link) (p q : Peer) : Prop where
  snd : ∃ una, SndOk ln (p.log ln) una p.sndNum p.kcp.sndHalf
  count : ∀ m ∈ p.accepted, fragmentCount ln.mss m.length < 10000
  wire : ∀ d ∈ p.wire, d.Ok ln (p.log ln)
  rcv : RcvOk (p.log ln) (q.received.flatMap (cutMessage ln.mss)) q.rcvNum q.kcp
  pre : q.received <+: p.accepted

theorem Datagram.Ok.log_append {ln : Link} {log : List (Nat × List Byte)} {d : Datagram}
    (h : d.Ok ln log) (more : List (Nat × List Byte)) : d.Ok ln (log ++ more) := by
  obtain ⟨lo, h1, h2, hp⟩ := h
  refine ⟨lo, h1, h2, hp.mono fun seg hs => ⟨hs.accepted, fun hd => ?_⟩⟩
  obtain ⟨n, hn1, hn2, hn3, hnum⟩ := hs.data hd
  refine ⟨n, hn1, hn2, by rw [List.length_append]; omega, ?_⟩
  rw [hnum, logEntry, logEntry, List.getElem?_append_left hn3]

section Step

variable {ln : Link} {p q : Peer}

/-- What `p` does as a sender, given the messages it accepts meanwhile. -/
theorem Flow.transmit (h : Flow ln p q) {msgs : List (List Byte)}
    {r : IKCPCB × List (IKCPCB × List Byte)}
    (hcount : ∀ m ∈ msgs, fragmentCount ln.mss m.length < 10000)
    (hs : ∀ una, SndOk ln (p.log ln) una p.sndNum p.kcp.sndHalf →
      Sends ln (p.log ln ++ msgs.flatMap (cutMessage ln.mss)) una p.sndNum p.kcp r) :
    Flow ln ({ p with accepted := p.accepted ++ msgs }.transmit r) q := by
  obtain ⟨una, hok⟩ := h.snd
  obtain ⟨n, hle, hs', -, hsent⟩ := hs una hok
  have hlog : ({ p with accepted := p.accepted ++ msgs }.transmit r).log ln
      = p.log ln ++ msgs.flatMap (cutMessage ln.mss) := List.flatMap_append
  -- the counter did not move so far that its residues could be misread
  have hnum : ({ p with accepted := p.accepted ++ msgs }.transmit r).sndNum = n := by
    show p.sndNum + advance p.kcp.sndNxt r.1.sndNxt = n
    have h1 : p.kcp.sndNxt = BitVec.ofNat 32 p.sndNum := hok.sndNxt
    have h2 : r.1.sndNxt = BitVec.ofNat 32 n := hs'.sndNxt
    have h3 := hs'.near
    have h4 := hok.le
    rw [h1, h2]
    exact advance_ofNat hle (by omega)
  refine ⟨⟨una, ?_⟩, fun m hm => ?_, fun d hd => ?_, ?_, ?_⟩
  · rw [hlog, hnum]
    exact hs'
  · exact (List.mem_append.mp hm).elim (h.count m) (hcount m)
  · rw [hlog]
    rcases List.mem_append.mp hd with hd | hd
    · exact (h.wire d hd).log_append _
    · obtain ⟨x, hx, rfl⟩ := List.mem_map.mp hd
      refine ⟨una, ?_, ?_, hsent x hx⟩
      · show una ≤ p.sndNum + advance p.kcp.sndNxt r.1.sndNxt
        have := hok.le
        omega
      · show ({ p with accepted := p.accepted ++ msgs }.transmit r).sndNum ≤ una + 0x7fff
        rw [hnum]
        exact hs'.near
  · rw [hlog]
    exact h.rcv.log_append _
  · exact h.pre.trans (List.prefix_append _ _)

/-- Seen from the other direction, a sender leaves the receiving half alone. -/
theorem Flow.transmit_rcv (h : Flow ln q p) {p' : Peer} (hk : p'.kcp.rcvHalf = p.kcp.rcvHalf)
    (hr : p'.received = p.received) (hn : p'.rcvNum = p.rcvNum) : Flow ln q p' :=
  ⟨h.snd, h.count, h.wire, by rw [hr, hn]; exact h.rcv.congr hk, by rw [hr]; exact h.pre⟩

/-- What `q` does as a receiver, given the messages it hands out meanwhile. -/
theorem Flow.take (h : Flow ln p q) {q' : Peer} {n : Nat} (hpre : q'.received <+: p.accepted)
    (hnum : q'.rcvNum = q.rcvNum + advance q.kcp.rcvNxt q'.kcp.rcvNxt)
    (hn : q.rcvNum + advance q.kcp.rcvNxt q'.kcp.rcvNxt = n)
    (hr : RcvOk (p.log ln) (q'.received.flatMap (cutMessage ln.mss)) n q'.kcp) : Flow ln p q' := by
  refine ⟨h.snd, h.count, h.wire, ?_, hpre⟩
  rw [hnum, hn]
  exact hr

/-- Seen from the other direction, a receiving call is a sending half that forgot something. -/
theorem Flow.take_snd (h : Flow ln q p) {q' : Peer} (ha : q'.accepted = q.accepted)
    (hn : q'.sndNum = q.sndNum) (hw : q'.wire = q.wire)
    (hs : ∃ una, SndOk ln (q.log ln) una q.sndNum q'.kcp.sndHalf) : Flow ln q' p := by
  have hlog : q'.log ln = q.log ln := by rw [Peer.log, ha, Peer.log]
  refine ⟨?_, ?_, ?_, ?_, ?_⟩
  · rw [hlog, hn]
    exact hs
  · rw [ha]
    exact h.count
  · rw [hw, hlog]
    exact h.wire
  · rw [hlog]
    exact h.rcv
  · rw [ha]
    exact h.pre

theorem accept_eq (p : Peer) (ret : Int) (msg : List Byte) :
    p.accept ret msg = { p with accepted := p.accepted ++ if ret = 0 then [msg] else [] } := by
  rw [Peer.accept]
  split
  · rfl
  · rw [List.append_nil]

/-- **A sending step.**  `msg` is accepted when `ret` is `0`. -/
theorem flow_sends {lnq : Link} {ret : Int} {msg : List Byte}
    {r : IKCPCB × List (IKCPCB × List Byte)} (hpq : Flow ln p q) (hqp : Flow lnq q p)
    (hs : ∀ una, SndOk ln (p.log ln) una p.sndNum p.kcp.sndHalf →
      (ret ≠ 0 ∧ Sends ln (p.log ln) una p.sndNum p.kcp r)
      ∨ (ret = 0 ∧ fragmentCount ln.mss msg.length < 10000
        ∧ Sends ln (p.log ln ++ cutMessage ln.mss msg) una p.sndNum p.kcp r)) :
    Flow ln ((p.accept ret msg).transmit r) q ∧ Flow lnq q ((p.accept ret msg).transmit r) := by
  rw [accept_eq]
  obtain ⟨una0, hok⟩ := hpq.snd
  have hrcv : r.1.rcvHalf = p.kcp.rcvHalf := by
    rcases hs una0 hok with ⟨_, _, _, _, h, _⟩ | ⟨_, _, _, _, _, h, _⟩
    · exact h
    · exact h
  refine ⟨hpq.transmit ?_ fun una hu => ?_, hqp.transmit_rcv hrcv rfl rfl⟩
  · rcases hs una0 hok with ⟨hret, _⟩ | ⟨hret, hcount, _⟩
    · rw [if_neg hret]
      exact fun m hm => nomatch hm
    · rw [if_pos hret]
      intro m hm
      rw [List.mem_singleton.mp hm]
      exact hcount
  · rcases hs una hu with ⟨hret, h⟩ | ⟨hret, _, h⟩
    · rw [if_neg hret, List.flatMap_nil, List.append_nil]
      exact h
    · rw [if_pos hret, List.flatMap_singleton]
      exact h

/-- **A sending step without a message.** -/
theorem flow_flushes {lnq : Link} {r : IKCPCB × List (IKCPCB × List Byte)} (hpq : Flow ln p q)
    (hqp : Flow lnq q p)
    (hs : ∀ una, SndOk ln (p.log ln) una p.sndNum p.kcp.sndHalf →
      Sends ln (p.log ln) una p.sndNum p.kcp r) :
    Flow ln (p.transmit r) q ∧ Flow lnq q (p.transmit r) := by
  -- a message that is refused is no message
  exact @flow_sends _ _ _ _ 1 [] r hpq hqp fun una hu => Or.inl ⟨Int.one_ne_zero, hs una hu⟩

/-- **Receiving a message.** -/
theorem flow_recv {lnq : Link} (hmss : 0 < lnq.mss) (hpq : Flow ln p q) (hqp : Flow lnq q p)
    (len : Nat) {p' : Peer} (h : p.step q (.recv len) = .ok p') :
    Flow ln p' q ∧ Flow lnq q p' := by
  obtain ⟨more, hmore⟩ := hqp.pre
  -- the log is what was handed out, and behind it the fragments of whole messages
  have hlog : q.log lnq = p.received.flatMap (cutMessage lnq.mss)
      ++ more.flatMap (cutMessage lnq.mss) := by
    rw [Peer.log, ← hmore, List.flatMap_append]
  have hcut : ∀ m ∈ more, Whole (cutMessage lnq.mss m) m := fun m hm =>
    whole_cutMessage hmss (hqp.count m (hmore ▸ List.mem_append_right _ hm))
  have hsnd : (pvpIkcpRecv p.kcp len).2.sndHalf = p.kcp.sndHalf := sndHalf_pvpIkcpRecv p.kcp len
  have hstep : p' = (if (pvpIkcpRecv p.kcp len).1.ret ≥ 0 then
      { p.take (pvpIkcpRecv p.kcp len).2 with
        received := p.received ++ [(pvpIkcpRecv p.kcp len).1.bytes] }
      else p.take (pvpIkcpRecv p.kcp len).2) := (Except.ok.inj h).symm
  have hsame : p'.accepted = p.accepted ∧ p'.sndNum = p.sndNum ∧ p'.wire = p.wire
      ∧ p'.kcp = (pvpIkcpRecv p.kcp len).2
      ∧ p'.rcvNum = p.rcvNum + advance p.kcp.rcvNxt (pvpIkcpRecv p.kcp len).2.rcvNxt := by
    rw [hstep]
    split <;> exact ⟨rfl, rfl, rfl, rfl, rfl⟩
  obtain ⟨ha, hn, hw, hk, hrn⟩ := hsame
  refine ⟨hpq.take_snd ha hn hw ?_, ?_⟩
  · rw [hk, hsnd]
    exact hpq.snd
  · rcases pvpIkcpRecv_ok hqp.rcv hlog hcut len with ⟨hneg, hkeep⟩ | ⟨m, ms', n, hms, hret, hnext, hr⟩
    · have hrecv : p'.received = p.received := by
        rw [hstep, if_neg (by omega)]
        rfl
      refine hqp.take (n := p.rcvNum) (hrecv ▸ hqp.pre) (by rw [hk]; exact hrn) ?_ ?_
      · rw [hk, hkeep]
        exact hqp.rcv.advance hqp.rcv (Nat.le_refl _)
      · rw [hk, hkeep, hrecv]
        exact hqp.rcv
    · have hrecv : p'.received = p.received ++ [m] := by
        rw [hstep, hret, if_pos (Int.natCast_nonneg _)]
      have htaken : p'.received.flatMap (cutMessage lnq.mss)
          = p.received.flatMap (cutMessage lnq.mss) ++ cutMessage lnq.mss m := by
        rw [hrecv, List.flatMap_append, List.flatMap_singleton]
      refine hqp.take (n := n) ?_ (by rw [hk]; exact hrn) (by rw [hk]; exact hnext) ?_
      · rw [hrecv, ← hmore, hms]
        exact ⟨ms', by rw [List.append_assoc]; rfl⟩
      · rw [hk, htaken]
        exact hr

/-- **A datagram arrives in time.** -/
theorem flow_input {lnq : Link} (hconv : ln.conv = lnq.conv) (hpq : Flow ln p q)
    (hqp : Flow lnq q p) {d : Nat} {current : IUINT32} {p' : Peer}
    (ht : ∀ dg, q.wire[d]? = some dg → timely dg.base dg.bytes.length dg.bytes p.rcvNum
      { kcp := inputEnter p.kcp current, flag := false, maxack := 0 } = true)
    (h : p.step q (.input d current) = .ok p') : Flow ln p' q ∧ Flow lnq q p' := by
  rw [Peer.step] at h
  cases hw : q.wire[d]? with
  | none => rw [hw] at h; nomatch h
  | some dg =>
    rw [hw] at h
    cases h
    obtain ⟨una, hs⟩ := hpq.snd
    obtain ⟨unaq, hsq⟩ := hqp.snd
    obtain ⟨lo, hlo, hbase, hp⟩ := hqp.wire dg (List.mem_of_getElem? hw)
    obtain ⟨una', n, hs', hle, hr⟩ :=
      pvpIkcpInput_ok hsq.fits hlo hbase hconv hs hqp.rcv hp (ht dg hw)
    exact ⟨hpq.take_snd rfl rfl rfl ⟨una', hs'⟩,
      hqp.take hqp.pre rfl (hqp.rcv.advance hr hle) hr⟩

/-- **Every step of a peer keeps both directions.** -/
theorem flow_step {lnq : Link} (hconv : ln.conv = lnq.conv) (hmss : ln.mss < 2 ^ 16)
    (hmssq : 0 < lnq.mss) (hpq : Flow ln p q) (hqp : Flow lnq q p) {act : Act} {p' : Peer}
    (ht : ∀ d current dg, act = .input d current → q.wire[d]? = some dg →
      timely dg.base dg.bytes.length dg.bytes p.rcvNum
        { kcp := inputEnter p.kcp current, flag := false, maxack := 0 } = true)
    (h : p.step q act = .ok p') : Flow ln p' q ∧ Flow lnq q p' := by
  cases act with
  | send msg current =>
    cases h
    refine flow_sends hpq hqp fun una hu => ?_
    obtain ⟨hr, hsend⟩ := pvpIkcpSend_ok hmss hu msg current
    rcases hsend with ⟨hret, hs⟩ | ⟨hret, hcount, hs⟩
    · exact Or.inl ⟨hret, p.sndNum, Nat.le_refl _, hs, hr, fun d hd => nomatch hd⟩
    · exact Or.inr ⟨hret, hcount, p.sndNum, Nat.le_refl _, hs, hr, fun d hd => nomatch hd⟩
  | sendEx msg current =>
    cases h
    exact flow_sends hpq hqp fun una hu => pvpIkcpSendEx_ok hmss hu msg current
  | update current =>
    cases h
    exact flow_flushes hpq hqp fun una hu => pvpIkcpUpdate_ok hu current
  | flush =>
    cases h
    exact flow_flushes hpq hqp fun una hu => pvpIkcpFlush_ok hu
  | recv len => exact flow_recv hmssq hpq hqp len h
  | input d current => exact flow_input hconv hpq hqp (fun dg hw => ht d current dg rfl hw) h

end Step

/-! ## Every interleaving -/

/-- What creation and configuration leave: an empty block that starts counting at `0`. -/
structure Fresh (conv : IUINT32) (kcp : IKCPCB) : Prop where
  conv : kcp.conv = conv
  mss : 0 < kcp.mss
  stream : kcp.stream = 0
  nums : kcp.sndUna = 0 ∧ kcp.sndNxt = 0 ∧ kcp.rcvNxt = 0 ∧ kcp.nrcvQue = 0
  empty : kcp.sndQueue = [] ∧ kcp.rcvQueue = [] ∧ kcp.sndBuf = [] ∧ kcp.rcvBuf = []

/-- What the configuration sets.  A segment has room in a datagram, and the receive window is never below
    its default. -/
structure Settings where
  mtu : Nat
  sndWnd : IUINT32
  rcvWnd : IUINT32
  interval : IUINT32
  nodelay : Int
  rxMinrto : Int
  fastresend : Int
  nocwnd : Int
  dupsendcount : IUINT32
  dupack : Int
  dupsendDynamic : Int
  dupsendWait : IUINT32
  dupsendWndOn : IUINT32
  intervalLost : IUINT32
  roomy : ikcpOverhead < mtu
  window : ikcpWndRcv.toNat ≤ rcvWnd.toNat

/-- The created block with the settings. -/
def Settings.block (s : Settings) (conv : IUINT32) : IKCPCB :=
  { pvpIkcpCreate conv with
    mtu := s.mtu
    mss := s.mtu - ikcpOverhead
    sndWnd := s.sndWnd
    rcvWnd := s.rcvWnd
    interval := s.interval
    nodelay := s.nodelay
    rxMinrto := s.rxMinrto
    fastresend := s.fastresend
    nocwnd := s.nocwnd
    dupsendcount := s.dupsendcount
    dupack := s.dupack
    dupsendDynamic := s.dupsendDynamic
    dupsendWait := s.dupsendWait
    dupsendWndOn := s.dupsendWndOn
    intervalLost := s.intervalLost }

/-- The settings of `pvp_ikcp_create`. -/
def Settings.default : Settings where
  mtu := ikcpMtuDef
  sndWnd := ikcpWndSnd
  rcvWnd := ikcpWndRcv
  interval := ikcpInterval
  nodelay := 0
  rxMinrto := ikcpRtoMin
  fastresend := 0
  nocwnd := 0
  dupsendcount := 0
  dupack := 0
  dupsendDynamic := 0
  dupsendWait := ikcpDupsendWaitDefault
  dupsendWndOn := ikcpDupsendWndOnDefault
  intervalLost := ikcpIntervalLost
  roomy := by decide
  window := Nat.le_refl _

/-- `pvp_ikcp_wndsize` takes no window below the default. -/
theorem Settings.wndsize (s : Settings) (conv : IUINT32) (sndwnd rcvwnd : Int) :
    ∃ s' : Settings, pvpIkcpWndsize (s.block conv) sndwnd rcvwnd = s'.block conv := by
  have hsnd : ∃ s' : Settings, (if sndwnd > 0 then { s.block conv with sndWnd := BitVec.ofInt 32 sndwnd }
      else s.block conv) = s'.block conv := by
    split
    · exact ⟨{ s with sndWnd := BitVec.ofInt 32 sndwnd }, rfl⟩
    · exact ⟨s, rfl⟩
  obtain ⟨s', hsnd⟩ := hsnd
  rw [pvpIkcpWndsize, hsnd]
  split
  · exact ⟨{ s' with rcvWnd := imax (BitVec.ofInt 32 rcvwnd) ikcpWndRcv, window := le_imax _ _ }, rfl⟩
  · exact ⟨s', rfl⟩

/-- **Configured in any way**, a block is the created one but for its settings.  Induction on the
    configuration. -/
theorem Configured.settings {conv : IUINT32} {kcp : IKCPCB} (h : Configured conv kcp) :
    ∃ s : Settings, kcp = s.block conv := by
  induction h with
  | create => exact ⟨.default, rfl⟩
  | setmtu _ mtu ih =>
    obtain ⟨s, rfl⟩ := ih
    rw [pvpIkcpSetmtu]
    split
    · exact ⟨s, rfl⟩
    · rename_i hmtu
      have hroomy : ikcpOverhead < mtu.toNat := by
        rw [ikcpOverhead] at hmtu ⊢
        omega
      exact ⟨{ s with mtu := mtu.toNat, roomy := hroomy }, rfl⟩
  | nodelay _ on interval resend nc ih =>
    obtain ⟨s, rfl⟩ := ih
    obtain ⟨nodelay, rxMinrto, interval', fastresend, nocwnd, hset⟩ :=
      pvpIkcpNodelay_eq (s.block conv) on interval resend nc
    rw [hset]
    exact ⟨{ s with nodelay := nodelay, rxMinrto := rxMinrto, interval := interval',
                    fastresend := fastresend, nocwnd := nocwnd }, rfl⟩
  | wndsize _ sndwnd rcvwnd ih =>
    obtain ⟨s, rfl⟩ := ih
    exact s.wndsize conv sndwnd rcvwnd
  | setdupsend _ count dupack dupDynamic dupWait dupWndOn ih =>
    obtain ⟨s, rfl⟩ := ih
    exact ⟨{ s with
      dupsendcount := BitVec.ofInt 32 count
      dupack := dupack
      dupsendDynamic := dupDynamic
      dupsendWait := if dupWait ≤ 0 ∨ dupWait > 100 then ikcpDupsendWaitDefault
        else BitVec.ofInt 32 dupWait
      dupsendWndOn := if dupWndOn ≤ 0 ∨ dupWndOn > 512 then ikcpDupsendWndOnDefault
        else BitVec.ofInt 32 dupWndOn }, rfl⟩
  | intervalLost _ interval ih =>
    obtain ⟨s, rfl⟩ := ih
    exact ⟨{ s with intervalLost := BitVec.ofInt 32 (clampInterval 1000 60000 interval) }, rfl⟩
  | fields _ rxMinrto fastresend ih =>
    obtain ⟨s, rfl⟩ := ih
    exact ⟨{ s with rxMinrto := rxMinrto, fastresend := fastresend }, rfl⟩

theorem Configured.fresh {conv : IUINT32} {kcp : IKCPCB} (h : Configured conv kcp) :
    Fresh conv kcp := by
  obtain ⟨s, rfl⟩ := h.settings
  exact ⟨rfl, Nat.sub_pos_of_lt s.roomy, rfl, ⟨rfl, rfl, rfl, rfl⟩, rfl, rfl, rfl, rfl⟩

/-- The link of a peer, fixed by how its block was configured. -/
def Peer.link (p : Peer) : Link := ⟨p.kcp.conv, p.kcp.mss⟩

/-- Both directions start empty. -/
theorem Start.flow {conv : IUINT32} {s : Net} (h : Start conv s) (x : Side) :
    Flow (s x).link (s x) (s x.other) := by
  have hx := h x
  have hy := h x.other
  have fx := hx.kcp.fresh
  have fy := hy.kcp.fresh
  have hlog : (s x).log (s x).link = [] := by rw [Peer.log, hx.accepted]; rfl
  refine ⟨⟨0, ?_⟩, ?_, ?_, ?_, ?_⟩
  · rw [hlog, hx.sndNum]
    refine ⟨rfl, rfl, fx.stream, hx.sndWnd, fx.nums.1, fx.nums.2.1, Nat.le_refl _, by omega,
      Nat.le_refl _, ?_, ⟨[], ?_, List.Pairwise.nil, fun n hn => nomatch hn⟩, fun f hf => nomatch hf⟩
    · show (s x).kcp.sndQueue.map IKCPSEG.unit = _
      rw [fx.empty.1]
      rfl
    · show (s x).kcp.sndBuf.map IKCPSEG.key = _
      rw [fx.empty.2.2.1]
      rfl
  · rw [hx.accepted]
    exact fun m hm => nomatch hm
  · rw [hx.wire]
    exact fun d hd => nomatch hd
  · rw [hlog, hy.received, hy.rcvNum]
    refine ⟨fy.nums.2.2.1, hy.rcvWnd, ?_, ?_, Nat.le_refl _, ?_,
      ⟨[], ?_, List.Pairwise.nil, fun n hn => nomatch hn⟩⟩
    · rw [fy.nums.2.2.2, fy.empty.2.1]
      rfl
    · rw [fy.empty.2.1]
      exact Nat.zero_le _
    · rw [fy.empty.2.1]
      rfl
    · rw [fy.empty.2.2.2]
      rfl
  · rw [hy.received]
    exact List.nil_prefix

/-- The invariant of a run: both directions, for the links the run started with. -/
theorem Reach.flow {conv : IUINT32} {s : Net}
    (h : Reach netStep (Start conv) (fun s i => Timely s i = true) s) :
    ∃ ln : Side → Link, (∀ x, (ln x).conv = conv ∧ 0 < (ln x).mss ∧ (ln x).mss < 2 ^ 16)
      ∧ ∀ x, Flow (ln x) (s x) (s x.other) := by
  induction h with
  | @start s h =>
    exact ⟨fun x => (s x).link,
      fun x => ⟨(h x).kcp.fresh.conv, (h x).kcp.fresh.mss, (h x).mss⟩, fun x => h.flow x⟩
  | @step s s' i _ ht hs ih =>
    obtain ⟨ln, hln, hflow⟩ := ih
    refine ⟨ln, hln, ?_⟩
    obtain ⟨x, act⟩ := i
    rw [netStep] at hs
    cases hp : (s x).step (s x.other) act with
    | error e => rw [hp] at hs; nomatch hs
    | ok p =>
      rw [hp] at hs
      cases hs
      have hoo : x.other.other = x := by cases x <;> rfl
      have hne : x.other ≠ x := by cases x <;> decide
      -- `x` takes a step: it is the sender of one direction and the receiver of the other
      have hback := hflow x.other
      rw [hoo] at hback
      have htime : ∀ d current dg, act = .input d current → (s x.other).wire[d]? = some dg →
          timely dg.base dg.bytes.length dg.bytes (s x).rcvNum
            { kcp := inputEnter (s x).kcp current, flag := false, maxack := 0 } = true := by
        intro d current dg ha hw
        subst ha
        rw [Timely] at ht
        dsimp only at ht
        rw [hw] at ht
        exact ht
      obtain ⟨h1, h2⟩ := flow_step ((hln x).1.trans (hln x.other).1.symm) (hln x).2.2
        (hln x.other).2.1 (hflow x) hback htime hp
      intro y
      by_cases hy : y = x
      · subst hy
        dsimp only
        rw [if_pos rfl, if_neg hne]
        exact h1
      · have hyx : y = x.other := by
          cases x <;> cases y <;> first | rfl | exact absurd rfl hy
        subst hyx
        dsimp only
        rw [if_neg hne, hoo, if_pos rfl]
        exact h2

/-- **End-to-end delivery.**  Over any network that delivers datagrams in time, in any order and any
    number of times, and for every interleaving of the calls at both ends, the messages one side
    received are a prefix of the messages the other side accepted: same bytes, same order, none
    lost, repeated, merged or split. -/
theorem received_prefix {conv : IUINT32} {s : Net}
    (h : Reach netStep (Start conv) (fun s i => Timely s i = true) s) (x : Side) :
    (s x.other).received <+: (s x).accepted := by
  obtain ⟨ln, -, hflow⟩ := Reach.flow h
  exact (hflow x).pre

/-- A peer with a freshly created block. -/
def Peer.fresh (conv : IUINT32) : Peer :=
  ⟨pvpIkcpCreate conv, [], [], 0, 0, []⟩

/-- One side sends two messages, the datagram of the second overtakes the first and arrives twice. -/
def overtaking : List (Side × Act) :=
  [(.a, .update 10), (.a, .sendEx [1, 2] 20), (.a, .sendEx [3] 30), (.b, .update 5),
   (.b, .input 1 40), (.b, .input 1 50), (.b, .recv 100), (.b, .input 0 60), (.b, .recv 100),
   (.b, .recv 100)]

/-- The overtaken message is handed out first, each of the two once. -/
theorem received_prefix_overtaking :
    ∃ s, exec netStep Timely overtaking (fun _ => Peer.fresh 7) = some s
      ∧ (s .b).received = [[1, 2], [3]] ∧ (s .b).received <+: (s .a).accepted := by
  have hfresh : (Peer.fresh 7).Start 7 :=
    ⟨.create, by decide, by decide, by decide, rfl, rfl, rfl, rfl, rfl⟩
  have hstart : Start 7 fun _ => Peer.fresh 7 := fun _ => hfresh
  have hrecv : (exec netStep Timely overtaking (fun _ => Peer.fresh 7)).map
      (fun s => (s .b).received) = some [[1, 2], [3]] := by decide +kernel
  obtain ⟨s, hs, hr⟩ := Option.map_eq_some_iff.mp hrecv
  exact ⟨s, hs, hr, received_prefix (Reach.of_exec (fun _ _ h => h) overtaking (.start hstart) hs) .a⟩

end ConnClient.Ikcp
