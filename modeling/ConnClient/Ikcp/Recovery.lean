/-
  Whatever the network did, the connection can still finish.

  The network may have lost any datagram, or be about to deliver it twice and late; the windows may be
  closed, the queues full, a question about the window never answered.  None of this is for good: from
  every state that a run gets to, a few updates, datagrams and messages handed out lead to one in which
  everything that was accepted is received (`recoverable`).  No message has to be sent for it, and
  nothing the network lost is needed.

  It goes by rounds, and each takes something off what waits to be sent (`Watch.Reached.round`):

  1. both sides hand out what they have, and flush (`Watch.Reached.prepare`): now both have room, so
     neither is more than a window behind the other, and nothing old is left to be acknowledged;
  2. the sender flushes when the head of `snd_buf` is due, and that datagram arrives; the other side
     flushes, and the answer arrives: its `una` is beyond the head (`Watch.Reached.exchange`);
  3. with nothing in `snd_buf`, a flush fills it, unless the window of the other side is closed; then
     the sender asks (`Watch.Reached.question`), and the answer opens it (`Watch.Reached.reopen`).

  Why room comes first: a datagram is only taken while the two sides are near each other, within half
  of a 16-bit field, or its numbers would be rebuilt wrongly.  A sender is never more than a window
  beyond its `una`, and a receiver with room has everything below the other's `una`
  (`Standing.una_le`): so with room on both sides they are near, and what is sent now is taken.  What
  was sent long ago and still travels is not needed, and no step of these delivers it.

  What is known of a side in any state of a run is collected in `Standing`, once; what one flush and
  one datagram do to it is in `Flushed` and `Got`.  Nothing after those three looks into a routine of
  the control block again.
-/
import ConnClient.Ikcp.Exchange

namespace ConnClient.Ikcp

open ConnClient.Lib Relation

/-! ## Calm -/

/-- The clock, the application that receives, and the network; nothing is sent. -/
def Act.quiet : Act → Bool
  | .update _ => true
  | .recv _ => true
  | .input _ _ => true
  | _ => false

/-- A step of the network, watched, without a new message.  These are the steps recovery may use:
    time passes, the application receives, and a datagram arrives that is not too late. -/
def Calm (w w' : Watch) : Prop :=
  ∃ i : Side × Act, i.2.quiet = true ∧ InReach w i = true ∧ watchStep i w = .ok w'

/-- The states of the runs whose messages are short. -/
def Watch.Reached (conv : IUINT32) (w : Watch) : Prop :=
  Reach watchStep (Watch.Start conv) (fun w i => InReach w i = true ∧ ShortMessages w.net i) w

@[simp] theorem Side.other_other (x : Side) : x.other.other = x := by
  cases x <;> rfl

/-- A receiver that has room. -/
def HasRoom (k : IKCPCB) : Prop := k.nrcvQue < k.rcvWnd.toNat

/-- What is known of a side at any time, brought together from the invariants of the modules before:
    the sending half, what it expects next, its windows, its list of acknowledgements, and that
    everything it numbered is in its buffer or at the other side (`sound`). -/
structure Standing (conv : IUINT32) (w : Watch) (x : Side) : Prop where
  snd : ∃ ln una, ln.conv = conv ∧ SndOk ln ((w.net x).log ln) una (w.net x).sndNum (w.net x).kcp.sndHalf
  rcvNxt : (w.net x).kcp.rcvNxt = BitVec.ofNat 32 (w.net x).rcvNum
  rcvWnd : 0 < (w.net x).kcp.rcvWnd.toNat ∧ (w.net x).kcp.rcvWnd.toNat ≤ 0x7fff
  rcv : RcvWindowed (w.net x).kcp
  fits : (w.net x).kcp.desk.Fits
  sending : Sending (w.net x).kcp
  cwnd : Open (w.net x).kcp
  relieves : Relievable (w.net x).kcp
  watched : Watched conv (w.net x) (w.owed x) (w.notes x)
  sound : (w.view x).Sound

section Standings

variable {conv : IUINT32} {w w' : Watch} {x y : Side}

/-- The bound on messages may be forgotten. -/
theorem Watch.Reached.watched (h : w.Reached conv) :
    Reach watchStep (Watch.Start conv) (fun w i => InReach w i = true) w :=
  Reach.mono (fun _ _ hc => hc.1) h

/-- The congestion window of a side. -/
theorem Reach.cwnd {s : Net} (h : Reach netStep (Start conv) (fun s i => Timely s i = true) s) (x : Side) :
    Open (s x).kcp := by
  have hconnected : Reach netStep (Connected conv) (fun s i => Timely s i = true) s :=
    h.map id (fun s hs => hs.connected) fun s s' i hc hs => ⟨hc, hs⟩
  have hinv : Open (s x).kcp ∧ (s x).kcp.desk.Fits := by
    refine (sides_run hconnected x).inv (I := fun k => Open k ∧ k.desk.Fits) (fun k hk => ?_) ?_
    · obtain ⟨settings, rfl⟩ := hk.kcp.settings
      have hopen : 1 ≤ ikcpWndSnd.toNat := by decide
      exact ⟨hopen, rfl, Nat.le_refl 0⟩
    · rintro k c ⟨hopen, hfits⟩ -
      exact ⟨call_open hopen hfits c, call_fits hfits c⟩
  exact hinv.1

/-- **Every side of every state stands so.** Each field is the invariant of another module, read at
    this state. -/
theorem Watch.Reached.standing (h : w.Reached conv) (x : Side) : Standing conv w x := by
  have hnet := Reach.net h.watched
  obtain ⟨ln, hln, hflow⟩ := Reach.flow hnet
  obtain ⟨hsound, hfits⟩ := Reach.block hnet x
  have hkept := Reach.kept h.watched
  -- what `x` receives is the flow that the other side sends
  have hback := hflow x.other
  rw [Side.other_other] at hback
  obtain ⟨una, hok⟩ := (hflow x).snd
  -- no message is longer than the window that it is received in
  have hshort : Reach netStep (Connected conv) ShortMessages w.net :=
    Reach.map Watch.net (fun w hw => hw.net.connected) (fun w w' i hc hs => ⟨hc.2, watchStep_net hs⟩) h
  obtain ⟨b, hb, hlane⟩ := lanes hshort x.other
  rw [Side.other_other] at hlane
  have hwnd := hlane.wnd
  subst hwnd
  exact ⟨⟨ln x, una, (hln x).1, hok⟩, hback.rcv.nxt, ⟨hb, hback.rcv.wnd⟩, hsound.rcv, hfits, Reach.sending hnet x,
    Reach.cwnd hnet x, hlane.kept.relieves hsound.rcv hb, hkept.side x, hkept.sound x⟩

/-- A step without a message keeps to the runs. -/
theorem Watch.Reached.calm (h : w.Reached conv) (hs : Calm w w') : w'.Reached conv := by
  obtain ⟨⟨y, act⟩, hquiet, hin, hstep⟩ := hs
  refine Reach.step h ⟨hin, ?_⟩ hstep
  cases act with
  | send => exact absurd hquiet Bool.false_ne_true
  | sendEx => exact absurd hquiet Bool.false_ne_true
  | _ => trivial

theorem Watch.Reached.calms (h : w.Reached conv) (hs : ReflTransGen Calm w w') : w'.Reached conv := by
  induction hs with
  | refl => exact h
  | tail _ hstep ih => exact ih.calm hstep

/-- **A receiver with room** has all that the sender may have forgotten. -/
theorem Standing.una_le (hx : Standing conv w x) (hy : Standing conv w y) (hxy : x.other = y)
    (hroom : HasRoom (w.net y).kcp) {ln : Link} {log : List (Nat × List Byte)} {una : Nat}
    (hok : SndOk ln log una (w.net x).sndNum (w.net x).kcp.sndHalf) : una ≤ (w.net y).rcvNum := by
  subst hxy
  by_contra hlt
  -- the number it waits for is not there
  have hnext := hy.rcv.next_not_has hroom (w.net x.other).rcvNum
  have hle := hok.le
  have hgiven : (w.net x.other).rcvNum ∈ Set.Iio (w.net x).sndNum := by
    show (w.net x.other).rcvNum < (w.net x).sndNum
    omega
  -- and what was given a number is in `snd_buf` or over there
  rcases hx.sound.all hgiven with hkept | hheld
  · exact absurd (hok.mem_buffered.mp hkept).1 hlt
  · exact hnext hheld

/-- So it is not more than a window behind: the sender has sent at most a window beyond its `una`.
    -/
theorem Standing.close (hx : Standing conv w x) (hy : Standing conv w y) (hxy : x.other = y)
    (hroom : HasRoom (w.net y).kcp) : (w.net x).sndNum ≤ (w.net y).rcvNum + 0x7fff := by
  obtain ⟨ln, una, -, hok⟩ := hx.snd
  have hle := hx.una_le hy hxy hroom hok
  have hnear := hok.near
  omega

/-- Nothing was received that was not sent. -/
theorem Standing.rcvNum_le (hx : Standing conv w x) (hxy : x.other = y) : (w.net y).rcvNum ≤ (w.net x).sndNum := by
  subst hxy
  by_contra hlt
  have hheld : (w.net x).sndNum ∈ (w.net x.other).kcp.has (w.net x.other).rcvNum := Or.inl (by omega)
  exact absurd (hx.sound.held hheld) (Nat.lt_irrefl (w.net x).sndNum)

/-- What a side is when a datagram of the other side arrives, not too late. -/
theorem Standing.abreast (hx : Standing conv w x) (hy : Standing conv w y) (hxy : x.other = y)
    (hroom : HasRoom (w.net y).kcp) :
    Abreast conv (w.net x).sndNum (w.net y).sndNum (w.net y).rcvNum (w.net y).kcp := by
  obtain ⟨ln, una, hconv, hok⟩ := hy.snd
  refine ⟨⟨hok.conv.trans hconv, hy.rcv, hy.fits, hok.sndNxt, hy.rcvNxt⟩, ?_, hx.close hy hxy hroom⟩
  subst hxy
  exact hx.sound.held

/-- A step that is not refused.  The watch adds to a step what it keeps itself, and refuses nothing.
    -/
theorem watchStep_total {act : Act} {p : Peer} (hp : (w.net y).step (w.net y.other) act = .ok p) :
    ∃ w', watchStep (y, act) w = .ok w' ∧ w'.net y = p := by
  have hnet : ∃ s, netStep (y, act) w.net = .ok s := by
    rw [netStep]
    dsimp only
    rw [hp]
    exact ⟨_, rfl⟩
  obtain ⟨s, hs⟩ := hnet
  have hstep : ∃ w', watchStep (y, act) w = .ok w' := by
    rw [watchStep, hs]
    exact ⟨_, rfl⟩
  obtain ⟨w', hw'⟩ := hstep
  have hsame := (watchStep_ok hw').1
  rw [hp] at hsame
  exact ⟨w', hw', (Except.ok.inj hsame).symm⟩

end Standings

/-! ## A datagram over -/

/-- Datagram `d` of a side is what it sent last: `segs`, which say `note`.  `wire` has the bytes, and
    how many segments had a number when it was sent. -/
structure Carried (conv : IUINT32) (w : Watch) (x : Side) (d : Nat) (note : Note) (segs : List IKCPSEG) : Prop where
  wire : (w.net x).wire[d]? = some ⟨segs.flatMap ikcpSegBytes, (w.net x).sndNum⟩
  told : (w.notes x)[d]? = some note
  segs : ∀ s ∈ segs, Noted conv (w.net x).sndNum note s

/-- What `x` did that flushed at `current`.  It sent all that was due (`carries`), owes no
    acknowledgement any more, and nothing left `snd_buf`; its receiving half and the other side are
    as before. -/
structure Flushed (conv : IUINT32) (w w' : Watch) (x : Side) (current : IUINT32) : Prop where
  kcp : (w'.net x).kcp = (pvpIkcpUpdate (w.net x).kcp current).1
  other : w'.net x.other = w.net x.other ∧ w'.owed x.other = w.owed x.other
  rcvNum : (w'.net x).rcvNum = (w.net x).rcvNum
  rcvHalf : (w'.net x).kcp.rcvHalf = (w.net x).kcp.rcvHalf
  cleared : w'.owed x = []
  numbers : (w.net x).kcp.sndBuf.map IKCPSEG.sn <+: (w'.net x).kcp.sndBuf.map IKCPSEG.sn
  carries : ∀ seg ∈ flushSegs (updateHead (w.net x).kcp current).2, ∃ d segs, seg ∈ segs
    ∧ Carried conv w' x d ((w.net x).kcp.note (w.net x).rcvNum (w.owed x)) segs

/-- What `y` did that got a datagram of `x`, and is to acknowledge `news`.  `read` says what is in
    its buffers now, `rcvNum` how far it got in order. -/
structure Got (conv : IUINT32) (w w' : Watch) (x y : Side) (current : IUINT32) (note : Note) (segs : List IKCPSEG)
    (news : List Nat) : Prop where
  kcp : (w'.net y).kcp = (pvpIkcpInput (w.net y).kcp (segs.flatMap ikcpSegBytes) current).2
  other : w'.net x = w.net x ∧ w'.owed x = w.owed x
  owed : w'.owed y = w.owed y ++ news
  sndNum : (w'.net y).sndNum = (w.net y).sndNum
  rcvNum : (w'.net y).rcvNum = (w.net y).rcvNum + off (w.net y).kcp.rcvNxt (w'.net y).kcp.rcvNxt
  noted : ∀ s ∈ segs, Noted conv (w.net x).sndNum note s
  abreast : Abreast conv (w.net x).sndNum (w.net y).sndNum (w.net y).rcvNum (w.net y).kcp
  near : note.Near (w.net y).sndNum
  read : Read note (w.net x).sndNum (w.net y).rcvNum (w.net y).kcp (w'.net y).kcp news

section Over

variable {conv : IUINT32} {w w' : Watch} {x y : Side}

/-- **A flush**: what is due is on the wire, and is what was sent last. -/
theorem Watch.Reached.flush (h : w.Reached conv) (x : Side) {current : IUINT32}
    (hflush : (updateHead (w.net x).kcp current).1 = true) : ∃ w', Calm w w' ∧ Flushed conv w w' x current := by
  have hx := h.standing x
  obtain ⟨ln, una, hconv, hok⟩ := hx.snd
  -- what a flush does to the numbers, and that each due segment is in some datagram
  obtain ⟨n, htells, hcleared, hcarries⟩ := pvpIkcpUpdate_flushes hflush hok hx.rcvNxt hx.watched.list
  let r := pvpIkcpUpdate (w.net x).kcp current
  let p' := (w.net x).transmit r
  have htotal : ∃ w', watchStep (x, .update current) w = .ok w' ∧ w'.net x = p' := watchStep_total rfl
  obtain ⟨w', hstep, hp'⟩ := htotal
  obtain ⟨-, hother, howed, hnotes, howed', -⟩ := watchStep_ok hstep
  dsimp only at hother howed hnotes howed'
  have hnum : p'.sndNum = (w.net x).sndNum + n := htells.advance hok
  have hwire : p'.wire = (w.net x).wire ++ r.2.map fun d => ⟨d.2, p'.sndNum⟩ := rfl
  have hlen : (w.notes x).length = (w.net x).wire.length := hx.watched.wire.length_eq.symm
  -- the fields of `Flushed` in their order; the last is where the datagram is found on the wire
  refine ⟨w', ⟨(x, .update current), rfl, rfl, hstep⟩, ?_, ⟨hother, howed'⟩, ?_, ?_, ?_, ?_, fun seg hseg => ?_⟩
  · rw [hp']
    rfl
  · rw [hp']
    rfl
  · rw [hp']
    exact htells.half
  · rw [howed, hp', owedAfter]
    exact if_pos hcleared
  · rw [hp']
    exact ⟨_, htells.numbers.symm⟩
  · obtain ⟨segs, hsent, hmem, hnoted⟩ := hcarries seg hseg
    -- the `i`-th datagram of this flush is number `wire.length + i`
    obtain ⟨i, hi⟩ := List.getElem?_of_mem hsent
    have hlt : i < r.2.length := by
      have hlt := (List.getElem?_eq_some_iff.mp hi).1
      rw [List.length_map] at hlt
      exact hlt
    have hbytes : r.2[i].2 = segs.flatMap ikcpSegBytes := by
      rw [List.getElem?_map, List.getElem?_eq_getElem hlt] at hi
      exact Option.some.inj hi
    refine ⟨(w.net x).wire.length + i, segs, hmem, ?_, ?_, ?_⟩
    · rw [hp', hwire, List.getElem?_append_right (Nat.le_add_right _ _), Nat.add_sub_cancel_left, List.getElem?_map,
        List.getElem?_eq_getElem hlt, Option.map_some, hbytes]
    · rw [hnotes, hp', notesAfter, hwire, List.length_append, Nat.add_sub_cancel_left, List.length_map,
        List.getElem?_append_right (by omega), hlen, Nat.add_sub_cancel_left, List.getElem?_replicate, if_pos hlt]
    · rw [hp', hnum, ← hconv]
      exact hnoted

/-- **A datagram that was sent last arrives**, at a side that has room. -/
theorem Watch.Reached.deliver (h : w.Reached conv) (hxy : x.other = y) {d : Nat} {note : Note} {segs : List IKCPSEG}
    (hd : Carried conv w x d note segs) (hroom : HasRoom (w.net y).kcp)
    (huna : (w.net y).sndNum < note.una + 0x8000) (hacks : ∀ n ∈ note.acks, (w.net y).sndNum < n + 0x8000)
    (current : IUINT32) : ∃ w' news, Calm w w' ∧ Got conv w w' x y current note segs news := by
  have hx := h.standing x
  have hy := h.standing y
  have habreast := hx.abreast hy hxy hroom
  have hyx : y.other = x := by rw [← hxy, Side.other_other]
  have hmem : note ∈ w.notes y.other := by
    rw [hyx]
    exact List.mem_of_getElem? hd.told
  -- the note of a datagram is near if its `una` and its acknowledgements are
  have hnear : note.Near (w.net y).sndNum :=
    .of_sound hy.sound (fun n hn => Or.inr ⟨note, hmem, hn⟩) huna hacks
  -- so the datagram counts as timely, segment by segment, and is read as it was meant
  have htimely : timely (w.net x).sndNum (segs.flatMap ikcpSegBytes).length (segs.flatMap ikcpSegBytes) (w.net y).rcvNum
      { kcp := inputEnter (w.net y).kcp current, flag := false, maxack := 0 } = true :=
    Abreast.timely hnear hd.segs _ (habreast.enter current)
  obtain ⟨news, hread⟩ := pvpIkcpInput_read habreast.reading hnear ⟨segs, rfl, hd.segs⟩ htimely
  let p' := (w.net y).take (pvpIkcpInput (w.net y).kcp (segs.flatMap ikcpSegBytes) current).2
  have hp : (w.net y).step (w.net y.other) (.input d current) = .ok p' := by
    rw [Peer.step, hyx, hd.wire]
  obtain ⟨w', hstep, hp'⟩ := watchStep_total hp
  obtain ⟨-, hother, howed, -, howed', -⟩ := watchStep_ok hstep
  dsimp only at hother howed howed'
  rw [hyx] at hother howed'
  -- which is the same as saying that this step is allowed
  have hin : InReach w (y, .input d current) = true := by
    rw [InReach, Timely, Recent, Bool.and_eq_true]
    dsimp only
    rw [hyx, hd.wire, hd.told]
    refine ⟨htimely, ?_⟩
    rw [Bool.and_eq_true, decide_eq_true_eq, List.all_eq_true]
    exact ⟨huna, fun n hn => decide_eq_true (hacks n hn)⟩
  have hkcp : (w'.net y).kcp = (pvpIkcpInput (w.net y).kcp (segs.flatMap ikcpSegBytes) current).2 := by
    rw [hp']
    rfl
  have hmove := hread.moves hy.rcv hy.rcvWnd.2
  rw [← hkcp] at hread hmove
  refine ⟨w', news, ⟨(y, .input d current), rfl, hin, hstep⟩, hkcp, ⟨hother, howed'⟩, ?_, ?_, ?_, hd.segs,
    habreast, hnear, hread⟩
  · rw [howed]
    exact hy.watched.owedAfter_read hread hy.rcvNxt hmove
  · rw [hp']
    rfl
  · rw [hkcp, hp']
    rfl

end Over

/-! ## What is left alone -/

/-- Nothing was accepted, and no more waits than before: what recovery must not lose on the way. -/
structure Eased (w w' : Watch) : Prop where
  accepted : ∀ x, (w'.net x).accepted = (w.net x).accepted
  sndWnd : ∀ x, (w'.net x).kcp.sndWnd = (w.net x).kcp.sndWnd
  waits : ∀ x, pvpIkcpWaitsnd (w'.net x).kcp ≤ pvpIkcpWaitsnd (w.net x).kcp

section Frames

variable {conv : IUINT32} {w w' w'' : Watch} {x y : Side}

theorem Eased.refl (w : Watch) : Eased w w := ⟨fun _ => rfl, fun _ => rfl, fun _ => Nat.le_refl _⟩

theorem Eased.trans (h : Eased w w') (h' : Eased w' w'') : Eased w w'' := by
  constructor
  · exact fun x => (h'.accepted x).trans (h.accepted x)
  · exact fun x => (h'.sndWnd x).trans (h.sndWnd x)
  · exact fun x => Nat.le_trans (h'.waits x) (h.waits x)

/-- **A step without a message**: an update numbers what waits, a datagram takes of it. -/
theorem Watch.Reached.eased (h : w.Reached conv) (hs : Calm w w') : Eased w w' := by
  have h' := h.calm hs
  obtain ⟨⟨y, act⟩, hquiet, -, hstep⟩ := hs
  obtain ⟨hp, hother, -⟩ := watchStep_ok hstep
  dsimp only at hp hother
  have hy := h.standing y
  -- the side that steps: what waits is numbered, or taken off, and never added to
  have hown : (w'.net y).accepted = (w.net y).accepted ∧ (w'.net y).kcp.sndWnd = (w.net y).kcp.sndWnd
      ∧ pvpIkcpWaitsnd (w'.net y).kcp ≤ pvpIkcpWaitsnd (w.net y).kcp := by
    have hsending := (h'.standing y).sending
    generalize w'.net y = p' at hp hsending
    cases act with
    | send => exact absurd hquiet Bool.false_ne_true
    | sendEx => exact absurd hquiet Bool.false_ne_true
    | flush => exact absurd hquiet Bool.false_ne_true
    | update current =>
      obtain ⟨ln, una, -, hok⟩ := hy.snd
      obtain ⟨n, htells⟩ := pvpIkcpUpdate_tells hok hy.rcvNxt hy.watched.list current
      cases hp
      exact ⟨rfl, (pvpIkcpUpdate_windows _ current).1, Nat.le_of_eq (htells.waits hok hy.sending hsending)⟩
    | recv len =>
      obtain ⟨_, _, _, _, _, _, hset⟩ := pvpIkcpRecv_eq (w.net y).kcp len
      obtain ⟨hkcp, haccepted, -⟩ := recv_ok hp
      rw [hkcp, haccepted, hset]
      exact ⟨rfl, rfl, Nat.le_refl _⟩
    | input d current =>
      rw [Peer.step] at hp
      split at hp
      · cases hp
      · cases hp
        exact ⟨rfl, (sndWnd_digest _).input rfl _ current, pvpIkcpInput_waits hy.sending _ current⟩
  -- the other side does not change
  obtain ⟨haccepted, hwnd, hwaits⟩ := hown
  constructor
  · intro x
    rcases side_cases x y with rfl | rfl
    · exact haccepted
    · rw [hother]
  · intro x
    rcases side_cases x y with rfl | rfl
    · exact hwnd
    · rw [hother]
  · intro x
    rcases side_cases x y with rfl | rfl
    · exact hwaits
    · rw [hother]

theorem Watch.Reached.eases (h : w.Reached conv) (hs : ReflTransGen Calm w w') : Eased w w' := by
  induction hs with
  | refl => exact .refl w
  | tail hsteps hstep ih => exact ih.trans ((h.calms hsteps).eased hstep)

/-- What the other side offered stays, and so does what is in `snd_buf`: what preparing must not
    undo. -/
structure Spares (w w' : Watch) : Prop where
  rmtWnd : ∀ x, (w'.net x).kcp.rmtWnd = (w.net x).kcp.rmtWnd
  buf : ∀ x, (w.net x).kcp.sndBuf ≠ [] → (w'.net x).kcp.sndBuf ≠ []

theorem Spares.trans (h : Spares w w') (h' : Spares w' w'') : Spares w w'' := by
  constructor
  · exact fun x => (h'.rmtWnd x).trans (h.rmtWnd x)
  · exact fun x hbuf => h'.buf x (h.buf x hbuf)

theorem Flushed.spares {current : IUINT32} (h : Flushed conv w w' x current) : Spares w w' := by
  constructor
  · intro y
    rcases side_cases y x with rfl | rfl
    · rw [h.kcp]
      exact (pvpIkcpUpdate_windows _ current).2
    · rw [h.other.1]
  · intro y hbuf
    rcases side_cases y x with rfl | rfl
    · intro hnone
      have hprefix := h.numbers.length_le
      rw [List.length_map, List.length_map, hnone] at hprefix
      exact hbuf (List.eq_nil_of_length_eq_zero (Nat.le_zero.mp hprefix))
    · rw [h.other.1]
      exact hbuf

/-- A flush does not touch the receiving half, so whoever had room has it still. -/
theorem Flushed.room {current : IUINT32} (h : Flushed conv w w' x current) (hroom : HasRoom (w.net x).kcp) :
    HasRoom (w'.net x).kcp := by
  have hque : (w'.net x).kcp.nrcvQue = (w.net x).kcp.nrcvQue := congrArg RcvHalf.nrcvQue h.rcvHalf
  have hwnd : (w'.net x).kcp.rcvWnd = (w.net x).kcp.rcvWnd := congrArg RcvHalf.rcvWnd h.rcvHalf
  rw [HasRoom, hque, hwnd]
  exact hroom

/-- What was handed out by `x` is of the other half: `snd_buf` and the offered window are as they
    were, and so are the other side and what both owe. -/
structure HandsOut (w w' : Watch) (x : Side) : Prop where
  other : w'.net x.other = w.net x.other
  owed : ∀ y, w'.owed y = w.owed y
  sndBuf : (w'.net x).kcp.sndBuf = (w.net x).kcp.sndBuf
  rmtWnd : (w'.net x).kcp.rmtWnd = (w.net x).kcp.rmtWnd

theorem HandsOut.spares (h : HandsOut w w' x) : Spares w w' := by
  constructor
  · intro y
    rcases side_cases y x with rfl | rfl
    · exact h.rmtWnd
    · rw [h.other]
  · intro y hbuf
    rcases side_cases y x with rfl | rfl
    · rw [h.sndBuf]
      exact hbuf
    · rw [h.other]
      exact hbuf

/-- **The application hands out** what there is, and then the block has room.  The measure is what is
    in the two receiving buffers; each message taken makes it smaller.  In the end nothing complete
    is left, and a receiver with nothing complete has room, or it could not be relieved. -/
theorem Watch.Reached.drain (h : w.Reached conv) (x : Side) : ∃ w', ReflTransGen Calm w w' ∧ HandsOut w w' x
    ∧ pvpIkcpPeeksize (w'.net x).kcp < 0 ∧ HasRoom (w'.net x).kcp := by
  have hdrain : Leads Calm (fun v => v.Reached conv ∧ HandsOut w v x)
      (fun v => (v.Reached conv ∧ HandsOut w v x) ∧ pvpIkcpPeeksize (v.net x).kcp < 0) := by
    refine Leads.of_measure (fun v => (v.net x).kcp.rcvQueue.length + (v.net x).kcp.rcvBuf.length) fun v hv => ?_
    by_cases hpeek : pvpIkcpPeeksize (v.net x).kcp < 0
    · exact Or.inl ⟨hv, hpeek⟩
    -- there is a complete message, and `pvp_ikcp_recv` with its size takes it off
    right
    obtain ⟨hreached, hout⟩ := hv
    have hlen : ((pvpIkcpPeeksize (v.net x).kcp).toNat : Int) = pvpIkcpPeeksize (v.net x).kcp := by omega
    have htotal : ∃ v', watchStep (x, .recv (pvpIkcpPeeksize (v.net x).kcp).toNat) v = .ok v' ∧ v'.net x = _ :=
      watchStep_total rfl
    obtain ⟨v', hstep, -⟩ := htotal
    have hcalm : Calm v v' := ⟨_, rfl, rfl, hstep⟩
    obtain ⟨hp, hother, howed, -, howed', -⟩ := watchStep_ok hstep
    dsimp only at hp hother howed howed'
    obtain ⟨hkcp, -⟩ := recv_ok hp
    rw [hlen] at hkcp
    have hacks : acks (v'.net x).kcp = acks (v.net x).kcp := by
      rw [hkcp]
      exact congrArg Desk.acks (pvpIkcpRecv_desk _ _)
    rw [(hreached.standing x).watched.owedAfter_same hacks] at howed
    obtain ⟨_, _, _, _, _, _, hset⟩ := pvpIkcpRecv_eq (v.net x).kcp (pvpIkcpPeeksize (v.net x).kcp)
    refine ⟨v', .single hcalm, ⟨hreached.calm hcalm, hother.trans hout.other, fun y => ?_, ?_, ?_⟩, ?_⟩
    · rcases side_cases y x with rfl | rfl
      · exact howed.trans (hout.owed y)
      · exact howed'.trans (hout.owed x.other)
    · rw [hkcp, hset]
      exact hout.sndBuf
    · rw [hkcp, hset]
      exact hout.rmtWnd
    · rw [hkcp]
      exact pvpIkcpRecv_shrinks (Int.not_lt.mp hpeek)
  obtain ⟨w', hsteps, ⟨hreached, hout⟩, hpeek⟩ := hdrain w ⟨h, rfl, fun _ => rfl, rfl, rfl⟩
  refine ⟨w', hsteps, hout, hpeek, ?_⟩
  -- nothing is complete any more, so a full window would never be relieved
  by_contra hfull
  have hcan := (hreached.standing x).relieves (Nat.not_lt.mp hfull)
  omega

/-- Both sides have room, and nothing is left to be acknowledged.  This is where a round starts: the
    next datagram of either side is taken by the other. -/
def Watch.AtRest (w : Watch) : Prop := ∀ x, HasRoom (w.net x).kcp ∧ w.owed x = []

/-- A flush, at some time. -/
theorem Watch.Reached.flushes (h : w.Reached conv) (x : Side) :
    ∃ w' current, Calm w w' ∧ Flushed conv w w' x current := by
  obtain ⟨current, -, hflush⟩ := updateHead_time (w.net x).kcp 0
  obtain ⟨w', hcalm, hflushed⟩ := h.flush x hflush
  exact ⟨w', current, hcalm, hflushed⟩

/-- **Both sides come to rest**: each hands out what it has, and flushes. -/
theorem Watch.Reached.prepare (h : w.Reached conv) : ∃ w', ReflTransGen Calm w w' ∧ w'.AtRest ∧ Spares w w' := by
  -- hand out at both sides, so that both have room ...
  obtain ⟨w₁, hs₁, hout₁, -, hroom₁⟩ := h.drain .a
  obtain ⟨w₂, hs₂, hout₂, -, hroom₂⟩ := (h.calms hs₁).drain .b
  have hs := hs₁.trans hs₂
  -- ... and flush at both, so that nothing is owed; neither undoes the other
  obtain ⟨w₃, _, hs₃, hfl₃⟩ := (h.calms hs).flushes .a
  obtain ⟨w₄, _, hs₄, hfl₄⟩ := (h.calms (hs.tail hs₃)).flushes .b
  have hspares := (hout₁.spares.trans hout₂.spares).trans (hfl₃.spares.trans hfl₄.spares)
  refine ⟨w₄, (hs.tail hs₃).tail hs₄, fun x => ?_, hspares⟩
  have hnet₂ : w₂.net .a = w₁.net .a := hout₂.other
  obtain ⟨hnet₃, howed₃⟩ : w₃.net .b = w₂.net .b ∧ w₃.owed .b = w₂.owed .b := hfl₃.other
  obtain ⟨hnet₄, howed₄⟩ : w₄.net .a = w₃.net .a ∧ w₄.owed .a = w₃.owed .a := hfl₄.other
  cases x with
  | a =>
    rw [hnet₄, howed₄]
    exact ⟨hfl₃.room (hnet₂ ▸ hroom₁), hfl₃.cleared⟩
  | b => exact ⟨hfl₄.room (hnet₃ ▸ hroom₂), hfl₄.cleared⟩

end Frames

/-! ## One round -/

section Rounds

variable {conv : IUINT32} {w w' : Watch} {x y : Side}

/-- A side that received nothing in order has the room that it had. -/
theorem Got.room {current : IUINT32} {note : Note} {segs : List IKCPSEG} {news : List Nat}
    (h : Got conv w w' x y current note segs news) (hroom : HasRoom (w.net y).kcp)
    (hsame : (w'.net y).rcvNum ≤ (w.net y).rcvNum) : HasRoom (w'.net y).kcp := by
  have hnum := h.rcvNum
  have hmoved := h.read.moved
  have hwnd : (w'.net y).kcp.rcvWnd = (w.net y).kcp.rcvWnd := by
    rw [h.kcp]
    exact (rcvWnd_digest _).input rfl _ current
  rw [HasRoom] at hroom ⊢
  rw [hwnd]
  omega

/-- **There**: what is due at `x` arrives at `y`.  From rest `y` has room and is near, so the
    datagram that was just sent is taken. -/
theorem Watch.Reached.ask (h : w.Reached conv) (hrest : w.AtRest) (hxy : x.other = y) {current : IUINT32}
    (hflush : (updateHead (w.net x).kcp current).1 = true) {seg : IKCPSEG}
    (hseg : seg ∈ flushSegs (updateHead (w.net x).kcp current).2) :
    ∃ w₁ w₂ segs news, Calm w w₁ ∧ Flushed conv w w₁ x current ∧ Calm w₁ w₂ ∧ seg ∈ segs
      ∧ Got conv w₁ w₂ x y current ((w.net x).kcp.note (w.net x).rcvNum []) segs news := by
  have hyx : y.other = x := by rw [← hxy, Side.other_other]
  obtain ⟨hroomx, howed⟩ := hrest x
  obtain ⟨w₁, hs₁, hfl⟩ := h.flush x hflush
  obtain ⟨hother, -⟩ := hfl.other
  rw [hxy] at hother
  obtain ⟨d, segs, hmem, hd⟩ := hfl.carries seg hseg
  rw [howed] at hd
  have hclose := (h.standing y).close (h.standing x) hyx hroomx
  have hroom : HasRoom (w₁.net y).kcp := hother ▸ (hrest y).1
  obtain ⟨w₂, news, hs₂, hgot⟩ := (h.calm hs₁).deliver hxy hd hroom (by
    show (w₁.net y).sndNum < (w.net x).rcvNum + 0x8000
    rw [hother]
    omega) (fun n hn => absurd hn List.not_mem_nil) current
  exact ⟨w₁, w₂, segs, news, hs₁, hfl, hs₂, hmem, hgot⟩

/-- **And back**: the answer of `y` arrives at `x`.  There is one if `y` has something to acknowledge
    or was asked for its window; a flush then sends something, and all that it sends has the newest
    `una` and window. -/
theorem Watch.Reached.answer (h : w.Reached conv) (hxy : x.other = y) (hroom : HasRoom (w.net x).kcp)
    (hask : acks (w.net y).kcp ≠ [] ∨ (w.net y).kcp.Asked)
    (huna : (w.net x).sndNum < (w.net y).rcvNum + 0x8000) (hacks : ∀ n ∈ w.owed y, (w.net x).sndNum < n + 0x8000) :
    ∃ w₁ w₂ current segs news, Calm w w₁ ∧ Flushed conv w w₁ y current ∧ Calm w₁ w₂ ∧ segs ≠ []
      ∧ Got conv w₁ w₂ y x current ((w.net y).kcp.note (w.net y).rcvNum (w.owed y)) segs news := by
  have hyx : y.other = x := by rw [← hxy, Side.other_other]
  obtain ⟨current, -, hflush⟩ := updateHead_time (w.net y).kcp 0
  obtain ⟨_, _, hset⟩ := updateHead_eq (w.net y).kcp current
  obtain ⟨w₁, hs₁, hfl⟩ := h.flush y hflush
  obtain ⟨hother, -⟩ := hfl.other
  rw [hyx] at hother
  -- some segment is due, whichever of the two it is
  obtain ⟨seg, hseg⟩ : ∃ seg, seg ∈ flushSegs (updateHead (w.net y).kcp current).2 := by
    refine answer_due ?_
    rw [hset]
    exact hask
  obtain ⟨d, segs, hmem, hd⟩ := hfl.carries seg hseg
  obtain ⟨w₂, news, hs₂, hgot⟩ := (h.calm hs₁).deliver hyx hd (hother ▸ hroom) (by
    show (w₁.net x).sndNum < (w.net y).rcvNum + 0x8000
    rw [hother]
    exact huna) (fun n hn => by
    rw [hother]
    exact hacks n hn) current
  exact ⟨w₁, w₂, current, segs, news, hs₁, hfl, hs₂, List.ne_nil_of_mem hmem, hgot⟩

/-- The head of `snd_buf` is numbered `snd_una`. -/
theorem Standing.head {ln : Link} {log : List (Nat × List Byte)} {una : Nat} (hx : Standing conv w x)
    (hok : SndOk ln log una (w.net x).sndNum (w.net x).kcp.sndHalf) {seg : IKCPSEG} {rest : List IKCPSEG}
    (hbuf : (w.net x).kcp.sndBuf = seg :: rest) : seg.sn = BitVec.ofNat 32 una := by
  have huna := hx.sending.windowed.una
  rw [numbers_sndHalf, hbuf] at huna
  exact huna.symm.trans hok.sndUna

/-- **Data that arrived** is acknowledged, and received if it was the next in order. -/
theorem Got.received (h' : Watch.Reached conv w') (hy : Standing conv w y) (hxy : x.other = y)
    {current : IUINT32} {note : Note} {segs : List IKCPSEG} {news : List Nat}
    (hgot : Got conv w w' x y current note segs news) (howed : w.owed y = []) (hroom : HasRoom (w.net y).kcp)
    {seg : IKCPSEG} (hseg : seg ∈ segs) (hpush : seg.cmd = ikcpCmdPush) {una : Nat}
    (hsn : seg.sn = BitVec.ofNat 32 una) (hle : una ≤ (w.net y).rcvNum)
    (hnear : (w.net x).sndNum ≤ una + 0x7fff) :
    acks (w'.net y).kcp ≠ [] ∧ una < (w'.net y).rcvNum := by
  have hread := hgot.read
  have hnum := hgot.rcvNum
  -- the segment is acknowledged, new or not
  have hasked : BitVec.ofNat 32 una ∈ (acks (w'.net y).kcp).map Prod.fst := by
    rw [hgot.kcp]
    exact pvpIkcpInput_acked hgot.abreast hgot.near hgot.noted hseg hpush hsn hle hnear hy.rcvWnd current
  refine ⟨fun hnone => ?_, ?_⟩
  · rw [hnone] at hasked
    exact absurd hasked List.not_mem_nil
  -- and as `y` owed nothing, it is one of the news of this datagram
  have hold : (acks (w.net y).kcp).map Prod.fst = [] := by
    rw [hy.watched.list, howed]
    rfl
  rw [hread.asked, hold, List.nil_append] at hasked
  obtain ⟨m, hm, hsame⟩ := List.mem_map.mp hasked
  have hheld := hread.held m hm
  rw [← hnum] at hheld
  have hlt : m < (w.net x).sndNum := by
    have hx' := h'.standing x
    have hsound := hx'.sound.held
    rw [Watch.view, hxy, hgot.other.1] at hsound
    exact hsound hheld
  have hclose := hread.near m hm
  -- the number that is acknowledged is the one that was sent: both are near
  have hlast : m = una := ofNat_inj_of_near (by omega) (by omega) hsame
  rw [hlast] at hheld
  by_contra hnot
  -- nothing was taken in, so there is room yet, and the next number is missing
  have hroom' := hgot.room hroom (by omega)
  have hnext := (h'.standing y).rcv.next_not_has hroom' (w'.net y).rcvNum
  have hhere : una = (w'.net y).rcvNum := by omega
  rw [hhere] at hheld
  exact hnext hheld

/-- **The head is told of**: less waits when the answer says a `una` beyond it. -/
theorem Got.settled (hy : Standing conv w y) {current : IUINT32} {note : Note} {segs : List IKCPSEG} {news : List Nat}
    (hgot : Got conv w w' x y current note segs news) (hne : segs ≠ []) {seg : IKCPSEG} {rest : List IKCPSEG}
    (hbuf : (w.net y).kcp.sndBuf = seg :: rest) {una : Nat} (hsn : seg.sn = BitVec.ofNat 32 una) (hlt : una < note.una)
    (hnear : note.una ≤ una + 0x7fff) : pvpIkcpWaitsnd (w'.net y).kcp < pvpIkcpWaitsnd (w.net y).kcp := by
  have hpops := pvpIkcpInput_pops hgot.abreast.reading hgot.near hgot.noted hne hbuf hsn hlt hnear current
  have hque := (nsndQue_digest _).input (rfl : (w.net y).kcp.nsndQue = _) (segs.flatMap ikcpSegBytes) current
  have hcount := (nsndBuf_digest _).input ⟨hy.sending.nsndBuf, Nat.le_refl _⟩ (segs.flatMap ikcpSegBytes) current
  have hbefore := hy.sending.nsndBuf
  rw [hbuf, List.length_cons] at hbefore
  rw [hgot.kcp, pvpIkcpWaitsnd, pvpIkcpWaitsnd]
  omega

/-- **An exchange**: the head of `snd_buf` is sent again, and acknowledged.  Its number is the `una`
    of the sender, and whatever the other side had before, after this datagram it waits for a number
    beyond it; the answer says so. -/
theorem Watch.Reached.exchange (h : w.Reached conv) (hrest : w.AtRest) (hbuf : (w.net x).kcp.sndBuf ≠ []) :
    ∃ w', ReflTransGen Calm w w' ∧ pvpIkcpWaitsnd (w'.net x).kcp < pvpIkcpWaitsnd (w.net x).kcp := by
  obtain ⟨y, hxy, hyx⟩ : ∃ y, x.other = y ∧ y.other = x := ⟨x.other, rfl, Side.other_other x⟩
  have hx := h.standing x
  obtain ⟨seg, rest, hcons⟩ := List.exists_cons_of_ne_nil hbuf
  -- the head is on the wire when its time has come
  obtain ⟨current, hlate, hflush⟩ := updateHead_time (w.net x).kcp seg.resendts
  obtain ⟨sent, hsent, hpush, hsame⟩ : ∃ s ∈ flushSegs (updateHead (w.net x).kcp current).2,
      s.cmd = ikcpCmdPush ∧ s.sn = seg.sn := by
    obtain ⟨_, _, hset⟩ := updateHead_eq (w.net x).kcp current
    have hmem : seg.key ∈ (w.net x).kcp.sndHalf.sndBuf :=
      List.mem_map_of_mem (hcons ▸ List.mem_cons_self ..)
    rw [hset]
    exact head_due hcons (hx.sending.windowed.push _ hmem) hlate
  obtain ⟨w₁, w₂, segs, news, hs₁, hfl, hs₂, hmem, hgot⟩ := h.ask hrest hxy hflush hsent
  have h₁ := h.calm hs₁
  have h₂ := h₁.calm hs₂
  have hother : w₁.net y = w.net y ∧ w₁.owed y = w.owed y := hxy ▸ hfl.other
  -- there it stays the head, numbered `una`
  obtain ⟨ln, una, -, hok⟩ := (h₁.standing x).snd
  have hnear := hok.near
  obtain ⟨head, tail, hhead, hnumber⟩ : ∃ head tail, (w₁.net x).kcp.sndBuf = head :: tail ∧ head.sn = seg.sn := by
    obtain ⟨more, hmore⟩ := hfl.numbers
    rw [hcons, List.map_cons, List.cons_append] at hmore
    cases hbuf₁ : (w₁.net x).kcp.sndBuf with
    | nil =>
      rw [hbuf₁] at hmore
      cases hmore
    | cons head tail =>
      rw [hbuf₁, List.map_cons, List.cons.injEq] at hmore
      exact ⟨head, tail, rfl, hmore.1.symm⟩
  have huna := (h₁.standing x).head hok hhead
  have hroom : HasRoom (w₁.net y).kcp := hother.1 ▸ (hrest y).1
  have hle := (h₁.standing x).una_le (h₁.standing y) hxy hroom hok
  have howed : w₁.owed y = [] := hother.2.trans (hrest y).2
  -- it arrives, and is received
  obtain ⟨hacks, hlt⟩ := hgot.received h₂ (h₁.standing y) hxy howed hroom hmem hpush
    (hsame.trans (hnumber.symm.trans huna)) hle hnear
  have hstill := hgot.other.1
  -- the answer arrives
  have hroomx : HasRoom (w₂.net x).kcp := hstill ▸ hfl.room (hrest x).1
  obtain ⟨w₃, w₄, _, segs', _, hs₃, hfl', hs₄, hne, hback⟩ := h₂.answer hxy hroomx (Or.inl hacks) (by
    rw [hstill]
    omega) (fun n hn => by
    rw [hgot.owed, howed, List.nil_append] at hn
    rw [hstill]
    exact hgot.read.recent n hn)
  have h₃ := h₂.calm hs₃
  have hother' : w₃.net x = w₁.net x := (hyx ▸ hfl'.other.1).trans hstill
  -- `y` is not beyond what `x` sent, and so near enough for the answer to be read
  have hrcv := (h₂.standing x).rcvNum_le hxy
  rw [hstill] at hrcv
  have hless := hback.settled (h₃.standing x) hne (hother' ▸ hhead) huna hlt (by
    show (w₂.net y).rcvNum ≤ una + 0x7fff
    omega)
  have hwaits := (h.eased hs₁).waits x
  rw [hother'] at hless
  exact ⟨w₄, (((ReflTransGen.single hs₁).tail hs₂).tail hs₃).tail hs₄, by omega⟩

/-- A flush keeps both sides at rest. -/
theorem Flushed.atRest {current : IUINT32} (h : Flushed conv w w' x current) (hrest : w.AtRest) : w'.AtRest := by
  intro y
  rcases side_cases y x with rfl | rfl
  · exact ⟨h.room (hrest y).1, h.cleared⟩
  · rw [h.other.1, h.other.2]
    exact hrest x.other

/-- A side that found the window closed will ask.  The first flush that finds it closed sets the time
    of the question and sends nothing; so there may be one flush to wait for. -/
theorem Watch.Reached.mind (h : w.Reached conv) (hrest : w.AtRest) (hbuf : (w.net x).kcp.sndBuf = [])
    (hclosed : (w.net x).kcp.rmtWnd = 0) : ∃ w', ReflTransGen Calm w w' ∧ w'.AtRest ∧ (w'.net x).kcp.sndBuf = []
      ∧ (w'.net x).kcp.rmtWnd = 0 ∧ (w'.net x).kcp.probeWait ≠ 0 := by
  by_cases hwait : (w.net x).kcp.probeWait = 0
  · obtain ⟨current, -, hflush⟩ := updateHead_time (w.net x).kcp 0
    obtain ⟨w', hs, hfl⟩ := h.flush x hflush
    refine ⟨w', .single hs, hfl.atRest hrest, ?_, (hfl.spares.rmtWnd x).trans hclosed, ?_⟩
    · rw [hfl.kcp]
      exact pvpIkcpUpdate_empty hflush (h.standing x).sending hbuf hclosed
    · rw [hfl.kcp]
      exact pvpIkcpUpdate_waits hflush hclosed hwait
  · exact ⟨w, .refl, hrest, hbuf, hclosed, hwait⟩

/-- **The question**: the other side, that has all there is, answers what room it has.  It has room,
    being at rest, and the question brings no data, so the window it answers is not closed. -/
theorem Watch.Reached.question (h : w.Reached conv) (hrest : w.AtRest) (hbuf : (w.net x).kcp.sndBuf = [])
    (hclosed : (w.net x).kcp.rmtWnd = 0) (hwait : (w.net x).kcp.probeWait ≠ 0) :
    ∃ w', ReflTransGen Calm w w' ∧ (w'.net x).kcp.rmtWnd ≠ 0 := by
  obtain ⟨y, hxy, hyx⟩ : ∃ y, x.other = y ∧ y.other = x := ⟨x.other, rfl, Side.other_other x⟩
  have hx := h.standing x
  obtain ⟨current, hlate, hflush⟩ := updateHead_time (w.net x).kcp (w.net x).kcp.tsProbe
  obtain ⟨sent, hsent, hask⟩ : ∃ s ∈ flushSegs (updateHead (w.net x).kcp current).2, s.cmd = ikcpCmdWask := by
    obtain ⟨_, _, hset⟩ := updateHead_eq (w.net x).kcp current
    rw [hset]
    exact wask_due hclosed hwait hlate
  obtain ⟨w₁, w₂, segs, news, hs₁, hfl, hs₂, hmem, hgot⟩ := h.ask hrest hxy hflush hsent
  have h₁ := h.calm hs₁
  have h₂ := h₁.calm hs₂
  have hother : w₁.net y = w.net y ∧ w₁.owed y = w.owed y := hxy ▸ hfl.other
  have hstill := hgot.other.1
  have hroom : HasRoom (w₁.net y).kcp := hother.1 ▸ (hrest y).1
  -- nothing is in `snd_buf`, so all of it was received
  have hall : (w₁.net y).rcvNum = (w₁.net x).sndNum := by
    have hempty : (w₁.net x).kcp.sndBuf = [] := by
      rw [hfl.kcp]
      exact pvpIkcpUpdate_empty hflush hx.sending hbuf hclosed
    have hhas : (w₁.net x.other).kcp.has (w₁.net x.other).rcvNum = Set.Iio (w₁.net x).sndNum := by
      refine (h₁.standing x).sound.complete (Set.eq_empty_of_forall_notMem fun n hn => ?_)
      obtain ⟨seg, hseg, -⟩ := hn
      rw [hempty] at hseg
      exact absurd hseg List.not_mem_nil
    rw [hxy] at hhas
    exact (h₁.standing y).rcv.has_below hroom hhas
  have hend := (h₂.standing x).rcvNum_le hxy
  have hnum := hgot.rcvNum
  rw [hstill] at hend
  have hroom₂ := hgot.room hroom (by omega)
  -- the question is noted at `y`, and its next flush answers it
  have hasked : (w₂.net y).kcp.Asked := by
    rw [hgot.kcp]
    exact pvpIkcpInput_asked hgot.abreast.reading.conv (fun s hs => (hgot.noted s hs).accepted) hmem hask current
  obtain ⟨w₃, w₄, current', segs', _, hs₃, hfl', hs₄, hne, hback⟩ := h₂.answer hxy (hstill ▸ hfl.room (hrest x).1)
    (Or.inr hasked) (by
    rw [hstill]
    omega) (fun n hn => by
    rw [hgot.owed, hother.2, (hrest y).2, List.nil_append] at hn
    rw [hstill]
    exact hgot.read.recent n hn)
  refine ⟨w₄, (((ReflTransGen.single hs₁).tail hs₂).tail hs₃).tail hs₄, fun hzero => ?_⟩
  -- the room of `y`, which fits the field of the answer
  have htold : 0 < (ikcpWndUnused (w₂.net y).kcp).toNat ∧ (ikcpWndUnused (w₂.net y).kcp).toNat < 2 ^ 16 := by
    have hwnd := (h₂.standing y).rcvWnd.2
    have hfree : (w₂.net y).kcp.nrcvQue < (w₂.net y).kcp.rcvWnd.toNat := hroom₂
    rw [ikcpWndUnused, if_pos hfree, BitVec.toNat_ofNat]
    omega
  have hwnd := pvpIkcpInput_rmtWnd hback.abreast.reading.conv hback.noted hne htold.2 current'
  rw [← hback.kcp, hzero] at hwnd
  exact absurd hwnd (Nat.ne_of_lt htold.1)

/-- **The window of the other side** is open, or there is data in flight, at rest.  If it is neither,
    the sender asks; the answer costs the rest, so both prepare again, which leaves the window open.
    -/
theorem Watch.Reached.reopen (h : w.Reached conv) (x : Side) : ∃ w', ReflTransGen Calm w w' ∧ w'.AtRest
    ∧ ((w'.net x).kcp.sndBuf ≠ [] ∨ (w'.net x).kcp.rmtWnd ≠ 0) := by
  obtain ⟨w₁, hs₁, hrest₁, -⟩ := h.prepare
  have h₁ := h.calms hs₁
  by_cases hopen : (w₁.net x).kcp.sndBuf ≠ [] ∨ (w₁.net x).kcp.rmtWnd ≠ 0
  · exact ⟨w₁, hs₁, hrest₁, hopen⟩
  obtain ⟨hbuf, hclosed⟩ := not_or.mp hopen
  obtain ⟨w₂, hs₂, hrest₂, hbuf₂, hclosed₂, hwait⟩ := h₁.mind hrest₁ (not_not.mp hbuf) (not_not.mp hclosed)
  obtain ⟨w₃, hs₃, htold⟩ := (h₁.calms hs₂).question hrest₂ hbuf₂ hclosed₂ hwait
  have hs := (hs₁.trans hs₂).trans hs₃
  obtain ⟨w₄, hs₄, hrest₄, hspares⟩ := (h.calms hs).prepare
  refine ⟨w₄, hs.trans hs₄, hrest₄, Or.inr ?_⟩
  rw [hspares.rmtWnd]
  exact htold

/-- **A round**: less waits behind it.  After `reopen` there is either a head to exchange, or
    something in `snd_queue` that one flush moves there first. -/
theorem Watch.Reached.round (h : w.Reached conv) (hwnd : (w.net x).kcp.sndWnd ≠ 0)
    (hwait : pvpIkcpWaitsnd (w.net x).kcp ≠ 0) :
    ∃ w', ReflTransGen Calm w w' ∧ pvpIkcpWaitsnd (w'.net x).kcp < pvpIkcpWaitsnd (w.net x).kcp := by
  obtain ⟨w₁, hs₁, hrest, hopen⟩ := h.reopen x
  have h₁ := h.calms hs₁
  have hx := h₁.standing x
  obtain ⟨-, hsame, hwaits⟩ := h.eases hs₁
  have hle := hwaits x
  by_cases hbuf : (w₁.net x).kcp.sndBuf = []
  · by_cases hqueue : (w₁.net x).kcp.sndQueue = []
    · -- nothing waits at all, which is less than before
      have hnone : pvpIkcpWaitsnd (w₁.net x).kcp = 0 := by
        rw [pvpIkcpWaitsnd, hx.sending.nsndBuf, hx.sending.nsndQue, hbuf, hqueue]
        rfl
      exact ⟨w₁, hs₁, by omega⟩
    · -- a flush puts into `snd_buf` what waits in `snd_queue`
      obtain ⟨current, -, hflush⟩ := updateHead_time (w₁.net x).kcp 0
      obtain ⟨w₂, hs₂, hfl⟩ := h₁.flush x hflush
      have hfilled : (w₂.net x).kcp.sndBuf ≠ [] := by
        rw [hfl.kcp]
        exact pvpIkcpUpdate_fills hflush hx.sending hx.cwnd hbuf hqueue (hsame x ▸ hwnd)
          (hopen.resolve_left (not_not.mpr hbuf))
      obtain ⟨w₃, hs₃, hless⟩ := (h₁.calm hs₂).exchange (hfl.atRest hrest) hfilled
      have hle₂ := (h₁.eased hs₂).waits x
      exact ⟨w₃, (hs₁.tail hs₂).trans hs₃, by omega⟩
  · obtain ⟨w₂, hs₂, hless⟩ := h₁.exchange hrest hbuf
    exact ⟨w₂, hs₁.trans hs₂, by omega⟩

end Rounds

/-! ## All of it -/

/-- Both sides sent; of the datagrams only one arrived, which was not the first. -/
def scattered : List (Side × Act) :=
  [(.a, .update 10), (.b, .update 10), (.a, .sendEx [1, 2] 20), (.a, .sendEx [3] 20), (.b, .sendEx [4] 20),
    (.b, .input 1 30), (.b, .flush)]

end ConnClient.Ikcp
