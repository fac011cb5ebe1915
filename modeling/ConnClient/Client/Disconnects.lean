/-
  A disconnect from the server.

  It comes in one of three ways: as a frame over TCP, as a UDP packet, as a message of KCP.  Each has
  a handler of its own that closes the connection, and a close for such a reason is the last one
  (`innerClose_over`): nothing is open, the session is gone, the net thread is to end, and whatever was
  still to be read is dropped.  The three do not agree on what a disconnect is:

  * the frame carries a reason.  `ReadStream` closes for the three it lists, and for a payload too short
    to carry one; any other reason passes, the one that `ControlDisconnectReason` declares for too many
    packets per second included;
  * a UDP packet of flow 0 and twelve bytes is taken for a route ping before its command is looked at;
  * a message closes for whatever reason, but the loop of `InputToKcp` has to come to it.  It stops at
    an empty message, and what is complete behind that one waits for the next packet, a disconnect
    too; and at a message longer than its buffer, for which it closes with an error, and a close for an
    error ends everything only once the relinks are used up.

  Each of the three is settled by an equivalence: what the handler does to the client on the left, and
  what has to be true of the frame, the packet or the complete messages on the right.

  The third one compares two lists.  The loop takes a front of the complete messages
  (`taken_complete`), and the question is whether the FIRST disconnect among these is in that front.
  `inputToKcp_cases` gives the three ways in which the loop ends; in each the front either contains a
  disconnect, which then is the first one (`first_unique`), or stops before it (`prefix_before`).  A
  message that is too long matters only ahead of the disconnect (`endsTooLong_front`), so the condition
  is about the messages up to the disconnect and none behind it.
-/
import ConnClient.Client.Drain
import ConnClient.Client.Cuts

namespace ConnClient

open ConnClient.Lib ConnClient.Ikcp

/-! ## The last close -/

/-- What is handed to `Output` by the tasks of `out_queue_`. -/
def handedOut : List OutTask → List (List Byte)
  | [] => []
  | .output data :: q => data :: handedOut q
  | _ :: q => handedOut q

theorem handedOut_append (q q' : List OutTask) :
    handedOut (q ++ q') = handedOut q ++ handedOut q' := by
  induction q with
  | nil => rfl
  | cons t q ih =>
    cases t with
    | output data =>
      show data :: handedOut (q ++ q') = data :: (handedOut q ++ handedOut q')
      rw [ih]
    | disconnect | connectSuccess | relinkSuccess | relink => exact ih

/-- Disconnects are not handed out. -/
theorem handedOut_disconnects (rs : List Int) : handedOut (rs.map OutTask.disconnect) = [] := by
  induction rs with
  | nil => rfl
  | cons r rs ih => exact ih

/-- The connection is over for good: nothing is open or left to be read, there is no session, and the
    net thread is to end. -/
structure Over (c : Client) : Prop extends Gone c where
  session : c.kcpSession.kcp = none
  running : c.running = false

variable {env : Env} {n : Nat} {c c' : Client}

/-- **A close for a reason below `CLIENT_CONNECT_ERROR`** is the last one.  The reason is that which
    `InnerClose` goes by: with the relinks used up, every reason is rewritten to one below. -/
theorem innerClose_over {reason : Int} (hlt : closeReason reason c < clientConnectError)
    (hr : innerClose env n reason c = .ok c') :
    Over c' ∧ handedOut c'.outQueue = handedOut c.outQueue := by
  obtain ⟨hnone, hrun, -⟩ := innerClose_terminal hr hlt
  have hgone : Lost id c.heard (innerClose env n reason c) := innerClose_drops env n reason c
  rw [hr] at hgone
  obtain ⟨rs, hs⟩ := innerClose_told hr
  refine ⟨⟨?_, hnone, hrun⟩, ?_⟩
  · cases hgone with
    | returned h => exact h.1
  · rw [hs.told.queue, handedOut_append, handedOut_disconnects, List.append_nil]

/-! ## Over TCP -/

/-- The header of a frame that `tcpFrame` builds. -/
theorem ofBytes_tcpFrame (flow magic : BitVec 32) (cmd : Byte) {msg : List Byte} (rest : List Byte)
    (hfits : csConnHeadSize + msg.length < 2 ^ 31) :
    (CsConnHead.ofBytes (tcpFrame flow magic cmd msg ++ rest)).pkgLen = (csConnHeadSize + msg.length : Nat)
      ∧ (CsConnHead.ofBytes (tcpFrame flow magic cmd msg ++ rest)).cmd = cmd := by
  have hlen : (toBE 4 (csConnHeadSize + msg.length)).length = 4 := length_toBE ..
  have hflow : (toLE 4 flow.toNat).length = 4 := length_toLE ..
  have hfront : tcpFrame flow magic cmd msg ++ rest
      = toBE 4 (csConnHeadSize + msg.length) ++ (toLE 4 flow.toNat ++ (magic.setWidth 8 :: cmd ::
        (msg ++ rest))) := by
    simp only [tcpFrame, List.append_assoc, List.cons_append, List.nil_append]
  rw [hfront]
  constructor
  · show (BitVec.ofNat 32 (ofBE (List.take 4 _))).toInt = _
    rw [List.take_left' hlen, ofBE_toBE, BitVec.toInt_ofNat', Nat.mod_eq_of_lt (by omega)]
    exact Int.bmod_eq_of_le (by omega) (by omega)
  · -- the command is the tenth byte, behind the length, the flow and the magic
    have hnine : 9 = (toBE 4 (csConnHeadSize + msg.length) ++ toLE 4 flow.toNat).length + 1 := by
      rw [List.length_append, hlen, hflow]
    rw [CsConnHead.ofBytes]
    dsimp only
    rw [← List.append_assoc, hnine, List.drop_length_add_append]
    rfl

/-- The frame at the front of the buffer. -/
theorem frame_tcpFrame {flow magic : BitVec 32} {cmd : Byte} {msg rest : List Byte}
    (hbuf : c.readStream.buf = tcpFrame flow magic cmd msg ++ rest)
    (hfits : csConnHeadSize + msg.length < 2 ^ 31) :
    Complete c ∧ c.frame = ⟨cmd, msg.length, msg⟩ ∧ c.head.pkgLen = (csConnHeadSize + msg.length : Nat) := by
  have hlen : c.readStream.len = csConnHeadSize + msg.length + rest.length := by
    rw [← Stream.length_buf, hbuf, List.length_append, length_tcpFrame]
  obtain ⟨hpkg, hcmd⟩ := ofBytes_tcpFrame flow magic cmd rest hfits
  rw [← hbuf] at hpkg hcmd
  have hhead : c.head.pkgLen = (csConnHeadSize + msg.length : Nat) := hpkg
  have hdata : (c.readStream.buf.drop csConnHeadSize).take msg.length = msg := by
    have hten : (toBE 4 (csConnHeadSize + msg.length) ++ toLE 4 flow.toNat
        ++ [magic.setWidth 8, cmd]).length = csConnHeadSize := by
      rw [List.length_append, List.length_append, length_toBE, length_toLE]
      rfl
    rw [hbuf, tcpFrame, List.append_assoc, List.drop_left' hten, List.take_left]
  have hsize : c.head.pkgLen - csConnHeadSize = msg.length := by
    rw [hhead]
    omega
  refine ⟨⟨?_, ?_⟩, ?_, hhead⟩
  · rw [hlen]
    omega
  · rw [hhead, hlen]
    omega
  · rw [Client.frame, CsConnHead.dispatch, hsize, Int.toNat_natCast, hdata]
    congr 1

/-- What the branch of a disconnect does. -/
theorem dispatchFrame_disconnect (cx : Cx) (now : Int) {d : Dispatch} (hd : d.cmd = controlDisconnect) :
    dispatchFrame cx d now c =
      if d.dataLen ≥ 4 then
        if ServerReason (fieldAt d.data 0).toInt then
          Round.done <$> cx.close (fieldAt d.data 0).toInt c
        else .ok (.next c)
      else Round.next <$> cx.close controlServerClose c := by
  rw [dispatchFrame, hd, if_neg (by decide), if_neg (by decide), if_neg (by decide),
    if_neg (by decide), if_pos rfl]
  rfl

/-- The disconnects that `ReadStream` closes for. -/
def Heeded (payload : List Byte) : Prop :=
  payload.length < 4 ∨ ServerReason (fieldAt payload 0).toInt

instance (payload : List Byte) : Decidable (Heeded payload) := inferInstanceAs (Decidable (_ ∨ _))

/-- The branch returns only after a last close. -/
theorem dispatchFrame_heeded {now : Int} {payload : List Byte} {r : Round} (hp : Heeded payload)
    (hr : dispatchFrame (.of env n) ⟨controlDisconnect, payload.length, payload⟩ now c = .ok r) :
    Over r.client ∧ handedOut r.client.outQueue = handedOut c.outQueue := by
  rw [dispatchFrame_disconnect _ _ rfl] at hr
  dsimp only at hr
  -- both branches close for a reason of the server's and hand the client back
  have hround : ∀ {reason : Int} {f : Client → Round}, (∀ c, (f c).client = c) →
      reason < clientConnectError → f <$> (Cx.of env n).close reason c = .ok r →
      Over r.client ∧ handedOut r.client.outQueue = handedOut c.outQueue := by
    intro reason f hf hlt hr
    cases hclose : (Cx.of env n).close reason c with
    | error e =>
      rw [hclose] at hr
      cases hr
    | ok c' =>
      rw [hclose] at hr
      cases hr
      rw [hf]
      exact innerClose_over (closeReason_lt hlt c) hclose
  by_cases hshort : (payload.length : Int) ≥ 4
  · rw [if_pos hshort] at hr
    have hreason : ServerReason (fieldAt payload 0).toInt := by
      rcases hp with hlen | hreason
      · omega
      · exact hreason
    rw [if_pos hreason] at hr
    obtain ⟨-, hlt⟩ := hreason.bounds
    refine hround (fun _ => rfl) ?_ hr
    unfold clientConnectTimeout at hlt
    unfold clientConnectError
    omega
  · rw [if_neg hshort] at hr
    exact hround (fun _ => rfl) (by decide) hr

/-- **A disconnect that is heeded ends the loop**, whatever is buffered behind it. -/
theorem readStream_heeded {flow magic : BitVec 32} {payload rest : List Byte} {now : Int} {m : Nat}
    (hbuf : c.readStream.buf = tcpFrame flow magic controlDisconnect payload ++ rest)
    (hfits : csConnHeadSize + payload.length < 2 ^ 31) (hp : Heeded payload)
    (hr : readStream (.of env n) now m c = .ok c') :
    Over c' ∧ handedOut c'.outQueue = handedOut c.outQueue := by
  obtain ⟨hcomplete, hframe, -⟩ := frame_tcpFrame hbuf hfits
  cases m with
  | zero => cases hr
  | succ m =>
    obtain ⟨r, h₁, h₂⟩ := bind_eq_ok.mp hr
    rw [readRound_complete hcomplete, hframe] at h₁
    obtain ⟨r₁, hdispatch, hskip⟩ := bind_eq_ok.mp h₁
    have hover := dispatchFrame_heeded hp hdispatch
    cases r₁ with
    | done c₁ =>
      cases hskip
      cases h₂
      exact hover
    | next c₁ =>
      -- the loop goes on, and finds nothing to read
      cases hskip
      obtain ⟨⟨hgone, hnone, hrun⟩, hout⟩ := hover
      have hempty : (c₁.readStream.skip c.head.pkgLen).len < csConnHeadSize := by
        have hzero : c₁.readStream.len = 0 := hgone.readStream
        rw [Stream.len_skip_of_empty hzero]
        decide
      cases m with
      | zero => cases h₂
      | succ m =>
        change readStream (.of env n) now (m + 1) _ = _ at h₂
        rw [readStream_done (readRound_short hempty)] at h₂
        cases h₂
        exact ⟨⟨hgone.skip _, hnone, hrun⟩, hout⟩

/-- **Any other disconnect is skipped.** -/
theorem readStream_ignored {flow magic : BitVec 32} {payload : List Byte} (cx : Cx) (now : Int)
    (hbuf : c.readStream.buf = tcpFrame flow magic controlDisconnect payload)
    (hfits : csConnHeadSize + payload.length < 2 ^ 31) (hp : ¬ Heeded payload) :
    ∃ c', readStream cx now 2 c = .ok c' ∧ c'.tcpSock = c.tcpSock := by
  rw [← List.append_nil (tcpFrame ..)] at hbuf
  obtain ⟨hcomplete, hframe, hpkg⟩ := frame_tcpFrame hbuf hfits
  have hlong : (payload.length : Int) ≥ 4 := by
    have hnot : ¬ payload.length < 4 := fun h => hp (Or.inl h)
    omega
  have hdispatch : dispatchFrame cx c.frame now c.take = .ok (.next c.take) := by
    rw [hframe, dispatchFrame_disconnect _ _ rfl]
    exact (if_pos hlong).trans (if_neg fun h => hp (Or.inr h))
  have hempty : (c.take.readStream.skip c.head.pkgLen).len < csConnHeadSize := by
    have hlen : c.take.readStream.len = csConnHeadSize + payload.length := by
      rw [← Stream.length_buf]
      show c.readStream.buf.length = _
      rw [hbuf, List.append_nil, length_tcpFrame]
    rw [hpkg, Stream.len_skip (Int.natCast_nonneg _), Int.toNat_natCast, hlen, Nat.sub_self]
    decide
  refine ⟨{ c.take with readStream := c.take.readStream.skip c.head.pkgLen }, ?_, rfl⟩
  rw [readStream_next hcomplete hdispatch, readStream_done (readRound_short hempty)]

/-! ## Over UDP -/

/-- A packet of the current flow that says the server disconnects. -/
structure DisconnectPacket (c : Client) (pkg : List Byte) : Prop where
  header : csUdpConnHeadSize ≤ pkg.length
  flow : BitVec.ofNat 32 (ofLE (pkg.take 4)) = c.flow
  cmd : (pkg.drop 5).headD 0 = controlDisconnect

/-- The packets that are measured and nothing else. -/
def RoutePing (pkg : List Byte) : Prop :=
  pkg.length = 12 ∧ BitVec.ofNat 32 (ofLE (pkg.take 4)) = (0 : BitVec 32)

instance (pkg : List Byte) : Decidable (RoutePing pkg) := inferInstanceAs (Decidable (_ ∧ _))

/-- A packet that is a disconnect closes, unless it passes for a route ping. -/
theorem onUdpRead_disconnect {cx : Cx} {pkg : List Byte} {now : Int} (hsock : c.udpSock ≠ -1)
    (hp : DisconnectPacket c (pkg.take maxUdpPkgLen)) :
    onUdpRead cx (.datagram pkg) now c =
      if RoutePing (pkg.take maxUdpPkgLen) then .ok c else cx.close controlServerClose c := by
  rw [onUdpRead, if_neg hsock]
  refine (if_pos hp.header).trans ?_
  rw [udpDatagram]
  by_cases hping : RoutePing (pkg.take maxUdpPkgLen)
  · rw [if_pos hping]
    exact if_pos hping
  · rw [if_neg hping]
    refine (if_neg hping).trans ?_
    rw [if_neg (fun h => h hp.flow), hp.cmd, if_neg (by decide), if_neg (by decide), if_pos rfl]

/-! ## Over KCP -/

/-- The loop of `InputToKcp` comes to the last of these messages and takes it: they are no more than
    the loop has rounds, and none of them ends it, by being empty or too long for the buffer. -/
def Arrives (ms : List (List Byte)) : Prop := ms.length ≤ whileLimit ∧ ∀ m ∈ ms, passes m

instance (ms : List (List Byte)) : Decidable (Arrives ms) := inferInstanceAs (Decidable (_ ∧ _))

/-- These messages, a disconnect the last, end the connection: the loop comes to the disconnect; or a
    message longer than its buffer is in the way, and there is no relink left, so that the close for
    that error ends everything. -/
def Heard (c : Client) (ms : List (List Byte)) : Prop :=
  Arrives ms ∨ EndsTooLong (ms.take whileLimit) ∧ c.exhausted = true

section

variable {before after : List (List Byte)} {m : List Byte}

/-- Messages without a disconnect that come first stand in front of it. -/
theorem prefix_before {taken : List (List Byte)} (hpre : taken <+: before ++ m :: after)
    (hm : m.headD 0 = controlDisconnect) (hno : ∀ x ∈ taken, x.headD 0 ≠ controlDisconnect) :
    taken <+: before := by
  rcases List.prefix_or_prefix_of_prefix hpre (List.prefix_append before (m :: after)) with h | h
  · exact h
  · obtain ⟨t, rfl⟩ := h
    rw [List.prefix_append_right_inj] at hpre
    cases t with
    | nil =>
      rw [List.append_nil]
    | cons x t =>
      -- what follows would be the disconnect
      obtain ⟨rfl, -⟩ := List.cons_prefix_cons.mp hpre
      exact absurd hm (hno x (List.mem_append_right _ (List.mem_cons_self ..)))

/-- The disconnect that comes first is one disconnect. -/
theorem first_unique {before' after' : List (List Byte)} {m' : List Byte}
    (heq : before' ++ m' :: after' <+: before ++ m :: after)
    (hno : ∀ x ∈ before, x.headD 0 ≠ controlDisconnect) (hm : m.headD 0 = controlDisconnect)
    (hno' : ∀ x ∈ before', x.headD 0 ≠ controlDisconnect)
    (hm' : m'.headD 0 = controlDisconnect) : before' = before ∧ m' = m := by
  obtain ⟨t, ht⟩ := prefix_before ((List.prefix_append before' (m' :: after')).trans heq) hm hno'
  subst ht
  rw [List.append_assoc, List.prefix_append_right_inj] at heq
  cases t with
  | nil =>
    obtain ⟨hsame, -⟩ := List.cons_prefix_cons.mp heq
    exact ⟨(List.append_nil _).symm, hsame⟩
  | cons x t =>
    obtain ⟨rfl, -⟩ := List.cons_prefix_cons.mp heq
    exact absurd hm' (hno m' (List.mem_append_right _ (List.mem_cons_self ..)))

/-- **Where the loop comes to the disconnect, it takes it.** -/
theorem mem_taken_of_arrives {k : IKCPCB} (hms : k.complete = before ++ m :: after)
    (h : Arrives (before ++ [m])) : m ∈ k.taken whileLimit := by
  have hsplit : k.complete = (before ++ [m]) ++ after := by
    rw [hms, List.append_assoc]
    rfl
  rw [taken_complete, hsplit, List.take_append, List.take_of_length_le h.1,
    List.takeWhile_append_of_pos h.2]
  exact List.mem_append_left _ (List.mem_append_right _ (List.mem_singleton.mpr rfl))

/-- **Where the loop takes it, it has come to it.** -/
theorem arrives_of_taken {k : IKCPCB} (hpre : before ++ [m] <+: k.taken whileLimit) :
    Arrives (before ++ [m]) := by
  rw [taken_complete] at hpre
  refine ⟨?_, fun x hx => List.mem_takeWhile_imp (hpre.subset hx)⟩
  have hlen := (hpre.trans (List.takeWhile_prefix _)).length_le
  have htake := List.length_take_le whileLimit k.complete
  omega

/-- **A message that ends the loop with an error** ahead of the disconnect ends it whatever is behind
    the disconnect. -/
theorem endsTooLong_front {k : IKCPCB} (hms : k.complete = before ++ m :: after)
    (hm : m.headD 0 = controlDisconnect)
    (hno : ∀ x ∈ k.taken whileLimit, x.headD 0 ≠ controlDisconnect) :
    EndsTooLong (k.complete.take whileLimit) ↔ EndsTooLong ((before ++ [m]).take whileLimit) := by
  have hsplit : k.complete = (before ++ [m]) ++ after := by
    rw [hms, List.append_assoc]
    rfl
  rw [taken_complete] at hno
  rw [hsplit, List.take_append] at hno ⊢
  rw [EndsTooLong, EndsTooLong, List.dropWhile_append]
  by_cases hall : ((before ++ [m]).take whileLimit).dropWhile passes = []
  · -- the loop gets past all of these: the disconnect is not among them, and the rounds are over
    have hpass := List.dropWhile_eq_nil_iff.mp hall
    rw [List.takeWhile_append_of_pos hpass] at hno
    have hover : (before ++ [m]).length > whileLimit := by
      by_contra hle
      rw [List.take_of_length_le (Nat.not_lt.mp hle)] at hno
      refine hno m (List.mem_append_left _ ?_) hm
      exact List.mem_append_right _ (List.mem_singleton.mpr rfl)
    rw [hall, Nat.sub_eq_zero_of_le (Nat.le_of_lt hover), List.take_zero]
    exact Iff.rfl
  · have hne : (((before ++ [m]).take whileLimit).dropWhile passes).isEmpty = false :=
      List.isEmpty_eq_false_iff.mpr hall
    rw [hne, if_neg Bool.false_ne_true, List.head?_append, List.head?_eq_some_head hall]
    exact Iff.rfl

end

/-! ## All three -/

/-- What a disconnect is for: everything is over, and nothing more is handed out. -/
def EndsAll (c c' : Client) : Prop := Over c' ∧ handedOut c'.outQueue = handedOut c.outQueue

/-- With a socket open, nothing is over. -/
theorem not_endsAll (htcp : c'.tcpSock ≠ -1) : ¬ EndsAll c c' := fun h => htcp h.1.tcpSock

/-- A buffer can hold what fits one, and nothing else. -/
theorem exists_buf {bytes : List Byte} (hpos : 0 < bytes.length) (hfits : bytes.length ≤ streamMaxSize) :
    ∃ s : Stream, s.buf = bytes := by
  have hlen : (0 : Int) < (bytes.length : Int) := Int.natCast_pos.mpr hpos
  have hroom : (Stream.new.ensureWritable bytes.length).1 = true := by
    rw [Stream.ensureWritable_fst hlen, Int.toNat_natCast]
    show 0 + _ ≤ _
    omega
  exact ⟨_, Stream.buf_addSize_ensureWritable hlen hroom (Nat.le_refl _)⟩

/-- A frame: a heeded one ends everything, and one that is not heeded leaves the socket open where
    nothing is behind it. -/
theorem disconnectFrame_ends (htcp : c.tcpSock ≠ -1) {payload : List Byte}
    (hfits : csConnHeadSize + payload.length ≤ streamMaxSize) :
    (∀ env n flow magic s rest now m c',
        s.buf = tcpFrame flow magic controlDisconnect payload ++ rest →
        readStream (.of env n) now m { c with readStream := s } = .ok c' → EndsAll c c') ↔
      Heeded payload := by
  have hsize : csConnHeadSize + payload.length < 2 ^ 31 := by
    unfold streamMaxSize at hfits
    omega
  constructor
  · intro hall
    -- a frame that is not heeded is skipped, so the socket stays open
    by_cases hp : Heeded payload
    · exact hp
    have hlen : (tcpFrame 0 0 controlDisconnect payload).length = csConnHeadSize + payload.length :=
      length_tcpFrame ..
    have hpos : 0 < (tcpFrame 0 0 controlDisconnect payload).length := by
      rw [hlen, csConnHeadSize]
      omega
    obtain ⟨s, hbuf⟩ := exists_buf hpos (by rw [hlen]; exact hfits)
    obtain ⟨c', hr, hsock⟩ := readStream_ignored (c := { c with readStream := s })
      (.of (sampleEnv 0) 0) 0 hbuf hsize hp
    have hframe : s.buf = tcpFrame 0 0 controlDisconnect payload ++ [] := by
      rw [hbuf, List.append_nil]
    have hend := hall _ _ _ _ s [] _ _ c' hframe hr
    refine absurd hend (not_endsAll ?_)
    rw [hsock]
    exact htcp
  · intro hp env n flow magic s rest now m c' hbuf hr
    exact readStream_heeded (c := { c with readStream := s }) hbuf hsize hp hr

/-- What a disconnect is for that comes behind these messages of its packet: everything is over, and
    what has been handed out comes in front of it.  Nothing is said of how much of that was handed
    out, since a message that is too long cuts it off. -/
def EndsAfter (before : List (List Byte)) (c c' : Client) : Prop :=
  Over c' ∧ ∃ front, front <+: before ∧ handedOut c'.outQueue
    = handedOut c.outQueue ++ handedOut (if c.cb.output then outputsOf front else [])

/-- A message: it ends everything exactly if it is heard. -/
theorem disconnectMessage_ends {k k' : IKCPCB} {msg : List Byte} {now : Int}
    {before after : List (List Byte)} {m : List Byte} (hk : c.kcpSession.kcp = some k)
    (hin : pvpIkcpInput k msg (BitVec.ofInt 32 now) = (0, k'))
    (hms : k'.complete = before ++ m :: after)
    (hno : ∀ x ∈ before, x.headD 0 ≠ controlDisconnect) (hm : m.headD 0 = controlDisconnect)
    (hr : inputToKcp (.of env n) msg now c = .ok c') :
    EndsAfter before c c' ↔ Heard c (before ++ [m]) := by
  have htaken : k'.taken whileLimit <+: before ++ m :: after := by
    rw [taken_complete, ← hms]
    exact (List.takeWhile_prefix _).trans (List.take_prefix ..)
  have hlast : (k'.afterLoop whileLimit 0).1 = -3 ↔ EndsTooLong (k'.complete.take whileLimit) :=
    afterLoop_tooLong (by decide)
  obtain ⟨c₁, rfl, hcases⟩ := inputToKcp_cases hk hin hr
  rcases hcases with ⟨hnone, hend, hleft⟩ | ⟨hnone, hend, hclose⟩ |
    ⟨before', m', after', k₁, hsome, hno', hm', hclose⟩
  · -- the loop came to an end in front of the disconnect, and the session goes on
    refine ⟨fun h => ?_, fun h => ?_⟩
    · have hsession := h.1.session
      rw [hleft] at hsession
      cases hsession
    · rcases h with harrives | ⟨hlong, -⟩
      · exact absurd hm (hnone m (mem_taken_of_arrives hms harrives))
      · exact absurd (hlast.mpr ((endsTooLong_front hms hm hnone).mpr hlong)) hend
  · -- a message in front of the disconnect was too long: a close for an error
    have hfront := prefix_before htaken hm hnone
    have hlong := (endsTooLong_front hms hm hnone).mp (hlast.mp hend)
    cases hx : c.exhausted with
    | true =>
      have hreason : ∀ c₂ : Client, c₂.exhausted = true →
          closeReason clientConnectError c₂ < clientConnectError := by
        intro c₂ hx₂
        rw [closeReason, if_pos hx₂]
        decide
      obtain ⟨hover, hout⟩ := innerClose_over (hreason _ (by exact hx)) hclose
      refine ⟨fun _ => Or.inr ⟨hlong, hx⟩, fun _ => ⟨hover, _, hfront, ?_⟩⟩
      rw [hout, Client.drained, handedOut_append]
    | false =>
      obtain ⟨-, hsame⟩ := innerClose_error hclose (Int.le_refl _) (by exact hx)
      refine ⟨fun h => ?_, fun h => ?_⟩
      · have hsession := h.1.session
        rw [hsame] at hsession
        cases hsession
      · rcases h with harrives | ⟨-, hused⟩
        · exact absurd hm (hnone m (mem_taken_of_arrives hms harrives))
        · rw [hx] at hused
          cases hused
  · -- the loop came to the disconnect
    rw [hsome] at htaken
    obtain ⟨rfl, rfl⟩ := first_unique htaken hno hm hno' hm'
    obtain ⟨hover, hout⟩ := innerClose_over (closeReason_lt (by decide) _) hclose
    refine ⟨fun _ => Or.inl (arrives_of_taken (k := k') ⟨after', ?_⟩), fun _ => ⟨hover, before', ?_, ?_⟩⟩
    · rw [hsome, List.append_assoc]
      rfl
    · exact List.prefix_rfl
    · rw [hout, Client.drained, handedOut_append]

/-- The last of the server's reasons in `ControlDisconnectReason`. -/
def controlOverpassLimitPkgPerSec : Int := 3

end ConnClient
