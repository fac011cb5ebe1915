/-
  How the bytes of the server are cut into reads does not matter.

  What the server sends is a list of frames.  `served` handles them one by one, each as a whole, and
  counts how many it gets to: up to and including the first whose handler closes the connection.
  Whatever the cut, `OnTcpRead` and `ReadStream` dispatch exactly these frames, in this order, each
  once and with its own command and payload (`frames_dispatched`).

  Between two reads `read_stream_` holds the beginning of the next frame.  A frame of at most
  16 MiB - 16 KiB leaves room for a read behind that, so none is refused.  That the handlers go the
  same way although they run at other times is `dispatchFrame_same`; where the frames lie is a matter
  of `ConnClient.Lib.Framing`.

  Two cuts are never compared with each other.  Both are compared with `served`, which knows no reads
  at all: `Waiting` says that the unread bytes and those still to come are the frames not yet served,
  a read moves bytes from one to the other, and the loop moves a frame off the front.  The client of
  the reads and the client of `served` agree in what the handlers look at (`view`), not in all: their
  clocks differ, and so do the times of their pings.

    one read     `readStream_dispatches`, by induction on the frames that are left;
    all reads    `deliver_dispatches`, by induction on the reads, with the rest of the reads in the
                 place of `rest`.
-/
import ConnClient.Lib.Framing
import ConnClient.Client.Rounds

namespace ConnClient

open ConnClient.Lib ConnClient.Ikcp

/-! ## Frames -/

/-- A TCP frame, whose `sec_pkg_len` is its length. -/
structure Frame where
  bytes : List Byte
  header : csConnHeadSize ≤ bytes.length
  fits : bytes.length + recvOneTimeSize ≤ streamMaxSize
  declared : (CsConnHead.ofBytes bytes).pkgLen = bytes.length

namespace Frame

/-- The bytes of these frames. -/
def stream (frames : List Frame) : List Byte := (frames.map Frame.bytes).flatten

/-- What the branch of the command is given. -/
def dispatch (f : Frame) : Dispatch where
  cmd := (CsConnHead.ofBytes f.bytes).cmd
  dataLen := f.bytes.length - csConnHeadSize
  data := f.bytes.drop csConnHeadSize

/-- What `ReadStream` records of a frame. -/
def heard (f : Frame) (v : BitVec 32 × BitVec 32 × List Dispatch) :
    BitVec 32 × BitVec 32 × List Dispatch :=
  ((CsConnHead.ofBytes f.bytes).flow, (CsConnHead.ofBytes f.bytes).magic.setWidth 32,
    f.dispatch :: v.2.2)

/-- The frame is about to be dispatched. -/
def take (f : Frame) (c : Client) : Client :=
  { c with
    flow := (CsConnHead.ofBytes f.bytes).flow
    magic := (CsConnHead.ofBytes f.bytes).magic.setWidth 32
    dispatched := f.dispatch :: c.dispatched }

end Frame

/-- What `ReadStream` has recorded after these frames. -/
def heardAfter : List Frame → BitVec 32 × BitVec 32 × List Dispatch →
    BitVec 32 × BitVec 32 × List Dispatch
  | [], v => v
  | f :: fs, v => heardAfter fs (f.heard v)

/-- How many of the frames are handled, one by one, before the connection is closed. -/
def served (cx : Cx) : List Frame → Client → Nat
  | [], _ => 0
  | f :: fs, c =>
    match dispatchFrame cx f.dispatch 0 (f.take c) with
    | .ok (.next c') => if c'.tcpSock = -1 then 1 else served cx fs c' + 1
    | _ => 1

/-- The reads of `recv` one after the other, each at its time, as long as the socket is open. -/
def deliver (w : World) : List (Int × List Byte) → Client → M Client
  | [], c => .ok c
  | (curTime, data) :: rest, c => do
    deliver w rest (← tcpEvent { w with tcp := .readable data } curTime c)

/-- A cut of the frames into reads. -/
structure Cutting (frames : List Frame) where
  reads : List (Int × List Byte)
  size : ∀ r ∈ reads, 1 ≤ r.2.length ∧ r.2.length ≤ recvOneTimeSize
  whole : (reads.map Prod.snd).flatten = Frame.stream frames

/-! ## Where the frames lie -/

/-- The length in the header, once the header is there. -/
def declaredLen (buf : List Byte) : Option Int :=
  if buf.length < csConnHeadSize then none else some (CsConnHead.ofBytes buf).pkgLen

/-- The header is in the first ten bytes. -/
theorem ofBytes_append {buf : List Byte} (h : csConnHeadSize ≤ buf.length) (more : List Byte) :
    CsConnHead.ofBytes (buf ++ more) = CsConnHead.ofBytes buf := by
  unfold csConnHeadSize at h
  have hhead : ∀ n, n < buf.length → ((buf ++ more).drop n).headD 0 = (buf.drop n).headD 0 := by
    intro n hn
    rw [List.headD_eq_head?_getD, List.headD_eq_head?_getD, List.head?_drop, List.head?_drop,
      List.getElem?_append_left hn]
  have htake : ∀ n, n + 4 ≤ buf.length →
      ((buf ++ more).drop n).take 4 = (buf.drop n).take 4 := by
    intro n hn
    rw [List.drop_append_of_le_length (by omega), List.take_append_of_le_length
      (by rw [List.length_drop]; omega)]
  have h0 := htake 0 (by omega)
  rw [List.drop_zero, List.drop_zero] at h0
  unfold CsConnHead.ofBytes
  rw [h0, htake 4 (by omega), hhead 8 (by omega), hhead 9 (by omega)]

theorem declaredLen_stable : Stable declaredLen := by
  intro buf more n h
  unfold declaredLen at h ⊢
  split at h
  · nomatch h
  · rename_i hlen
    rw [if_neg (by rw [List.length_append]; omega), ofBytes_append (Nat.le_of_not_lt hlen)]
    exact h

theorem Frame.declaredLen (f : Frame) : declaredLen f.bytes = some (f.bytes.length : Int) := by
  unfold ConnClient.declaredLen
  rw [if_neg (Nat.not_lt_of_le f.header), f.declared]

theorem Frame.stream_cons (f : Frame) (fs : List Frame) :
    Frame.stream (f :: fs) = f.bytes ++ Frame.stream fs := by
  simp only [Frame.stream, List.map_cons, List.flatten_cons]

variable {cx cx' : Cx} {c d : Client} {f : Frame} {fs : List Frame} {more : List Byte}

/-- The next frame is complete: it is the one at the front, and behind it go on the others. -/
theorem frame_complete (h : c.readStream.buf ++ more = Frame.stream (f :: fs))
    (hle : f.bytes.length ≤ c.readStream.len) :
    Complete c ∧ c.take = f.take c ∧ c.frame = f.dispatch ∧ c.head.pkgLen = f.bytes.length
      ∧ (c.readStream.skip f.bytes.length).buf ++ more = Frame.stream fs := by
  rw [Frame.stream_cons] at h
  rw [← Stream.length_buf] at hle
  obtain ⟨rest, hbuf, hrest, -⟩ := front_of_le declaredLen_stable f.declaredLen h hle
  -- what is behind the frame does not change its header
  have hhead : c.head = CsConnHead.ofBytes f.bytes := by
    unfold Client.head
    rw [hbuf, ofBytes_append f.header]
  have hpkg : c.head.pkgLen = f.bytes.length := by rw [hhead, f.declared]
  have hframe : c.frame = f.dispatch := by
    have hdata : (c.readStream.buf.drop csConnHeadSize).take (f.bytes.length - csConnHeadSize)
        = f.bytes.drop csConnHeadSize := by
      rw [hbuf, List.drop_append_of_le_length f.header, ← List.length_drop, List.take_left]
    have hlen : (c.head.pkgLen - csConnHeadSize).toNat = f.bytes.length - csConnHeadSize := by
      rw [hpkg]
      omega
    unfold Client.frame CsConnHead.dispatch Frame.dispatch
    rw [hlen, hdata, hpkg, hhead]
  refine ⟨⟨?_, ?_⟩, ?_, hframe, hpkg, ?_⟩
  · exact Nat.le_trans f.header (by rwa [Stream.length_buf] at hle)
  · rw [hpkg, ← Stream.length_buf]
    exact Int.ofNat_le.mpr hle
  · unfold Client.take Frame.take Client.look
    rw [hframe, hhead]
  · rw [Stream.buf_skip (Int.natCast_nonneg _), Int.toNat_natCast, hbuf, List.drop_left, hrest]

/-- The next frame is not complete. -/
theorem frame_unfinished (h : c.readStream.buf ++ more = Frame.stream (f :: fs))
    (hlt : c.readStream.len < f.bytes.length) :
    c.readStream.len < csConnHeadSize ∨ (c.readStream.len : Int) < c.head.pkgLen := by
  rw [Frame.stream_cons] at h
  rw [← Stream.length_buf] at hlt ⊢
  rcases unfinished_of_lt declaredLen_stable f.declaredLen h hlt with hnone | hsome
  · left
    unfold declaredLen at hnone
    split at hnone
    · assumption
    · nomatch hnone
  · right
    unfold declaredLen at hsome
    split at hsome
    · nomatch hsome
    · have hpkg : c.head.pkgLen = f.bytes.length := Option.some.inj hsome
      rw [hpkg]
      exact Int.ofNat_lt.mpr hlt

/-! ## One read -/

/-- The connection is open, the frames `todo` are what is left, and the bytes `more` are still to
    come. -/
structure Waiting (todo : List Frame) (more : List Byte) (c : Client) : Prop where
  sock : c.tcpSock ≠ -1
  bytes : c.readStream.buf ++ more = Frame.stream todo

/-- No complete frame is left in the buffer. -/
def CaughtUp : List Frame → Client → Prop
  | [], _ => True
  | f :: _, c => c.readStream.len < f.bytes.length

/-- What is to be shown of a run that gets to the end of the stream: whether it returns or stops, it
    has dispatched the frames that `served` counts, and if it returns nothing is left unread. -/
def Dispatches (cx : Cx) (todo : List Frame) (d : Client)
    (v : BitVec 32 × BitVec 32 × List Dispatch) : M Client → Prop :=
  Ends (fun c => c.readStream.buf = [] ∧ c.heard = heardAfter (todo.take (served cx todo d)) v)
    (fun e => e.2.heard = heardAfter (todo.take (served cx todo d)) v)

/-- At least one frame is served, if there is one; so what was recorded of the header of a partial
    one does not matter. -/
theorem Dispatches.look {v v' : BitVec 32 × BitVec 32 × List Dispatch} {r : M Client}
    (hv : v.2.2 = v'.2.2) (h : Dispatches cx (f :: fs) d v r) : Dispatches cx (f :: fs) d v' r := by
  have hsame : heardAfter ((f :: fs).take (served cx (f :: fs) d)) v
      = heardAfter ((f :: fs).take (served cx (f :: fs) d)) v' := by
    have hpos : ∃ k, served cx (f :: fs) d = k + 1 := by
      unfold served
      split
      · split
        · exact ⟨0, rfl⟩
        · exact ⟨_, rfl⟩
      · exact ⟨0, rfl⟩
    obtain ⟨k, hk⟩ := hpos
    rw [hk, List.take_succ_cons]
    unfold heardAfter Frame.heard
    rw [hv]
  unfold Dispatches at h ⊢
  rw [hsame] at h
  exact h

/-- The loop ends on a buffer without a complete frame. -/
theorem readStream_done {curTime : Int} {c' : Client}
    (h : readRound cx curTime c = .ok (.done c')) (n : Nat) :
    readStream cx curTime (n + 1) c = .ok c' := by
  unfold readStream
  rw [h]
  rfl

/-- A handler that loses the connection is the last one: the loop finds nothing more to read. -/
theorem readStream_lost {curTime : Int} {v : BitVec 32 × BitVec 32 × List Dispatch}
    (hcomplete : Complete c)
    (hl : Lost Round.client v (dispatchFrame cx c.frame curTime c.take)) (n : Nat) :
    Lost id v (readStream cx curTime (n + 2) c) := by
  have hround : Lost Round.client v (readRound cx curTime c) := by
    rw [readRound_complete hcomplete]
    refine hl.bind fun r hr => .returned ?_
    cases r with
    | done c₁ => exact hr
    | next c₁ => exact ⟨hr.1.skip _, hr.2⟩
  unfold readStream
  refine hround.bind fun r hr => ?_
  cases r with
  | done c₁ => exact .returned hr
  | next c₁ =>
    have hlen : c₁.readStream.len = 0 := hr.1.readStream
    have hempty : c₁.readStream.len < csConnHeadSize := by
      rw [hlen]
      decide
    show Lost id v (readStream cx curTime (n + 1) c₁)
    rw [readStream_done (readRound_short hempty)]
    exact .returned hr

/-- A handler that goes on leaves the rest of the buffer to the next round. -/
theorem readStream_next {curTime : Int} {c₁ : Client} (hcomplete : Complete c)
    (hr : dispatchFrame cx c.frame curTime c.take = .ok (.next c₁)) (n : Nat) :
    readStream cx curTime (n + 1) c
      = readStream cx curTime n { c₁ with readStream := c₁.readStream.skip c.head.pkgLen } := by
  conv => lhs; unfold readStream
  rw [readRound_complete hcomplete, hr]
  rfl

/-- A frame whose handler loses the connection is the last one that is served. -/
theorem served_lost {v : BitVec 32 × BitVec 32 × List Dispatch}
    (hl : Lost Round.client v (dispatchFrame cx f.dispatch 0 (f.take d))) : served cx (f :: fs) d = 1 := by
  rw [served]
  generalize dispatchFrame cx f.dispatch 0 (f.take d) = r at hl
  cases hl with
  | stopped _ => rfl
  | @returned r hg =>
    cases r with
    | done _ => rfl
    | next d₁ => exact if_pos hg.1.tcpSock

/-- A frame whose handler goes on is served, and others after it. -/
theorem served_next {d₁ : Client} (hr : dispatchFrame cx f.dispatch 0 (f.take d) = .ok (.next d₁))
    (hsock : d₁.tcpSock ≠ -1) : served cx (f :: fs) d = served cx fs d₁ + 1 := by
  rw [served, hr]
  exact if_neg hsock

/-- With a frame that loses the connection the buffer is empty, and nothing after it is dispatched. -/
theorem dispatches_lost {curTime : Int} {rest : Client → M Client}
    {v : BitVec 32 × BitVec 32 × List Dispatch} (hgone : ∀ c, Gone c → rest c = .ok c)
    (hw : Waiting (f :: fs) more c) (hle : f.bytes.length ≤ c.readStream.len)
    (hl : Lost Round.client c.take.heard (dispatchFrame cx c.frame curTime c.take))
    (hl' : Lost Round.client v (dispatchFrame cx' f.dispatch 0 (f.take d))) (n : Nat) :
    Dispatches cx' (f :: fs) d c.heard (readStream cx curTime (n + 2) c >>= rest) := by
  obtain ⟨hcomplete, htake, -⟩ := frame_complete hw.bytes hle
  have hheard : heardAfter ((f :: fs).take (served cx' (f :: fs) d)) c.heard = c.take.heard := by
    rw [served_lost hl', htake]
    rfl
  unfold Dispatches
  rw [hheard]
  refine (readStream_lost hcomplete hl n).bind fun c₁ hc₁ => ?_
  have hempty : c₁.readStream.buf.length = 0 := by
    rw [Stream.length_buf]
    exact hc₁.1.readStream
  rw [hgone c₁ hc₁.1]
  exact .returned ⟨List.eq_nil_of_length_eq_zero hempty, hc₁.2⟩

/-- **One read**: the loop dispatches the frames that are complete, up to one that loses the
    connection, and `rest` goes on from there.  Induction on the frames that are left. -/
theorem readStream_dispatches (h : Drops cx) (h' : Drops cx') (henv : cx.env.send = cx'.env.send)
    {curTime : Int} {rest : Client → M Client} {bound : Nat}
    (hrest : ∀ todo c d, todo.length < bound → Waiting todo more c → CaughtUp todo c →
      c.view = d.view → Dispatches cx' todo d c.heard (rest c))
    (hgone : ∀ c, Gone c → rest c = .ok c) :
    ∀ (todo : List Frame) {n : Nat} {c d : Client}, todo.length < bound → todo.length < n →
      Waiting todo more c → c.view = d.view →
      Dispatches cx' todo d c.heard (readStream cx curTime n c >>= rest)
  | [], n, c, d, hb, hn, hw, hv => by
    obtain ⟨m, rfl⟩ : ∃ m, n = m + 1 := ⟨n - 1, by rw [List.length_nil] at hn; omega⟩
    have hbuf : c.readStream.buf = [] := (List.append_eq_nil_iff.mp hw.bytes).1
    have hempty : c.readStream.len < csConnHeadSize := by
      rw [← Stream.length_buf, hbuf]
      decide
    rw [readStream_done (readRound_short hempty)]
    exact hrest [] c d hb hw trivial hv
  | f :: fs, n, c, d, hb, hn, hw, hv => by
    rw [List.length_cons] at hn
    obtain ⟨m, rfl⟩ : ∃ m, n = m + 2 := ⟨n - 2, by omega⟩
    by_cases hle : f.bytes.length ≤ c.readStream.len
    · obtain ⟨hcomplete, htake, hframe, hpkg, hbytes⟩ := frame_complete hw.bytes hle
      have hv₁ : c.take.view = (f.take d).view := hv
      have hsame := dispatchFrame_same h h' henv hv₁ f.dispatch curTime 0
      rw [← hframe] at hsame
      generalize hr : dispatchFrame cx c.frame curTime c.take = r at hsame
      generalize hr' : dispatchFrame cx' c.frame 0 (f.take d) = r' at hsame
      cases hsame with
      -- both runs lose the connection at this frame
      | lost hl hl' => exact dispatches_lost hgone hw hle (hr ▸ hl) (by rw [← hframe, hr']; exact hl') m
      | stays hs hs' hv₂ hnext =>
        obtain ⟨c₁, d₁, rfl, rfl⟩ := hnext
        have hsock : d₁.tcpSock ≠ -1 := by
          rw [show d₁.tcpSock = d.tcpSock from hs'.tcpSock,
            ← show c.tcpSock = d.tcpSock from congrArg View.tcpSock hv]
          exact hw.sock
        have hserved : served cx' (f :: fs) d = served cx' fs d₁ + 1 :=
          served_next (by rw [← hframe]; exact hr') hsock
        have hread : c₁.readStream = c.readStream := hs.readStream
        let c₂ : Client := { c₁ with readStream := c₁.readStream.skip c.head.pkgLen }
        have hw₂ : Waiting fs more c₂ := by
          refine ⟨?_, ?_⟩
          · show c₁.tcpSock ≠ -1
            rw [show c₁.tcpSock = c.tcpSock from hs.tcpSock]
            exact hw.sock
          · show (c₁.readStream.skip c.head.pkgLen).buf ++ more = _
            rw [hread, hpkg]
            exact hbytes
        have hv₃ : c₂.view = d₁.view := hv₂
        have ih : Dispatches cx' fs d₁ c₂.heard (readStream cx curTime (m + 1) c₂ >>= rest) :=
          readStream_dispatches h h' henv hrest hgone fs (Nat.lt_of_succ_lt hb) (by omega) hw₂ hv₃
        rw [readStream_next hcomplete hr]
        have hheard : c₂.heard = f.heard c.heard := by
          show c₁.heard = _
          rw [show c₁.heard = c.take.heard from hs.heard, htake]
          rfl
        unfold Dispatches at ih ⊢
        rw [hserved]
        rw [hheard] at ih
        exact ih
    · -- the frame is not complete: it waits for the next read, with or without its header
      have hlt : c.readStream.len < f.bytes.length := Nat.lt_of_not_le hle
      have hshort := frame_unfinished hw.bytes hlt
      by_cases hhead : c.readStream.len < csConnHeadSize
      · rw [readStream_done (readRound_short hhead)]
        exact hrest _ c d hb hw hlt hv
      · rw [readStream_done (readRound_unfinished (Nat.le_of_not_lt hhead) (hshort.resolve_left hhead))]
        have hlook := hrest (f :: fs) c.look d hb ⟨hw.sock, hw.bytes⟩ hlt hv
        show Dispatches cx' (f :: fs) d c.heard (rest c.look)
        exact hlook.look (by rfl)

/-! ## All reads -/

/-- A lost connection is not read from. -/
theorem deliver_gone (w : World) : ∀ (reads : List (Int × List Byte)) {c : Client}, c.tcpSock = -1 →
    deliver w reads c = .ok c
  | [], _, _ => rfl
  | (curTime, data) :: rest, c, h => by
    unfold deliver tcpEvent
    rw [if_pos h]
    exact deliver_gone w rest h

/-- **A read has room**: what is unread is the beginning of one frame. -/
theorem room_for_read {todo : List Frame} (hw : Waiting todo more c) (hc : CaughtUp todo c) :
    (c.readStream.ensureWritable recvOneTimeSize).1 = true := by
  rw [Stream.ensureWritable_fst (by decide), Int.toNat_natCast]
  cases todo with
  | nil =>
    have hbuf : c.readStream.buf = [] := (List.append_eq_nil_iff.mp hw.bytes).1
    rw [← Stream.length_buf, hbuf]
    decide
  | cons f fs =>
    have hlt : c.readStream.len < f.bytes.length := hc
    have hfits := f.fits
    omega

/-- Reading puts the bytes of the read behind the unread ones, and starts the loop. -/
theorem onTcpRead_eq {todo : List Frame} (hw : Waiting todo more c) (hc : CaughtUp todo c)
    {data : List Byte} (hpos : 1 ≤ data.length) (hle : data.length ≤ recvOneTimeSize)
    (curTime : Int) (n : Nat) :
    ∃ s : Stream, s.buf = c.readStream.buf ++ data
      ∧ onTcpRead cx n data curTime c = readStream cx curTime n { c with readStream := s } := by
  have hroom := room_for_read hw hc
  refine ⟨(c.readStream.ensureWritable recvOneTimeSize).2.addSize data,
    Stream.buf_addSize_ensureWritable (by decide) hroom (by rwa [Int.toNat_natCast]), ?_⟩
  have hmake : makeReadRoom cx c
      = .ok { c with readStream := (c.readStream.ensureWritable recvOneTimeSize).2 } := by
    unfold makeReadRoom
    generalize c.readStream.ensureWritable recvOneTimeSize = r at hroom
    obtain ⟨room, s⟩ := r
    cases hroom
    rfl
  unfold onTcpRead
  rw [hmake]
  show (if (if c.tcpSock = -1 then [] else data.take recvOneTimeSize).length > 0 then _ else _) = _
  rw [if_neg hw.sock, List.take_of_length_le hle,
    if_pos (show data.length > 0 from hpos)]

/-- **Any number of reads.**  Induction on them. -/
theorem deliver_dispatches (w : World) (h' : Drops cx') (henv : w.env.send = cx'.env.send) :
    ∀ (reads : List (Int × List Byte)) {todo : List Frame} {c d : Client},
      (∀ r ∈ reads, 1 ≤ r.2.length ∧ r.2.length ≤ recvOneTimeSize) → todo.length < w.rounds →
      Waiting todo (reads.map Prod.snd).flatten c → CaughtUp todo c → c.view = d.view →
      Dispatches cx' todo d c.heard (deliver w reads c)
  | [], todo, c, d, _, _, hw, hc, _ => by
    -- nothing is to come, and no complete frame is left: so no frame is left
    have hbytes : c.readStream.buf = Frame.stream todo := by
      have h := hw.bytes
      rwa [List.map_nil, List.flatten_nil, List.append_nil] at h
    cases todo with
    | nil => exact .returned ⟨hbytes, rfl⟩
    | cons f fs =>
      have hlt : c.readStream.len < f.bytes.length := hc
      have hlen := congrArg List.length hbytes
      rw [Frame.stream_cons, List.length_append, Stream.length_buf] at hlen
      omega
  | (curTime, data) :: rest, todo, c, d, hsize, hn, hw, hc, hv => by
    obtain ⟨hpos, hle⟩ := hsize (curTime, data) (List.mem_cons_self ..)
    obtain ⟨s, hs, hread⟩ : ∃ s : Stream, s.buf = c.readStream.buf ++ data
        ∧ onTcpRead w.cx w.rounds data curTime c
          = readStream w.cx curTime w.rounds { c with readStream := s } :=
      onTcpRead_eq hw hc hpos hle curTime w.rounds
    have hstep : deliver w ((curTime, data) :: rest) c
        = readStream w.cx curTime w.rounds { c with readStream := s } >>= deliver w rest := by
      rw [← hread]
      conv => lhs; unfold deliver tcpEvent
      rw [if_neg hw.sock]
      rfl
    have hw₁ : Waiting todo (rest.map Prod.snd).flatten { c with readStream := s } := by
      refine ⟨hw.sock, ?_⟩
      have h := hw.bytes
      rw [List.map_cons, List.flatten_cons, ← List.append_assoc, ← hs] at h
      exact h
    rw [hstep]
    refine readStream_dispatches (innerClose_drops w.env w.depth) h' henv ?_ ?_ todo hn hn hw₁ hv
    · intro todo c d hb hw hc hv
      exact deliver_dispatches w h' henv rest
        (fun r hr => hsize r (List.mem_cons_of_mem _ hr)) hb hw hc hv
    · intro c hg
      exact deliver_gone w rest hg.tcpSock

/-- **However the stream is cut into reads, the same frames are dispatched**: in order, each once,
    with its own command and payload, up to and including the first whose handler closes the
    connection.  When both runs have returned, nothing is left unread in either, and `flow_` and
    `magic_` are the same. -/
theorem frames_dispatched {frames : List Frame} {c : Client} (hopen : c.tcpSock ≠ -1)
    (hempty : c.readStream.buf = []) {w w' : World} (hsend : w.env.send = w'.env.send)
    (hw : frames.length < w.rounds) (hw' : frames.length < w'.rounds) (cut cut' : Cutting frames) :
    Dispatches w.cx frames c c.heard (deliver w cut.reads c)
      ∧ Dispatches w.cx frames c c.heard (deliver w' cut'.reads c) := by
  have hwait : ∀ cut : Cutting frames, Waiting frames (cut.reads.map Prod.snd).flatten c := by
    intro cut
    refine ⟨hopen, ?_⟩
    rw [hempty, List.nil_append]
    exact cut.whole
  have hcaught : CaughtUp frames c := by
    cases frames with
    | nil => exact trivial
    | cons f fs =>
      show c.readStream.len < f.bytes.length
      rw [← Stream.length_buf, hempty]
      exact Nat.lt_of_lt_of_le (by decide) f.header
  have hdrops := innerClose_drops w.env w.depth
  exact ⟨deliver_dispatches w hdrops rfl cut.reads cut.size hw (hwait cut) hcaught rfl,
    deliver_dispatches w' hdrops hsend.symm cut'.reads cut'.size hw' (hwait cut') hcaught rfl⟩

/-- A message, a login, a goodbye, and a message that comes too late. -/
def sampleFrames : List Frame :=
  [⟨tcpFrame 1 0 controlUnreliableMsg [5], by decide, by decide, by decide⟩,
    ⟨sampleLabel, by decide, by decide, by decide⟩,
    ⟨tcpFrame 1 0 controlDisconnect [0, 0, 0, 0], by decide, by decide, by decide⟩,
    ⟨tcpFrame 1 0 controlUnreliableMsg [6], by decide, by decide, by decide⟩]

/-- All at once. -/
def sampleWhole : Cutting sampleFrames where
  reads := [(0, Frame.stream sampleFrames)]
  size := by decide
  whole := by decide

/-- Byte by byte. -/
def sampleBytewise : Cutting sampleFrames where
  reads := (Frame.stream sampleFrames).map fun b => (7, [b])
  size := by decide
  whole := by decide

/-- Three of the four frames, either way. -/
theorem frames_dispatched_sample :
    served (sampleWorld 2000).cx sampleFrames (sampleUnread []) = 3
    ∧ Dispatches (sampleWorld 2000).cx sampleFrames (sampleUnread []) (sampleUnread []).heard
      (deliver (sampleWorld 2000) sampleWhole.reads (sampleUnread []))
    ∧ Dispatches (sampleWorld 2000).cx sampleFrames (sampleUnread []) (sampleUnread []).heard
      (deliver (sampleWorld 2000) sampleBytewise.reads (sampleUnread [])) :=
  ⟨by decide +kernel, frames_dispatched (by decide) (by decide) rfl (by decide) (by decide)
    sampleWhole sampleBytewise⟩

end ConnClient
