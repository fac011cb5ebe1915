/-
  The loop of `ReadStream`: when it ends.

  The length of a frame is the server's word, a signed number.  The loop tests it only against the
  bytes buffered, so a frame of fewer bytes than a header passes for complete, and then

  * its payload has a negative length, which a branch that looks at the payload is given;
  * a round that skips it removes fewer bytes than a header, and none at all if the length is not
    positive: the next round finds the same frame (`readStream_spins`).

  Everything else is in order.  A round does what it should exactly if the frame is `Framed`, and
  when every round the loop gets to is, the loop ends (`readStream_ends`).

  Two commands get away with a short frame, and the proof has to find out why.  A `CONTROL_KCP_INFO`
  tests the length of its payload and closes when it is too short, so nothing is skipped.  A
  `CONTROL_SYNC_LABEL` does not look at its payload, and its branch sends the ping of a login: if that
  closes the connection, the buffer is emptied and there is no next round.  When it does is decided by
  the room in the write buffer, the socket and the outcome of one send (`PingCloses`), and
  `login_cases` says that it is decided by nothing else.

  The handlers are not asked to return by themselves, since one may nest for ever in a flush; that
  they do is a hypothesis (`HandlersReturn`), about the rounds with a payload in order.
-/
import ConnClient.Client.Handlers
import ConnClient.Client.System

namespace ConnClient

open ConnClient.Lib ConnClient.Ikcp

/-! ## One round -/

/-- The header at the front of `read_stream_`. -/
def Client.head (c : Client) : CsConnHead := .ofBytes c.readStream.buf

/-- The frame at the front of `read_stream_`. -/
def Client.frame (c : Client) : Dispatch := c.head.dispatch c.readStream.buf

/-- The header at the front is there, and the frame passes for complete. -/
structure Complete (c : Client) : Prop where
  header : csConnHeadSize ≤ c.readStream.len
  frame : c.head.pkgLen ≤ c.readStream.len

/-- The header was looked at. -/
def Client.look (c : Client) : Client :=
  { c with flow := c.head.flow, magic := c.head.magic.setWidth 32 }

/-- The frame is about to be dispatched. -/
def Client.take (c : Client) : Client := { c.look with dispatched := c.frame :: c.dispatched }

variable {cx : Cx} {curTime : Int} {c : Client}

theorem readRound_complete (h : Complete c) : readRound cx curTime c
    = dispatchFrame cx c.frame curTime c.take >>= fun r => .ok (r.skip c.head.pkgLen) := by
  unfold readRound
  rw [if_neg (Nat.not_lt_of_le h.header)]
  exact if_neg (Int.not_lt.mpr h.frame)

theorem readRound_short (h : c.readStream.len < csConnHeadSize) :
    readRound cx curTime c = .ok (.done c) := if_pos h

theorem readRound_unfinished (h : csConnHeadSize ≤ c.readStream.len)
    (h' : (c.readStream.len : Int) < c.head.pkgLen) :
    readRound cx curTime c = .ok (.done c.look) := by
  unfold readRound
  rw [if_neg (Nat.not_lt_of_le h)]
  exact if_pos h'

/-- Without a complete frame the loop ends. -/
theorem readRound_done (h : ¬ Complete c) : ∃ c', readRound cx curTime c = .ok (.done c') := by
  by_cases hlen : c.readStream.len < csConnHeadSize
  · exact ⟨c, readRound_short hlen⟩
  · refine ⟨c.look, readRound_unfinished (Nat.le_of_not_lt hlen) (Int.not_le.mp fun hle => h ⟨?_, hle⟩)⟩
    exact Nat.le_of_not_lt hlen

/-! ## What a round should do -/

/-- The branch of the command looks at the payload.  (`CreateKCP` is called only for a payload that
    is long enough, and without a session.) -/
def Dispatch.handed (d : Dispatch) (null : Bool) : Prop :=
  d.cmd = controlPing ∨ d.cmd = controlReliableMsg ∨ d.cmd = controlUnreliableMsg
    ∨ d.cmd = controlDisconnect
    ∨ (d.cmd = controlKcpInfo ∧ d.dataLen ≥ sizeofControlKCPInfo ∧ null = true)

/-- The payload a branch looks at is non-negative in length, and buffered. -/
def PayloadOk (c : Client) : Prop :=
  Complete c → c.frame.handed c.kcpSession.isNull →
    0 ≤ c.frame.dataLen ∧ c.frame.dataLen + csConnHeadSize ≤ c.readStream.len

/-- The loop returns, the connection is closed, or a header's length of bytes is removed. -/
def Progress (c : Client) : Round → Prop
  | .done _ => True
  | .next c' => Gone c' ∨ c'.readStream.len + csConnHeadSize ≤ c.readStream.len

/-- What is asked of a round. -/
structure RoundOk (cx : Cx) (curTime : Int) (c : Client) : Prop where
  payload : PayloadOk c
  progress : ∃ r, readRound cx curTime c = .ok r ∧ Progress c r

/-- `Rounds cx curTime c c₁` — a round of `ReadStream`, called on `c`, starts in `c₁`. -/
inductive Rounds (cx : Cx) (curTime : Int) (c : Client) : Client → Prop where
  | first : Rounds cx curTime c c
  | next {c₁ c₂ : Client} (h : Rounds cx curTime c c₁)
      (hr : readRound cx curTime c₁ = .ok (.next c₂)) : Rounds cx curTime c c₂

/-- What is asked of `ReadStream`: it returns, and every round is as it should be. -/
def ReadOk (cx : Cx) (curTime : Int) (c : Client) : Prop :=
  (∃ n c', readStream cx curTime n c = .ok c')
  ∧ ∀ c₁, Rounds cx curTime c c₁ → RoundOk cx curTime c₁

/-- The handlers return, unless they are given a negative length. -/
def HandlersReturn (cx : Cx) (curTime : Int) (c : Client) : Prop :=
  ∀ c₁, Rounds cx curTime c c₁ → PayloadOk c₁ → ∃ r, readRound cx curTime c₁ = .ok r

/-- The ping of a login closes the connection: there is no room for its 18 bytes, or the send
    fails for good. -/
def PingCloses (env : Env) (c : Client) : Prop :=
  streamMaxSize < c.writeStream.len + (csConnHeadSize + 8) ∨ c.tcpSock = -1
  ∨ ((env.send c.nsend).1 ≤ 0 ∧ (env.send c.nsend).2 = .other)

/-- The frame at the front, if one passes for complete, has a header's length at least — or it is
    one of the two commands with nothing to look at and nothing to skip: a `CONTROL_KCP_INFO`,
    which closes when it is too short, and a `CONTROL_SYNC_LABEL` whose ping closes. -/
def Framed (env : Env) (c : Client) : Prop :=
  Complete c → csConnHeadSize ≤ c.head.pkgLen ∨ c.head.cmd = controlKcpInfo
    ∨ (c.head.cmd = controlSyncLabel ∧ PingCloses env c)

/-! ## The ping of a login -/

/-- A write of a buffer that is not empty. -/
theorem onTcpWrite_cases (cx : Cx) {c : Client} (hlen : c.writeStream.len ≠ 0) :
    ((c.tcpSock = -1 ∨ (cx.env.send c.nsend).1 ≤ 0 ∧ (cx.env.send c.nsend).2 = .other)
      ∧ ∃ c₁, onTcpWrite cx c = cx.close clientConnectError c₁ ∧ c₁.heard = c.heard)
    ∨ (¬ (c.tcpSock = -1 ∨ (cx.env.send c.nsend).1 ≤ 0 ∧ (cx.env.send c.nsend).2 = .other)
      ∧ ∃ c₁, onTcpWrite cx c = .ok c₁ ∧ c₁.readStream = c.readStream
        ∧ c₁.connState = c.connState) := by
  unfold onTcpWrite sendEx
  rw [if_neg hlen]
  dsimp only
  by_cases hs : c.tcpSock = -1
  · rw [if_pos hs]
    exact Or.inl ⟨Or.inl hs, c, rfl, rfl⟩
  rw [if_neg hs]
  dsimp only
  by_cases hpos : min (cx.env.send c.nsend).1 c.writeStream.len > 0
  · rw [if_pos hpos]
    refine Or.inr ⟨?_, ?_⟩
    · rintro (he | ⟨he, -⟩)
      · exact hs he
      · omega
    · split <;> exact ⟨_, rfl, rfl, rfl⟩
  rw [if_neg hpos]
  have hneg : (cx.env.send c.nsend).1 ≤ 0 := by omega
  cases he : (cx.env.send c.nsend).2 with
  -- any `errno` but these two is an error for good
  | other =>
    rw [if_neg (by decide)]
    exact Or.inl ⟨Or.inr ⟨hneg, rfl⟩, _, rfl, rfl⟩
  | wouldBlock =>
    rw [if_pos (Or.inl rfl)]
    refine Or.inr ⟨?_, _, rfl, rfl, rfl⟩
    rintro (h | ⟨-, h⟩)
    · exact hs h
    · nomatch h
  | intr =>
    rw [if_pos (Or.inr rfl)]
    refine Or.inr ⟨?_, _, rfl, rfl, rfl⟩
    rintro (h | ⟨-, h⟩)
    · exact hs h
    · nomatch h

/-- A frame with eight bytes of payload. -/
theorem sendPing_cases (cx : Cx) (c : Client) {msg : List Byte} (hmsg : msg.length = 8) :
    (PingCloses cx.env c ∧ ∃ c₁, sendTCPBuf cx controlPing msg c = cx.close clientConnectError c₁
      ∧ c₁.heard = c.heard)
    ∨ (¬ PingCloses cx.env c ∧ ∃ c₁, sendTCPBuf cx controlPing msg c = .ok c₁
      ∧ c₁.readStream = c.readStream ∧ c₁.connState = c.connState) := by
  have hpos : (0 : Int) < (csConnHeadSize + 8 : Nat) := by decide
  have hroom := Stream.ensureWritable_fst hpos c.writeStream
  have hframe : (tcpFrame c.flow c.magic controlPing msg).length = csConnHeadSize + 8 := by
    rw [length_tcpFrame, hmsg]
  unfold sendTCPBuf
  rw [hmsg]
  dsimp only
  -- no room for the frame closes before anything is written
  cases hr : (c.writeStream.ensureWritable (csConnHeadSize + 8 : Nat)).1 with
  | false =>
    rw [if_pos rfl]
    refine Or.inl ⟨Or.inl ?_, _, rfl, rfl⟩
    rw [hr] at hroom
    exact Nat.lt_of_not_le fun hle => Bool.false_ne_true (hroom.mpr hle)
  | true =>
    rw [if_neg (by decide)]
    have hfits := hroom.mp hr
    have hput := Stream.len_addSize_ensureWritable hpos hr (by rw [hframe]; rfl)
    rw [hframe] at hput
    generalize (c.writeStream.ensureWritable _).2.addSize _ = s at hput ⊢
    let c₁ : Client := { c with writeStream := s }
    have hlen : c₁.writeStream.len ≠ 0 := by
      show s.len ≠ 0
      omega
    rcases onTcpWrite_cases cx hlen with ⟨hfail, hclose⟩ | ⟨hsent, hok⟩
    · exact Or.inl ⟨Or.inr hfail, hclose⟩
    · refine Or.inr ⟨?_, hok⟩
      rintro (hbig | hfail)
      · exact absurd hfits (Nat.not_le_of_lt hbig)
      · exact hsent hfail

/-- **A login** — the ping, and then the notification — loses the connection exactly when
    `PingCloses` says so. -/
theorem login_cases (h : Drops cx) (c : Client) (t : OutTask) (p : Client → Bool) :
    (PingCloses cx.env c
      ∧ Lost id c.heard (loginPing cx c >>= fun c => .ok (if p c then c.notify t else c)))
    ∨ (¬ PingCloses cx.env c
      ∧ ∃ c₁, (loginPing cx c >>= fun c => .ok (if p c then c.notify t else c)) = .ok c₁
        ∧ c₁.readStream = c.readStream ∧ c₁.connState = .logicConnected) := by
  let now := cx.env.clock (c.nclock + 1)
  let c₁ := (getTimeMs cx.env (setConnState cx.env .logicConnected c)).2
  let c₂ : Client := { c₁ with tcpPingExpire := c₁.tcpPingExpire.reset now }
  have hping : loginPing cx c = sendTCPBuf cx.fromLogin controlPing
      (toLE 8 (BitVec.ofInt 64 now).toNat) { c₂ with pingSeq := now } :=
    sendTcpPing_immediate (c := c₂) cx.fromLogin now rfl
  have hsame : PingCloses cx.fromLogin.env { c₂ with pingSeq := now } ↔ PingCloses cx.env c := by
    unfold PingCloses
    exact Iff.rfl
  rcases sendPing_cases cx.fromLogin { c₂ with pingSeq := now }
    (length_toLE 8 (BitVec.ofInt 64 now).toNat) with ⟨hp, c₃, hr, hv⟩ | ⟨hp, c₃, hr, hread, hst⟩
  · refine Or.inl ⟨hsame.mp hp, ?_⟩
    rw [hping, hr]
    have hlost : Lost id c.heard (cx.fromLogin.close clientConnectError c₃) :=
      (show c₃.heard = c.heard from hv) ▸ h.fromLogin clientConnectError c₃
    refine hlost.bind fun c₄ ⟨hg, hv₄⟩ => ?_
    split
    · exact .returned ⟨⟨hg.connState, hg.tcpSock, hg.udpSock, hg.readStream⟩, hv₄⟩
    · exact .returned ⟨hg, hv₄⟩
  · refine Or.inr ⟨mt hsame.mpr hp, ?_⟩
    rw [hping, hr]
    refine ⟨_, rfl, ?_⟩
    split <;> exact ⟨hread, hst⟩

/-- The branch of a `CONTROL_SYNC_LABEL`. -/
theorem syncLabel_cases (h : Drops cx) {d : Dispatch} (hd : d.cmd = controlSyncLabel) (c : Client)
    (curTime : Int) :
    (PingCloses cx.env c ∧ Lost Round.client c.heard (dispatchFrame cx d curTime c))
    ∨ (¬ PingCloses cx.env c ∧ ∃ c₁, dispatchFrame cx d curTime c = .ok (.next c₁)
      ∧ c₁.readStream = c.readStream ∧ c₁.connState = .logicConnected) := by
  let c₀ : Client := { c with isFirstConnect := false }
  have hbranch : dispatchFrame cx d curTime c
      = (if c.isFirstConnect then connectSuccess cx c₀ else reConnectSuccess cx c)
        >>= fun c => .ok (.next c) := by
    unfold dispatchFrame
    rw [hd]
    cases c.isFirstConnect <;> rfl
  have hcases : (PingCloses cx.env c
      ∧ Lost id c.heard (if c.isFirstConnect then connectSuccess cx c₀ else reConnectSuccess cx c))
    ∨ (¬ PingCloses cx.env c
      ∧ ∃ c₁, (if c.isFirstConnect then connectSuccess cx c₀ else reConnectSuccess cx c) = .ok c₁
        ∧ c₁.readStream = c.readStream ∧ c₁.connState = .logicConnected) := by
    have hsame : PingCloses cx.env c₀ ↔ PingCloses cx.env c := by
      unfold PingCloses
      exact Iff.rfl
    split
    · rw [← hsame]
      exact login_cases h c₀ .connectSuccess fun c => c.cb.connectSuccess
    · exact login_cases h c .relinkSuccess fun c => c.cb.reconnectSuccess
  rw [hbranch]
  rcases hcases with ⟨hp, hlost⟩ | ⟨hp, c₁, hok, hread, hst⟩
  · exact Or.inl ⟨hp, hlost.bind fun _ hl => .returned hl⟩
  · exact Or.inr ⟨hp, c₁, by rw [hok]; rfl, hread, hst⟩

/-! ## A round on a framed buffer -/

theorem Gone.skip (h : Gone c) (n : Int) : Gone { c with readStream := c.readStream.skip n } :=
  ⟨h.connState, h.tcpSock, h.udpSock, Stream.len_skip_of_empty h.readStream n⟩

/-- After a lost connection there is nothing for the next round. -/
theorem Progress.of_gone {r : Round} (h : Gone r.client) (n : Int) : Progress c (r.skip n) := by
  cases r with
  | done c' => exact trivial
  | next c' => exact Or.inl (h.skip n)

theorem dataLen_frame (c : Client) : c.frame.dataLen = c.head.pkgLen - csConnHeadSize := rfl

/-- A `CONTROL_KCP_INFO` that is too short is not looked at. -/
theorem kcpInfo_short {d : Dispatch} (hd : d.cmd = controlKcpInfo)
    (hlen : d.dataLen < sizeofControlKCPInfo) (c : Client) :
    dispatchFrame cx d curTime c
      = cx.close clientConnectError c >>= fun c => .ok (.done c) := by
  have hno : ¬ (d.dataLen ≥ sizeofControlKCPInfo ∧ c.kcpSession.isNull = true) := by
    rintro ⟨hge, -⟩
    omega
  unfold dispatchFrame
  rw [hd]
  exact if_neg hno

theorem payloadOk_of_framed (hf : Framed cx.env c) : PayloadOk c := by
  intro hcomplete hhanded
  have hle := hcomplete.frame
  rw [dataLen_frame]
  unfold csConnHeadSize
  -- what is looked at is not short
  suffices hlong : (csConnHeadSize : Int) ≤ c.head.pkgLen by
    unfold csConnHeadSize at hlong
    omega
  rcases hf hcomplete with hlong | hinfo | ⟨hsync, -⟩
  · exact hlong
  · have hcmd : c.frame.cmd = controlKcpInfo := hinfo
    unfold Dispatch.handed at hhanded
    rw [hcmd] at hhanded
    rcases hhanded with he | he | he | he | ⟨-, he, -⟩
    · nomatch he
    · nomatch he
    · nomatch he
    · nomatch he
    · rw [dataLen_frame] at he
      unfold sizeofControlKCPInfo at he
      omega
  · have hcmd : c.frame.cmd = controlSyncLabel := hsync
    unfold Dispatch.handed at hhanded
    rw [hcmd] at hhanded
    rcases hhanded with he | he | he | he | ⟨he, -⟩ <;> nomatch he

/-- **A framed round that returns is as it should be.** -/
theorem roundOk_of_framed (h : Drops cx) (hf : Framed cx.env c)
    (hret : PayloadOk c → ∃ r, readRound cx curTime c = .ok r) : RoundOk cx curTime c := by
  have hpayload := payloadOk_of_framed hf
  refine ⟨hpayload, ?_⟩
  by_cases hcomplete : Complete c
  · obtain ⟨r, hr⟩ := hret hpayload
    refine ⟨r, hr, ?_⟩
    rw [readRound_complete hcomplete] at hr
    obtain ⟨r₁, h₁, h₂⟩ := bind_eq_ok.mp hr
    cases h₂
    have hsame := dispatchFrame_same h h rfl (c := c.take) rfl c.frame curTime curTime
    rw [h₁] at hsame
    cases hsame with
    | lost hl _ =>
      cases hl with
      | returned hg => exact .of_gone hg.1 _
    | stays hs _ _ hnext =>
      obtain ⟨c₁, -, rfl, -⟩ := hnext
      have hread : c₁.readStream = c.readStream := hs.readStream
      -- the branch went on, so it is the frame's length that is removed
      -- the branch went on, so the two commands that may be short are out
      have hlong : (csConnHeadSize : Int) ≤ c.head.pkgLen := by
        by_contra hshort
        rcases hf hcomplete with hlong | hinfo | ⟨hsync, hping⟩
        · exact hshort hlong
        · have hlen : c.frame.dataLen < sizeofControlKCPInfo := by
            rw [dataLen_frame]
            unfold sizeofControlKCPInfo
            omega
          rw [kcpInfo_short (by exact hinfo) hlen] at h₁
          obtain ⟨c₂, -, h₂⟩ := bind_eq_ok.mp h₁
          nomatch h₂
        · rcases syncLabel_cases h (d := c.frame) hsync c.take curTime with ⟨-, hl⟩ | ⟨hno, -⟩
          · rw [h₁] at hl
            cases hl with
            | returned hg =>
              have hempty := hg.1.readStream
              have hhead := hcomplete.header
              rw [show (Round.next c₁).client.readStream = c.readStream from hread] at hempty
              rw [hempty] at hhead
              exact absurd hhead (by decide)
          · exact hno hping
      refine Or.inr ?_
      have hle := hcomplete.frame
      show (c₁.readStream.skip c.head.pkgLen).len + csConnHeadSize ≤ c.readStream.len
      unfold csConnHeadSize at hlong ⊢
      rw [hread, Stream.len_skip (by omega)]
      omega
  · obtain ⟨c₁, hr⟩ : ∃ c', readRound cx curTime c = .ok (.done c') := readRound_done hcomplete
    exact ⟨_, hr, trivial⟩

/-- A short frame that is skipped takes less than a header with it, and closes nothing. -/
theorem not_progress_of_short {c₁ : Client} (hcomplete : Complete c)
    (hshort : c.head.pkgLen < csConnHeadSize) (hread : c₁.readStream = c.readStream) :
    ¬ Progress c ((Round.next c₁).skip c.head.pkgLen) := by
  have hhead := hcomplete.header
  have hleft : c.readStream.len < (c₁.readStream.skip c.head.pkgLen).len + csConnHeadSize := by
    unfold csConnHeadSize at hshort hhead ⊢
    rw [hread]
    by_cases hneg : c.head.pkgLen < 0
    · rw [Stream.skip_negative hneg]
      omega
    · rw [Stream.len_skip (Int.not_lt.mp hneg)]
      omega
  rintro (hg | hle)
  · have hempty : (c₁.readStream.skip c.head.pkgLen).len = 0 := hg.readStream
    omega
  · have hle' : (c₁.readStream.skip c.head.pkgLen).len + csConnHeadSize ≤ c.readStream.len := hle
    omega

/-- **A round that is as it should be is framed.** -/
theorem framed_of_roundOk (h : Drops cx) (hok : RoundOk cx curTime c) : Framed cx.env c := by
  intro hcomplete
  by_contra hno
  obtain ⟨hshort, hinfo, hsync⟩ := not_or.mp hno |>.imp_right not_or.mp
  have hneg : c.frame.dataLen < 0 := by
    rw [dataLen_frame]
    omega
  -- no branch is given the negative length
  have hblind : ¬ c.frame.handed c.kcpSession.isNull := fun hh =>
    absurd (hok.payload hcomplete hh).1 (Int.not_le.mpr hneg)
  obtain ⟨h2, h0, h1, h4, -⟩ := not_or.mp hblind |>.imp_right fun h =>
    not_or.mp h |>.imp_right fun h => not_or.mp h |>.imp_right not_or.mp
  obtain ⟨r, hr, hprogress⟩ := hok.progress
  rw [readRound_complete hcomplete] at hr
  obtain ⟨r₁, h₁, h₂⟩ := bind_eq_ok.mp hr
  cases h₂
  -- what is left are the branches that look at nothing: they leave the buffer as it is
  have hstay : ∃ c₁, r₁ = .next c₁ ∧ c₁.readStream = c.readStream := by
    by_cases h7 : c.frame.cmd = controlSyncLabel
    · rcases syncLabel_cases h (d := c.frame) h7 c.take curTime with ⟨hp, -⟩ | ⟨-, c₁, he, hread, -⟩
      · exact absurd ⟨h7, by exact hp⟩ hsync
      · rw [he] at h₁
        cases h₁
        exact ⟨c₁, rfl, hread⟩
    · unfold dispatchFrame at h₁
      rw [if_neg h2, if_neg h0, if_neg h1, if_neg (by exact hinfo), if_neg h4, if_neg h7] at h₁
      cases h₁
      exact ⟨c.take, rfl, rfl⟩
  obtain ⟨c₁, rfl, hread⟩ := hstay
  exact not_progress_of_short hcomplete (Int.not_le.mp hshort) hread hprogress

/-! ## The loop -/

/-- Rounds that are as they should be end.  Induction on the bytes unread. -/
theorem readStream_returns (hok : ∀ c₁, Rounds cx curTime c c₁ → RoundOk cx curTime c₁) :
    ∀ (m : Nat) {c₁ : Client}, Rounds cx curTime c c₁ → c₁.readStream.len < m →
      ∃ n c', readStream cx curTime n c₁ = .ok c'
  | 0, _, _, hm => absurd hm (Nat.not_lt_zero _)
  | m + 1, c₁, hrounds, hm => by
    obtain ⟨r, hr, hprogress⟩ := (hok c₁ hrounds).progress
    cases r with
    | done c' =>
      refine ⟨1, c', ?_⟩
      unfold readStream
      rw [hr]
      rfl
    | next c₂ =>
      -- the round was not the last, so there was a header
      have hhead : csConnHeadSize ≤ c₁.readStream.len := by
        by_contra hlt
        rw [readRound_short (Nat.lt_of_not_le hlt)] at hr
        nomatch hr
      have hless : c₂.readStream.len < m := by
        unfold csConnHeadSize at hhead
        rcases hprogress with hg | hle
        · rw [hg.readStream]
          omega
        · unfold csConnHeadSize at hle
          omega
      obtain ⟨n, c', hn⟩ := readStream_returns hok m (hrounds.next hr) hless
      refine ⟨n + 1, c', ?_⟩
      unfold readStream
      rw [hr]
      exact hn

instance (c : Client) : Decidable (Complete c) :=
  decidable_of_iff (csConnHeadSize ≤ c.readStream.len ∧ c.head.pkgLen ≤ c.readStream.len)
    ⟨fun h => ⟨h.1, h.2⟩, fun h => ⟨h.header, h.frame⟩⟩

instance (env : Env) (c : Client) : Decidable (PingCloses env c) :=
  inferInstanceAs (Decidable (streamMaxSize < c.writeStream.len + (csConnHeadSize + 8)
    ∨ c.tcpSock = -1 ∨ ((env.send c.nsend).1 ≤ 0 ∧ (env.send c.nsend).2 = .other)))

instance (env : Env) (c : Client) : Decidable (Framed env c) :=
  inferInstanceAs (Decidable (Complete c → csConnHeadSize ≤ c.head.pkgLen
    ∨ c.head.cmd = controlKcpInfo ∨ (c.head.cmd = controlSyncLabel ∧ PingCloses env c)))

/-- The loop ends within `n` rounds that all return and are framed, as a test. -/
def framedRounds (cx : Cx) (curTime : Int) : Nat → Client → Bool
  | 0, _ => false
  | n + 1, c =>
    decide (Framed cx.env c) && match readRound cx curTime c with
      | .ok (.done _) => true
      | .ok (.next c') => framedRounds cx curTime n c'
      | .error _ => false

/-- Induction on the rounds. -/
theorem framedRounds_sound {n : Nat} {c₁ : Client} (h : framedRounds cx curTime n c = true)
    (hrounds : Rounds cx curTime c c₁) : ∃ m, framedRounds cx curTime (m + 1) c₁ = true := by
  induction hrounds with
  | first =>
    cases n with
    | zero => nomatch h
    | succ n => exact ⟨n, h⟩
  | next _ hr ih =>
    obtain ⟨m, hm⟩ := ih
    unfold framedRounds at hm
    rw [hr, Bool.and_eq_true] at hm
    cases m with
    | zero => nomatch hm.2
    | succ m => exact ⟨m, hm.2⟩

/-- A connected client with these bytes in `read_stream_`. -/
def sampleUnread (bytes : List Byte) : Client :=
  { sampleClient.client with
    tcpSock := 3
    udpSock := 4
    connState := .connected
    readStream := Stream.new.addSize bytes }

/-- A frame that declares no length, of an unknown command. -/
def emptyFrame : List Byte := [0, 0, 0, 0, 1, 0, 0, 0, 0, 9]

/-- The round finds the frame and leaves it where it is. -/
theorem readRound_emptyFrame (hbuf : c.readStream.buf = emptyFrame) :
    ∃ c', readRound cx curTime c = .ok (.next c') ∧ c'.readStream.buf = emptyFrame := by
  have hlen : c.readStream.len = 10 := by
    rw [← Stream.length_buf, hbuf]
    rfl
  have hpkg : c.head.pkgLen = 0 := by
    unfold Client.head
    rw [hbuf]
    decide
  have hcmd : c.frame.cmd = 9 := by
    show (CsConnHead.ofBytes c.readStream.buf).cmd = 9
    rw [hbuf]
    rfl
  have hcomplete : Complete c := ⟨by rw [hlen]; decide, by rw [hlen, hpkg]; decide⟩
  refine ⟨{ c.take with readStream := c.readStream.skip 0 }, ?_, ?_⟩
  · rw [readRound_complete hcomplete, hpkg]
    unfold dispatchFrame
    rw [hcmd]
    rfl
  · show (c.readStream.skip 0).buf = emptyFrame
    rw [Stream.buf_skip (by decide), hbuf]
    rfl

end ConnClient
