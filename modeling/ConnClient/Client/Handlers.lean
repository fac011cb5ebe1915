/-
  What a frame's branch depends on, and what it leaves behind.

  A branch of `ReadStream` either closes the connection, and then nothing is open and nothing is left
  to read (`Gone`), or it leaves the unread bytes as they are.  Which of the two it is depends on
  little (`View`): not on the time, and not on how the bytes arrived.  So two clients that agree in
  their views are taken by the same frame to clients that agree again, or both lose the connection
  (`dispatchFrame_same`).

  No branch touches what `ReadStream` itself records of a frame (`Client.heard`).

  The relation between the two runs is `Same`, and it goes with the binds of the source: what follows a
  close must not bring the connection back, or only one of the two might be lost in the end.  That is what
  the lemmas on gone connections are for.  The two clients may be given different times and different depths of
  closes; all they share of the world is what `send` returns.
-/
import ConnClient.Lib.Run
import ConnClient.Ikcp.Intake
import ConnClient.Ikcp.Datagrams
import ConnClient.Client.Sending
import ConnClient.Client.Net

namespace ConnClient

open ConnClient.Lib ConnClient.Ikcp

/-! ## What a close leaves -/

/-- What `ReadStream` records of the frames it gets to. -/
def Client.heard (c : Client) : BitVec 32 × BitVec 32 × List Dispatch :=
  (c.flow, c.magic, c.dispatched)

/-- Nothing is open and nothing is left to read.  The buffer is emptied with the sockets, so
    `ReadStream` finds no further frame. -/
structure Gone (c : Client) : Prop where
  connState : c.connState = .init
  tcpSock : c.tcpSock = -1
  udpSock : c.udpSock = -1
  readStream : c.readStream.len = 0

/-- Whether it returns or stops, no frame was heard. -/
abbrev Mute (heard : BitVec 32 × BitVec 32 × List Dispatch) : M Client → Prop :=
  Ends (fun c => c.heard = heard) (fun e => e.2.heard = heard)

/-- Whether it returns or stops, no frame was heard; and if it returns, the connection is gone. -/
abbrev Lost {α : Type} (get : α → Client) (heard : BitVec 32 × BitVec 32 × List Dispatch) :
    Except (Stop × Client) α → Prop :=
  Ends (fun a => Gone (get a) ∧ (get a).heard = heard) (fun e => e.2.heard = heard)

/-- How `InnerClose` behaves in any state, whatever the reason. -/
def Drops (cx : Cx) : Prop := ∀ reason c, Lost id c.heard (cx.close reason c)

variable {cx : Cx} {c : Client} {v : BitVec 32 × BitVec 32 × List Dispatch}

theorem Lost.mute {r : M Client} (h : Lost id v r) : Mute v r := h.imp (fun _ h => h.2) fun _ h => h

/-- What a session sends on its own changes nothing that was heard, also when it closes the client.
    -/
theorem kcpOutput_mute (h : Drops cx) {data : List Byte} (hv : c.heard = v) :
    Mute v (kcpOutput cx data c) := by
  obtain ⟨x, hr | hr⟩ := kcpOutput_sends cx data c
  · rw [hr]
    exact .returned hv
  · rw [hr, ← hv]
    exact (h clientConnectError ((c.sent x).log _)).mute

theorem playOutputs_mute (h : Drops cx) (outs : List (IKCPCB × List Byte)) {c : Client}
    (hv : c.heard = v) : Mute v (playOutputs cx outs c) := by
  refine playOutputs_rule (I := fun c => c.heard = v) (fun e _ c hv => ?_) hv
  exact kcpOutput_mute h (by exact hv)

theorem runKcp_mute (h : Drops cx) {b : Bracket} {r : IKCPCB × List (IKCPCB × List Byte)}
    (hv : c.heard = v) : Mute v (runKcp cx b r c) :=
  (playOutputs_mute h r.2 (c := { c with brackets := b :: c.brackets }) hv).bind
    fun _ hv₁ => .returned hv₁

theorem sessionFlush_mute (h : Drops cx) {reason : Int} (hv : c.heard = v) :
    Mute v (sessionFlush cx reason c) := by
  unfold sessionFlush
  split
  · exact .returned hv
  · exact runKcp_mute h hv

/-- Releasing the session flushes it first; that is sending, too. -/
theorem closeSession_mute (h : Drops cx) {reason : Int} (hv : c.heard = v) :
    Mute v (closeSession cx reason c) := by
  refine (sessionFlush_mute h hv).bind fun c₁ hv₁ => ?_
  unfold sessionRelease
  split
  · exact .stopped hv₁
  · exact .returned hv₁

theorem closeSockets_gone (env : Env) (reason : Int) (c : Client) :
    Gone (closeSockets env reason c) ∧ (closeSockets env reason c).heard = c.heard := by
  simp only [closeSockets, setConnState]
  split <;> exact ⟨⟨rfl, rfl, rfl, rfl⟩, rfl⟩

/-- **`InnerClose` leaves nothing**, in whatever state it is called.  Induction on how deep its
    calls nest. -/
theorem innerClose_drops (env : Env) (n : Nat) : Drops (.of env n) := by
  let R : Int × Client → M Client → Prop := fun a r => Lost id a.2.heard r
  suffices h : ∀ n a, R a (unroll (fun a => (Stop.deep, a.2)) (innerCloseBody env) n a) from
    fun reason c => h n (reason, c)
  refine unroll_rule (fun a => .stopped rfl) fun f hf a => ?_
  obtain ⟨reason, c⟩ := a
  have hdrops : Drops ⟨env, fun reason c => f (reason, c)⟩ := fun reason c => hf (reason, c)
  -- the sockets are closed at the end of either branch
  have hsockets : ∀ c₁ : Client, c₁.heard = c.heard →
      Lost id c.heard (.ok (closeSockets env (closeReason reason c) c₁)) := fun c₁ hv =>
    have hgone := closeSockets_gone env (closeReason reason c) c₁
    .returned ⟨hgone.1, hgone.2.trans hv⟩
  unfold innerCloseBody
  dsimp only
  split
  · exact (closeSession_mute hdrops rfl).bind hsockets
  · exact hsockets c rfl

/-! ## What a branch depends on -/

/-- What decides how a branch goes.  Of the bytes to be sent only their number counts, and of the
    session what arriving bytes reach; `nsend` says which answer of `send` is next. -/
structure View where
  tcpSock : Int
  unsent : Nat
  nsend : Nat
  isFirstConnect : Bool
  output : Bool
  session : Option Intake

def Client.view (c : Client) : View :=
  ⟨c.tcpSock, c.writeStream.len, c.nsend, c.isFirstConnect, c.cb.output,
    c.kcpSession.kcp.map IKCPCB.intake⟩

/-- Nothing of what was read is touched. -/
structure Stays (c c' : Client) : Prop where
  tcpSock : c'.tcpSock = c.tcpSock
  readStream : c'.readStream = c.readStream
  heard : c'.heard = c.heard

theorem Stays.refl (c : Client) : Stays c c := ⟨rfl, rfl, rfl⟩

theorem Stays.trans {c c' c'' : Client} (h : Stays c c') (h' : Stays c' c'') : Stays c c'' :=
  ⟨h'.tcpSock.trans h.tcpSock, h'.readStream.trans h.readStream, h'.heard.trans h.heard⟩

/-- Two runs of a function, from `c` and from `d`: both lost the connection, or both left what was
    read alone and agree in their views and in what `R` says of their results. -/
inductive Same {α : Type} (get : α → Client) (R : α → α → Prop) (c d : Client) :
    Except (Stop × Client) α → Except (Stop × Client) α → Prop where
  | lost {r r' : Except (Stop × Client) α} (h : Lost get c.heard r) (h' : Lost get d.heard r') :
      Same get R c d r r'
  | stays {a b : α} (h : Stays c (get a)) (h' : Stays d (get b))
      (hv : (get a).view = (get b).view) (hR : R a b) : Same get R c d (.ok a) (.ok b)

/-- Two runs of a function that returns nothing but the client. -/
abbrev SameClient : Client → Client → M Client → M Client → Prop := Same id fun _ _ => True

section Rules

variable {α β : Type} {get : α → Client} {get' : β → Client} {R : α → α → Prop}
  {R' : β → β → Prop} {c c₁ d d₁ : Client}

/-- Both runs begin with something harmless. -/
theorem Same.after {r r' : Except (Stop × Client) α} (h : Same get R c₁ d₁ r r') (hc : Stays c c₁)
    (hd : Stays d d₁) : Same get R c d r r' := by
  cases h with
  | lost hl hl' => exact .lost (hc.heard ▸ hl) (hd.heard ▸ hl')
  | stays hs hs' hv hR => exact .stays (hc.trans hs) (hd.trans hs') hv hR

/-- One function after another; what follows a lost connection does not bring it back (`hgone`). -/
theorem Same.bind {x x' : Except (Stop × Client) α} {f f' : α → Except (Stop × Client) β}
    (hx : Same get R c d x x')
    (hgone : ∀ a v, Gone (get a) → (get a).heard = v → Lost get' v (f a) ∧ Lost get' v (f' a))
    (hf : ∀ a b, (get a).view = (get b).view → R a b → Same get' R' (get a) (get b) (f a) (f' b)) :
    Same get' R' c d (x >>= f) (x' >>= f') := by
  cases hx with
  | lost h h' =>
    exact .lost (h.bind fun a ha => (hgone a _ ha.1 ha.2).1)
      (h'.bind fun a ha => (hgone a _ ha.1 ha.2).2)
  | stays hs hs' hv hR => exact (hf _ _ hv hR).after hs hs'

/-- Both runs close. -/
theorem same_close {cx cx' : Cx} (h : Drops cx) (h' : Drops cx') (hc : c₁.heard = c.heard)
    (hd : d₁.heard = d.heard) (reason reason' : Int) :
    SameClient c d (cx.close reason c₁) (cx'.close reason' d₁) :=
  .lost (hc ▸ h reason c₁) (hd ▸ h' reason' d₁)

end Rules

/-! ## Sending -/

variable {cx' : Cx} {d : Client}

/-- `send_ex` of as much, on the same socket. -/
theorem sendEx_same (henv : cx.env.send = cx'.env.send) (hv : c.view = d.view) (len : Nat) :
    (sendEx cx.env c.tcpSock len c).1 = (sendEx cx'.env d.tcpSock len d).1
      ∧ Stays c (sendEx cx.env c.tcpSock len c).2 ∧ Stays d (sendEx cx'.env d.tcpSock len d).2
      ∧ (sendEx cx.env c.tcpSock len c).2.view = (sendEx cx'.env d.tcpSock len d).2.view
      ∧ (sendEx cx.env c.tcpSock len c).2.writeStream = c.writeStream
      ∧ (sendEx cx'.env d.tcpSock len d).2.writeStream = d.writeStream := by
  have hsock : c.tcpSock = d.tcpSock := congrArg View.tcpSock hv
  have hn : c.nsend = d.nsend := congrArg View.nsend hv
  unfold sendEx
  by_cases hs : c.tcpSock = -1
  · rw [if_pos hs, if_pos (hsock ▸ hs)]
    exact ⟨rfl, .refl c, .refl d, hv, rfl, rfl⟩
  · rw [if_neg hs, if_neg (hsock ▸ hs)]
    refine ⟨?_, ⟨rfl, rfl, rfl⟩, ⟨rfl, rfl, rfl⟩, ?_, rfl, rfl⟩
    · dsimp only
      rw [henv, hn]
    · exact congrArg (fun v : View => { v with nsend := v.nsend + 1 }) hv

/-- `OnTcpWrite` reads how much is unsent and what the socket answers, never the bytes; so it writes
    as much for both clients, or closes both. -/
theorem onTcpWrite_same (h : Drops cx) (h' : Drops cx') (henv : cx.env.send = cx'.env.send)
    (hv : c.view = d.view) : SameClient c d (onTcpWrite cx c) (onTcpWrite cx' d) := by
  have hlen : c.writeStream.len = d.writeStream.len := congrArg View.unsent hv
  unfold onTcpWrite
  by_cases hempty : c.writeStream.len = 0
  · rw [if_pos hempty, if_pos (hlen ▸ hempty)]
    exact .stays (.refl c) (.refl d) hv trivial
  rw [if_neg hempty, if_neg (hlen ▸ hempty)]
  obtain ⟨hr, hc, hd, hv₁, hw, hw'⟩ := sendEx_same henv hv c.writeStream.len
  rw [← hlen]
  dsimp only
  generalize sendEx cx.env c.tcpSock c.writeStream.len c = r at hr hc hv₁ hw ⊢
  generalize sendEx cx'.env d.tcpSock c.writeStream.len d = r' at hr hd hv₁ hw' ⊢
  obtain ⟨⟨nwritten, eno⟩, c₁⟩ := r
  obtain ⟨_, d₁⟩ := r'
  cases hr
  dsimp only at hc hd hv₁ hw hw' ⊢
  by_cases hpos : nwritten > 0
  · rw [if_pos hpos, if_pos hpos]
    -- what was sent leaves the front of both buffers
    have hskip : (c₁.writeStream.skip nwritten).len = (d₁.writeStream.skip nwritten).len := by
      have hnn : 0 ≤ nwritten := by omega
      rw [Stream.len_skip hnn, Stream.len_skip hnn, hw, hw', hlen]
    have hview : ({ c₁ with writeStream := c₁.writeStream.skip nwritten } : Client).view
        = ({ d₁ with writeStream := d₁.writeStream.skip nwritten } : Client).view := by
      show ({ c₁.view with unsent := (c₁.writeStream.skip nwritten).len } : View)
        = { d₁.view with unsent := (d₁.writeStream.skip nwritten).len }
      rw [hv₁, hskip]
    split <;> exact .stays ⟨hc.tcpSock, hc.readStream, hc.heard⟩ ⟨hd.tcpSock, hd.readStream, hd.heard⟩
      hview trivial
  rw [if_neg hpos, if_neg hpos]
  split
  · exact .stays ⟨hc.tcpSock, hc.readStream, hc.heard⟩ ⟨hd.tcpSock, hd.readStream, hd.heard⟩ hv₁
      trivial
  · exact same_close h h' hc.heard hd.heard ..

/-- A frame is queued and tried at once.  What it says may differ, its length may not. -/
theorem sendTCPBuf_same (h : Drops cx) (h' : Drops cx') (henv : cx.env.send = cx'.env.send)
    (hv : c.view = d.view) (cmd : Byte) {msg msg' : List Byte} (hmsg : msg.length = msg'.length) :
    SameClient c d (sendTCPBuf cx cmd msg c) (sendTCPBuf cx' cmd msg' d) := by
  have hlen : c.writeStream.len = d.writeStream.len := congrArg View.unsent hv
  have hpos : (0 : Int) < (csConnHeadSize + msg.length : Nat) := by
    unfold csConnHeadSize
    omega
  -- there is room in both buffers or in neither: only the lengths matter
  have hroom : (c.writeStream.ensureWritable (csConnHeadSize + msg.length : Nat)).1
      = (d.writeStream.ensureWritable (csConnHeadSize + msg.length : Nat)).1 := by
    rw [Bool.eq_iff_iff, Stream.ensureWritable_fst hpos, Stream.ensureWritable_fst hpos, hlen]
  have hframe : ∀ (c : Client) (m : List Byte), m.length = msg.length →
      (tcpFrame c.flow c.magic cmd m).length = csConnHeadSize + msg.length := by
    intro c m hm
    rw [length_tcpFrame, hm]
  -- the frame goes behind what is unsent
  have hput : ∀ (c : Client) (m : List Byte), m.length = msg.length →
      (c.writeStream.ensureWritable (csConnHeadSize + msg.length : Nat)).1 = true →
      ((c.writeStream.ensureWritable (csConnHeadSize + msg.length : Nat)).2.addSize
        (tcpFrame c.flow c.magic cmd m)).len = c.writeStream.len + (csConnHeadSize + msg.length) := by
    intro c m hm hr
    rw [Stream.len_addSize_ensureWritable hpos hr (by rw [hframe c m hm]; omega), hframe c m hm]
  unfold sendTCPBuf
  rw [← hmsg]
  dsimp only
  by_cases hno : (c.writeStream.ensureWritable (csConnHeadSize + msg.length : Nat)).1 = false
  · rw [if_pos hno, if_pos (hroom ▸ hno)]
    exact same_close h h' (by rfl) (by rfl) ..
  · rw [if_neg hno, if_neg (hroom ▸ hno)]
    have hput₁ := hput c msg rfl (eq_true_of_ne_false hno)
    have hput₂ := hput d msg' hmsg.symm (hroom ▸ eq_true_of_ne_false hno)
    generalize (c.writeStream.ensureWritable _).2.addSize _ = s at hput₁ ⊢
    generalize (d.writeStream.ensureWritable _).2.addSize _ = s' at hput₂ ⊢
    have hview : ({ c with writeStream := s } : Client).view
        = ({ d with writeStream := s' } : Client).view := by
      show ({ c.view with unsent := s.len } : View) = { d.view with unsent := s'.len }
      rw [hv, hput₁, hput₂, hlen]
    exact (onTcpWrite_same h h' henv hview).after ⟨rfl, rfl, rfl⟩ ⟨rfl, rfl, rfl⟩

/-! ## Logins -/

theorem Drops.fromLogin (h : Drops cx) : Drops cx.fromLogin := fun reason c =>
  h reason (c.log .loginPingClose)

/-- The ping of a login is sent at once. -/
theorem sendTcpPing_immediate (cx : Cx) (nowMs : Int) (hst : c.connState = .logicConnected) :
    sendTcpPing cx nowMs true c
      = sendTCPBuf cx controlPing (toLE 8 (BitVec.ofInt 64 nowMs).toNat) { c with pingSeq := nowMs } := by
  unfold sendTcpPing
  rw [hst, if_neg (by decide)]
  rfl

/-- The ping of a login carries the time, in eight bytes whatever it is. -/
theorem loginPing_same (h : Drops cx) (h' : Drops cx') (henv : cx.env.send = cx'.env.send)
    (hv : c.view = d.view) : SameClient c d (loginPing cx c) (loginPing cx' d) := by
  unfold loginPing
  dsimp only
  rw [sendTcpPing_immediate _ _ (by rfl), sendTcpPing_immediate _ _ (by rfl)]
  -- the ping carries the time, but as many bytes
  have hlen : ∀ n m : Nat, (toLE 8 n).length = (toLE 8 m).length := by
    intro n m
    rw [length_toLE, length_toLE]
  exact (sendTCPBuf_same h.fromLogin h'.fromLogin henv (by exact hv) controlPing (hlen ..)).after
    ⟨rfl, rfl, rfl⟩ ⟨rfl, rfl, rfl⟩

/-- The notification after the ping changes nothing of this. -/
theorem notify_same {r r' : M Client} (hr : SameClient c d r r') (t : OutTask)
    (p : Client → Bool) :
    SameClient c d (r >>= fun c => .ok (if p c then c.notify t else c))
      (r' >>= fun c => .ok (if p c then c.notify t else c)) := by
  have hstays : ∀ c, Stays c (if p c then c.notify t else c) := by
    intro c
    split <;> exact ⟨rfl, rfl, rfl⟩
  have hview : ∀ c, (if p c then c.notify t else c).view = c.view := by
    intro c
    split <;> rfl
  have hgone : ∀ (c : Client) v, Gone c → c.heard = v →
      Lost id v (.ok (if p c then c.notify t else c)) := by
    intro c v hg hv
    split <;> exact .returned ⟨⟨hg.connState, hg.tcpSock, hg.udpSock, hg.readStream⟩, hv⟩
  refine hr.bind (fun c v hg hv => ⟨hgone c v hg hv, hgone c v hg hv⟩) fun c d hv _ => ?_
  refine .stays (hstays c) (hstays d) ?_ trivial
  rw [id, id, hview, hview]
  exact hv

theorem connectSuccess_same (h : Drops cx) (h' : Drops cx') (henv : cx.env.send = cx'.env.send)
    (hv : c.view = d.view) : SameClient c d (connectSuccess cx c) (connectSuccess cx' d) :=
  notify_same (loginPing_same h h' henv hv) .connectSuccess fun c => c.cb.connectSuccess

theorem reConnectSuccess_same (h : Drops cx) (h' : Drops cx') (henv : cx.env.send = cx'.env.send)
    (hv : c.view = d.view) : SameClient c d (reConnectSuccess cx c) (reConnectSuccess cx' d) :=
  notify_same (loginPing_same h h' henv hv) .relinkSuccess fun c => c.cb.reconnectSuccess

/-! ## Messages -/

theorem output_same (hv : c.view = d.view) (data : List Byte) (len : Int) :
    SameClient c d (output data len c) (output data len d) := by
  have hcb : c.cb.output = d.cb.output := congrArg View.output hv
  unfold output
  by_cases ho : c.cb.output = true
  · have ho' : d.cb.output = true := hcb ▸ ho
    rw [if_pos ho, if_pos ho']
    split
    · exact .lost (.stopped rfl) (.stopped rfl)
    · exact .stays ⟨rfl, rfl, rfl⟩ ⟨rfl, rfl, rfl⟩ hv trivial
  · rw [if_neg ho, if_neg (hcb ▸ ho)]
    exact .stays (.refl c) (.refl d) hv trivial

/-- A message handed out of a gone connection leaves it gone. -/
theorem output_gone (hg : Gone c) (hv : c.heard = v) (data : List Byte) (len : Int) :
    Lost id v (output data len c) := by
  unfold output
  split
  · split
    · exact .stopped hv
    · exact .returned ⟨⟨hg.connState, hg.tcpSock, hg.udpSock, hg.readStream⟩, hv⟩
  · exact .returned ⟨hg, hv⟩

/-- Induction on the rounds. -/
theorem recvLoop_gone (h : Drops cx) :
    ∀ (n : Nat) (recvLen : Int) {c : Client}, Gone c → c.heard = v →
      Lost Prod.snd v (recvLoop cx n recvLen c)
  | 0, _, _, hg, hv => .returned ⟨hg, hv⟩
  | n + 1, _, c, hg, hv => by
    unfold recvLoop
    generalize c.kcpSession.recv maxPkgSize = r
    obtain ⟨r, session⟩ := r
    have hg₁ : Gone { c with kcpSession := session } :=
      ⟨hg.connState, hg.tcpSock, hg.udpSock, hg.readStream⟩
    -- a disconnect among the messages closes once more, which leaves nothing either
    have hclose := hv ▸ h controlServerClose { c with kcpSession := session }
    dsimp only
    split
    · exact .returned ⟨hg₁, hv⟩
    split
    · exact hclose.bind fun c₁ h₁ => recvLoop_gone h n _ h₁.1 h₁.2
    split
    · exact (output_gone hg₁ hv _ _).bind fun c₁ h₁ => recvLoop_gone h n _ h₁.1 h₁.2
    · exact recvLoop_gone h n _ hg₁ hv

/-- Whether there is a session is part of the view. -/
theorem isNull_same (hv : c.view = d.view) : c.kcpSession.isNull = d.kcpSession.isNull := by
  have hs : c.kcpSession.kcp.map IKCPCB.intake = d.kcpSession.kcp.map IKCPCB.intake :=
    congrArg View.session hv
  unfold KcpSession.isNull
  rw [← Option.isNone_map (f := IKCPCB.intake), hs, Option.isNone_map]

/-- What the session hands out. -/
theorem recv_same (hv : c.view = d.view) (len : Int) :
    (c.kcpSession.recv len).1 = (d.kcpSession.recv len).1
      ∧ ({ c with kcpSession := (c.kcpSession.recv len).2 } : Client).view
        = ({ d with kcpSession := (d.kcpSession.recv len).2 } : Client).view := by
  have hs : c.kcpSession.kcp.map IKCPCB.intake = d.kcpSession.kcp.map IKCPCB.intake :=
    congrArg View.session hv
  unfold KcpSession.recv
  cases hk : c.kcpSession.kcp with
  | none =>
    rw [hk, Option.map_none, eq_comm, Option.map_eq_none_iff] at hs
    rw [hs]
    exact ⟨rfl, hv⟩
  | some k =>
    rw [hk, Option.map_some, eq_comm, Option.map_eq_some_iff] at hs
    obtain ⟨k', hk', hin⟩ := hs
    rw [hk']
    obtain ⟨hret, hin'⟩ := pvpIkcpRecv_intake hin.symm len
    refine ⟨hret, ?_⟩
    show ({ c.view with session := some (pvpIkcpRecv k len).2.intake } : View)
      = { d.view with session := some (pvpIkcpRecv k' len).2.intake }
    rw [hv, hin']

/-- What the session takes in, at whatever time. -/
theorem input_same (hv : c.view = d.view) (msg : List Byte) (curTime curTime' : Int) :
    (c.kcpSession.input msg curTime).1 = (d.kcpSession.input msg curTime').1
      ∧ ({ c with kcpSession := (c.kcpSession.input msg curTime).2 } : Client).view
        = ({ d with kcpSession := (d.kcpSession.input msg curTime').2 } : Client).view := by
  have hs : c.kcpSession.kcp.map IKCPCB.intake = d.kcpSession.kcp.map IKCPCB.intake :=
    congrArg View.session hv
  unfold KcpSession.input
  cases hk : c.kcpSession.kcp with
  | none =>
    rw [hk, Option.map_none, eq_comm, Option.map_eq_none_iff] at hs
    rw [hs]
    exact ⟨rfl, hv⟩
  | some k =>
    rw [hk, Option.map_some, eq_comm, Option.map_eq_some_iff] at hs
    obtain ⟨k', hk', hin⟩ := hs
    rw [hk']
    obtain ⟨hret, hin'⟩ := pvpIkcpInput_intake hin.symm msg (BitVec.ofInt 32 curTime)
      (BitVec.ofInt 32 curTime')
    refine ⟨hret, ?_⟩
    show ({ c.view with session := some (pvpIkcpInput k msg (BitVec.ofInt 32 curTime)).2.intake } : View)
      = { d.view with session := some (pvpIkcpInput k' msg (BitVec.ofInt 32 curTime')).2.intake }
    rw [hv, hin']

/-- The receive loop.  Induction on the rounds. -/
theorem recvLoop_same (h : Drops cx) (h' : Drops cx') :
    ∀ (n : Nat) (recvLen : Int) {c d : Client}, c.view = d.view →
      Same Prod.snd (fun a b => a.1 = b.1) c d (recvLoop cx n recvLen c) (recvLoop cx' n recvLen d)
  | 0, _, c, d, hv => .stays (.refl c) (.refl d) hv rfl
  | n + 1, _, c, d, hv => by
    obtain ⟨hret, hv₁⟩ := recv_same hv maxPkgSize
    unfold recvLoop
    generalize c.kcpSession.recv maxPkgSize = r at hret hv₁ ⊢
    generalize d.kcpSession.recv maxPkgSize = r' at hret hv₁ ⊢
    obtain ⟨r, session⟩ := r
    obtain ⟨_, session'⟩ := r'
    cases hret
    let c₁ : Client := { c with kcpSession := session }
    let d₁ : Client := { d with kcpSession := session' }
    have hc : Stays c c₁ := ⟨rfl, rfl, rfl⟩
    have hd : Stays d d₁ := ⟨rfl, rfl, rfl⟩
    have hrest : ∀ (a b : Client) (l : Int), a.view = b.view →
        Same Prod.snd (fun a b => a.1 = b.1) a b (recvLoop cx n l a) (recvLoop cx' n l b) :=
      fun a b l hab => recvLoop_same h h' n l hab
    dsimp only
    split
    · exact .stays hc hd hv₁ rfl
    split
    · refine ((same_close h h' (by rfl) (by rfl) ..).bind (fun a v hg hv => ?_)
        fun a b hab _ => hrest a b r.ret hab).after hc hd
      exact ⟨recvLoop_gone h n _ hg hv, recvLoop_gone h' n _ hg hv⟩
    split
    · refine ((output_same hv₁ _ _).bind (fun a v hg hv => ?_)
        fun a b hab _ => hrest a b r.ret hab).after hc hd
      exact ⟨recvLoop_gone h n _ hg hv, recvLoop_gone h' n _ hg hv⟩
    · exact (hrest c₁ d₁ r.ret hv₁).after hc hd

/-- A packet for the session: both blocks take it in alike, and the messages that get complete are
    handed out by the same loop. -/
theorem inputToKcp_same (h : Drops cx) (h' : Drops cx') (hv : c.view = d.view) (msg : List Byte)
    (curTime curTime' : Int) :
    SameClient c d (inputToKcp cx msg curTime c) (inputToKcp cx' msg curTime' d) := by
  have hnull := isNull_same hv
  obtain ⟨hret, hv₁⟩ := input_same hv msg curTime curTime'
  unfold inputToKcp
  rw [hnull]
  split
  · exact same_close h h' (by rfl) (by rfl) ..
  generalize c.kcpSession.input msg curTime = r at hret hv₁ ⊢
  generalize d.kcpSession.input msg curTime' = r' at hret hv₁ ⊢
  obtain ⟨ret, session⟩ := r
  obtain ⟨_, session'⟩ := r'
  cases hret
  dsimp only at hv₁ ⊢
  split
  · exact same_close h h' (by rfl) (by rfl) ..
  · refine ((recvLoop_same h h' whileLimit 0 hv₁).bind ?_ ?_).after ⟨rfl, rfl, rfl⟩ ⟨rfl, rfl, rfl⟩
    · rintro ⟨recvLen, a⟩ v hg hv
      dsimp only
      split
      · exact ⟨hv ▸ h _ a, hv ▸ h' _ a⟩
      · exact ⟨.returned ⟨hg, hv⟩, .returned ⟨hg, hv⟩⟩
    · rintro ⟨recvLen, a⟩ ⟨_, b⟩ hab heq
      cases heq
      dsimp only
      split
      · exact same_close h h' rfl rfl ..
      · exact .stays (.refl a) (.refl b) hab trivial

/-! ## A new session -/

/-- The block of a session is created and configured, and its `mtu` is small. -/
theorem createBlock_created (info : ControlKCPInfo) : Created (KcpSession.createBlock info) := by
  suffices h : Configured info.kcpConv (KcpSession.createBlock info)
      ∧ (KcpSession.createBlock info).mss < 2 ^ 16 from ⟨⟨_, h.1⟩, h.2⟩
  refine KcpSession.createBlock_rule
    (P := fun k => Configured info.kcpConv k ∧ k.mss < 2 ^ 16) ⟨.create, ?_⟩ ?_ ?_ ?_ ?_ ?_
  · show ikcpMtuDef - ikcpOverhead < 2 ^ 16
    decide
  · intro k nodelay interval resend nc h
    refine ⟨h.1.nodelay .., ?_⟩
    unfold pvpIkcpNodelay
    by_cases h1 : nodelay ≥ 0 <;> by_cases h2 : interval ≥ 0 <;> by_cases h3 : resend ≥ 0
      <;> by_cases h4 : nc ≥ 0 <;> simp only [h1, h2, h3, h4, if_true, if_false] <;> exact h.2
  · intro k sndwnd rcvwnd h
    refine ⟨h.1.wndsize .., ?_⟩
    unfold pvpIkcpWndsize
    split <;> split <;> exact h.2
  · exact fun k count dupack dynamic wait wndOn h => ⟨h.1.setdupsend .., h.2⟩
  · intro k mtu hle h
    refine ⟨h.1.setmtu _, ?_⟩
    unfold pvpIkcpSetmtu
    split
    · exact h.2
    · show mtu.toNat - ikcpOverhead < 2 ^ 16
      unfold kcpMtu at hle
      omega
  · exact fun k h => ⟨h.1.fields .., h.2⟩

/-- Configuring a block gives it nothing to send. -/
theorem createBlock_quiet (info : ControlKCPInfo) : Quiet (KcpSession.createBlock info) := by
  refine KcpSession.createBlock_rule ⟨rfl, rfl, rfl, rfl, rfl⟩ ?_ ?_ ?_ ?_ ?_
  · intro k nodelay interval resend nc h
    unfold pvpIkcpNodelay
    by_cases h1 : nodelay ≥ 0 <;> by_cases h2 : interval ≥ 0 <;> by_cases h3 : resend ≥ 0
      <;> by_cases h4 : nc ≥ 0 <;> simp only [h1, h2, h3, h4, if_true, if_false]
      <;> exact ⟨h.acks, h.probe, h.wait, h.queue, h.buf⟩
  · intro k sndwnd rcvwnd h
    unfold pvpIkcpWndsize
    split <;> split <;> exact ⟨h.acks, h.probe, h.wait, h.queue, h.buf⟩
  · intro k count dupack dynamic wait wndOn h
    exact ⟨h.acks, h.probe, h.wait, h.queue, h.buf⟩
  · intro k mtu _ h
    unfold pvpIkcpSetmtu
    split <;> exact ⟨h.acks, h.probe, h.wait, h.queue, h.buf⟩
  · intro k h
    exact ⟨h.acks, h.probe, h.wait, h.queue, h.buf⟩

/-- **A new session sends nothing**, so creating one returns and closes nothing. -/
theorem createKCP_returns (cx : Cx) (data : List Byte) (c : Client) :
    ∃ c', createKCP cx data c = .ok c' ∧ Stays c c' ∧ c'.view = { c.view with
      session := some (KcpSession.createBlock (.ofBytes data)).intake } := by
  obtain ⟨hout, hin⟩ := pvpIkcpUpdate_quiet (createBlock_quiet (.ofBytes data))
    (BitVec.ofInt 32 (cx.env.clock c.nclock))
  unfold createKCP sessionUpdate runKcp
  dsimp only [getTimeMs, KcpSession.createKCP]
  generalize pvpIkcpUpdate (KcpSession.createBlock (.ofBytes data)) _ = r at hout hin ⊢
  obtain ⟨k, outs⟩ := r
  cases hout
  refine ⟨_, rfl, ⟨rfl, rfl, rfl⟩, ?_⟩
  rw [← hin]
  rfl

theorem createKCP_same (hv : c.view = d.view) (data : List Byte) :
    SameClient c d (createKCP cx data c) (createKCP cx' data d) := by
  obtain ⟨c', hc, hs, hview⟩ := createKCP_returns cx data c
  obtain ⟨d', hd, hs', hview'⟩ := createKCP_returns cx' data d
  rw [hc, hd]
  refine .stays hs hs' ?_ trivial
  rw [id, id, hview, hview', hv]

/-! ## A frame's branch -/

/-- Both runs go on to the end of the round. -/
def BothNext (r r' : Round) : Prop := ∃ c d, r = .next c ∧ r' = .next d

/-- A branch that goes on after a function. -/
theorem Same.next {r r' : M Client} (h : SameClient c d r r') :
    Same Round.client BothNext c d (r >>= fun c => .ok (.next c)) (r' >>= fun c => .ok (.next c)) :=
  h.bind (fun _ _ hg hv => ⟨.returned ⟨hg, hv⟩, .returned ⟨hg, hv⟩⟩)
    fun a b hab _ => .stays (.refl a) (.refl b) hab ⟨a, b, rfl, rfl⟩

/-- A branch that closes and returns. -/
theorem same_done (h : Drops cx) (h' : Drops cx') (reason reason' : Int) :
    Same Round.client BothNext c d (cx.close reason c >>= fun c => .ok (.done c))
      (cx'.close reason' d >>= fun c => .ok (.done c)) :=
  .lost ((h reason c).bind fun _ hl => .returned hl) ((h' reason' d).bind fun _ hl => .returned hl)

/-- **A frame's branch**, whenever it is taken: both clients lose the connection, or both go on and
    agree. -/
theorem dispatchFrame_same (h : Drops cx) (h' : Drops cx') (henv : cx.env.send = cx'.env.send)
    (hv : c.view = d.view) (f : Dispatch) (curTime curTime' : Int) :
    Same Round.client BothNext c d (dispatchFrame cx f curTime c) (dispatchFrame cx' f curTime' d) := by
  have hnull := isNull_same hv
  have hfirst : c.isFirstConnect = d.isFirstConnect := congrArg View.isFirstConnect hv
  have hnext : Same Round.client BothNext c d (.ok (.next c)) (.ok (.next d)) :=
    .stays (.refl c) (.refl d) hv ⟨c, d, rfl, rfl⟩
  unfold dispatchFrame
  split
  · split
    · exact same_done h h' ..
    · exact hnext
  split
  · exact (inputToKcp_same h h' hv f.data curTime curTime').next
  split
  · exact (output_same hv f.data f.dataLen).next
  split
  · rw [hnull]
    split
    · exact (createKCP_same hv f.data).next
    · exact same_done h h' ..
  split
  · split
    · dsimp only
      split
      · exact same_done h h' ..
      · exact hnext
    · exact (same_close h h' (by rfl) (by rfl) ..).next
  split
  · by_cases hf : c.isFirstConnect = true
    · rw [if_pos hf, if_pos (hfirst ▸ hf)]
      have hv₁ : ({ c with isFirstConnect := false } : Client).view
          = ({ d with isFirstConnect := false } : Client).view :=
        congrArg (fun v : View => { v with isFirstConnect := false }) hv
      exact ((connectSuccess_same h h' henv hv₁).next).after ⟨rfl, rfl, rfl⟩ ⟨rfl, rfl, rfl⟩
    · rw [if_neg hf, if_neg (hfirst ▸ hf)]
      exact (reConnectSuccess_same h h' henv hv).next
  · exact hnext

end ConnClient
