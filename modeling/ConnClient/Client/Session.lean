/-
  `kcp_session.cpp` and the payload of `CONTROL_KCP_INFO` — the client's hold on a control block.

  A session either has a block (`kcp_ != nullptr`) or not.  The calls that may output give the new
  block together with the outputs on the way (see `ConnClient.Ikcp.Flush`); what is done with them
  is the client's `KCPOutput` (`ConnClient.Client.Close`).  The accessors that only report a field of
  the block are left out.
-/
import ConnClient.Ikcp.Flush

namespace ConnClient

open ConnClient.Lib ConnClient.Ikcp

/-- `ControlKCPInfo`: the fields of the packed structure that the client reads. -/
structure ControlKCPInfo where
  dupSendCount : IUINT32
  kcpConv : IUINT32
  nodelay : IUINT32
  interval : IUINT32
  resend : IUINT32
  nc : IUINT32
  mtu : IUINT32
  rxMinrto : IUINT32
  fastresend : IUINT32
  sndWnd : IUINT32
  rcvWnd : IUINT32
  enableUdp : IUINT32
  dupAck : IUINT32
  dupDynamic : IUINT32
  dupWait : IUINT32
  dupWndOn : IUINT32

/-- `sizeof(ControlKCPInfo)` -/
def sizeofControlKCPInfo : Nat := 93

/-- The 32-bit field at an offset. -/
def fieldAt (data : List Byte) (offset : Nat) : IUINT32 :=
  BitVec.ofNat 32 (ofLE ((data.drop offset).take 4))

/-- `(ControlKCPInfo*)data` -/
def ControlKCPInfo.ofBytes (data : List Byte) : ControlKCPInfo where
  dupSendCount := fieldAt data 0
  kcpConv := fieldAt data 4
  nodelay := fieldAt data 8
  interval := fieldAt data 12
  resend := fieldAt data 16
  nc := fieldAt data 20
  mtu := fieldAt data 24
  rxMinrto := fieldAt data 28
  fastresend := fieldAt data 32
  sndWnd := fieldAt data 36
  rcvWnd := fieldAt data 40
  enableUdp := fieldAt data 48
  dupAck := fieldAt data 52
  dupDynamic := fieldAt data 56
  dupWait := fieldAt data 60
  dupWndOn := fieldAt data 64

/-- `KCP_MTU` -/
def kcpMtu : Int := 500

/-- `KcpSession`. -/
structure KcpSession where
  kcp : Option IKCPCB
  kcpConv : IUINT32
  nextTimeMs : IUINT32
  updateNow : Bool

namespace KcpSession

def new : KcpSession := ⟨none, 0, 0, false⟩

/-- `KcpSession::IsNull` -/
def isNull (s : KcpSession) : Bool := s.kcp.isNone

/-- The block `KcpSession::CreateKCP` makes. -/
def createBlock (info : ControlKCPInfo) : IKCPCB :=
  let kcp := pvpIkcpCreate info.kcpConv
  let kcp := pvpIkcpNodelay kcp info.nodelay.toInt info.interval.toInt info.resend.toInt
    info.nc.toInt
  let kcp := pvpIkcpWndsize kcp info.sndWnd.toInt info.rcvWnd.toInt
  let kcp := if info.dupSendCount.toInt > 0 then
      pvpIkcpSetdupsend kcp info.dupSendCount.toInt info.dupAck.toInt info.dupDynamic.toInt
        info.dupWait.toInt info.dupWndOn.toInt
    else kcp
  let mtu := if info.mtu.toInt > kcpMtu then kcpMtu else info.mtu.toInt
  let kcp := (pvpIkcpSetmtu kcp mtu).2
  { kcp with rxMinrto := info.rxMinrto.toInt, fastresend := info.fastresend.toInt }

/-- What creation gives and every call of the configuration keeps, a new session's block has. -/
theorem createBlock_rule {P : IKCPCB → Prop} {info : ControlKCPInfo}
    (hcreate : P (pvpIkcpCreate info.kcpConv))
    (hnodelay : ∀ k nodelay interval resend nc, P k →
      P (pvpIkcpNodelay k nodelay interval resend nc))
    (hwndsize : ∀ k sndwnd rcvwnd, P k → P (pvpIkcpWndsize k sndwnd rcvwnd))
    (hdupsend : ∀ k count dupack dynamic wait wndOn, P k →
      P (pvpIkcpSetdupsend k count dupack dynamic wait wndOn))
    (hsetmtu : ∀ k mtu, mtu ≤ kcpMtu → P k → P (pvpIkcpSetmtu k mtu).2)
    (hfields : ∀ k, P k →
      P { k with rxMinrto := info.rxMinrto.toInt, fastresend := info.fastresend.toInt }) :
    P (createBlock info) := by
  have hmtu : (if info.mtu.toInt > kcpMtu then kcpMtu else info.mtu.toInt) ≤ kcpMtu := by
    split <;> omega
  unfold createBlock
  refine hfields _ (hsetmtu _ _ hmtu ?_)
  split
  · exact hdupsend _ _ _ _ _ _ (hwndsize _ _ _ (hnodelay _ _ _ _ _ hcreate))
  · exact hwndsize _ _ _ (hnodelay _ _ _ _ _ hcreate)

/-- `KcpSession::CreateKCP` -/
def createKCP (s : KcpSession) (info : ControlKCPInfo) : KcpSession :=
  { s with kcp := some (createBlock info), kcpConv := info.kcpConv }

/-- `KcpSession::Input`, for `len` bytes (none when `len` is negative). -/
def input (s : KcpSession) (data : List Byte) (curTime : Int) : Int × KcpSession :=
  match s.kcp with
  | none => (0, s)
  | some kcp =>
    let (ret, kcp) := pvpIkcpInput kcp data (BitVec.ofInt 32 curTime)
    (ret, { s with kcp := some kcp, updateNow := true })

/-- `KcpSession::Recv` -/
def recv (s : KcpSession) (len : Int) : Recv × KcpSession :=
  match s.kcp with
  | none => (⟨0, []⟩, s)
  | some kcp =>
    let (r, kcp) := pvpIkcpRecv kcp len
    (r, { s with kcp := some kcp })

/-- `KcpSession::Check` -/
def check (s : KcpSession) (currentMs : IUINT32) : IUINT32 :=
  match s.kcp with
  | none => 0
  | some kcp => pvpIkcpCheck kcp currentMs

/-- `KcpSession::Release` -/
def release (s : KcpSession) : KcpSession := { s with kcp := none, kcpConv := 0 }

end KcpSession

end ConnClient
