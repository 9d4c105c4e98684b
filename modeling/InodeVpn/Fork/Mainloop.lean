import InodeVpn.Fork.Receive

namespace InodeVpn.Fork
open Wire (Bytes)

def H3C_KEEPALIVE_DEFAULT : Int := 30

def H3C_KEEPALIVE_MISS_LIMIT : Int := 3

/-- An `int` holds the low 32 bits of a product. -/
def toInt32 (n : Int) : Int := (BitVec.ofInt 32 n).toInt

/-- The TLS connection: what has arrived and is unread, and what has been
accepted for sending since the connection was opened. -/
structure Ssl where
  inbox : Bytes := []
  sent : Bytes := []
  deriving DecidableEq, Repr

/-- The fields of `openconnect_info` and `h3c_state` that the main loop uses. -/
structure VpnInfo where
  /-- `ssl_fd` is not -1. -/
  sslOpen : Bool := false
  ssl : Ssl := {}
  deflatePktSize : Int := 0
  mtu : Int := 0
  cstpPkt : Option RecvBuf := none
  currentSslPkt : Option Pkt := none
  incomingQueue : List Pkt := []
  outgoingQueue : List Pkt := []
  keepaliveTime : Int := H3C_KEEPALIVE_DEFAULT
  keepaliveConfigured : Bool := false
  lastRx : Int := 0
  lastTx : Int := 0
  txOffset : Nat := 0
  hbBuf : Bytes := [0, 0, 0, 0]
  hbOffset : Nat := 0
  hbPending : Bool := false
  quitReason : Option String := none

/-- What `ssl_nonblock_read` answers, the clock read after it, and the
allocations of the parse that follows. -/
inductive Read
  | upTo (n : Nat) (now : Int) (alloc : Nat → Bool)
  | again
  | error

/-- What `ssl_nonblock_write` answers. -/
inductive Write
  | accepts (n : Nat)
  | error
  deriving DecidableEq, Repr

/-- What `ssl_reconnect` answers, and what its `h3c_connect` reads. -/
structure Reconnect where
  ret : Int := 0
  keepaliveHeader : Option Int := none
  now : Int := 0
  deriving DecidableEq, Repr

/-- What one call of `h3c_mainloop` is given, and meets outside. -/
structure Outside where
  readable : Bool := false
  timeout : Int := 0
  bufferAlloc : Bool := true
  reads : List Read := []
  dataWrite : Write := .accepts 0
  dataSentAt : Int := 0
  now : Int := 0
  keepaliveWrite : Write := .accepts 0
  keepaliveSentAt : Int := 0
  reconnect : Reconnect := {}

/-- Why a call goes to `do_reconnect`. -/
inductive Cause
  | closed
  | overflow
  | readError
  | parseError (ret : Int)
  | dataWrite
  | keepaliveWrite
  | deadPeer
  deriving DecidableEq, Repr

/-- What happens on the connection during a call. -/
inductive Event
  | received (s : Bytes)
  | taken (frames : List Taken)
  | packetSent
  | keepaliveSent
  deriving DecidableEq, Repr

/-- A call under way. -/
structure Turn where
  vpn : VpnInfo
  workDone : Nat := 0
  timeout : Int
  events : List Event := []

/-- A call goes on, or has gone to `do_reconnect`. -/
inductive Flow
  | on (t : Turn)
  | reconnect (cause : Cause) (t : Turn)

def Flow.andThen : Flow → (Turn → Flow) → Flow
  | .on t, next => next t
  | .reconnect cause t, _ => .reconnect cause t

/-- The call as far as it has come. -/
def Flow.turn : Flow → Turn
  | .on t => t
  | .reconnect _ t => t

namespace Ssl

/-- At least one byte when one has arrived and there is space for it. -/
def nonblockRead (ssl : Ssl) (n space : Nat) : Bytes × Ssl :=
  let size := min (max n 1) space
  (ssl.inbox.take size, { ssl with inbox := ssl.inbox.drop size })

section NonblockRead
variable (ssl : Ssl) (n space : Nat)

/-- A read takes the bytes in order. -/
theorem nonblockRead_append :
    (ssl.nonblockRead n space).1 ++ (ssl.nonblockRead n space).2.inbox = ssl.inbox :=
  List.take_append_drop _ _

theorem nonblockRead_length_le : (ssl.nonblockRead n space).1.length ≤ space := by
  simp only [nonblockRead, List.length_take]
  omega

@[simp] theorem nonblockRead_sent : (ssl.nonblockRead n space).2.sent = ssl.sent := rfl

theorem nonblockRead_eq_nil (hspace : 0 < space) :
    (ssl.nonblockRead n space).1 = [] ↔ ssl.inbox = [] := by
  rw [nonblockRead, List.take_eq_nil_iff, or_iff_right (by omega)]

end NonblockRead

/-- At most the bytes offered; how many are accepted, unless the write fails. -/
def nonblockWrite (ssl : Ssl) (offered : Bytes) : Write → Option Nat × Ssl
  | .error => (none, ssl)
  | .accepts n =>
    (some (min n offered.length), { ssl with sent := ssl.sent ++ offered.take n })

end Ssl

/-- `receive_mtu`. -/
def VpnInfo.receiveMtu (v : VpnInfo) : Int :=
  max H3C_MAX_FRAME_LEN (if v.deflatePktSize ≠ 0 then v.deflatePktSize else v.mtu)

/-- `alloc_pkt`, when there is no `cstp_pkt` yet. -/
def VpnInfo.receiveBuffer (v : VpnInfo) (alloc : Bool) : Option RecvBuf :=
  match v.cstpPkt with
  | some pkt => some pkt
  | none => if alloc then some (.alloc v.receiveMtu.toNat) else none

/-- `cstp_pkt` is set. -/
def Turn.withBuffer (t : Turn) (pkt : RecvBuf) : Turn :=
  { t with vpn := { t.vpn with cstpPkt := some pkt } }

@[simp] theorem Turn.receiveMtu_withBuffer (t : Turn) (pkt : RecvBuf) :
    (t.withBuffer pkt).vpn.receiveMtu = t.vpn.receiveMtu := rfl

@[simp] theorem Turn.ssl_withBuffer (t : Turn) (pkt : RecvBuf) :
    (t.withBuffer pkt).vpn.ssl = t.vpn.ssl := rfl

/-- One turn of the read loop goes on to the next, or leaves the loop. -/
inductive ReadStep
  | again (t : Turn)
  | leave (f : Flow)

/-- A read has brought bytes. -/
def Turn.received (t : Turn) (bytes : Bytes) (ssl : Ssl) (now : Int) : Turn :=
  { t with vpn := { t.vpn with ssl, lastRx := now }, events := t.events ++ [.received bytes] }

/-- `h3c_parse_frames` on the buffer that a read has added to. -/
def Turn.parse (alloc : Nat → Bool) (pkt : RecvBuf) (t : Turn) : Turn × Int :=
  let (pkt, taken, ret) := parseFrames alloc pkt
  ({ t with
      vpn := { t.vpn with
        cstpPkt := some pkt
        incomingQueue :=
          t.vpn.incomingQueue ++ (taken.filterMap Taken.payload?).map fun s => { data := s } }
      workDone := t.workDone + taken.countP Taken.isWork
      events := t.events ++ [Event.taken taken] }, ret)

def readStep (bufferAlloc : Bool) (r : Read) (t : Turn) : ReadStep :=
  match t.vpn.receiveBuffer bufferAlloc with
  | none => .leave (.on t)
  | some pkt =>
    let t := t.withBuffer pkt
    if (pkt.partialRecSize : Int) ≥ t.vpn.receiveMtu then .leave (.reconnect .overflow t)
    else
      match r with
      | .again => .leave (.on t)
      | .error => .leave (.reconnect .readError t)
      | .upTo n now alloc =>
        let (bytes, ssl) :=
          t.vpn.ssl.nonblockRead n (t.vpn.receiveMtu - pkt.partialRecSize).toNat
        if bytes = [] then .leave (.on t)
        else
          let (t, ret) := (t.received bytes ssl now).parse alloc (pkt.write bytes)
          if ret ≠ 0 then .leave (.reconnect (.parseError ret) t) else .again t

/-- The read loop; there is nothing more to read after the last answer. -/
def readLoop (bufferAlloc : Bool) : List Read → Turn → Flow
  | [], t =>
    match readStep bufferAlloc .again t with
    | .again t => .on t
    | .leave f => f
  | r :: reads, t =>
    match readStep bufferAlloc r t with
    | .again t => readLoop bufferAlloc reads t
    | .leave f => f

/-- `h3c_write_data_frame`. -/
def writeDataFrame (w : Write) (now : Int) (pkt : Pkt) (t : Turn) : Flow :=
  let total := pkt.data.length + 4
  let off := t.vpn.txOffset
  match t.vpn.ssl.nonblockWrite (pkt.image.drop off) w with
  | (none, _) => .reconnect .dataWrite t
  | (some ret, ssl) =>
    let off := off + ret
    let vpn := { t.vpn with ssl, txOffset := off }
    if off = total then
      .on { t with
        vpn := { vpn with lastTx := now, currentSslPkt := none, txOffset := 0 }
        workDone := t.workDone + 1
        events := t.events ++ [.packetSent] }
    else .on { t with vpn }

/-- `store_le16` and `store_be16` into the header. -/
def Pkt.stamp (pkt : Pkt) : Pkt :=
  { pkt with type := H3C_FRAME_IPV4, len := UInt16.ofNat pkt.data.length }

/-- A packet off the queue becomes `current_ssl_pkt`. -/
def VpnInfo.startPacket (pkt : Pkt) (queue : List Pkt) (v : VpnInfo) : VpnInfo :=
  { v with outgoingQueue := queue, currentSslPkt := some pkt.stamp, txOffset := 0 }

/-- `h3c_handle_outgoing`. -/
def handleOutgoing (w : Write) (now : Int) (t : Turn) : Flow :=
  match t.vpn.currentSslPkt with
  | some pkt => writeDataFrame w now pkt t
  | none =>
    match t.vpn.outgoingQueue with
    | [] => .on t
    | pkt :: queue =>
      writeDataFrame w now pkt.stamp { t with vpn := t.vpn.startPacket pkt queue }

/-- `h3c_start_keepalive`. -/
def VpnInfo.startKeepalive (v : VpnInfo) : VpnInfo :=
  { v with hbBuf := [0x02, 0x00, 0x00, 0x00], hbOffset := 0, hbPending := true }

/-- `h3c_write_keepalive`. -/
def writeKeepalive (w : Write) (now : Int) (t : Turn) : Flow :=
  let off := t.vpn.hbOffset
  match t.vpn.ssl.nonblockWrite (t.vpn.hbBuf.drop off) w with
  | (none, _) => .reconnect .keepaliveWrite t
  | (some ret, ssl) =>
    let off := off + ret
    let vpn := { t.vpn with ssl, hbOffset := off }
    if off = 4 then
      .on { t with
        vpn := { vpn with lastTx := now, hbPending := false, hbOffset := 0 }
        workDone := t.workDone + 1
        events := t.events ++ [.keepaliveSent] }
    else .on { t with vpn }

/-- `next_hb`. -/
def VpnInfo.nextHb (v : VpnInfo) : Int := v.lastTx + v.keepaliveTime

/-- `dpd_due`. -/
def VpnInfo.dpdDue (v : VpnInfo) : Int :=
  v.lastRx + toInt32 (v.keepaliveTime * H3C_KEEPALIVE_MISS_LIMIT)

/-- The write of a keepalive that is pending, or falls due. -/
def sendKeepalive (o : Outside) (t : Turn) : Flow :=
  if t.vpn.hbPending then writeKeepalive o.keepaliveWrite o.keepaliveSentAt t
  else if o.now ≥ t.vpn.nextHb then
    writeKeepalive o.keepaliveWrite o.keepaliveSentAt { t with vpn := t.vpn.startKeepalive }
  else .on t

section Calls
-- `ka_check_deadline`: the timeout, the clock and a deadline give the new timeout
variable (kaCheckDeadline : Int → Int → Int → Int)

/-- Keepalive and dead peer detection. The deadlines are those from before the write. -/
def keepalive (o : Outside) (t : Turn) : Flow :=
  if t.vpn.keepaliveTime > 0 then
    let nextHb := t.vpn.nextHb
    let dpdDue := t.vpn.dpdDue
    (sendKeepalive o t).andThen fun t =>
      if o.now ≥ dpdDue then .reconnect .deadPeer t
      else .on { t with
        timeout := kaCheckDeadline (kaCheckDeadline t.timeout o.now nextHb) o.now dpdDue }
  else .on t

/-- `h3c_mainloop` up to where it returns, or goes to `do_reconnect`. -/
def loopBody (o : Outside) (v : VpnInfo) : Flow :=
  let t : Turn := { vpn := v, timeout := o.timeout }
  if v.sslOpen then
    (if o.readable then readLoop o.bufferAlloc o.reads t else .on t)
      |>.andThen (handleOutgoing o.dataWrite o.dataSentAt)
      |>.andThen (keepalive kaCheckDeadline o)
  else .reconnect .closed t

end Calls

/-- The KEEPALIVETIME header. -/
def VpnInfo.readHeaders (r : Reconnect) (v : VpnInfo) : VpnInfo :=
  match r.keepaliveHeader with
  | some n => { v with keepaliveTime := n, keepaliveConfigured := true }
  | none => v

/-- The transport reset at the end of `h3c_connect`. -/
def VpnInfo.connected (now : Int) (v : VpnInfo) : VpnInfo :=
  { v with
    sslOpen := true
    ssl := {}
    mtu := 1400
    cstpPkt := none
    txOffset := 0
    hbOffset := 0
    hbPending := false
    lastRx := now
    lastTx := now }

/-- `ssl_reconnect`. It closes the old connection even when it gets no new one. -/
def sslReconnect (r : Reconnect) (v : VpnInfo) : VpnInfo :=
  if r.ret = 0 then (v.readHeaders r).connected r.now
  else { v.readHeaders r with sslOpen := false }

/-- What a call returns, the `timeout` it leaves, and why it reconnected. -/
structure Returned where
  ret : Int
  timeout : Int
  cause : Option Cause
  events : List Event
  vpn : VpnInfo

/-- `do_reconnect`. -/
def doReconnect (o : Outside) (cause : Cause) (t : Turn) : Returned :=
  let vpn := sslReconnect o.reconnect
    { t.vpn with currentSslPkt := none, txOffset := 0, hbPending := false, hbOffset := 0 }
  if o.reconnect.ret ≠ 0 then
    ⟨o.reconnect.ret, t.timeout, some cause, t.events,
      { vpn with quitReason := some "H3C reconnect failed" }⟩
  else ⟨1, t.timeout, some cause, t.events, vpn⟩

/-- `h3c_mainloop`. -/
def mainloop (kaCheckDeadline : Int → Int → Int → Int) (o : Outside) (v : VpnInfo) : Returned :=
  match loopBody kaCheckDeadline o v with
  | .on t => ⟨t.workDone, t.timeout, none, t.events, t.vpn⟩
  | .reconnect cause t => doReconnect o cause t

end InodeVpn.Fork
