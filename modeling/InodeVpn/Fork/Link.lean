import InodeVpn.Fork.Mainloop
import InodeVpn.Lib.Runs

namespace InodeVpn.Fork
open Lib Wire

/-- The client of one connection, and the packets that were waiting at the last
`h3c_connect` or have been queued since. -/
structure Link where
  vpn : VpnInfo
  queued : List Pkt

inductive Action
  | queue (pkt : Pkt)
  | deliver
  | arrive (s : Bytes)
  | hangUp
  | call (o : Outside)

namespace Link

/-- What `openconnect_mainloop` does between two calls of `h3c_mainloop`, and the call. -/
def step (kaCheckDeadline : Int → Int → Int → Int) (l : Link) :
    Action → Option (Link × Option Returned)
  | .queue pkt =>
    some ({ vpn := { l.vpn with outgoingQueue := l.vpn.outgoingQueue ++ [pkt] }
            queued := l.queued ++ [pkt] }, none)
  | .deliver =>
    some ({ l with vpn := { l.vpn with incomingQueue := l.vpn.incomingQueue.tail } }, none)
  | .arrive s =>
    if l.vpn.sslOpen then
      some ({ l with vpn := { l.vpn with
        ssl := { l.vpn.ssl with inbox := l.vpn.ssl.inbox ++ s } } }, none)
    else none
  | .hangUp => some ({ l with vpn := { l.vpn with sslOpen := false } }, none)
  | .call o =>
    if l.vpn.quitReason.isSome then none
    else
      let r := mainloop kaCheckDeadline o l.vpn
      some ({ vpn := r.vpn
              queued := if r.cause.isSome && o.reconnect.ret = 0 then r.vpn.outgoingQueue
                else l.queued }, some r)

/-- Right after the first `h3c_connect`. -/
def Start (l : Link) : Prop :=
  ∃ v now, l.vpn = VpnInfo.connected now v ∧ v.currentSslPkt = none ∧ v.quitReason = none ∧
    l.queued = v.outgoingQueue

end Link

/-- The runs of `h3c_mainloop`, call after call. -/
def link (kaCheckDeadline : Int → Int → Int → Int) : System Link Action Returned where
  init := Link.Start
  step := Link.step kaCheckDeadline

end InodeVpn.Fork
