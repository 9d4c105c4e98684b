import InodeVpn.Daemon.Threads
import InodeVpn.Core.Redact

namespace InodeVpn.Daemon
open InodeVpn.Core Lib

def hasNul (s : String) : Bool := s.toList.contains (Char.ofNat 0)

/-- `cstring`: a C string cannot hold a NUL. -/
def cstring (s : String) : Except Error String :=
  if hasNul s then .error (.openConnect "string contains NUL") else .ok s

namespace Engine

/-- Goes on at `pc`. -/
def goto (e : Engine) (pc : EnginePc) : Thread :=
  .engine { e with publishing := none, pc }

/-- Calls `set_state`, then goes on at `pc`. -/
def publish (e : Engine) (state : SessionState) (lastError : Option String) (pc : EnginePc) :
    Thread :=
  .engine { e with publishing := some (.update state lastError), pc }

def panic (e : Engine) : Thread := e.goto (.unwind e.pc)

/-- `return Err(Error::OpenConnect(..))` from the closure. -/
def fail (e : Engine) (v : Option Nat) (message : String) : Thread :=
  e.goto (.teardown v (some (.openConnect message)) .setHealthStop)

/-- `tun_script.as_deref().unwrap_or("")`. -/
def script (e : Engine) : String := e.tunScript.getD ""

/-- The C strings that `engine_run` builds before anything else. -/
def cstrings (e : Engine) : Except Error Unit := do
  let _ ← cstring e.config.credentials.username
  let _ ← cstring e.config.credentials.password
  let _ ← cstring e.config.gateway.servercert
  let _ ← cstring e.config.gateway.url
  let _ ← cstring e.script

end Engine

/-- The value of `INODE_DNS_MODE`. -/
def dnsModeText : DnsMode → String
  | .server => "server"
  | .ignore => "ignore"

/-- The body of the `result` closure, once `openconnect_vpninfo_new` has
returned the vpninfo `v`. -/
def sessionNext (o : Outside) (me fresh : Nat) (d : Shared) (e : Engine) (v : Nat) :
    SessionPc → Option Section
  | .setProtocol =>
    some { shared := d
           self := if o.ret ≠ 0 then
               e.fail (some v) ("openconnect_set_protocol failed (" ++ toString o.ret ++ ")")
             else e.goto (.session v .parseUrl)
           effect := some (.returned me .setProtocol o.ret) }
  | .parseUrl =>
    some { shared := d
           self := if o.ret ≠ 0 then
               e.fail (some v) ("openconnect_parse_url failed (" ++ toString o.ret ++ ")")
             else e.goto (.session v .setDropUid)
           effect := some (.returned me .parseUrl o.ret) }
  | .setDropUid =>
    some { shared := d.modifyVpnInfo v fun info =>
             { info with dropUid := some (d.inner.targetUid, d.inner.targetGid) }
           self := e.goto (.session v .setupCmdPipe) }
  | .setupCmdPipe =>
    if o.ret < 0 then
      some { shared := d, self := e.fail (some v) "openconnect_setup_cmd_pipe failed"
             effect := some (.returned me .setupCmdPipe o.ret) }
    else if d.fdUnused o.ret then
      some { shared := d.modifyVpnInfo v fun info => { info with cmdFd := some o.ret }
             self := e.goto (.session v (.storeCmdFd ⟨o.ret, v⟩))
             effect := some (.returned me .setupCmdPipe o.ret) }
    else none
  | .storeCmdFd fd =>
    some { shared := { d with inner := { d.inner with cmdFd := some fd } }
           self := e.goto (.session v .obtainCookie) }
  | .obtainCookie =>
    some { shared := d, self := e.goto (.session v (.obtainingCookie (d.cancelled v))) }
  | .obtainingCookie _ =>
    some { shared := d
           self := if o.ret ≠ 0 then
               e.fail (some v) ("authentication failed (" ++ toString o.ret ++ ")")
             else e.goto (.session v .getCookie)
           effect := some (.returned me .obtainCookie o.ret) }
  | .getCookie =>
    if o.null then some { shared := d, self := e.goto (.session v .clearHealthStop) }
    else
      some { shared := { d with redactor := d.redactor.add o.cookie }
             self := e.goto (.session v (.setCookie o.cookie)) }
  | .setCookie cookie =>
    some { shared := { d with inner := { d.inner with cookie := some cookie } }
           self := e.goto (.session v .clearHealthStop) }
  | .clearHealthStop =>
    some { shared := { d with healthStop := false }, self := e.goto (.session v .spawnHealth) }
  | .spawnHealth =>
    if o.spawns then
      some { shared := d, self := e.goto (.session v (.storeHealthThread fresh))
             spawned := some (.health e.config.gateway.url
               (max (e.config.network.keepalive.secondsOr 30) 5) .loop) }
    else some { shared := d, self := e.panic }
  | .storeHealthThread handle =>
    some { shared := { d with healthThread := some handle }
           self := e.publish .connecting none (.session v .makeCstp) }
  | .makeCstp =>
    some { shared := d, self := e.goto (.session v (.makingCstp (d.cancelled v))) }
  | .makingCstp _ =>
    some { shared := d
           self := if o.ret ≠ 0 then
               e.fail (some v) ("NET_EXTEND failed (" ++ toString o.ret ++ ")")
             else e.goto (.session v .getIpInfo)
           effect := some (.returned me .makeCstpConnection o.ret) }
  | .getIpInfo =>
    -- the routes are never read, and the gateway's own keepalive is not either
    some { shared := d
           self := e.goto (.session v (.setGateway
             (if o.ret = 0 ∧ ¬o.null then { o.session with routes := [], keepalive := some 30 }
              else {}))) }
  | .setGateway session =>
    some { shared := { d with inner := { d.inner with gateway := some e.config.gateway.url } }
           self := e.goto (.session v (.setSession session)) }
  | .setSession session =>
    some { shared := { d with inner := { d.inner with session := some session } }
           self := e.goto (.session v .sessionSnapshot) }
  | .sessionSnapshot =>
    some { shared := d, self := e.goto (.session v (.emitSession d.inner.snapshot)) }
  | .emitSession snapshot =>
    some { shared := d.emit "session_updated" snapshot, self := e.goto (.session v .setDnsMode) }
  | .setDnsMode =>
    some { shared := d.setVar "INODE_DNS_MODE" (dnsModeText e.config.network.dns)
           self := e.goto (.session v .setPreserveCidrs) }
  | .setPreserveCidrs =>
    if e.config.network.preserveCidrs = [] then
      some { shared := d, self := e.goto (.session v .setStateDir) }
    else if hasNul (",".intercalate e.config.network.preserveCidrs) then
      -- `set_var` panics on a value with a NUL
      some { shared := d, self := e.panic }
    else
      some { shared :=
               d.setVar "INODE_PRESERVE_CIDRS" (",".intercalate e.config.network.preserveCidrs)
             self := e.goto (.session v .setStateDir) }
  | .setStateDir =>
    some { shared := if (d.var "INODE_ROUTECTL_STATE_DIR").isNone then
               d.setVar "INODE_ROUTECTL_STATE_DIR" "/run/inode-vpn"
             else d
           self := e.goto (.session v .setupTun) }
  | .setupTun =>
    if e.script = "" ∧ ((d.var "INODE_ROUTECTL").or o.routectl).isNone then
      some { shared := d, self := e.fail (some v) "cannot locate inode-routectl" }
    else
      some { shared := d
             self := if o.ret ≠ 0 then
                 e.fail (some v) ("tun setup failed (" ++ toString o.ret ++ ")")
               else e.publish .connected none (.session v .mainloop)
             effect := some (.returned me .setupTun o.ret) }
  | .mainloop =>
    some { shared := d, self := e.goto (.session v (.inMainloop (d.cancelled v)))
           effect := some (.enteredMainloop me (d.cancelled v)) }
  | .inMainloop cancelled =>
    match o.callback with
    | some .reconnected =>
      some { shared := d, self := e.publish .connected none (.session v (.inMainloop cancelled)) }
    | some (.stats s) =>
      some { shared := { d with inner := { d.inner with stats := s } }
             self := e.goto (.session v (.statsSnapshot cancelled)) }
    | none =>
      some { shared := d, self := e.goto (.session v (.stopCheck o.ret))
             effect := some (.returned me .mainloop o.ret) }
  | .statsSnapshot cancelled =>
    some { shared := d, self := e.goto (.session v (.emitStats cancelled d.inner.snapshot)) }
  | .emitStats cancelled snapshot =>
    some { shared := d.emit "stats" snapshot
           self := e.goto (.session v (.inMainloop cancelled)) }
  | .stopCheck ret =>
    some { shared := d
           self := if d.inner.stopRequested then
               e.publish .stopped none (.teardown (some v) none .setHealthStop)
             else if ret = 0 then e.goto (.session v .pausedStopCheck)
             else e.fail (some v) ("mainloop exited (" ++ toString ret ++ ")") }
  | .pausedStopCheck =>
    some { shared := d
           self := if d.inner.stopRequested then
               e.publish .stopped none (.teardown (some v) none .setHealthStop)
             else e.publish .reconnecting none (.session v .mainloop) }

/-- `engine_run` after the closure: `stop_health`, `openconnect_vpninfo_free`,
the error path, and the drop of the guard. -/
def teardownNext (o : Outside) (me : Nat) (d : Shared) (e : Engine) (v : Option Nat)
    (result : Option Error) : TeardownPc → Option Section
  | .setHealthStop =>
    some { shared := { d with healthStop := true }
           self := e.goto (.teardown v result .takeHealth) }
  | .takeHealth =>
    some { shared := { d with healthThread := none }
           self := e.goto (.teardown v result
             (match d.healthThread with | some h => .joinHealth h | none => .clearHealth)) }
  | .joinHealth handle =>
    if handle ∈ d.endedHealth then
      some { shared := d, self := e.goto (.teardown v result .clearHealth) }
    else none
  | .clearHealth =>
    some { shared := { d with inner := { d.inner with health := none } }
           self := e.goto (.teardown v result .clearCookie) }
  | .clearCookie =>
    some { shared := { d with inner := { d.inner with cookie := none } }
           self := e.goto (.teardown v result .free) }
  | .free =>
    some { shared := match v with
             | some v => d.modifyVpnInfo v fun info => { info with frees := info.frees + 1 }
             | none => d
           self := e.goto (.teardown v result
             (match result with | some error => .stopCheck error | none => .guardDrop))
           effect := v.map .freed }
  | .stopCheck error =>
    some { shared := d
           self := if d.inner.stopRequested then
               e.publish .stopped (some error.toString) (.teardown v result .guardDrop)
             else e.publish .failed (some error.toString)
               (.teardown v result (.scheduleRetry .lock)) }
  | .scheduleRetry pc =>
    match scheduleNext o d e.config pc with
    | (shared, .next pc) => some { shared, self := e.goto (.teardown v result (.scheduleRetry pc)) }
    | (shared, .returned) => some { shared, self := e.goto (.teardown v result .guardDrop) }
    | (shared, .spawned retry generation) =>
      some { shared, self := e.goto (.teardown v result .guardDrop), spawned := some retry
             effect := some (.retryScheduled me generation) }
    | (shared, .panicked) => some { shared, self := e.panic }
  | .guardDrop =>
    some { shared := d.markEngineFinished, self := .done, effect := some (.finished me) }

/-- A panic can start here: everywhere but in the drop of the guard. -/
def EnginePc.mayPanic : EnginePc → Bool
  | .teardown _ _ .guardDrop | .unwind _ => false
  | _ => true

/-- `engine_run` under `catch_unwind`, between calls of `set_state`. -/
def engineRunNext (o : Outside) (me fresh : Nat) (d : Shared) (e : Engine) : Option Section :=
  if o.panics ∧ e.pc.mayPanic then some { shared := d, self := e.panic }
  else
    match e.pc with
    | .cstrings =>
      some { shared := d
             self := match e.cstrings with
               | .ok () => e.goto .initSsl
               | .error error =>
                 e.publish .failed (some error.toString) (.teardown none none .guardDrop) }
    | .initSsl =>
      some { shared := d
             self := if o.ret ≠ 0 then
                 e.fail none ("openconnect_init_ssl failed (" ++ toString o.ret ++ ")")
               else e.goto .vpninfoNew
             effect := some (.returned me .initSsl o.ret) }
    | .vpninfoNew =>
      if o.null then some { shared := d, self := e.fail none "openconnect_vpninfo_new failed" }
      else
        some { shared := { d with vpninfos := d.vpninfos ++ [{}] }
               self := e.goto (.session d.vpninfos.length .setProtocol) }
    | .session v pc => sessionNext o me fresh d e v pc
    | .teardown v result pc => teardownNext o me d e v result pc
    | .unwind _ =>
      some { shared := d.markEngineFinished
             self := .panicked e.config
               (some (.update .failed (some "engine thread panicked"))) .lock
             effect := some (.finished me) }

def engineNext (o : Outside) (me fresh : Nat) (d : Shared) (e : Engine) : Option Section :=
  match e.publishing with
  | some call =>
    let (shared, publishing, effect) := setStateNext o me d call
    some { shared, self := .engine { e with publishing }, effect }
  | none => engineRunNext o me fresh d e

/-- The closure of `engine_start` after `catch_unwind` has caught a panic. -/
def panickedNext (o : Outside) (me : Nat) (d : Shared) (config : Config) (pc : SchedulePc) :
    Option SetState → Option Section
  | some call =>
    let (shared, publishing, effect) := setStateNext o me d call
    some { shared, self := .panicked config publishing pc, effect }
  | none =>
    match scheduleNext o d config pc with
    | (shared, .next pc) => some { shared, self := .panicked config none pc }
    | (shared, .returned) => some { shared, self := .done }
    | (shared, .spawned retry generation) =>
      some { shared, self := .done, spawned := some retry
             effect := some (.retryScheduled me generation) }
    | (shared, .panicked) => some { shared, self := .done }

/-- `validate_cb`, for a certificate that the system does not trust; `check` is
`openconnect_check_peer_cert_hash` with it. -/
def validateCb (check : String → Int) (servercert : String) : Int :=
  if servercert = "" then 1 else check servercert

/-- Log levels of libopenconnect. -/
def PRG_ERR : Int := 0
def PRG_DEBUG : Int := 2
def PRG_TRACE : Int := 3

inductive LogLevel
  | error | info | debug | trace
  deriving DecidableEq, Repr

/-- `progress_cb`: the line that a message of libopenconnect puts into the log. -/
def Shared.progress (level : Int) (msg : List Char) (d : Shared) : LogLevel × List Char :=
  (if level = PRG_ERR then .error
   else if level = PRG_DEBUG then .debug
   else if level = PRG_TRACE then .trace
   else .info,
   d.redactor.redact msg)

end InodeVpn.Daemon
