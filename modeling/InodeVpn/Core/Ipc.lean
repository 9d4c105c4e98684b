import InodeVpn.Core.State
import InodeVpn.Lib.Serde

namespace InodeVpn.Core
open Lib Lib.Json

def PROTOCOL_VERSION : String := "2.0"

/-- CLI process exit codes. -/
def SessionState.exitCode : SessionState → Int
  | .connected => 0
  | .failed => 1
  | _ => 3

/-- The snake_case names under which the states are serialized. -/
def SessionState.serialName : SessionState → String
  | .stopped => "stopped"
  | .authenticating => "authenticating"
  | .connecting => "connecting"
  | .connected => "connected"
  | .reconnecting => "reconnecting"
  | .failed => "failed"

def SessionState.ofSerialName (name : String) : Option SessionState :=
  [.stopped, .authenticating, .connecting, .connected, .reconnecting, .failed].find?
    fun s => s.serialName = name

/-- A variant without data is written as its name, and also read from `{"name": null}`. -/
def SessionState.decode : Value → Option SessionState
  | .string s => ofSerialName (String.ofList s)
  | .object [(k, .null)] => ofSerialName (String.ofList k)
  | _ => none

section Serialize

def HealthStatus.encode (sorted : Bool) (h : HealthStatus) : Value :=
  struct sorted (present [("checkonline_ok", some (.bool h.checkonlineOk)),
    ("last_check", h.lastCheck.map ofString)])

def SessionInfo.encode (sorted : Bool) (s : SessionInfo) : Value :=
  struct sorted (present [("ip", s.ip.map ofString), ("mtu", s.mtu.map ofNat),
    ("routes", some (ofStrings s.routes)), ("dns", some (ofStrings s.dns)),
    ("keepalive", s.keepalive.map ofNat)])

def Stats.encode (sorted : Bool) (s : Stats) : Value :=
  struct sorted (present [("tx_pkts", some (ofNat s.txPkts)), ("tx_bytes", some (ofNat s.txBytes)),
    ("rx_pkts", some (ofNat s.rxPkts)), ("rx_bytes", some (ofNat s.rxBytes))])

def ServiceStatus.encode (sorted : Bool) (s : ServiceStatus) : Value :=
  struct sorted (present [("supervisor", some (ofString s.supervisor)),
    ("enabled", some (.bool s.enabled)), ("autostart", some (.bool s.autostart))])

/-- `Serialize`: to a value, where names are sorted, or to a text, where they are not. -/
def StatusSnapshot.encode (sorted : Bool) (s : StatusSnapshot) : Value :=
  struct sorted (present [("state", some (ofString s.state.serialName)),
    ("since", s.since.map ofString), ("gateway", s.gateway.map ofString),
    ("session", s.session.map (SessionInfo.encode sorted)),
    ("stats", s.stats.map (Stats.encode sorted)), ("last_error", s.lastError.map ofString),
    ("health", s.health.map (HealthStatus.encode sorted)),
    ("service", some (s.service.encode sorted))])

end Serialize

section FromValue

def HealthStatus.decode (v : Value) : Option HealthStatus := do
  let fields ← structFields ["checkonline_ok", "last_check"] 2 v
  let checkonlineOk ← (findLast "checkonline_ok" fields).required asBool
  let lastCheck ← (findLast "last_check" fields).optional asString
  return { checkonlineOk, lastCheck }

def SessionInfo.decode (v : Value) : Option SessionInfo := do
  let fields ← structFields ["ip", "mtu", "routes", "dns", "keepalive"] 5 v
  let ip ← (findLast "ip" fields).optional asString
  let mtu ← (findLast "mtu" fields).optional (asUnsigned 32)
  let routes ← (findLast "routes" fields).defaulted [] asStrings
  let dns ← (findLast "dns" fields).defaulted [] asStrings
  let keepalive ← (findLast "keepalive" fields).optional (asUnsigned 64)
  return { ip, mtu, routes, dns, keepalive }

def Stats.decode (v : Value) : Option Stats := do
  let fields ← structFields ["tx_pkts", "tx_bytes", "rx_pkts", "rx_bytes"] 4 v
  let txPkts ← (findLast "tx_pkts" fields).required (asUnsigned 64)
  let txBytes ← (findLast "tx_bytes" fields).required (asUnsigned 64)
  let rxPkts ← (findLast "rx_pkts" fields).required (asUnsigned 64)
  let rxBytes ← (findLast "rx_bytes" fields).required (asUnsigned 64)
  return { txPkts, txBytes, rxPkts, rxBytes }

def ServiceStatus.decode (v : Value) : Option ServiceStatus := do
  let fields ← structFields ["supervisor", "enabled", "autostart"] 3 v
  let supervisor ← (findLast "supervisor" fields).required asString
  let enabled ← (findLast "enabled" fields).required asBool
  let autostart ← (findLast "autostart" fields).required asBool
  return { supervisor, enabled, autostart }

/-- `serde_json::from_value` of a snapshot. -/
def StatusSnapshot.decode (v : Value) : Option StatusSnapshot := do
  let fields ← structFields ["state", "since", "gateway", "session", "stats", "last_error",
    "health", "service"] 8 v
  let state ← (findLast "state" fields).required SessionState.decode
  let since ← (findLast "since" fields).optional asString
  let gateway ← (findLast "gateway" fields).optional asString
  let session ← (findLast "session" fields).optional SessionInfo.decode
  let stats ← (findLast "stats" fields).optional Stats.decode
  let lastError ← (findLast "last_error" fields).optional asString
  let health ← (findLast "health" fields).optional HealthStatus.decode
  let service ← (findLast "service" fields).required ServiceStatus.decode
  return { state, since, gateway, session, stats, lastError, health, service }

end FromValue

/-- The numbers fit the types that they have in Rust. -/
structure StatusSnapshot.Fits (s : StatusSnapshot) : Prop where
  mtu : ∀ i ∈ s.session, ∀ n ∈ i.mtu, n < 2 ^ 32
  keepalive : ∀ i ∈ s.session, ∀ n ∈ i.keepalive, n < 2 ^ 64
  stats : ∀ t ∈ s.stats, t.txPkts < 2 ^ 64 ∧ t.txBytes < 2 ^ 64 ∧ t.rxPkts < 2 ^ 64 ∧
    t.rxBytes < 2 ^ 64

namespace Ipc

/-- JSON-RPC 2.0, one message a line. -/
structure Request where
  jsonrpc : String
  id : UInt64
  method : String
  params : Value

structure RpcError where
  code : Int32
  message : String

structure Response where
  jsonrpc : String
  id : UInt64
  result : Option Value
  error : Option RpcError

structure Event where
  jsonrpc : String
  method : String
  params : Value

def asU64 (v : Value) : Option UInt64 := (asUnsigned 64 v).map UInt64.ofNat

def asI32 (v : Value) : Option Int32 := (asSigned 32 v).map Int32.ofInt

def Request.withParams (id : UInt64) (method : String) (params : Value) : Request where
  jsonrpc := PROTOCOL_VERSION
  id
  method
  params

def Response.ok (id : UInt64) (result : Value) : Response where
  jsonrpc := PROTOCOL_VERSION
  id
  result := some result
  error := none

def Response.err (id : UInt64) (code : Int32) (message : String) : Response where
  jsonrpc := PROTOCOL_VERSION
  id
  result := none
  error := some { code, message }

def Event.new (method : String) (params : Value) : Event where
  jsonrpc := PROTOCOL_VERSION
  method
  params

def Request.encode (r : Request) : Value :=
  object (present [("jsonrpc", some (ofString r.jsonrpc)), ("id", some (ofNat r.id.toNat)),
    ("method", some (ofString r.method)), ("params", some r.params)])

def RpcError.encode (e : RpcError) : Value :=
  object (present [("code", some (ofInt e.code.toInt)), ("message", some (ofString e.message))])

def Response.encode (r : Response) : Value :=
  object (present [("jsonrpc", some (ofString r.jsonrpc)), ("id", some (ofNat r.id.toNat)),
    ("result", r.result), ("error", r.error.map RpcError.encode)])

def Event.encode (e : Event) : Value :=
  object (present [("jsonrpc", some (ofString e.jsonrpc)), ("method", some (ofString e.method)),
    ("params", some e.params)])

def Request.decode (v : Value) : Option Request := do
  let fields ← structFields ["jsonrpc", "id", "method", "params"] 3 v
  let jsonrpc ← (find "jsonrpc" fields).required asString
  let id ← (find "id" fields).required asU64
  let method ← (find "method" fields).required asString
  let params ← (find "params" fields).defaulted .null some
  return { jsonrpc, id, method, params }

def RpcError.decode (v : Value) : Option RpcError := do
  let fields ← structFields ["code", "message"] 2 v
  let code ← (find "code" fields).required asI32
  let message ← (find "message" fields).required asString
  return { code, message }

def Response.decode (v : Value) : Option Response := do
  let fields ← structFields ["jsonrpc", "id", "result", "error"] 4 v
  let jsonrpc ← (find "jsonrpc" fields).required asString
  let id ← (find "id" fields).required asU64
  let result ← (find "result" fields).optional some
  let error ← (find "error" fields).optional RpcError.decode
  return { jsonrpc, id, result, error }

def Event.decode (v : Value) : Option Event := do
  let fields ← structFields ["jsonrpc", "method", "params"] 2 v
  let jsonrpc ← (find "jsonrpc" fields).required asString
  let method ← (find "method" fields).required asString
  let params ← (find "params" fields).defaulted .null some
  return { jsonrpc, method, params }

end Ipc

end InodeVpn.Core
