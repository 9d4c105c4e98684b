namespace InodeVpn.Core

/-- The daemon's session state machine (`inode-core/src/state.rs`). -/
inductive SessionState
  /-- No active session and no automatic-reconnect target. -/
  | stopped
  | authenticating
  | connecting
  | connected
  | reconnecting
  | failed
  deriving DecidableEq, Repr

def SessionState.isTerminal : SessionState → Bool
  | .stopped | .failed => true
  | _ => false

structure HealthStatus where
  checkonlineOk : Bool
  lastCheck : Option String
  deriving DecidableEq, Repr

structure SessionInfo where
  ip : Option String := none
  mtu : Option Nat := none
  routes : List String := []
  dns : List String := []
  keepalive : Option Nat := none
  deriving DecidableEq, Repr

structure Stats where
  txPkts : Nat := 0
  txBytes : Nat := 0
  rxPkts : Nat := 0
  rxBytes : Nat := 0
  deriving DecidableEq, Repr

structure ServiceStatus where
  supervisor : String
  enabled : Bool
  autostart : Bool
  deriving DecidableEq, Repr

/-- `status --json` schema. -/
structure StatusSnapshot where
  state : SessionState
  since : Option String
  gateway : Option String
  session : Option SessionInfo
  stats : Option Stats
  lastError : Option String
  health : Option HealthStatus
  service : ServiceStatus
  deriving DecidableEq, Repr

/-- An event on a subscriber's channel. Every event of the daemon carries a
snapshot as its `params`. -/
structure Event where
  method : String
  params : StatusSnapshot
  deriving DecidableEq, Repr

structure Request where
  id : Nat
  method : String
  deriving DecidableEq, Repr

/-- What a response carries in `result`, or its `error`. -/
inductive Reply
  | pong (version : String)
  | status (snapshot : StatusSnapshot)
  | accepted
  | subscribed
  | err (code : Int) (message : String)
  deriving DecidableEq, Repr

structure Response where
  id : Nat
  reply : Reply
  deriving DecidableEq, Repr

end InodeVpn.Core
