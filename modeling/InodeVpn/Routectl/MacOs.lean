import InodeVpn.Routectl.Linux

namespace InodeVpn.Routectl.MacOs
open InodeVpn.Core Lib
open Linux (Failure FileWrite)

structure PhysicalState where
  gateway : Option String := none
  iface : Option String := none
  localIp : Option String := none
  deriving DecidableEq, Repr

/-- What `route` is asked to reach. -/
inductive Target
  | host (addr : String)
  | net (addr netmask : String)
  deriving DecidableEq, Repr

def Target.args : Target → List String
  | .host addr => ["-host", addr]
  | .net addr netmask => ["-net", addr, "-netmask", netmask]

/-- The commands whose outcome is looked at. -/
inductive Command
  | tunUp (iface ip netmask : String) (mtu : Option Nat)
  | add (target : Target) (gateway : String)
  | delete (target : Target) (gateway : Option String)
  deriving DecidableEq, Repr

def Command.line : Command → List String
  | .tunUp iface ip netmask mtu =>
    ["ifconfig", iface, ip, ip, "netmask", netmask] ++
      (mtu.elim [] fun mtu => ["mtu", toString mtu]) ++ ["up"]
  | .add target gateway => ["route", "-n", "add"] ++ target.args ++ [gateway]
  | .delete target gateway => ["route", "-n", "delete"] ++ target.args ++ gateway.toList

/-- `{:?}` of a command. -/
def Command.debug (command : Command) : String := " ".intercalate (command.line.map debugText)

def failureError (command : Command) : Failure → Error
  | .notRun e => .route ("failed to run " ++ command.debug ++ ": " ++ e)
  | .exited status stderr =>
    .route (command.debug ++ " exited " ++ status ++ ": " ++ trim stderr)

def badAddress (target : Target) : Failure :=
  .exited "exit status: 68" ("route: bad address: " ++ " ".intercalate target.args)

/-- What a phase meets outside. An output is missing when its command could not be run. -/
structure Outside where
  routeGetGateway : Option String := none
  routeGetInterface : Option String := none
  ifconfig : Option String := none
  serviceOrder : Option String := none
  stateDir : Option String := none
  stateWrite : FileWrite := .done
  /-- the command with this number fails -/
  failure : Nat → Option Failure := fun _ => none

/-- The machine: its routes as destinations with next hops, and the files that hold a
physical state. Kept beside them for the record: every route added, the commands so far,
and those whose outcome nobody looks at. -/
structure Host (D : Type) where
  table : List (D × String)
  files : String → Option PhysicalState := fun _ => none
  added : List (D × String) := []
  ran : Nat := 0
  others : List (List String) := []

/-- What a phase does to the machine, up to an error. -/
abbrev Script (D : Type) := EStateM Error (Host D)

/-- Parse `gateway:`/`interface:` fields from `route -n get default`. -/
def defaultRouteField (field : String) (out : Option String) : Option String :=
  out.bind fun text =>
    (lines text).findSome? fun line =>
      ((stripPrefix field (trim line)).map trim).filter (· ≠ "")

def ifconfigLocalIp (out : Option String) : Option String :=
  out.bind fun text =>
    (lines text).findSome? fun line =>
      match words line with
      | "inet" :: ip :: _ => some ip
      | _ => none

def discover (o : Outside) (plan : RoutePlan) : PhysicalState :=
  let gateway := plan.physGatewayOverride.or (defaultRouteField "gateway:" o.routeGetGateway)
  let iface := plan.physIfaceOverride.or (defaultRouteField "interface:" o.routeGetInterface)
  { gateway, iface, localIp := iface.bind fun _ => ifconfigLocalIp o.ifconfig }

def statePath (o : Outside) (plan : RoutePlan) : String :=
  let dir := o.stateDir.getD "/var/run/inode-vpn"
  let name := "routectl-" ++ plan.tunIface ++ ".json"
  if dir = "" ∨ dir.toList.getLast? = some '/' then dir ++ name else dir ++ "/" ++ name

def prefixToNetmask (len : Nat) : String :=
  if len = 0 then "0.0.0.0"
  else if len ≤ 32 then Ipv4Addr.format (BitVec.allOnes 32 <<< (32 - len))
  else "255.255.255.255"

def splitCidr (cidr : String) : Except Error (String × String) :=
  match splitOnce '/' cidr with
  | none => .error (.route ("bad CIDR: " ++ cidr))
  | some (net, len) =>
    match parseU8 len with
    | none => .error (.route ("bad CIDR prefix: " ++ cidr))
    | some len =>
      if len > 32 then .error (.route ("bad CIDR prefix: " ++ cidr))
      else .ok (net, prefixToNetmask len)

/-- The loop of `parse_service_order`, with the service of the last numbered line. -/
def parseServiceLines (iface : String) : Option String → List String → Option String
  | _, [] => none
  | current, line :: rest =>
    match (stripPrefix "(" (trim line)).bind (splitOnce ')') with
    | none => parseServiceLines iface current rest
    | some (inner, after) =>
      let inner := trim inner
      if (stripPrefix "Hardware Port:" inner).isSome then
        let device := (((inner.splitOn "Device:")[1]?).map trim).getD ""
        if device = iface then current else parseServiceLines iface current rest
      else parseServiceLines iface (some (trim after)) rest

def parseServiceOrder (text iface : String) : Option String :=
  parseServiceLines iface none (lines text)

/-- Find the networksetup service bound to an interface, e.g. en0 -> Wi-Fi. -/
def serviceForIface (o : Outside) (iface : String) : Option String :=
  o.serviceOrder.bind fun text => parseServiceOrder text iface

section Phases
variable {D : Type}

def setFile (path : String) (contents : Option PhysicalState) (h : Host D) : Host D :=
  { h with files := Function.update h.files path contents }

def saveState (o : Outside) (plan : RoutePlan) (phys : PhysicalState) : Script D Unit :=
  modify fun h =>
    match o.stateWrite with
    | .done => setFile (statePath o plan) (some phys) h
    | .unopened => h
    | .torn => setFile (statePath o plan) none h

def loadState (o : Outside) (plan : RoutePlan) (h : Host D) : PhysicalState :=
  (h.files (statePath o plan)).getD {}

/-- `let _ = ..`: an error is dropped. -/
def ignoring (x : Script D Unit) : Script D Unit := fun h =>
  match x h with
  | .ok _ h' => .ok () h'
  | .error _ h' => .ok () h'

def pass {α : Type} (x : Except Error α) : Script D α :=
  match x with
  | .ok a => pure a
  | .error e => throw e

def other (command : List String) : Script D Unit :=
  modify fun h => { h with others := h.others ++ [command] }

variable [DecidableEq D]
-- what `route` makes of a target
variable (resolve : Target → Option D)

def Command.exec (h : Host D) : Command → Except Failure (Host D)
  | .add target gateway =>
    match resolve target with
    | some d =>
      .ok { h with table := h.table ++ [(d, gateway)], added := h.added ++ [(d, gateway)] }
    | none => .error (badAddress target)
  | .delete target _ =>
    match resolve target with
    | some d => .ok { h with table := h.table.filter fun e => e.1 ≠ d }
    | none => .error (badAddress target)
  | .tunUp .. => .ok h

def run (o : Outside) (command : Command) : Script D Unit := fun h =>
  let h' := { h with ran := h.ran + 1 }
  match o.failure h.ran with
  | some failure => .error (failureError command failure) h'
  | none =>
    match command.exec resolve h' with
    | .ok h'' => .ok () h''
    | .error failure => .error (failureError command failure) h'

def configureTun (o : Outside) (plan : RoutePlan) : Script D Unit :=
  match plan.tunIp, plan.prefixLen with
  | some ip, some len => run resolve o (.tunUp plan.tunIface ip (prefixToNetmask len) plan.mtu)
  | _, _ => pure ()

/-- VPN gateway host route on the physical path. -/
def keepControlPath (o : Outside) (plan : RoutePlan) (phys : PhysicalState) : Script D Unit :=
  match plan.vpnGateway, phys.gateway with
  | some gw, some physGw => run resolve o (.add (.host gw) physGw)
  | _, _ => pure ()

/-- `route add -net` for one CIDR. -/
def addNet (o : Outside) (gateway cidr : String) : Script D Unit := do
  let (net, mask) ← pass (splitCidr cidr)
  run resolve o (.add (.net net mask) gateway)

/-- Protect the management address and explicit CIDRs. -/
def protectManagement (o : Outside) (plan : RoutePlan) (phys : PhysicalState) : Script D Unit :=
  match phys.gateway with
  | some physGw => do
    match phys.localIp with
    | some localIp => run resolve o (.add (.host localIp) physGw)
    | none => pure ()
    plan.preserveCidrs.forM (addNet resolve o physGw)
  | none => pure ()

/-- Split routes through the tun point-to-point peer address. -/
def addSplitRoutes (o : Outside) (plan : RoutePlan) : Script D Unit :=
  match plan.tunIp with
  | some tunIp => plan.splitRoutes.forM (addNet resolve o tunIp)
  | none => pure ()

/-- The service whose DNS is set and reverted. -/
def dnsService (o : Outside) (plan : RoutePlan) (phys : PhysicalState) : Option String :=
  if plan.dnsMode = "ignore" ∨ plan.dns = [] then none
  else phys.iface.bind (serviceForIface o)

def applyDns (o : Outside) (plan : RoutePlan) (phys : PhysicalState) : Script D Unit :=
  match dnsService o plan phys with
  | some service => other (["networksetup", "-setdnsservers", service] ++ plan.dns)
  | none => pure ()

def revertDns (o : Outside) (plan : RoutePlan) (phys : PhysicalState) : Script D Unit :=
  match dnsService o plan phys with
  | some service => other ["networksetup", "-setdnsservers", service, "empty"]
  | none => pure ()

def connect (o : Outside) (plan : RoutePlan) : Script D Unit := do
  let phys := discover o plan
  saveState o plan phys
  configureTun resolve o plan
  keepControlPath resolve o plan phys
  protectManagement resolve o plan phys
  addSplitRoutes resolve o plan
  applyDns o plan phys

/-- The physical path that a disconnect goes by. -/
def recalled (o : Outside) (plan : RoutePlan) (h : Host D) : PhysicalState :=
  let saved := loadState o plan h
  if saved.gateway.isSome || saved.iface.isSome then saved else discover o plan

/-- `let _ = run(["delete", ..])`. -/
def drop (o : Outside) (target : Target) (gateway : Option String) : Script D Unit :=
  ignoring (run resolve o (.delete target gateway))

def dropHost (o : Outside) (addr : Option String) : Script D Unit :=
  match addr with
  | some addr => drop resolve o (.host addr) none
  | none => pure ()

/-- `split_cidr(cidr).unwrap_or_default()`. -/
def netOf (cidr : String) : Target :=
  match splitCidr cidr with
  | .ok (net, mask) => .net net mask
  | .error _ => .net "" ""

def removeSplitRoutes (o : Outside) (plan : RoutePlan) : Script D Unit :=
  match plan.tunIp with
  | some tunIp => do
    plan.splitRoutes.forM fun cidr => drop resolve o (netOf cidr) (some tunIp)
    other ["ifconfig", plan.tunIface, "down"]
  | none => pure ()

def disconnect (o : Outside) (plan : RoutePlan) : Script D Unit := do
  let phys := recalled o plan (← get)
  dropHost resolve o plan.vpnGateway
  dropHost resolve o phys.localIp
  removeSplitRoutes resolve o plan
  revertDns o plan phys
  modify (setFile (statePath o plan) none)

/-- A previous engine may have died without its disconnect phase, so `pre-init` deletes
the host route of the VPN gateway. -/
def apply (o : Outside) (plan : RoutePlan) : Script D Unit :=
  match plan.reason with
  | "pre-init" => dropHost resolve o plan.vpnGateway
  | "connect" | "reconnect" | "attempt-reconnect" => connect resolve o plan
  | "disconnect" => disconnect resolve o plan
  | other => throw (.route ("unsupported reason: " ++ other))

end Phases

end InodeVpn.Routectl.MacOs
