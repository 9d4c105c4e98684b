import InodeVpn.Lib.Ipv4
import InodeVpn.Lib.Masks
import InodeVpn.Lib.Routes
import InodeVpn.Routectl.Plan

namespace InodeVpn.Routectl.Linux
open InodeVpn.Core Lib

structure PhysicalState where
  gateway : Option String := none
  iface : Option String := none
  localIp : Option String := none
  localPrefix : Option String := none
  deriving DecidableEq, Repr

/-- The next hop of a route. -/
structure Hop where
  via : Option String
  dev : String
  deriving DecidableEq, Repr

/-- A route has the attributes that `ip route del` was given; one that was not given
fits any route. -/
def Hop.fits (given hop : Hop) : Bool :=
  (given.via.isNone || given.via = hop.via) && given.dev = hop.dev

theorem Hop.fits_self (hop : Hop) : hop.fits hop = true := by
  simp [Hop.fits]

/-- The calls of `ip` that change something. -/
inductive IpCommand
  | addrReplace (cidr iface : String)
  | linkUp (iface : String)
  | linkDown (iface : String)
  | linkMtu (iface : String) (mtu : Nat)
  | routeReplace (dst : String) (hop : Hop)
  | routeDel (dst : String) (hop : Hop)
  deriving DecidableEq, Repr

def Hop.args (hop : Hop) : List String :=
  (hop.via.elim [] fun gw => ["via", gw]) ++ ["dev", hop.dev]

def IpCommand.args : IpCommand → List String
  | .addrReplace cidr iface => ["addr", "replace", cidr, "peer", cidr, "dev", iface]
  | .linkUp iface => ["link", "set", "dev", iface, "up"]
  | .linkDown iface => ["link", "set", "dev", iface, "down"]
  | .linkMtu iface mtu => ["link", "set", "dev", iface, "mtu", toString mtu]
  | .routeReplace dst hop => ["route", "replace", dst] ++ hop.args
  | .routeDel dst hop => ["route", "del", dst] ++ hop.args

/-- How a run of `ip` goes wrong. -/
inductive Failure
  | notRun (error : String)
  | exited (status stderr : String)
  deriving DecidableEq, Repr

def Failure.error (args : List String) : Failure → Error
  | .notRun e => .route ("failed to run `ip " ++ " ".intercalate args ++ "`: " ++ e)
  | .exited status stderr =>
    .route ("`ip " ++ " ".intercalate args ++ "` exited " ++ status ++ ": " ++ trim stderr)

def malformed (dst : String) : Failure :=
  .exited "exit status: 1" ("Error: any valid prefix is expected rather than \"" ++ dst ++ "\".")

/-- What comes of writing the state file: its new contents, the old ones, or ones
that cannot be read back. -/
inductive FileWrite
  | done
  | unopened
  | torn
  deriving DecidableEq, Repr

/-- What a phase meets outside. An output is missing when its command could not be run. -/
structure Outside where
  routeShowVia : Option String := none
  routeShowDev : Option String := none
  addrShow : Option String := none
  stateDir : Option String := none
  stateWrite : FileWrite := .done
  /-- the run of `ip` with this number fails -/
  failure : Nat → Option Failure := fun _ => none
  resolvectl : Bool := true

/-- The machine: its routes, keyed by destination, and the files that hold a physical
state. Kept beside them for the record: every route installed, the runs of `ip` so
far, and the resolver commands. -/
structure Host (D : Type) where
  table : Table D Hop
  files : String → Option PhysicalState := fun _ => none
  installed : List (D × Hop) := []
  ran : Nat := 0
  resolver : List (List String) := []

/-- What the kernel does to the table by itself after so many runs of `ip`, the last of which has
set an address or a link. -/
abbrev Kernel (D : Type) := Nat → IpCommand → Table D Hop → Table D Hop

/-- The tool `ip`, and the kernel behind it. -/
structure Ip (D : Type) where
  /-- what the tool makes of the text of a destination -/
  destination : String → Option D
  kernel : Kernel D

/-- Nothing but `ip route` changes the table. -/
abbrev quiet {D : Type} (destination : String → Option D) : Ip D where
  destination
  kernel _ _ T := T

instance {D : Type} : Coe (String → Option D) (Ip D) := ⟨quiet⟩

/-- `while let Some(word)`: the word after the first `field`, if there is one. -/
def wordAfter (field : String) : List String → Option String
  | [] => none
  | word :: rest => if word = field then rest.head? else wordAfter field rest

/-- Parse `via <gateway>` or `dev <iface>` from `ip route show default`. -/
def parseDefaultRouteField (field : String) (out : Option String) : Option String :=
  out.bind fun text => wordAfter field (words text)

/-- Normalise `192.168.0.128/23` to `192.168.0.0/23`; `ip route replace`
rejects prefixes whose host bits are non-zero. -/
def networkCidr (ip len : String) : String :=
  let bits := min ((parseU32 len).getD 32) 32
  match Ipv4Addr.parse ip with
  | some host =>
    let mask := if bits = 0 then 0#32 else BitVec.allOnes 32 <<< (32 - bits)
    Ipv4Addr.format (host &&& mask) ++ "/" ++ toString bits
  | none => ip ++ "/" ++ len

/-- The same function in a build with overflow checks; `none` is the panic. -/
def networkCidrChecked (ip len : String) : Option String :=
  let bits := min ((parseU32 len).getD 32) 32
  match Ipv4Addr.parse ip with
  | some host => do
    let mask ←
      if bits = 0 then some 0#32
      else do
        let count ← checkedSub 32#32 (BitVec.ofNat 32 bits)
        checkedShl (BitVec.allOnes 32) count.toNat
    return Ipv4Addr.format (host &&& mask) ++ "/" ++ toString bits
  | none => some (ip ++ "/" ++ len)

/-- The word after the first `inet` of a line; it may be missing. -/
def inetWord (line : String) : Option String :=
  if "inet" ∈ words line then some ((wordAfter "inet" (words line)).getD "") else none

def parseLocalAddr (out : Option String) : Option (String × String) :=
  out.bind fun text =>
    (lines text).findSome? fun line =>
      (inetWord line).map fun cidr =>
        let (ip, len) := (splitOnce '/' cidr).getD (cidr, "")
        (ip, networkCidr ip len)

/-- `PhysicalState::discover`. -/
def PhysicalState.discover (o : Outside) (plan : RoutePlan) : PhysicalState :=
  let gateway := plan.physGatewayOverride.or (parseDefaultRouteField "via" o.routeShowVia)
  let iface := plan.physIfaceOverride.or (parseDefaultRouteField "dev" o.routeShowDev)
  let addr := iface.bind fun _ => parseLocalAddr o.addrShow
  { gateway, iface, localIp := addr.map Prod.fst, localPrefix := addr.map Prod.snd }

def statePath (o : Outside) (plan : RoutePlan) : String :=
  let dir := o.stateDir.getD "/run/inode-vpn"
  let name := "routectl-" ++ plan.tunIface ++ ".json"
  if dir = "" ∨ dir.toList.getLast? = some '/' then dir ++ name else dir ++ "/" ++ name

/-- What a phase does to the machine, up to an error. -/
abbrev Script (D : Type) := EStateM Error (Host D)

section Phases
variable {D : Type} [DecidableEq D]

def setFile (path : String) (contents : Option PhysicalState) (h : Host D) : Host D :=
  { h with files := Function.update h.files path contents }

def saveState (o : Outside) (plan : RoutePlan) (phys : PhysicalState) : Script D Unit :=
  modify fun h =>
    match o.stateWrite with
    | .done => setFile (statePath o plan) (some phys) h
    | .unopened => h
    | .torn => setFile (statePath o plan) none h

def loadState (o : Outside) (plan : RoutePlan) (h : Host D) : PhysicalState :=
  (h.files (statePath o plan)).getD {}

/-- `let _ = ..`: an error is dropped. -/
def ignoring (x : Script D Unit) : Script D Unit := fun h =>
  match x h with
  | .ok _ h' => .ok () h'
  | .error _ h' => .ok () h'

variable (ip : Ip D)

def IpCommand.exec (h : Host D) : IpCommand → Except Failure (Host D)
  | .routeReplace dst hop =>
    match ip.destination dst with
    | some d =>
      .ok { h with table := h.table.replace d hop, installed := h.installed ++ [(d, hop)] }
    | none => .error (malformed dst)
  | .routeDel dst hop =>
    match ip.destination dst with
    | some d =>
      if (h.table d).any hop.fits then .ok { h with table := h.table.remove d hop.fits }
      else .error (.exited "exit status: 2" "RTNETLINK answers: No such process")
    | none => .error (malformed dst)
  | command => .ok { h with table := ip.kernel h.ran command h.table }

def run (o : Outside) (command : IpCommand) : Script D Unit := fun h =>
  let h' := { h with ran := h.ran + 1 }
  match o.failure h.ran with
  | some failure => .error (failure.error command.args) h'
  | none =>
    match command.exec ip h' with
    | .ok h'' => .ok () h''
    | .error failure => .error (failure.error command.args) h'

def configureTun (o : Outside) (plan : RoutePlan) : Script D Unit :=
  match plan.tunIp, plan.prefixLen with
  | some tunIp, some len => do
    -- Point-to-point tun: local IP with the server-provided netmask as peer.
    run ip o (.addrReplace (tunIp ++ "/" ++ toString len) plan.tunIface)
    run ip o (.linkUp plan.tunIface)
  | _, _ => pure ()

def setMtu (o : Outside) (plan : RoutePlan) : Script D Unit :=
  match plan.mtu with
  | some mtu => ignoring (run ip o (.linkMtu plan.tunIface mtu))
  | none => pure ()

/-- 1. Keep the VPN control path alive even if the tunnel covers it. -/
def keepControlPath (o : Outside) (plan : RoutePlan) (phys : PhysicalState) : Script D Unit :=
  match plan.vpnGateway, phys.gateway, phys.iface with
  | some gw, some physGw, some physIf =>
    run ip o (.routeReplace (gw ++ "/32") ⟨physGw, physIf⟩)
  | _, _, _ => pure ()

/-- 2. Protect the management network: more specific than any VPN route. -/
def protectManagement (o : Outside) (plan : RoutePlan) (phys : PhysicalState) : Script D Unit :=
  match phys.gateway, phys.iface with
  | some physGw, some physIf => do
    match phys.localIp with
    | some localIp => run ip o (.routeReplace (localIp ++ "/32") ⟨physGw, physIf⟩)
    | none => pure ()
    match phys.localPrefix with
    | some localPrefix => run ip o (.routeReplace localPrefix ⟨physGw, physIf⟩)
    | none => pure ()
    plan.preserveCidrs.forM fun cidr => run ip o (.routeReplace cidr ⟨physGw, physIf⟩)
  | _, _ => pure ()

/-- 3. Split routes from NET_EXTEND ROUTES go through the tun. -/
def addSplitRoutes (o : Outside) (plan : RoutePlan) : Script D Unit :=
  plan.splitRoutes.forM fun cidr => run ip o (.routeReplace cidr ⟨none, plan.tunIface⟩)

def resolve (command : List String) : Script D Unit :=
  modify fun h => { h with resolver := h.resolver ++ [command] }

def applyDns (o : Outside) (plan : RoutePlan) : Script D Unit :=
  if plan.dnsMode = "ignore" ∨ plan.dns = [] then pure ()
  else do
    resolve (["resolvectl", "dns", plan.tunIface] ++ plan.dns)
    if o.resolvectl then pure ()
    else resolve ["resolvconf", "-a", plan.tunIface ++ ".openconnect"]

def connect (o : Outside) (plan : RoutePlan) : Script D Unit := do
  let phys := .discover o plan
  saveState o plan phys
  configureTun ip o plan
  setMtu ip o plan
  keepControlPath ip o plan phys
  protectManagement ip o plan phys
  addSplitRoutes ip o plan
  applyDns o plan

/-- The physical path that a disconnect goes by. -/
def recalled (o : Outside) (plan : RoutePlan) (h : Host D) : PhysicalState :=
  let saved := loadState o plan h
  if saved.gateway.isSome || saved.iface.isSome then saved else .discover o plan

def delete (o : Outside) (dst : String) (hop : Hop) : Script D Unit :=
  ignoring (run ip o (.routeDel dst hop))

def releaseControlPath (o : Outside) (plan : RoutePlan) (phys : PhysicalState) : Script D Unit :=
  match plan.vpnGateway, phys.gateway, phys.iface with
  | some gw, some physGw, some physIf => delete ip o (gw ++ "/32") ⟨physGw, physIf⟩
  | _, _, _ => pure ()

def releaseManagement (o : Outside) (plan : RoutePlan) (phys : PhysicalState) : Script D Unit :=
  match phys.gateway, phys.iface with
  | some physGw, some physIf => do
    match phys.localIp with
    | some localIp => delete ip o (localIp ++ "/32") ⟨physGw, physIf⟩
    | none => pure ()
    match phys.localPrefix with
    | some localPrefix => delete ip o localPrefix ⟨physGw, physIf⟩
    | none => pure ()
    plan.preserveCidrs.forM fun cidr => delete ip o cidr ⟨physGw, physIf⟩
  | _, _ => pure ()

def removeSplitRoutes (o : Outside) (plan : RoutePlan) : Script D Unit :=
  plan.splitRoutes.forM fun cidr => delete ip o cidr ⟨none, plan.tunIface⟩

def tunDown (o : Outside) (plan : RoutePlan) : Script D Unit :=
  if plan.tunIp.isSome then ignoring (run ip o (.linkDown plan.tunIface)) else pure ()

def revertDns (plan : RoutePlan) : Script D Unit := do
  resolve ["resolvectl", "revert", plan.tunIface]
  resolve ["resolvconf", "-d", plan.tunIface ++ ".openconnect"]

def disconnect (o : Outside) (plan : RoutePlan) : Script D Unit := do
  let phys := recalled o plan (← get)
  removeSplitRoutes ip o plan
  releaseControlPath ip o plan phys
  releaseManagement ip o plan phys
  tunDown ip o plan
  revertDns plan
  modify (setFile (statePath o plan) none)

def apply (o : Outside) (plan : RoutePlan) : Script D Unit :=
  match plan.reason with
  | "pre-init" => pure ()
  | "connect" | "reconnect" | "attempt-reconnect" => connect ip o plan
  | "disconnect" => disconnect ip o plan
  | other => throw (.route ("unsupported reason: " ++ other))

end Phases

end InodeVpn.Routectl.Linux
