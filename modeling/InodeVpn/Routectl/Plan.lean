import InodeVpn.Core.Config
import InodeVpn.Lib.Fallible
import InodeVpn.Lib.Masks
import InodeVpn.Lib.Text

namespace InodeVpn.Routectl
open InodeVpn.Core Lib

abbrev Environ := List (String × String)

/-- `std::env::var`. -/
def var (key : String) (environ : Environ) : Option String :=
  (environ.find? (fun kv => kv.1 == key)).map Prod.snd

/-- A variable that counts as unset when it is empty. -/
def nonEmptyVar (key : String) (environ : Environ) : Option String :=
  (var key environ).filter (· ≠ "")

structure RoutePlan where
  reason : String
  tunIface : String
  vpnGateway : Option String
  tunIp : Option String
  prefixLen : Option Nat
  mtu : Option Nat
  dns : List String
  dnsMode : String
  splitRoutes : List String
  preserveCidrs : List String
  /-- Test override: physical default gateway (skips `ip route` discovery). -/
  physGatewayOverride : Option String
  /-- Test override: physical interface (skips `ip route` discovery). -/
  physIfaceOverride : Option String
  deriving DecidableEq, Repr

/-- `255.255.255.0` -> `24`. Accepts a prefix length string as well (`"24"`).
The shift of the last test overflows for a mask of 32 ones; without overflow
checks, as in the release profile, its count is taken modulo 32. -/
def netmaskToPrefix (netmask : String) : Except Error Nat := do
  let bad := Error.route ("bad netmask: " ++ debugText netmask)
  match (parseU8 netmask).filter (· ≤ 32) with
  | some len => return len
  | none =>
    let octets ← (split (· == '.') netmask).mapM fun o => (parseU8 o).elim (.error bad) .ok
    if octets.length ≠ 4 then throw bad
    let bits := octets.zipIdx.foldl
      (fun bits (octet, i) => bits ||| (BitVec.ofNat 32 octet <<< (24 - 8 * i))) 0#32
    if bits = 0#32 then return 0
    let len := (~~~bits).clz.toNat
    if bits ||| ((1#32 <<< (len % 32)) - 1#32) ≠ BitVec.allOnes 32 then
      throw (.route ("non-contiguous netmask: " ++ debugText netmask))
    return len

/-- The same function in a build with overflow checks; `none` is the panic. -/
def netmaskToPrefixChecked (netmask : String) : Option (Except Error Nat) :=
  let bad := Error.route ("bad netmask: " ++ debugText netmask)
  match (parseU8 netmask).filter (· ≤ 32) with
  | some len => some (.ok len)
  | none =>
    match (split (· == '.') netmask).mapM parseU8 with
    | none => some (.error bad)
    | some octets =>
      if octets.length ≠ 4 then some (.error bad)
      else do
        let bits ← octets.zipIdx.foldlM (fun bits (octet, i) => do
          -- `24 - 8 * i` is a subtraction of `usize`
          let count ← checkedSub 24#64 (8#64 * BitVec.ofNat 64 i)
          let part ← checkedShl (BitVec.ofNat 32 octet) count.toNat
          return bits ||| part) 0#32
        if bits = 0#32 then return .ok 0
        let len := (~~~bits).clz.toNat
        let power ← checkedShl 1#32 len
        let low ← checkedSub power 1#32
        if bits ||| low ≠ BitVec.allOnes 32 then
          return .error (.route ("non-contiguous netmask: " ++ debugText netmask))
        return .ok len

/-- One round of the loop of `parse_split_routes`. -/
def splitRoute (environ : Environ) (i : Nat) : Except Error (Option String) :=
  let addr := (var ("CISCO_SPLIT_INC_" ++ toString i ++ "_ADDR") environ).getD ""
  let masklen := (var ("CISCO_SPLIT_INC_" ++ toString i ++ "_MASKLEN") environ).getD ""
  if addr = "" ∨ masklen = "" then .ok none
  else if (parseU8 masklen).isNone then
    .error (.route ("bad CISCO_SPLIT_INC_" ++ toString i ++ "_MASKLEN value: " ++
      debugText masklen))
  else .ok (some (addr ++ "/" ++ masklen))

def parseSplitRoutes (environ : Environ) : Except Error (List String) := do
  let count := ((var "CISCO_SPLIT_INC" environ).bind parseUsize).getD 0
  let routes ← (List.range count).mapM (splitRoute environ)
  return routes.filterMap id

/-- The separators of `INODE_PRESERVE_CIDRS`. -/
def isCidrSeparator (c : Char) : Bool := c == ',' || c == ';' || c == ' '

namespace RoutePlan

def isUpPhase (plan : RoutePlan) : Bool :=
  plan.reason == "connect" || plan.reason == "reconnect" || plan.reason == "attempt-reconnect"

/-- `RoutePlan::from_env`, in the environment that the phase runs in. -/
def fromEnv (reason : String) (environ : Environ) : Except Error RoutePlan := do
  let prefixLen ← (nonEmptyVar "INTERNAL_IP4_NETMASK" environ).mapM netmaskToPrefix
  let splitRoutes ← parseSplitRoutes environ
  return {
    reason
    tunIface := (var "TUNDEV" environ).getD "tun0"
    vpnGateway := nonEmptyVar "VPNGATEWAY" environ
    tunIp := nonEmptyVar "INTERNAL_IP4_ADDRESS" environ
    prefixLen
    mtu := (var "INTERNAL_IP4_MTU" environ).bind parseU16
    dns := ((var "INTERNAL_IP4_DNS" environ).map words).getD []
    dnsMode := (nonEmptyVar "INODE_DNS_MODE" environ).getD "server"
    splitRoutes
    preserveCidrs :=
      ((var "INODE_PRESERVE_CIDRS" environ).map (pieces isCidrSeparator)).getD []
    physGatewayOverride := var "INODE_PHYS_GATEWAY" environ
    physIfaceOverride := var "INODE_PHYS_IFACE" environ }

/-- The settings that travel from the daemon in the environment. -/
theorem fromEnv_settings {reason : String} {environ : Environ} {plan : RoutePlan}
    (h : fromEnv reason environ = .ok plan) :
    plan.dnsMode = (nonEmptyVar "INODE_DNS_MODE" environ).getD "server" ∧
      plan.preserveCidrs =
        ((var "INODE_PRESERVE_CIDRS" environ).map (pieces isCidrSeparator)).getD [] := by
  obtain ⟨prefixLen, -, h⟩ := bind_ok h
  obtain ⟨splitRoutes, -, h⟩ := bind_ok h
  cases h
  exact ⟨rfl, rfl⟩

theorem fromEnv_splitRoutes {reason : String} {environ : Environ} {plan : RoutePlan}
    (h : fromEnv reason environ = .ok plan) : parseSplitRoutes environ = .ok plan.splitRoutes := by
  obtain ⟨prefixLen, -, h⟩ := bind_ok h
  obtain ⟨splitRoutes, hsplit, h⟩ := bind_ok h
  cases h
  exact hsplit

end RoutePlan

end InodeVpn.Routectl
