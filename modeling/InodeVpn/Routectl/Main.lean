import InodeVpn.Routectl.Linux

namespace InodeVpn.Routectl
open InodeVpn.Core Lib

def SUPPORTED_REASONS : List String :=
  ["pre-init", "connect", "reconnect", "attempt-reconnect", "disconnect"]

/-- `{:?}` of an `Option`, from that of its value. -/
def debugOption : Option String → String
  | some text => "Some(" ++ text ++ ")"
  | none => "None"

/-- `{:?}` of a `Vec<String>`. -/
def debugTexts (texts : List String) : String :=
  "[" ++ ", ".intercalate (texts.map debugText) ++ "]"

/-- `RoutePlan::describe`. -/
def RoutePlan.describe (plan : RoutePlan) : String :=
  "reason=" ++ plan.reason ++ " tun=" ++ plan.tunIface ++
    " tun_ip=" ++ debugOption (plan.tunIp.map debugText) ++
    "/" ++ debugOption (plan.prefixLen.map toString) ++
    " mtu=" ++ debugOption (plan.mtu.map toString) ++ " dns=" ++ debugTexts plan.dns ++
    " dns_mode=" ++ plan.dnsMode ++ " split=" ++ debugTexts plan.splitRoutes ++
    " preserve=" ++ debugTexts plan.preserveCidrs ++
    " vpn_gateway=" ++ debugOption (plan.vpnGateway.map debugText)

def isDryRun (environ : Environ) : Bool := var "INODE_ROUTECTL_DRY_RUN" environ = some "1"

/-- How the process ends. -/
structure Exit where
  out : String := ""
  err : String := ""
  code : Int
  deriving DecidableEq, Repr

namespace Linux
variable {D : Type} [DecidableEq D] (ip : Ip D)

/-- Parse the vpnc-script environment and run one phase: what is printed. -/
def runPhase (o : Outside) (environ : Environ) (reason : String) : Script D String :=
  if reason ∉ SUPPORTED_REASONS then
    throw (.route ("unsupported vpnc-script reason: " ++ reason))
  else
    match RoutePlan.fromEnv reason environ with
    | .error e => throw e
    | .ok plan =>
      if isDryRun environ then pure (plan.describe ++ "\n")
      else do
        apply ip o plan
        return ""

/-- A call of the program. -/
structure Invocation where
  /-- `env::args().nth(1)` -/
  arg : Option String := none
  environ : Environ
  outside : Outside

/-- The reason of a call, where it has one. -/
def Invocation.reason (inv : Invocation) : Option String := inv.arg.or (var "reason" inv.environ)

/-- `main`. It is a process of its own, so its runs of `ip` are numbered from the first. -/
def main (inv : Invocation) (h : Host D) : Exit × Host D :=
  match inv.reason with
  | none => ({ err := "usage: inode-routectl <reason>\n", code := 2 }, h)
  | some reason =>
    match runPhase ip inv.outside inv.environ reason { h with ran := 0 } with
    | .ok out h => ({ out, code := 0 }, h)
    | .error e h => ({ err := e.toString ++ "\n", code := 1 }, h)

end Linux

end InodeVpn.Routectl
