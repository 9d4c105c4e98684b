import InodeVpn.Core.Redact

namespace InodeVpn.Cli
open InodeVpn.Core InodeVpn.Lib InodeVpn.Lib.Json

/-- A name and what is assigned to it in an object. -/
abbrev Field := String × Value

/-- `BTreeMap::insert`, which keeps the names in order. -/
def insertMember (k : Text) (v : Value) : List (Text × Value) → List (Text × Value)
  | [] => [(k, v)]
  | (k', v') :: members =>
    if k < k' then (k, v) :: (k', v') :: members
    else if k = k' then (k, v) :: members
    else (k', v') :: insertMember k v members

/-- The object after these assignments. -/
def json (fields : List Field) : Value :=
  .object (fields.foldl (fun members f => insertMember f.1.toList f.2 members) [])

def text (s : String) : Value := .string s.toList

def keepaliveValue : Keepalive → Value
  | .seconds s => .number (.ofNat s)
  | .auto t => text t

def dnsValue : DnsMode → Value
  | .server => text "server"
  | .ignore => text "ignore"

/-- `serde_json::to_value` of the masked view. -/
def configValue (cfg : ConfigRedacted) : Value :=
  json [("gateway_url", text cfg.gatewayUrl),
    ("servercert_present", .bool cfg.servercertPresent),
    ("username", text cfg.username),
    ("keepalive", keepaliveValue cfg.keepalive),
    ("preserve_cidrs", .array (cfg.preserveCidrs.map text)),
    ("dns", dnsValue cfg.dns),
    ("autostart", .bool cfg.autostart)]

/-- What becomes of the `status` request. -/
inductive StatusAnswer
  | unreachable
  | failed (error : String)
  | refused (message : String)
  | answered (result : Option Value)

/-- What `run_diagnose` finds outside of the program. -/
structure Host where
  os : String
  arch : String
  /-- `toml::from_str`. -/
  parse : String → Except String Config
  /-- At `Config::default_path()`. -/
  configFile : ConfigFile
  daemon : StatusAnswer
  /-- The two outputs of a command that can be started. -/
  run : String → List String → Option (String × String)

namespace Host

def config (host : Host) : Except Error Config := Config.load host.parse host.configFile

def commandOutput (host : Host) (program : String) (args : List String) : Option String :=
  (host.run program args).map fun out => out.1 ++ "\n" ++ out.2

def output (host : Host) (program : String) (args : List String) : Value :=
  text ((host.commandOutput program args).getD "")

def redactor (host : Host) : Redactor :=
  match host.config with
  | .ok cfg => (({} : Redactor).add cfg.credentials.password).add cfg.credentials.username
  | .error _ => {}

def configField (host : Host) : Field :=
  match host.config with
  | .ok cfg => ("config", configValue cfg.redacted)
  | .error e => ("config_error", text e.toString)

def daemonField (host : Host) : Field :=
  match host.daemon with
  | .unreachable => ("daemon_error", text "daemon not reachable")
  | .failed e => ("daemon_error", text e)
  | .refused m => ("daemon_error", text m)
  | .answered result => ("daemon_status", result.getD .null)

def networkFields (host : Host) : List Field :=
  if host.os = "linux" then
    [("routes", host.output "ip" ["route", "show"]),
      ("addrs", host.output "ip" ["-4", "addr", "show"]),
      ("dns", host.output "resolvectl" ["status"])]
  else if host.os = "macos" then
    [("routes", host.output "netstat" ["-rn", "-f", "inet"]),
      ("addrs", host.output "ifconfig" []),
      ("dns", host.output "scutil" ["--dns"])]
  else []

def bundle (host : Host) : Value :=
  json ([("inode_version", text "1.0.0"),
    ("platform", json [("os", text host.os), ("arch", text host.arch)]),
    host.configField, host.daemonField, ("uname", host.output "uname" ["-a"])] ++
    host.networkFields)

end Host

/-- What `run_diagnose` prints, and its exit code. -/
def runDiagnose (host : Host) : Text × Int :=
  (host.redactor.redact (host.bundle.pretty 0) ++ ['\n'], 0)

end InodeVpn.Cli
