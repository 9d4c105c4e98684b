import InodeVpn.Lib.Fallible
import InodeVpn.Lib.Text

namespace InodeVpn.Core

/-- `inode_core::Error`; `toString` is its `Display`. -/
inductive Error
  | config (message : String)
  | ipc (message : String)
  | openConnect (message : String)
  | route (message : String)
  | io (message : String)
  deriving DecidableEq, Repr

def Error.toString : Error → String
  | .config m => "config error: " ++ m
  | .ipc m => "ipc error: " ++ m
  | .openConnect m => "openconnect error: " ++ m
  | .route m => "route setup failed: " ++ m
  | .io m => "io error: " ++ m

structure GatewayConfig where
  /-- `host:port`, same semantics as the legacy `.auth` `gateway=` key. -/
  url : String
  /-- `pin-sha256:` SPKI pin. Empty means TOFU discover. -/
  servercert : String
  deriving DecidableEq, Repr

structure Credentials where
  username : String
  password : String
  deriving DecidableEq, Repr

inductive Keepalive
  | seconds (s : Nat)
  | auto (text : String)
  deriving DecidableEq, Repr

/-- The configured period, or the one the gateway advertised. -/
def Keepalive.secondsOr (advertised : Nat) : Keepalive → Nat
  | .auto _ => advertised
  | .seconds s => s

inductive DnsMode
  | server
  | ignore
  deriving DecidableEq, Repr

structure NetworkConfig where
  keepalive : Keepalive
  preserveCidrs : List String
  dns : DnsMode
  deriving DecidableEq, Repr

structure ServiceConfig where
  autostart : Bool
  restartDelay : Nat
  deriving DecidableEq, Repr

structure Config where
  gateway : GatewayConfig
  credentials : Credentials
  network : NetworkConfig
  service : ServiceConfig
  deriving DecidableEq, Repr

/-- `impl Default for Config`. -/
def Config.default : Config where
  gateway := ⟨"", ""⟩
  credentials := ⟨"", ""⟩
  network := ⟨.auto "auto", [], .server⟩
  service := ⟨true, 10⟩

/-- What `Config::load` meets at its path. -/
structure ConfigFile where
  path : String
  present : Bool
  /-- Its permission bits, or why they cannot be read. -/
  mode : Except String Nat
  contents : Except String String

def Config.enforceMode (file : ConfigFile) : Except Error Unit :=
  match file.mode with
  | .error e => .error (.config ("failed to stat " ++ file.path ++ ": " ++ e))
  | .ok mode =>
    if mode &&& 0o77 ≠ 0 then
      .error (.config
        (file.path ++ " has insecure permissions; run: chmod 600 " ++ file.path))
    else .ok ()

/-- `Config::load`; `parse` is `toml::from_str`. -/
def Config.load (parse : String → Except String Config) (file : ConfigFile) :
    Except Error Config := do
  if !file.present then
    throw (.config ("configuration file " ++ file.path ++
      " does not exist; run `inode config migrate` or create it (mode 0600)"))
  enforceMode file
  let raw ← file.contents.mapError fun e =>
    .config ("failed to read " ++ file.path ++ ": " ++ e)
  let cfg ← (parse raw).mapError fun e =>
    .config ("failed to parse " ++ file.path ++ ": " ++ e)
  if Lib.trim cfg.gateway.url = "" then
    throw (.config (file.path ++ ": gateway.url must not be empty"))
  return cfg

/-- What `load` accepts. -/
theorem Config.load_iff {parse : String → Except String Config} {file : ConfigFile}
    {cfg : Config} : Config.load parse file = .ok cfg ↔
      file.present = true ∧ enforceMode file = .ok () ∧
        (∃ raw, file.contents = .ok raw ∧ parse raw = .ok cfg) ∧
        Lib.trim cfg.gateway.url ≠ "" := by
  constructor
  · intro h
    unfold load at h
    split at h
    · cases h
    · rename_i hpresent
      obtain ⟨⟨⟩, hmode, h⟩ := Lib.bind_ok h
      obtain ⟨raw, hraw, h⟩ := Lib.bind_ok h
      obtain ⟨cfg', hparse, h⟩ := Lib.bind_ok h
      split at h
      · cases h
      · rename_i hurl
        cases h
        exact ⟨by simpa using hpresent, hmode, ⟨raw, Lib.mapError_ok.mp hraw,
          Lib.mapError_ok.mp hparse⟩, hurl⟩
  · rintro ⟨hpresent, hmode, ⟨raw, hraw, hparse⟩, hurl⟩
    simp only [load, hpresent, hmode, Lib.mapError_ok.mpr hraw, Lib.mapError_ok.mpr hparse, hurl,
      Bool.not_true, Bool.false_eq_true, bind, Except.bind, if_false]
    rfl

/-- The masked view of a configuration. -/
structure ConfigRedacted where
  gatewayUrl : String
  servercertPresent : Bool
  username : String
  keepalive : Keepalive
  preserveCidrs : List String
  dns : DnsMode
  autostart : Bool

def Config.redacted (cfg : Config) : ConfigRedacted where
  gatewayUrl := cfg.gateway.url
  servercertPresent := cfg.gateway.servercert ≠ ""
  username := cfg.credentials.username
  keepalive := cfg.network.keepalive
  preserveCidrs := cfg.network.preserveCidrs
  dns := cfg.network.dns
  autostart := cfg.service.autostart

/-- The secrets that must never reach a log line, longest first. -/
structure Redactor where
  secrets : List String := []
  deriving DecidableEq, Repr

/-- `Redactor::new`; the sort is stable. -/
def Redactor.new (secrets : List String) : Redactor :=
  ⟨(secrets.filter (· ≠ "")).mergeSort (fun a b => b.utf8ByteSize ≤ a.utf8ByteSize)⟩

def Redactor.add (r : Redactor) (secret : String) : Redactor :=
  if secret ≠ "" ∧ secret ∉ r.secrets then
    ⟨(r.secrets ++ [secret]).mergeSort (fun a b => b.utf8ByteSize ≤ a.utf8ByteSize)⟩
  else r

theorem Redactor.mem_new (secrets : List String) (s : String) :
    s ∈ (Redactor.new secrets).secrets ↔ s ∈ secrets ∧ s ≠ "" := by
  simp [Redactor.new]

/-- Registering a secret forgets none that was registered before. -/
theorem Redactor.mem_add (r : Redactor) (secret s : String) :
    s ∈ (r.add secret).secrets ↔ s ∈ r.secrets ∨ (s = secret ∧ secret ≠ "") := by
  unfold Redactor.add
  split
  · rename_i h
    simp only [List.mem_mergeSort, List.mem_append, List.mem_singleton]
    constructor
    · rintro (hs | rfl)
      · exact Or.inl hs
      · exact Or.inr ⟨rfl, h.1⟩
    · rintro (hs | ⟨rfl, -⟩)
      · exact Or.inl hs
      · exact Or.inr rfl
  · rename_i h
    constructor
    · exact Or.inl
    · rintro (hs | ⟨rfl, hne⟩)
      · exact hs
      · simpa [hne] using h

end InodeVpn.Core
