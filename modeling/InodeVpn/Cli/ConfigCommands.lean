import InodeVpn.Cli.Client
import InodeVpn.Core.Save
import InodeVpn.Lib.SplitOn

namespace InodeVpn.Cli
open InodeVpn.Core Lib

/-- Where `locate_openconnect` looks. -/
structure Binaries where
  /-- `INODE_OPENCONNECT_BIN` -/
  fromEnv : Option String := none
  /-- `openconnect-h3c` in the directory of the executable, if that is known -/
  bundled : Option String := none
  isFile : String → Bool := fun _ => true

/-- `locate_openconnect`. -/
def locateOpenconnect (b : Binaries) : Option String :=
  ((b.fromEnv.filter b.isFile).or (b.bundled.filter b.isFile)).or
    ((some "openconnect").filter b.isFile)

/-- `PREFIX` -/
def pinPrefix : String := "pin-sha256:"

/-- What a pin is made of. -/
def isPinChar (c : Char) : Bool := c.isAlphanum || c = '+' || c = '/' || c = '='

/-- `parse_pin`. -/
def parsePin (output : String) : Option String :=
  (behind pinPrefix.toList output.toList).bind fun rest =>
    let pin := rest.takeWhile isPinChar
    if 20 ≤ pin.length then some (pinPrefix ++ String.ofList pin) else none

/-- Why there is no output of `openconnect`. -/
inductive NoOutput
  | notSpawned (error : String)
  | notWaited (error : String)
  deriving DecidableEq, Repr

/-- What `run_discover_cert` meets outside. -/
structure DiscoverOutside where
  binaries : Binaries := {}
  /-- `Config::default_path` -/
  path : Except Error String
  /-- standard output and error of a program with these arguments, which is told `no` -/
  output : String → List String → Except NoOutput String
  save : SaveOutside := {}

/-- `eprintln!` and a return of 1. -/
def failing (message : String) (d : Disk) : Ended × Disk :=
  ({ err := message ++ "\n", code := 1 }, d)

/-- `run_discover_cert`. -/
def runDiscoverCert (toml : Toml) (o : DiscoverOutside) (force : Bool) (d : Disk) :
    Ended × Disk :=
  match locateOpenconnect o.binaries with
  | none => failing ("cannot locate openconnect-h3c binary; set INODE_OPENCONNECT_BIN or " ++
      "install the fork") d
  | some bin =>
    match o.path with
    | .error e => failing e.toString d
    | .ok path =>
      match Config.load toml.fromStr (.on path d.file) with
      | .error e => failing e.toString d
      | .ok cfg =>
        match o.output bin ["--protocol", "h3c", "--no-dtls", cfg.gateway.url] with
        | .error (.notSpawned e) => failing ("failed to spawn " ++ bin ++ ": " ++ e) d
        | .error (.notWaited e) => failing ("openconnect failed: " ++ e) d
        | .ok text =>
          match parsePin text with
          | none => failing "no pin-sha256 found in openconnect output" d
          | some pin =>
            if cfg.gateway.servercert ≠ "" ∧ cfg.gateway.servercert ≠ pin ∧ force = false then
              failing ("certificate pin changed\n  configured: " ++ cfg.gateway.servercert ++
                "\n  discovered: " ++ pin ++ "\nre-run with --force to accept the new pin") d
            else
              match { cfg with gateway.servercert := pin }.save toml o.save path d with
              | .error e d => failing e.toString d
              | .ok _ d => ({ out := "discovered and saved " ++ pin ++ "\n", code := 0 }, d)

/-- The path of the configuration, for the commands that do without `HOME`. -/
def pathOrHere (path : Except Error String) : String := path.toOption.getD "config.toml"

/-- The command `config set`. -/
def configSet (toml : Toml) (o : SaveOutside) (path : Except Error String) (key value : String)
    (d : Disk) : Ended × Disk :=
  match Config.set toml o (pathOrHere path) key value d with
  | .error e d => failing e.toString d
  | .ok _ d => ({ out := "set " ++ key ++ " (secrets not displayed)\n", code := 0 }, d)

/-- The command `config migrate`. -/
def configMigrate (toml : Toml) (o : SaveOutside) (auth : ConfigFile)
    (path : Except Error String) (d : Disk) : Ended × Disk :=
  match Config.migrateLegacyAuth toml o auth (pathOrHere path) d with
  | .error e d => failing ("migrate failed: " ++ e.toString) d
  | .ok cfg d =>
    ({ out := "migrated to " ++ pathOrHere path ++ " (mode 0600)\n" ++
         "gateway=" ++ cfg.gateway.url ++ " username=" ++ cfg.credentials.username ++ "\n" ++
         "提示：确认无误后可删除旧 .auth 文件\n"
       code := 0 }, d)

end InodeVpn.Cli
