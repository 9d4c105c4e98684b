import InodeVpn.Core.Config
import InodeVpn.Lib.Fallible
import InodeVpn.Lib.Routes

namespace InodeVpn.Core
open Lib (Table split trim splitOnce lines parseU64)

/-- A regular file: its permission bits and what it holds. -/
structure File where
  mode : Nat
  bytes : List UInt8
  deriving DecidableEq, Repr

/-- The bytes of a text. -/
def utf8 (text : String) : List UInt8 := text.toByteArray.data.toList

/-- `fs::read_to_string` of a file that can be opened. -/
def readToString (bytes : List UInt8) : Except String String :=
  match String.fromUTF8? ⟨bytes.toArray⟩ with
  | some text => .ok text
  | none => .error "stream did not contain valid UTF-8"

/-- What `Config::load` meets at a path with or without a file. -/
def ConfigFile.on (path : String) : Option File → ConfigFile
  | some file => ⟨path, true, .ok file.mode, readToString file.bytes⟩
  | none =>
    ⟨path, false, .error "No such file or directory (os error 2)",
      .error "No such file or directory (os error 2)"⟩

/-- The destination of a save, and what it was before each operation that changed it. -/
structure Disk where
  file : Option File
  past : List (Option File) := []

abbrev Script := EStateM Error Disk

def Disk.change (file : Option File) (d : Disk) : Disk :=
  { file, past := d.past ++ [d.file] }

/-- What the operations of a save answer. An error is missing where one succeeds. -/
structure SaveOutside where
  /-- `path.parent()` -/
  parent : Option String := none
  createDirAll : Option String := none
  create : Option String := none
  /-- the permission bits of a file that is created -/
  createMode : Nat := 0o644
  setPermissions : Option String := none
  /-- how much each `write` takes; what comes after these takes all -/
  writes : List (Except String Nat) := []

/-- The operation fails if there is an error. -/
def attempt (error : Option String) (context : String) : Script Unit :=
  match error with
  | some e => throw (.config (context ++ ": " ++ e))
  | none => pure ()

/-- `fs::File::create`: an existing file keeps its permission bits and loses its contents. -/
def File.create (createMode : Nat) : Option File → File
  | some file => { file with bytes := [] }
  | none => ⟨createMode, []⟩

def File.setPermissions (mode : Nat) (file : File) : File := { file with mode }

def File.append (bytes : List UInt8) (file : File) : File :=
  { file with bytes := file.bytes ++ bytes }

def onFile (f : File → File) : Script Unit := modify fun d => d.change (d.file.map f)

/-- `write_all`. -/
def writeAll (context : String) : List (Except String Nat) → List UInt8 → Script Unit
  | _, [] => pure ()
  | [], rest => onFile (.append rest)
  | .error e :: _, _ => throw (.config (context ++ ": " ++ e))
  | .ok 0 :: _, _ => throw (.config (context ++ ": failed to write whole buffer"))
  | .ok (n + 1) :: answers, rest => do
    onFile (.append (rest.take (n + 1)))
    writeAll context answers (rest.drop (n + 1))

/-- `fs::create_dir_all` of the parent. -/
def createParent (o : SaveOutside) : Script Unit :=
  match o.parent with
  | some parent => attempt o.createDirAll ("failed to create " ++ parent)
  | none => pure ()

namespace Config

/-- `Config::save_private`. -/
def savePrivate (o : SaveOutside) (path contents : String) : Script Unit := do
  createParent o
  attempt o.create ("failed to create " ++ path)
  modify fun d => d.change (some (.create o.createMode d.file))
  attempt o.setPermissions ("failed to chmod 600 " ++ path)
  onFile (.setPermissions 0o600)
  writeAll ("failed to write " ++ path) o.writes (utf8 contents)

end Config

/-- The functions of the toml crate. -/
structure Toml where
  fromStr : String → Except String Config
  toStringPretty : Config → Except String String

def pass {α : Type} (x : Except Error α) : Script α :=
  match x with
  | .ok a => pure a
  | .error e => throw e

theorem pass_ends {α : Type} (x : Except Error α) (d : Disk) :
    Lib.Ends (fun a d' => x = .ok a ∧ d' = d) (fun d' => d' = d) (pass x d) := by
  cases x with
  | ok a => exact ⟨rfl, rfl⟩
  | error e => rfl

namespace Config

def serialize (toml : Toml) (cfg : Config) : Except Error String :=
  (toml.toStringPretty cfg).mapError fun e => .config ("failed to serialize config: " ++ e)

/-- Serialize to `path` with mode 0600. -/
def save (toml : Toml) (o : SaveOutside) (path : String) (cfg : Config) : Script Unit := do
  let text ← pass (cfg.serialize toml)
  savePrivate o path text

/-- Update a whitelisted scalar key. -/
def withKeySet (key value : String) : EStateM Error Config Unit :=
  match key with
  | "gateway.url" => modify fun cfg => { cfg with gateway.url := value }
  | "servercert" => modify fun cfg => { cfg with gateway.servercert := value }
  | "username" => modify fun cfg => { cfg with credentials.username := value }
  | "password" => modify fun cfg => { cfg with credentials.password := value }
  | "keepalive" =>
    if value = "auto" then modify fun cfg => { cfg with network.keepalive := .auto "auto" }
    else
      match parseU64 value with
      | some secs => modify fun cfg => { cfg with network.keepalive := .seconds secs }
      | none => throw (.config ("keepalive must be 'auto' or seconds: " ++ value))
  | "dns" =>
    match value with
    | "server" => modify fun cfg => { cfg with network.dns := .server }
    | "ignore" => modify fun cfg => { cfg with network.dns := .ignore }
    | other => throw (.config ("dns must be server|ignore: " ++ other))
  | "preserve_cidrs" =>
    modify fun cfg => { cfg with
      network.preserveCidrs :=
        ((split (fun c => c == ',' || c == ';') value).map trim).filter (· ≠ "") }
  | other => throw (.config ("unsupported config key: " ++ other))

/-- The command `config set`. -/
def set (toml : Toml) (o : SaveOutside) (path key value : String) : Script Unit := do
  let cfg ← pass (load toml.fromStr (.on path (← get).file))
  match withKeySet key value cfg with
  | .ok _ cfg => cfg.save toml o path
  | .error e _ => throw e

/-- A line of a legacy file that is neither blank nor a comment. -/
def isSetting (line : String) : Bool := line ≠ "" && line.toList.head? ≠ some '#'

/-- One turn of the loop over the lines of a legacy file. -/
def legacyLine (path : String) (values : Table String String) (line : String) :
    Except Error (Table String String) :=
  let line := trim line
  if isSetting line then
    match splitOnce '=' line with
    | some (k, v) => .ok (values.replace (trim k) (trim v))
    | none => .error (.config ("invalid line in " ++ path ++ ": " ++ Lib.debugText line))
  else .ok values

/-- The configuration that the settings of a legacy file make. -/
def ofLegacy (values : Table String String) : Config :=
  { default with
    gateway := ⟨(values "gateway").getD "", (values "servercert").getD ""⟩
    credentials := ⟨(values "username").getD "", (values "password").getD ""⟩ }

/-- Migrate a legacy `.auth` key=value file to the TOML config.

`ping_target` is ignored: liveness no longer uses ping. -/
def migrateLegacyAuth (toml : Toml) (o : SaveOutside) (auth : ConfigFile) (dest : String) :
    Script Config := do
  pass (enforceMode auth)
  let raw ← pass (auth.contents.mapError fun e =>
    .config ("failed to read " ++ auth.path ++ ": " ++ e))
  let values ← pass ((lines raw).foldlM (legacyLine auth.path) fun _ => none)
  let cfg := ofLegacy values
  if cfg.gateway.url = "" ∨ cfg.credentials.username = "" then
    throw (.config (auth.path ++ " is missing gateway/username"))
  let text ← pass (cfg.serialize toml)
  savePrivate o dest text
  return cfg

end Config

end InodeVpn.Core
