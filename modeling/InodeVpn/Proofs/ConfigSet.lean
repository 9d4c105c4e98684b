import InodeVpn.Proofs.SavePrivate

namespace InodeVpn.Proofs.ConfigSet
open Lib InodeVpn.Core InodeVpn.Core.Config SavePrivate

/-- One `config set`, with what its save meets. -/
structure SetOp where
  key : String
  value : String
  outside : SaveOutside := {}

section Operations
variable (toml : Toml) (path : String)

/-- The toml crate reads back what it has written. -/
def RoundTrips : Prop :=
  ∀ cfg text, toml.toStringPretty cfg = .ok text → toml.fromStr text = .ok cfg

def loaded (file : Option File) : Except Error Config := load toml.fromStr (.on path file)

def perform (file : Option File) (op : SetOp) : Option File :=
  (left (set toml op.outside path op.key op.value { file })).file

/-- What is saved with a new value is loaded with it, and a refused value changes nothing. -/
def Faithful (op : SetOp) (file : Option File) : Prop :=
  ∀ cfg, loaded toml path file = .ok cfg →
    (∀ cfg' d, withKeySet op.key op.value cfg = .ok () cfg' →
      cfg'.save toml op.outside path { file } = .ok () d → loaded toml path d.file = .ok cfg') ∧
    ∀ e cfg', withKeySet op.key op.value cfg = .error e cfg' → cfg' = cfg

/-- The gateway's address becomes a blank text. -/
def Blanks (op : SetOp) : Prop := op.key = "gateway.url" ∧ trim op.value = ""

/-- The command gets to its end. -/
def Completes (op : SetOp) (file : Option File) : Prop :=
  ∃ d, set toml op.outside path op.key op.value { file } = .ok () d

end Operations

/-- A value that is accepted changes the address under its key only, and one that is refused
changes nothing. -/
theorem withKeySet_ends (key value : String) (cfg : Config) :
    Ends (fun _ cfg' => (key = "gateway.url" → cfg'.gateway.url = value) ∧
        (key ≠ "gateway.url" → cfg'.gateway.url = cfg.gateway.url))
      (fun cfg' => cfg' = cfg) (withKeySet key value cfg) := by
  unfold withKeySet
  split
  case h_1 => exact ⟨fun _ => rfl, fun hne => absurd rfl hne⟩
  case h_5 =>
    split
    · exact ⟨fun heq => absurd heq (by decide), fun _ => rfl⟩
    · cases parseU64 value with
      | none => rfl
      | some secs => exact ⟨fun heq => absurd heq (by decide), fun _ => rfl⟩
  case h_6 =>
    split
    · exact ⟨fun heq => absurd heq (by decide), fun _ => rfl⟩
    · exact ⟨fun heq => absurd heq (by decide), fun _ => rfl⟩
    · rfl
  case h_8 => rfl
  all_goals exact ⟨fun heq => absurd heq (by decide), fun _ => rfl⟩

section Files
variable {toml : Toml} {path text : String} {cfg : Config}

theorem readToString_utf8 (text : String) : readToString (utf8 text) = .ok text := by
  have hread : String.fromUTF8? text.toByteArray = some text := dif_pos text.isValidUTF8
  rw [readToString, utf8, Array.toArray_toList, hread]

theorem loaded_url {file : Option File} (h : loaded toml path file = .ok cfg) :
    trim cfg.gateway.url ≠ "" :=
  (load_iff.mp h).2.2.2

/-- What a save has left is loaded when the address is not blank. -/
theorem loaded_saved (hparse : toml.fromStr text = .ok cfg) (hurl : trim cfg.gateway.url ≠ "") :
    loaded toml path (some ⟨0o600, utf8 text⟩) = .ok cfg := by
  have hmode : enforceMode (.on path (some ⟨0o600, utf8 text⟩)) = .ok () := by
    simp [enforceMode, ConfigFile.on]
  exact load_iff.mpr ⟨rfl, hmode, ⟨text, readToString_utf8 text, hparse⟩, hurl⟩

/-- A save that succeeds has written the serialized configuration. -/
theorem save_ok {o : SaveOutside} {file : Option File} {d : Disk}
    (h : cfg.save toml o path { file } = .ok () d) :
    ∃ text, toml.toStringPretty cfg = .ok text ∧ d.file = some ⟨0o600, utf8 text⟩ := by
  obtain ⟨text, d', htext, hsave⟩ := ok_of_bind h
  obtain ⟨hser, rfl⟩ := (pass_ends _ _).ok htext
  have hends := savePrivate_ends o path text (d := { file }) rfl
  exact ⟨text, mapError_ok.mp hser, (hends.ok hsave).1.file⟩

end Files

section Faith
variable {toml : Toml} {path : String} {op : SetOp} {file : Option File}

/-- The command gets to its end when the configuration loads, the value is accepted and the
save succeeds. -/
theorem completes_iff : Completes toml path op file ↔ ∃ cfg cfg' d,
    loaded toml path file = .ok cfg ∧ withKeySet op.key op.value cfg = .ok () cfg' ∧
      cfg'.save toml op.outside path { file } = .ok () d := by
  constructor
  · rintro ⟨d, h⟩
    obtain ⟨cfg, d', hpass, hrest⟩ := ok_of_bind (x := pass (loaded toml path file)) h
    obtain ⟨hload, rfl⟩ := (pass_ends _ _).ok hpass
    cases hset : withKeySet op.key op.value cfg with
    | ok _ cfg' =>
      rw [hset] at hrest
      exact ⟨cfg, cfg', d, hload, hset, hrest⟩
    | error e cfg' =>
      rw [hset] at hrest
      cases hrest
  · rintro ⟨cfg, cfg', d, hload, hset, hsave⟩
    have hpass : pass (loaded toml path file) { file } = .ok cfg { file } := by rw [hload]; rfl
    refine ⟨d, (bind_of_ok hpass).trans ?_⟩
    rw [hset]
    exact hsave

theorem faithful_iff (hround : RoundTrips toml) :
    Faithful toml path op file ↔ (Blanks op → ¬Completes toml path op file) := by
  constructor
  · intro hfaithful hblanks hcompletes
    obtain ⟨cfg, cfg', d, hload, hset, hsave⟩ := completes_iff.mp hcompletes
    have hurl := ((withKeySet_ends op.key op.value cfg).ok hset).1 hblanks.1
    apply loaded_url ((hfaithful cfg hload).1 cfg' d hset hsave)
    rw [hurl, hblanks.2]
  · intro hshown cfg hload
    refine ⟨fun cfg' d hset hsave => ?_, fun e cfg' hset => ?_⟩
    · obtain ⟨hurl, hkept⟩ := (withKeySet_ends op.key op.value cfg).ok hset
      obtain ⟨text, htext, hfile⟩ := save_ok hsave
      rw [hfile]
      refine loaded_saved (hround cfg' text htext) fun hblank => ?_
      by_cases hkey : op.key = "gateway.url"
      · rw [hurl hkey] at hblank
        exact hshown ⟨hkey, hblank⟩ (completes_iff.mpr ⟨cfg, cfg', d, hload, hset, hsave⟩)
      · rw [hkept hkey] at hblank
        exact loaded_url hload hblank
    · have hends := withKeySet_ends op.key op.value cfg
      rwa [hset] at hends

variable (toml path) in
/-- The file after some operations, each on what the last has left. -/
def performAll (file : Option File) (ops : List SetOp) : Option File :=
  ops.foldl (perform toml path) file

/-- In a run of operations every one is faithful when none that completes makes the address
blank, and only then. -/
theorem saved_config_loads (hround : RoundTrips toml) (file : Option File) (ops : List SetOp) :
    (∀ before op after, ops = before ++ op :: after →
        Faithful toml path op (performAll toml path file before)) ↔
      ∀ before op after, ops = before ++ op :: after → Blanks op →
        ¬Completes toml path op (performAll toml path file before) := by
  simp only [faithful_iff hround]

end Faith

/-- A configuration with an address. -/
def configWith (url password : String) : Config :=
  { Config.default with gateway := ⟨url, ""⟩, credentials := ⟨"alice", password⟩ }

/-- The text of a configuration that sets nothing under `network` and `service`. -/
def tomlText (cfg : Config) : String :=
  "[gateway]\nurl = \"" ++ cfg.gateway.url ++ "\"\nservercert = \"" ++ cfg.gateway.servercert ++
    "\"\n\n" ++
  "[credentials]\nusername = \"" ++ cfg.credentials.username ++ "\"\npassword = \"" ++
    cfg.credentials.password ++ "\"\n\n" ++
  "[network]\nkeepalive = \"auto\"\npreserve_cidrs = []\ndns = \"server\"\n\n" ++
  "[service]\nautostart = true\nrestart_delay = 10\n"

/-- The toml crate on some configurations and their texts. -/
def tomlOn (known : List (Config × String)) : Toml where
  fromStr text := ((known.find? fun e => e.2 = text).map Prod.fst).elim (.error "unknown") .ok
  toStringPretty cfg := ((known.find? fun e => e.1 = cfg).map Prod.snd).elim (.error "unknown") .ok

theorem tomlOn_roundTrips {known : List (Config × String)}
    (hread : ∀ e ∈ known, (known.find? fun e' => e'.2 = e.2).map Prod.fst = some e.1) :
    RoundTrips (tomlOn known) := by
  intro cfg text h
  unfold tomlOn at h ⊢
  cases hfind : known.find? fun e => e.1 = cfg with
  | none => simp [hfind] at h
  | some e =>
    have hcfg := List.find?_some hfind
    simp only [decide_eq_true_eq] at hcfg
    simp only [hfind, Option.map_some, Option.elim_some, Except.ok.injEq] at h
    simp only [← h, hread e (List.mem_of_find?_eq_some hfind), hcfg, Option.elim_some]

/-- The toml crate on three configurations. -/
def sampleToml : Toml :=
  tomlOn ([("vpn.example.com:2000", "s3cret"), ("vpn.example.com:2000", "hunter2"),
    ("", "s3cret")].map fun (url, password) =>
      (configWith url password, tomlText (configWith url password)))

theorem sampleToml_roundTrips : RoundTrips sampleToml :=
  tomlOn_roundTrips (by decide +kernel)

/-- The file of the first configuration. -/
def sampleFile : File := ⟨0o600, utf8 (tomlText (configWith "vpn.example.com:2000" "s3cret"))⟩

theorem saved_config_loads_sample :
    (∀ before op after, [{ key := "password", value := "hunter2" }] = before ++ op :: after →
        Faithful sampleToml "config.toml" op
          (performAll sampleToml "config.toml" (some sampleFile) before)) ↔
      ∀ before op after, [{ key := "password", value := "hunter2" }] = before ++ op :: after →
        Blanks op → ¬Completes sampleToml "config.toml" op
          (performAll sampleToml "config.toml" (some sampleFile) before) :=
  saved_config_loads sampleToml_roundTrips (some sampleFile) _

/-- With a blank address the command succeeds, and the file cannot be loaded any more. -/
theorem blank_url_locks_out :
    ¬Faithful sampleToml "config.toml" { key := "gateway.url", value := "" } (some sampleFile) := by
  intro hfaithful
  have hload : loaded sampleToml "config.toml" (some sampleFile) =
      .ok (configWith "vpn.example.com:2000" "s3cret") :=
    loaded_saved (sampleToml_roundTrips _ _ (by decide +kernel)) (by decide +kernel)
  refine faithful_iff sampleToml_roundTrips |>.mp hfaithful ⟨rfl, by decide⟩ ?_
  exact completes_iff.mpr ⟨_, _, _, hload, rfl, rfl⟩

end InodeVpn.Proofs.ConfigSet
