import InodeVpn.Cli.ConfigCommands
import InodeVpn.Daemon.EngineRun
import InodeVpn.Proofs.LegacyMigration

namespace InodeVpn.Proofs.ConfigCommands
open Lib InodeVpn.Core InodeVpn.Core.Config Cli SavePrivate ConfigSet LegacyMigration

/-- A command that writes the configuration, with what it meets. -/
inductive Command
  | set (key value : String) (save : SaveOutside)
  | discoverCert (force : Bool) (outside : DiscoverOutside)
  | migrate (auth : ConfigFile) (save : SaveOutside)

namespace Command

def saveOutside : Command → SaveOutside
  | .set _ _ save => save
  | .discoverCert _ o => o.save
  | .migrate _ save => save

/-- The command on the file at `path`. -/
def perform (toml : Toml) (path : String) (file : Option File) : Command → Ended × Disk
  | .set key value save => configSet toml save (.ok path) key value { file }
  | .discoverCert force o => runDiscoverCert toml { o with path := .ok path } force { file }
  | .migrate auth save => configMigrate toml save auth (.ok path) { file }

end Command

/-- What `openconnect` says about the gateway of a configuration. -/
def found (o : DiscoverOutside) (cfg : Config) : Option String :=
  (locateOpenconnect o.binaries).bind fun bin =>
    ((o.output bin ["--protocol", "h3c", "--no-dtls", cfg.gateway.url]).toOption).bind parsePin

/-- A pin may be taken when it is the first, the same, or forced. -/
def Takes (force : Bool) (cfg : Config) (pin : String) : Prop :=
  cfg.gateway.servercert = "" ∨ cfg.gateway.servercert = pin ∨ force = true

instance {force : Bool} {cfg : Config} {pin : String} : Decidable (Takes force cfg pin) :=
  inferInstanceAs (Decidable (_ ∨ _ ∨ _))

theorem not_takes {force : Bool} {cfg : Config} {pin : String} : ¬Takes force cfg pin ↔
    cfg.gateway.servercert ≠ "" ∧ cfg.gateway.servercert ≠ pin ∧ force = false := by
  simp [Takes]

/-- What a legacy file is migrated to. -/
def migrated (auth : ConfigFile) : Option Config := do
  let _ ← (enforceMode auth).toOption
  let text ← auth.contents.toOption
  let _ ← ((lines text).foldlM (legacyLine auth.path) fun _ => none).toOption
  if (legacyConfig text).gateway.url = "" ∨ (legacyConfig text).credentials.username = "" then none
  else some (legacyConfig text)

/-- What a command makes of a configuration; nothing, where it refuses. -/
def Command.means (cfg : Config) : Command → Option Config
  | .set key value _ =>
    match withKeySet key value cfg with
    | .ok _ cfg' => some cfg'
    | .error _ _ => none
  | .discoverCert force o => (found o cfg).bind fun pin =>
    if Takes force cfg pin then some { cfg with gateway.servercert := pin } else none
  | .migrate auth _ => migrated auth

section Commands
variable {toml : Toml} {path : String} {file : Option File} {cfg : Config}

/-- What a command comes to. -/
inductive Outcome (toml : Toml) (path : String) (file : Option File) (cfg : Config) (c : Command) :
    Ended × Disk → Prop
  | refused {ended : Ended} (means : c.means cfg = none) (code : ended.code = 1) :
      Outcome toml path file cfg c (ended, { file })
  | notSaved {ended : Ended} {cfg' : Config} {e : Error} {d : Disk}
      (means : c.means cfg = some cfg')
      (fails : cfg'.save toml c.saveOutside path { file } = .error e d) (code : ended.code = 1) :
      Outcome toml path file cfg c (ended, d)
  | saved {ended : Ended} {cfg' : Config} {d : Disk} (means : c.means cfg = some cfg')
      (succeeds : cfg'.save toml c.saveOutside path { file } = .ok () d) (code : ended.code = 0) :
      Outcome toml path file cfg c (ended, d)

theorem Outcome.set {key value : String} {o : SaveOutside} (h : loaded toml path file = .ok cfg) :
    Outcome toml path file cfg (.set key value o)
      (configSet toml o (.ok path) key value { file }) := by
  have hpass : pass (loaded toml path file) { file } = .ok cfg { file } := by rw [h]; rfl
  have hset : Config.set toml o path key value { file } =
      (match withKeySet key value cfg with
        | .ok _ cfg => cfg.save toml o path
        | .error e _ => throw e) { file } := bind_of_ok hpass
  rw [configSet, show pathOrHere (.ok path) = path from rfl, hset]
  cases hkey : withKeySet key value cfg with
  | error e cfg' => exact .refused (by rw [Command.means, hkey]) rfl
  | ok _ cfg' =>
    have hmeans : (Command.set key value o).means cfg = some cfg' := by rw [Command.means, hkey]
    cases hsave : cfg'.save toml o path { file } with
    | ok _ d => simpa only [hsave] using .saved hmeans hsave rfl
    | error e d => simpa only [hsave] using .notSaved hmeans hsave rfl

theorem found_eq {o : DiscoverOutside} {bin text : String}
    (hbin : locateOpenconnect o.binaries = some bin)
    (htext : o.output bin ["--protocol", "h3c", "--no-dtls", cfg.gateway.url] = .ok text) :
    found o cfg = parsePin text := by
  rw [found, hbin, Option.bind_some, htext]
  rfl

theorem Outcome.discoverCert {force : Bool} {o : DiscoverOutside}
    (h : loaded toml path file = .ok cfg) :
    Outcome toml path file cfg (.discoverCert force o)
      (runDiscoverCert toml { o with path := .ok path } force { file }) := by
  unfold runDiscoverCert
  cases hbin : locateOpenconnect o.binaries with
  | none => exact .refused (by simp [Command.means, found, hbin]) rfl
  | some bin =>
    rw [loaded] at h
    simp only [h]
    cases htext : o.output bin ["--protocol", "h3c", "--no-dtls", cfg.gateway.url] with
    | error why =>
      have hmeans : (Command.discoverCert force o).means cfg = none := by
        rw [Command.means, found, hbin, Option.bind_some, htext]
        rfl
      cases why with
      | notSpawned e => exact .refused hmeans rfl
      | notWaited e => exact .refused hmeans rfl
    | ok text =>
      have hmeans : (Command.discoverCert force o).means cfg = (parsePin text).bind fun pin =>
          if Takes force cfg pin then some { cfg with gateway.servercert := pin } else none := by
        rw [Command.means, found_eq hbin htext]
      simp only
      cases hpin : parsePin text with
      | none =>
        rw [hpin] at hmeans
        exact .refused hmeans rfl
      | some pin =>
        rw [hpin, Option.bind_some] at hmeans
        simp only
        split
        · rename_i hchanged
          exact .refused (hmeans.trans (if_neg (not_takes.mpr hchanged))) rfl
        · rename_i hchanged
          rw [if_pos (not_not.mp (mt not_takes.mp hchanged))] at hmeans
          cases hsave : { cfg with gateway.servercert := pin }.save toml o.save path { file } with
          | ok _ d => exact .saved hmeans hsave rfl
          | error e d => exact .notSaved hmeans hsave rfl

theorem migrated_eq {auth : ConfigFile} {text : String} {values : Table String String}
    (hmode : enforceMode auth = .ok ()) (hcontents : auth.contents = .ok text)
    (hvalues : (lines text).foldlM (legacyLine auth.path) (fun _ => none) = .ok values) :
    migrated auth = if (legacyConfig text).gateway.url = "" ∨
        (legacyConfig text).credentials.username = "" then none else some (legacyConfig text) := by
  simp only [migrated, hmode, hcontents, Except.toOption, Option.bind_eq_bind, Option.bind_some,
    hvalues]

theorem Outcome.migrateRefused {auth : ConfigFile} {o : SaveOutside} {e : Error}
    (hmeans : migrated auth = none)
    (hrun : migrateLegacyAuth toml o auth path { file } = .error e { file }) :
    Outcome toml path file cfg (.migrate auth o)
      (configMigrate toml o auth (.ok path) { file }) := by
  rw [configMigrate, show pathOrHere (.ok path) = path from rfl, hrun]
  exact .refused hmeans rfl

theorem Outcome.migrate {auth : ConfigFile} {o : SaveOutside} :
    Outcome toml path file cfg (.migrate auth o)
      (configMigrate toml o auth (.ok path) { file }) := by
  cases hmode : enforceMode auth with
  | error e =>
    refine .migrateRefused ?_ (bind_of_error (pass_of_error hmode))
    rw [migrated, hmode]
    rfl
  | ok _ =>
    cases hcontents : auth.contents with
    | error why =>
      have hread : (auth.contents.mapError fun e =>
          Error.config ("failed to read " ++ auth.path ++ ": " ++ e)) =
            .error (.config ("failed to read " ++ auth.path ++ ": " ++ why)) := by
        rw [hcontents]
        rfl
      refine .migrateRefused ?_
        ((bind_of_ok (pass_of_ok hmode)).trans (bind_of_error (pass_of_error hread)))
      rw [migrated, hmode, hcontents]
      rfl
    | ok text =>
      have hread := mapError_ok (f := fun e =>
        Error.config ("failed to read " ++ auth.path ++ ": " ++ e)) |>.mpr hcontents
      cases hvalues : (lines text).foldlM (legacyLine auth.path) (fun _ => none) with
      | error e =>
        refine .migrateRefused ?_ ((bind_of_ok (pass_of_ok hmode)).trans
          ((bind_of_ok (pass_of_ok hread)).trans (bind_of_error (pass_of_error hvalues))))
        simp only [migrated, hmode, hcontents, Except.toOption, Option.bind_eq_bind,
          Option.bind_some, hvalues, Option.bind_none]
      | ok values =>
        have hmeans := migrated_eq hmode hcontents hvalues
        have hrun := migrateLegacyAuth_eq toml o path { file } hmode hcontents hvalues
        split at hmeans
        · rename_i hmissing
          rw [if_pos hmissing] at hrun
          exact .migrateRefused hmeans hrun
        · rename_i hgiven
          rw [if_neg hgiven] at hrun
          rw [configMigrate, show pathOrHere (.ok path) = path from rfl, hrun]
          cases hsave : (legacyConfig text).save toml o path { file } with
          | ok _ d =>
            rw [bind_of_ok hsave]
            exact .saved hmeans hsave rfl
          | error e d =>
            rw [bind_of_error hsave]
            exact .notSaved hmeans hsave rfl

/-- What any command comes to, on a file that loads. -/
theorem Outcome.perform (h : loaded toml path file = .ok cfg) (c : Command) :
    Outcome toml path file cfg c (c.perform toml path file) := by
  cases c with
  | set key value save => exact .set h
  | discoverCert force o => exact .discoverCert h
  | migrate auth save => exact .migrate

/-- The command makes the gateway's address a blank text. -/
def Command.Blanks : Command → Prop
  | .set key value _ => key = "gateway.url" ∧ trim value = ""
  | _ => False

/-- A save by the command does not stop in the middle. -/
def Command.Whole (c : Command) : Prop := Succeeds c.saveOutside ∨ ¬Opens c.saveOutside

theorem migrated_url {auth : ConfigFile} (h : migrated auth = some cfg) :
    trim cfg.gateway.url ≠ "" := by
  simp only [migrated, Option.bind_eq_bind, Option.bind_eq_some_iff] at h
  obtain ⟨-, -, text, -, -, -, h⟩ := h
  split at h
  · cases h
  · rename_i hgiven
    cases h
    rw [show (legacyConfig text).gateway.url = legacyValue text "gateway" from rfl,
      trim_legacyValue]
    exact fun hempty => hgiven (Or.inl hempty)

/-- What a command makes of a configuration that can be loaded can be loaded too. -/
theorem means_url {c : Command} {cfg' : Config} (h : c.means cfg = some cfg') (hshown : ¬c.Blanks)
    (hurl : trim cfg.gateway.url ≠ "") : trim cfg'.gateway.url ≠ "" := by
  cases c with
  | set key value o =>
    simp only [Command.means] at h
    split at h
    · rename_i hset
      cases h
      obtain ⟨hnew, hold⟩ := (withKeySet_ends key value cfg).ok hset
      by_cases hkey : key = "gateway.url"
      · rw [hnew hkey]
        exact fun hblank => hshown ⟨hkey, hblank⟩
      · rwa [hold hkey]
    · cases h
  | discoverCert force o =>
    obtain ⟨pin, -, hpin⟩ := Option.bind_eq_some_iff.mp h
    split at hpin
    · cases hpin
      exact hurl
    · cases hpin
  | migrate auth o => exact migrated_url h

theorem save_opens {o : SaveOutside} {d : Disk} (h : cfg.save toml o path { file } = .ok () d) :
    Opens o := by
  obtain ⟨text, d', htext, hsave⟩ := ok_of_bind h
  obtain ⟨-, rfl⟩ := (pass_ends _ _).ok htext
  exact ((savePrivate_ends o path text (d := { file }) rfl).ok hsave).2

/-- A save that fails has nothing to write, or does not go through. -/
theorem save_error {o : SaveOutside} {e : Error} {d : Disk}
    (h : cfg.save toml o path { file } = .error e d) :
    ((∃ why, toml.toStringPretty cfg = .error why) ∧ d.file = file) ∨
      (¬Succeeds o ∧ (¬Opens o → d.file = file)) := by
  cases htext : toml.toStringPretty cfg with
  | error why =>
    have hserialize : cfg.serialize toml =
        .error (.config ("failed to serialize config: " ++ why)) := by
      rw [serialize, htext]
      rfl
    rw [save, bind_of_error (pass_of_error hserialize)] at h
    cases h
    exact Or.inl ⟨⟨why, rfl⟩, rfl⟩
  | ok text =>
    have hserialize : cfg.serialize toml = .ok text := mapError_ok.mpr htext
    rw [save, bind_of_ok (pass_of_ok hserialize)] at h
    have hends := savePrivate_ends o path text (d := { file }) rfl
    rw [h] at hends
    exact Or.inr ⟨hends.2.1, fun hshut => by rw [hends.2.2 hshut]⟩

/-- What a command does to the configuration, by its exit code. -/
inductive Follows (toml : Toml) (cfg : Config) (c : Command) : Int → Config → Prop
  | done {cfg' : Config} {text : String} (means : c.means cfg = some cfg')
      (written : toml.toStringPretty cfg' = .ok text) (opens : Opens c.saveOutside) :
      Follows toml cfg c 0 cfg'
  | refused (means : c.means cfg = none) : Follows toml cfg c 1 cfg
  | unwritten {cfg' : Config} (means : c.means cfg = some cfg')
      (fails : (∃ why, toml.toStringPretty cfg' = .error why) ∨ ¬Opens c.saveOutside) :
      Follows toml cfg c 1 cfg

theorem step_follows (hround : RoundTrips toml) (h : loaded toml path file = .ok cfg) {c : Command}
    (hwhole : c.Whole) (hshown : ¬c.Blanks) :
    ∃ cfg', loaded toml path (c.perform toml path file).2.file = .ok cfg' ∧
      Follows toml cfg c (c.perform toml path file).1.code cfg' := by
  have hout := Outcome.perform h c
  revert hout
  generalize c.perform toml path file = result
  intro hout
  cases hout with
  | refused means code => exact ⟨cfg, h, code ▸ .refused means⟩
  | notSaved means fails code =>
    rcases save_error fails with ⟨hunwritten, hfile⟩ | ⟨hfailed, hfile⟩
    · exact ⟨cfg, hfile ▸ h, code ▸ .unwritten means (Or.inl hunwritten)⟩
    · have hshut := hwhole.resolve_left hfailed
      exact ⟨cfg, hfile hshut ▸ h, code ▸ .unwritten means (Or.inr hshut)⟩
  | @saved ended cfg' d means succeeds code =>
    obtain ⟨text, htext, hfile⟩ := save_ok succeeds
    have hurl := means_url means hshown (loaded_url h)
    refine ⟨cfg', ?_, code ▸ .done means htext (save_opens succeeds)⟩
    rw [hfile]
    exact loaded_saved (hround cfg' text htext) hurl

variable (toml path) in
/-- Some commands one after another, with their exit codes. -/
def performAll : Option File → List Command → List Int × Option File
  | file, [] => ([], file)
  | file, c :: cs =>
    let (ended, d) := c.perform toml path file
    let (codes, file) := performAll d.file cs
    (ended.code :: codes, file)

/-- What some commands do to the configuration, by their exit codes. -/
inductive FollowsAll (toml : Toml) : Config → List Command → List Int → Config → Prop
  | nil {cfg : Config} : FollowsAll toml cfg [] [] cfg
  | cons {cfg cfg' cfg'' : Config} {c : Command} {cs : List Command} {code : Int}
      {codes : List Int} (first : Follows toml cfg c code cfg')
      (rest : FollowsAll toml cfg' cs codes cfg'') :
      FollowsAll toml cfg (c :: cs) (code :: codes) cfg''

theorem performAll_follows (hround : RoundTrips toml) {cs : List Command}
    (hcs : ∀ c ∈ cs, c.Whole ∧ ¬c.Blanks) (h : loaded toml path file = .ok cfg) :
    ∃ cfg', loaded toml path (performAll toml path file cs).2 = .ok cfg' ∧
      FollowsAll toml cfg cs (performAll toml path file cs).1 cfg' := by
  induction cs generalizing file cfg with
  | nil => exact ⟨cfg, h, .nil⟩
  | cons c cs ih =>
    obtain ⟨hwhole, hshown⟩ := hcs c List.mem_cons_self
    obtain ⟨cfg₁, hload, hfirst⟩ := step_follows hround h hwhole hshown
    obtain ⟨cfg₂, hend, hrest⟩ := ih (fun c hc => hcs c (List.mem_cons_of_mem _ hc)) hload
    exact ⟨cfg₂, hend, .cons hfirst hrest⟩

/-- The command leaves a pin that is there. -/
def Command.KeepsPin : Command → Prop
  | .set key _ _ => key ≠ "servercert"
  | .discoverCert force _ => force = false
  | .migrate _ _ => False

theorem withKeySet_servercert (key value : String) (cfg : Config) :
    Ends (fun _ cfg' => (key = "servercert" → cfg'.gateway.servercert = value) ∧
        (key ≠ "servercert" → cfg'.gateway.servercert = cfg.gateway.servercert))
      (fun _ => True) (withKeySet key value cfg) := by
  unfold withKeySet
  split
  case h_2 => exact ⟨fun _ => rfl, fun hne => absurd rfl hne⟩
  case h_5 =>
    split
    · exact ⟨fun heq => absurd heq (by decide), fun _ => rfl⟩
    · cases parseU64 value with
      | none => trivial
      | some secs => exact ⟨fun heq => absurd heq (by decide), fun _ => rfl⟩
  case h_6 =>
    split
    · exact ⟨fun heq => absurd heq (by decide), fun _ => rfl⟩
    · exact ⟨fun heq => absurd heq (by decide), fun _ => rfl⟩
    · trivial
  case h_8 => trivial
  all_goals exact ⟨fun heq => absurd heq (by decide), fun _ => rfl⟩

theorem means_pin {c : Command} {cfg' : Config} (hkeeps : c.KeepsPin)
    (hpin : cfg.gateway.servercert ≠ "") (h : c.means cfg = some cfg') :
    cfg'.gateway.servercert = cfg.gateway.servercert := by
  cases c with
  | set key value o =>
    simp only [Command.means] at h
    split at h
    · rename_i hset
      cases h
      exact ((withKeySet_servercert key value cfg).ok hset).2 hkeeps
    · cases h
  | discoverCert force o =>
    obtain ⟨pin, -, htakes⟩ := Option.bind_eq_some_iff.mp h
    split at htakes
    · rename_i hmay
      cases htakes
      rcases hmay with hfirst | hsame | hforce
      · exact absurd hfirst hpin
      · exact hsame.symm
      · exact absurd hforce (by simp [show force = false from hkeeps])
    · cases htakes
  | migrate auth o => exact hkeeps.elim

theorem FollowsAll.pin {cs : List Command} {codes : List Int} {cfg' : Config}
    (h : FollowsAll toml cfg cs codes cfg') (hpin : cfg.gateway.servercert ≠ "")
    (hkeeps : ∀ r ∈ cs.zip codes, r.2 = 0 → r.1.KeepsPin) :
    cfg'.gateway.servercert = cfg.gateway.servercert := by
  induction h with
  | nil => rfl
  | @cons cfg cfg₁ cfg₂ c cs code codes first rest ih =>
    rw [List.zip_cons_cons] at hkeeps
    have hsame : cfg₁.gateway.servercert = cfg.gateway.servercert := by
      cases first with
      | done means written opens =>
        exact means_pin (hkeeps _ List.mem_cons_self rfl) hpin means
      | refused means => rfl
      | unwritten means fails => rfl
    rw [← hsame] at hpin ⊢
    exact ih hpin fun r hr => hkeeps r (List.mem_cons_of_mem _ hr)

/-- A text that is printed as a pin. -/
def IsPin (pin : String) : Prop :=
  ∃ digits : List Char, pin = pinPrefix ++ String.ofList digits ∧ 20 ≤ digits.length ∧
    ∀ c ∈ digits, isPinChar c = true

/-- What is found in an output is a pin that stands there. -/
theorem parsePin_stands {text pin : String} (h : parsePin text = some pin) :
    IsPin pin ∧ pin.toList <:+: text.toList := by
  obtain ⟨rest, hrest, hpin⟩ := Option.bind_eq_some_iff.mp h
  dsimp only at hpin
  split at hpin
  · rename_i hlong
    cases hpin
    refine ⟨⟨_, rfl, hlong, fun c hc => List.mem_takeWhile_imp hc⟩, ?_⟩
    obtain ⟨before, htext⟩ := eq_of_behind hrest
    refine ⟨before, rest.dropWhile isPinChar, ?_⟩
    rw [htext, String.toList_append, String.toList_ofList, List.append_assoc, List.append_assoc,
      List.append_assoc, List.takeWhile_append_dropWhile]
  · cases hpin

/-- Where a pin comes from, after commands with their exit codes. -/
inductive Origin (cfg : Config) (ran : List (Command × Int)) : String → Prop
  | kept : Origin cfg ran cfg.gateway.servercert
  | set {value : String} {o : SaveOutside} (succeeded : (.set "servercert" value o, 0) ∈ ran) :
      Origin cfg ran value
  | discovered {force : Bool} {o : DiscoverOutside} {bin url text pin : String}
      (succeeded : (.discoverCert force o, 0) ∈ ran)
      (located : locateOpenconnect o.binaries = some bin)
      (printed : o.output bin ["--protocol", "h3c", "--no-dtls", url] = .ok text)
      (is_pin : IsPin pin) (stands : pin.toList <:+: text.toList) : Origin cfg ran pin
  | migrated {auth : ConfigFile} {o : SaveOutside} {text : String}
      (succeeded : (.migrate auth o, 0) ∈ ran) (contents : auth.contents = .ok text) :
      Origin cfg ran (legacyValue text "servercert")

theorem Origin.mono {ran ran' : List (Command × Int)} {pin : String} (h : Origin cfg ran pin)
    (hran : ∀ r ∈ ran, r ∈ ran') : Origin cfg ran' pin := by
  cases h with
  | kept => exact .kept
  | set succeeded => exact .set (hran _ succeeded)
  | discovered succeeded located printed is_pin stands =>
    exact .discovered (hran _ succeeded) located printed is_pin stands
  | migrated succeeded contents => exact .migrated (hran _ succeeded) contents

theorem Origin.trans {cfg₁ : Config} {ran : List (Command × Int)} {pin : String}
    (hfirst : Origin cfg ran cfg₁.gateway.servercert) (h : Origin cfg₁ ran pin) :
    Origin cfg ran pin := by
  cases h with
  | kept => exact hfirst
  | set succeeded => exact .set succeeded
  | discovered succeeded located printed is_pin stands =>
    exact .discovered succeeded located printed is_pin stands
  | migrated succeeded contents => exact .migrated succeeded contents

theorem means_origin {c : Command} {cfg' : Config} {ran : List (Command × Int)}
    (hran : (c, 0) ∈ ran) (h : c.means cfg = some cfg') :
    Origin cfg ran cfg'.gateway.servercert := by
  cases c with
  | set key value o =>
    simp only [Command.means] at h
    split at h
    · rename_i hset
      cases h
      obtain ⟨hnew, hold⟩ := (withKeySet_servercert key value cfg).ok hset
      by_cases hkey : key = "servercert"
      · subst hkey
        rw [hnew rfl]
        exact .set hran
      · rw [hold hkey]
        exact .kept
    · cases h
  | discoverCert force o =>
    obtain ⟨pin, hfound, htakes⟩ := Option.bind_eq_some_iff.mp h
    split at htakes
    · cases htakes
      obtain ⟨bin, hbin, hfound⟩ := Option.bind_eq_some_iff.mp hfound
      obtain ⟨text, htext, hpin⟩ := Option.bind_eq_some_iff.mp hfound
      obtain ⟨his, hstands⟩ := parsePin_stands hpin
      exact .discovered hran hbin (toOption_eq_some.mp htext) his hstands
    · cases htakes
  | migrate auth o =>
    simp only [Command.means, migrated, Option.bind_eq_bind, Option.bind_eq_some_iff] at h
    obtain ⟨-, -, text, htext, -, -, h⟩ := h
    split at h
    · cases h
    · cases h
      exact .migrated hran (toOption_eq_some.mp htext)

theorem FollowsAll.origin {cs : List Command} {codes : List Int} {cfg' : Config}
    (h : FollowsAll toml cfg cs codes cfg') :
    Origin cfg (cs.zip codes) cfg'.gateway.servercert := by
  induction h with
  | nil => exact .kept
  | @cons cfg cfg₁ cfg₂ c cs code codes first rest ih =>
    rw [List.zip_cons_cons]
    cases first with
    | done means written opens =>
      have hlater := ih.mono fun r hr => List.mem_cons_of_mem (c, 0) hr
      exact (means_origin List.mem_cons_self means).trans hlater
    | refused means => exact ih.mono fun r hr => List.mem_cons_of_mem _ hr
    | unwritten means fails => exact ih.mono fun r hr => List.mem_cons_of_mem _ hr

end Commands

/-- The pin of a gateway, and that of another one. -/
def pin : String := "pin-sha256:FGTH9bpdGBhyqG6Yq4VjgzsU1lWBlVTFAdkXrIZkmyw="
def otherPin : String := "pin-sha256:k3Wl2iFjTn7Qe5ZcUuYbJ0hVxS9oGmRdLqA8tNfPzBE="

def pinnedTo (pin password : String) : Config :=
  { configWith "" password with gateway := ⟨"vpn.example.com:2000", pin⟩ }

/-- The toml crate on four configurations. -/
def pinnedToml : Toml :=
  tomlOn ([(pin, "s3cret"), (pin, "hunter2"), (otherPin, "s3cret"), (otherPin, "hunter2")].map
    fun (pin, password) => (pinnedTo pin password, tomlText (pinnedTo pin password)))

theorem pinnedToml_roundTrips : RoundTrips pinnedToml := tomlOn_roundTrips (by decide +kernel)

def pinnedFile : File := ⟨0o600, utf8 (tomlText (pinnedTo pin "s3cret"))⟩

/-- `openconnect` shows this pin. -/
def showing (pin : String) : DiscoverOutside where
  path := .error (.config "HOME is not set")
  output _ _ := .ok ("Certificate from VPN server \"vpn.example.com\" failed verification.\n" ++
    "Reason: signer not found\nTo trust this server in future, perhaps add this to your command " ++
    "line:\n    --servercert " ++ pin ++ "\n")

/-- The gateway comes with another pin, the password is changed, the gateway comes with the same
pin, and a value is refused. -/
def sampleCommands : List Command :=
  [.discoverCert false (showing otherPin), .set "password" "hunter2" {},
    .discoverCert false (showing pin), .set "dns" "off" {}]

theorem pinnedFile_loaded :
    loaded pinnedToml "config.toml" (some pinnedFile) = .ok (pinnedTo pin "s3cret") :=
  loaded_saved (pinnedToml_roundTrips _ _ (by decide +kernel)) (by decide +kernel)

theorem sampleCommands_whole : ∀ c ∈ sampleCommands, c.Whole ∧ ¬c.Blanks := by
  have hplain : Succeeds {} := ⟨rfl, rfl, rfl, fun _ hw => absurd hw List.not_mem_nil⟩
  intro c hc
  simp only [sampleCommands, List.mem_cons, List.not_mem_nil, or_false] at hc
  rcases hc with rfl | rfl | rfl | rfl
  · exact ⟨Or.inl hplain, id⟩
  · exact ⟨Or.inl hplain, fun hblanks => absurd hblanks.1 (by decide)⟩
  · exact ⟨Or.inl hplain, id⟩
  · exact ⟨Or.inl hplain, fun hblanks => absurd hblanks.1 (by decide)⟩

theorem sampleCommands_keep : ∀ c ∈ sampleCommands, c.KeepsPin := by
  intro c hc
  simp only [sampleCommands, List.mem_cons, List.not_mem_nil, or_false] at hc
  rcases hc with rfl | rfl | rfl | rfl
  · rfl
  · exact fun heq => absurd heq (by decide)
  · rfl
  · exact fun heq => absurd heq (by decide)

example : performAll pinnedToml "config.toml" (some pinnedFile) (sampleCommands.take 2) =
    ([1, 0], some ⟨0o600, utf8 (tomlText (pinnedTo pin "hunter2"))⟩) := by
  decide +kernel

section Runs
variable {toml : Toml} {path : String} {file : Option File} {cfg : Config}

/-- In any run of commands, none of which stops in the middle of its save or blanks the address,
the file keeps the configuration that the commands make, each as its exit code says. Its pin was
there, or comes from a command that succeeded; one that is discovered stood in the output. -/
theorem commands_refine (hround : RoundTrips toml) (h : loaded toml path file = .ok cfg)
    (cs : List Command) (hcs : ∀ c ∈ cs, c.Whole ∧ ¬c.Blanks) :
    ∃ cfg', loaded toml path (performAll toml path file cs).2 = .ok cfg' ∧
      FollowsAll toml cfg cs (performAll toml path file cs).1 cfg' ∧
      Origin cfg (cs.zip (performAll toml path file cs).1) cfg'.gateway.servercert := by
  obtain ⟨cfg', hload, hfollows⟩ := performAll_follows hround hcs h
  exact ⟨cfg', hload, hfollows, hfollows.origin⟩

theorem commands_refine_sample :
    ∃ cfg', loaded pinnedToml "config.toml" (performAll pinnedToml "config.toml" (some pinnedFile)
        sampleCommands).2 = .ok cfg' ∧
      FollowsAll pinnedToml (pinnedTo pin "s3cret") sampleCommands
        (performAll pinnedToml "config.toml" (some pinnedFile) sampleCommands).1 cfg' ∧
      Origin (pinnedTo pin "s3cret") (sampleCommands.zip
          (performAll pinnedToml "config.toml" (some pinnedFile) sampleCommands).1)
        cfg'.gateway.servercert :=
  commands_refine pinnedToml_roundTrips pinnedFile_loaded _ sampleCommands_whole

/-- A pin that is there stays until a command that may change it succeeds: the engine goes on
asking for a certificate with this pin, and for no other. -/
theorem pin_kept (hround : RoundTrips toml) (h : loaded toml path file = .ok cfg)
    (hpin : cfg.gateway.servercert ≠ "") (cs : List Command)
    (hcs : ∀ c ∈ cs, c.Whole ∧ ¬c.Blanks)
    (hkeeps : ∀ r ∈ cs.zip (performAll toml path file cs).1, r.2 = 0 → r.1.KeepsPin) :
    ∃ cfg', loaded toml path (performAll toml path file cs).2 = .ok cfg' ∧
      ∀ check, Daemon.validateCb check cfg'.gateway.servercert =
        check cfg.gateway.servercert := by
  obtain ⟨cfg', hload, hfollows⟩ := performAll_follows hround hcs h
  have hsame := hfollows.pin hpin hkeeps
  refine ⟨cfg', hload, fun check => ?_⟩
  rw [hsame, Daemon.validateCb, if_neg hpin]

theorem pin_kept_sample :
    ∃ cfg', loaded pinnedToml "config.toml" (performAll pinnedToml "config.toml" (some pinnedFile)
        sampleCommands).2 = .ok cfg' ∧
      ∀ check, Daemon.validateCb check cfg'.gateway.servercert = check pin :=
  pin_kept pinnedToml_roundTrips pinnedFile_loaded (by decide) _ sampleCommands_whole
    fun r hr _ => sampleCommands_keep r.1 (List.of_mem_zip hr).1

end Runs

end InodeVpn.Proofs.ConfigCommands
