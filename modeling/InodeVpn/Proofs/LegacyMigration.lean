import InodeVpn.Proofs.ConfigSet

namespace InodeVpn.Proofs.LegacyMigration
open Lib InodeVpn.Core InodeVpn.Core.Config SavePrivate ConfigSet

/-- A line that is neither blank nor a comment, split at its first `=`. -/
def setting (line : String) : Option (String × String) :=
  if isSetting (trim line) then splitOnce '=' line else none

/-- What a line says about a name. -/
def saysOf (name line : String) : Option String :=
  (setting line).bind fun kv => if trim kv.1 = name then some (trim kv.2) else none

/-- What the last line with a name says; nothing, if there is none. -/
def legacyValue (text name : String) : String :=
  ((lines text).reverse.findSome? (saysOf name)).getD ""

/-- A setting as it is kept. -/
def entry (line : String) : Option (String × String) :=
  (setting line).map fun kv => (trim kv.1, trim kv.2)

section Lines
variable {path name line : String} {values values' : Table String String} {ls : List String}

/-- A turn of the loop keeps what its line says. -/
theorem legacyLine_ok (h : legacyLine path values line = .ok values') :
    values' = values.installAll (entry line).toList := by
  simp only [legacyLine] at h
  simp only [entry, setting]
  split at h
  · rename_i hsetting
    rw [if_pos hsetting, ← splitOnce_trim (by decide)]
    split at h
    · rename_i k v hsplit
      cases h
      rw [hsplit]
      rfl
    · cases h
  · rename_i hother
    cases h
    rw [if_neg hother]
    rfl

theorem legacyLines_ok (h : ls.foldlM (legacyLine path) values = .ok values') :
    values' = values.installAll (ls.filterMap entry) := by
  induction ls generalizing values with
  | nil =>
    cases h
    rfl
  | cons line ls ih =>
    rw [List.foldlM_cons] at h
    obtain ⟨first, hline, hrest⟩ := bind_ok h
    have hcons : (line :: ls).filterMap entry = (entry line).toList ++ ls.filterMap entry := by
      cases he : entry line <;> simp [he]
    rw [hcons, Table.installAll_append, ← legacyLine_ok hline]
    exact ih hrest

theorem saysOf_eq : saysOf name line = Table.last (entry line).toList name := by
  unfold saysOf entry
  cases setting line with
  | none => rfl
  | some kv => by_cases hname : trim kv.1 = name <;> simp [Table.last, hname]

/-- The last line with a name is the one that counts. -/
theorem last_entry : Table.last (ls.filterMap entry) name = ls.reverse.findSome? (saysOf name) := by
  induction ls using List.reverseRecOn with
  | nil => rfl
  | append_singleton ls line ih =>
    have hline : [line].filterMap entry = (entry line).toList := by
      cases he : entry line <;> simp [he]
    rw [List.filterMap_append, List.reverse_append, List.reverse_singleton, List.singleton_append,
      List.findSome?_cons, Table.last_append, ih, hline, saysOf_eq]
    cases Table.last (entry line).toList name <;> rfl

theorem trim_of_saysOf {v : String} (h : saysOf name line = some v) : trim v = v := by
  obtain ⟨kv, -, hkv⟩ := Option.bind_eq_some_iff.mp h
  split at hkv
  · cases hkv
    exact trim_trim kv.2
  · cases hkv

theorem trim_legacyValue (text name : String) :
    trim (legacyValue text name) = legacyValue text name := by
  unfold legacyValue
  cases hlast : (lines text).reverse.findSome? (saysOf name) with
  | none => rfl
  | some v =>
    obtain ⟨line, -, hline⟩ := List.exists_of_findSome?_eq_some hlast
    exact trim_of_saysOf hline

end Lines

/-- The configuration that a legacy file stands for. -/
def legacyConfig (text : String) : Config :=
  { Config.default with
    gateway := ⟨legacyValue text "gateway", legacyValue text "servercert"⟩
    credentials := ⟨legacyValue text "username", legacyValue text "password"⟩ }

theorem ofLegacy_eq {path text : String} {values : Table String String}
    (h : (lines text).foldlM (legacyLine path) (fun _ => none) = .ok values) :
    ofLegacy values = legacyConfig text := by
  have hvalue (name : String) : (values name).getD "" = legacyValue text name := by
    rw [legacyLines_ok h, Table.installAll_apply, last_entry, legacyValue, Option.or_none]
  simp only [ofLegacy, legacyConfig, hvalue]

theorem pass_of_ok {α : Type} {x : Except Error α} {a : α} {d : Disk} (h : x = .ok a) :
    pass x d = .ok a d := by
  rw [h]
  rfl

theorem pass_of_error {α : Type} {x : Except Error α} {e : Error} {d : Disk} (h : x = .error e) :
    pass x d = .error e d := by
  rw [h]
  rfl

/-- A legacy file that is read is saved as what it stands for, if that is enough. -/
theorem migrateLegacyAuth_eq (toml : Toml) (o : SaveOutside) (dest : String) (d : Disk)
    {auth : ConfigFile} {text : String} {values : Table String String}
    (hmode : enforceMode auth = .ok ()) (hcontents : auth.contents = .ok text)
    (hvalues : (lines text).foldlM (legacyLine auth.path) (fun _ => none) = .ok values) :
    migrateLegacyAuth toml o auth dest d =
      (if (legacyConfig text).gateway.url = "" ∨ (legacyConfig text).credentials.username = "" then
        throw (.config (auth.path ++ " is missing gateway/username"))
      else do
        (legacyConfig text).save toml o dest
        return legacyConfig text : Script Config) d := by
  have hread := mapError_ok (f := fun e =>
    Error.config ("failed to read " ++ auth.path ++ ": " ++ e)) |>.mpr hcontents
  unfold migrateLegacyAuth
  rw [bind_of_ok (pass_of_ok hmode), bind_of_ok (pass_of_ok hread), bind_of_ok (pass_of_ok hvalues)]
  simp only [ofLegacy_eq hvalues]
  split
  · rfl
  · simp only [save, bind_assoc]

/-- A migration succeeds when the legacy file is private and its lines are settings, with a gateway
and a username, and the save gets through. -/
theorem migration_succeeds {toml : Toml} {o : SaveOutside} (hsucceeds : Succeeds o)
    {auth : ConfigFile} {text written : String} {values : Table String String}
    (hmode : enforceMode auth = .ok ()) (hcontents : auth.contents = .ok text)
    (hvalues : (lines text).foldlM (legacyLine auth.path) (fun _ => none) = .ok values)
    (hgateway : legacyValue text "gateway" ≠ "") (husername : legacyValue text "username" ≠ "")
    (hwritten : toml.toStringPretty (legacyConfig text) = .ok written) (dest : String)
    (file : Option File) :
    ∃ d, migrateLegacyAuth toml o auth dest { file } = .ok (legacyConfig text) d := by
  have hgiven : ¬((legacyConfig text).gateway.url = "" ∨
      (legacyConfig text).credentials.username = "") := not_or.mpr ⟨hgateway, husername⟩
  have hserialize : (legacyConfig text).serialize toml = .ok written := mapError_ok.mpr hwritten
  have hsave := savePrivate_ends o dest written (d := { file }) rfl
  rw [migrateLegacyAuth_eq toml o dest { file } hmode hcontents hvalues, if_neg hgiven, save]
  cases hrun : savePrivate o dest written { file } with
  | ok _ d =>
    have hall := (bind_of_ok (f := fun text => savePrivate o dest text)
      (pass_of_ok (d := { file }) hserialize)).trans hrun
    exact ⟨d, bind_of_ok hall⟩
  | error e d =>
    rw [hrun] at hsave
    exact absurd hsucceeds hsave.2.1

/-- A migration that fails leaves the destination alone. One that succeeds returns what the
legacy file says, and the destination is loaded as that. -/
theorem migration_keeps_settings {toml : Toml} (hround : RoundTrips toml) {o : SaveOutside}
    (hsucceeds : Succeeds o) {auth : ConfigFile} {text : String}
    (hcontents : auth.contents = .ok text) (dest : String) (file : Option File) :
    Ends (fun cfg d => cfg = legacyConfig text ∧ loaded toml dest d.file = .ok cfg)
      (fun d => d = { file }) (migrateLegacyAuth toml o auth dest { file }) := by
  unfold migrateLegacyAuth
  refine Ends.bind ((pass_ends _ _).imp (fun _ _ h => h) fun _ h => h) ?_
  rintro _ _ ⟨-, rfl⟩
  refine Ends.bind ((pass_ends _ _).imp (fun _ _ h => h) fun _ h => h) ?_
  rintro raw _ ⟨hraw, rfl⟩
  rw [mapError_ok, hcontents] at hraw
  cases hraw
  refine Ends.bind ((pass_ends _ _).imp (fun _ _ h => h) fun _ h => h) ?_
  rintro values _ ⟨hvalues, rfl⟩
  simp only [ofLegacy_eq hvalues]
  split
  · rfl
  rename_i hgiven
  refine Ends.bind ((pass_ends _ _).imp (fun _ _ h => h) fun _ h => h) ?_
  rintro written _ ⟨hwritten, rfl⟩
  have hsave := savePrivate_ends o dest written (d := { file }) rfl
  refine Ends.bind (hsave.imp (fun _ _ h => h) fun _ h => absurd hsucceeds h.2.1) ?_
  rintro _ d ⟨hwriting, -⟩
  refine ⟨rfl, ?_⟩
  rw [hwriting.file]
  -- what is not empty here is not blank either, which `load` asks for
  refine loaded_saved (hround _ _ (mapError_ok.mp hwritten)) ?_
  rw [show (legacyConfig text).gateway.url = legacyValue text "gateway" from rfl,
    trim_legacyValue]
  exact fun hempty => hgiven (Or.inl hempty)

/-- A legacy file with a comment and a name that is set twice. -/
def legacyFile : ConfigFile where
  path := ".auth"
  present := true
  mode := .ok 0o600
  contents := .ok ("# old\nusername=alice\ngateway=old.example.com\n" ++
    " gateway = vpn.example.com:2000\npassword=s3cret\n")

theorem migration_keeps_settings_sample :
    Ends (fun cfg d => cfg = legacyConfig ("# old\nusername=alice\ngateway=old.example.com\n" ++
          " gateway = vpn.example.com:2000\npassword=s3cret\n") ∧
        loaded sampleToml "config.toml" d.file = .ok cfg)
      (fun d => d = { file := none })
      (migrateLegacyAuth sampleToml {} legacyFile "config.toml" { file := none }) :=
  migration_keeps_settings sampleToml_roundTrips ⟨rfl, rfl, rfl, fun _ hw => absurd hw
    List.not_mem_nil⟩ rfl "config.toml" none

/-- The last line with a name counts. -/
example : legacyConfig ("# old\nusername=alice\ngateway=old.example.com\n" ++
    " gateway = vpn.example.com:2000\npassword=s3cret\n") =
      configWith "vpn.example.com:2000" "s3cret" := by
  decide +kernel

end InodeVpn.Proofs.LegacyMigration
