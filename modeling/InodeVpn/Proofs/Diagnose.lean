import InodeVpn.Cli.Diagnose
import InodeVpn.Proofs.Redaction

namespace InodeVpn.Proofs.Diagnose
open InodeVpn.Core Lib Lib.Json Cli Redaction

/-- What is printed is a document, and neither credential is in a string value of it. -/
structure LeaksNothing (cfg : Config) (printed : Text) : Prop where
  document : ∃ v, Document printed v
  password : ∀ v, Document printed v → ∀ x ∈ v.stringValues,
    ¬ cfg.credentials.password.toList <:+: x
  username : ∀ v, Document printed v → ∀ x ∈ v.stringValues,
    ¬ cfg.credentials.username.toList <:+: x

/-- The bundle keeps the secrets inside of its strings, and has none of them that a string
cannot hold as it is. -/
structure Harmless (host : Host) : Prop where
  spared : Spared host.redactor.secrets host.bundle
  escaped : ∀ secret ∈ host.redactor.secrets, ¬ Unescaped secret.toList →
    ∀ x ∈ (masked host.redactor.secrets host.bundle).stringValues, ¬ secret.toList <:+: x

instance (host : Host) : Decidable (Harmless host) :=
  decidable_of_iff
    (Spared host.redactor.secrets host.bundle ∧
      ∀ secret ∈ host.redactor.secrets, ¬ Unescaped secret.toList →
        ∀ x ∈ (masked host.redactor.secrets host.bundle).stringValues, ¬ secret.toList <:+: x)
    ⟨fun h => ⟨h.1, h.2⟩, fun h => ⟨h.spared, h.escaped⟩⟩

section Printed
variable {host : Host} {cfg : Config} {secret : String}

theorem blank_end : Blank ['\n'] := by
  intro c hc
  rw [List.mem_singleton.mp hc]
  rfl

theorem Maskable.ne_empty (h : Maskable secret) : secret ≠ "" := by
  rintro rfl
  exact h.ne_nil rfl

/-- The secrets of the redactor are the two credentials. -/
theorem mem_secrets (hload : host.config = .ok cfg) (hpassword : Maskable cfg.credentials.password)
    (husername : Maskable cfg.credentials.username) :
    secret ∈ host.redactor.secrets ↔
      secret = cfg.credentials.password ∨ secret = cfg.credentials.username := by
  simp only [Host.redactor, hload, Redactor.mem_add, List.not_mem_nil, false_or, ne_eq,
    Maskable.ne_empty hpassword, Maskable.ne_empty husername, not_false_eq_true, and_true]

theorem maskable_secrets (hload : host.config = .ok cfg)
    (hpassword : Maskable cfg.credentials.password)
    (husername : Maskable cfg.credentials.username) :
    ∀ secret ∈ host.redactor.secrets, Maskable secret := by
  intro secret hmem
  rcases (mem_secrets hload hpassword husername).mp hmem with rfl | rfl
  · exact hpassword
  · exact husername

/-- Printed is the bundle with its strings masked. -/
theorem printed_document (hsecrets : ∀ secret ∈ host.redactor.secrets, Maskable secret)
    (h : Spared host.redactor.secrets host.bundle) :
    Document (runDiagnose host).1 (masked host.redactor.secrets host.bundle) := by
  have hredact : host.redactor.redact (host.bundle.pretty 0) =
      (masked host.redactor.secrets host.bundle).pretty 0 := redact_pretty hsecrets h
  rw [runDiagnose, hredact]
  exact document_pretty 0 _ blank_end

theorem mode_of_printed {v : Value} (h : Document (runDiagnose host).1 v) :
    Mode.outside.after (host.redactor.redact (host.bundle.pretty 0)) ≠ .failed := by
  intro hfailed
  have hmode := h.mode
  rw [runDiagnose, Mode.after_append, hfailed, Mode.failed_after] at hmode
  cases hmode

theorem leaksNothing_of_harmless (hload : host.config = .ok cfg)
    (hpassword : Maskable cfg.credentials.password)
    (husername : Maskable cfg.credentials.username) (h : Harmless host) :
    LeaksNothing cfg (runDiagnose host).1 := by
  have hsecrets := maskable_secrets hload hpassword husername
  have hprinted := printed_document hsecrets h.spared
  have hclean {secret : String} (hmem : secret ∈ host.redactor.secrets) {v : Value}
      (hv : Document (runDiagnose host).1 v) : ∀ x ∈ v.stringValues, ¬ secret.toList <:+: x := by
    rw [hv.stringValues_unique hprinted]
    by_cases hplain : Unescaped secret.toList
    · exact clean_masked hsecrets hmem hplain
    · exact h.escaped secret hmem hplain
  have hpasswordIn := (mem_secrets hload hpassword husername).mpr (Or.inl rfl)
  have husernameIn := (mem_secrets hload hpassword husername).mpr (Or.inr rfl)
  exact ⟨⟨_, hprinted⟩, fun _ hv => hclean hpasswordIn hv, fun _ hv => hclean husernameIn hv⟩

theorem harmless_of_leaksNothing (hload : host.config = .ok cfg)
    (hpassword : Maskable cfg.credentials.password)
    (husername : Maskable cfg.credentials.username)
    (habsent : EscapedAbsent host.redactor.secrets (host.bundle.pretty 0))
    (h : LeaksNothing cfg (runDiagnose host).1) : Harmless host := by
  have hsecrets := maskable_secrets hload hpassword husername
  obtain ⟨v, hv⟩ := h.document
  have hspared := spared_of_redact hsecrets habsent (mode_of_printed hv)
  have hprinted := printed_document hsecrets hspared
  refine ⟨hspared, fun secret hmem _ => ?_⟩
  rcases (mem_secrets hload hpassword husername).mp hmem with rfl | rfl
  · exact h.password _ hprinted
  · exact h.username _ hprinted

/-- A user name that is still in the masked bundle is printed. -/
theorem username_left (hload : host.config = .ok cfg)
    (hpassword : Maskable cfg.credentials.password)
    (husername : Maskable cfg.credentials.username)
    (hspared : Spared host.redactor.secrets host.bundle)
    (hmem : cfg.credentials.username.toList ∈
      (masked host.redactor.secrets host.bundle).stringValues) :
    ¬ LeaksNothing cfg (runDiagnose host).1 := by
  intro h
  have hsecrets := maskable_secrets hload hpassword husername
  exact h.username _ (printed_document hsecrets hspared) _ hmem List.infix_rfl

end Printed

/-- The bundle leaks nothing where it is harmless; where no secret with characters that
strings escape occurs in its text, it leaks nothing only there. -/
theorem diagnose_leaks_nothing {host : Host} {cfg : Config} (hload : host.config = .ok cfg)
    (hpassword : Maskable cfg.credentials.password)
    (husername : Maskable cfg.credentials.username) :
    (Harmless host → LeaksNothing cfg (runDiagnose host).1) ∧
    (EscapedAbsent host.redactor.secrets (host.bundle.pretty 0) →
      LeaksNothing cfg (runDiagnose host).1 → Harmless host) :=
  ⟨leaksNothing_of_harmless hload hpassword husername,
    harmless_of_leaksNothing hload hpassword husername⟩

section Samples

def configOf (username : String) : Config where
  gateway := ⟨"vpn.example.org:443", ""⟩
  credentials := ⟨username, "hunter2"⟩
  network := ⟨.auto "auto", [], .server⟩
  service := ⟨true, 10⟩

/-- The file that `toml::from_str` reads as this configuration. -/
def tomlOf (username : String) : String :=
  "[gateway]\nurl = \"vpn.example.org:443\"\nservercert = \"\"\n" ++
  "[credentials]\nusername = '" ++ username ++ "'\npassword = \"hunter2\"\n" ++
  "[network]\nkeepalive = \"auto\"\npreserve_cidrs = []\ndns = \"server\"\n" ++
  "[service]\nautostart = true\nrestart_delay = 10\n"

def hostOf (username : String) : Host where
  os := "linux"
  arch := "x86_64"
  parse raw := if raw = tomlOf username then .ok (configOf username) else .error "another file"
  configFile := ⟨"/root/.config/inode-vpn/config.toml", true, .ok 0o600, .ok (tomlOf username)⟩
  daemon := .unreachable
  run _ _ := none

theorem config_hostOf (username : String) :
    (hostOf username).config = .ok (configOf username) := by
  have hparse : (hostOf username).parse (tomlOf username) = .ok (configOf username) := if_pos rfl
  have hurl : trim "vpn.example.org:443" ≠ "" := by decide +kernel
  exact Config.load_iff.mpr ⟨rfl, rfl, ⟨_, rfl, hparse⟩, hurl⟩

theorem secrets_hostOf {username : String} (h : Maskable username) (hne : username ≠ "hunter2")
    (hlength : username.utf8ByteSize ≤ "hunter2".utf8ByteSize) :
    (hostOf username).redactor.secrets = ["hunter2", username] := by
  have hfirst : (({} : Redactor).add "hunter2").secrets = ["hunter2"] := by
    simp [Redactor.add]
  simp only [Host.redactor, config_hostOf, configOf]
  rw [Redactor.add, hfirst, if_pos ⟨Maskable.ne_empty h, by simpa using hne⟩]
  apply List.mergeSort_of_pairwise
  simpa only [List.singleton_append, List.pairwise_pair, decide_eq_true_eq] using hlength

theorem maskable_hunter2 : Maskable "hunter2" := ⟨by decide, by decide, by decide⟩

theorem diagnose_leaks_nothing_sample :
    LeaksNothing (configOf "alice") (runDiagnose (hostOf "alice")).1 := by
  have halice : Maskable "alice" := ⟨by decide, by decide, by decide⟩
  have hsecrets := secrets_hostOf halice (by decide) (by decide)
  have hharmless : Harmless (hostOf "alice") := by
    refine ⟨?_, ?_⟩
    · rw [hsecrets]
      decide +kernel
    · rw [hsecrets]
      decide +kernel
  exact (diagnose_leaks_nothing (config_hostOf "alice") maskable_hunter2 halice).1 hharmless

/-- A user of a domain finds the name in the bundle. -/
theorem domain_username_left : ¬ ∀ (host : Host) (cfg : Config), host.config = .ok cfg →
    Maskable cfg.credentials.password → Maskable cfg.credentials.username →
    LeaksNothing cfg (runDiagnose host).1 := by
  intro h
  have huser : Maskable "HQ\\ann" := ⟨by decide, by decide, by decide⟩
  have hsecrets := secrets_hostOf huser (by decide) (by decide)
  have hload := config_hostOf "HQ\\ann"
  refine username_left hload maskable_hunter2 huser ?_ ?_ (h _ _ hload maskable_hunter2 huser)
  · rw [hsecrets]
    decide +kernel
  · rw [hsecrets]
    decide +kernel

end Samples

end InodeVpn.Proofs.Diagnose
