import InodeVpn.Core.Redact
import InodeVpn.Lib.JsonReplace

namespace InodeVpn.Proofs.Redaction
open InodeVpn.Core Lib Lib.Json

/-- A secret of which no part is in the text that takes its place. -/
structure Maskable (secret : String) : Prop where
  left : '<' ∉ secret.toList
  right : '>' ∉ secret.toList
  word : ¬ secret.toList <:+: "redacted".toList

/-- What redacting a document is for: the secret goes from its strings, where it can be
written as it is. -/
def mask (secret : String) (v : Value) : Value :=
  if Unescaped secret.toList then v.mapStrings (replace secret.toList REDACTED.toList) else v

def masked (secrets : List String) (v : Value) : Value :=
  secrets.foldl (fun v secret => mask secret v) v

/-- Redacting meets a secret inside the strings of a document only. -/
def SparedBy (secret : String) (v : Value) : Prop :=
  if Unescaped secret.toList then Within secret.toList .outside (v.pretty 0)
  else ¬ secret.toList <:+: v.pretty 0

def Spared : List String → Value → Prop
  | [], _ => True
  | secret :: secrets, v => SparedBy secret v ∧ Spared secrets (mask secret v)

instance (secret : String) (v : Value) : Decidable (SparedBy secret v) :=
  inferInstanceAs (Decidable (if Unescaped secret.toList then
    Within secret.toList .outside (v.pretty 0) else ¬ secret.toList <:+: v.pretty 0))

instance decidableSpared : (secrets : List String) → (v : Value) → Decidable (Spared secrets v)
  | [], _ => isTrue trivial
  | secret :: secrets, v =>
    have := decidableSpared secrets (mask secret v)
    inferInstanceAs (Decidable (SparedBy secret v ∧ Spared secrets (mask secret v)))

section Mask
variable {secret other : String} {v : Value} {t : Text} {m : Mode}

theorem REDACTED_toList : REDACTED.toList = '<' :: "redacted".toList ++ ['>'] := by
  decide

theorem unescaped_REDACTED : Unescaped REDACTED.toList := by
  decide

theorem next_bracket (m : Mode) (hm : m ≠ .inside) : m.next '<' = .failed := by
  cases m with
  | inside => exact absurd rfl hm
  | outside | escape => decide
  | unicode left => rfl
  | failed => rfl

theorem Maskable.ne_nil (h : Maskable secret) : secret.toList ≠ [] :=
  fun hnil => h.word (hnil ▸ List.nil_infix)

theorem redactOne_eq (hs : secret.toList ≠ []) :
    redactOne t secret = replace secret.toList REDACTED.toList t := by
  unfold redactOne
  split
  · rfl
  · rename_i habsent
    exact (replace_eq_self hs habsent).symm

/-- A redaction, of whatever secret, brings no other secret about. -/
theorem infix_of_redactOne (hs : secret.toList ≠ []) (hother : Maskable other)
    (h : other.toList <:+: redactOne t secret) : other.toList <:+: t := by
  rw [redactOne_eq hs, REDACTED_toList] at h
  exact infix_of_replace hs hother.left hother.right hother.word h

/-- At its own turn a secret goes. -/
theorem not_infix_redactOne (h : Maskable secret) : ¬ secret.toList <:+: redactOne t secret := by
  rw [redactOne_eq h.ne_nil, REDACTED_toList]
  exact not_infix_replace h.ne_nil h.left h.right h.word

theorem redactOne_absent (h : ¬ secret.toList <:+: t) : redactOne t secret = t :=
  if_neg h

theorem mask_of_escaped (h : ¬ Unescaped secret.toList) : mask secret v = v := if_neg h

theorem mask_of_unescaped (h : Unescaped secret.toList) :
    mask secret v = v.mapStrings (replace secret.toList REDACTED.toList) := if_pos h

/-- One round of the loop does to the document what it is for. -/
theorem redactOne_pretty (hsecret : Maskable secret) (h : SparedBy secret v) :
    redactOne (v.pretty 0) secret = (mask secret v).pretty 0 := by
  unfold SparedBy at h
  split at h
  · rename_i hplain
    rw [redactOne_eq hsecret.ne_nil, mask_of_unescaped hplain]
    exact replace_pretty hsecret.ne_nil hplain unescaped_REDACTED h
  · rename_i hplain
    rw [redactOne_absent h, mask_of_escaped hplain]

end Mask

/-- No string of a document holds the secret. -/
def Clean (secret : String) (v : Value) : Prop := ∀ x ∈ v.stringValues, ¬ secret.toList <:+: x

section Clean
variable {secret other : String} {secrets : List String} {v : Value}

theorem clean_mask (h : Maskable secret) (hplain : Unescaped secret.toList) :
    Clean secret (mask secret v) := by
  intro x hx
  rw [mask_of_unescaped hplain, stringValues_mapStrings] at hx
  obtain ⟨y, -, rfl⟩ := List.mem_map.mp hx
  rw [← redactOne_eq h.ne_nil]
  exact not_infix_redactOne h

theorem Clean.mask (hclean : Clean other v) (hother : Maskable other) (hsecret : Maskable secret) :
    Clean other (mask secret v) := by
  intro x hx hin
  by_cases hplain : Unescaped secret.toList
  · rw [mask_of_unescaped hplain, stringValues_mapStrings] at hx
    obtain ⟨y, hy, rfl⟩ := List.mem_map.mp hx
    rw [← redactOne_eq hsecret.ne_nil] at hin
    exact hclean y hy (infix_of_redactOne hsecret.ne_nil hother hin)
  · rw [mask_of_escaped hplain] at hx
    exact hclean x hx hin

theorem Clean.masked (hclean : Clean other v) (hother : Maskable other)
    (hsecrets : ∀ secret ∈ secrets, Maskable secret) : Clean other (masked secrets v) := by
  induction secrets generalizing v with
  | nil => exact hclean
  | cons secret secrets ih =>
    obtain ⟨hsecret, hrest⟩ := List.forall_mem_cons.mp hsecrets
    exact ih (hclean.mask hother hsecret) hrest

/-- Every secret that is written as it is goes. -/
theorem clean_masked (hsecrets : ∀ secret ∈ secrets, Maskable secret) (hmem : secret ∈ secrets)
    (hplain : Unescaped secret.toList) : Clean secret (masked secrets v) := by
  induction secrets generalizing v with
  | nil => cases hmem
  | cons first secrets ih =>
    obtain ⟨hfirst, hrest⟩ := List.forall_mem_cons.mp hsecrets
    by_cases heq : secret = first
    · subst heq
      exact (clean_mask hfirst hplain).masked hfirst hrest
    · exact ih hrest ((List.mem_cons.mp hmem).resolve_left heq)

end Clean

section Loop
variable {secrets : List String} {v : Value} {t : Text} {m : Mode}

/-- On a spared document the loop does what it is for. -/
theorem redact_pretty (hsecrets : ∀ secret ∈ secrets, Maskable secret) (h : Spared secrets v) :
    Redactor.redact ⟨secrets⟩ (v.pretty 0) = (masked secrets v).pretty 0 := by
  induction secrets generalizing v with
  | nil => rfl
  | cons secret secrets ih =>
    obtain ⟨hsecret, hrest⟩ := List.forall_mem_cons.mp hsecrets
    have hround := redactOne_pretty hsecret h.1
    rw [Redactor.redact, List.foldl_cons, hround]
    exact ih hrest h.2

/-- The secrets that a string cannot hold as they are do not occur. -/
def EscapedAbsent (secrets : List String) (t : Text) : Prop :=
  ∀ secret ∈ secrets, ¬ Unescaped secret.toList → ¬ secret.toList <:+: t

theorem EscapedAbsent.redactOne {secret : String} (h : EscapedAbsent (secret :: secrets) t)
    (hsecrets : ∀ other ∈ secret :: secrets, Maskable other) :
    EscapedAbsent secrets (redactOne t secret) := by
  obtain ⟨hsecret, hrest⟩ := List.forall_mem_cons.mp hsecrets
  intro other hother hescaped hin
  exact h other (List.mem_cons_of_mem secret hother) hescaped
    (infix_of_redactOne hsecret.ne_nil (hrest other hother) hin)

/-- A round that leaves a readable text met its secret in strings only. -/
theorem within_of_redactOne {secret : String} (hsecret : Maskable secret)
    (hplain : Unescaped secret.toList) (h : m.after (redactOne t secret) ≠ .failed) :
    Within secret.toList m t ∧ m.after t ≠ .failed := by
  rw [redactOne_eq hsecret.ne_nil] at h
  exact within_of_replace hsecret.ne_nil hplain unescaped_REDACTED next_bracket h

/-- The loop makes no text readable. -/
theorem mode_of_redact (hsecrets : ∀ secret ∈ secrets, Maskable secret)
    (habsent : EscapedAbsent secrets t)
    (h : m.after (Redactor.redact ⟨secrets⟩ t) ≠ .failed) : m.after t ≠ .failed := by
  induction secrets generalizing t with
  | nil => exact h
  | cons secret secrets ih =>
    obtain ⟨hsecret, hrest⟩ := List.forall_mem_cons.mp hsecrets
    have hround := ih hrest (habsent.redactOne hsecrets) h
    by_cases hplain : Unescaped secret.toList
    · exact (within_of_redactOne hsecret hplain hround).2
    · rwa [redactOne_absent (habsent secret List.mem_cons_self hplain)] at hround

/-- Where the loop leaves a readable text, the document was spared. -/
theorem spared_of_redact (hsecrets : ∀ secret ∈ secrets, Maskable secret)
    (habsent : EscapedAbsent secrets (v.pretty 0))
    (h : Mode.outside.after (Redactor.redact ⟨secrets⟩ (v.pretty 0)) ≠ .failed) :
    Spared secrets v := by
  induction secrets generalizing v with
  | nil => trivial
  | cons secret secrets ih =>
    obtain ⟨hsecret, hrest⟩ := List.forall_mem_cons.mp hsecrets
    have habsent' := habsent.redactOne hsecrets
    have hround := mode_of_redact hrest habsent' h
    have hspared : SparedBy secret v := by
      unfold SparedBy
      split
      · rename_i hplain
        exact (within_of_redactOne hsecret hplain hround).1
      · rename_i hescaped
        exact habsent secret List.mem_cons_self hescaped
    refine ⟨hspared, ih hrest ?_ ?_⟩
    · rwa [← redactOne_pretty hsecret hspared]
    · rwa [← redactOne_pretty hsecret hspared]

end Loop

section Complete
variable {secret : String} {secrets first later : List String} {r : Redactor} {t : List Char}

/-- What is not in a text is not in its redaction either. -/
theorem absent_redact (h : Maskable secret) (hsecrets : ∀ other ∈ secrets, other ≠ "")
    (habsent : ¬ secret.toList <:+: t) : ¬ secret.toList <:+: Redactor.redact ⟨secrets⟩ t := by
  induction secrets generalizing t with
  | nil => exact habsent
  | cons other secrets ih =>
    obtain ⟨hother, hrest⟩ := List.forall_mem_cons.mp hsecrets
    have hs : other.toList ≠ [] := by simpa using hother
    exact ih hrest fun hin => habsent (infix_of_redactOne hs h hin)

/-- The loop comes to each of its secrets once, and what it does before and behind that turn
does not matter. -/
theorem redacted_absent (h : Maskable secret) (hsecrets : ∀ other ∈ secrets, other ≠ "")
    (hmem : secret ∈ secrets) : ¬ secret.toList <:+: Redactor.redact ⟨secrets⟩ t := by
  induction secrets generalizing t with
  | nil => cases hmem
  | cons other secrets ih =>
    have hrest := (List.forall_mem_cons.mp hsecrets).2
    rcases List.mem_cons.mp hmem with rfl | hmem
    · have hturn : ¬ secret.toList <:+: redactOne t secret := not_infix_redactOne h
      exact fun hin => absent_redact h hrest hturn hin
    · exact ih hrest hmem

/-- The secrets of a redactor are those it was given, without the empty one. -/
theorem mem_foldl_add (s : String) : s ∈ (later.foldl Redactor.add r).secrets ↔
    s ∈ r.secrets ∨ (s ∈ later ∧ s ≠ "") := by
  induction later generalizing r with
  | nil => simp
  | cons secret later ih =>
    rw [List.foldl_cons, ih, Redactor.mem_add, List.mem_cons]
    constructor
    · rintro ((hs | ⟨rfl, hne⟩) | ⟨hs, hne⟩)
      · exact Or.inl hs
      · exact Or.inr ⟨Or.inl rfl, hne⟩
      · exact Or.inr ⟨Or.inr hs, hne⟩
    · rintro (hs | ⟨rfl | hs, hne⟩)
      · exact Or.inl (Or.inl hs)
      · exact Or.inl (Or.inr ⟨rfl, hne⟩)
      · exact Or.inr ⟨hs, hne⟩

theorem mem_redactor (s : String) : s ∈ (later.foldl Redactor.add (.new first)).secrets ↔
    s ∈ first ++ later ∧ s ≠ "" := by
  rw [mem_foldl_add, Redactor.mem_new, List.mem_append]
  constructor
  · rintro (⟨hs, hne⟩ | ⟨hs, hne⟩)
    · exact ⟨Or.inl hs, hne⟩
    · exact ⟨Or.inr hs, hne⟩
  · rintro ⟨hs | hs, hne⟩
    · exact Or.inl ⟨hs, hne⟩
    · exact Or.inr ⟨hs, hne⟩

/-- No secret that was ever registered is left in a redacted text, whatever was registered
beside it. -/
theorem redact_complete (hgiven : secret ∈ first ++ later) (h : Maskable secret)
    (input : List Char) :
    ¬ secret.toList <:+: (later.foldl Redactor.add (.new first)).redact input := by
  have hne : secret ≠ "" := fun heq => h.ne_nil (by simp [heq])
  exact redacted_absent h (fun other hother => ((mem_redactor other).mp hother).2)
    ((mem_redactor secret).mpr ⟨hgiven, hne⟩)

/-- A cookie whose tail is the password, beside a secret with a bracket in it. -/
theorem redact_complete_sample :
    ¬ "pw".toList <:+: (["pw", "d>"].foldl Redactor.add (.new ["c=pw"])).redact
      "c=pw pw d>".toList :=
  redact_complete (by simp) ⟨by decide, by decide, by decide⟩ _

end Complete

end InodeVpn.Proofs.Redaction
