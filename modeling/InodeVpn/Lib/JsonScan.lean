import InodeVpn.Lib.Json
import Mathlib.Data.List.Forall2

namespace InodeVpn.Lib.Json

/-- What the next character of a document belongs to. -/
inductive Mode
  | outside
  | inside
  | escape
  /-- in a hexadecimal escape, with so many digits still to come after the next -/
  | unicode (left : Nat)
  | failed
  deriving DecidableEq, Repr

/-- The characters of a document outside its strings. -/
def isOutside (c : Char) : Bool :=
  isBlank c || c.isDigit || c ∈ ['\x7b', '\x7d', '[', ']', ':', ',', '-', '+', '.', 'e', 'E', 't',
    'r', 'u', 'f', 'a', 'l', 's', 'n']

def Mode.next (m : Mode) (c : Char) : Mode :=
  match m with
  | .outside => if c = '"' then .inside else if isOutside c then .outside else .failed
  | .inside =>
    if c = '"' then .outside
    else if c = '\\' then .escape
    else if c.toNat < 32 then .failed
    else .inside
  | .escape =>
    if c = 'u' then .unicode 3 else if (shortEscape c).isSome then .inside else .failed
  | .unicode left =>
    if (hexDigit c).isNone then .failed
    else if left = 0 then .inside
    else .unicode (left - 1)
  | .failed => .failed

def Mode.after (m : Mode) (t : Text) : Mode := t.foldl Mode.next m

/-- A scan of a document: the mode, what it has of the current string, and the bodies of the
strings before it. A colon tells that the last of them is a member name. -/
structure Scan where
  mode : Mode := .outside
  body : Text := []
  found : List Text := []

def Scan.next (x : Scan) (c : Char) : Scan where
  mode := x.mode.next c
  body := if x.mode = .outside ∨ (x.mode = .inside ∧ c = '"') then [] else x.body ++ [c]
  found :=
    if x.mode = .inside ∧ c = '"' then x.found ++ [x.body]
    else if x.mode = .outside ∧ c = ':' then x.found.dropLast
    else x.found

def Scan.after (x : Scan) (t : Text) : Scan := t.foldl Scan.next x

section Steps
variable {c : Char} {t u : Text} {m : Mode} {x : Scan} {found : List Text} {body s : Text}

theorem Mode.after_append : m.after (t ++ u) = (m.after t).after u := List.foldl_append

theorem Scan.after_append : x.after (t ++ u) = (x.after t).after u := List.foldl_append

@[simp] theorem Mode.failed_after : Mode.failed.after t = .failed := by
  induction t with
  | nil => rfl
  | cons c t ih => exact ih

theorem Scan.after_mode : (x.after t).mode = x.mode.after t := by
  induction t generalizing x with
  | nil => rfl
  | cons c t ih => exact ih (x := x.next c)

/-- A character that a test lets through is none that it stops. -/
theorem ne_of_test {test : Char → Bool} {d : Char} (h : test c = true) (hd : test d = false) :
    c ≠ d := by
  rintro rfl
  rw [h] at hd
  cases hd

theorem isOutside_ne_quote (h : isOutside c = true) : c ≠ '"' := ne_of_test h rfl

theorem Mode.next_outside (h : isOutside c = true) : Mode.outside.next c = .outside := by
  simp only [Mode.next, if_neg (isOutside_ne_quote h), if_pos h]

/-- The characters between strings that say nothing of them. -/
def isFiller (c : Char) : Bool := isOutside c && c != ':'

theorem isOutside_of_filler (h : isFiller c = true) : isOutside c = true :=
  (Bool.and_eq_true_iff.mp h).1

/-- Nothing is found between strings. -/
theorem Scan.after_filler (h : t.all isFiller = true) :
    Scan.after ⟨.outside, [], found⟩ t = ⟨.outside, [], found⟩ := by
  induction t with
  | nil => rfl
  | cons c t ih =>
    obtain ⟨hc, ht⟩ := Bool.and_eq_true_iff.mp (List.all_cons ▸ h)
    have hcolon : c ≠ ':' := ne_of_test hc rfl
    have hstep : Scan.next ⟨.outside, [], found⟩ c = ⟨.outside, [], found⟩ := by
      simp [Scan.next, Mode.next_outside (isOutside_of_filler hc), hcolon]
    rw [Scan.after, List.foldl_cons, hstep]
    exact ih ht

theorem isFiller_of_blank (h : isBlank c = true) : isFiller c = true := by
  have hcolon : c ≠ ':' := ne_of_test h rfl
  simp [isFiller, isOutside, h, hcolon]

theorem codeUnit_digits {a b c d : Char} {unit : Nat} (h : codeUnit a b c d = some unit) :
    (∃ n, hexDigit a = some n) ∧ (∃ n, hexDigit b = some n) ∧ (∃ n, hexDigit c = some n) ∧
      ∃ n, hexDigit d = some n := by
  simp only [codeUnit, Option.bind_eq_bind, Option.bind_eq_some_iff] at h
  obtain ⟨na, ha, nb, hb, nc, hc, nd, hd, -⟩ := h
  exact ⟨⟨na, ha⟩, ⟨nb, hb⟩, ⟨nc, hc⟩, ⟨nd, hd⟩⟩

/-- One character inside a string that does not end it. -/
theorem Scan.next_inside {m' : Mode} (hm : m ≠ .outside) (hend : m = .inside → c ≠ '"')
    (hnext : m.next c = m') : Scan.next ⟨m, body, found⟩ c = ⟨m', body ++ [c], found⟩ := by
  have hq : ¬ (m = .inside ∧ c = '"') := fun h => hend h.1 h.2
  simp only [Scan.next, hm, hq, hnext, false_or, false_and, if_false]

theorem Scan.next_slash :
    Scan.next ⟨.inside, body, found⟩ '\\' = ⟨.escape, body ++ ['\\'], found⟩ :=
  Scan.next_inside (by decide) (by decide) (by decide)

theorem Scan.next_u :
    Scan.next ⟨.escape, body, found⟩ 'u' = ⟨.unicode 3, body ++ ['u'], found⟩ :=
  Scan.next_inside (by decide) (by decide) (by decide)

theorem Scan.next_digit {n left : Nat} (h : hexDigit c = some n) :
    Scan.next ⟨.unicode (left + 1), body, found⟩ c = ⟨.unicode left, body ++ [c], found⟩ :=
  Scan.next_inside (by simp) (by simp) (by simp [Mode.next, h])

theorem Scan.next_last {n : Nat} (h : hexDigit c = some n) :
    Scan.next ⟨.unicode 0, body, found⟩ c = ⟨.inside, body ++ [c], found⟩ :=
  Scan.next_inside (by simp) (by simp) (by simp [Mode.next, h])

theorem Scan.after_cons : x.after (c :: t) = (x.next c).after t := rfl

theorem Scan.after_codeUnit {a b c d : Char} {unit : Nat} (h : codeUnit a b c d = some unit) :
    Scan.after ⟨.inside, body, found⟩ ('\\' :: 'u' :: a :: b :: c :: d :: t) =
      Scan.after ⟨.inside, body ++ ['\\', 'u', a, b, c, d], found⟩ t := by
  obtain ⟨⟨_, ha⟩, ⟨_, hb⟩, ⟨_, hc⟩, ⟨_, hd⟩⟩ := codeUnit_digits h
  rw [Scan.after_cons, Scan.next_slash, Scan.after_cons, Scan.next_u, Scan.after_cons,
    Scan.next_digit ha, Scan.after_cons, Scan.next_digit hb, Scan.after_cons, Scan.next_digit hc,
    Scan.after_cons, Scan.next_last hd]
  simp

/-- A string's body is scanned as it stands. -/
theorem Spells.scan (h : Spells body s) (before : Text) :
    Scan.after ⟨.inside, before, found⟩ body = ⟨.inside, before ++ body, found⟩ := by
  induction h generalizing before with
  | nil => simp [Scan.after]
  | @plain c body s hquote hslash hcontrol rest ih =>
    have hnext : Mode.next .inside c = .inside := by
      simp only [Mode.next, if_neg hquote, if_neg hslash, if_neg (Nat.not_lt.mpr hcontrol)]
    rw [Scan.after_cons, Scan.next_inside (by decide) (fun _ => hquote) hnext, ih,
      List.append_assoc, List.singleton_append]
  | @short e c body s he rest ih =>
    have hu : e ≠ 'u' := by
      rintro rfl
      revert he
      simp [shortEscape]
    have hnext : Mode.next .escape e = .inside := by simp [Mode.next, hu, he]
    rw [Scan.after_cons, Scan.next_slash, Scan.after_cons,
      Scan.next_inside (by decide) (by simp) hnext, ih]
    simp
  | @unicode a b c d unit body s hunit hhigh hlow rest ih =>
    rw [Scan.after_codeUnit hunit, ih]
    simp
  | @surrogates a b c d a' b' c' d' high low body s hfirst hhigh hsecond hlow rest ih =>
    rw [Scan.after_codeUnit hfirst, Scan.after_codeUnit hsecond, ih]
    simp

/-- A string adds its body to what was found. -/
theorem Spells.scan_quoted (h : Spells body s) :
    Scan.after ⟨.outside, [], found⟩ (quoted body) = ⟨.outside, [], found ++ [body]⟩ := by
  have hopen : Scan.next ⟨.outside, [], found⟩ '"' = ⟨.inside, [], found⟩ := by
    simp [Scan.next, Mode.next]
  have hclose : Scan.next ⟨.inside, body, found⟩ '"' = ⟨.outside, [], found ++ [body]⟩ := by
    simp [Scan.next, Mode.next]
  rw [quoted, List.cons_append, Scan.after_cons, hopen, Scan.after_append, h.scan,
    List.nil_append, Scan.after_cons, hclose]
  rfl

theorem NumberState.filler_of_next {n n' : NumberState} (h : n.next c = some n') :
    isFiller c = true := by
  have hzero (hc : c = '0') : c.isDigit = true := hc ▸ rfl
  have hc : c.isDigit = true ∨ c ∈ ['-', '+', '.', 'e', 'E'] := by
    cases n <;> simp only [next, first, after] at h <;> grind
  rcases hc with hdigit | hc
  · have hcolon : c ≠ ':' := ne_of_test hdigit rfl
    simp [isFiller, isOutside, hdigit, hcolon]
  · revert hc
    simp only [List.mem_cons, List.not_mem_nil, or_false]
    rintro (rfl | rfl | rfl | rfl | rfl) <;> rfl

theorem Number.filler (n : Number) : n.text.all isFiller = true := by
  have haccepted : ∀ (t : Text) (s s' : NumberState), t.foldlM NumberState.next s = some s' →
      ∀ c ∈ t, isFiller c = true := by
    intro t
    induction t with
    | nil => simp
    | cons d t ih =>
      intro s s' hs c hc
      rw [List.foldlM_cons, Option.bind_eq_bind, Option.bind_eq_some_iff] at hs
      obtain ⟨s₁, hnext, hrest⟩ := hs
      rcases List.mem_cons.mp hc with rfl | hc
      · exact NumberState.filler_of_next hnext
      · exact ih s₁ s' hrest c hc
  have hvalid := n.valid
  rw [NumberState.accepts, Option.any_eq_true_iff_get] at hvalid
  obtain ⟨hsome, -⟩ := hvalid
  exact List.all_eq_true.mpr (haccepted n.text .start _ (Option.some_get hsome).symm)

end Steps

/-- Between strings a text leaves a scan as it is; a string adds its body. What a scan
finds in a text is then fixed by the text alone. -/
def Finds (t : Text) (bodies : List Text) : Prop :=
  ∀ found, Scan.after ⟨.outside, [], found⟩ t = ⟨.outside, [], found ++ bodies⟩

section Finding
variable {t u : Text} {bodies more : List Text}

theorem finds_filler (h : t.all isFiller = true) : Finds t [] := by
  intro found
  rw [Scan.after_filler h, List.append_nil]

theorem finds_blank (h : Blank t) : Finds t [] :=
  finds_filler (List.all_eq_true.mpr fun c hc => isFiller_of_blank (h c hc))

theorem Spells.finds {body s : Text} (h : Spells body s) : Finds (quoted body) [body] :=
  fun _ => h.scan_quoted

theorem Finds.append (ht : Finds t bodies) (hu : Finds u more) :
    Finds (t ++ u) (bodies ++ more) := by
  intro found
  rw [Scan.after_append, ht, hu, List.append_assoc]

theorem Finds.cons {c : Char} (hc : isFiller c = true) (ht : Finds t bodies) :
    Finds (c :: t) bodies :=
  (finds_filler (t := [c]) (by simpa using hc)).append ht

theorem Finds.snoc {c : Char} (ht : Finds t bodies) (hc : isFiller c = true) :
    Finds (t ++ [c]) bodies := by
  have hboth := ht.append (finds_filler (t := [c]) (by simpa using hc))
  rwa [List.append_nil] at hboth

/-- A member name is no value. -/
theorem Finds.member {key : Text} (hkey : Finds t [key]) (hu : Finds u bodies) :
    Finds (t ++ ':' :: u) bodies := by
  intro found
  have hcolon : Scan.next ⟨.outside, [], found ++ [key]⟩ ':' = ⟨.outside, [], found⟩ := by
    simp [Scan.next, Mode.next_outside (c := ':') rfl]
  rw [Scan.after_append, hkey, Scan.after_cons, hcolon, hu]

theorem Finds.padded {before after : Text} (hbefore : Blank before) (ht : Finds t bodies)
    (hafter : Blank after) : Finds (before ++ t ++ after) bodies := by
  have hall := ((finds_blank hbefore).append ht).append (finds_blank hafter)
  rwa [List.nil_append, List.append_nil] at hall

end Finding

mutual

/-- A scan finds the strings of every value that a text reads as. -/
theorem Reads.finds {t : Text} {v : Value} (h : Reads t v) :
    ∃ bodies, Finds t bodies ∧ List.Forall₂ Spells bodies v.stringValues := by
  match h with
  | .null => exact ⟨[], finds_filler rfl, .nil⟩
  | .bool b => exact ⟨[], finds_filler (by cases b <;> rfl), .nil⟩
  | .number n => exact ⟨[], finds_filler n.filler, .nil⟩
  | .string hs => exact ⟨_, hs.finds, .cons hs .nil⟩
  | .emptyArray hws =>
    exact ⟨[], ((finds_blank hws).cons rfl).snoc rfl, .nil⟩
  | .array hitems =>
    obtain ⟨bodies, hfinds, hspells⟩ := hitems.finds
    exact ⟨bodies, (hfinds.cons rfl).snoc rfl, hspells⟩
  | .emptyObject hws =>
    exact ⟨[], ((finds_blank hws).cons rfl).snoc rfl, .nil⟩
  | .object hmembers =>
    obtain ⟨bodies, hfinds, hspells⟩ := hmembers.finds
    exact ⟨bodies, (hfinds.cons rfl).snoc rfl, hspells⟩

theorem ReadsItems.finds {t : Text} {items : List Value} (h : ReadsItems t items) :
    ∃ bodies, Finds t bodies ∧ List.Forall₂ Spells bodies (itemStringValues items) := by
  match h with
  | .one hbefore hv hafter =>
    obtain ⟨bodies, hfinds, hspells⟩ := hv.finds
    exact ⟨bodies, hfinds.padded hbefore hafter, by simpa [itemStringValues] using hspells⟩
  | .more hbefore hv hafter hrest =>
    obtain ⟨bodies, hfinds, hspells⟩ := hv.finds
    obtain ⟨bodies', hfinds', hspells'⟩ := hrest.finds
    exact ⟨bodies ++ bodies', (hfinds.padded hbefore hafter).append (hfinds'.cons rfl),
      List.rel_append hspells hspells'⟩

theorem ReadsMembers.finds {t : Text} {members : List (Text × Value)}
    (h : ReadsMembers t members) :
    ∃ bodies, Finds t bodies ∧ List.Forall₂ Spells bodies (memberStringValues members) := by
  match h with
  | .one hbefore hkey hmiddle hbefore' hv hafter =>
    obtain ⟨bodies, hfinds, hspells⟩ := hv.finds
    exact ⟨bodies, (hkey.finds.padded hbefore hmiddle).member (hfinds.padded hbefore' hafter),
      by simpa [memberStringValues] using hspells⟩
  | .more hbefore hkey hmiddle hbefore' hv hafter hrest =>
    obtain ⟨bodies, hfinds, hspells⟩ := hv.finds
    obtain ⟨bodies', hfinds', hspells'⟩ := hrest.finds
    exact ⟨bodies ++ bodies', (hkey.finds.padded hbefore hmiddle).member
      ((hfinds.padded hbefore' hafter).append (hfinds'.cons rfl)),
      List.rel_append hspells hspells'⟩

end

section Decoding
variable {text body s s' : Text} {v w : Value}

/-- A body spells one text only. -/
theorem Spells.unique (h : Spells body s) (h' : Spells body s') : s = s' := by
  have hu : shortEscape 'u' = none := rfl
  induction h generalizing s' with
  | nil => cases h'; rfl
  | plain hquote hslash hcontrol rest ih =>
    cases h' with
    | plain _ _ _ rest' => rw [ih rest']
    | _ => exact absurd rfl hslash
  | short he rest ih =>
    cases h' with
    | plain _ hslash' => exact absurd rfl hslash'
    | short he' rest' =>
      rw [he] at he'
      rw [ih rest', Option.some.inj he']
    | _ => rw [hu] at he; cases he
  | unicode hunit hhigh hlow rest ih =>
    cases h' with
    | plain _ hslash' => exact absurd rfl hslash'
    | short he' => rw [hu] at he'; cases he'
    | unicode hunit' _ _ rest' =>
      rw [hunit] at hunit'
      rw [ih rest', Option.some.inj hunit']
    | surrogates hfirst' hhigh' =>
      rw [hunit] at hfirst'
      rw [Option.some.inj hfirst', hhigh'] at hhigh
      cases hhigh
  | surrogates hfirst hhigh hsecond hlow rest ih =>
    cases h' with
    | plain _ hslash' => exact absurd rfl hslash'
    | short he' => rw [hu] at he'; cases he'
    | unicode hunit' hhigh' =>
      rw [hfirst] at hunit'
      rw [Option.some.inj hunit', hhigh'] at hhigh
      cases hhigh
    | surrogates hfirst' _ hsecond' _ rest' =>
      rw [hfirst] at hfirst'
      rw [hsecond] at hsecond'
      rw [ih rest', Option.some.inj hfirst', Option.some.inj hsecond']

theorem Document.finds (h : Document text v) :
    ∃ bodies, Finds text bodies ∧ List.Forall₂ Spells bodies v.stringValues := by
  obtain ⟨before, t, after, hbefore, hafter, rfl, hreads⟩ := h
  obtain ⟨bodies, hfinds, hspells⟩ := hreads.finds
  exact ⟨bodies, hfinds.padded hbefore hafter, hspells⟩

/-- Decoding a document in different ways gives the same strings. -/
theorem Document.stringValues_unique (h : Document text v) (h' : Document text w) :
    v.stringValues = w.stringValues := by
  obtain ⟨bodies, hfinds, hspells⟩ := h.finds
  obtain ⟨bodies', hfinds', hspells'⟩ := h'.finds
  have hbodies : bodies = bodies' := by
    have hboth := (hfinds []).symm.trans (hfinds' [])
    simpa using hboth
  subst hbodies
  have hunique : Relator.RightUnique Spells := fun _ _ _ => Spells.unique
  exact List.right_unique_forall₂' hunique hspells hspells'

/-- A document is never out of step with its strings. -/
theorem Document.mode (h : Document text v) : Mode.outside.after text = .outside := by
  obtain ⟨bodies, hfinds, -⟩ := h.finds
  have hmode := congrArg Scan.mode (hfinds [])
  rwa [Scan.after_mode] at hmode

theorem document_pretty (depth : Nat) (v : Value) {after : Text} (hafter : Blank after) :
    Document (v.pretty depth ++ after) v :=
  ⟨[], v.pretty depth, after, blank_nil, hafter, by simp, reads_pretty depth v⟩

end Decoding

end InodeVpn.Lib.Json
