import InodeVpn.Lib.JsonScan
import InodeVpn.Lib.Replace

namespace InodeVpn.Lib.Json

/-- A string is written with these characters as they are. -/
def Unescaped (s : Text) : Prop := ∀ c ∈ s, escapeChar c = [c]

instance (s : Text) : Decidable (Unescaped s) :=
  List.decidableBAll (fun c => escapeChar c = [c]) s

/-- `s` occurs inside strings only, and there from a whole character on. -/
def Within (s : Text) (m : Mode) (t : Text) : Prop :=
  ∀ before after, t = before ++ s ++ after → m.after before = .inside

/-- No character is read from inside a string on. -/
def Mode.strays (m : Mode) : Text → Bool
  | [] => true
  | c :: t => m ≠ .inside && (m.next c).strays t

section Characters
variable {c : Char} {p s : Text}

theorem ne_of_unescaped (h : escapeChar c = [c]) : c ≠ '"' ∧ c ≠ '\\' ∧ 32 ≤ c.toNat := by
  refine ⟨?_, ?_, ?_⟩
  · rintro rfl
    revert h
    decide
  · rintro rfl
    revert h
    decide
  · by_contra hlt
    unfold escapeChar at h
    repeat' split at h
    all_goals simp at h
    omega

theorem Mode.next_unescaped (h : escapeChar c = [c]) : Mode.inside.next c = .inside := by
  obtain ⟨hquote, hslash, hcontrol⟩ := ne_of_unescaped h
  simp only [Mode.next, if_neg hquote, if_neg hslash, if_neg (Nat.not_lt.mpr hcontrol)]

theorem strays_control : ∀ n < 32,
    Mode.escape.strays ['u', '0', '0', Nat.digitChar (n / 16), Nat.digitChar (n % 16)] = true ∧
    Mode.escape.after ['u', '0', '0', Nat.digitChar (n / 16), Nat.digitChar (n % 16)] =
      .inside := by
  decide

/-- A character is written as it is, or as a backslash and what belongs to it. -/
theorem escapeChar_cases (c : Char) : escapeChar c = [c] ∨
    ∃ tail, escapeChar c = '\\' :: tail ∧ Mode.escape.strays tail = true ∧
      Mode.escape.after tail = .inside := by
  unfold escapeChar
  split
  · exact Or.inr ⟨['"'], rfl, rfl, rfl⟩
  split
  · exact Or.inr ⟨['\\'], rfl, rfl, rfl⟩
  split
  · exact Or.inr ⟨['b'], rfl, rfl, rfl⟩
  split
  · exact Or.inr ⟨['f'], rfl, rfl, rfl⟩
  split
  · exact Or.inr ⟨['n'], rfl, rfl, rfl⟩
  split
  · exact Or.inr ⟨['r'], rfl, rfl, rfl⟩
  split
  · exact Or.inr ⟨['t'], rfl, rfl, rfl⟩
  split
  · rename_i hn
    exact Or.inr ⟨_, rfl, strays_control _ hn⟩
  · exact Or.inl rfl

theorem Unescaped.not_mem_quote (h : Unescaped s) : '"' ∉ s :=
  fun hmem => (ne_of_unescaped (h _ hmem)).1 rfl

theorem Unescaped.not_mem_slash (h : Unescaped s) : '\\' ∉ s :=
  fun hmem => (ne_of_unescaped (h _ hmem)).2.1 rfl

theorem escape_append (s t : Text) : escape (s ++ t) = escape s ++ escape t :=
  List.flatMap_append

theorem Unescaped.escape_eq (h : Unescaped s) : escape s = s := by
  induction s with
  | nil => rfl
  | cons c s ih =>
    rw [escape, List.flatMap_cons, h c List.mem_cons_self]
    exact congrArg (List.cons c) (ih fun d hd => h d (List.mem_cons_of_mem c hd))

theorem Mode.after_unescaped (h : Unescaped s) : Mode.inside.after s = .inside := by
  induction s with
  | nil => rfl
  | cons c s ih =>
    rw [Mode.after, List.foldl_cons, Mode.next_unescaped (h c List.mem_cons_self)]
    exact ih fun d hd => h d (List.mem_cons_of_mem c hd)

/-- What is found at the start of a written string is at the start of the string. -/
theorem prefix_of_escape {cs rest : Text} (hs : Unescaped s)
    (h : s <+: escape cs ++ '"' :: rest) : s <+: cs := by
  induction cs generalizing s with
  | nil =>
    cases s with
    | nil => exact List.nil_prefix
    | cons c s =>
      have hc := (List.cons_prefix_cons.mp h).1
      exact absurd (hc ▸ List.mem_cons_self) hs.not_mem_quote
  | cons c cs ih =>
    cases s with
    | nil => exact List.nil_prefix
    | cons d s =>
      have hrest : Unescaped s := fun e he => hs e (List.mem_cons_of_mem d he)
      rw [escape, List.flatMap_cons, List.append_assoc] at h
      rcases escapeChar_cases c with hc | ⟨tail, hc, -⟩
      · rw [hc] at h
        obtain ⟨rfl, hprefix⟩ := List.cons_prefix_cons.mp h
        exact List.cons_prefix_cons.mpr ⟨rfl, ih hrest hprefix⟩
      · rw [hc] at h
        have hd := (List.cons_prefix_cons.mp h).1
        exact absurd (hd ▸ List.mem_cons_self) hs.not_mem_slash

end Characters

section Occurrences
variable {c : Char} {m : Mode} {p s t : Text}

theorem within_nil_iff : Within s m [] ↔ (s = [] → m = .inside) := by
  constructor
  · rintro h rfl
    exact h [] [] rfl
  · intro h before after ht
    have hnil := List.append_eq_nil_iff.mp ht.symm
    obtain ⟨hbefore, hs⟩ := List.append_eq_nil_iff.mp hnil.1
    rw [hbefore]
    exact h hs

theorem within_nil (hs : s ≠ []) : Within s m [] :=
  within_nil_iff.mpr fun h => absurd h hs

theorem within_cons :
    Within s m (c :: t) ↔ (s <+: c :: t → m = .inside) ∧ Within s (m.next c) t := by
  constructor
  · intro h
    refine ⟨?_, ?_⟩
    · rintro ⟨after, hafter⟩
      exact h [] after hafter.symm
    · intro before after ht
      exact h (c :: before) after (by rw [ht]; rfl)
  · rintro ⟨hstart, hrest⟩ before after ht
    cases before with
    | nil => exact hstart ⟨after, ht.symm⟩
    | cons d before =>
      obtain ⟨rfl, htail⟩ := List.cons.inj ht
      exact hrest before after htail

instance decidableWithin (s : Text) : (m : Mode) → (t : Text) → Decidable (Within s m t)
  | _, [] => decidable_of_iff _ within_nil_iff.symm
  | m, c :: t =>
    have := decidableWithin s (m.next c) t
    decidable_of_iff _ within_cons.symm

theorem Within.drop (h : Within s m (p ++ t)) : Within s (m.after p) t := by
  intro before after ht
  have hall := h (p ++ before) after (by rw [ht]; simp)
  rwa [Mode.after_append] at hall

theorem Within.unescaped (hp : Unescaped p) (h : Within s .inside t) :
    Within s .inside (p ++ t) := by
  induction p with
  | nil => exact h
  | cons c p ih =>
    refine within_cons.mpr ⟨fun _ => rfl, ?_⟩
    rw [Mode.next_unescaped (hp c List.mem_cons_self)]
    exact ih fun d hd => hp d (List.mem_cons_of_mem c hd)

end Occurrences

/-- From one mode to another a replacement makes `p'` of `p`. -/
def Carries (s r : Text) (m : Mode) (p p' : Text) (m' : Mode) : Prop :=
  ∀ t, Within s m (p ++ t) → replace s r (p ++ t) = p' ++ replace s r t ∧ Within s m' t

section Carrying
variable {c : Char} {m m₁ m₂ : Mode} {p p' q q' s r t : Text}

theorem Carries.append (hp : Carries s r m p p' m₁) (hq : Carries s r m₁ q q' m₂) :
    Carries s r m (p ++ q) (p' ++ q') m₂ := by
  intro t ht
  rw [List.append_assoc] at ht
  obtain ⟨hfirst, ht⟩ := hp (q ++ t) ht
  obtain ⟨hsecond, ht⟩ := hq t ht
  rw [List.append_assoc, hfirst, hsecond, List.append_assoc]
  exact ⟨rfl, ht⟩

theorem carries_nil : Carries s r m [] [] m := fun _ ht => ⟨rfl, ht⟩

theorem carries_stray (hm : m ≠ .inside) : Carries s r m [c] [c] (m.next c) := by
  intro t ht
  obtain ⟨hstart, ht⟩ := within_cons.mp ht
  exact ⟨replace_kept (mt hstart hm), ht⟩

/-- A character that is not in `s` is kept. -/
theorem carries_other (hs : s ≠ []) (hc : c ∉ s) : Carries s r m [c] [c] (m.next c) := by
  intro t ht
  refine ⟨replace_kept ?_, (within_cons.mp ht).2⟩
  intro hprefix
  cases s with
  | nil => exact hs rfl
  | cons d s => exact hc ((List.cons_prefix_cons.mp hprefix).1 ▸ List.mem_cons_self)

theorem carries_strays (h : m.strays p = true) : Carries s r m p p (m.after p) := by
  induction p generalizing m with
  | nil => exact carries_nil
  | cons c p ih =>
    simp only [Mode.strays, Bool.and_eq_true, decide_eq_true_eq] at h
    exact (carries_stray h.1).append (ih h.2)

theorem carries_outside (h : p.all isOutside = true) : Carries s r .outside p p .outside := by
  induction p with
  | nil => exact carries_nil
  | cons c p ih =>
    obtain ⟨hc, hp⟩ := Bool.and_eq_true_iff.mp (List.all_cons ▸ h)
    have hfirst : Carries s r .outside [c] [c] .outside := by
      have hstray := carries_stray (s := s) (r := r) (m := .outside) (c := c) (by decide)
      rwa [Mode.next_outside hc] at hstray
    exact hfirst.append (ih hp)

theorem carries_found (hs : s ≠ []) (hplain : Unescaped s) :
    Carries s r .inside s r .inside := by
  intro t ht
  have hdrop := ht.drop
  rw [Mode.after_unescaped hplain] at hdrop
  exact ⟨replace_found hs, hdrop⟩

/-- A written string becomes the string that the replacement makes of it, written. -/
theorem carries_string (hs : s ≠ []) (hplain : Unescaped s) (hr : Unescaped r) (cs : Text) :
    Carries s r .outside (quoted (escape cs)) (quoted (escape (replace s r cs))) .outside := by
  have hclose : Carries s r .inside ['"'] ['"'] .outside :=
    carries_other hs hplain.not_mem_quote
  have hbody : Carries s r .inside (escape cs ++ ['"']) (escape (replace s r cs) ++ ['"'])
      .outside := by
    induction cs using replace_induction hs with
    | nil => exact hclose
    | found cs ih =>
      rw [replace_found hs, escape_append, escape_append, hplain.escape_eq, hr.escape_eq,
        List.append_assoc, List.append_assoc]
      exact (carries_found hs hplain).append ih
    | kept c cs hkept ih =>
      rw [replace_kept hkept, escape, escape, List.flatMap_cons, List.flatMap_cons,
        List.append_assoc, List.append_assoc]
      rcases escapeChar_cases c with hc | ⟨tail, hc, hstrays, hback⟩
      · intro t ht
        rw [hc] at ht ⊢
        have hnot : ¬ s <+: c :: (escape cs ++ ['"'] ++ t) := by
          intro hprefix
          have hwhole : c :: (escape cs ++ ['"'] ++ t) = escape (c :: cs) ++ '"' :: t := by
            simp [escape, hc]
          exact hkept (prefix_of_escape hplain (hwhole ▸ hprefix))
        have hrest := (within_cons.mp ht).2
        rw [Mode.next_unescaped hc] at hrest
        obtain ⟨hreplace, hwithin⟩ := ih t hrest
        exact ⟨(replace_kept hnot).trans (congrArg (List.cons c) hreplace), hwithin⟩
      · have hslash : Carries s r .inside ['\\'] ['\\'] .escape :=
          carries_other hs hplain.not_mem_slash
        have htail : Carries s r .escape tail tail .inside := hback ▸ carries_strays hstrays
        rw [hc]
        exact (hslash.append htail).append ih
  have hopen : Carries s r .outside ['"'] ['"'] .inside :=
    carries_other hs hplain.not_mem_quote
  exact hopen.append hbody

end Carrying

mutual

/-- Applies a function to every string, member names included. -/
def Value.mapStrings (f : Text → Text) : Value → Value
  | .null => .null
  | .bool b => .bool b
  | .number n => .number n
  | .string s => .string (f s)
  | .array items => .array (mapItems f items)
  | .object members => .object (mapMembers f members)

def mapItems (f : Text → Text) : List Value → List Value
  | [] => []
  | v :: items => v.mapStrings f :: mapItems f items

def mapMembers (f : Text → Text) : List (Text × Value) → List (Text × Value)
  | [] => []
  | (k, v) :: members => (f k, v.mapStrings f) :: mapMembers f members

end

mutual

theorem stringValues_mapStrings (f : Text → Text) (v : Value) :
    (v.mapStrings f).stringValues = v.stringValues.map f := by
  match v with
  | .null | .bool _ | .number _ | .string _ => rfl
  | .array items => exact itemStringValues_mapItems f items
  | .object members => exact memberStringValues_mapMembers f members

theorem itemStringValues_mapItems (f : Text → Text) (items : List Value) :
    itemStringValues (mapItems f items) = (itemStringValues items).map f := by
  match items with
  | [] => rfl
  | v :: items =>
    rw [mapItems, itemStringValues, itemStringValues, List.map_append,
      stringValues_mapStrings f v, itemStringValues_mapItems f items]

theorem memberStringValues_mapMembers (f : Text → Text) (members : List (Text × Value)) :
    memberStringValues (mapMembers f members) = (memberStringValues members).map f := by
  match members with
  | [] => rfl
  | (k, v) :: members =>
    rw [mapMembers, memberStringValues, memberStringValues, List.map_append,
      stringValues_mapStrings f v, memberStringValues_mapMembers f members]

end

section Values
variable {s r : Text}

theorem carries_filler {p : Text} (h : p.all isFiller = true) :
    Carries s r .outside p p .outside := by
  apply carries_outside
  exact List.all_eq_true.mpr fun c hc => isOutside_of_filler (List.all_eq_true.mp h c hc)

theorem carries_newline (depth : Nat) :
    Carries s r .outside (newline depth) (newline depth) .outside := by
  apply carries_filler
  exact List.all_eq_true.mpr fun c hc => isFiller_of_blank (blank_newline depth c hc)

theorem carries_mark (c : Char) (hc : isOutside c = true) :
    Carries s r .outside [c] [c] .outside := by
  apply carries_outside
  rw [List.all_cons, hc, List.all_nil, Bool.and_self]

theorem carries_line (c : Char) (hc : isOutside c = true) (depth : Nat) :
    Carries s r .outside (c :: newline depth) (c :: newline depth) .outside :=
  (carries_mark c hc).append (carries_newline depth)

theorem carries_colon : Carries s r .outside [':', ' '] [':', ' '] .outside :=
  carries_outside rfl

mutual

/-- Replacing in the written value is replacing in its strings. -/
theorem carries_pretty (hs : s ≠ []) (hplain : Unescaped s) (hr : Unescaped r) (depth : Nat)
    (v : Value) : Carries s r .outside (v.pretty depth)
      ((v.mapStrings (replace s r)).pretty depth) .outside := by
  match v with
  | .null => exact carries_outside (p := ['n', 'u', 'l', 'l']) rfl
  | .bool b => exact carries_outside (p := boolText b) (by cases b <;> rfl)
  | .number n => exact carries_filler n.filler
  | .string cs => exact carries_string hs hplain hr cs
  | .array [] => exact carries_outside (p := ['[', ']']) rfl
  | .array (v :: items) =>
    have hfirst := (carries_line '[' rfl (depth + 1)).append
      (carries_pretty hs hplain hr (depth + 1) v)
    have hitems := hfirst.append (carries_items hs hplain hr (depth + 1) items)
    exact (hitems.append (carries_newline depth)).append (carries_mark ']' rfl)
  | .object [] => exact carries_outside (p := ['\x7b', '\x7d']) rfl
  | .object ((k, v) :: members) =>
    have hkey := ((carries_line '\x7b' rfl (depth + 1)).append
      (carries_string hs hplain hr k)).append carries_colon
    have hfirst := hkey.append (carries_pretty hs hplain hr (depth + 1) v)
    have hmembers := hfirst.append (carries_members hs hplain hr (depth + 1) members)
    exact (hmembers.append (carries_newline depth)).append (carries_mark '\x7d' rfl)

theorem carries_items (hs : s ≠ []) (hplain : Unescaped s) (hr : Unescaped r) (depth : Nat)
    (items : List Value) : Carries s r .outside (prettyItems depth items)
      (prettyItems depth (mapItems (replace s r) items)) .outside := by
  match items with
  | [] => exact carries_nil
  | v :: items =>
    have hfirst := (carries_line ',' rfl depth).append
      (carries_pretty hs hplain hr depth v)
    exact hfirst.append (carries_items hs hplain hr depth items)

theorem carries_members (hs : s ≠ []) (hplain : Unescaped s) (hr : Unescaped r) (depth : Nat)
    (members : List (Text × Value)) : Carries s r .outside (prettyMembers depth members)
      (prettyMembers depth (mapMembers (replace s r) members)) .outside := by
  match members with
  | [] => exact carries_nil
  | (k, v) :: members =>
    have hkey := ((carries_line ',' rfl depth).append
      (carries_string hs hplain hr k)).append carries_colon
    have hfirst := hkey.append (carries_pretty hs hplain hr depth v)
    exact hfirst.append (carries_members hs hplain hr depth members)

end

/-- A replacement that meets `s` inside strings only gives the document with `s` replaced in
its strings. -/
theorem replace_pretty (hs : s ≠ []) (hplain : Unescaped s) (hr : Unescaped r) {depth : Nat}
    {v : Value} (h : Within s .outside (v.pretty depth)) :
    replace s r (v.pretty depth) = (v.mapStrings (replace s r)).pretty depth := by
  have hwhole := carries_pretty hs hplain hr depth v []
  rw [List.append_nil, replace_nil, List.append_nil] at hwhole
  exact (hwhole h).1

end Values

section Converse
variable {a : Char} {m : Mode} {r s t : Text}

/-- Where the replacement can only be read inside of strings, what it leaves readable was
readable, with `s` inside of strings only. -/
theorem within_of_replace (hs : s ≠ []) (hplain : Unescaped s) (hr : Unescaped (a :: r))
    (ha : ∀ m, m ≠ Mode.inside → m.next a = .failed)
    (h : m.after (replace s (a :: r) t) ≠ .failed) : Within s m t ∧ m.after t ≠ .failed := by
  induction t using replace_induction hs generalizing m with
  | nil => exact ⟨within_nil hs, h⟩
  | found t ih =>
    rw [replace_found hs, Mode.after_append] at h
    have hm : m = .inside := by
      by_contra hm
      have hfailed : m.after (a :: r) = .failed := by
        rw [Mode.after, List.foldl_cons, ha m hm]
        exact Mode.failed_after
      rw [hfailed] at h
      exact h Mode.failed_after
    subst hm
    rw [Mode.after_unescaped hr] at h
    obtain ⟨hwithin, hok⟩ := ih h
    rw [Mode.after_append, Mode.after_unescaped hplain]
    exact ⟨hwithin.unescaped hplain, hok⟩
  | kept c t hkept ih =>
    rw [replace_kept hkept] at h
    obtain ⟨hwithin, hok⟩ := ih (m := m.next c) h
    exact ⟨within_cons.mpr ⟨fun hprefix => absurd hprefix hkept, hwithin⟩, hok⟩

end Converse

end InodeVpn.Lib.Json
