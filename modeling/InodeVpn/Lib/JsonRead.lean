import InodeVpn.Lib.JsonScan

namespace InodeVpn.Lib.Json

/-- What the beginning of a text says, and the rest of the text. -/
abbrev Reader (α : Type) := Text → Option (α × Text)

def readUnit : Reader Nat
  | a :: b :: c :: d :: t => (codeUnit a b c d).map fun unit => (unit, t)
  | _ => none

/-- The text after a word that it begins with. -/
def behind (word t : Text) : Option Text :=
  if word.isPrefixOf t then some (t.drop word.length) else none

/-- After `\u`. The first half of a surrogate pair needs its second. -/
def readUnicode : Reader Char := fun t => do
  let (high, t) ← readUnit t
  if isHigh high then
    let t ← behind ['\\', 'u'] t
    let (low, t) ← readUnit t
    if isLow low then
      some (Char.ofNat (0x10000 + (high - 0xD800) * 0x400 + (low - 0xDC00)), t)
    else none
  else if isLow high then none
  else some (Char.ofNat high, t)

/-- After a backslash. -/
def readEscape : Reader Char
  | [] => none
  | e :: t => if e = 'u' then readUnicode t else (shortEscape e).map fun c => (c, t)

/-- After the opening quote of a string, which is not longer than the fuel. -/
def readBody : Nat → Reader Text
  | 0, _ => none
  | _ + 1, [] => none
  | fuel + 1, c :: t =>
    if c = '"' then some ([], t)
    else if c = '\\' then do
      let (c, t) ← readEscape t
      let (s, t) ← readBody fuel t
      some (c :: s, t)
    else if c.toNat < 32 then none
    else do
      let (s, t) ← readBody fuel t
      some (c :: s, t)

/-- As much of a number as there is. -/
def numberRun (s : NumberState) : Reader Text
  | [] => if s.final then some ([], []) else none
  | c :: t =>
    match s.next c with
    | some s' => (numberRun s' t).map fun (n, t) => (c :: n, t)
    | none => if s.final then some ([], c :: t) else none

theorem accepts_of_numberRun {s : NumberState} {t n r : Text}
    (h : numberRun s t = some (n, r)) : s.accepts n = true := by
  induction t generalizing s n with
  | nil =>
    simp only [numberRun, Option.ite_none_right_eq_some, Option.some.injEq, Prod.mk.injEq] at h
    obtain ⟨hfinal, rfl, rfl⟩ := h
    exact hfinal
  | cons c t ih =>
    simp only [numberRun] at h
    split at h
    · rename_i s' hnext
      simp only [Option.map_eq_some_iff, Prod.mk.injEq, Prod.exists] at h
      obtain ⟨n', r', hrun, rfl, rfl⟩ := h
      simp only [NumberState.accepts, List.foldlM_cons, hnext, Option.bind_eq_bind,
        Option.bind_some]
      exact ih hrun
    · simp only [Option.ite_none_right_eq_some, Option.some.injEq, Prod.mk.injEq] at h
      obtain ⟨hfinal, rfl, rfl⟩ := h
      exact hfinal

def readNumber : Reader Value := fun t =>
  match h : numberRun .start t with
  | some (n, t) => some (.number ⟨n, accepts_of_numberRun h⟩, t)
  | none => none

def skipBlank (t : Text) : Text := t.dropWhile isBlank

def literal (word : Text) (v : Value) : Reader Value := fun t =>
  (behind word t).map fun t => (v, t)

/-- A value that is neither an array nor an object. -/
def readScalar : Reader Value
  | [] => none
  | c :: t =>
    if c = '"' then (readBody (t.length + 1) t).map fun (s, t) => (.string s, t)
    else if c = 'n' then literal ['u', 'l', 'l'] .null t
    else if c = 't' then literal ['r', 'u', 'e'] (.bool true) t
    else if c = 'f' then literal ['a', 'l', 's', 'e'] (.bool false) t
    else readNumber (c :: t)

/-- The items of an array that has some, and the bracket that ends it. -/
def readItems (read : Reader Value) : Nat → Reader (List Value)
  | 0, _ => none
  | fuel + 1, t => do
    let (v, t) ← read (skipBlank t)
    match skipBlank t with
    | [] => none
    | c :: t =>
      if c = ',' then
        (readItems read fuel t).map fun (items, t) => (v :: items, t)
      else if c = ']' then some ([v], t)
      else none

/-- A member name and the colon. -/
def readKey : Reader Text := fun t =>
  (behind ['"'] (skipBlank t)).bind fun t => do
    let (k, t) ← readBody (t.length + 1) t
    let t ← behind [':'] (skipBlank t)
    some (k, t)

/-- The members of an object that has some, and the brace that ends it. -/
def readMembers (read : Reader Value) : Nat → Reader (List (Text × Value))
  | 0, _ => none
  | fuel + 1, t => do
    let (k, t) ← readKey t
    let (v, t) ← read (skipBlank t)
    match skipBlank t with
    | [] => none
    | c :: t =>
      if c = ',' then
        (readMembers read fuel t).map fun (members, t) => ((k, v) :: members, t)
      else if c = '\x7d' then some ([(k, v)], t)
      else none

/-- A value in which no more than `depth` arrays and objects stand in one another. -/
def readValue : Nat → Reader Value
  | 0, t => readScalar t
  | _ + 1, [] => none
  | depth + 1, c :: t =>
    if c = '[' then
      match behind [']'] (skipBlank t) with
      | some t => some (.array [], t)
      | none =>
        (readItems (readValue depth) (t.length + 1) t).map fun (items, t) => (.array items, t)
    else if c = '\x7b' then
      match behind ['\x7d'] (skipBlank t) with
      | some t => some (.object [], t)
      | none =>
        (readMembers (readValue depth) (t.length + 1) t).map fun (members, t) =>
          (.object members, t)
    else readScalar (c :: t)

/-- How deep serde_json reads. -/
def DEPTH : Nat := 127

/-- `serde_json::from_str` on what serde_json has written. Of other texts, `from_str` also refuses
numbers that no `f64` holds, and takes lone surrogates and deeper nesting in members it skips. -/
def parse (text : Text) : Option Value :=
  match readValue DEPTH (skipBlank text) with
  | some (v, t) => if t.all isBlank then some v else none
  | none => none

section Strings
variable {body s t r : Text} {c : Char}

theorem readUnit_some {unit : Nat} (h : readUnit t = some (unit, r)) :
    ∃ a b c d, t = a :: b :: c :: d :: r ∧ codeUnit a b c d = some unit := by
  unfold readUnit at h
  split at h
  · rename_i a b c d t
    simp only [Option.map_eq_some_iff, Prod.mk.injEq] at h
    obtain ⟨unit', hunit, rfl, rfl⟩ := h
    exact ⟨a, b, c, d, rfl, hunit⟩
  · cases h

theorem readUnit_codeUnit {a b c d : Char} {unit : Nat} (h : codeUnit a b c d = some unit)
    (t : Text) : readUnit (a :: b :: c :: d :: t) = some (unit, t) := by
  simp only [readUnit, h, Option.map_some]

theorem behind_some {word : Text} (h : behind word t = some r) : t = word ++ r := by
  simp only [behind, Option.ite_none_right_eq_some, List.isPrefixOf_iff_prefix,
    Option.some.injEq] at h
  obtain ⟨⟨r', rfl⟩, rfl⟩ := h
  rw [List.drop_left]

@[simp] theorem behind_append (word t : Text) : behind word (word ++ t) = some t := by
  rw [behind, if_pos (List.isPrefixOf_iff_prefix.mpr (List.prefix_append word t)),
    List.drop_left]

/-- What is read after a backslash can be put in front of any body. -/
theorem readUnicode_some (h : readUnicode t = some (c, r)) :
    ∃ e, t = e ++ r ∧
      ∀ {body s : Text}, Spells body s → Spells ('\\' :: 'u' :: e ++ body) (c :: s) := by
  simp only [readUnicode, Option.bind_eq_bind, Option.bind_eq_some_iff, Prod.exists] at h
  obtain ⟨high, t', hfirst, h⟩ := h
  obtain ⟨a, b, x, d, rfl, hunit⟩ := readUnit_some hfirst
  split at h
  · rename_i hhigh
    simp only [Option.bind_eq_some_iff, Prod.exists] at h
    obtain ⟨t'', hbehind, low, u, hsecond, h⟩ := h
    obtain rfl := behind_some hbehind
    obtain ⟨a', b', x', d', rfl, hunit'⟩ := readUnit_some hsecond
    simp only [Option.ite_none_right_eq_some, Option.some.injEq, Prod.mk.injEq] at h
    obtain ⟨hlow, rfl, rfl⟩ := h
    exact ⟨[a, b, x, d, '\\', 'u', a', b', x', d'], rfl,
      fun hspells => .surrogates hunit hhigh hunit' hlow hspells⟩
  · rename_i hhigh
    simp only [Option.ite_none_left_eq_some, Option.some.injEq, Prod.mk.injEq] at h
    obtain ⟨hlow, rfl, rfl⟩ := h
    exact ⟨[a, b, x, d], rfl,
      fun hspells => .unicode hunit (by simpa using hhigh) (by simpa using hlow) hspells⟩

theorem readEscape_some (h : readEscape t = some (c, r)) :
    ∃ e, t = e ++ r ∧ ∀ {body s : Text}, Spells body s → Spells ('\\' :: e ++ body) (c :: s) := by
  cases t with
  | nil => cases h
  | cons e t =>
    simp only [readEscape] at h
    split at h
    · rename_i hu
      subst hu
      obtain ⟨e', rfl, hspells⟩ := readUnicode_some h
      exact ⟨'u' :: e', rfl, hspells⟩
    · simp only [Option.map_eq_some_iff, Prod.mk.injEq] at h
      obtain ⟨c', hc', rfl, rfl⟩ := h
      exact ⟨[e], rfl, fun hspells => .short hc' hspells⟩

theorem readBody_some {fuel : Nat} (h : readBody fuel t = some (s, r)) :
    ∃ body, t = body ++ '"' :: r ∧ Spells body s := by
  induction fuel generalizing t s with
  | zero => cases h
  | succ fuel ih =>
    cases t with
    | nil => cases h
    | cons c t =>
      simp only [readBody] at h
      split at h
      · rename_i hquote
        cases h
        exact ⟨[], by rw [hquote]; rfl, .nil⟩
      · rename_i hquote
        split at h
        · rename_i hslash
          simp only [Option.bind_eq_bind, Option.bind_eq_some_iff, Prod.exists, Option.some.injEq,
            Prod.mk.injEq] at h
          obtain ⟨c', t', hescape, s', r', hrest, rfl, rfl⟩ := h
          obtain ⟨e, rfl, hspells⟩ := readEscape_some hescape
          obtain ⟨body, rfl, hbody⟩ := ih hrest
          exact ⟨'\\' :: e ++ body, by simp [hslash], hspells hbody⟩
        · rename_i hslash
          split at h
          · cases h
          · rename_i hcontrol
            simp only [Option.bind_eq_bind, Option.bind_eq_some_iff, Prod.exists,
              Option.some.injEq, Prod.mk.injEq] at h
            obtain ⟨s', r', hrest, rfl, rfl⟩ := h
            obtain ⟨body, rfl, hbody⟩ := ih hrest
            exact ⟨c :: body, rfl, .plain hquote hslash (Nat.not_lt.mp hcontrol) hbody⟩

/-- A string is read whichever way it is spelt. -/
theorem Spells.readBody (h : Spells body s) {n : Nat} (hfuel : body.length < n) (r : Text) :
    readBody n (body ++ '"' :: r) = some (s, r) := by
  have hslash : ('\\' : Char) ≠ '"' := by decide
  induction h generalizing n with
  | nil =>
    obtain ⟨fuel, rfl⟩ : ∃ fuel, n = fuel + 1 := ⟨n - 1, by omega⟩
    rfl
  | @plain c body s hquote hslash hcontrol rest ih =>
    obtain ⟨fuel, rfl⟩ : ∃ fuel, n = fuel + 1 := ⟨n - 1, by omega⟩
    have hrest := ih (n := fuel) (by simpa using hfuel)
    simp only [List.cons_append, Json.readBody, if_neg hquote, if_neg hslash,
      if_neg (Nat.not_lt.mpr hcontrol), hrest, Option.bind_eq_bind, Option.bind_some]
  | @short e c body s he rest ih =>
    obtain ⟨fuel, rfl⟩ : ∃ fuel, n = fuel + 1 := ⟨n - 1, by omega⟩
    have hrest := ih (n := fuel) (by simp only [List.length_cons] at hfuel; omega)
    have hu : e ≠ 'u' := by
      rintro rfl
      cases he
    simp only [List.cons_append, Json.readBody, if_neg hslash, if_true, readEscape, if_neg hu, he,
      Option.map_some, hrest, Option.bind_eq_bind, Option.bind_some]
  | @unicode a b c d unit body s hunit hhigh hlow rest ih =>
    obtain ⟨fuel, rfl⟩ : ∃ fuel, n = fuel + 1 := ⟨n - 1, by omega⟩
    have hrest := ih (n := fuel) (by simp only [List.length_cons] at hfuel; omega)
    simp only [List.cons_append, Json.readBody, if_neg hslash, if_true, readEscape, readUnicode,
      readUnit_codeUnit hunit, hhigh, hlow, Bool.false_eq_true, if_false, hrest,
      Option.bind_eq_bind, Option.bind_some]
  | @surrogates a b c d a' b' c' d' high low body s hfirst hhigh hsecond hlow rest ih =>
    obtain ⟨fuel, rfl⟩ : ∃ fuel, n = fuel + 1 := ⟨n - 1, by omega⟩
    have hrest := ih (n := fuel) (by simp only [List.length_cons] at hfuel; omega)
    have hbehind : behind ['\\', 'u']
        ('\\' :: 'u' :: a' :: b' :: c' :: d' :: (body ++ '"' :: r)) =
          some (a' :: b' :: c' :: d' :: (body ++ '"' :: r)) :=
      behind_append ['\\', 'u'] _
    simp only [List.cons_append, Json.readBody, if_neg hslash, if_true, readEscape, readUnicode,
      readUnit_codeUnit hfirst, hhigh, hbehind, readUnit_codeUnit hsecond, hlow, hrest,
      Option.bind_eq_bind, Option.bind_some]

end Strings

section Numbers
variable {s : NumberState} {n t r : Text} {c : Char}

/-- No number runs on into the text. -/
def Stops (t : Text) : Prop := ∀ c ∈ t.head?, isBlank c = true ∨ c = ',' ∨ c = ']' ∨ c = '\x7d'

theorem stops_cons (h : c = ',' ∨ c = ']' ∨ c = '\x7d') (t : Text) : Stops (c :: t) := by
  intro d hd
  obtain rfl : c = d := by simpa using hd
  exact Or.inr h

theorem stops_blank {ws : Text} (h : Blank ws) (ht : Stops t) : Stops (ws ++ t) := by
  cases ws with
  | nil => exact ht
  | cons d ws =>
    intro c hc
    obtain rfl : d = c := by simpa using hc
    exact Or.inl (h d (by simp))

/-- The characters of a number. -/
theorem NumberState.char_of_next {s' : NumberState} (h : s.next c = some s') :
    c.isDigit = true ∨ c ∈ ['-', '+', '.', 'e', 'E'] := by
  have hzero (hc : c = '0') : c.isDigit = true := hc ▸ rfl
  cases s <;> simp only [next, first, after] at h <;> grind

theorem next_eq_none (h : isBlank c = true ∨ c = ',' ∨ c = ']' ∨ c = '\x7d') :
    s.next c = none := by
  have hblank (hc : isBlank c = true) : c = ' ' ∨ c = '\n' ∨ c = '\r' ∨ c = '\t' := by
    simpa [isBlank, or_assoc] using hc
  rw [Option.eq_none_iff_forall_ne_some]
  intro s' hnext
  have hchar := NumberState.char_of_next hnext
  clear hnext
  rcases h with h | rfl | rfl | rfl
  · rcases hblank h with rfl | rfl | rfl | rfl <;> revert hchar <;> decide
  all_goals revert hchar; decide

theorem numberRun_some (h : numberRun s t = some (n, r)) : t = n ++ r := by
  induction t generalizing s n with
  | nil =>
    simp only [numberRun, Option.ite_none_right_eq_some, Option.some.injEq, Prod.mk.injEq] at h
    obtain ⟨-, rfl, rfl⟩ := h
    rfl
  | cons c t ih =>
    simp only [numberRun] at h
    split at h
    · simp only [Option.map_eq_some_iff, Prod.mk.injEq, Prod.exists] at h
      obtain ⟨n', r', hrun, rfl, rfl⟩ := h
      rw [ih hrun]
      rfl
    · simp only [Option.ite_none_right_eq_some, Option.some.injEq, Prod.mk.injEq] at h
      obtain ⟨-, rfl, rfl⟩ := h
      rfl

/-- A number is read up to its end. -/
theorem numberRun_append (h : s.accepts n = true) (hr : Stops r) :
    numberRun s (n ++ r) = some (n, r) := by
  induction n generalizing s with
  | nil =>
    have hfinal : s.final = true := by simpa [NumberState.accepts] using h
    cases r with
    | nil => simp only [List.append_nil, numberRun, hfinal, if_true]
    | cons c r =>
      simp only [List.nil_append, numberRun, next_eq_none (hr c rfl), hfinal, if_true]
  | cons c n ih =>
    cases hnext : s.next c with
    | none => simp [NumberState.accepts, hnext] at h
    | some s' =>
      have hrest : s'.accepts n = true := by
        simpa only [NumberState.accepts, List.foldlM_cons, hnext, Option.bind_eq_bind,
          Option.bind_some] using h
      simp only [List.cons_append, numberRun, hnext, ih hrest, Option.map_some]

theorem readNumber_some {v : Value} (h : readNumber t = some (v, r)) :
    ∃ p, t = p ++ r ∧ Reads p v ∧ ∃ n, v = .number n := by
  unfold readNumber at h
  split at h
  · rename_i n t' hrun
    simp only [Option.some.injEq, Prod.mk.injEq] at h
    obtain ⟨rfl, rfl⟩ := h
    exact ⟨n, numberRun_some hrun, .number ⟨n, accepts_of_numberRun hrun⟩, _, rfl⟩
  · cases h

theorem readNumber_append (n : Number) (hr : Stops r) :
    readNumber (n.text ++ r) = some (.number n, r) := by
  have hrun := numberRun_append n.valid hr
  unfold readNumber
  split
  · rename_i n' t' hrun'
    rw [hrun] at hrun'
    cases hrun'
    rfl
  · rename_i hnone
    rw [hrun] at hnone
    cases hnone

/-- A number begins with a digit or a sign. -/
theorem Number.head (n : Number) : ∃ c t, n.text = c :: t ∧ (c.isDigit = true ∨ c = '-') := by
  have hvalid := n.valid
  cases htext : n.text with
  | nil => rw [htext] at hvalid; cases hvalid
  | cons c t =>
    refine ⟨c, t, rfl, ?_⟩
    rw [htext] at hvalid
    by_contra hc
    simp only [not_or, Bool.not_eq_true] at hc
    have hzero : c ≠ '0' := by
      rintro rfl
      exact absurd hc.1 (by decide)
    simp [NumberState.accepts, NumberState.next, NumberState.first, hc.1, hc.2, hzero] at hvalid

end Numbers

mutual

/-- How many arrays and objects stand in one another. -/
def Value.depth : Value → Nat
  | .array items => itemsDepth items + 1
  | .object members => membersDepth members + 1
  | _ => 0

def itemsDepth : List Value → Nat
  | [] => 0
  | v :: items => max v.depth (itemsDepth items)

def membersDepth : List (Text × Value) → Nat
  | [] => 0
  | (_, v) :: members => max v.depth (membersDepth members)

end

section Blanks
variable {t : Text} {c : Char}

theorem skipBlank_append {ws : Text} (h : Blank ws) (t : Text) :
    skipBlank (ws ++ t) = skipBlank t :=
  List.dropWhile_append_of_pos h

theorem skipBlank_cons (h : isBlank c = false) (t : Text) : skipBlank (c :: t) = c :: t := by
  simp [skipBlank, h]

theorem skipBlank_spec (t : Text) : ∃ ws, Blank ws ∧ t = ws ++ skipBlank t := by
  refine ⟨t.takeWhile isBlank, fun c hc => ?_, (List.takeWhile_append_dropWhile).symm⟩
  exact (List.all_eq_true.mp (List.all_takeWhile)) c hc

/-- What a value begins with. -/
theorem Reads.head {v : Value} (h : Reads t v) :
    ∃ c t', t = c :: t' ∧ isBlank c = false ∧ c ≠ ']' := by
  have hdigit (c : Char) (hc : c.isDigit = true ∨ c = '-') : isBlank c = false ∧ c ≠ ']' := by
    refine ⟨?_, by rintro rfl; revert hc; decide⟩
    rw [Bool.eq_false_iff]
    intro hb
    simp only [isBlank, Bool.or_eq_true, beq_iff_eq] at hb
    rcases hb with ((rfl | rfl) | rfl) | rfl <;> revert hc <;> decide
  cases h with
  | null => exact ⟨'n', _, rfl, by decide⟩
  | bool b => cases b <;> exact ⟨_, _, rfl, by decide⟩
  | number n =>
    obtain ⟨c, t, ht, hc⟩ := n.head
    exact ⟨c, t, ht, hdigit c hc⟩
  | string h => exact ⟨'"', _, rfl, by decide⟩
  | emptyArray h => exact ⟨'[', _, rfl, by decide⟩
  | array h => exact ⟨'[', _, rfl, by decide⟩
  | emptyObject h => exact ⟨'\x7b', _, rfl, by decide⟩
  | object h => exact ⟨'\x7b', _, rfl, by decide⟩

/-- The blanks in front of a value are skipped, and no more. -/
theorem Reads.skipBlank {v : Value} (h : Reads t v) {ws : Text} (hws : Blank ws) (r : Text) :
    skipBlank (ws ++ t ++ r) = t ++ r := by
  obtain ⟨c, t', rfl, hc, -⟩ := h.head
  rw [List.append_assoc, skipBlank_append hws, List.cons_append, skipBlank_cons hc]

end Blanks

/-- A reader makes of the beginning of a text what a relation says of it, unless a number in it
runs on. -/
structure Exact {α : Type} (read : Reader α) (R : Text → α → Prop) : Prop where
  sound : ∀ {t r a}, read t = some (a, r) → ∃ p, t = p ++ r ∧ R p a
  complete : ∀ {p r a}, R p a → Stops r → read (p ++ r) = some (a, r)

section Scalars
variable {t r : Text} {v : Value}

theorem literal_some {word : Text} {w : Value} (h : literal word w t = some (v, r)) :
    t = word ++ r ∧ w = v := by
  simp only [literal, Option.map_eq_some_iff, Prod.mk.injEq] at h
  obtain ⟨r', hbehind, rfl, rfl⟩ := h
  exact ⟨behind_some hbehind, rfl⟩

theorem literal_append (word : Text) (w : Value) (r : Text) :
    literal word w (word ++ r) = some (w, r) := by
  rw [literal, behind_append, Option.map_some]

theorem readScalar_some (h : readScalar t = some (v, r)) :
    ∃ p, t = p ++ r ∧ Reads p v ∧ v.depth = 0 := by
  cases t with
  | nil => cases h
  | cons c t =>
    simp only [readScalar] at h
    split at h
    · rename_i hc
      simp only [Option.map_eq_some_iff, Prod.mk.injEq, Prod.exists] at h
      obtain ⟨s, r', hbody, rfl, rfl⟩ := h
      obtain ⟨body, rfl, hspells⟩ := readBody_some hbody
      exact ⟨quoted body, by simp [quoted, hc], .string hspells, rfl⟩
    split at h
    · rename_i hc
      obtain ⟨rfl, rfl⟩ := literal_some h
      exact ⟨['n', 'u', 'l', 'l'], by rw [hc]; rfl, .null, rfl⟩
    split at h
    · rename_i hc
      obtain ⟨rfl, rfl⟩ := literal_some h
      exact ⟨boolText true, by rw [hc]; rfl, .bool true, rfl⟩
    split at h
    · rename_i hc
      obtain ⟨rfl, rfl⟩ := literal_some h
      exact ⟨boolText false, by rw [hc]; rfl, .bool false, rfl⟩
    · obtain ⟨p, hp, hreads, n, rfl⟩ := readNumber_some h
      exact ⟨p, hp, hreads, rfl⟩

/-- What a value that is no array and no object is read as. -/
theorem readScalar_append {p : Text} (h : Reads p v) (hdepth : v.depth = 0) (hr : Stops r) :
    readScalar (p ++ r) = some (v, r) := by
  cases h with
  | null => exact literal_append ['u', 'l', 'l'] .null r
  | bool b =>
    cases b with
    | true => exact literal_append ['r', 'u', 'e'] (.bool true) r
    | false => exact literal_append ['a', 'l', 's', 'e'] (.bool false) r
  | number n =>
    have hread := readNumber_append n hr
    obtain ⟨c, t, htext, hc⟩ := n.head
    have hne : c ≠ '"' ∧ c ≠ 'n' ∧ c ≠ 't' ∧ c ≠ 'f' := by
      refine ⟨?_, ?_, ?_, ?_⟩ <;> rintro rfl <;> revert hc <;> decide
    rw [htext, List.cons_append] at hread ⊢
    rw [readScalar, if_neg hne.1, if_neg hne.2.1, if_neg hne.2.2.1, if_neg hne.2.2.2, hread]
  | @string body s hspells =>
    have hread := hspells.readBody (n := (body ++ '"' :: r).length + 1)
      (by simp only [List.length_append, List.length_cons]; omega) r
    simp only [quoted, List.append_assoc, List.cons_append, List.nil_append, readScalar, if_true,
      hread, Option.map_some]
  | _ => simp [Value.depth] at hdepth

end Scalars

/-- To be read as one of the values that are not too deep. -/
def ReadsUpTo (depth : Nat) (t : Text) (v : Value) : Prop := Reads t v ∧ v.depth ≤ depth

section Items
variable {read : Reader Value} {depth : Nat} {t r : Text}

theorem Exact.readItems_some (h : Exact read (ReadsUpTo depth)) {fuel : Nat}
    {items : List Value} (hread : readItems read fuel t = some (items, r)) :
    ∃ p, t = p ++ ']' :: r ∧ ReadsItems p items ∧ itemsDepth items ≤ depth := by
  induction fuel generalizing t items with
  | zero => cases hread
  | succ fuel ih =>
    simp only [readItems, Option.bind_eq_bind, Option.bind_eq_some_iff, Prod.exists] at hread
    obtain ⟨v, t', hvalue, hread⟩ := hread
    obtain ⟨before, hbefore, ht⟩ := skipBlank_spec t
    obtain ⟨p, hp, hreads, hdepth⟩ := h.sound hvalue
    obtain ⟨after, hafter, ht'⟩ := skipBlank_spec t'
    cases hnext : skipBlank t' with
    | nil => simp only [hnext] at hread; cases hread
    | cons c t'' =>
      rw [hnext] at ht'
      simp only [hnext] at hread
      split at hread
      · rename_i hc
        simp only [Option.map_eq_some_iff, Prod.mk.injEq, Prod.exists] at hread
        obtain ⟨items', r', hrest, rfl, rfl⟩ := hread
        obtain ⟨q, hq, hitems, hdepths⟩ := ih hrest
        refine ⟨before ++ p ++ after ++ ',' :: q, ?_, .more hbefore hreads hafter hitems,
          Nat.max_le.mpr ⟨hdepth, hdepths⟩⟩
        rw [ht, hp, ht', hc, hq]
        simp
      · simp only [Option.ite_none_right_eq_some, Option.some.injEq, Prod.mk.injEq] at hread
        obtain ⟨hc, rfl, rfl⟩ := hread
        refine ⟨before ++ p ++ after, ?_, .one hbefore hreads hafter,
          Nat.max_le.mpr ⟨hdepth, Nat.zero_le _⟩⟩
        rw [ht, hp, ht', hc]
        simp

theorem Exact.readItems_append (h : Exact read (ReadsUpTo depth)) {p : Text}
    {items : List Value} (hitems : ReadsItems p items) (hdepth : itemsDepth items ≤ depth)
    {n : Nat} (hfuel : p.length < n) (r : Text) :
    readItems read n (p ++ ']' :: r) = some (items, r) := by
  induction items generalizing p n with
  | nil => cases hitems
  | cons v items ih =>
    obtain ⟨fuel, rfl⟩ : ∃ fuel, n = fuel + 1 := ⟨n - 1, by omega⟩
    obtain ⟨hv, hrest⟩ := Nat.max_le.mp (show max v.depth (itemsDepth items) ≤ depth from hdepth)
    cases hitems with
    | @one before t after _ hbefore hreads hafter =>
      have hblank : skipBlank (after ++ ']' :: r) = ']' :: r := by
        rw [skipBlank_append hafter, skipBlank_cons rfl]
      have hvalue : read (skipBlank (before ++ t ++ (after ++ ']' :: r))) =
          some (v, after ++ ']' :: r) := by
        rw [hreads.skipBlank hbefore]
        exact h.complete ⟨hreads, hv⟩ (stops_blank hafter (stops_cons (by simp) r))
      rw [List.append_assoc] at hvalue
      simp only [List.append_assoc, readItems, hvalue, hblank, Option.bind_eq_bind,
        Option.bind_some, show ¬ (']' : Char) = ',' by decide, if_false, if_true]
    | @more before t after rest _ _ hbefore hreads hafter hmore =>
      have hblank : skipBlank (after ++ ',' :: (rest ++ ']' :: r)) = ',' :: (rest ++ ']' :: r) := by
        rw [skipBlank_append hafter, skipBlank_cons rfl]
      have hvalue : read (skipBlank (before ++ t ++ (after ++ ',' :: (rest ++ ']' :: r)))) =
          some (v, after ++ ',' :: (rest ++ ']' :: r)) := by
        rw [hreads.skipBlank hbefore]
        exact h.complete ⟨hreads, hv⟩ (stops_blank hafter (stops_cons (by simp) _))
      rw [List.append_assoc] at hvalue
      have hitems := ih hmore hrest (n := fuel)
        (by simp only [List.length_append, List.length_cons] at hfuel; omega)
      simp only [List.append_assoc, List.cons_append, readItems, hvalue, hblank,
        Option.bind_eq_bind, Option.bind_some, if_true, hitems, Option.map_some]

theorem readKey_some {k : Text} (h : readKey t = some (k, r)) :
    ∃ before key middle, Blank before ∧ Spells key k ∧ Blank middle ∧
      t = before ++ quoted key ++ middle ++ ':' :: r := by
  simp only [readKey, Option.bind_eq_bind, Option.bind_eq_some_iff, Prod.exists,
    Option.some.injEq, Prod.mk.injEq] at h
  obtain ⟨t', hquote, k', t'', hbody, r', hcolon, rfl, rfl⟩ := h
  obtain ⟨before, hbefore, ht⟩ := skipBlank_spec t
  obtain ⟨key, hkey, hspells⟩ := readBody_some hbody
  obtain ⟨middle, hmiddle, hmid⟩ := skipBlank_spec t''
  refine ⟨before, key, middle, hbefore, hspells, hmiddle, ?_⟩
  rw [ht, behind_some hquote, hkey, hmid, behind_some hcolon]
  simp [quoted]

theorem Spells.readKey {key k before middle : Text} (h : Spells key k) (hbefore : Blank before)
    (hmiddle : Blank middle) (r : Text) :
    readKey (before ++ quoted key ++ middle ++ ':' :: r) = some (k, r) := by
  have hopen : skipBlank (before ++ quoted key ++ middle ++ ':' :: r) =
      ['"'] ++ (key ++ '"' :: (middle ++ ':' :: r)) := by
    rw [List.append_assoc, List.append_assoc, skipBlank_append hbefore, quoted, List.cons_append,
      List.cons_append, skipBlank_cons rfl]
    simp
  have hcolon : skipBlank (middle ++ ':' :: r) = [':'] ++ r := by
    rw [skipBlank_append hmiddle, skipBlank_cons rfl]
    rfl
  have hbody := h.readBody (n := (key ++ '"' :: (middle ++ ':' :: r)).length + 1)
    (by simp only [List.length_append, List.length_cons]; omega) (middle ++ ':' :: r)
  simp only [Json.readKey, hopen, behind_append, Option.bind_eq_bind, Option.bind_some, hbody,
    hcolon]

theorem Exact.readMembers_some (h : Exact read (ReadsUpTo depth)) {fuel : Nat}
    {members : List (Text × Value)} (hread : readMembers read fuel t = some (members, r)) :
    ∃ p, t = p ++ '\x7d' :: r ∧ ReadsMembers p members ∧ membersDepth members ≤ depth := by
  induction fuel generalizing t members with
  | zero => cases hread
  | succ fuel ih =>
    simp only [readMembers, Option.bind_eq_bind, Option.bind_eq_some_iff, Prod.exists] at hread
    obtain ⟨k, u, hkey, v, t', hvalue, hread⟩ := hread
    obtain ⟨before, key, middle, hbefore, hspells, hmiddle, ht⟩ := readKey_some hkey
    obtain ⟨before', hbefore', hu⟩ := skipBlank_spec u
    obtain ⟨p, hp, hreads, hdepth⟩ := h.sound hvalue
    obtain ⟨after, hafter, ht'⟩ := skipBlank_spec t'
    cases hnext : skipBlank t' with
    | nil => simp only [hnext] at hread; cases hread
    | cons c t'' =>
      rw [hnext] at ht'
      simp only [hnext] at hread
      split at hread
      · rename_i hc
        simp only [Option.map_eq_some_iff, Prod.mk.injEq, Prod.exists] at hread
        obtain ⟨members', r', hrest, rfl, rfl⟩ := hread
        obtain ⟨q, hq, hmembers, hdepths⟩ := ih hrest
        refine ⟨_, ?_, .more hbefore hspells hmiddle hbefore' hreads hafter hmembers,
          Nat.max_le.mpr ⟨hdepth, hdepths⟩⟩
        rw [ht, hu, hp, ht', hc, hq]
        simp
      · simp only [Option.ite_none_right_eq_some, Option.some.injEq, Prod.mk.injEq] at hread
        obtain ⟨hc, rfl, rfl⟩ := hread
        refine ⟨_, ?_, .one hbefore hspells hmiddle hbefore' hreads hafter,
          Nat.max_le.mpr ⟨hdepth, Nat.zero_le _⟩⟩
        rw [ht, hu, hp, ht', hc]
        simp

theorem Exact.readMembers_append (h : Exact read (ReadsUpTo depth)) {p : Text}
    {members : List (Text × Value)} (hmembers : ReadsMembers p members)
    (hdepth : membersDepth members ≤ depth) {n : Nat} (hfuel : p.length < n) (r : Text) :
    readMembers read n (p ++ '\x7d' :: r) = some (members, r) := by
  induction members generalizing p n with
  | nil => cases hmembers
  | cons member members ih =>
    obtain ⟨k, v⟩ := member
    obtain ⟨fuel, rfl⟩ : ∃ fuel, n = fuel + 1 := ⟨n - 1, by omega⟩
    obtain ⟨hv, hrest⟩ :=
      Nat.max_le.mp (show max v.depth (membersDepth members) ≤ depth from hdepth)
    cases hmembers with
    | @one before key middle before' t after _ _ hbefore hkey hmiddle hbefore' hreads hafter =>
      have hname := hkey.readKey hbefore hmiddle (before' ++ t ++ (after ++ '\x7d' :: r))
      have hblank : skipBlank (after ++ '\x7d' :: r) = '\x7d' :: r := by
        rw [skipBlank_append hafter, skipBlank_cons rfl]
      have hvalue : read (skipBlank (before' ++ t ++ (after ++ '\x7d' :: r))) =
          some (v, after ++ '\x7d' :: r) := by
        rw [hreads.skipBlank hbefore']
        exact h.complete ⟨hreads, hv⟩ (stops_blank hafter (stops_cons (by simp) r))
      have htext : before ++ quoted key ++ middle ++ ':' :: (before' ++ t ++ after) ++ '\x7d' :: r =
          before ++ quoted key ++ middle ++ ':' :: (before' ++ t ++ (after ++ '\x7d' :: r)) := by
        simp
      simp only [htext, readMembers, hname, hvalue, hblank, Option.bind_eq_bind,
        Option.bind_some, show ¬ ('\x7d' : Char) = ',' by decide, if_false, if_true]
    | @more before key middle before' t after rest _ _ _ hbefore hkey hmiddle hbefore' hreads
        hafter hmore =>
      have hname := hkey.readKey hbefore hmiddle
        (before' ++ t ++ (after ++ ',' :: (rest ++ '\x7d' :: r)))
      have hblank : skipBlank (after ++ ',' :: (rest ++ '\x7d' :: r)) =
          ',' :: (rest ++ '\x7d' :: r) := by
        rw [skipBlank_append hafter, skipBlank_cons rfl]
      have hvalue : read (skipBlank (before' ++ t ++ (after ++ ',' :: (rest ++ '\x7d' :: r)))) =
          some (v, after ++ ',' :: (rest ++ '\x7d' :: r)) := by
        rw [hreads.skipBlank hbefore']
        exact h.complete ⟨hreads, hv⟩ (stops_blank hafter (stops_cons (by simp) _))
      have hmembers := ih hmore hrest (n := fuel)
        (by simp only [List.length_append, List.length_cons] at hfuel; omega)
      have htext :
          before ++ quoted key ++ middle ++ ':' :: (before' ++ t ++ after ++ ',' :: rest) ++
            '\x7d' :: r =
          before ++ quoted key ++ middle ++
            ':' :: (before' ++ t ++ (after ++ ',' :: (rest ++ '\x7d' :: r))) := by
        simp
      simp only [htext, readMembers, hname, hvalue, hblank, Option.bind_eq_bind,
        Option.bind_some, if_true, hmembers, Option.map_some]

end Items

section Values
variable {depth : Nat} {t r : Text} {v : Value}

/-- What is in brackets is no empty array. -/
theorem ReadsItems.head {items : List Value} (h : ReadsItems t items) (r : Text) :
    behind [']'] (skipBlank (t ++ r)) = none := by
  have hhead {before t : Text} {v : Value} (hbefore : Blank before) (hreads : Reads t v)
      (r : Text) : behind [']'] (skipBlank (before ++ t ++ r)) = none := by
    obtain ⟨c, t', rfl, -, hc⟩ := hreads.head
    rw [hreads.skipBlank hbefore]
    simp [behind, Ne.symm hc]
  cases h with
  | @one before t after _ hbefore hreads hafter =>
    simpa [List.append_assoc] using hhead hbefore hreads (after ++ r)
  | @more before t after rest _ _ hbefore hreads hafter hrest =>
    simpa [List.append_assoc] using hhead hbefore hreads (after ++ ',' :: rest ++ r)

theorem ReadsMembers.head {members : List (Text × Value)} (h : ReadsMembers t members) (r : Text) :
    behind ['\x7d'] (skipBlank (t ++ r)) = none := by
  have hhead {before : Text} (hbefore : Blank before) (key r : Text) :
      behind ['\x7d'] (skipBlank (before ++ (quoted key ++ r))) = none := by
    rw [skipBlank_append hbefore, quoted, List.cons_append, List.cons_append, skipBlank_cons rfl]
    simp [behind]
  cases h with
  | @one before key middle before' t after _ _ hbefore =>
    simpa [List.append_assoc] using
      hhead hbefore key (middle ++ ':' :: (before' ++ t ++ after) ++ r)
  | @more before key middle before' t after rest _ _ _ hbefore =>
    simpa [List.append_assoc] using
      hhead hbefore key (middle ++ ':' :: (before' ++ t ++ after ++ ',' :: rest) ++ r)

theorem readScalar_head {c : Char} (h : readScalar (c :: t) = some (v, r)) :
    c ≠ '[' ∧ c ≠ '\x7b' := by
  have hnumber {s : NumberState} (hc : c.isDigit = false ∧ c ∉ ['-', '+', '.', 'e', 'E']) :
      s.next c = none := by
    rw [Option.eq_none_iff_forall_ne_some]
    intro s' hnext
    rcases NumberState.char_of_next hnext with hdigit | hmem
    · rw [hc.1] at hdigit; cases hdigit
    · exact hc.2 hmem
  constructor
  all_goals
    rintro rfl
    obtain ⟨p, hp, hreads, hdepth⟩ := readScalar_some h
    cases hreads with
    | null => cases hp
    | bool b => cases b <;> cases hp
    | number n =>
      obtain ⟨d, t', htext, hd⟩ := n.head
      rw [htext] at hp
      cases hp
      revert hd
      decide
    | string hs => cases hp
    | _ => simp [Value.depth] at hdepth

theorem exact_readValue (depth : Nat) : Exact (readValue depth) (ReadsUpTo depth) := by
  induction depth with
  | zero =>
    refine ⟨fun h => ?_, fun h hr => readScalar_append h.1 (Nat.le_zero.mp h.2) hr⟩
    obtain ⟨p, hp, hreads, hdepth⟩ := readScalar_some h
    exact ⟨p, hp, hreads, Nat.le_of_eq hdepth⟩
  | succ depth ih =>
    constructor
    · intro t r v h
      cases t with
      | nil => cases h
      | cons c t =>
        obtain ⟨ws, hws, ht⟩ := skipBlank_spec t
        simp only [readValue] at h
        split at h
        · rename_i hc
          split at h
          · rename_i t' hclose
            cases h
            refine ⟨'[' :: ws ++ [']'], ?_, .emptyArray hws, by simp [Value.depth, itemsDepth]⟩
            rw [ht, behind_some hclose, hc]
            simp
          · simp only [Option.map_eq_some_iff, Prod.mk.injEq, Prod.exists] at h
            obtain ⟨items, r', hitems, rfl, rfl⟩ := h
            obtain ⟨p, hp, hreads, hdepth⟩ := ih.readItems_some hitems
            exact ⟨'[' :: p ++ [']'], by simp [hp, hc], .array hreads, Nat.succ_le_succ hdepth⟩
        split at h
        · rename_i hc
          split at h
          · rename_i t' hclose
            cases h
            refine ⟨'\x7b' :: ws ++ ['\x7d'], ?_, .emptyObject hws,
              by simp [Value.depth, membersDepth]⟩
            rw [ht, behind_some hclose, hc]
            simp
          · simp only [Option.map_eq_some_iff, Prod.mk.injEq, Prod.exists] at h
            obtain ⟨members, r', hmembers, rfl, rfl⟩ := h
            obtain ⟨p, hp, hreads, hdepth⟩ := ih.readMembers_some hmembers
            exact ⟨'\x7b' :: p ++ ['\x7d'], by simp [hp, hc], .object hreads,
              Nat.succ_le_succ hdepth⟩
        · obtain ⟨p, hp, hreads, hdepth⟩ := readScalar_some h
          exact ⟨p, hp, hreads, by omega⟩
    · intro p r v h hr
      obtain ⟨h, hdepth⟩ := h
      have hscalar (hzero : v.depth = 0) : readValue (depth + 1) (p ++ r) = some (v, r) := by
        have hread := readScalar_append h hzero hr
        obtain ⟨c, t, rfl, -⟩ := h.head
        rw [List.cons_append] at hread ⊢
        obtain ⟨hbracket, hbrace⟩ := readScalar_head hread
        rw [readValue, if_neg hbracket, if_neg hbrace, hread]
      cases h with
      | @emptyArray ws hws =>
        have hclose : behind [']'] (skipBlank (ws ++ ']' :: r)) = some r := by
          rw [skipBlank_append hws, skipBlank_cons rfl]
          exact behind_append [']'] r
        simp only [List.append_assoc, List.cons_append, List.nil_append, readValue, if_true,
          hclose]
      | @array t items hitems =>
        have hread := ih.readItems_append hitems (Nat.le_of_succ_le_succ hdepth)
          (n := (t ++ ']' :: r).length + 1)
          (by simp only [List.length_append, List.length_cons]; omega) r
        simp only [List.append_assoc, List.cons_append, List.nil_append, readValue, if_true,
          hitems.head (']' :: r), hread, Option.map_some]
      | @emptyObject ws hws =>
        have hclose : behind ['\x7d'] (skipBlank (ws ++ '\x7d' :: r)) = some r := by
          rw [skipBlank_append hws, skipBlank_cons rfl]
          exact behind_append ['\x7d'] r
        simp only [List.append_assoc, List.cons_append, List.nil_append, readValue, if_true,
          show ¬ ('\x7b' : Char) = '[' by decide, if_false, hclose]
      | @object t members hmembers =>
        have hread := ih.readMembers_append hmembers (Nat.le_of_succ_le_succ hdepth)
          (n := (t ++ '\x7d' :: r).length + 1)
          (by simp only [List.length_append, List.length_cons]; omega) r
        simp only [List.append_assoc, List.cons_append, List.nil_append, readValue, if_true,
          show ¬ ('\x7b' : Char) = '[' by decide, if_false,
          hmembers.head ('\x7d' :: r), hread, Option.map_some]
      | _ => exact hscalar rfl

theorem stops_of_blank (h : Blank t) : Stops t :=
  fun c hc => Or.inl (h c (List.mem_of_mem_head? hc))

/-- A text parses as what it says, down to a depth. -/
theorem parse_iff : parse t = some v ↔ Document t v ∧ v.depth ≤ DEPTH := by
  constructor
  · intro h
    unfold parse at h
    split at h
    · rename_i v' r hread
      simp only [Option.ite_none_right_eq_some, Option.some.injEq] at h
      obtain ⟨hblank, rfl⟩ := h
      obtain ⟨ws, hws, ht⟩ := skipBlank_spec t
      obtain ⟨p, hp, hreads, hdepth⟩ := (exact_readValue DEPTH).sound hread
      exact ⟨⟨ws, p, r, hws, List.all_eq_true.mp hblank, by rw [ht, hp, List.append_assoc],
        hreads⟩, hdepth⟩
    · cases h
  · rintro ⟨⟨before, p, after, hbefore, hafter, rfl, hreads⟩, hdepth⟩
    have hread : readValue DEPTH (skipBlank (before ++ p ++ after)) = some (v, after) := by
      rw [hreads.skipBlank hbefore]
      exact (exact_readValue DEPTH).complete ⟨hreads, hdepth⟩ (stops_of_blank hafter)
    have hall : after.all isBlank = true := List.all_eq_true.mpr hafter
    simp only [parse, hread, hall, if_true]

end Values

end InodeVpn.Lib.Json
