import InodeVpn.Lib.JsonRead
import InodeVpn.Lib.Text

namespace InodeVpn.Lib.Json

mutual

/-- `to_vec`, without blanks. -/
def Value.compact : Value → Text
  | .null => ['n', 'u', 'l', 'l']
  | .bool b => boolText b
  | .number n => n.text
  | .string s => quoted (escape s)
  | .array [] => ['[', ']']
  | .array (v :: items) => '[' :: v.compact ++ compactItems items ++ [']']
  | .object [] => ['\x7b', '\x7d']
  | .object ((k, v) :: members) =>
    '\x7b' :: quoted (escape k) ++ ':' :: v.compact ++ compactMembers members ++ ['\x7d']

/-- The items after the first. -/
def compactItems : List Value → Text
  | [] => []
  | v :: items => ',' :: v.compact ++ compactItems items

def compactMembers : List (Text × Value) → Text
  | [] => []
  | (k, v) :: members => ',' :: quoted (escape k) ++ ':' :: v.compact ++ compactMembers members

end

mutual

/-- What the writer makes of a value reads as that value. -/
theorem reads_compact (v : Value) : Reads v.compact v := by
  match v with
  | .null => exact .null
  | .bool b => exact .bool b
  | .number n => exact .number n
  | .string s => exact .string (spells_escape s)
  | .array [] => exact .emptyArray blank_nil
  | .array (v :: items) =>
    have hitems := readsItems_compact items (reads_compact v)
    simpa [Value.compact] using Reads.array hitems
  | .object [] => exact .emptyObject blank_nil
  | .object ((k, v) :: members) =>
    have hmembers := readsMembers_compact members k (reads_compact v)
    simpa [Value.compact] using Reads.object hmembers

theorem readsItems_compact (items : List Value) {t : Text} {v : Value} (hv : Reads t v) :
    ReadsItems (t ++ compactItems items) (v :: items) := by
  match items with
  | [] => simpa [compactItems] using ReadsItems.one blank_nil hv blank_nil
  | v' :: items =>
    have hrest := readsItems_compact items (reads_compact v')
    simpa [compactItems] using ReadsItems.more blank_nil hv blank_nil hrest

theorem readsMembers_compact (members : List (Text × Value)) {t : Text} (k : Text) {v : Value}
    (hv : Reads t v) :
    ReadsMembers (quoted (escape k) ++ ':' :: t ++ compactMembers members) ((k, v) :: members) := by
  match members with
  | [] =>
    simpa [compactMembers] using ReadsMembers.one blank_nil (spells_escape k) blank_nil blank_nil
      hv blank_nil
  | (k', v') :: members =>
    have hrest := readsMembers_compact members k' (reads_compact v')
    simpa [compactMembers] using ReadsMembers.more blank_nil (spells_escape k) blank_nil blank_nil
      hv blank_nil hrest

end

theorem parse_compact {v : Value} (h : v.depth ≤ DEPTH) : parse v.compact = some v :=
  parse_iff.mpr ⟨⟨[], v.compact, [], blank_nil, blank_nil, by simp, reads_compact v⟩, h⟩

section Controls

/-- No line break and no other control character. -/
def Printed (t : Text) : Prop := ∀ c ∈ t, 32 ≤ c.toNat

theorem Printed.append {t u : Text} (ht : Printed t) (hu : Printed u) : Printed (t ++ u) := by
  intro c hc
  rcases List.mem_append.mp hc with hc | hc
  · exact ht c hc
  · exact hu c hc

theorem Printed.cons {c : Char} {t : Text} (hc : 32 ≤ c.toNat) (ht : Printed t) :
    Printed (c :: t) :=
  List.forall_mem_cons.mpr ⟨hc, ht⟩

theorem printed_nil : Printed [] := fun _ hc => (by cases hc)

theorem printed_of_all (h : (t.all fun c => 32 ≤ c.toNat) = true) : Printed t :=
  fun c hc => of_decide_eq_true (List.all_eq_true.mp h c hc)

theorem printed_escapeChar (c : Char) : Printed (escapeChar c) := by
  have hdigit : ∀ d < 16, 32 ≤ (Nat.digitChar d).toNat := by decide
  unfold escapeChar
  repeat' split
  all_goals
    intro d hd
    simp only [List.mem_cons, List.not_mem_nil, or_false] at hd
  iterate 7 rcases hd with rfl | rfl <;> decide
  · rename_i hc
    rcases hd with rfl | rfl | rfl | rfl | rfl | rfl
    iterate 4 decide
    · exact hdigit _ (by omega)
    · exact hdigit _ (Nat.mod_lt _ (by decide))
  · rename_i hc
    rw [hd]
    exact Nat.not_lt.mp hc

theorem printed_quoted (s : Text) : Printed (quoted (escape s)) := by
  have hescape : Printed (escape s) := by
    intro c hc
    obtain ⟨d, -, hd⟩ := List.mem_flatMap.mp hc
    exact printed_escapeChar d c hd
  exact Printed.append (Printed.cons (by decide) hescape) (Printed.cons (by decide) printed_nil)

theorem printed_number (n : Number) : Printed n.text := by
  have hchar : ∀ (t : Text) (s : NumberState), s.accepts t = true → Printed t := by
    intro t
    induction t with
    | nil => exact fun _ _ => printed_nil
    | cons c t ih =>
      intro s hs
      cases hnext : s.next c with
      | none => simp [NumberState.accepts, hnext] at hs
      | some s' =>
        simp only [NumberState.accepts, List.foldlM_cons, hnext, Option.bind_eq_bind,
          Option.bind_some] at hs
        refine Printed.cons ?_ (ih s' hs)
        rcases NumberState.char_of_next hnext with hdigit | hmem
        · simp only [Char.isDigit, Bool.and_eq_true, decide_eq_true_eq] at hdigit
          have hle : (48 : UInt32).toNat ≤ c.val.toNat := hdigit.1
          exact Nat.le_trans (by decide) hle
        · simp only [List.mem_cons, List.not_mem_nil, or_false] at hmem
          rcases hmem with rfl | rfl | rfl | rfl | rfl <;> decide
  exact hchar n.text .start n.valid

mutual

theorem printed_compact (v : Value) : Printed v.compact := by
  match v with
  | .null => exact printed_of_all (by decide)
  | .bool true => exact printed_of_all (by decide)
  | .bool false => exact printed_of_all (by decide)
  | .number n => exact printed_number n
  | .string s => exact printed_quoted s
  | .array [] => exact printed_of_all (by decide)
  | .array (v :: items) =>
    exact ((Printed.cons (by decide) (printed_compact v)).append
      (printed_compactItems items)).append (Printed.cons (by decide) printed_nil)
  | .object [] => exact printed_of_all (by decide)
  | .object ((k, v) :: members) =>
    exact (((Printed.cons (by decide) (printed_quoted k)).append
      (Printed.cons (by decide) (printed_compact v))).append
      (printed_compactMembers members)).append (Printed.cons (by decide) printed_nil)

theorem printed_compactItems (items : List Value) : Printed (compactItems items) := by
  match items with
  | [] => exact printed_nil
  | v :: items =>
    exact (Printed.cons (by decide) (printed_compact v)).append (printed_compactItems items)

theorem printed_compactMembers (members : List (Text × Value)) :
    Printed (compactMembers members) := by
  match members with
  | [] => exact printed_nil
  | (k, v) :: members =>
    exact ((Printed.cons (by decide) (printed_quoted k)).append
      (Printed.cons (by decide) (printed_compact v))).append (printed_compactMembers members)

end

end Controls

/-- `write_line`. -/
def writeLine (v : Value) : Text := v.compact ++ ['\n']

/-- What `read_line` gives, one call after another: lines with the breaks that end them. -/
def readLines : Text → List Text
  | [] => []
  | c :: t =>
    if c = '\n' then ['\n'] :: readLines t
    else
      match readLines t with
      | [] => [[c]]
      | l :: ls => (c :: l) :: ls

/-- A line without the blanks around it. -/
def trimLine (line : Text) : Text := (line.dropWhile isWhitespace).rdropWhile isWhitespace

section Lines
variable {l t : Text}

theorem readLines_line (h : '\n' ∉ l) (t : Text) :
    readLines (l ++ '\n' :: t) = (l ++ ['\n']) :: readLines t := by
  induction l with
  | nil => simp [readLines]
  | cons c l ih =>
    simp only [List.mem_cons, not_or] at h
    have hc : c ≠ '\n' := fun heq => h.1 heq.symm
    rw [List.cons_append, readLines, if_neg hc, ih h.2]
    rfl

theorem Printed.no_newline (h : Printed l) : '\n' ∉ l := fun hmem => by
  have := h '\n' hmem
  revert this
  decide

/-- Everything that was written is there line by line. -/
theorem readLines_written (vs : List Value) :
    readLines (vs.flatMap writeLine) = vs.map writeLine := by
  induction vs with
  | nil => rfl
  | cons v vs ih =>
    rw [List.flatMap_cons, writeLine, List.append_assoc, List.singleton_append,
      readLines_line (printed_compact v).no_newline, ih]
    rfl

/-- A text that begins and ends with no blank is what is left of its line. -/
theorem trimLine_append {c d : Char} {m after : Text} (hl : l = c :: m) (hl' : ∃ m', l = m' ++ [d])
    (hc : isWhitespace c = false) (hd : isWhitespace d = false)
    (hafter : ∀ x ∈ after, isWhitespace x = true) : trimLine (l ++ after) = l := by
  obtain ⟨m', hm'⟩ := hl'
  have hdrop : (l ++ after).dropWhile isWhitespace = l ++ after := by
    rw [hl, List.cons_append, List.dropWhile_cons, if_neg (by simp [hc])]
  rw [trimLine, hdrop, hm', List.append_assoc, List.singleton_append, rdropWhile_append_cons hd,
    List.rdropWhile_eq_nil_iff.mpr hafter]

end Lines

end InodeVpn.Lib.Json
