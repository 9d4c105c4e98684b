namespace InodeVpn.Lib.Json

abbrev Text := List Char

inductive NumberState
  | start
  | minus
  | zero
  | whole
  | point
  | fraction
  | e
  | sign
  | exponent
  deriving DecidableEq, Repr

namespace NumberState

def first (c : Char) : Option NumberState :=
  if c = '0' then some .zero else if c.isDigit then some .whole else none

def after (c : Char) : Option NumberState :=
  if c = '.' then some .point else if c = 'e' ∨ c = 'E' then some .e else none

def next (s : NumberState) (c : Char) : Option NumberState :=
  match s with
  | .start => if c = '-' then some .minus else first c
  | .minus => first c
  | .zero => after c
  | .whole => if c.isDigit then some .whole else after c
  | .point => if c.isDigit then some .fraction else none
  | .fraction =>
    if c.isDigit then some .fraction else if c = 'e' ∨ c = 'E' then some .e else none
  | .e => if c = '+' ∨ c = '-' then some .sign else if c.isDigit then some .exponent else none
  | .sign => if c.isDigit then some .exponent else none
  | .exponent => if c.isDigit then some .exponent else none

def final : NumberState → Bool
  | .zero | .whole | .fraction | .exponent => true
  | _ => false

def accepts (s : NumberState) (t : Text) : Bool := (t.foldlM next s).any final

end NumberState

/-- A number, kept as the text that it is written as. -/
structure Number where
  text : Text
  valid : NumberState.start.accepts text = true
  deriving DecidableEq

theorem NumberState.digits (n : Nat) (hn : 0 < n) :
    (Nat.toDigits 10 n).foldlM NumberState.next .start = some .whole := by
  have hdigit : ∀ d < 10, (Nat.digitChar d).isDigit = true := by decide
  have hfirst : ∀ d < 10, 0 < d → Nat.digitChar d ≠ '0' ∧ Nat.digitChar d ≠ '-' := by decide
  induction n using Nat.strongRecOn with
  | ind n ih =>
    by_cases hlt : n < 10
    · rw [Nat.toDigits_of_lt_base hlt]
      simp [NumberState.next, NumberState.first, hdigit n hlt, hfirst n hlt hn]
    · rw [Nat.toDigits_of_base_le (by decide) (Nat.not_lt.mp hlt), List.foldlM_append,
        ih (n / 10) (by omega) (by omega)]
      simp [NumberState.next, hdigit _ (Nat.mod_lt n (by decide))]

def Number.ofNat (n : Nat) : Number where
  text := Nat.toDigits 10 n
  valid := by
    rcases Nat.eq_zero_or_pos n with rfl | hn
    · rfl
    · rw [NumberState.accepts, NumberState.digits n hn]
      rfl

inductive Value
  | null
  | bool (b : Bool)
  | number (n : Number)
  | string (s : Text)
  | array (items : List Value)
  | object (members : List (Text × Value))

/-- The character that is written as a backslash and `c`. -/
def shortEscape (c : Char) : Option Char :=
  if c = '"' then some '"'
  else if c = '\\' then some '\\'
  else if c = '/' then some '/'
  else if c = 'b' then some (Char.ofNat 8)
  else if c = 'f' then some (Char.ofNat 12)
  else if c = 'n' then some '\n'
  else if c = 'r' then some '\r'
  else if c = 't' then some '\t'
  else none

def hexDigit (c : Char) : Option Nat :=
  if c.isDigit then some (c.toNat - 48)
  else if 'a' ≤ c ∧ c ≤ 'f' then some (c.toNat - 87)
  else if 'A' ≤ c ∧ c ≤ 'F' then some (c.toNat - 55)
  else none

/-- Four hexadecimal digits. -/
def codeUnit (a b c d : Char) : Option Nat := do
  return ((← hexDigit a) * 16 + (← hexDigit b)) * 256 + (← hexDigit c) * 16 + (← hexDigit d)

def isHigh (unit : Nat) : Bool := 0xD800 ≤ unit && unit < 0xDC00

def isLow (unit : Nat) : Bool := 0xDC00 ≤ unit && unit < 0xE000

/-- What stands between the quotes of a string spells a text. -/
inductive Spells : Text → Text → Prop
  | nil : Spells [] []
  | plain {c : Char} {body s : Text} (hquote : c ≠ '"') (hslash : c ≠ '\\')
      (hcontrol : 32 ≤ c.toNat) (rest : Spells body s) : Spells (c :: body) (c :: s)
  | short {e c : Char} {body s : Text} (he : shortEscape e = some c) (rest : Spells body s) :
      Spells ('\\' :: e :: body) (c :: s)
  | unicode {a b c d : Char} {unit : Nat} {body s : Text} (hunit : codeUnit a b c d = some unit)
      (hhigh : isHigh unit = false) (hlow : isLow unit = false) (rest : Spells body s) :
      Spells ('\\' :: 'u' :: a :: b :: c :: d :: body) (Char.ofNat unit :: s)
  | surrogates {a b c d a' b' c' d' : Char} {high low : Nat} {body s : Text}
      (hfirst : codeUnit a b c d = some high) (hhigh : isHigh high = true)
      (hsecond : codeUnit a' b' c' d' = some low) (hlow : isLow low = true)
      (rest : Spells body s) :
      Spells ('\\' :: 'u' :: a :: b :: c :: d :: '\\' :: 'u' :: a' :: b' :: c' :: d' :: body)
        (Char.ofNat (0x10000 + (high - 0xD800) * 0x400 + (low - 0xDC00)) :: s)

def isBlank (c : Char) : Bool := c == ' ' || c == '\n' || c == '\r' || c == '\t'

def Blank (ws : Text) : Prop := ∀ c ∈ ws, isBlank c = true

def quoted (body : Text) : Text := '"' :: body ++ ['"']

def boolText (b : Bool) : Text := if b then ['t', 'r', 'u', 'e'] else ['f', 'a', 'l', 's', 'e']

mutual

/-- A text without blanks around it reads as a value. -/
inductive Reads : Text → Value → Prop
  | null : Reads ['n', 'u', 'l', 'l'] .null
  | bool (b : Bool) : Reads (boolText b) (.bool b)
  | number (n : Number) : Reads n.text (.number n)
  | string {body s : Text} (h : Spells body s) : Reads (quoted body) (.string s)
  | emptyArray {ws : Text} (h : Blank ws) : Reads ('[' :: ws ++ [']']) (.array [])
  | array {t : Text} {items : List Value} (h : ReadsItems t items) :
      Reads ('[' :: t ++ [']']) (.array items)
  | emptyObject {ws : Text} (h : Blank ws) : Reads ('\x7b' :: ws ++ ['\x7d']) (.object [])
  | object {t : Text} {members : List (Text × Value)} (h : ReadsMembers t members) :
      Reads ('\x7b' :: t ++ ['\x7d']) (.object members)

inductive ReadsItems : Text → List Value → Prop
  | one {before t after : Text} {v : Value} (hbefore : Blank before) (h : Reads t v)
      (hafter : Blank after) : ReadsItems (before ++ t ++ after) [v]
  | more {before t after rest : Text} {v : Value} {items : List Value} (hbefore : Blank before)
      (h : Reads t v) (hafter : Blank after) (hrest : ReadsItems rest items) :
      ReadsItems (before ++ t ++ after ++ ',' :: rest) (v :: items)

inductive ReadsMembers : Text → List (Text × Value) → Prop
  | one {before key middle before' t after : Text} {k : Text} {v : Value}
      (hbefore : Blank before) (hkey : Spells key k) (hmiddle : Blank middle)
      (hbefore' : Blank before') (h : Reads t v) (hafter : Blank after) :
      ReadsMembers (before ++ quoted key ++ middle ++ ':' :: (before' ++ t ++ after)) [(k, v)]
  | more {before key middle before' t after rest : Text} {k : Text} {v : Value}
      {members : List (Text × Value)} (hbefore : Blank before) (hkey : Spells key k)
      (hmiddle : Blank middle) (hbefore' : Blank before') (h : Reads t v) (hafter : Blank after)
      (hrest : ReadsMembers rest members) :
      ReadsMembers (before ++ quoted key ++ middle ++ ':' :: (before' ++ t ++ after ++ ',' :: rest))
        ((k, v) :: members)

end

/-- A text is a JSON document with a value. -/
def Document (text : Text) (v : Value) : Prop :=
  ∃ before t after, Blank before ∧ Blank after ∧ text = before ++ t ++ after ∧ Reads t v

/-- One character of a string, written as serde_json does. -/
def escapeChar (c : Char) : Text :=
  if c = '"' then ['\\', '"']
  else if c = '\\' then ['\\', '\\']
  else if c.toNat = 8 then ['\\', 'b']
  else if c.toNat = 12 then ['\\', 'f']
  else if c = '\n' then ['\\', 'n']
  else if c = '\r' then ['\\', 'r']
  else if c = '\t' then ['\\', 't']
  else if c.toNat < 32 then
    ['\\', 'u', '0', '0', Nat.digitChar (c.toNat / 16), Nat.digitChar (c.toNat % 16)]
  else [c]

def escape (s : Text) : Text := s.flatMap escapeChar

def newline (depth : Nat) : Text := '\n' :: List.replicate (2 * depth) ' '

mutual

/-- `to_string_pretty`, at some depth. -/
def Value.pretty (depth : Nat) : Value → Text
  | .null => ['n', 'u', 'l', 'l']
  | .bool b => boolText b
  | .number n => n.text
  | .string s => quoted (escape s)
  | .array [] => ['[', ']']
  | .array (v :: items) =>
    '[' :: newline (depth + 1) ++ v.pretty (depth + 1) ++ prettyItems (depth + 1) items ++
      newline depth ++ [']']
  | .object [] => ['\x7b', '\x7d']
  | .object ((k, v) :: members) =>
    '\x7b' :: newline (depth + 1) ++ quoted (escape k) ++ [':', ' '] ++
      v.pretty (depth + 1) ++ prettyMembers (depth + 1) members ++ newline depth ++ ['\x7d']

/-- The items after the first. -/
def prettyItems (depth : Nat) : List Value → Text
  | [] => []
  | v :: items => ',' :: newline depth ++ v.pretty depth ++ prettyItems depth items

def prettyMembers (depth : Nat) : List (Text × Value) → Text
  | [] => []
  | (k, v) :: members =>
    ',' :: newline depth ++ quoted (escape k) ++ [':', ' '] ++ v.pretty depth ++
      prettyMembers depth members

end

mutual

/-- The strings of a value in the order in which they are written, without member names. -/
def Value.stringValues : Value → List Text
  | .string s => [s]
  | .array items => itemStringValues items
  | .object members => memberStringValues members
  | _ => []

def itemStringValues : List Value → List Text
  | [] => []
  | v :: items => v.stringValues ++ itemStringValues items

def memberStringValues : List (Text × Value) → List Text
  | [] => []
  | (_, v) :: members => v.stringValues ++ memberStringValues members

end

section Writer

theorem blank_newline (depth : Nat) : Blank (newline depth) := by
  intro c hc
  rcases List.mem_cons.mp hc with rfl | hc
  · rfl
  · rw [(List.mem_replicate.mp hc).2]
    rfl

theorem blank_nil : Blank [] := fun _ hc => (by cases hc)

theorem blank_space : Blank [' '] := fun c hc => (by rw [List.mem_singleton.mp hc]; rfl)

theorem hexDigit_digitChar : ∀ d < 16, hexDigit (Nat.digitChar d) = some d := by
  decide

theorem codeUnit_control {n : Nat} (h : n < 32) :
    codeUnit '0' '0' (Nat.digitChar (n / 16)) (Nat.digitChar (n % 16)) = some n := by
  have hzero : hexDigit '0' = some 0 := rfl
  simp only [codeUnit, hzero, hexDigit_digitChar _ (show n / 16 < 16 by omega),
    hexDigit_digitChar _ (Nat.mod_lt n (by decide)), Option.bind_eq_bind, Option.bind_some,
    Option.pure_def, Option.some.injEq]
  omega

/-- What the writer makes of a character spells that character. -/
theorem spells_escapeChar (c : Char) {body s : Text} (h : Spells body s) :
    Spells (escapeChar c ++ body) (c :: s) := by
  have hchar {n : Nat} (hn : c.toNat = n) : Char.ofNat n = c := by rw [← hn, Char.ofNat_toNat]
  unfold escapeChar
  split
  · subst c
    exact .short rfl h
  split
  · subst c
    exact .short rfl h
  split
  · rename_i hn
    exact hchar hn ▸ .short (e := 'b') rfl h
  split
  · rename_i hn
    exact hchar hn ▸ .short (e := 'f') rfl h
  split
  · subst c
    exact .short rfl h
  split
  · subst c
    exact .short rfl h
  split
  · subst c
    exact .short rfl h
  rename_i hquote hslash _ _ _ _ _
  split
  · rename_i hn
    have hhigh : isHigh c.toNat = false := by simp [isHigh]; omega
    have hlow : isLow c.toNat = false := by simp [isLow]; omega
    have hspells := Spells.unicode (codeUnit_control hn) hhigh hlow h
    rwa [Char.ofNat_toNat] at hspells
  · rename_i hn
    exact .plain hquote hslash (Nat.not_lt.mp hn) h

theorem spells_escape (s : Text) : Spells (escape s) s := by
  induction s with
  | nil => exact .nil
  | cons c s ih => exact spells_escapeChar c ih

mutual

/-- What the writer makes of a value reads as that value. -/
theorem reads_pretty (depth : Nat) (v : Value) : Reads (v.pretty depth) v := by
  match v with
  | .null => exact .null
  | .bool b => exact .bool b
  | .number n => exact .number n
  | .string s => exact .string (spells_escape s)
  | .array [] => exact .emptyArray blank_nil
  | .array (v :: items) =>
    have hitems := readsItems_pretty (depth + 1) items (reads_pretty (depth + 1) v)
      (blank_newline depth)
    simpa [Value.pretty] using Reads.array hitems
  | .object [] => exact .emptyObject blank_nil
  | .object ((k, v) :: members) =>
    have hmembers := readsMembers_pretty (depth + 1) members k (reads_pretty (depth + 1) v)
      (blank_newline depth)
    simpa [Value.pretty] using Reads.object hmembers

theorem readsItems_pretty (depth : Nat) (items : List Value) {t after : Text} {v : Value}
    (hv : Reads t v) (hafter : Blank after) :
    ReadsItems (newline depth ++ t ++ prettyItems depth items ++ after) (v :: items) := by
  match items with
  | [] => simpa [prettyItems] using ReadsItems.one (blank_newline depth) hv hafter
  | v' :: items =>
    have hrest := readsItems_pretty depth items (reads_pretty depth v') hafter
    simpa [prettyItems] using ReadsItems.more (blank_newline depth) hv blank_nil hrest

theorem readsMembers_pretty (depth : Nat) (members : List (Text × Value)) {t after : Text}
    (k : Text) {v : Value} (hv : Reads t v) (hafter : Blank after) :
    ReadsMembers (newline depth ++ quoted (escape k) ++ [':', ' '] ++ t ++
      prettyMembers depth members ++ after) ((k, v) :: members) := by
  match members with
  | [] =>
    simpa [prettyMembers] using ReadsMembers.one (blank_newline depth) (spells_escape k) blank_nil
      blank_space hv hafter
  | (k', v') :: members =>
    have hrest := readsMembers_pretty depth members k' (reads_pretty depth v') hafter
    simpa [prettyMembers] using ReadsMembers.more (blank_newline depth) (spells_escape k) blank_nil
      blank_space hv blank_nil hrest

end

end Writer

end InodeVpn.Lib.Json
