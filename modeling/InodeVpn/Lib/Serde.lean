import InodeVpn.Lib.JsonLines
import Mathlib.Algebra.Ring.Int.Defs
import Mathlib.Algebra.Ring.Nat

namespace InodeVpn.Lib.Json

def Number.isDigits (t : Text) : Bool := t ≠ [] ∧ t.all Char.isDigit

/-- A number that is written without a fraction and an exponent. `-0` is no integer. -/
def Number.toInt? (n : Number) : Option Int :=
  match n.text with
  | [] => none
  | c :: t =>
    if c = '-' then
      if isDigits t ∧ t ≠ ['0'] then some (-(Nat.ofDigitChars 10 t 0 : Nat)) else none
    else if isDigits (c :: t) then some (Nat.ofDigitChars 10 (c :: t) 0 : Nat)
    else none

/-- An integer, written in decimal. -/
def Number.ofInt (i : Int) : Number :=
  match i with
  | .ofNat n => .ofNat n
  | .negSucc n =>
    { text := '-' :: Nat.toDigits 10 (n + 1)
      valid := by
        have hstart := NumberState.digits (n + 1) (Nat.succ_pos n)
        cases hdigits : Nat.toDigits 10 (n + 1) with
        | nil => rw [hdigits] at hstart; cases hstart
        | cons c t =>
          have hc : c.isDigit = true :=
            Nat.isDigit_of_mem_toDigits (by decide) (by decide) (hdigits ▸ List.mem_cons_self)
          have hsign : c ≠ '-' := by
            rintro rfl
            cases hc
          rw [hdigits, List.foldlM_cons, NumberState.next, if_neg hsign] at hstart
          simp only [NumberState.accepts, List.foldlM_cons, NumberState.next, if_true,
            Option.bind_eq_bind, Option.bind_some] at hstart ⊢
          rw [hstart]
          rfl }

section Numbers

theorem isDigits_toDigits (n : Nat) : Number.isDigits (Nat.toDigits 10 n) = true := by
  have hdigit : (Nat.toDigits 10 n).all Char.isDigit = true :=
    List.all_eq_true.mpr fun c hc => Nat.isDigit_of_mem_toDigits (by decide) (by decide) hc
  simp [Number.isDigits, hdigit, Nat.toDigits_ne_nil]

theorem toInt?_ofNat (n : Nat) : (Number.ofNat n).toInt? = some (n : Int) := by
  have hdigits := isDigits_toDigits n
  have hvalue : Nat.ofDigitChars 10 (Nat.toDigits 10 n) 0 = n := Nat.ofDigitChars_ten_toDigits
  unfold Number.toInt? Number.ofNat
  dsimp only
  split
  · rename_i hnil
    rw [hnil] at hdigits
    cases hdigits
  · rename_i c t htext
    rw [htext] at hdigits hvalue
    have hc : c ≠ '-' := by
      rintro rfl
      simp [Number.isDigits] at hdigits
    rw [if_neg hc, if_pos hdigits, hvalue]

theorem toInt?_ofInt (i : Int) : (Number.ofInt i).toInt? = some i := by
  cases i with
  | ofNat n => exact toInt?_ofNat n
  | negSucc n =>
    have hvalue : Nat.ofDigitChars 10 (Nat.toDigits 10 (n + 1)) 0 = n + 1 :=
      Nat.ofDigitChars_ten_toDigits
    have hzero : Nat.toDigits 10 (n + 1) ≠ ['0'] := by
      intro hzero
      rw [hzero] at hvalue
      simp [Nat.ofDigitChars] at hvalue
    simp only [Number.ofInt, Number.toInt?, if_true, isDigits_toDigits, ne_eq, hzero,
      not_false_eq_true, and_self, hvalue]
    rfl

end Numbers

/-- The members of a struct, by name. -/
abbrev Fields := List (String × Value)

def object (fields : Fields) : Value := .object (fields.map fun f => (f.1.toList, f.2))

/-- A struct as an object. A `serde_json::Map` keeps its members in the order of their names; a
text has them in the order of the fields. -/
def struct (sorted : Bool) (fields : Fields) : Value :=
  object (if sorted then fields.mergeSort fun a b => a.1 ≤ b.1 else fields)

/-- The members that are written: one that is `None` is skipped. -/
def present (fields : List (String × Option Value)) : Fields :=
  fields.filterMap fun f => f.2.map fun v => (f.1, v)

/-- From what a struct is made: the members of an object, or the items of an array for the
fields in their order, the first `required` of which have to be there. -/
def structFields (names : List String) (required : Nat) : Value → Option Fields
  | .object members => some (members.map fun m => (String.ofList m.1, m.2))
  | .array items =>
    if required ≤ items.length ∧ items.length ≤ names.length then some (names.zip items) else none
  | _ => none

/-- What there is under a name. -/
inductive Found
  | missing
  | one (v : Value)
  | repeated

def Found.of : Fields → Found
  | [] => .missing
  | [f] => .one f.2
  | _ :: _ :: _ => .repeated

/-- In a text, where a name that stands twice is an error. -/
def find (name : String) (fields : Fields) : Found := .of (fields.filter (·.1 = name))

/-- In a `serde_json::Map`, where the last one has replaced those before it. -/
def findLast (name : String) (fields : Fields) : Found :=
  match (fields.filter (·.1 = name)).getLast? with
  | none => .missing
  | some f => .one f.2

namespace Found
variable {α : Type}

def required (decode : Value → Option α) : Found → Option α
  | .one v => decode v
  | _ => none

/-- `#[serde(default)]`. -/
def defaulted (d : α) (decode : Value → Option α) : Found → Option α
  | .missing => some d
  | .one v => decode v
  | .repeated => none

def orNull (decode : Value → Option α) : Value → Option (Option α)
  | .null => some none
  | v => (decode v).map some

/-- An `Option`, which is `None` when it is missing or null. -/
def optional (decode : Value → Option α) (found : Found) : Option (Option α) :=
  found.defaulted none (orNull decode)

def ofOption : Option Value → Found
  | none => .missing
  | some v => .one v

end Found

def ofString (s : String) : Value := .string s.toList

def ofNat (n : Nat) : Value := .number (.ofNat n)

def ofInt (i : Int) : Value := .number (.ofInt i)

def ofStrings (items : List String) : Value := .array (items.map ofString)

def asString : Value → Option String
  | .string s => some (String.ofList s)
  | _ => none

def asBool : Value → Option Bool
  | .bool b => some b
  | _ => none

def asInt (low high : Int) : Value → Option Int
  | .number n => n.toInt?.filter fun i => low ≤ i ∧ i ≤ high
  | _ => none

/-- An unsigned integer below `2 ^ bits`. -/
def asUnsigned (bits : Nat) (v : Value) : Option Nat :=
  (asInt 0 (2 ^ bits - 1) v).map Int.toNat

/-- A signed integer of so many bits. -/
def asSigned (bits : Nat) (v : Value) : Option Int :=
  asInt (-2 ^ (bits - 1)) (2 ^ (bits - 1) - 1) v

def asStrings : Value → Option (List String)
  | .array items => items.mapM asString
  | _ => none

section Decoding
variable {α : Type} {name : String} {fields fields' : Fields}

@[simp] theorem asString_ofString (s : String) : asString (ofString s) = some s := by
  simp [asString, ofString]

theorem asInt_number {low high i : Int} {n : Number} (hn : n.toInt? = some i) (hlow : low ≤ i)
    (hhigh : i ≤ high) : asInt low high (.number n) = some i := by
  rw [asInt, hn, Option.filter_some, if_pos (decide_eq_true ⟨hlow, hhigh⟩)]

theorem asUnsigned_ofNat {bits n : Nat} (h : n < 2 ^ bits) :
    asUnsigned bits (ofNat n) = some n := by
  have hbound : (n : Int) ≤ 2 ^ bits - 1 := by
    have hcast : (n : Int) < ((2 ^ bits : Nat) : Int) := by exact_mod_cast h
    push_cast at hcast
    omega
  rw [asUnsigned, ofNat, asInt_number (toInt?_ofNat n) (Int.natCast_nonneg n) hbound,
    Option.map_some, Int.toNat_natCast]

theorem asSigned_ofInt {bits : Nat} {i : Int} (hlow : -2 ^ (bits - 1) ≤ i)
    (hhigh : i < 2 ^ (bits - 1)) : asSigned bits (ofInt i) = some i :=
  asInt_number (toInt?_ofInt i) hlow (Int.le_sub_one_of_lt hhigh)

@[simp] theorem asStrings_ofStrings (items : List String) :
    asStrings (ofStrings items) = some items := by
  rw [ofStrings, asStrings]
  induction items with
  | nil => rfl
  | cons s items ih => simp [ih]

theorem structFields_object (names : List String) (required : Nat) (fields : Fields) :
    structFields names required (object fields) = some fields := by
  simp [structFields, object, Function.comp_def]

theorem Found.of_perm (h : fields.Perm fields') : Found.of fields = Found.of fields' := by
  have hlength := h.length_eq
  match fields, fields' with
  | [], [] => rfl
  | [f], [f'] => rw [List.singleton_perm_singleton.mp h]
  | _ :: _ :: _, _ :: _ :: _ => rfl
  | [], _ :: _ | _ :: _, [] | [_], _ :: _ :: _ | _ :: _ :: _, [_] => simp at hlength

/-- The order of the members does not matter. -/
theorem find_perm (h : fields.Perm fields') : find name fields = find name fields' :=
  Found.of_perm (h.filter _)

theorem findLast_eq (h : find name fields ≠ .repeated) :
    findLast name fields = find name fields := by
  unfold find at h ⊢
  unfold findLast
  generalize fields.filter (·.1 = name) = found at h ⊢
  match found with
  | [] => rfl
  | [f] => rfl
  | _ :: _ :: _ => exact absurd rfl h

/-- A member that is written is found, and one that is skipped is missing. -/
theorem find_present {fields : List (String × Option Value)} {v : Option Value}
    (hmem : (name, v) ∈ fields) (hnodup : (fields.map Prod.fst).Nodup) :
    find name (present fields) = .ofOption v := by
  have hnone {fields : List (String × Option Value)} (h : name ∉ fields.map Prod.fst) :
      (present fields).filter (·.1 = name) = [] := by
    rw [List.filter_eq_nil_iff]
    intro f hf
    obtain ⟨f', hf', hmap⟩ := List.mem_filterMap.mp hf
    obtain ⟨w, -, rfl⟩ := Option.map_eq_some_iff.mp hmap
    simp only [decide_eq_true_eq]
    rintro rfl
    exact h (List.mem_map_of_mem hf')
  have hfilter : (present fields).filter (·.1 = name) = (v.map fun v => (name, v)).toList := by
    induction fields with
    | nil => cases hmem
    | cons f fields ih =>
      obtain ⟨hf, hrest⟩ := List.nodup_cons.mp (List.map_cons ▸ hnodup)
      have hsplit :
          present (f :: fields) = (f.2.map fun v => (f.1, v)).toList ++ present fields := by
        rw [present, List.filterMap_cons]
        cases f.2 <;> rfl
      rw [hsplit, List.filter_append]
      rcases List.mem_cons.mp hmem with heq | hmem
      · subst heq
        rw [hnone hf, List.append_nil]
        cases v <;> simp
      · have hne : f.1 ≠ name := by
          rintro rfl
          exact hf (List.mem_map.mpr ⟨_, hmem, rfl⟩)
        rw [ih hmem hrest]
        cases f.2 <;> simp [hne]
  rw [find, hfilter]
  cases v <;> rfl

theorem structFields_struct (names : List String) (required : Nat) (sorted : Bool)
    (fields : Fields) : structFields names required (struct sorted fields) =
      some (if sorted then fields.mergeSort fun a b => a.1 ≤ b.1 else fields) :=
  structFields_object names required _

/-- The same in a struct, whatever the order. -/
theorem findLast_struct {fields : List (String × Option Value)} {v : Option Value} {sorted : Bool}
    (hmem : (name, v) ∈ fields) (hnodup : (fields.map Prod.fst).Nodup) :
    findLast name (if sorted then (present fields).mergeSort fun a b => a.1 ≤ b.1
      else present fields) = .ofOption v := by
  have hperm : (if sorted then (present fields).mergeSort fun a b => a.1 ≤ b.1
      else present fields).Perm (present fields) := by
    split
    · exact List.mergeSort_perm _ _
    · exact List.Perm.refl _
  have hfind := (find_perm hperm).trans (find_present hmem hnodup)
  rw [findLast_eq, hfind]
  rw [hfind]
  cases v <;> intro h <;> cases h

@[simp] theorem Found.required_ofOption (decode : Value → Option α) (v : Value) :
    (Found.ofOption (some v)).required decode = decode v := rfl

@[simp] theorem Found.defaulted_ofOption (d : α) (decode : Value → Option α) (v : Value) :
    (Found.ofOption (some v)).defaulted d decode = decode v := rfl

/-- An option is decoded as what was written, if what it holds is. -/
theorem Found.optional_ofOption {decode : Value → Option α} {encode : α → Value} {a : Option α}
    (hdecode : ∀ x ∈ a, decode (encode x) = some x) (hnull : ∀ x, encode x ≠ .null) :
    (Found.ofOption (a.map encode)).optional decode = some a := by
  cases a with
  | none => rfl
  | some a =>
    simp only [Option.map_some, Found.ofOption, Found.optional, Found.defaulted]
    unfold Found.orNull
    split
    · rename_i hv
      exact absurd hv (hnull a)
    · rw [hdecode a rfl]
      rfl

end Decoding

section Depth

theorem itemsDepth_le {items : List Value} {d : Nat} :
    itemsDepth items ≤ d ↔ ∀ v ∈ items, v.depth ≤ d := by
  induction items with
  | nil => simp [itemsDepth]
  | cons v items ih => rw [itemsDepth, Nat.max_le, ih, List.forall_mem_cons]

theorem membersDepth_le {members : List (Text × Value)} {d : Nat} :
    membersDepth members ≤ d ↔ ∀ m ∈ members, m.2.depth ≤ d := by
  induction members with
  | nil => simp [membersDepth]
  | cons m members ih => rw [membersDepth, Nat.max_le, ih, List.forall_mem_cons]

theorem depth_object {fields : Fields} {d : Nat} (h : ∀ f ∈ fields, f.2.depth ≤ d) :
    (object fields).depth ≤ d + 1 := by
  refine Nat.succ_le_succ (membersDepth_le.mpr fun m hm => ?_)
  obtain ⟨f, hf, rfl⟩ := List.mem_map.mp hm
  exact h f hf

theorem depth_struct {fields : Fields} {d : Nat} (sorted : Bool)
    (h : ∀ f ∈ fields, f.2.depth ≤ d) : (struct sorted fields).depth ≤ d + 1 := by
  refine depth_object fun f hf => h f ?_
  split at hf
  · exact (List.mergeSort_perm _ _).mem_iff.mp hf
  · exact hf

theorem depth_ofStrings (items : List String) : (ofStrings items).depth ≤ 1 := by
  refine Nat.succ_le_succ (itemsDepth_le.mpr fun v hv => ?_)
  obtain ⟨s, -, rfl⟩ := List.mem_map.mp hv
  exact Nat.le_refl 0

end Depth

section Messages
variable {α : Type} {encode : α → Value} {decode : Value → Option α}

/-- What `write_line` makes of some messages. -/
def sendAll (encode : α → Value) (messages : List α) : Text :=
  messages.flatMap fun m => writeLine (encode m)

/-- A line as the message in it. -/
def readMessage (decode : Value → Option α) (line : Text) : Option α :=
  (parse (trimLine line)).bind decode

/-- A message that can be written to a line and read from it. -/
structure Travels (encode : α → Value) (decode : Value → Option α) (m : α) : Prop where
  object : ∃ fields, encode m = Json.object fields
  depth : (encode m).depth ≤ DEPTH
  decodes : decode (encode m) = some m

theorem compact_object (fields : Fields) :
    ∃ t, (object fields).compact = '\x7b' :: t ++ ['\x7d'] := by
  cases fields with
  | nil => exact ⟨[], rfl⟩
  | cons f fields => exact ⟨_, rfl⟩

/-- The message is what stands in its line, whatever blanks are put around it. -/
theorem trimLine_writeLine {v : Value} {fields : Fields} (hv : v = object fields) :
    trimLine (writeLine v) = v.compact := by
  obtain ⟨t, ht⟩ := compact_object fields
  rw [writeLine]
  refine trimLine_append (c := '\x7b') (d := '\x7d') (m := t ++ ['\x7d']) (by rw [hv, ht]; rfl)
    ⟨'\x7b' :: t, by rw [hv, ht]⟩ (by simp [isWhitespace]) (by simp [isWhitespace]) ?_
  intro x hx
  rw [List.mem_singleton.mp hx]
  simp [isWhitespace]

theorem readMessage_writeLine {m : α} (h : Travels encode decode m) :
    readMessage decode (writeLine (encode m)) = some m := by
  obtain ⟨fields, hfields⟩ := h.object
  rw [readMessage, trimLine_writeLine hfields, parse_compact h.depth, Option.bind_some, h.decodes]

/-- The messages written to a stream are read from it, in order and nothing else. -/
theorem readMessages_sendAll {messages : List α} (h : ∀ m ∈ messages, Travels encode decode m) :
    (readLines (sendAll encode messages)).map (readMessage decode) = messages.map some := by
  have hlines : readLines (sendAll encode messages) =
      messages.map fun m => writeLine (encode m) := by
    have hwritten := readLines_written (messages.map encode)
    simpa [sendAll, List.flatMap_map, Function.comp_def] using hwritten
  rw [hlines, List.map_map]
  exact List.map_congr_left fun m hm => readMessage_writeLine (h m hm)

end Messages

end InodeVpn.Lib.Json
