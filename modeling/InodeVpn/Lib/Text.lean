import Mathlib.Data.List.DropRight
import Mathlib.Data.List.TakeDrop

namespace InodeVpn.Lib

/-- `char::is_whitespace`: the Unicode property White_Space. -/
def isWhitespace (c : Char) : Bool :=
  let n := c.toNat
  (9 ≤ n && n ≤ 13) || n == 0x20 || n == 0x85 || n == 0xA0 || n == 0x1680 ||
    (0x2000 ≤ n && n ≤ 0x200A) || n == 0x2028 || n == 0x2029 || n == 0x202F || n == 0x205F ||
    n == 0x3000

/-- `str::split`: every piece between two separators, the empty ones included. -/
def split (sep : Char → Bool) (s : String) : List String :=
  (s.toList.splitOnP sep).map String.ofList

/-- The pieces that are not empty. -/
def pieces (sep : Char → Bool) (s : String) : List String :=
  (split sep s).filter (· ≠ "")

/-- `str::split_whitespace`. -/
def words (s : String) : List String := pieces isWhitespace s

/-- `str::split_once` at a character. -/
def splitOnce (sep : Char) (s : String) : Option (String × String) :=
  match s.toList.span (· ≠ sep) with
  | (_, []) => none
  | (before, _ :: after) => some (String.ofList before, String.ofList after)

/-- The line without one carriage return at its end. -/
def stripCr (s : String) : String :=
  if s.toList.getLast? = some '\r' then String.ofList s.toList.dropLast else s

/-- `str::lines`; the last line need not be terminated. -/
def lines (s : String) : List String :=
  let ls := split (· == '\n') s
  ls.dropLast.map stripCr ++ (ls.getLast?.filter (· ≠ "")).toList

/-- Lines, each with its end. -/
def unlines (ls : List String) : String := String.join (ls.map (· ++ "\n"))

/-- `str::trim`. -/
def trim (s : String) : String :=
  String.ofList (((s.toList.dropWhile isWhitespace).reverse.dropWhile isWhitespace).reverse)

/-- `str::strip_prefix`. -/
def stripPrefix (start s : String) : Option String :=
  if start.toList.isPrefixOf s.toList then
    some (String.ofList (s.toList.drop start.toList.length))
  else none

/-- What is left of a number after one plus sign. -/
def unsigned (s : String) : List Char :=
  if s.toList.head? = some '+' then s.toList.tail else s.toList

/-- `str::parse` of the unsigned type with the largest value `max`: there is at
least one digit, nothing but digits, and the value fits. -/
def parseUnsigned (max : Nat) (s : String) : Option Nat :=
  let value := Nat.ofDigitChars 10 (unsigned s) 0
  if unsigned s ≠ [] ∧ (unsigned s).all Char.isDigit ∧ value ≤ max then some value else none

abbrev parseU8 : String → Option Nat := parseUnsigned 255
abbrev parseU16 : String → Option Nat := parseUnsigned 65535
abbrev parseU32 : String → Option Nat := parseUnsigned 4294967295
abbrev parseU64 : String → Option Nat := parseUnsigned 18446744073709551615
abbrev parseUsize : String → Option Nat := parseUnsigned 18446744073709551615

/-- `char::escape_debug` inside a string: what `{:?}` prints for one character. Past
ASCII, Rust also escapes what its tables call unprintable; here that stays. -/
def debugChar (c : Char) : List Char :=
  if c = '"' then ['\\', '"']
  else if c = '\\' then ['\\', '\\']
  else if c = '\n' then ['\\', 'n']
  else if c = '\r' then ['\\', 'r']
  else if c = '\t' then ['\\', 't']
  else if c.toNat = 0 then ['\\', '0']
  else if c.toNat < 32 ∨ c.toNat = 127 then
    ['\\', 'u', Char.ofNat 123] ++ Nat.toDigits 16 c.toNat ++ [Char.ofNat 125]
  else [c]

/-- `{:?}` of a string. -/
def debugText (s : String) : String :=
  "\"" ++ String.ofList (s.toList.flatMap debugChar) ++ "\""

section Numbers
variable {s : String} {c : Char} {max v : Nat}

/-- A number is all digits, but for a plus sign. -/
theorem parseUnsigned_chars (h : parseUnsigned max s = some v) (hc : c ∈ s.toList) :
    c = '+' ∨ c.isDigit = true := by
  simp only [parseUnsigned, Option.ite_none_right_eq_some, List.all_eq_true] at h
  by_cases hplus : s.toList.head? = some '+'
  · obtain ⟨rest, hrest⟩ := List.head?_eq_some_iff.mp hplus
    rw [hrest] at hc
    refine (List.mem_cons.mp hc).imp id fun hmem => h.1.2.1 c ?_
    rwa [unsigned, if_pos hplus, hrest]
  · exact Or.inr (h.1.2.1 c (by rwa [unsigned, if_neg hplus]))

theorem toString_digits {n : Nat} (hc : c ∈ (toString n).toList) : c.isDigit = true := by
  rw [Nat.toString_eq_repr, Nat.toList_repr] at hc
  exact Nat.isDigit_of_mem_toDigits (by decide) (by decide) hc

theorem notMem_toString (hc : c.isDigit = false) (n : Nat) :
    c ∉ (toString n).toList := by
  intro hmem
  rw [toString_digits hmem] at hc
  cases hc

end Numbers

theorem stripPrefix_isSome {start s : String} :
    (stripPrefix start s).isSome = true ↔ start.toList <+: s.toList := by
  rw [stripPrefix, ← List.isPrefixOf_iff_prefix]
  split
  · rename_i hprefix
    exact iff_of_true rfl hprefix
  · rename_i hprefix
    exact iff_of_false Bool.false_ne_true hprefix

section Split
variable {sep : Char → Bool} {c : Char} {entries : List String}

theorem mem_splitOnP {l : List Char} (hc : c ∈ l) (hsep : sep c = false) :
    ∃ piece ∈ l.splitOnP sep, c ∈ piece := by
  induction l with
  | nil => cases hc
  | cons d l ih =>
    rw [List.splitOnP_cons_eq_if_modifyHead]
    by_cases hd : sep d = true
    · have hmem : c ∈ l := (List.mem_cons.mp hc).resolve_left fun heq => by simp [← heq, hsep] at hd
      obtain ⟨piece, hpiece, hin⟩ := ih hmem
      rw [if_pos hd]
      exact ⟨piece, List.mem_cons_of_mem _ hpiece, hin⟩
    · rw [if_neg hd]
      obtain ⟨first, rest, hsplit⟩ := List.exists_cons_of_ne_nil (List.splitOnP_ne_nil sep l)
      rw [hsplit] at ih ⊢
      rcases List.mem_cons.mp hc with rfl | hmem
      · exact ⟨c :: first, List.mem_cons_self, List.mem_cons_self⟩
      · obtain ⟨piece, hpiece, hin⟩ := ih hmem
        rcases List.mem_cons.mp hpiece with rfl | hpiece
        · exact ⟨d :: piece, List.mem_cons_self, List.mem_cons_of_mem d hin⟩
        · exact ⟨piece, List.mem_cons_of_mem _ hpiece, hin⟩

/-- What is no separator is in one of the pieces. -/
theorem mem_split {s : String} (hc : c ∈ s.toList) (hsep : sep c = false) :
    ∃ piece ∈ split sep s, c ∈ piece.toList := by
  obtain ⟨piece, hpiece, hin⟩ := mem_splitOnP hc hsep
  exact ⟨String.ofList piece, List.mem_map_of_mem hpiece, by rwa [String.toList_ofList]⟩

theorem splitOnP_intercalate (hc : sep c = true) {ls : List (List Char)} (hls : ls ≠ [])
    (hfree : ∀ l ∈ ls, ∀ x ∈ l, sep x = false) : ([c].intercalate ls).splitOnP sep = ls := by
  induction ls with
  | nil => exact absurd rfl hls
  | cons l ls ih =>
    have hl := hfree l List.mem_cons_self
    cases ls with
    | nil => rw [List.intercalate_singleton, List.splitOnP_eq_singleton hl]
    | cons l' ls =>
      rw [List.intercalate_cons_cons, List.append_assoc, List.singleton_append,
        List.splitOnP_append_cons_of_forall_mem hl c hc,
        ih (by simp) fun k hk => hfree k (List.mem_cons_of_mem l hk)]

/-- Joining entries with a separator and splitting gives them back. -/
theorem split_intercalate (hc : sep c = true) (hnil : entries ≠ [])
    (hfree : ∀ e ∈ entries, ∀ x ∈ e.toList, sep x = false) :
    split sep ((String.singleton c).intercalate entries) = entries := by
  rw [split, String.toList_intercalate, String.toList_singleton, splitOnP_intercalate hc]
  · simp [Function.comp_def]
  · simpa using hnil
  · intro l hl
    obtain ⟨e, he, rfl⟩ := List.mem_map.mp hl
    exact hfree e he

/-- So does taking the pieces, when no entry is empty. -/
theorem pieces_intercalate (hc : sep c = true)
    (hentries : ∀ e ∈ entries, e ≠ "" ∧ ∀ x ∈ e.toList, sep x = false) :
    pieces sep ((String.singleton c).intercalate entries) = entries := by
  by_cases hnil : entries = []
  · subst hnil
    simp [pieces, split]
  · rw [pieces, split_intercalate hc hnil fun e he => (hentries e he).2, List.filter_eq_self]
    intro e he
    simpa using (hentries e he).1

end Split

section Trim
variable {p : Char → Bool} {c : Char} {s t : String} {l before after : List Char}

/-- Nothing behind an element that stays is dropped. -/
theorem dropWhile_append_cons (hc : p c = false) :
    (before ++ c :: after).dropWhile p = before.dropWhile p ++ c :: after := by
  rw [List.dropWhile_append]
  split
  · rename_i hempty
    rw [List.isEmpty_iff.mp hempty, List.dropWhile_cons_of_neg (by simp [hc]), List.nil_append]
  · rfl

theorem rdropWhile_append_cons (hc : p c = false) :
    (before ++ c :: after).rdropWhile p = before ++ c :: after.rdropWhile p := by
  have hreverse : (before ++ c :: after).reverse = after.reverse ++ c :: before.reverse := by
    simp
  rw [List.rdropWhile, hreverse, dropWhile_append_cons hc]
  simp [List.rdropWhile]

/-- The two ends of a list are trimmed in either order. -/
theorem dropWhile_rdropWhile (p : Char → Bool) (l : List Char) :
    (l.rdropWhile p).dropWhile p = (l.dropWhile p).rdropWhile p := by
  cases hdrop : l.dropWhile p with
  | nil =>
    have hall : l.rdropWhile p = [] :=
      List.rdropWhile_eq_nil_iff.mpr (List.dropWhile_eq_nil_iff.mp hdrop)
    rw [hall, List.dropWhile_nil, List.rdropWhile_nil]
  | cons c rest =>
    have hc : p c = false := by
      have hhead := List.head?_dropWhile_not p l
      rw [hdrop] at hhead
      simpa using hhead
    have hleading : (l.takeWhile p).dropWhile p = [] :=
      List.dropWhile_eq_nil_iff.mpr fun d hd => List.mem_takeWhile_imp hd
    rw [← List.takeWhile_append_dropWhile (p := p) (l := l), hdrop, rdropWhile_append_cons hc,
      dropWhile_append_cons hc, hleading]
    exact (rdropWhile_append_cons hc).symm

theorem toList_trim (s : String) :
    (trim s).toList = (s.toList.dropWhile isWhitespace).rdropWhile isWhitespace := by
  rw [trim, String.toList_ofList]
  rfl

/-- A text that has been trimmed at one end is trimmed to the same. -/
theorem trim_eq_of (h : t.toList = s.toList.dropWhile isWhitespace ∨
    t.toList = s.toList.rdropWhile isWhitespace) : trim t = trim s := by
  apply String.toList_inj.mp
  rw [toList_trim, toList_trim]
  rcases h with h | h
  · rw [h, List.dropWhile_idempotent]
  · rw [h, dropWhile_rdropWhile, List.rdropWhile_idempotent]

theorem trim_cons (hc : isWhitespace c = true) (l : List Char) :
    trim (String.ofList (c :: l)) = trim (String.ofList l) := by
  apply String.toList_inj.mp
  rw [toList_trim, toList_trim, String.toList_ofList, String.toList_ofList,
    List.dropWhile_cons_of_pos hc]

@[simp] theorem trim_trim (s : String) : trim (trim s) = trim s := by
  apply String.toList_inj.mp
  rw [toList_trim, toList_trim, dropWhile_rdropWhile, List.dropWhile_idempotent,
    List.rdropWhile_idempotent]

end Trim

section SplitOnce
variable {c : Char} {s : String} {before after : List Char}

/-- The first separator is where the text is split. -/
theorem splitOnce_of (hs : s.toList = before ++ c :: after) (hbefore : c ∉ before) :
    splitOnce c s = some (String.ofList before, String.ofList after) := by
  have hspan : s.toList.span (· ≠ c) = (before, c :: after) := by
    have hfree : ∀ d ∈ before, decide (d ≠ c) = true := by
      intro d hd
      simpa using fun heq : d = c => hbefore (heq ▸ hd)
    rw [List.span_eq_takeWhile_dropWhile, hs, List.takeWhile_append_of_pos hfree,
      List.dropWhile_append_of_pos hfree, List.takeWhile_cons_of_neg (by simp),
      List.dropWhile_cons_of_neg (by simp), List.append_nil]
  rw [splitOnce, hspan]

theorem splitOnce_eq_none (hs : c ∉ s.toList) : splitOnce c s = none := by
  have hfree : ∀ d ∈ s.toList, decide (d ≠ c) = true := by
    intro d hd
    simpa using fun heq : d = c => hs (heq ▸ hd)
  rw [splitOnce, List.span_eq_takeWhile_dropWhile, List.dropWhile_eq_nil_iff.mpr hfree]

/-- Trimming a text trims the outer ends of what it is split into. -/
theorem splitOnce_trim (hc : isWhitespace c = false) :
    (splitOnce c (trim s)).map (fun kv => (trim kv.1, trim kv.2)) =
      (splitOnce c s).map fun kv => (trim kv.1, trim kv.2) := by
  by_cases hmem : c ∈ s.toList
  · obtain ⟨before, after, hs, hbefore⟩ := List.eq_append_cons_of_mem hmem
    have htrim : (trim s).toList =
        before.dropWhile isWhitespace ++ c :: after.rdropWhile isWhitespace := by
      rw [toList_trim, hs, dropWhile_append_cons hc, rdropWhile_append_cons hc]
    rw [splitOnce_of hs hbefore, splitOnce_of htrim fun h =>
      hbefore ((List.dropWhile_suffix _).mem h)]
    simp only [Option.map_some, Option.some.injEq, Prod.mk.injEq]
    exact ⟨trim_eq_of (Or.inl (by simp)), trim_eq_of (Or.inr (by simp))⟩
  · have htrim : c ∉ (trim s).toList := by
      rw [toList_trim]
      exact fun h => hmem ((List.dropWhile_suffix _).mem ((List.rdropWhile_prefix _ _).mem h))
    rw [splitOnce_eq_none hmem, splitOnce_eq_none htrim]

end SplitOnce

section Words
variable {c : Char} {s : String} {before after : List Char} {ls : List (List Char)}

/-- The pieces of a list of characters that are not empty. -/
def wordsOf (l : List Char) : List (List Char) := (l.splitOnP isWhitespace).filter (· ≠ [])

theorem words_eq (s : String) : words s = (wordsOf s.toList).map String.ofList := by
  rw [words, pieces, split, wordsOf, List.filter_map]
  congr 1
  apply List.filter_congr
  intro l _
  simp [Function.comp_apply]

/-- No word goes over white space. -/
theorem wordsOf_append (hc : isWhitespace c = true) :
    wordsOf (before ++ c :: after) = wordsOf before ++ wordsOf after := by
  rw [wordsOf, List.splitOnP_append_cons _ _ hc, List.filter_append]
  rfl

theorem words_stripCr (s : String) : words (stripCr s) = words s := by
  unfold stripCr
  split
  · rename_i hlast
    obtain ⟨before, hbefore⟩ := List.getLast?_eq_some_iff.mp hlast
    have hnone : wordsOf [] = [] := rfl
    rw [words_eq, words_eq, String.toList_ofList, hbefore, List.dropLast_concat,
      wordsOf_append (by decide), hnone, List.append_nil]
  · rfl

theorem wordsOf_intercalate (hc : isWhitespace c = true) (hls : ls ≠ []) :
    wordsOf ([c].intercalate ls) = ls.flatMap wordsOf := by
  induction ls with
  | nil => exact absurd rfl hls
  | cons l ls ih =>
    cases ls with
    | nil => simp
    | cons l' ls =>
      rw [List.intercalate_cons_cons, List.append_assoc, List.singleton_append,
        wordsOf_append hc, ih (List.cons_ne_nil l' ls)]
      rfl

/-- The words of a text are those of its lines. -/
theorem words_lines (s : String) : (lines s).flatMap words = words s := by
  have hsplit : (split (· == '\n') s).flatMap words = words s := by
    have hjoined : ['\n'].intercalate (s.toList.splitOn '\n') = s.toList :=
      List.intercalate_splitOn '\n'
    rw [List.splitOn_eq_splitOnP] at hjoined
    have hwords := wordsOf_intercalate (c := '\n') (by decide)
      (List.splitOnP_ne_nil (· == '\n') s.toList)
    rw [hjoined] at hwords
    rw [words_eq, hwords, split, List.map_flatMap, List.flatMap_map]
    simp only [words_eq, String.toList_ofList]
  obtain ⟨l, last, hlast⟩ := List.eq_nil_or_concat (split (· == '\n') s) |>.resolve_left (by
    simp [split])
  have hend : (((some last).filter (· ≠ "")).toList).flatMap words = words last := by
    by_cases hempty : last = ""
    · subst hempty
      rfl
    · simp [Option.filter, hempty]
  have hstrip : (l.map stripCr).flatMap words = l.flatMap words := by
    simp only [List.flatMap_map, words_stripCr]
  rw [← hsplit, lines, hlast, List.concat_eq_append, List.dropLast_concat, List.getLast?_concat,
    List.flatMap_append, List.flatMap_append, hend, hstrip, List.flatMap_singleton]

theorem wordsOf_cons (hc : isWhitespace c = true) (l : List Char) :
    wordsOf (c :: l) = wordsOf l := by
  have hempty : wordsOf ([] ++ c :: l) = wordsOf [] ++ wordsOf l := wordsOf_append hc
  exact hempty

/-- A word up to white space, or up to the end, comes first. -/
theorem wordsOf_word {w : List Char} (hne : w ≠ []) (hw : ∀ d ∈ w, isWhitespace d = false) :
    wordsOf w = [w] := by
  rw [wordsOf, List.splitOnP_eq_singleton hw, List.filter_cons_of_pos (by simpa using hne),
    List.filter_nil]

theorem wordsOf_dropWhile (l : List Char) : wordsOf (l.dropWhile isWhitespace) = wordsOf l := by
  induction l with
  | nil => rfl
  | cons c l ih =>
    rw [List.dropWhile_cons]
    split
    · rename_i hc
      rw [ih, wordsOf_cons hc]
    · rfl

theorem wordsOf_rdropWhile (l : List Char) : wordsOf (l.rdropWhile isWhitespace) = wordsOf l := by
  induction l using List.reverseRecOn with
  | nil => rfl
  | append_singleton l c ih =>
    by_cases hc : isWhitespace c = true
    · have hnone : wordsOf [] = [] := rfl
      rw [List.rdropWhile_concat_pos _ _ _ hc, ih, wordsOf_append hc, hnone, List.append_nil]
    · rw [List.rdropWhile_concat_neg _ _ _ hc]

@[simp] theorem words_trim (s : String) : words (trim s) = words s := by
  rw [words_eq, words_eq, toList_trim, wordsOf_rdropWhile, wordsOf_dropWhile]

end Words

section Lines
variable {ls : List String}

theorem toList_unlines_cons (l : String) (ls : List String) :
    (unlines (l :: ls)).toList = l.toList ++ '\n' :: (unlines ls).toList := by
  simp [unlines]

/-- Writing lines and reading them gives them back, without carriage returns at their ends. -/
theorem lines_unlines (h : ∀ l ∈ ls, '\n' ∉ l.toList) : lines (unlines ls) = ls.map stripCr := by
  have hsplit : split (· == '\n') (unlines ls) = ls ++ [""] := by
    induction ls with
    | nil => rfl
    | cons l ls ih =>
      obtain ⟨hl, hls⟩ := List.forall_mem_cons.mp h
      have hfree : ∀ x ∈ l.toList, (x == '\n') = false := by
        intro x hx
        exact beq_false_of_ne fun heq => hl (heq ▸ hx)
      have htail := ih hls
      rw [split] at htail ⊢
      rw [toList_unlines_cons, List.splitOnP_append_cons_of_forall_mem hfree '\n' rfl,
        List.map_cons, htail, String.ofList_toList, List.cons_append]
  rw [lines, hsplit, List.dropLast_concat, List.getLast?_concat]
  simp [Option.filter]

@[simp] theorem trim_stripCr (s : String) : trim (stripCr s) = trim s := by
  unfold stripCr
  split
  · rename_i hlast
    obtain ⟨before, hbefore⟩ := List.getLast?_eq_some_iff.mp hlast
    apply String.toList_inj.mp
    rw [toList_trim, toList_trim, String.toList_ofList, hbefore, List.dropLast_concat,
      ← dropWhile_rdropWhile, ← dropWhile_rdropWhile, List.rdropWhile_concat_pos _ _ _ (by decide)]
  · rfl

end Lines

end InodeVpn.Lib
