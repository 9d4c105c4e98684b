import InodeVpn.Lib.Routes
import InodeVpn.Lib.Text

namespace InodeVpn.Lib

/-- `std::net::Ipv4Addr`. -/
abbrev Ipv4Addr := BitVec 32

namespace Ipv4Addr

/-- One number of a dotted address: one to three digits, no leading zero, at most 255. -/
def parseOctet (s : String) : Option Nat :=
  let digits := s.toList
  let value := Nat.ofDigitChars 10 digits 0
  if digits ≠ [] ∧ digits.length ≤ 3 ∧ digits.all Char.isDigit ∧
      (digits.head? = some '0' → digits.length = 1) ∧ value ≤ 255 then some value
  else none

def ofOctets (a b c d : Nat) : Ipv4Addr :=
  BitVec.ofNat 32 (((a * 256 + b) * 256 + c) * 256 + d)

def octet (addr : Ipv4Addr) (i : Nat) : Nat := (addr >>> (24 - 8 * i)).toNat % 256

/-- `impl FromStr for Ipv4Addr`. -/
def parse (s : String) : Option Ipv4Addr := do
  match split (· == '.') s with
  | [a, b, c, d] =>
    return ofOctets (← parseOctet a) (← parseOctet b) (← parseOctet c) (← parseOctet d)
  | _ => none

/-- `impl Display for Ipv4Addr`. -/
def format (addr : Ipv4Addr) : String :=
  toString (addr.octet 0) ++ "." ++ toString (addr.octet 1) ++ "." ++
    toString (addr.octet 2) ++ "." ++ toString (addr.octet 3)

/-- `a.b.c.d/len` without host bits. -/
def network (text : String) : Option (Prefix 32) := do
  let (addr, len) ← splitOnce '/' text
  let addr ← parse addr
  let len ← parseU8 len
  if short : len ≤ 32 then
    if addr <<< len = 0#32 then some (.of addr len short) else none
  else none

/-- An address and a prefix length that make a network: no host bits. -/
def IsNetwork (addr len : String) : Prop :=
  ∃ a n, parse addr = some a ∧ parseU8 len = some n ∧ n ≤ 32 ∧ a <<< n = 0#32

section Network
variable {addr len text : String} {c : Char}

theorem parse_chars {a : Ipv4Addr} (h : parse addr = some a) (hc : c ∈ addr.toList) :
    c = '.' ∨ c.isDigit = true := by
  have hpieces : ∀ piece ∈ split (· == '.') addr, (parseOctet piece).isSome = true := by
    unfold parse at h
    split at h
    · rename_i first second third fourth hsplit
      rw [hsplit]
      simp only [Option.bind_eq_bind, Option.bind_eq_some_iff] at h
      obtain ⟨_, h₁, _, h₂, _, h₃, _, h₄, -⟩ := h
      simp [h₁, h₂, h₃, h₄]
    · cases h
  by_cases hdot : c = '.'
  · exact Or.inl hdot
  · have hmem : ∃ piece ∈ split (· == '.') addr, c ∈ piece.toList :=
      mem_split hc (beq_false_of_ne hdot)
    obtain ⟨piece, hpiece, hin⟩ := hmem
    have hdigits := hpieces piece hpiece
    simp only [parseOctet, Option.isSome_ite, List.all_eq_true] at hdigits
    exact Or.inr (hdigits.2.2.1 c hin)

theorem network_isSome : (network text).isSome = true ↔
    ∃ addr len, splitOnce '/' text = some (addr, len) ∧ IsNetwork addr len := by
  cases hsplit : splitOnce '/' text with
  | none => simp [network, hsplit]
  | some parts =>
    obtain ⟨addr, len⟩ := parts
    have hnetwork : (network text).isSome = true ↔ IsNetwork addr len := by
      cases haddr : parse addr with
      | none => simp [network, hsplit, haddr, IsNetwork]
      | some a =>
        cases hlen : parseU8 len with
        | none => simp [network, hsplit, haddr, hlen, IsNetwork]
        | some n =>
          by_cases hshort : n ≤ 32 <;> by_cases hhost : a <<< n = 0#32 <;>
            simp [network, hsplit, haddr, hlen, IsNetwork, hshort, hhost]
    rw [hnetwork]
    constructor
    · intro h
      exact ⟨addr, len, rfl, h⟩
    · rintro ⟨addr', len', heq, h⟩
      cases heq
      exact h

theorem splitOnce_join (h : IsNetwork addr len) :
    splitOnce '/' (addr ++ "/" ++ len) = some (addr, len) := by
  obtain ⟨a, -, haddr, -⟩ := h
  have hslash : '/' ∉ addr.toList := fun hmem => absurd (parse_chars haddr hmem) (by decide)
  have htext : (addr ++ "/" ++ len).toList = addr.toList ++ '/' :: len.toList := by simp
  rw [splitOnce_of htext hslash, String.ofList_toList, String.ofList_toList]

/-- Joining an address and a length gives a network just when they make one. -/
theorem network_join : (network (addr ++ "/" ++ len)).isSome = true ↔ IsNetwork addr len := by
  rw [network_isSome]
  constructor
  · rintro ⟨addr', len', hsplit, h⟩
    by_cases hslash : '/' ∈ addr.toList
    · -- the length would begin before the slash that was added
      obtain ⟨before, after, hs, hbefore⟩ := List.eq_append_cons_of_mem hslash
      have htext : (addr ++ "/" ++ len).toList = before ++ '/' :: (after ++ '/' :: len.toList) := by
        simp [hs]
      rw [splitOnce_of htext hbefore] at hsplit
      cases hsplit
      obtain ⟨-, n, -, hlen, -⟩ := h
      exact absurd (parseUnsigned_chars (c := '/') hlen (by simp)) (by decide)
    · have htext : (addr ++ "/" ++ len).toList = addr.toList ++ '/' :: len.toList := by simp
      rw [splitOnce_of htext hslash, String.ofList_toList, String.ofList_toList] at hsplit
      cases hsplit
      exact h
  · intro h
    exact ⟨addr, len, splitOnce_join h, h⟩

end Network

section Format

theorem parseOctet_toString : ∀ n < 256, parseOctet (toString n) = some n := by
  decide +kernel

theorem octet_lt (addr : Ipv4Addr) (i : Nat) : addr.octet i < 256 := Nat.mod_lt _ (by decide)

theorem ofOctets_octet (addr : Ipv4Addr) :
    ofOctets (addr.octet 0) (addr.octet 1) (addr.octet 2) (addr.octet 3) = addr := by
  apply BitVec.eq_of_toNat_eq
  have hlt := addr.isLt
  simp only [ofOctets, octet, BitVec.toNat_ofNat, BitVec.toNat_ushiftRight,
    Nat.shiftRight_eq_div_pow]
  omega

/-- Reading an address that was written gives it back. -/
theorem parse_format (addr : Ipv4Addr) : parse (format addr) = some addr := by
  have hsplit : split (· == '.') (format addr) = [toString (addr.octet 0),
      toString (addr.octet 1), toString (addr.octet 2), toString (addr.octet 3)] := by
    have hjoined : format addr = (String.singleton '.').intercalate [toString (addr.octet 0),
        toString (addr.octet 1), toString (addr.octet 2), toString (addr.octet 3)] := by
      apply String.toList_inj.mp
      simp [format]
    rw [hjoined]
    have hfree (n : Nat) : ∀ c ∈ (toString n).toList, (c == '.') = false := by
      intro c hc
      refine beq_false_of_ne ?_
      rintro rfl
      exact absurd (toString_digits hc) (by decide)
    apply split_intercalate rfl (List.cons_ne_nil _ _)
    simp only [List.forall_mem_cons]
    exact ⟨hfree _, hfree _, hfree _, hfree _, by simp⟩
  simp only [parse, hsplit, parseOctet_toString _ (octet_lt addr _)]
  exact congrArg some (ofOctets_octet addr)

theorem format_chars (addr : Ipv4Addr) {c : Char} (hc : c ∈ (format addr).toList) :
    c = '.' ∨ c.isDigit = true :=
  parse_chars (parse_format addr) hc

end Format

end Ipv4Addr

end InodeVpn.Lib
