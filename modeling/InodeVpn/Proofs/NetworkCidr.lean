import InodeVpn.Routectl.Linux

namespace InodeVpn.Proofs.NetworkCidr
open Lib Routectl.Linux

/-- The prefix length that a text counts as. -/
def prefixBits (len : String) : Nat := min ((parseU32 len).getD 32) 32

/-- The network of `b` bits that an address is in. -/
structure ContainingNetwork (addr : Ipv4Addr) (b : Nat) (m : Ipv4Addr) : Prop where
  agrees : ∀ i < b, m.getMsbD i = addr.getMsbD i
  zeros : ∀ i < 32 - b, m.getLsbD i = false

theorem prefixBits_le (len : String) : prefixBits len ≤ 32 := Nat.min_le_right _ _

/-- Reading a prefix length that was written gives it back. -/
theorem prefixBits_toString : ∀ b ≤ 32, prefixBits (toString b) = b := by
  decide +kernel

theorem containingNetwork_and {addr : Ipv4Addr} {b : Nat} (hb : b ≤ 32) :
    ContainingNetwork addr b (addr &&& prefixMask 32 b) where
  agrees i hi := by rw [getMsbD_and_prefixMask hb, decide_eq_true hi, Bool.and_true]
  zeros _ hi := getLsbD_and_prefixMask hi

section Cidr
variable {ip : String} {addr : Ipv4Addr}

/-- The special case of a mask of no bits. -/
theorem mask_eq (b : Nat) :
    (if b = 0 then 0#32 else BitVec.allOnes 32 <<< (32 - b)) = prefixMask 32 b := by
  split
  · rename_i hzero
    subst hzero
    decide
  · rfl

theorem networkCidr_eq (h : Ipv4Addr.parse ip = some addr) (len : String) :
    networkCidr ip len =
      Ipv4Addr.format (addr &&& prefixMask 32 (prefixBits len)) ++ "/" ++
        toString (prefixBits len) := by
  simp only [networkCidr, h, mask_eq]
  rfl

/-- The shift is by less than the width, since a mask of no bits is a case of its own. -/
theorem networkCidrChecked_eq (ip len : String) :
    networkCidrChecked ip len = some (networkCidr ip len) := by
  have hsub : ∀ b ≤ 32, checkedSub 32#32 (BitVec.ofNat 32 b) = some (BitVec.ofNat 32 (32 - b)) := by
    decide
  unfold networkCidrChecked networkCidr
  cases Ipv4Addr.parse ip with
  | none => rfl
  | some host =>
    have hle : min ((parseU32 len).getD 32) 32 ≤ 32 := prefixBits_le len
    generalize min ((parseU32 len).getD 32) 32 = b at *
    by_cases hzero : b = 0
    · simp only [if_pos hzero]
      rfl
    · have hcount : (BitVec.ofNat 32 (32 - b)).toNat = 32 - b := by
        rw [BitVec.toNat_ofNat, Nat.mod_eq_of_lt (by omega)]
      simp only [if_neg hzero, hsub b hle, Option.bind_eq_bind, Option.bind_some, hcount,
        checkedShl_of_lt (show 32 - b < 32 by omega)]
      rfl

theorem splitOnce_networkCidr (h : Ipv4Addr.parse ip = some addr) (len : String) :
    splitOnce '/' (networkCidr ip len) =
      some (Ipv4Addr.format (addr &&& prefixMask 32 (prefixBits len)),
        toString (prefixBits len)) := by
  have hslash : '/' ∉ (Ipv4Addr.format (addr &&& prefixMask 32 (prefixBits len))).toList := by
    intro hin
    exact absurd (Ipv4Addr.format_chars _ hin) (by decide)
  have htext (b : Nat) (m : String) :
      (m ++ "/" ++ toString b).toList = m.toList ++ '/' :: (toString b).toList := by simp
  rw [networkCidr_eq h, splitOnce_of (htext _ _) hslash, String.ofList_toList,
    String.ofList_toList]

/-- What is a network already is its own. -/
theorem networkCidr_idem (h : Ipv4Addr.parse ip = some addr) (len : String) :
    networkCidr (Ipv4Addr.format (addr &&& prefixMask 32 (prefixBits len)))
      (toString (prefixBits len)) = networkCidr ip len := by
  rw [networkCidr_eq (Ipv4Addr.parse_format _), prefixBits_toString _ (prefixBits_le len),
    BitVec.and_assoc, BitVec.and_self, networkCidr_eq h]

end Cidr

/-- `network_cidr` writes the network that an address is in, and gives it back for the two
halves of what it has written. It never overflows. -/
theorem network_cidr_contains :
    (∀ ip addr len, Ipv4Addr.parse ip = some addr →
      ∃ m, networkCidr ip len = Ipv4Addr.format m ++ "/" ++ toString (prefixBits len) ∧
        ContainingNetwork addr (prefixBits len) m ∧
        ∃ first second, splitOnce '/' (networkCidr ip len) = some (first, second) ∧
          networkCidr first second = networkCidr ip len) ∧
    ∀ ip len, networkCidrChecked ip len = some (networkCidr ip len) := by
  refine ⟨fun ip addr len h => ?_, networkCidrChecked_eq⟩
  exact ⟨_, networkCidr_eq h len, containingNetwork_and (prefixBits_le len), _, _,
    splitOnce_networkCidr h len, networkCidr_idem h len⟩

theorem network_cidr_contains_sample :
    ∃ m, networkCidr "192.168.0.128" "23" =
        Ipv4Addr.format m ++ "/" ++ toString (prefixBits "23") ∧
      ContainingNetwork (Ipv4Addr.ofOctets 192 168 0 128) (prefixBits "23") m ∧
      ∃ first second, splitOnce '/' (networkCidr "192.168.0.128" "23") = some (first, second) ∧
        networkCidr first second = networkCidr "192.168.0.128" "23" :=
  network_cidr_contains.1 "192.168.0.128" _ "23" (by decide +kernel)

end InodeVpn.Proofs.NetworkCidr
