import InodeVpn.Lib.Ipv4
import InodeVpn.Routectl.Plan
import Mathlib.Data.List.Basic

namespace InodeVpn.Proofs.Netmask
open InodeVpn.Core Lib Routectl

/-- The word that four dotted octets stand for. -/
def maskOf (s : String) : Option (BitVec 32) :=
  match (split (· == '.') s).mapM parseU8 with
  | some [a, b, c, d] => some (Ipv4Addr.ofOctets a b c d)
  | _ => none

/-- The prefix length that a setting stands for. -/
def Denotes (s : String) (p : Nat) : Prop :=
  (parseU8 s = some p ∧ p ≤ 32) ∨ ∃ mask, maskOf s = some mask ∧ p ≤ 32 ∧ mask = prefixMask 32 p

/-- The function accepts what stands for a prefix length, with that length, and nothing else,
and none of its shifts and subtractions overflows. -/
def Exact (s : String) : Prop :=
  (∀ p, netmaskToPrefix s = .ok p ↔ Denotes s p) ∧ netmaskToPrefixChecked s ≠ none

/-- The masks whose test comes out right: under `255.255.` the contiguous ones but the last,
elsewhere `0.0.0.0` and those with a hole. -/
def Tested (mask : BitVec 32) : Prop :=
  if Ipv4Addr.octet mask 0 = 255 ∧ Ipv4Addr.octet mask 1 = 255 then
    ∃ p, p < 32 ∧ mask = prefixMask 32 p
  else mask = 0#32 ∨ ∀ p, p ≤ 32 → mask ≠ prefixMask 32 p

section Octets
variable {s : String} {a b c d : Nat} {mask : BitVec 32}

theorem parseU8_le {v : Nat} (h : parseU8 s = some v) : v ≤ 255 := by
  simp only [parseU8, parseUnsigned, Option.ite_none_right_eq_some, Option.some.injEq] at h
  obtain ⟨⟨-, -, hle⟩, rfl⟩ := h
  exact hle

theorem ofNat_shl (x k : Nat) : BitVec.ofNat 32 x <<< k = BitVec.ofNat 32 (x <<< k) := by
  apply BitVec.eq_of_toNat_eq
  simp [Nat.shiftLeft_eq]

/-- One more octet joins those before it. -/
theorem or_octet {x : Nat} (k : Nat) (ha : a ≤ 255) :
    BitVec.ofNat 32 (x <<< (8 + k)) ||| (BitVec.ofNat 32 a <<< k) =
      BitVec.ofNat 32 ((x * 256 + a) <<< k) := by
  have hlow : a < 2 ^ 8 := by omega
  rw [ofNat_shl, ← BitVec.ofNat_or, Nat.shiftLeft_add, ← Nat.shiftLeft_or_distrib,
    ← Nat.shiftLeft_add_eq_or_of_lt hlow, Nat.shiftLeft_eq x]

/-- The loop over the octets computes their word. -/
theorem or_octets (ha : a ≤ 255) (hb : b ≤ 255) (hc : c ≤ 255) (hd : d ≤ 255) :
    0#32 ||| (BitVec.ofNat 32 a <<< 24) ||| (BitVec.ofNat 32 b <<< 16) |||
        (BitVec.ofNat 32 c <<< 8) ||| (BitVec.ofNat 32 d <<< 0) =
      Ipv4Addr.ofOctets a b c d := by
  have hnone : 0#32 = BitVec.ofNat 32 (0 <<< (8 + 24)) := rfl
  rw [hnone, or_octet 24 ha, or_octet 16 hb, or_octet 8 hc, or_octet 0 hd]
  simp [Ipv4Addr.ofOctets]

theorem octet_eq_255 (i : Nat) : Ipv4Addr.octet mask i = 255 ↔
    ∀ j, j < 8 → mask.getLsbD (24 - 8 * i + j) = true := by
  have hoctet : Ipv4Addr.octet mask i = (mask >>> (24 - 8 * i)).toNat % 2 ^ 8 := rfl
  constructor
  · intro h j hj
    have hbit : (Ipv4Addr.octet mask i).testBit j = true := by
      rw [h, show (255 : Nat) = 2 ^ 8 - 1 from rfl, Nat.testBit_two_pow_sub_one, decide_eq_true hj]
    rw [hoctet, Nat.testBit_mod_two_pow, decide_eq_true hj, Bool.true_and,
      BitVec.testBit_toNat, BitVec.getLsbD_ushiftRight] at hbit
    exact hbit
  · intro h
    rw [hoctet, show (255 : Nat) = 2 ^ 8 - 1 from rfl]
    apply Nat.eq_of_testBit_eq
    intro j
    rw [Nat.testBit_mod_two_pow, Nat.testBit_two_pow_sub_one, BitVec.testBit_toNat,
      BitVec.getLsbD_ushiftRight]
    by_cases hj : j < 8
    · rw [h j hj, Bool.and_true]
    · rw [decide_eq_false hj, Bool.false_and]

/-- A mask begins with sixteen ones exactly when it begins with `255.255.`. -/
theorem sixteen_le_leadingOnes :
    16 ≤ leadingOnes mask ↔ Ipv4Addr.octet mask 0 = 255 ∧ Ipv4Addr.octet mask 1 = 255 := by
  rw [le_leadingOnes (by omega), octet_eq_255, octet_eq_255]
  constructor
  · intro h
    exact ⟨fun j hj => h _ (by omega) (by omega), fun j hj => h _ (by omega) (by omega)⟩
  · rintro ⟨hfirst, hsecond⟩ i hle hi
    by_cases hi' : 24 ≤ i
    · have hbit := hfirst (i - 24) (by omega)
      rwa [show 24 - 8 * 0 + (i - 24) = i by omega] at hbit
    · have hbit := hsecond (i - 16) (by omega)
      rwa [show 24 - 8 * 1 + (i - 16) = i by omega] at hbit

/-- A number has no separator in it. -/
theorem split_of_number {v : Nat} (h : parseU8 s = some v) : split (· == '.') s = [s] := by
  have hdigits : ∀ c ∈ s.toList, (c == '.') = false := by
    intro c hc
    rcases parseUnsigned_chars h hc with rfl | hdigit
    · rfl
    · exact beq_false_of_ne fun hdot => by simp [hdot] at hdigit
  rw [split, List.splitOnP_eq_singleton hdigits]
  simp

theorem maskOf_of_number {v : Nat} (h : parseU8 s = some v) : maskOf s = none := by
  rw [maskOf, split_of_number h]
  simp [h]

end Octets

section Codes
variable {s : String} {p : Nat} {mask : BitVec 32} {octets : List Nat}

theorem mapM_octets (s : String) (e : Error) :
    ((split (· == '.') s).mapM fun o => (parseU8 o).elim (Except.error e) .ok) =
      ((split (· == '.') s).mapM parseU8).elim (.error e) .ok := by
  induction split (· == '.') s with
  | nil => rfl
  | cons o os ih =>
    rw [List.mapM_cons, List.mapM_cons, ih]
    cases parseU8 o with
    | none => rfl
    | some v => cases os.mapM parseU8 <;> rfl

theorem mapM_parseU8_le {texts : List String} (h : texts.mapM parseU8 = some octets) :
    ∀ v ∈ octets, v ≤ 255 := by
  induction texts generalizing octets with
  | nil =>
    cases h
    exact fun v hv => absurd hv List.not_mem_nil
  | cons text texts ih =>
    rw [List.mapM_cons] at h
    obtain ⟨v, hv, h⟩ := Option.bind_eq_some_iff.mp h
    obtain ⟨vs, hvs, h⟩ := Option.bind_eq_some_iff.mp h
    cases h
    exact List.forall_mem_cons.mpr ⟨parseU8_le hv, ih hvs⟩

/-- The octets of a mask, as the code has them. -/
theorem octets_of_maskOf (h : maskOf s = some mask) : ∃ a b c d,
    (split (· == '.') s).mapM parseU8 = some [a, b, c, d] ∧ mask = Ipv4Addr.ofOctets a b c d ∧
      a ≤ 255 ∧ b ≤ 255 ∧ c ≤ 255 ∧ d ≤ 255 := by
  unfold maskOf at h
  split at h
  · rename_i a b c d hoctets
    cases h
    have hle : ∀ v ∈ [a, b, c, d], v ≤ 255 := mapM_parseU8_le hoctets
    simp only [List.mem_cons, List.not_mem_nil, or_false, forall_eq_or_imp, forall_eq] at hle
    exact ⟨a, b, c, d, hoctets, rfl, hle⟩
  · cases h

theorem length_of_maskOf_none (h : maskOf s = none)
    (hoctets : (split (· == '.') s).mapM parseU8 = some octets) : octets.length ≠ 4 := by
  intro hlength
  obtain ⟨a, b, c, d, rfl⟩ := List.length_eq_four.mp hlength
  simp [maskOf, hoctets] at h

/-- A number up to 32 stands for itself. -/
theorem netmaskToPrefix_number (h : (parseU8 s).filter (· ≤ 32) = some p) :
    netmaskToPrefix s = .ok p ∧ netmaskToPrefixChecked s = some (.ok p) := by
  constructor
  · simp only [netmaskToPrefix, h]
    rfl
  · simp only [netmaskToPrefixChecked, h]

/-- What is neither a number nor four octets is refused. -/
theorem netmaskToPrefix_bad (hnumber : (parseU8 s).filter (· ≤ 32) = none)
    (h : maskOf s = none) :
    ∃ e, netmaskToPrefix s = .error e ∧ netmaskToPrefixChecked s = some (.error e) := by
  refine ⟨.route ("bad netmask: " ++ debugText s), ?_, ?_⟩
  · simp only [netmaskToPrefix, hnumber, mapM_octets]
    cases hoctets : (split (· == '.') s).mapM parseU8 with
    | none => rfl
    | some octets =>
      have hlength := length_of_maskOf_none h hoctets
      simp only [Option.elim_some, bind, Except.bind, if_pos hlength]
      rfl
  · simp only [netmaskToPrefixChecked, hnumber]
    cases hoctets : (split (· == '.') s).mapM parseU8 with
    | none => rfl
    | some octets =>
      have hlength := length_of_maskOf_none h hoctets
      simp [hlength]

theorem leadingOnes_zero : leadingOnes 0#32 = 0 := by decide

/-- The last test is on the number of leading ones alone. -/
theorem test_fails : mask ||| ((1#32 <<< ((~~~mask).clz.toNat % 32)) - 1#32) ≠ BitVec.allOnes 32 ↔
    ¬ 16 ≤ leadingOnes mask := by
  have hle : leadingOnes mask ≤ 32 := leadingOnes_le
  rcases Nat.lt_or_eq_of_le hle with hlt | heq
  · have hcount : (~~~mask).clz.toNat % 32 = leadingOnes mask := Nat.mod_eq_of_lt hlt
    have htest := or_lowOnes_leadingOnes hlt
    rw [hcount, ← lowOnes, ne_eq, htest]
    omega
  · have hfull := leadingOnes_eq_width.mp heq
    subst hfull
    decide

/-- What the code makes of a mask depends on the number of its leading ones alone. -/
theorem netmaskToPrefix_mask (hnumber : (parseU8 s).filter (· ≤ 32) = none)
    (h : maskOf s = some mask) :
    netmaskToPrefix s = if mask = 0#32 ∨ 16 ≤ leadingOnes mask then .ok (leadingOnes mask)
      else .error (.route ("non-contiguous netmask: " ++ debugText s)) := by
  obtain ⟨a, b, c, d, hoctets, rfl, ha, hb, hc, hd⟩ := octets_of_maskOf h
  have hlength : ¬ [a, b, c, d].length ≠ 4 := fun hne => hne rfl
  have hbits : [a, b, c, d].zipIdx.foldl
      (fun bits x => bits ||| (BitVec.ofNat 32 x.1 <<< (24 - 8 * x.2))) 0#32 =
        Ipv4Addr.ofOctets a b c d := or_octets ha hb hc hd
  simp only [netmaskToPrefix, hnumber, mapM_octets, hoctets, Option.elim_some, bind, Except.bind,
    if_neg hlength, hbits]
  generalize Ipv4Addr.ofOctets a b c d = mask
  by_cases hzero : mask = 0#32
  · have hnone : leadingOnes mask = 0 := hzero ▸ leadingOnes_zero
    rw [if_pos hzero, if_pos (Or.inl hzero), hnone]
    rfl
  · rw [if_neg hzero]
    have htest : mask ||| ((1#32 <<< ((~~~mask).clz.toNat % 32)) - 1#32) ≠ BitVec.allOnes 32 ↔
        ¬ 16 ≤ leadingOnes mask := test_fails
    by_cases hhalf : 16 ≤ leadingOnes mask
    · rw [if_pos (Or.inr hhalf), if_neg (fun hne => htest.mp hne hhalf)]
      rfl
    · rw [if_neg (not_or.mpr ⟨hzero, hhalf⟩), if_pos (htest.mpr hhalf)]
      rfl

/-- The loop over the octets shifts by 24, 16, 8 and 0. -/
theorem checked_octets (a b c d : Nat) :
    [a, b, c, d].zipIdx.foldlM (fun bits (x : Nat × Nat) => do
        let count ← checkedSub 24#64 (8#64 * BitVec.ofNat 64 x.2)
        let part ← checkedShl (BitVec.ofNat 32 x.1) count.toNat
        return bits ||| part) 0#32 =
      some ([a, b, c, d].zipIdx.foldl
        (fun bits x => bits ||| (BitVec.ofNat 32 x.1 <<< (24 - 8 * x.2))) 0#32) := by
  simp [checkedSub, checkedShl]

/-- The one overflow is the shift for 32 leading ones. -/
theorem netmaskToPrefixChecked_mask (hnumber : (parseU8 s).filter (· ≤ 32) = none)
    (h : maskOf s = some mask) :
    netmaskToPrefixChecked s = none ↔ mask = BitVec.allOnes 32 := by
  obtain ⟨a, b, c, d, hoctets, rfl, ha, hb, hc, hd⟩ := octets_of_maskOf h
  have hlength : ¬ [a, b, c, d].length ≠ 4 := fun hne => hne rfl
  have hbits : [a, b, c, d].zipIdx.foldl
      (fun bits x => bits ||| (BitVec.ofNat 32 x.1 <<< (24 - 8 * x.2))) 0#32 =
        Ipv4Addr.ofOctets a b c d := or_octets ha hb hc hd
  simp only [netmaskToPrefixChecked, hnumber, hoctets, if_neg hlength, checked_octets, hbits]
  generalize Ipv4Addr.ofOctets a b c d = mask
  simp only [Option.bind_eq_bind, Option.bind_some]
  have hle : leadingOnes mask ≤ 32 := leadingOnes_le
  by_cases hzero : mask = 0#32
  · have hnot : mask ≠ BitVec.allOnes 32 := hzero ▸ by decide
    rw [if_pos hzero]
    exact iff_of_false (Option.some_ne_none _) hnot
  · rw [if_neg hzero, ← leadingOnes_eq_width]
    rcases Nat.lt_or_eq_of_le hle with hlt | heq
    · have hshift : checkedShl 1#32 (~~~mask).clz.toNat = some (1#32 <<< leadingOnes mask) :=
        checkedShl_of_lt hlt
      rw [hshift, Option.bind_some, checkedSub_of_le (one_le_shiftLeft hlt), Option.bind_some]
      split
      · exact iff_of_false (Option.some_ne_none _) (Nat.ne_of_lt hlt)
      · exact iff_of_false (Option.some_ne_none _) (Nat.ne_of_lt hlt)
    · have hshift : checkedShl 1#32 (~~~mask).clz.toNat = none :=
        if_neg (Nat.not_lt.mpr (Nat.le_of_eq heq.symm))
      rw [hshift]
      exact iff_of_true rfl heq

/-- No check fails for a number or for what is refused as such. -/
theorem netmaskToPrefixChecked_of_none
    (h : (parseU8 s).filter (· ≤ 32) ≠ none ∨ maskOf s = none) :
    netmaskToPrefixChecked s ≠ none := by
  by_cases hnumber : (parseU8 s).filter (· ≤ 32) = none
  · obtain ⟨e, -, he⟩ := netmaskToPrefix_bad hnumber (h.resolve_left fun hne => hne hnumber)
    exact he ▸ Option.some_ne_none _
  · obtain ⟨p, hp⟩ := Option.ne_none_iff_exists'.mp hnumber
    exact (netmaskToPrefix_number hp).2 ▸ Option.some_ne_none _

end Codes

section Exact
variable {s : String} {p : Nat} {mask : BitVec 32}

/-- Beside a mask no number is denoted. -/
theorem denotes_mask (h : maskOf s = some mask) :
    Denotes s p ↔ p ≤ 32 ∧ mask = prefixMask 32 p := by
  unfold Denotes
  constructor
  · rintro (⟨hnumber, -⟩ | ⟨mask', hmask, hp⟩)
    · rw [maskOf_of_number hnumber] at h
      cases h
    · rw [h] at hmask
      cases hmask
      exact hp
  · exact fun hp => Or.inr ⟨mask, h, hp⟩

theorem filter_of_mask (h : maskOf s = some mask) : (parseU8 s).filter (· ≤ 32) = none := by
  cases hnumber : parseU8 s with
  | none => rfl
  | some v =>
    rw [maskOf_of_number hnumber] at h
    cases h

/-- A setting that is no dotted mask is read as it should be. -/
theorem exact_of_no_mask (h : maskOf s = none) : Exact s := by
  refine ⟨fun p => ?_, netmaskToPrefixChecked_of_none (Or.inr h)⟩
  have hdenotes : Denotes s p ↔ (parseU8 s).filter (· ≤ 32) = some p := by
    simp [Denotes, h, Option.filter_eq_some_iff]
  rw [hdenotes]
  cases hnumber : (parseU8 s).filter (· ≤ 32) with
  | none =>
    obtain ⟨e, he, -⟩ := netmaskToPrefix_bad hnumber h
    rw [he]
    exact iff_of_false (by simp) (by simp)
  | some v =>
    rw [(netmaskToPrefix_number hnumber).1, Except.ok.injEq, Option.some.injEq]

/-- Read rightly, a mask of `p` leading ones is the one that stands for `p`. -/
theorem eq_prefixMask (h : p ≤ 32 ∧ mask = prefixMask 32 p) : p = leadingOnes mask := by
  rw [h.2, leadingOnes_prefixMask h.1]

/-- Under `255.255.` every mask is accepted, with the number of its leading ones. -/
theorem exact_of_half (h : maskOf s = some mask) (hhalf : 16 ≤ leadingOnes mask) :
    Exact s ↔ ∃ p, p < 32 ∧ mask = prefixMask 32 p := by
  have hle : leadingOnes mask ≤ 32 := leadingOnes_le
  unfold Exact
  rw [netmaskToPrefix_mask (filter_of_mask h) h, if_pos (Or.inr hhalf), ne_eq,
    netmaskToPrefixChecked_mask (filter_of_mask h) h, ← leadingOnes_eq_width]
  constructor
  · rintro ⟨hall, hshort⟩
    have hmask := (denotes_mask h).mp ((hall _).mp rfl)
    exact ⟨leadingOnes mask, by omega, hmask.2⟩
  · rintro ⟨p, hp, hmask⟩
    have heq := eq_prefixMask ⟨Nat.le_of_lt hp, hmask⟩
    refine ⟨fun q => ?_, by omega⟩
    rw [denotes_mask h, Except.ok.injEq]
    constructor
    · rintro rfl
      exact ⟨hle, heq ▸ hmask⟩
    · exact fun hq => (eq_prefixMask hq).symm

theorem exact_of_zero (h : maskOf s = some 0#32) : Exact s := by
  unfold Exact
  rw [netmaskToPrefix_mask (filter_of_mask h) h, if_pos (Or.inl rfl), leadingOnes_zero, ne_eq,
    netmaskToPrefixChecked_mask (filter_of_mask h) h]
  refine ⟨fun q => ?_, by decide⟩
  rw [denotes_mask h, Except.ok.injEq]
  constructor
  · rintro rfl
    exact ⟨Nat.zero_le 32, by decide⟩
  · exact fun hq => leadingOnes_zero.symm.trans (eq_prefixMask hq).symm

/-- Elsewhere every other mask is refused. -/
theorem exact_of_short (h : maskOf s = some mask) (hzero : mask ≠ 0#32)
    (hhalf : ¬ 16 ≤ leadingOnes mask) : Exact s ↔ ∀ p, p ≤ 32 → mask ≠ prefixMask 32 p := by
  unfold Exact
  rw [netmaskToPrefix_mask (filter_of_mask h) h, if_neg (not_or.mpr ⟨hzero, hhalf⟩), ne_eq,
    netmaskToPrefixChecked_mask (filter_of_mask h) h, ← leadingOnes_eq_width]
  constructor
  · rintro ⟨hall, -⟩ p hp hmask
    cases (hall p).mpr ((denotes_mask h).mpr ⟨hp, hmask⟩)
  · refine fun hhole => ⟨fun q => iff_of_false (by simp) fun hq => ?_, by omega⟩
    obtain ⟨hq, hmask⟩ := (denotes_mask h).mp hq
    exact hhole q hq hmask

theorem exact_of_mask (h : maskOf s = some mask) : Exact s ↔ Tested mask := by
  unfold Tested
  by_cases hhalf : 16 ≤ leadingOnes mask
  · rw [if_pos (sixteen_le_leadingOnes.mp hhalf), exact_of_half h hhalf]
  · rw [if_neg (mt sixteen_le_leadingOnes.mpr hhalf)]
    by_cases hzero : mask = 0#32
    · subst hzero
      exact iff_of_true (exact_of_zero h) (Or.inl rfl)
    · rw [exact_of_short h hzero hhalf]
      exact ⟨Or.inr, fun hor => hor.resolve_left hzero⟩

/-- The settings that are read as they should be: those that are no dotted mask, and the masks
whose test comes out right. -/
theorem netmask_exact (s : String) : Exact s ↔ ∀ mask, maskOf s = some mask → Tested mask := by
  cases h : maskOf s with
  | none => exact iff_of_true (exact_of_no_mask h) fun mask hmask => absurd hmask (by simp)
  | some mask =>
    rw [exact_of_mask h]
    constructor
    · rintro htested mask' hmask
      cases hmask
      exact htested
    · exact fun hall => hall mask rfl

/-- A valid mask of eight ones is refused. -/
theorem class_a_refused : ¬ Exact "255.0.0.0" := by
  have hmask : maskOf "255.0.0.0" = some (prefixMask 32 8) := by decide
  rw [exact_of_short hmask (by decide) (by decide)]
  exact fun h => h 8 (by omega) rfl

end Exact

end InodeVpn.Proofs.Netmask
