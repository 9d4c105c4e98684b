import Mathlib.Algebra.Ring.Nat

namespace InodeVpn.Lib

/-- `p` one bits, then zero bits. -/
def prefixMask (w p : Nat) : BitVec w := BitVec.allOnes w <<< (w - p)

/-- How many one bits a word begins with. -/
def leadingOnes {w : Nat} (x : BitVec w) : Nat := (~~~x).clz.toNat

/-- The word with its `p` lowest bits set. -/
def lowOnes (w p : Nat) : BitVec w := (1#w <<< p) - 1#w

/-- `<<` where overflow is checked: the count is below the width. -/
def checkedShl {w : Nat} (x : BitVec w) (count : Nat) : Option (BitVec w) :=
  if count < w then some (x <<< count) else none

/-- `-` where overflow is checked. -/
def checkedSub {w : Nat} (x y : BitVec w) : Option (BitVec w) :=
  if y ≤ x then some (x - y) else none

variable {w p k i : Nat} {x y : BitVec w}

section Checked

theorem checkedShl_of_lt (h : p < w) : checkedShl x p = some (x <<< p) := if_pos h

theorem checkedSub_of_le (h : y ≤ x) : checkedSub x y = some (x - y) := if_pos h

end Checked

section Bits

theorem getLsbD_prefixMask (hi : i < w) : (prefixMask w p).getLsbD i = decide (w - p ≤ i) := by
  have hsub : i - (w - p) < w := by omega
  rw [prefixMask, BitVec.getLsbD_shiftLeft, BitVec.getLsbD_allOnes]
  by_cases hlow : i < w - p
  · have hnot : ¬ w - p ≤ i := by omega
    simp only [hlow, hnot, hi, decide_true, decide_false, Bool.not_true, Bool.and_false,
      Bool.false_and]
  · simp only [hlow, hi, hsub, Nat.le_of_not_lt hlow, decide_true, decide_false, Bool.not_false,
      Bool.and_true]

theorem getMsbD_prefixMask (hi : i < w) (hp : p ≤ w) :
    (prefixMask w p).getMsbD i = decide (i < p) := by
  rw [BitVec.getMsbD_eq_getLsbD, decide_eq_true hi, Bool.true_and, getLsbD_prefixMask (by omega)]
  exact decide_eq_decide.mpr (by omega)

/-- Masking keeps the leading bits and clears the others. -/
theorem getMsbD_and_prefixMask (hp : p ≤ w) :
    (x &&& prefixMask w p).getMsbD i = (x.getMsbD i && decide (i < p)) := by
  rw [BitVec.getMsbD_and]
  by_cases hi : i < w
  · rw [getMsbD_prefixMask hi hp]
  · simp [BitVec.getMsbD_of_ge x i (by omega)]

theorem getLsbD_and_prefixMask (hi : i < w - p) : (x &&& prefixMask w p).getLsbD i = false := by
  have hlow : ¬ w - p ≤ i := by omega
  rw [BitVec.getLsbD_and, getLsbD_prefixMask (by omega), decide_eq_false hlow, Bool.and_false]

theorem toNat_one (h : 0 < w) : (1#w).toNat = 1 := by
  rw [BitVec.toNat_ofNat, Nat.mod_eq_of_lt (Nat.one_lt_two_pow (by omega))]

theorem toNat_one_shiftLeft (hp : p < w) : (1#w <<< p).toNat = 2 ^ p := by
  rw [BitVec.toNat_shiftLeft, toNat_one (by omega), Nat.one_shiftLeft,
    Nat.mod_eq_of_lt (Nat.pow_lt_pow_right (by omega) hp)]

theorem one_le_shiftLeft (hp : p < w) : 1#w ≤ 1#w <<< p := by
  rw [BitVec.le_def, toNat_one (by omega), toNat_one_shiftLeft hp]
  exact Nat.two_pow_pos p

theorem toNat_lowOnes (hp : p < w) : (lowOnes w p).toNat = 2 ^ p - 1 := by
  rw [lowOnes, BitVec.toNat_sub_of_le (one_le_shiftLeft hp), toNat_one_shiftLeft hp,
    toNat_one (by omega)]

theorem getLsbD_lowOnes (hp : p < w) : (lowOnes w p).getLsbD i = decide (i < p) := by
  rw [BitVec.getLsbD, toNat_lowOnes hp, Nat.testBit_two_pow_sub_one]

/-- Setting the low bits fills the word exactly when the others are set already. -/
theorem or_lowOnes_eq_allOnes (hp : p < w) :
    x ||| lowOnes w p = BitVec.allOnes w ↔ ∀ i, p ≤ i → i < w → x.getLsbD i = true := by
  constructor
  · intro h i hle hi
    have hbit : (x ||| lowOnes w p).getLsbD i = true := by rw [h]; simp [hi]
    have hhigh : ¬ i < p := by omega
    rwa [BitVec.getLsbD_or, getLsbD_lowOnes hp, decide_eq_false hhigh, Bool.or_false] at hbit
  · intro h
    apply BitVec.eq_of_getLsbD_eq
    intro i hi
    rw [BitVec.getLsbD_or, getLsbD_lowOnes hp, BitVec.getLsbD_allOnes]
    by_cases hlow : i < p
    · simp [hlow, hi]
    · simp [hi, h i (by omega) hi]

end Bits

section LeadingOnes

theorem leadingOnes_le : leadingOnes x ≤ w := by
  have h := BitVec.le_def.mp (BitVec.clz_le (x := ~~~x))
  rwa [BitVec.natCast_eq_ofNat, BitVec.toNat_ofNat, Nat.mod_eq_of_lt Nat.lt_two_pow_self] at h

/-- The bits counted are set. -/
theorem leading_one (hle : w - leadingOnes x ≤ i) (hi : i < w) : x.getLsbD i = true := by
  have hzero : (~~~x).getLsbD (w - leadingOnes x + (i - (w - leadingOnes x))) = false :=
    BitVec.getLsbD_false_of_clzAuxRec (fun j hj => BitVec.getLsbD_of_ge _ j (by omega)) _
  rw [Nat.add_sub_cancel' hle, BitVec.getLsbD_not] at hzero
  simpa [hi] using hzero

/-- The bit behind them is not. -/
theorem first_zero (h : leadingOnes x < w) : x.getLsbD (w - 1 - leadingOnes x) = false := by
  have hne : ~~~x ≠ 0#w := by
    intro hzero
    have hall := BitVec.clz_eq_iff_eq_zero.mpr hzero
    rw [leadingOnes, hall, BitVec.natCast_eq_ofNat, BitVec.toNat_ofNat,
      Nat.mod_eq_of_lt Nat.lt_two_pow_self] at h
    exact Nat.lt_irrefl w h
  have hone := BitVec.getLsbD_true_clz_of_ne_zero (by omega) hne
  rw [BitVec.getLsbD_not] at hone
  exact Bool.not_eq_true' _ |>.mp (Bool.and_eq_true_iff.mp hone).2

theorem le_leadingOnes (hk : k ≤ w) :
    k ≤ leadingOnes x ↔ ∀ i, w - k ≤ i → i < w → x.getLsbD i = true := by
  constructor
  · exact fun hle i hi => leading_one (by omega)
  · intro h
    apply Nat.le_of_not_lt
    intro hlt
    have hbit := h (w - 1 - leadingOnes x) (by omega) (by omega)
    rw [first_zero (by omega)] at hbit
    cases hbit

theorem leadingOnes_eq_width : leadingOnes x = w ↔ x = BitVec.allOnes w := by
  have hle : leadingOnes x ≤ w := leadingOnes_le
  constructor
  · intro h
    apply BitVec.eq_of_getLsbD_eq
    intro i hi
    rw [leading_one (by omega) hi, BitVec.getLsbD_allOnes, decide_eq_true hi]
  · rintro rfl
    have hall : w ≤ leadingOnes (BitVec.allOnes w) :=
      (le_leadingOnes (Nat.le_refl w)).mpr fun i _ hi => by simp [hi]
    omega

theorem leadingOnes_prefixMask (hp : p ≤ w) : leadingOnes (prefixMask w p) = p := by
  apply Nat.le_antisymm
  · apply Nat.le_of_not_lt
    intro hlt
    have hle : leadingOnes (prefixMask w p) ≤ w := leadingOnes_le
    have hbit := leading_one (x := prefixMask w p) (i := w - 1 - p) (by omega) (by omega)
    rw [getLsbD_prefixMask (by omega), decide_eq_true_eq] at hbit
    omega
  · apply (le_leadingOnes hp).mpr
    intro i hle hi
    rw [getLsbD_prefixMask hi, decide_eq_true hle]

/-- A test that sets as many low bits as there are leading ones asks whether these are half of
the word. -/
theorem or_lowOnes_leadingOnes (h : leadingOnes x < w) :
    x ||| lowOnes w (leadingOnes x) = BitVec.allOnes w ↔ w ≤ 2 * leadingOnes x := by
  rw [or_lowOnes_eq_allOnes h]
  constructor
  · intro hbits
    apply Nat.le_of_not_lt
    intro hlt
    have hbit := hbits (w - 1 - leadingOnes x) (by omega) (by omega)
    rw [first_zero h] at hbit
    cases hbit
  · exact fun hhalf i hle hi => leading_one (by omega) hi

end LeadingOnes

end InodeVpn.Lib
