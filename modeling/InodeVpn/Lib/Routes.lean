import Mathlib.Data.List.Induction
import Mathlib.Logic.Function.Basic

namespace InodeVpn.Lib

/-- A routing table: at most one entry for a destination. -/
abbrev Table (D H : Type) := D → Option H

namespace Table
variable {D H : Type} [DecidableEq D]

def replace (T : Table D H) (d : D) (h : H) : Table D H := Function.update T d (some h)

/-- Takes the entry of a destination away if it fits. -/
def remove (T : Table D H) (d : D) (fits : H → Bool) : Table D H :=
  if (T d).any fits then Function.update T d none else T

def installAll (T : Table D H) (entries : List (D × H)) : Table D H :=
  entries.foldl (fun T e => T.replace e.1 e.2) T

def removeAll (T : Table D H) (removals : List (D × (H → Bool))) : Table D H :=
  removals.foldl (fun T r => T.remove r.1 r.2) T

/-- The last entry of a list for a destination. -/
def last (entries : List (D × H)) (d : D) : Option H :=
  (entries.reverse.find? fun e => e.1 = d).map Prod.snd

section Lookup
variable {T : Table D H} {d d' : D} {h : H} {fits : H → Bool} {entries : List (D × H)}
  {removals : List (D × (H → Bool))}

@[simp] theorem last_nil : last ([] : List (D × H)) d = none := rfl

theorem last_append_one :
    last (entries ++ [(d', h)]) d = if d' = d then some h else last entries d := by
  by_cases hd : d' = d <;> simp [last, hd]

theorem last_append {more : List (D × H)} :
    last (entries ++ more) d = (last more d).or (last entries d) := by
  simp only [last, List.reverse_append, List.find?_append]
  cases more.reverse.find? fun e => e.1 = d <;> rfl

theorem last_eq_some_mem (hl : last entries d = some h) : (d, h) ∈ entries := by
  obtain ⟨e, he, rfl⟩ := Option.map_eq_some_iff.mp hl
  have hd := List.find?_some he
  have hmem := List.mem_of_find?_eq_some he
  simp only [decide_eq_true_eq] at hd
  rw [← hd]
  exact List.mem_reverse.mp hmem

theorem last_isSome : (last entries d).isSome = true ↔ d ∈ entries.map Prod.fst := by
  simp only [last, Option.isSome_map, List.find?_isSome, List.mem_reverse, decide_eq_true_eq,
    List.mem_map]

theorem last_eq_none : last entries d = none ↔ d ∉ entries.map Prod.fst := by
  rw [← last_isSome, Option.isSome_iff_ne_none, not_not]

/-- Installing a list leaves the last entry of each destination, and all others. -/
theorem installAll_apply : T.installAll entries d = (last entries d).or (T d) := by
  induction entries using List.reverseRecOn with
  | nil => rfl
  | append_singleton entries e ih =>
    obtain ⟨d', h⟩ := e
    rw [last_append_one]
    simp only [installAll, List.foldl_append, List.foldl_cons, List.foldl_nil, replace] at ih ⊢
    by_cases hd : d' = d
    · subst hd
      simp
    · rw [if_neg hd, ← ih, Function.update_of_ne fun h => hd h.symm]

theorem installAll_append (more : List (D × H)) :
    T.installAll (entries ++ more) = (T.installAll entries).installAll more :=
  List.foldl_append

theorem remove_apply : T.remove d' fits d = if d' = d ∧ (T d).any fits then none else T d := by
  unfold remove
  by_cases hd : d' = d
  · subst hd
    by_cases hfits : (T d').any fits = true <;> simp [hfits]
  · have hne : d ≠ d' := fun h => hd h.symm
    split <;> simp [hd, hne]

/-- Removals take away what fits one of them, and nothing else. -/
theorem removeAll_apply : T.removeAll removals d =
    if removals.any (fun r => r.1 = d ∧ (T d).any r.2) then none else T d := by
  induction removals generalizing T with
  | nil => simp [removeAll]
  | cons r removals ih =>
    have hfold : T.removeAll (r :: removals) = (T.remove r.1 r.2).removeAll removals := rfl
    rw [hfold, ih, remove_apply, List.any_cons]
    by_cases hr : r.1 = d ∧ (T d).any r.2 = true
    · simp [hr]
    · simp only [if_neg hr, decide_eq_false hr, Bool.false_or]

theorem removeAll_append (more : List (D × (H → Bool))) :
    T.removeAll (removals ++ more) = (T.removeAll removals).removeAll more :=
  List.foldl_append

end Lookup

end Table

/-- A network of `w`-bit addresses: the upper `len` bits of its addresses. -/
structure Prefix (w : Nat) where
  len : Nat
  net : Nat
  short : len ≤ w
  fits : net >>> len = 0
  deriving DecidableEq

namespace Prefix
variable {w : Nat}

/-- The network of `len` bits that an address is in. -/
def of (a : BitVec w) (len : Nat) (short : len ≤ w) : Prefix w where
  len
  net := a.toNat >>> (w - len)
  short
  fits := by
    rw [← Nat.shiftRight_add, Nat.sub_add_cancel short]
    exact Nat.shiftRight_eq_zero _ _ a.isLt

def contains (p : Prefix w) (a : BitVec w) : Bool := a.toNat >>> (w - p.len) = p.net

theorem contains_of (a : BitVec w) {len : Nat} (short : len ≤ w) :
    (of a len short).contains a = true := by
  simp [contains, of]

/-- An address is in one network of each length. -/
theorem contains_iff {p : Prefix w} {a : BitVec w} :
    p.contains a = true ↔ p = of a p.len p.short := by
  obtain ⟨len, net, short, fits⟩ := p
  simp [contains, of, eq_comm]

theorem eq_of_contains {p q : Prefix w} {a : BitVec w} (hp : p.contains a = true)
    (hq : q.contains a = true) (hlen : p.len = q.len) : p = q := by
  obtain ⟨len, net, short, fits⟩ := p
  obtain ⟨len', net', short', fits'⟩ := q
  cases hlen
  rw [contains_iff.mp hp, contains_iff.mp hq]

end Prefix

namespace Table
variable {w : Nat} {H : Type}

/-- The entry of the longest network of at most `n` bits that an address is in. -/
def forwardUpTo (T : Table (Prefix w) H) (a : BitVec w) : (n : Nat) → n ≤ w → Option H
  | 0, hn => T (.of a 0 hn)
  | n + 1, hn => (T (.of a (n + 1) hn)).or (T.forwardUpTo a n (Nat.le_of_succ_le hn))

/-- Forwarding by longest-prefix match. -/
def forward (T : Table (Prefix w) H) (a : BitVec w) : Option H :=
  T.forwardUpTo a w (Nat.le_refl w)

theorem forwardUpTo_eq_some {T : Table (Prefix w) H} {a : BitVec w} {h : H} {n : Nat}
    (hn : n ≤ w) : T.forwardUpTo a n hn = some h ↔
      ∃ p, p.contains a = true ∧ p.len ≤ n ∧ T p = some h ∧
        ∀ q, q.contains a = true → p.len < q.len → q.len ≤ n → T q = none := by
  induction n with
  | zero =>
    rw [forwardUpTo]
    constructor
    · intro hT
      exact ⟨_, Prefix.contains_of a hn, Nat.le_refl 0, hT, fun q _ hlt hle => by omega⟩
    · rintro ⟨p, hp, hlen, hT, -⟩
      rw [← Prefix.eq_of_contains hp (Prefix.contains_of a hn) (Nat.le_zero.mp hlen)]
      exact hT
  | succ n ih =>
    rw [forwardUpTo, Option.or_eq_some_iff, ih]
    constructor
    · rintro (hT | ⟨hnone, p, hp, hlen, hT, hlonger⟩)
      · exact ⟨_, Prefix.contains_of a hn, Nat.le_refl _, hT, fun q _ hlt hle =>
          absurd hle (Nat.not_le.mpr hlt)⟩
      · refine ⟨p, hp, Nat.le_succ_of_le hlen, hT, fun q hq hlt hle => ?_⟩
        rcases Nat.le_succ_iff.mp hle with hle | heq
        · exact hlonger q hq hlt hle
        · rw [Prefix.eq_of_contains hq (Prefix.contains_of a hn) heq]
          exact hnone
    · rintro ⟨p, hp, hlen, hT, hlonger⟩
      rcases Nat.le_succ_iff.mp hlen with hle | heq
      · refine Or.inr ⟨hlonger _ (Prefix.contains_of a hn) (Nat.lt_succ_of_le hle) (Nat.le_refl _),
          p, hp, hle, hT, fun q hq hlt hle => hlonger q hq hlt (Nat.le_succ_of_le hle)⟩
      · left
        rw [← Prefix.eq_of_contains hp (Prefix.contains_of a hn) heq]
        exact hT

/-- An address is forwarded by the entry of the longest network it is in. -/
theorem forward_eq_some {T : Table (Prefix w) H} {a : BitVec w} {h : H} :
    T.forward a = some h ↔ ∃ p, p.contains a = true ∧ T p = some h ∧
      ∀ q, q.contains a = true → p.len < q.len → T q = none := by
  rw [forward, forwardUpTo_eq_some]
  constructor
  · rintro ⟨p, hp, -, hT, hlonger⟩
    exact ⟨p, hp, hT, fun q hq hlt => hlonger q hq hlt q.short⟩
  · rintro ⟨p, hp, hT, hlonger⟩
    exact ⟨p, hp, p.short, hT, fun q hq hlt _ => hlonger q hq hlt⟩

theorem forwardUpTo_eq_none {T : Table (Prefix w) H} {a : BitVec w} {n : Nat} (hn : n ≤ w)
    (hT : T.forwardUpTo a n hn = none) : ∀ p, p.contains a = true → p.len ≤ n → T p = none := by
  induction n with
  | zero =>
    intro p hp hlen
    rw [Prefix.eq_of_contains hp (Prefix.contains_of a hn) (Nat.le_zero.mp hlen)]
    exact hT
  | succ n ih =>
    intro p hp hlen
    obtain ⟨hlong, hrest⟩ := Option.or_eq_none_iff.mp hT
    rcases Nat.le_succ_iff.mp hlen with hle | heq
    · exact ih _ hrest p hp hle
    · rw [Prefix.eq_of_contains hp (Prefix.contains_of a hn) heq]
      exact hlong

/-- Where an address goes is a contest of lengths: between the networks whose entries have
a property and those whose entries lack it. -/
theorem forward_iff_longer {T : Table (Prefix w) H} {a : BitVec w} {P : H → Prop} :
    (∃ h, T.forward a = some h ∧ P h) ↔
      ∃ p, p.contains a = true ∧ (∃ h, T p = some h ∧ P h) ∧
        ∀ q, q.contains a = true → (∃ h, T q = some h ∧ ¬ P h) → q.len < p.len := by
  constructor
  · rintro ⟨h, hforward, hP⟩
    obtain ⟨p, hp, hT, hlonger⟩ := forward_eq_some.mp hforward
    refine ⟨p, hp, ⟨h, hT, hP⟩, fun q hq ⟨h', hTq, hnot⟩ => ?_⟩
    rcases Nat.lt_trichotomy q.len p.len with hlt | heq | hgt
    · exact hlt
    · rw [Prefix.eq_of_contains hq hp heq, hT] at hTq
      cases hTq
      exact absurd hP hnot
    · rw [hlonger q hq hgt] at hTq
      cases hTq
  · rintro ⟨p, hp, ⟨h, hT, -⟩, hrival⟩
    cases hforward : T.forward a with
    | none =>
      rw [forwardUpTo_eq_none _ hforward p hp p.short] at hT
      cases hT
    | some hop =>
      obtain ⟨p', hp', hT', hlonger⟩ := forward_eq_some.mp hforward
      refine ⟨hop, rfl, Classical.byContradiction fun hnot => ?_⟩
      have hlt := hrival p' hp' ⟨hop, hT', hnot⟩
      rw [hlonger p hp hlt] at hT
      cases hT

/-- Only the entries of the networks that an address is in decide where it goes. -/
theorem forward_congr {T T' : Table (Prefix w) H} {a : BitVec w}
    (hsame : ∀ p, p.contains a = true → T p = T' p) : T.forward a = T'.forward a := by
  ext h
  rw [forward_eq_some, forward_eq_some]
  refine exists_congr fun p => and_congr_right fun hp => ?_
  rw [hsame p hp]
  refine and_congr_right fun _ => forall_congr' fun q => imp_congr_right fun hq => ?_
  rw [hsame q hq]

section Installed
variable {T : Table (Prefix w) H} {entries : List (Prefix w × H)} {a : BitVec w}

theorem installAll_longer {p : Prefix w}
    (hlongest : ∀ q ∈ entries.map Prod.fst, q.contains a = true → q.len ≤ p.len) {q : Prefix w}
    (hq : q.contains a = true) (hlt : p.len < q.len) : T.installAll entries q = T q := by
  have hnew : last entries q = none :=
    last_eq_none.mpr fun hmem => Nat.not_lt.mpr (hlongest q hmem hq) hlt
  rw [installAll_apply, hnew, Option.none_or]

/-- The longest of the entries that were installed takes an address, unless there was one for a
longer network. -/
theorem forward_installAll {p : Prefix w} {h : H} (hp : p.contains a = true)
    (hlast : last entries p = some h)
    (hlongest : ∀ q ∈ entries.map Prod.fst, q.contains a = true → q.len ≤ p.len)
    (hshort : ∀ q, q.contains a = true → p.len < q.len → T q = none) :
    (T.installAll entries).forward a = some h := by
  refine forward_eq_some.mpr ⟨p, hp, ?_, fun q hq hlt => ?_⟩
  · rw [installAll_apply, hlast, Option.some_or]
  · rw [installAll_longer hlongest hq hlt]
    exact hshort q hq hlt

theorem forward_installAll_of_longer {p q : Prefix w}
    (hlongest : ∀ q ∈ entries.map Prod.fst, q.contains a = true → q.len ≤ p.len)
    (hq : q.contains a = true) (hlt : p.len < q.len) (hT : T q ≠ none) :
    (T.installAll entries).forward a = T.forward a := by
  cases hforward : T.forward a with
  | none => exact absurd (forwardUpTo_eq_none _ hforward q hq q.short) hT
  | some h =>
    obtain ⟨p', hp', hT', hlonger⟩ := forward_eq_some.mp hforward
    have hle : q.len ≤ p'.len := Nat.not_lt.mp fun hgt => hT (hlonger q hq hgt)
    refine forward_eq_some.mpr ⟨p', hp', ?_, fun r hr hgt => ?_⟩
    · rw [installAll_longer hlongest hp' (Nat.lt_of_lt_of_le hlt hle), hT']
    · rw [installAll_longer hlongest hr (by omega)]
      exact hlonger r hr hgt

end Installed

end Table

end InodeVpn.Lib
