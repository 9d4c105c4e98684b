import InodeVpn.Lib.Replace
import Mathlib.Data.String.Basic

namespace InodeVpn.Lib

section Pieces
variable {α : Type}

theorem modifyHead_nil_append (pieces : List (List α)) :
    pieces.modifyHead ([] ++ ·) = pieces := by
  cases pieces <;> rfl

variable [DecidableEq α]

/-- What is behind the first occurrence of `s`. -/
def behind (s : List α) : List α → Option (List α)
  | [] => if s = [] then some [] else none
  | c :: t => if s.isPrefixOf (c :: t) then some ((c :: t).drop s.length) else behind s t

theorem eq_of_behind {s t r : List α} (h : behind s t = some r) : ∃ l, t = l ++ s ++ r := by
  induction t with
  | nil =>
    unfold behind at h
    split at h
    · rename_i hs
      cases h
      exact ⟨[], by rw [hs]; rfl⟩
    · cases h
  | cons c t ih =>
    unfold behind at h
    split at h
    · rename_i hprefix
      cases h
      obtain ⟨rest, hrest⟩ := List.isPrefixOf_iff_prefix.mp hprefix
      refine ⟨[], ?_⟩
      rw [← hrest, List.drop_left, List.nil_append]
    · obtain ⟨l, rfl⟩ := ih h
      exact ⟨c :: l, rfl⟩

/-- The pieces between the occurrences of `s`, after so many elements are passed over. -/
def splitFrom (s : List α) : Nat → List α → List (List α)
  | _, [] => [[]]
  | 0, c :: t =>
    if s.isPrefixOf (c :: t) then [] :: splitFrom s (s.length - 1) t
    else (splitFrom s 0 t).modifyHead (c :: ·)
  | k + 1, _ :: t => splitFrom s k t

/-- `str::split` at a pattern that is not empty. -/
def splitPattern (s t : List α) : List (List α) := splitFrom s 0 t

variable {s t u : List α} {c : α}

theorem splitFrom_eq {k : Nat} : splitFrom s k t = splitPattern s (t.drop k) := by
  induction t generalizing k with
  | nil => cases k <;> rfl
  | cons c t ih =>
    cases k with
    | zero => rfl
    | succ k => exact ih

@[simp] theorem splitPattern_nil : splitPattern s [] = [[]] := rfl

/-- A piece ends before an occurrence. -/
theorem splitPattern_found (hs : s ≠ []) : splitPattern s (s ++ t) = [] :: splitPattern s t := by
  cases s with
  | nil => exact absurd rfl hs
  | cons c s =>
    have hprefix : (c :: s).isPrefixOf (c :: (s ++ t)) = true :=
      List.isPrefixOf_iff_prefix.mpr (List.prefix_append (c :: s) t)
    rw [splitPattern, List.cons_append, splitFrom, if_pos hprefix, splitFrom_eq]
    simp

/-- Where there is none, the piece goes on. -/
theorem splitPattern_kept (h : ¬ s <+: c :: t) :
    splitPattern s (c :: t) = (splitPattern s t).modifyHead (c :: ·) := by
  rw [splitPattern, splitFrom, if_neg (mt List.isPrefixOf_iff_prefix.mp h)]
  rfl

theorem splitPattern_of_not_infix (hs : s ≠ []) (h : ¬ s <:+: t) : splitPattern s t = [t] := by
  induction t using replace_induction hs with
  | nil => rfl
  | found t ih => exact absurd (List.prefix_append s t).isInfix h
  | kept c t hkept ih =>
    rw [splitPattern_kept hkept, ih (not_infix_of_cons h)]
    rfl

/-- The first occurrence cannot begin before an element that `s` does not have. -/
theorem splitPattern_append (hs : s ≠ []) (hc : c ∉ s) (hu : ¬ s <:+: u) :
    splitPattern s (u ++ c :: (s ++ t)) = (u ++ [c]) :: splitPattern s t := by
  induction u with
  | nil =>
    have hkept : ¬ s <+: c :: (s ++ t) := by
      intro hprefix
      have hnil := prefix_append_cons (l := []) hc hprefix
      exact hs (List.prefix_nil.mp hnil)
    rw [List.nil_append, splitPattern_kept hkept, splitPattern_found hs]
    rfl
  | cons d u ih =>
    have hkept : ¬ s <+: d :: (u ++ c :: (s ++ t)) := by
      intro hprefix
      exact hu (prefix_append_cons (l := d :: u) hc hprefix).isInfix
    rw [List.cons_append, splitPattern_kept hkept, ih (not_infix_of_cons hu)]
    rfl

/-- What is before the first occurrence. -/
theorem splitPattern_cons (hs : s ≠ []) (t : List α) :
    ∃ piece pieces, splitPattern s t = piece :: pieces ∧ piece <+: t ∧ ¬ s <:+: piece := by
  have hnil : ¬ s <:+: [] := fun hin => hs (List.infix_nil.mp hin)
  induction t using replace_induction hs with
  | nil => exact ⟨[], [], rfl, List.nil_prefix, hnil⟩
  | found t ih => exact ⟨[], splitPattern s t, splitPattern_found hs, List.nil_prefix, hnil⟩
  | kept c t hkept ih =>
    obtain ⟨piece, pieces, hsplit, hprefix, hfree⟩ := ih
    have hcons : c :: piece <+: c :: t := List.cons_prefix_cons.mpr ⟨rfl, hprefix⟩
    refine ⟨c :: piece, pieces, ?_, hcons, fun hin => ?_⟩
    · rw [splitPattern_kept hkept, hsplit]
      rfl
    · rcases List.infix_cons_iff.mp hin with hbegin | hbeyond
      · exact hkept (hbegin.trans hcons)
      · exact hfree hbeyond

end Pieces

section Positions
open String

/-- The position behind these characters. -/
def posAfter (l : List Char) : Pos.Raw := ⟨utf8Len l⟩

variable {c : Char} {l k m r : List Char}

@[simp] theorem posAfter_nil : posAfter [] = 0 := rfl

theorem atEnd_posAfter : (posAfter l).atEnd (ofList (l ++ r)) = true ↔ r = [] :=
  atEnd_of_valid l r

theorem get_posAfter : (posAfter l).get (ofList (l ++ c :: r)) = c := get_of_valid l (c :: r)

theorem next_posAfter : (posAfter l).next (ofList (l ++ c :: r)) = posAfter (l ++ [c]) := by
  rw [posAfter, posAfter, next_of_valid]
  simp

theorem extract_posAfter :
    (posAfter l).extract (ofList (l ++ m ++ r)) (posAfter (l ++ m)) = ofList m := by
  rw [posAfter, posAfter, utf8Len_append, extract_of_valid]

theorem unoffsetBy_posAfter : (posAfter (l ++ k)).unoffsetBy (posAfter k) = posAfter l := by
  simp [posAfter, Pos.Raw.unoffsetBy]

end Positions

section SplitOn
open String

variable {c d x : Char} {l m k k' r t sep : List Char} {acc : List String}

/-- The search of `splitOn`: behind the pieces that are done come the piece `m` and a part `k` of
the separator. -/
def splitSearch (sep l m k r : List Char) (acc : List String) : List String :=
  splitOnAux (ofList (l ++ m ++ k ++ r)) (ofList sep) (posAfter l) (posAfter (l ++ m ++ k))
    (posAfter k) acc

theorem splitSearch_end : splitSearch sep l m k [] acc = acc.reverse ++ [ofList (m ++ k)] := by
  have hend : (posAfter (l ++ m ++ k)).atEnd (ofList (l ++ m ++ k ++ [])) = true :=
    atEnd_posAfter.mpr rfl
  have hextract := extract_posAfter (l := l) (m := m ++ k) (r := [])
  rw [← List.append_assoc] at hextract
  unfold splitSearch splitOnAux
  simp only [hend, if_true, hextract, List.reverse_cons]

/-- One character: the separator is complete, or goes on, or has to be looked for again behind
the first character that was taken for a part of it. -/
theorem splitSearch_cons (hsep : sep = k ++ c :: k')
    (hx : k ++ d :: r = x :: t) : splitSearch sep l m k (d :: r) acc =
      if d = c then
        if k' = [] then splitSearch sep (l ++ m ++ sep) [] [] r (ofList m :: acc)
        else splitSearch sep l m (k ++ [d]) r acc
      else splitSearch sep l (m ++ [x]) [] t acc := by
  have hend : ¬(posAfter (l ++ m ++ k)).atEnd (ofList (l ++ m ++ k ++ d :: r)) = true :=
    fun h => List.cons_ne_nil d r (atEnd_posAfter.mp h)
  have hget := get_posAfter (l := l ++ m ++ k) (c := d) (r := r)
  have hnext := next_posAfter (l := l ++ m ++ k) (c := d) (r := r)
  have hget' := get_posAfter (l := k) (c := c) (r := k')
  have hnext' := next_posAfter (l := k) (c := c) (r := k')
  have hend' : (posAfter (k ++ [c])).atEnd (ofList (k ++ c :: k')) = true ↔ k' = [] := by
    rw [List.append_cons]
    exact atEnd_posAfter
  rw [← hsep] at hget' hnext' hend'
  have hback : (posAfter (l ++ m)).next (ofList (l ++ m ++ k ++ d :: r)) =
      posAfter (l ++ m ++ [x]) := by
    rw [List.append_assoc, hx, next_posAfter]
  unfold splitSearch
  rw [splitOnAux.eq_def]
  simp only [if_neg hend, hget, hget', hnext, hnext', beq_iff_eq, hend', unoffsetBy_posAfter, hback]
  by_cases hdc : d = c
  · subst hdc
    rw [if_pos rfl, if_pos rfl]
    by_cases hk : k' = []
    · have hextract := extract_posAfter (l := l) (m := m) (r := k ++ d :: r)
      have hoffset := unoffsetBy_posAfter (l := l ++ m) (k := k ++ [d])
      rw [← List.append_assoc] at hextract hoffset
      subst hk
      rw [if_pos rfl, if_pos rfl, hoffset, hextract, hsep]
      simp
    · rw [if_neg hk, if_neg hk]
      simp
  · rw [if_neg hdc, if_neg hdc]
    simp [hx]

/-- The search takes the text apart, whatever part of the separator is found already. -/
theorem splitSearch_eq (hsep : sep = k ++ c :: k') : splitSearch sep l m k r acc =
    acc.reverse ++ ((splitPattern sep (k ++ r)).modifyHead (m ++ ·)).map ofList := by
  -- A character less to read, or the same with less of the separator to find.
  induction hn : (k.length + r.length) * sep.length + k'.length using Nat.strongRecOn
    generalizing l m k k' r c acc with
  | ind n ih =>
    have hne : sep ≠ [] := by simp [hsep]
    obtain ⟨c₀, k₀, hsep₀⟩ := List.exists_cons_of_ne_nil hne
    have hlength₀ : sep.length = k₀.length + 1 := congrArg List.length hsep₀
    cases r with
    | nil =>
      have hfree : ¬ sep <:+: k := by
        intro hin
        have hlength := hin.length_le
        rw [hsep, List.length_append, List.length_cons] at hlength
        omega
      rw [splitSearch_end, List.append_nil, splitPattern_of_not_infix hne hfree]
      rfl
    | cons d r =>
      obtain ⟨x, t, hx⟩ : ∃ x t, k ++ d :: r = x :: t := List.exists_cons_of_ne_nil (by simp)
      have hlength : k.length + (r.length + 1) = t.length + 1 := by
        simpa using congrArg List.length hx
      have hless : t.length * sep.length + k₀.length < n := by
        rw [← hn, List.length_cons, hlength, Nat.succ_mul]
        omega
      rw [splitSearch_cons hsep hx]
      by_cases hdc : d = c
      · subst hdc
        rw [if_pos rfl]
        cases k' with
        | nil =>
          have hwhole : k ++ d :: r = sep ++ r := by simp [hsep]
          have hmul := Nat.mul_le_mul_right sep.length (show r.length ≤ t.length by omega)
          rw [if_pos rfl, ih _ (by simp; omega) hsep₀ rfl, hwhole, splitPattern_found hne]
          rw [List.nil_append, modifyHead_nil_append]
          simp
        | cons c' k' =>
          have hgoes : sep = (k ++ [d]) ++ c' :: k' := by simp [hsep]
          have hless' : ((k ++ [d]).length + r.length) * sep.length + k'.length < n := by
            have hsame : (k ++ [d]).length + r.length = k.length + (d :: r).length := by
              simp
              omega
            rw [← hn, hsame]
            simp only [List.length_cons]
            omega
          rw [if_neg (List.cons_ne_nil c' k'), ih _ hless' hgoes rfl, List.append_assoc,
            List.singleton_append]
      · have hkept : ¬ sep <+: x :: t := by
          rw [← hx, hsep, List.prefix_append_right_inj]
          exact fun h => hdc (List.cons_prefix_cons.mp h).1.symm
        rw [if_neg hdc, ih _ (by simpa using hless) hsep₀ rfl, hx, splitPattern_kept hkept,
          List.modifyHead_modifyHead]
        simp [Function.comp_def]

/-- `splitOn` is `splitPattern`. -/
theorem splitOn_eq (s : String) {sep : String} (hsep : sep ≠ "") :
    s.splitOn sep = (splitPattern sep.toList s.toList).map ofList := by
  have hne : sep.toList ≠ [] := fun hnil => hsep (String.toList_eq_nil_iff.mp hnil)
  obtain ⟨c, k', hcons⟩ := List.exists_cons_of_ne_nil hne
  have hsearch : splitSearch sep.toList [] [] [] s.toList [] =
      [].reverse ++ ((splitPattern sep.toList ([] ++ s.toList)).modifyHead ([] ++ ·)).map ofList :=
    splitSearch_eq hcons
  rw [List.nil_append, modifyHead_nil_append, List.reverse_nil, List.nil_append] at hsearch
  rw [← hsearch]
  unfold splitOn splitSearch
  simp [hsep]

end SplitOn

end InodeVpn.Lib
