import Mathlib.Data.List.Infix

namespace InodeVpn.Lib
variable {α : Type}

section Occurrences
variable {s t u x mid : List α} {a b c : α}

/-- Induction along a replacement. -/
theorem replace_induction {motive : List α → Prop} (hs : s ≠ []) (nil : motive [])
    (found : ∀ t, motive t → motive (s ++ t))
    (kept : ∀ c t, ¬ s <+: c :: t → motive t → motive (c :: t)) (t : List α) : motive t := by
  induction hn : t.length using Nat.strongRecOn generalizing t with
  | ind n ih =>
    cases t with
    | nil => exact nil
    | cons c t =>
      by_cases h : s <+: c :: t
      · obtain ⟨u, hu⟩ := h
        have hpos := List.length_pos_iff.mpr hs
        have hlength : s.length + u.length = n := by rw [← hn, ← hu, List.length_append]
        rw [← hu]
        exact found u (ih u.length (by omega) u rfl)
      · rw [List.length_cons] at hn
        exact kept c t h (ih t.length (by omega) t rfl)

theorem not_infix_of_cons (h : ¬ s <:+: c :: t) : ¬ s <:+: t :=
  fun hin => h (hin.trans (List.infix_cons List.infix_rfl))

/-- A list without `c` lies on one side of it. -/
theorem infix_append_cons {l l' : List α} (hc : c ∉ x) (h : x <:+: l ++ c :: l') :
    x <:+: l ∨ x <:+: l' := by
  obtain ⟨p, q, hpq⟩ := h
  rw [List.append_assoc] at hpq
  rcases List.append_eq_append_iff.mp hpq with ⟨m, rfl, hm⟩ | ⟨m, rfl, hm⟩
  · rcases List.append_eq_append_iff.mp hm with ⟨m', rfl, -⟩ | ⟨m', rfl, hm'⟩
    · exact Or.inl ⟨p, m', by simp⟩
    · cases m' with
      | nil => exact Or.inl ⟨p, [], by simp⟩
      | cons d m' =>
        rw [List.cons_append, List.cons.injEq] at hm'
        exact absurd (by simp [hm'.1]) hc
  · cases m with
    | nil =>
      cases x with
      | nil => exact Or.inl (List.nil_infix)
      | cons d x =>
        rw [List.nil_append, List.cons_append, List.cons.injEq] at hm
        exact absurd (by simp [hm.1]) hc
    | cons d m =>
      rw [List.cons_append, List.cons.injEq] at hm
      exact Or.inr ⟨m, q, by simp [hm.2]⟩

/-- A list without `c` that begins there ends before it. -/
theorem prefix_append_cons {l l' : List α} (hc : c ∉ x) (h : x <+: l ++ c :: l') : x <+: l := by
  obtain ⟨q, hq⟩ := h
  rcases List.append_eq_append_iff.mp hq with ⟨m, rfl, -⟩ | ⟨m, rfl, hm⟩
  · exact List.prefix_append x m
  · cases m with
    | nil => rw [List.append_nil]
    | cons d m =>
      rw [List.cons_append, List.cons.injEq] at hm
      exact absurd (by simp [hm.1]) hc

/-- A list that avoids the ends of what is put in, and is not in the middle of it, is found
beyond it. -/
theorem infix_beyond (ha : a ∉ x) (hb : b ∉ x) (hmid : ¬ x <:+: mid)
    (h : x <:+: (a :: mid ++ [b]) ++ u) : x <:+: u := by
  have hsplit : (a :: mid ++ [b]) ++ u = (a :: mid) ++ b :: u := by simp
  rw [hsplit] at h
  rcases infix_append_cons hb h with h | h
  · have hnil : a :: mid = [] ++ a :: mid := rfl
    rw [hnil] at h
    rcases infix_append_cons ha h with h | h
    · rw [List.infix_nil.mp h] at hmid
      exact absurd List.nil_infix hmid
    · exact absurd h hmid
  · exact h

end Occurrences

variable [DecidableEq α]

/-- Replaces the occurrences of `s` from the left on, after so many elements are passed over. -/
def replaceFrom (s r : List α) : Nat → List α → List α
  | _, [] => []
  | 0, c :: t =>
    if s.isPrefixOf (c :: t) then r ++ replaceFrom s r (s.length - 1) t
    else c :: replaceFrom s r 0 t
  | k + 1, _ :: t => replaceFrom s r k t

/-- `str::replace` of a pattern that is not empty. -/
def replace (s r t : List α) : List α := replaceFrom s r 0 t

section Replace
variable {s r t u x : List α} {a b c : α}

theorem replaceFrom_eq {k : Nat} : replaceFrom s r k t = replace s r (t.drop k) := by
  induction t generalizing k with
  | nil => cases k <;> rfl
  | cons c t ih =>
    cases k with
    | zero => rfl
    | succ k => exact ih

@[simp] theorem replace_nil : replace s r [] = [] := rfl

/-- An occurrence is replaced. -/
theorem replace_found (hs : s ≠ []) : replace s r (s ++ t) = r ++ replace s r t := by
  cases s with
  | nil => exact absurd rfl hs
  | cons c s =>
    have hprefix : (c :: s).isPrefixOf (c :: (s ++ t)) = true :=
      List.isPrefixOf_iff_prefix.mpr (List.prefix_append (c :: s) t)
    rw [replace, List.cons_append, replaceFrom, if_pos hprefix, replaceFrom_eq]
    simp

/-- Where there is none, the element is kept. -/
theorem replace_kept (h : ¬ s <+: c :: t) : replace s r (c :: t) = c :: replace s r t := by
  rw [replace, replaceFrom, if_neg (mt List.isPrefixOf_iff_prefix.mp h)]
  rfl

theorem replace_eq_self (hs : s ≠ []) (h : ¬ s <:+: t) : replace s r t = t := by
  induction t using replace_induction hs with
  | nil => rfl
  | found t ih => exact absurd (List.prefix_append s t).isInfix h
  | kept c t hkept ih =>
    rw [replace_kept hkept, ih (not_infix_of_cons h)]

theorem prefix_of_replace (hs : s ≠ []) (ha : a ∉ x) (h : x <+: replace s (a :: r) t) :
    x <+: t := by
  induction t using replace_induction hs generalizing x with
  | nil => exact h
  | found t ih =>
    rw [replace_found hs, List.cons_append] at h
    cases x with
    | nil => exact List.nil_prefix
    | cons d x =>
      rw [(List.cons_prefix_cons.mp h).1] at ha
      exact absurd List.mem_cons_self ha
  | kept c t hkept ih =>
    rw [replace_kept hkept] at h
    cases x with
    | nil => exact List.nil_prefix
    | cons d x =>
      obtain ⟨rfl, hx⟩ := List.cons_prefix_cons.mp h
      exact List.cons_prefix_cons.mpr ⟨rfl, ih (fun hd => ha (List.mem_cons_of_mem d hd)) hx⟩

section Fenced
variable {mid : List α}

/-- Nothing of this kind comes into being by a replacement. -/
theorem infix_of_replace (hs : s ≠ []) (ha : a ∉ x) (hb : b ∉ x) (hmid : ¬ x <:+: mid)
    (h : x <:+: replace s (a :: mid ++ [b]) t) : x <:+: t := by
  induction t using replace_induction hs with
  | nil => exact h
  | found t ih =>
    rw [replace_found hs] at h
    exact (ih (infix_beyond ha hb hmid h)).trans (List.suffix_append s t).isInfix
  | kept c t hkept ih =>
    have hwhole := replace_kept (r := a :: mid ++ [b]) hkept
    rcases List.infix_cons_iff.mp (hwhole ▸ h) with hx | hx
    · rw [← hwhole] at hx
      exact (prefix_of_replace hs ha hx).isInfix
    · exact (ih hx).trans (List.infix_cons List.infix_rfl)

/-- What is replaced is gone. -/
theorem not_infix_replace (hs : s ≠ []) (ha : a ∉ s) (hb : b ∉ s) (hmid : ¬ s <:+: mid) :
    ¬ s <:+: replace s (a :: mid ++ [b]) t := by
  induction t using replace_induction hs with
  | nil => exact fun h => hs (List.infix_nil.mp h)
  | found t ih =>
    rw [replace_found hs]
    exact fun h => ih (infix_beyond ha hb hmid h)
  | kept c t hkept ih =>
    have hwhole := replace_kept (r := a :: mid ++ [b]) hkept
    intro h
    rcases List.infix_cons_iff.mp (hwhole ▸ h) with hx | hx
    · rw [← hwhole] at hx
      exact hkept (prefix_of_replace hs ha hx)
    · exact ih hx

end Fenced

end Replace

end InodeVpn.Lib
