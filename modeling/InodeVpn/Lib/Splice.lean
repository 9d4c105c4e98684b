import Mathlib.Data.List.Infix

namespace InodeVpn.Lib
variable {α : Type} {s u v u' v' m : List α}

/-- No end of the list begins it, but for the whole list. -/
def Unbordered (s : List α) : Prop := ∀ k < s.length, 0 < k → ¬ s.drop k <+: s

/-- What a first separator is further from lies between two of them. -/
theorem Unbordered.infix_of_further (hs : Unbordered s) (hm : m ≠ [])
    (h : s ++ v = m ++ (s ++ v')) : s <:+: m ∧ s <:+: v := by
  have hpos : 0 < m.length := List.length_pos_iff.mpr hm
  rcases List.append_eq_append_iff.mp h with ⟨rest, rfl, rfl⟩ | ⟨rest, hrest, hover⟩
  · exact ⟨(List.prefix_append s rest).isInfix, rest, v', List.append_assoc rest s v'⟩
  · -- `rest` ends the first separator and begins the second
    have hdrop : s.drop m.length = rest := by rw [hrest, List.drop_left]
    by_cases hshort : m.length < s.length
    · have hbegins : rest <+: s := by
        have hlength := congrArg List.length hrest
        rw [List.length_append] at hlength
        have hwithin : rest <+: s ++ v' := hover ▸ List.prefix_append rest v
        exact List.prefix_of_prefix_length_le hwithin (List.prefix_append s v') (by omega)
      exact absurd (hdrop ▸ hbegins) (hs m.length hshort hpos)
    · have hnil : rest = [] := by rw [← hdrop, List.drop_of_length_le (Nat.not_lt.mp hshort)]
      subst hnil
      rw [List.append_nil] at hrest
      subst hrest
      rw [List.nil_append] at hover
      exact ⟨List.infix_refl s, (hover ▸ List.prefix_append s v').isInfix⟩

/-- Two ways to splice the same text are one way, or each has the separator in one part. -/
theorem Unbordered.splice_eq (hs : Unbordered s) (h : u ++ s ++ v = u' ++ s ++ v') :
    (u = u' ∧ v = v') ∨ (s <:+: u ∧ s <:+: v') ∨ (s <:+: u' ∧ s <:+: v) := by
  rw [List.append_assoc, List.append_assoc] at h
  rcases List.append_eq_append_iff.mp h with ⟨m, rfl, hm⟩ | ⟨m, rfl, hm⟩
  · by_cases hnil : m = []
    · subst hnil
      exact Or.inl ⟨(List.append_nil u).symm, List.append_cancel_left hm⟩
    · obtain ⟨hin, hrest⟩ := hs.infix_of_further hnil hm
      exact Or.inr (Or.inr ⟨hin.trans (List.suffix_append u m).isInfix, hrest⟩)
  · by_cases hnil : m = []
    · subst hnil
      exact Or.inl ⟨List.append_nil u', List.append_cancel_left hm.symm⟩
    · obtain ⟨hin, hrest⟩ := hs.infix_of_further hnil hm
      exact Or.inr (Or.inl ⟨hin.trans (List.suffix_append u' m).isInfix, hrest⟩)

/-- A separator in one of the parts gives another way to splice the same text. -/
theorem exists_splice (hs : s ≠ []) (h : s <:+: u ∨ s <:+: v) :
    ∃ u' v', u' ++ s ++ v' = u ++ s ++ v ∧ u' ≠ u := by
  have hpos : 0 < s.length := List.length_pos_iff.mpr hs
  rcases h with ⟨a, b, rfl⟩ | ⟨a, b, rfl⟩
  · refine ⟨a, b ++ s ++ v, by simp, fun heq => ?_⟩
    have hlength := congrArg List.length heq
    simp only [List.length_append] at hlength
    omega
  · refine ⟨u ++ s ++ a, b, by simp, fun heq => ?_⟩
    have hlength := congrArg List.length heq
    simp only [List.length_append] at hlength
    omega

end InodeVpn.Lib
