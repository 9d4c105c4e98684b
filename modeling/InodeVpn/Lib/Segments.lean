import Mathlib.Data.List.Basic

namespace InodeVpn.Lib
variable {α : Type}

/-- Segments with a separator behind each. -/
def closed (sep : α) (segs : List (List α)) : List α := segs.flatMap (· ++ [sep])

variable {sep : α} {seg last v : List α} {segs : List (List α)}

@[simp] theorem closed_nil : closed sep [] = [] := rfl

@[simp] theorem closed_cons : closed sep (seg :: segs) = seg ++ sep :: closed sep segs := by
  simp [closed]

/-- Nothing is behind the last separator exactly when the text is empty or ends with one. -/
theorem last_eq_nil (hlast : sep ∉ last) :
    last = [] ↔ closed sep segs ++ last = [] ∨ (closed sep segs ++ last).getLast? = some sep := by
  constructor
  · rintro rfl
    rcases List.eq_nil_or_concat segs with rfl | ⟨segs, seg, rfl⟩
    · exact Or.inl rfl
    · exact Or.inr (by simp [closed])
  · rintro (h | h)
    · exact (List.append_eq_nil_iff.mp h).2
    · rcases List.eq_nil_or_concat last with rfl | ⟨last, c, rfl⟩
      · rfl
      · rw [List.concat_eq_append, ← List.append_assoc, List.getLast?_concat] at h
        cases h
        exact absurd (by simp) hlast

variable [DecidableEq α]

/-- Every text is segments with a separator behind each, and a last one. -/
theorem exists_segments (sep : α) (v : List α) :
    ∃ segs last, v = closed sep segs ++ last ∧ (∀ seg ∈ segs, sep ∉ seg) ∧ sep ∉ last := by
  induction v with
  | nil => exact ⟨[], [], rfl, fun seg hseg => absurd hseg List.not_mem_nil, List.not_mem_nil⟩
  | cons c v ih =>
    obtain ⟨segs, last, rfl, hsegs, hlast⟩ := ih
    by_cases hc : c = sep
    · subst hc
      refine ⟨[] :: segs, last, by simp, ?_, hlast⟩
      exact List.forall_mem_cons.mpr ⟨List.not_mem_nil, hsegs⟩
    · have hne : sep ≠ c := fun h => hc h.symm
      cases segs with
      | nil => exact ⟨[], c :: last, rfl, hsegs, by simp [hne, hlast]⟩
      | cons seg segs =>
        obtain ⟨hseg, hrest⟩ := List.forall_mem_cons.mp hsegs
        refine ⟨(c :: seg) :: segs, last, by simp, ?_, hlast⟩
        exact List.forall_mem_cons.mpr ⟨by simp [hne, hseg], hrest⟩

theorem splitOnP_closed (hsegs : ∀ seg ∈ segs, sep ∉ seg) (hlast : sep ∉ last) :
    (closed sep segs ++ last).splitOnP (· == sep) = segs ++ [last] := by
  have hfree : ∀ l : List α, sep ∉ l → ∀ x ∈ l, (x == sep) = false :=
    fun l hl x hx => beq_false_of_ne fun heq => hl (heq ▸ hx)
  induction segs with
  | nil => exact List.splitOnP_eq_singleton (hfree last hlast)
  | cons seg segs ih =>
    obtain ⟨hseg, hrest⟩ := List.forall_mem_cons.mp hsegs
    rw [closed_cons, List.append_assoc, List.cons_append,
      List.splitOnP_append_cons_of_forall_mem (hfree seg hseg) sep (beq_self_eq_true sep),
      ih hrest, List.cons_append]

end InodeVpn.Lib
