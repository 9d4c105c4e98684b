import Mathlib.Data.List.Basic

namespace InodeVpn.Lib

section Search
variable {σ α β ι : Type} {fill : σ → α → σ} {done : σ → Bool} {s : σ}

/-- What a loop has gathered that can be left early, with `.error`. -/
def gathered : Except σ σ → σ
  | .ok s | .error s => s

/-- One round of a search, which is left when it is `done`. -/
def fillUntil (fill : σ → α → σ) (done : σ → Bool) (s : σ) (x : α) : Except σ σ :=
  if done (fill s x) then .error (fill s x) else .ok (fill s x)

/-- A loop in a loop is one loop, also where both can be left. -/
theorem foldlM_flatMap (body : σ → β → Except σ σ) (f : α → List β) (xs : List α) :
    (xs.flatMap f).foldlM body s = xs.foldlM (fun s x => (f x).foldlM body s) s := by
  induction xs generalizing s with
  | nil => rfl
  | cons x xs ih =>
    rw [List.flatMap_cons, List.foldlM_append, List.foldlM_cons]
    congr 1
    exact funext fun s => ih

/-- `has i` says that the slot `i` is filled, and `gives i` who fills it. A filled slot stays
filled. -/
def Slots (fill : σ → α → σ) (has : ι → σ → Prop) (gives : ι → α → Prop) : Prop :=
  ∀ i s x, has i (fill s x) ↔ has i s ∨ gives i x

variable {has : ι → σ → Prop} {gives : ι → α → Prop}

theorem Slots.foldl (h : Slots fill has gives) (i : ι) (xs : List α) (s : σ) :
    has i (xs.foldl fill s) ↔ has i s ∨ ∃ x ∈ xs, gives i x := by
  induction xs generalizing s with
  | nil => simp
  | cons x xs ih =>
    rw [List.foldl_cons, ih, h i s x, List.exists_mem_cons_iff]
    exact or_assoc

/-- A search that is left when every slot is filled fills them all if it can. -/
theorem Slots.search (h : Slots fill has gives) (hdone : ∀ s, done s = true ↔ ∀ i, has i s)
    (xs : List α) (s : σ) : (∀ i, has i (gathered (xs.foldlM (fillUntil fill done) s))) ↔
      ∀ i, has i s ∨ ∃ x ∈ xs, gives i x := by
  induction xs generalizing s with
  | nil =>
    refine forall_congr' fun i => ?_
    rw [or_iff_left (by simp)]
    exact Iff.rfl
  | cons x xs ih =>
    have hstep : ∀ i, (has i (fill s x) ∨ ∃ y ∈ xs, gives i y) ↔
        has i s ∨ ∃ y ∈ x :: xs, gives i y := by
      intro i
      rw [h i s x, List.exists_mem_cons_iff]
      exact or_assoc
    rw [List.foldlM_cons, fillUntil]
    split
    · rename_i hleft
      have hall := (hdone _).mp hleft
      exact iff_of_true hall fun i => (hstep i).mp (Or.inl (hall i))
    · exact (ih (fill s x)).trans (forall_congr' hstep)

end Search

section Last
variable {α β : Type} {field : α → Option β} {xs : List α} {x : α}

/-- What the last one says that says anything. -/
def lastOf (field : α → Option β) (xs : List α) : Option β := xs.reverse.findSome? field

theorem lastOf_append_one :
    lastOf field (xs ++ [x]) = (field x).or (lastOf field xs) := by
  rw [lastOf, List.reverse_append, List.findSome?_append]
  cases hx : field x <;> simp [hx, lastOf]

theorem isSome_lastOf : (lastOf field xs).isSome = true ↔ ∃ x ∈ xs, (field x).isSome = true := by
  simp [lastOf, List.findSome?_isSome_iff]

end Last

end InodeVpn.Lib
