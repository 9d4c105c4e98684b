namespace InodeVpn.Lib

/-- A chain that succeeds has succeeded at its first link. -/
theorem bind_ok {ε α β : Type} {x : Except ε α} {f : α → Except ε β} {b : β}
    (h : x >>= f = .ok b) : ∃ a, x = .ok a ∧ f a = .ok b := by
  cases x with
  | error e => cases h
  | ok a => exact ⟨a, rfl, h⟩

/-- The results of a loop that succeeds are those of its rounds. -/
theorem mapM_ok {ε α β : Type} {f : α → Except ε β} {l : List α} {results : List β}
    (h : l.mapM f = .ok results) :
    (∀ a ∈ l, ∃ b ∈ results, f a = .ok b) ∧ ∀ b ∈ results, ∃ a ∈ l, f a = .ok b := by
  induction l generalizing results with
  | nil =>
    cases h
    simp
  | cons a l ih =>
    rw [List.mapM_cons] at h
    obtain ⟨first, hfirst, h⟩ := bind_ok h
    obtain ⟨rest, hrest, h⟩ := bind_ok h
    cases h
    obtain ⟨hrounds, hresults⟩ := ih hrest
    simp only [List.mem_cons, forall_eq_or_imp, exists_eq_or_imp]
    exact ⟨⟨Or.inl hfirst, fun b hb => Or.inr (hrounds b hb)⟩,
      ⟨Or.inl hfirst, fun b hb => Or.inr (hresults b hb)⟩⟩

/-- Renaming errors does not change what succeeds. -/
theorem mapError_ok {ε ε' α : Type} {x : Except ε α} {f : ε → ε'} {a : α} :
    x.mapError f = .ok a ↔ x = .ok a := by
  cases x with
  | error e => exact iff_of_false (fun h => by cases h) fun h => by cases h
  | ok b =>
    constructor <;> intro h <;> cases h <;> rfl

theorem toOption_eq_some {ε α : Type} {x : Except ε α} {a : α} :
    x.toOption = some a ↔ x = .ok a := by
  cases x with
  | error e => exact iff_of_false (fun h => by cases h) fun h => by cases h
  | ok b =>
    constructor <;> intro h <;> cases h <;> rfl

section Stateful
variable {ε σ α β : Type} {x : EStateM ε σ α} {f : α → EStateM ε σ β} {s s' : σ}

/-- The state that a computation leaves, also when it fails. -/
def left : EStateM.Result ε σ α → σ
  | .ok _ s => s
  | .error _ s => s

def isOk : EStateM.Result ε σ α → Bool
  | .ok _ _ => true
  | .error _ _ => false

theorem eq_ok_of_isOk {r : EStateM.Result ε σ Unit} (h : isOk r = true) :
    r = .ok () (left r) := by
  cases r with
  | ok _ s => rfl
  | error e s => cases h

theorem bind_of_ok {a : α} (h : x s = .ok a s') : (x >>= f) s = f a s' := by
  simp only [bind, EStateM.bind, h]

theorem bind_of_error {e : ε} (h : x s = .error e s') : (x >>= f) s = .error e s' := by
  simp only [bind, EStateM.bind, h]

theorem ok_of_bind {b : β} (h : (x >>= f) s = .ok b s') :
    ∃ a s₁, x s = .ok a s₁ ∧ f a s₁ = .ok b s' := by
  cases hx : x s with
  | ok a s₁ => exact ⟨a, s₁, rfl, (bind_of_ok hx).symm.trans h⟩
  | error e s₁ =>
    rw [bind_of_error hx] at h
    cases h

/-- A computation that never fails. -/
def Succeeds (x : EStateM ε σ Unit) : Prop := ∀ s, ∃ s', x s = .ok () s'

section Succeeds
variable {x y : EStateM ε σ Unit}

theorem succeeds_pure : Succeeds (pure () : EStateM ε σ Unit) := fun s => ⟨s, rfl⟩

theorem Succeeds.bind (hx : Succeeds x) (hy : Succeeds y) : Succeeds (do x; y) := by
  intro s
  obtain ⟨s', hfirst⟩ := hx s
  obtain ⟨s'', hrest⟩ := hy s'
  exact ⟨s'', (bind_of_ok hfirst).trans hrest⟩

theorem succeeds_forM {l : List α} {f : α → EStateM ε σ Unit} (hf : ∀ a ∈ l, Succeeds (f a)) :
    Succeeds (l.forM f) := by
  induction l with
  | nil => exact succeeds_pure
  | cons a l ih =>
    exact (hf a List.mem_cons_self).bind (ih fun b hb => hf b (List.mem_cons_of_mem a hb))

end Succeeds

/-- What a computation comes to: `good` where it succeeds, and `bad` where it fails. -/
def Ends (good : α → σ → Prop) (bad : σ → Prop) : EStateM.Result ε σ α → Prop
  | .ok a s => good a s
  | .error _ s => bad s

section Ends
variable {good : β → σ → Prop} {m : α → σ → Prop} {bad : σ → Prop}

theorem Ends.bind (hx : Ends m bad (x s)) (hf : ∀ a s', m a s' → Ends good bad (f a s')) :
    Ends good bad ((x >>= f) s) := by
  cases hrun : x s with
  | ok a s' =>
    rw [hrun] at hx
    rw [bind_of_ok hrun]
    exact hf a s' hx
  | error e s' =>
    rw [hrun] at hx
    rw [bind_of_error hrun]
    exact hx

theorem Ends.imp {good' : β → σ → Prop} {bad' : σ → Prop} {r : EStateM.Result ε σ β}
    (h : Ends good bad r) (hgood : ∀ b s, good b s → good' b s) (hbad : ∀ s, bad s → bad' s) :
    Ends good' bad' r := by
  cases r with
  | ok b s => exact hgood b s h
  | error e s => exact hbad s h

theorem Ends.ok {r : EStateM.Result ε σ β} {b : β} (h : Ends good bad r) (hr : r = .ok b s) :
    good b s := by
  rw [hr] at h
  exact h

/-- What holds at both ends holds of the state that is left. -/
theorem Ends.left {r : EStateM.Result ε σ β} {P : σ → Prop} (h : Ends good bad r)
    (hgood : ∀ b s, good b s → P s) (hbad : ∀ s, bad s → P s) : P (left r) := by
  cases r with
  | ok b s => exact hgood b s h
  | error e s => exact hbad s h

end Ends

end Stateful

end InodeVpn.Lib
