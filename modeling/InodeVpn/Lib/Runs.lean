import Mathlib.Data.List.Induction

namespace InodeVpn.Lib

/-- A labelled system: an action is either not enabled, or moves the state and
leaves at most one effect in the trace. -/
structure System (σ α ε : Type) where
  init : σ → Prop
  step : σ → α → Option (σ × Option ε)

namespace System
variable {σ α ε : Type} {M : System σ α ε} {ok : σ → α → Bool}

/-- Trace and final state of a run whose every step meets `ok`. The condition
sees the state before the step and the action, never what the step computes. -/
inductive Reach (M : System σ α ε) (ok : σ → α → Bool) : List ε → σ → Prop
  | init {s : σ} (start : M.init s) : Reach M ok [] s
  | step {t : List ε} {s s' : σ} {a : α} {e : Option ε} (run : Reach M ok t s)
      (meets : ok s a = true) (moves : M.step s a = some (s', e)) :
      Reach M ok (t ++ e.toList) s'

/-- Every run: no step is excluded. -/
abbrev Reachable (M : System σ α ε) : List ε → σ → Prop := Reach M (fun _ _ => true)

/-- What holds at the start and is kept by every step holds of every run. The step
may use whatever is known of the run so far. -/
theorem Reach.invariant {I : List ε → σ → Prop} (hinit : ∀ s, M.init s → I [] s)
    (hstep : ∀ t s a s' e, Reach M ok t s → I t s → ok s a = true →
      M.step s a = some (s', e) → I (t ++ e.toList) s')
    {t : List ε} {s : σ} (h : Reach M ok t s) : I t s := by
  induction h with
  | init start => exact hinit _ start
  | step run meets moves ih => exact hstep _ _ _ _ _ run ih meets moves

/-- The system as it goes on from one of its states. -/
def startedAt (M : System σ α ε) (s : σ) : System σ α ε := { M with init := (· = s) }

/-- A run that goes on is one run. -/
theorem Reach.append {t t' : List ε} {s s' : σ} (h : Reach M ok t s)
    (later : Reach (M.startedAt s) ok t' s') : Reach M ok (t ++ t') s' := by
  refine later.invariant (I := fun t' s' => Reach M ok (t ++ t') s') ?_ ?_
  · rintro _ rfl
    simpa using h
  · intro t' s' a s'' e _ hrun hok moves
    rw [← List.append_assoc]
    exact hrun.step hok moves

/-- Replays a list of actions, checking `ok` before each of them. -/
def replay (M : System σ α ε) (ok : σ → α → Bool) : σ → List α → Option (σ × List ε)
  | s, [] => some (s, [])
  | s, a :: as =>
    if ok s a then
      match M.step s a with
      | none => none
      | some (s', e) =>
        match M.replay ok s' as with
        | none => none
        | some (s'', es) => some (s'', e.toList ++ es)
    else none

theorem replay_cons {s s' : σ} {a : α} {e : Option ε} {as : List α} (hok : ok s a = true)
    (hs : M.step s a = some (s', e)) : M.replay ok s (a :: as) =
      (M.replay ok s' as).map fun r => (r.1, e.toList ++ r.2) := by
  simp only [System.replay, hok, if_true, hs]
  cases M.replay ok s' as <;> rfl

theorem Reach.replay {t es : List ε} {s s' : σ} {as : List α} (h : Reach M ok t s)
    (hr : M.replay ok s as = some (s', es)) : Reach M ok (t ++ es) s' := by
  induction as generalizing t s es with
  | nil =>
    simp only [System.replay, Option.some.injEq, Prod.mk.injEq] at hr
    obtain ⟨rfl, rfl⟩ := hr
    simpa using h
  | cons a as ih =>
    simp only [System.replay] at hr
    split at hr
    · rename_i hok
      split at hr
      · cases hr
      · rename_i s₁ e hs
        split at hr
        · cases hr
        · rename_i s₂ es₂ hr₂
          simp only [Option.some.injEq, Prod.mk.injEq] at hr
          obtain ⟨rfl, rfl⟩ := hr
          rw [← List.append_assoc]
          exact ih (.step h hok hs) hr₂
    · cases hr

/-- A run found by replaying actions, with a property checked at its end. -/
theorem exists_reach (ok : σ → α → Bool) {s : σ} (as : List α) (P : List ε → σ → Bool)
    (hs : M.init s)
    (h : (M.replay ok s as).any (fun r => P r.2 r.1) = true) :
    ∃ t s', Reach M ok t s' ∧ P t s' = true := by
  obtain ⟨⟨s', t⟩, hr, hp⟩ := (Option.any_eq_true _ _).mp h
  have hstart : Reach M ok [] s := .init hs
  exact ⟨t, s', by simpa using hstart.replay hr, hp⟩

/-- The system with a history beside its state, which its own steps do not see. -/
def watched {γ : Type} (M : System σ α ε) (start : γ) (watch : γ → σ → α → Option ε → γ) :
    System (γ × σ) α ε where
  init s := s.1 = start ∧ M.init s.2
  step s a := (M.step s.2 a).map fun r => ((watch s.1 s.2 a r.2, r.1), r.2)

section Watched
variable {γ : Type} {start : γ} {watch : γ → σ → α → Option ε → γ} {ok' : γ × σ → α → Bool}
  {s s' : γ × σ} {a : α} {e : Option ε} {t : List ε}

theorem watched_step : (M.watched start watch).step s a = some (s', e) ↔
    M.step s.2 a = some (s'.2, e) ∧ s'.1 = watch s.1 s.2 a e := by
  obtain ⟨g', s'⟩ := s'
  simp only [watched, Option.map_eq_some_iff, Prod.mk.injEq]
  constructor
  · rintro ⟨⟨s₁, e₁⟩, hs, ⟨rfl, rfl⟩, rfl⟩
    exact ⟨hs, rfl⟩
  · rintro ⟨hs, rfl⟩
    exact ⟨(s', e), hs, ⟨rfl, rfl⟩, rfl⟩

end Watched

/-- The system that remembers its trace. -/
abbrev logged (M : System σ α ε) : System (List ε × σ) α ε :=
  M.watched [] fun t _ _ e => t ++ e.toList

theorem Reach.logged {ok' : List ε × σ → α → Bool} {t : List ε} {s : List ε × σ}
    (h : Reach M.logged ok' t s) : s.1 = t := by
  induction h with
  | init start => exact start.1
  | step run meets moves ih => rw [(watched_step.mp moves).2, ih]

end System

/-- Each effect of a trace satisfies `P` against the effects before it. -/
def Always {ε : Type} (P : List ε → ε → Prop) (t : List ε) : Prop :=
  ∀ t₁ e t₂, t = t₁ ++ e :: t₂ → P t₁ e

section Trace
variable {ε : Type} {P : List ε → ε → Prop} {t : List ε}

theorem always_nil : Always P [] := by
  intro t₁ e t₂ h
  simp at h

/-- A place in a trace with one more effect is the new effect, or an old place. -/
theorem append_one_split {t t₁ t₂ : List ε} {x y : ε} (h : t ++ [x] = t₁ ++ y :: t₂) :
    (t₁ = t ∧ y = x) ∨ ∃ t₃, t₂ = t₃ ++ [x] ∧ t = t₁ ++ y :: t₃ := by
  rcases List.eq_nil_or_concat t₂ with rfl | ⟨t₃, z, rfl⟩
  · obtain ⟨rfl, hxy⟩ := List.append_inj' h rfl
    cases hxy
    exact Or.inl ⟨rfl, rfl⟩
  · have h' : t ++ [x] = (t₁ ++ y :: t₃) ++ [z] := by simpa using h
    obtain ⟨rfl, hxz⟩ := List.append_inj' h' rfl
    cases hxz
    exact Or.inr ⟨t₃, by simp, rfl⟩

theorem Always.append {e : Option ε} (h : Always P t) (he : ∀ x ∈ e, P t x) :
    Always P (t ++ e.toList) := by
  cases e with
  | none => simpa using h
  | some x =>
    intro t₁ y t₂ heq
    rcases append_one_split heq with ⟨rfl, rfl⟩ | ⟨t₃, -, rfl⟩
    · exact he y rfl
    · exact h t₁ y t₃ rfl

/-- The last effect of the trace that satisfies `p` or `q` satisfies `p`. -/
def since (p q : ε → Bool) (t : List ε) : Bool :=
  t.foldl (fun b e => p e || (b && !q e)) false

@[simp] theorem since_nil (p q : ε → Bool) : since p q [] = false := rfl

@[simp] theorem since_append_one (p q : ε → Bool) (t : List ε) (e : ε) :
    since p q (t ++ [e]) = (p e || (since p q t && !q e)) := by
  simp [since, List.foldl_append]

/-- One step of a run either brings the `p` effect, or keeps the one there was. -/
theorem since_append {p q : ε → Bool} {t : List ε} {e : Option ε} :
    since p q (t ++ e.toList) = true ↔
      (∃ x, e = some x ∧ p x = true) ∨ (since p q t = true ∧ ∀ x ∈ e, q x = false) := by
  cases e with
  | none => simp
  | some x => simp [Bool.or_eq_true, Bool.and_eq_true]

/-- What `since` computes: a `p` effect with no `q` effect after it. -/
theorem since_iff (p q : ε → Bool) (t : List ε) :
    since p q t = true ↔ ∃ t₁ e t₂, t = t₁ ++ e :: t₂ ∧ p e = true ∧ ∀ x ∈ t₂, q x = false := by
  induction t using List.reverseRecOn with
  | nil => simp
  | append_singleton t x ih =>
    rw [since_append_one, Bool.or_eq_true, Bool.and_eq_true, ih]
    constructor
    · rintro (hx | ⟨⟨t₁, e, t₂, rfl, he, ht₂⟩, hq⟩)
      · exact ⟨t, x, [], rfl, hx, by simp⟩
      · refine ⟨t₁, e, t₂ ++ [x], by simp, he, ?_⟩
        intro y hy
        rcases List.mem_append.mp hy with hy | hy
        · exact ht₂ y hy
        · rw [List.mem_singleton.mp hy]
          simpa using hq
    · rintro ⟨t₁, e, t₂, heq, he, ht₂⟩
      rcases append_one_split heq with ⟨rfl, rfl⟩ | ⟨t₃, rfl, rfl⟩
      · exact Or.inl he
      · exact Or.inr ⟨⟨t₁, e, t₃, rfl, he, fun y hy => ht₂ y (by simp [hy])⟩,
          by simpa using ht₂ x (by simp)⟩

end Trace

/-- What every step's effect satisfies, every effect of a run satisfies. -/
theorem System.Reach.always {σ α ε : Type} {M : System σ α ε} {ok : σ → α → Bool}
    {P : List ε → ε → Prop}
    (hstep : ∀ t s a s' e, Reach M ok t s → ok s a = true → M.step s a = some (s', e) →
      ∀ x ∈ e, P t x)
    {t : List ε} {s : σ} (h : Reach M ok t s) : Always P t :=
  h.invariant (I := fun t _ => Always P t) (fun _ _ => always_nil)
    (fun _ _ _ _ _ run hall meets moves => hall.append (hstep _ _ _ _ _ run meets moves))

end InodeVpn.Lib
