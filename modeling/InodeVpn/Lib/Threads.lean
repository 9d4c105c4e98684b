import InodeVpn.Lib.Runs

namespace InodeVpn.Lib

/-- What one atomic section of a thread does: the shared memory it leaves, the
thread's own continuation, a thread it spawns, and what an observer sees. -/
structure Move (σ τ ε : Type) where
  shared : σ
  self : τ
  spawned : Option τ := none
  effect : Option ε := none

/-- The code of a multi-threaded program. `next` runs one atomic section of the
thread `me`, given what the outside world answers (`ω`) and the identity that a
spawned thread would get; `none` means that the thread cannot run now. -/
structure Program (σ τ ω ε : Type) where
  init : σ → τ → Prop
  arrives : σ → τ → Bool
  next : (o : ω) → (me fresh : Nat) → σ → τ → Option (Move σ τ ε)

/-- Threads are never removed, so an index identifies a thread for ever. -/
structure Pool (σ τ : Type) where
  shared : σ
  threads : List τ

/-- The scheduler's choice: run one section of a thread, or let a new thread in. -/
inductive Act (τ ω : Type) where
  | run (thread : Nat) (outside : ω)
  | arrive (t : τ)

namespace Pool
variable {σ τ : Type}

def count (q : τ → Bool) (p : Pool σ τ) : Nat := p.threads.countP q

def running (p : Pool σ τ) (thread : Nat) (t : τ) : Prop := p.threads[thread]? = some t

/-- The pool after the section `m` of the thread `i`. -/
def after {ε : Type} (p : Pool σ τ) (i : Nat) (m : Move σ τ ε) : Pool σ τ :=
  ⟨m.shared, p.threads.set i m.self ++ m.spawned.toList⟩

def join (p : Pool σ τ) (t : τ) : Pool σ τ := ⟨p.shared, p.threads ++ [t]⟩

theorem count_pos {q : τ → Bool} {p : Pool σ τ} {i : Nat} {t : τ}
    (ht : p.threads[i]? = some t) (hq : q t = true) : 0 < p.count q :=
  List.countP_pos_iff.mpr ⟨t, List.mem_of_getElem? ht, hq⟩

theorem count_eq_zero {q : τ → Bool} {p : Pool σ τ} :
    p.count q = 0 ↔ ∀ t ∈ p.threads, q t = false := by
  simp [count, List.countP_eq_zero]

/-- A class of one thread at most has no two. -/
theorem eq_of_count_le_one {q : τ → Bool} {p : Pool σ τ} (h : p.count q ≤ 1) {i j : Nat} {t u : τ}
    (hi : p.threads[i]? = some t) (hj : p.threads[j]? = some u) (ht : q t = true)
    (hu : q u = true) : i = j := by
  obtain ⟨shared, threads⟩ := p
  simp only [count] at h hi hj
  induction threads generalizing i j with
  | nil => cases hi
  | cons x xs ih =>
    rw [List.countP_cons] at h
    cases i with
    | zero =>
      cases hi
      cases j with
      | zero => rfl
      | succ j =>
        have hpos : 0 < xs.countP q := List.countP_pos_iff.mpr ⟨u, List.mem_of_getElem? hj, hu⟩
        rw [if_pos ht] at h
        omega
    | succ i =>
      cases j with
      | zero =>
        cases hj
        have hpos : 0 < xs.countP q := List.countP_pos_iff.mpr ⟨t, List.mem_of_getElem? hi, ht⟩
        rw [if_pos hu] at h
        omega
      | succ j => rw [ih (by omega) hi hj]

/-- One class of threads gains what the mover and its child add to it, and loses
what the mover was before. -/
theorem count_after {ε : Type} {p : Pool σ τ} {i : Nat} {t : τ} (q : τ → Bool)
    (ht : p.threads[i]? = some t) (m : Move σ τ ε) :
    (p.after i m).count q + (q t).toNat =
      p.count q + (q m.self).toNat + m.spawned.toList.countP q := by
  obtain ⟨hi, rfl⟩ := List.getElem?_eq_some_iff.mp ht
  have hpos : q p.threads[i] = true → 0 < p.threads.countP q := fun hq =>
    List.countP_pos_iff.mpr ⟨_, List.getElem_mem hi, hq⟩
  simp only [after, count, List.countP_append, List.countP_set hi]
  cases hq : q p.threads[i] with
  | true =>
    have hcount := hpos hq
    cases q m.self
    all_goals simp only [Bool.toNat_false, Bool.toNat_true, Bool.false_eq_true, ↓reduceIte]
    all_goals omega
  | false =>
    cases q m.self
    all_goals simp only [Bool.toNat_false, Bool.toNat_true, Bool.false_eq_true, ↓reduceIte]
    all_goals omega

/-- A class that only its own members enter never grows. -/
theorem count_after_le {ε : Type} {p : Pool σ τ} {i : Nat} {t : τ} {q : τ → Bool}
    (ht : p.threads[i]? = some t) {m : Move σ τ ε} (hself : q m.self = true → q t = true)
    (hchild : ∀ c ∈ m.spawned, q c = false) : (p.after i m).count q ≤ p.count q := by
  have h := count_after q ht m
  have hc : m.spawned.toList.countP q = 0 := by
    rw [List.countP_eq_zero]
    intro c hc
    simp [hchild c (Option.mem_toList.mp hc)]
  cases hq : q m.self with
  | false => rw [hq, hc, Bool.toNat_false] at h; omega
  | true => rw [hq, hself hq, hc] at h; omega

/-- A class that no member leaves never shrinks. -/
theorem le_count_after {ε : Type} {p : Pool σ τ} {i : Nat} {t : τ} {q : τ → Bool}
    (ht : p.threads[i]? = some t) {m : Move σ τ ε} (hself : q t = true → q m.self = true) :
    p.count q ≤ (p.after i m).count q := by
  have h := count_after q ht m
  cases hq : q t with
  | false => rw [hq, Bool.toNat_false] at h; omega
  | true => rw [hq, hself hq] at h; omega

theorem count_zero_of_running {q : τ → Bool} {p : Pool σ τ} {i : Nat} {t : τ}
    (h : p.count q = 0) (ht : p.threads[i]? = some t) : q t = false :=
  count_eq_zero.mp h t (List.mem_of_getElem? ht)

@[simp] theorem count_join (q : τ → Bool) (p : Pool σ τ) (t : τ) :
    (p.join t).count q = p.count q + (q t).toNat := by
  cases hq : q t <;> simp [join, count, hq]

/-- Who runs after an arrival: a thread that was there, or the new one. -/
theorem running_join {p : Pool σ τ} {t u : τ} {j : Nat} (h : (p.join t).threads[j]? = some u) :
    p.threads[j]? = some u ∨ u = t := by
  rw [join, List.getElem?_append] at h
  split at h
  · exact Or.inl h
  · exact Or.inr (List.mem_singleton.mp (List.mem_of_getElem? h))

theorem mem_join {p : Pool σ τ} {t u : τ} : u ∈ (p.join t).threads ↔ u ∈ p.threads ∨ u = t := by
  rw [join, List.mem_append, List.mem_singleton]

@[simp] theorem join_shared (p : Pool σ τ) (t : τ) : (p.join t).shared = p.shared := rfl

@[simp] theorem after_shared {ε : Type} (p : Pool σ τ) (i : Nat) (m : Move σ τ ε) :
    (p.after i m).shared = m.shared := rfl

theorem getElem?_after {ε : Type} {p : Pool σ τ} {i : Nat} {t : τ}
    (ht : p.threads[i]? = some t) (m : Move σ τ ε) (j : Nat) :
    (p.after i m).threads[j]? =
      if j < p.threads.length then (if j = i then some m.self else p.threads[j]?)
      else m.spawned.toList[j - p.threads.length]? := by
  obtain ⟨hi, -⟩ := List.getElem?_eq_some_iff.mp ht
  simp only [after, List.getElem?_append, List.length_set, List.getElem?_set]
  split
  · by_cases hji : i = j <;> simp [hji, eq_comm]
  · rfl

theorem self_after {ε : Type} {p : Pool σ τ} {i : Nat} {t : τ} (ht : p.threads[i]? = some t)
    (m : Move σ τ ε) : (p.after i m).threads[i]? = some m.self := by
  have hi := (List.getElem?_eq_some_iff.mp ht).choose
  rw [getElem?_after ht, if_pos hi, if_pos rfl]

/-- A thread that does not move stays where it is. -/
theorem others_after {ε : Type} {p : Pool σ τ} {i j : Nat} {t u : τ}
    (ht : p.threads[i]? = some t) (hu : p.threads[j]? = some u) (hji : j ≠ i)
    (m : Move σ τ ε) : (p.after i m).threads[j]? = some u := by
  have hj := (List.getElem?_eq_some_iff.mp hu).choose
  rw [getElem?_after ht, if_pos hj, if_neg hji, hu]

theorem others_join {p : Pool σ τ} {j : Nat} {u : τ} (hu : p.threads[j]? = some u) (t : τ) :
    (p.join t).threads[j]? = some u := by
  have hj := (List.getElem?_eq_some_iff.mp hu).choose
  rw [join, List.getElem?_append_left hj, hu]

/-- A thread of some class is still there after a section, if the mover stays in its class. -/
theorem exists_after {ε : Type} {p : Pool σ τ} {i : Nat} {t : τ} {m : Move σ τ ε} {Q : τ → Prop}
    (ht : p.threads[i]? = some t) (hself : Q t → Q m.self) (h : ∃ u ∈ p.threads, Q u) :
    ∃ u ∈ (p.after i m).threads, Q u := by
  obtain ⟨u, hu, hQ⟩ := h
  obtain ⟨j, hj⟩ := List.mem_iff_getElem?.mp hu
  by_cases hji : j = i
  · subst hji
    rw [ht] at hj
    cases hj
    exact ⟨m.self, List.mem_of_getElem? (self_after ht m), hself hQ⟩
  · exact ⟨u, List.mem_of_getElem? (others_after ht hj hji m), hQ⟩

/-- Who runs at an old place after a section: the mover, or the thread that ran there. -/
theorem running_after_lt {ε : Type} {p : Pool σ τ} {i j : Nat} {t u : τ} {m : Move σ τ ε}
    (ht : p.threads[i]? = some t) (hj : j < p.threads.length)
    (hu : (p.after i m).threads[j]? = some u) :
    (j = i ∧ u = m.self) ∨ (j ≠ i ∧ p.threads[j]? = some u) := by
  rw [getElem?_after ht, if_pos hj] at hu
  split at hu
  · rename_i hji
    exact Or.inl ⟨hji, (Option.some.inj hu).symm⟩
  · rename_i hji
    exact Or.inr ⟨hji, hu⟩

/-- Who runs after a section: the mover, a thread that has not moved, or the child at a new
place. -/
theorem running_after_at {ε : Type} {p : Pool σ τ} {i j : Nat} {t u : τ} {m : Move σ τ ε}
    (ht : p.threads[i]? = some t) (hu : (p.after i m).threads[j]? = some u) :
    (j = i ∧ u = m.self) ∨ (j ≠ i ∧ p.threads[j]? = some u) ∨
      (j = p.threads.length ∧ m.spawned = some u) := by
  rw [getElem?_after ht] at hu
  split at hu
  · split at hu
    · rename_i hji
      exact Or.inl ⟨hji, (Option.some.inj hu).symm⟩
    · rename_i hji
      exact Or.inr (Or.inl ⟨hji, hu⟩)
  · rename_i hge
    cases hspawned : m.spawned with
    | none => simp [hspawned] at hu
    | some c =>
      simp only [hspawned, Option.toList_some, List.getElem?_singleton] at hu
      split at hu
      · rename_i hzero
        cases hu
        exact Or.inr (Or.inr ⟨by omega, rfl⟩)
      · cases hu

theorem running_after {ε : Type} {p : Pool σ τ} {i j : Nat} {t u : τ} {m : Move σ τ ε}
    (ht : p.threads[i]? = some t) (hu : (p.after i m).threads[j]? = some u) :
    (j = i ∧ u = m.self) ∨ (j ≠ i ∧ p.threads[j]? = some u) ∨ m.spawned = some u := by
  rcases running_after_at ht hu with hself | hold | ⟨-, hchild⟩
  · exact Or.inl hself
  · exact Or.inr (Or.inl hold)
  · exact Or.inr (Or.inr hchild)

theorem mem_after {ε : Type} {p : Pool σ τ} {i : Nat} {m : Move σ τ ε} {x : τ}
    (h : x ∈ (p.after i m).threads) : x = m.self ∨ m.spawned = some x ∨ x ∈ p.threads := by
  rcases List.mem_append.mp h with h | h
  · rcases List.mem_or_eq_of_mem_set h with h | h
    · exact Or.inr (Or.inr h)
    · exact Or.inl h
  · exact Or.inr (Or.inl (by simpa [Option.mem_toList] using h))

theorem forall_after {ε : Type} {p : Pool σ τ} {i : Nat} {m : Move σ τ ε} {Q : τ → Prop}
    (h : ∀ t ∈ p.threads, Q t) (hself : Q m.self) (hchild : ∀ c ∈ m.spawned, Q c) :
    ∀ t ∈ (p.after i m).threads, Q t := by
  intro t ht
  rcases mem_after ht with rfl | hc | ht
  · exact hself
  · exact hchild t hc
  · exact h t ht

section Exclusive
variable {κ ε : Type} {key : τ → Option κ} {p : Pool σ τ} {i : Nat} {t : τ} {m : Move σ τ ε}

/-- No two threads hold the same key. -/
def Exclusive (key : τ → Option κ) (p : Pool σ τ) : Prop :=
  ∀ (i j : Nat) t u k, p.threads[i]? = some t → p.threads[j]? = some u →
    key t = some k → key u = some k → i = j

/-- A section hands on the key of its thread, or brings one that nobody holds; the mover and its
child do not both hold one. -/
theorem Exclusive.after (h : Exclusive key p) (ht : p.threads[i]? = some t)
    (hheld : ∀ u k, (u = m.self ∨ m.spawned = some u) → key u = some k →
      key t = some k ∨ ∀ w ∈ p.threads, key w ≠ some k)
    (hone : ∀ c ∈ m.spawned, key m.self = none ∨ key c = none) :
    Exclusive key (p.after i m) := by
  have hother : ∀ (j : Nat) w u k, j ≠ i → p.threads[j]? = some w →
      (u = m.self ∨ m.spawned = some u) → key u = some k → key w ≠ some k := by
    intro j w u k hji hw hu huk hwk
    rcases hheld u k hu huk with hmover | hnobody
    · exact hji (h j i w t k hw ht hwk hmover)
    · exact hnobody w (List.mem_of_getElem? hw) hwk
  intro j₁ j₂ u₁ u₂ k hu₁ hu₂ hk₁ hk₂
  rcases running_after_at ht hu₁ with ⟨rfl, rfl⟩ | ⟨hji, hold⟩ | ⟨rfl, hchild⟩
  · rcases running_after_at ht hu₂ with ⟨rfl, -⟩ | ⟨hji, hold⟩ | ⟨-, hchild⟩
    · rfl
    · exact absurd hk₂ (hother j₂ u₂ _ k hji hold (Or.inl rfl) hk₁)
    · rcases hone u₂ hchild with hnone | hnone
      · rw [hnone] at hk₁
        cases hk₁
      · rw [hnone] at hk₂
        cases hk₂
  · rcases running_after_at ht hu₂ with ⟨rfl, rfl⟩ | ⟨-, hold'⟩ | ⟨-, hchild⟩
    · exact absurd hk₁ (hother j₁ u₁ _ k hji hold (Or.inl rfl) hk₂)
    · exact h j₁ j₂ u₁ u₂ k hold hold' hk₁ hk₂
    · exact absurd hk₁ (hother j₁ u₁ u₂ k hji hold (Or.inr hchild) hk₂)
  · rcases running_after_at ht hu₂ with ⟨rfl, rfl⟩ | ⟨hji, hold⟩ | ⟨rfl, -⟩
    · rcases hone u₁ hchild with hnone | hnone
      · rw [hnone] at hk₂
        cases hk₂
      · rw [hnone] at hk₁
        cases hk₁
    · exact absurd hk₂ (hother j₂ u₂ u₁ k hji hold (Or.inr hchild) hk₁)
    · rfl

/-- A newcomer without a key takes none away. -/
theorem Exclusive.join (h : Exclusive key p) {u : τ} (hu : key u = none) :
    Exclusive key (p.join u) := by
  have hold : ∀ (j : Nat) w k, (p.join u).threads[j]? = some w → key w = some k →
      p.threads[j]? = some w := by
    intro j w k hw hk
    rcases running_join hw with hw | rfl
    · exact hw
    · rw [hu] at hk
      cases hk
  intro j₁ j₂ u₁ u₂ k hu₁ hu₂ hk₁ hk₂
  exact h j₁ j₂ u₁ u₂ k (hold j₁ u₁ k hu₁ hk₁) (hold j₂ u₂ k hu₂ hk₂) hk₁ hk₂

end Exclusive

end Pool

namespace Program
variable {σ τ ω ε : Type}

/-- One step: an arrival, or one atomic section of one thread. -/
def step (P : Program σ τ ω ε) (p : Pool σ τ) : Act τ ω → Option (Pool σ τ × Option ε)
  | .run i o =>
    match p.threads[i]? with
    | none => none
    | some t =>
      match P.next o i p.threads.length p.shared t with
      | none => none
      | some m => some (p.after i m, m.effect)
  | .arrive t => if P.arrives p.shared t then some (p.join t, none) else none

def system (P : Program σ τ ω ε) : System (Pool σ τ) (Act τ ω) ε where
  init p := ∃ s t, P.init s t ∧ p = ⟨s, [t]⟩
  step := P.step

/-- A thread that can run makes a step. -/
theorem step_run {P : Program σ τ ω ε} {p : Pool σ τ} {i : Nat} {o : ω} {t : τ} {m : Move σ τ ε}
    (ht : p.threads[i]? = some t) (hm : P.next o i p.threads.length p.shared t = some m) :
    P.system.step p (.run i o) = some (p.after i m, m.effect) := by
  simp only [system, step, ht, hm]

/-- What a step can be. Every invariant of a pool is proved from this. -/
theorem step_cases {P : Program σ τ ω ε} {p p' : Pool σ τ} {a : Act τ ω} {e : Option ε}
    (h : P.system.step p a = some (p', e)) :
    (∃ i o t m, a = .run i o ∧ p.threads[i]? = some t ∧
      P.next o i p.threads.length p.shared t = some m ∧ p' = p.after i m ∧ e = m.effect) ∨
    (∃ t, a = .arrive t ∧ P.arrives p.shared t = true ∧ p' = p.join t ∧ e = none) := by
  cases a with
  | run i o =>
    simp only [system, step] at h
    split at h
    · cases h
    · rename_i t ht
      split at h
      · cases h
      · rename_i m hm
        cases h
        exact Or.inl ⟨i, o, t, m, rfl, ht, hm, rfl, rfl⟩
  | arrive t =>
    simp only [system, step] at h
    split at h
    · rename_i ha
      cases h
      exact Or.inr ⟨t, rfl, ha, rfl, rfl⟩
    · cases h

/-- What a step does to a thread: it leaves it where it is, or it is one of its sections. -/
theorem step_at {P : Program σ τ ω ε} {p p' : Pool σ τ} {a : Act τ ω} {e : Option ε} {j : Nat}
    {u : τ} (h : P.system.step p a = some (p', e)) (hu : p.threads[j]? = some u) :
    p'.threads[j]? = some u ∨ ∃ o m, P.next o j p.threads.length p.shared u = some m ∧
      p'.threads[j]? = some m.self := by
  rcases step_cases h with ⟨i, o, t, m, rfl, ht, hm, rfl, rfl⟩ | ⟨t, rfl, -, rfl, rfl⟩
  · by_cases hji : j = i
    · subst hji
      rw [hu] at ht
      cases ht
      exact Or.inr ⟨o, m, hm, Pool.self_after hu m⟩
    · exact Or.inl (Pool.others_after ht hu hji m)
  · exact Or.inl (Pool.others_join hu t)

end Program

end InodeVpn.Lib
