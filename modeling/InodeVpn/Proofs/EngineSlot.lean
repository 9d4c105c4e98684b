import InodeVpn.Proofs.Sections

namespace InodeVpn.Proofs.EngineSlot
open InodeVpn.Core Lib Daemon Sections

/-- Where a thread stands with respect to `Inner::engine`: it is about to check
the slot, it has found the slot empty, it has created an engine thread whose
handle it still has to store, or it is an engine thread. -/
inductive Phase
  | idle
  | calling
  | opened
  | storing
  | live
  deriving DecidableEq

def phase : Thread → Phase
  | .starting _ _ .check => .calling
  | .starting _ _ (.setEngine _) => .storing
  | .starting _ _ _ => .opened
  | .engine _ => .live
  | _ => .idle

/-- The slot protocol: what one section may do to the slot, to the mover's
phase and to the phase of a thread it spawns. `drops` says that the mover is
about to drop the guard. -/
inductive SlotStep (slot slot' : Option Nat) (drops : Bool) : Phase → Phase → Option Phase → Prop
  | aside {child : Option Phase} (same : slot' = slot) (quiet : child = none ∨ child = some .idle) :
      SlotStep slot slot' drops .idle .idle child
  | call (same : slot' = slot) : SlotStep slot slot' drops .idle .calling none
  | refuse (same : slot' = slot) : SlotStep slot slot' drops .calling .idle none
  | accept (empty : slot = none) (same : slot' = slot) :
      SlotStep slot slot' drops .calling .opened none
  | prepare (same : slot' = slot) : SlotStep slot slot' drops .opened .opened none
  | abandon (same : slot' = slot) : SlotStep slot slot' drops .opened .idle none
  | spawn (same : slot' = slot) : SlotStep slot slot' drops .opened .storing (some .live)
  | store (handle : Nat) (set : slot' = some handle) : SlotStep slot slot' drops .storing .idle none
  | run {child : Option Phase} (same : slot' = slot) (quiet : child = none ∨ child = some .idle) :
      SlotStep slot slot' drops .live .live child
  | finish (drop : drops = true) (cleared : slot' = none) :
      SlotStep slot slot' drops .live .idle none

section Sections
variable {o : Outside} {me fresh : Nat} {d : Shared} {m : Section}

/-- A thread outside of `engine_start` and `engine_run` is out of the protocol. -/
theorem phase_idle {t : Thread} (hs : kind t ≠ .starting) (he : kind t ≠ .engine) :
    phase t = .idle := by
  cases t with
  | starting caller config pc => exact absurd rfl hs
  | engine e => exact absurd rfl he
  | _ => rfl

/-- Only `engine_start` spawns an engine. -/
theorem child_idle {t : Thread} (h : daemon.next o me fresh d t = some m)
    (hs : kind t ≠ .starting) : m.spawned.map phase = none ∨ m.spawned.map phase = some .idle := by
  cases hc : m.spawned with
  | none => exact Or.inl rfl
  | some c =>
    obtain ⟨hstart, hk⟩ := (next_kind h).2 c hc
    refine Or.inr (congrArg some (phase_idle ?_ fun hek => hs (spawns_engine (hek ▸ hk))))
    rcases canSpawn_kind hstart with hc | hc | hc | hc <;> rw [hc] <;> intro h <;> cases h

theorem bystander_slot {t : Thread} (h : daemon.next o me fresh d t = some m)
    (hs : kind t ≠ .starting) (he : kind t ≠ .engine) :
    SlotStep d.inner.engine m.shared.inner.engine t.dropsGuard (phase t) (phase m.self)
      (m.spawned.map phase) := by
  have hsame := (next_bystands h hs he).engine
  rw [phase_idle hs he]
  by_cases hself : kind m.self = .starting
  · obtain ⟨caller, config, pc, hcall⟩ := kind_starting hself
    rcases next_starting h hcall with ⟨-, rfl, hnone⟩ | ⟨pc', rfl⟩
    · rw [hcall, hnone]
      exact .call hsame
    · exact absurd rfl hs
  · rw [phase_idle hself fun hek => he (goesOn_engine (hek ▸ (next_kind h).1))]
    exact .aside hsame (child_idle h hs)

theorem start_slot {caller : Caller} {config : Config} {pc : StartPc} {drops : Bool}
    (h : startNext o me fresh d caller config pc = some m) :
    SlotStep d.inner.engine m.shared.inner.engine drops (phase (.starting caller config pc))
      (phase m.self) (m.spawned.map phase) := by
  have hr : ∀ result, phase (caller.resume result) = .idle := by
    intro result
    cases caller <;> cases result <;> rfl
  cases pc with
  | check =>
    simp only [startNext] at h
    split at h <;> cases h
    · rw [hr]; exact .refuse rfl
    · rename_i hs
      exact .accept (by simpa using hs) rfl
  | addSecrets => cases h; exact .prepare rfl
  | tunScript => cases h; exact .prepare rfl
  | spawn tunScript =>
    simp only [startNext] at h
    split at h <;> cases h
    · exact .spawn rfl
    · rw [hr]; exact .abandon rfl
  | setEngine handle =>
    cases h
    rw [hr]
    exact .store handle rfl

/-- A section of `engine_run` that leaves the slot alone. -/
def Runs (d : Shared) (m : Section) : Prop :=
  m.shared.inner.engine = d.inner.engine ∧ phase m.self = .live

theorem session_runs {e : Engine} {v : Nat} {pc : SessionPc}
    (h : sessionNext o me fresh d e v pc = some m) : Runs d m := by
  unfold sessionNext at h
  repeat' split at h
  all_goals cases h
  all_goals simp [Runs, phase, Engine.goto, Engine.fail, Engine.publish, Engine.panic]

/-- Only the last section of the teardown touches the slot. -/
theorem teardown_runs {e : Engine} {v : Option Nat} {result : Option Error} {pc : TeardownPc}
    (h : teardownNext o me d e v result pc = some m) (hpc : pc ≠ .guardDrop) : Runs d m := by
  cases pc with
  | guardDrop => exact absurd rfl hpc
  | scheduleRetry pc =>
    simp only [teardownNext] at h
    split at h
    all_goals
      rename_i heq
      obtain ⟨g, rfl⟩ := scheduleNext_shared heq
      cases h
      exact ⟨rfl, rfl⟩
  | joinHealth handle =>
    simp only [teardownNext] at h
    split at h <;> cases h
    exact ⟨rfl, rfl⟩
  | free => cases h; cases v <;> exact ⟨rfl, rfl⟩
  | stopCheck error =>
    cases h
    refine ⟨rfl, ?_⟩
    dsimp only
    split <;> rfl
  | _ => cases h; exact ⟨rfl, rfl⟩

/-- An engine clears the slot when it drops its guard, and never otherwise. -/
theorem engine_slot {e : Engine} (h : engineNext o me fresh d e = some m)
    (hchild : m.spawned.map phase = none ∨ m.spawned.map phase = some .idle) :
    SlotStep d.inner.engine m.shared.inner.engine (Thread.engine e).dropsGuard .live
      (phase m.self) (m.spawned.map phase) := by
  have hrun : Runs d m → SlotStep d.inner.engine m.shared.inner.engine
      (Thread.engine e).dropsGuard .live (phase m.self) (m.spawned.map phase) := by
    intro ⟨hs, hp⟩
    rw [hp]
    exact .run hs hchild
  obtain ⟨config, tunScript, publishing, pc⟩ := e
  cases publishing with
  | some call => cases call <;> cases h <;> exact hrun ⟨by simp, rfl⟩
  | none =>
    simp only [engineNext, engineRunNext] at h
    split at h
    · cases h; exact hrun ⟨rfl, rfl⟩
    · cases pc with
      | cstrings =>
        cases h
        refine hrun ⟨rfl, ?_⟩
        dsimp only
        split <;> rfl
      | initSsl =>
        cases h
        refine hrun ⟨rfl, ?_⟩
        dsimp only
        split <;> rfl
      | vpninfoNew =>
        simp only at h
        split at h <;> cases h <;> exact hrun ⟨rfl, rfl⟩
      | session v pc => exact hrun (session_runs h)
      | teardown v result pc =>
        by_cases hpc : pc = .guardDrop
        · subst hpc
          cases h
          exact .finish rfl rfl
        · exact hrun (teardown_runs h hpc)
      | unwind origin => cases h; exact .finish rfl rfl

/-- The daemon runs the slot protocol. -/
theorem slot_step {t : Thread} (h : daemon.next o me fresh d t = some m) :
    SlotStep d.inner.engine m.shared.inner.engine t.dropsGuard (phase t) (phase m.self)
      (m.spawned.map phase) := by
  have hsection := daemon_next h
  cases t with
  | starting caller config pc => exact start_slot hsection
  | engine e => exact engine_slot hsection (child_idle h fun hs => by cases hs)
  | _ => exact bystander_slot h (fun hs => by cases hs) fun he => by cases he

end Sections

/-- How many threads are in a phase of the slot protocol. -/
def held (p : Process) (ph : Phase) : Nat := p.count (fun t => phase t == ph)

theorem toNat_beq (a b : Phase) : (a == b).toNat = if a = b then 1 else 0 := by
  by_cases h : a = b <;> simp [h]

theorem held_after {p : Process} {i : Nat} {t : Thread} {m : Section}
    (ht : p.threads[i]? = some t) (x : Phase) :
    held (p.after i m) x + (if phase t = x then 1 else 0) =
      held p x + (if phase m.self = x then 1 else 0) +
        (if m.spawned.map phase = some x then 1 else 0) := by
  have h := Pool.count_after (fun t => phase t == x) ht m
  simp only [toNat_beq] at h
  unfold held
  rw [h]
  cases m.spawned with
  | none => simp
  | some c => by_cases hc : phase c = x <;> simp [hc]

/-- A thread that arrives from outside is not part of the protocol yet. -/
theorem held_join {p : Process} {t : Thread} (ha : daemon.arrives p.shared t = true)
    (x : Phase) (hx : x ≠ .idle) : held (p.join t) x = held p x := by
  have hidle : phase t = .idle := by
    rcases (arrives_kind ha).2 with ⟨r, rfl⟩ | rfl <;> rfl
  unfold held
  rw [Pool.count_join, hidle, toNat_beq]
  simp [Ne.symm hx]

/-- The defect: the check of the slot, the spawn and the storing of the handle
are three sections. A run avoids it when no call of `engine_start` passes its
check while another one stands between its own check and its `set_engine`. -/
def noOverlappingStart (p : Process) : Step → Bool
  | .run i _ =>
    match p.threads[i]? with
    | some (.starting _ _ .check) =>
      p.shared.inner.engine.isSome || p.count Thread.inStartWindow == 0
    | _ => true
  | .arrive _ => true

/-- No engine drops its guard while a handle is still to be stored. -/
def noEarlyFinish (p : Process) : Step → Bool
  | .run i _ =>
    match p.threads[i]? with
    | some t => !t.dropsGuard || p.count Thread.storesHandle == 0
    | none => true
  | .arrive _ => true

theorem held_opened_storing (p : Process) :
    held p .opened + held p .storing = p.count Thread.inStartWindow := by
  have hsplit : ∀ l : List Thread,
      l.countP (fun t => phase t == .opened) + l.countP (fun t => phase t == .storing) =
        l.countP Thread.inStartWindow := by
    intro l
    induction l with
    | nil => rfl
    | cons t ts ih =>
      simp only [List.countP_cons, ← ih]
      have ht : (if (phase t == .opened) = true then 1 else 0) +
          (if (phase t == .storing) = true then 1 else 0) =
          if t.inStartWindow = true then 1 else 0 := by
        cases t with
        | starting caller config pc => cases pc <;> rfl
        | _ => rfl
      omega
  exact hsplit p.threads

theorem held_storing (p : Process) : held p .storing = p.count Thread.storesHandle := by
  unfold held Pool.count
  apply List.countP_congr
  intro t _
  cases t with
  | starting caller config pc => cases pc <;> simp [phase, Thread.storesHandle]
  | _ => simp [phase, Thread.storesHandle]

theorem held_live (p : Process) : held p .live = p.count Thread.isLiveEngine := by
  unfold held Pool.count
  apply List.countP_congr
  intro t _
  cases t with
  | starting caller config pc => cases pc <;> simp [phase, Thread.isLiveEngine]
  | _ => simp [phase, Thread.isLiveEngine]

/-- Starts that do not overlap keep engines apart: an empty slot means that an
engine is at most waiting for its handle to be stored. -/
structure Exclusive (p : Process) : Prop where
  window : held p .opened + held p .storing ≤ 1
  engines : held p .opened + held p .live ≤ 1
  empty : p.shared.inner.engine = none → held p .live ≤ held p .storing

theorem boot_held {p : Process} (h : daemon.system.init p) (x : Phase) (hx : x ≠ .idle) :
    held p x = 0 := by
  obtain ⟨d, t, ⟨_, _, _, _, rfl, rfl⟩, rfl⟩ := h
  cases x <;> first | rfl | exact absurd rfl hx

theorem boot_exclusive {p : Process} (h : daemon.system.init p) : Exclusive p := by
  have ho := boot_held h .opened (by decide)
  have hs := boot_held h .storing (by decide)
  have hl := boot_held h .live (by decide)
  exact ⟨by omega, by omega, by omega⟩

/-- What the condition says about the section that accepts a start. -/
theorem window_empty {p : Process} {i : Nat} {o : Outside} {t : Thread} {m : Section}
    (hok : noOverlappingStart p (.run i o) = true) (ht : p.threads[i]? = some t)
    (hm : daemon.next o i p.threads.length p.shared t = some m)
    (hopen : phase t = .calling ∧ phase m.self = .opened) :
    held p .opened + held p .storing = 0 := by
  rw [held_opened_storing]
  obtain ⟨hc, hs⟩ := hopen
  cases t with
  | starting caller config pc =>
    cases pc with
    | check =>
      simp only [noOverlappingStart, ht, Bool.or_eq_true, beq_iff_eq] at hok
      rcases hok with hsome | hzero
      · replace hm := daemon_next hm
        simp only [threadNext, startNext, hsome, ↓reduceIte] at hm
        cases hm
        cases caller <;> cases hs
      · exact hzero
    | _ => cases hc
  | _ => cases hc

theorem exclusive_step {p p' : Process} {a : Step} {e : Option Effect} (hx : Exclusive p)
    (hok : noOverlappingStart p a = true) (h : daemon.system.step p a = some (p', e)) :
    Exclusive p' := by
  obtain ⟨hwin, heng, hempty⟩ := hx
  rcases Program.step_cases h with ⟨i, o, t, m, rfl, ht, hm, rfl, -⟩ | ⟨t, rfl, ha, rfl, -⟩
  · have hslot := slot_step hm
    have ho := held_after (m := m) ht .opened
    have hs := held_after (m := m) ht .storing
    have hl := held_after (m := m) ht .live
    have hfree := window_empty hok ht hm
    rw [← Pool.after_shared p i m] at hslot
    generalize p.after i m = p' at *
    generalize phase t = ph, phase m.self = ph', m.spawned.map phase = child at *
    cases hslot with
    | accept empty same =>
      have := hfree ⟨rfl, rfl⟩
      have := hempty empty
      simp only [reduceCtorEq, ↓reduceIte, Nat.add_zero] at ho hs hl
      exact ⟨by omega, by omega, fun _ => by omega⟩
    | aside same quiet | run same quiet =>
      rcases quiet with rfl | rfl
      all_goals
        simp only [reduceCtorEq, ↓reduceIte, Option.some.injEq, Nat.add_zero] at ho hs hl
        exact ⟨by omega, by omega, fun hn => by have := hempty (same ▸ hn); omega⟩
    | call same | refuse same | prepare same | abandon same | spawn same =>
      simp only [reduceCtorEq, ↓reduceIte, Option.some.injEq, Nat.add_zero] at ho hs hl
      exact ⟨by omega, by omega, fun hn => by have := hempty (same ▸ hn); omega⟩
    | store handle set =>
      simp only [reduceCtorEq, ↓reduceIte, Nat.add_zero] at ho hs hl
      exact ⟨by omega, by omega, fun hn => by rw [set] at hn; cases hn⟩
    | finish drop cleared =>
      simp only [reduceCtorEq, ↓reduceIte, Nat.add_zero] at ho hs hl
      exact ⟨by omega, by omega, fun _ => by omega⟩
  · have hj := fun x hx => held_join (p := p) ha x hx
    exact ⟨by rw [hj _ (by decide), hj _ (by decide)]; exact hwin,
      by rw [hj _ (by decide), hj _ (by decide)]; exact heng,
      by rw [hj _ (by decide), hj _ (by decide)]; exact hempty⟩

theorem reach_exclusive {t : List Effect} {p : Process}
    (h : System.Reach daemon.system noOverlappingStart t p) : Exclusive p := by
  apply h.invariant (I := fun _ p => Exclusive p)
  · intro p hp
    exact boot_exclusive hp
  · intro t p a p' e _ hx hok hs
    exact exclusive_step hx hok hs

/-- While no start is accepted in the window of another one, at most one engine
thread is between its spawn and the drop of its guard. -/
theorem at_most_one_engine (t : List Effect) (p : Process)
    (h : System.Reach daemon.system noOverlappingStart t p) : p.count Thread.isLiveEngine ≤ 1 := by
  have hx := reach_exclusive h
  have := hx.engines
  rw [← held_live]
  omega

/-- Two clients, one after the other. -/
def startTwice : List Step :=
  serve ++ [client 1 "start", client 2 "start"] ++ loadStart 1 ++ sections 1 5 ++
    loadStart 2 ++ sections 2 1

theorem at_most_one_engine_sample : ∃ t p, System.Reach daemon.system noOverlappingStart t p ∧
    p.count Thread.isLiveEngine = 1 ∧ p.count Thread.isLiveEngine ≤ 1 := by
  obtain ⟨t, p, hr, hp⟩ := System.exists_reach noOverlappingStart startTwice
    (fun _ p => p.count Thread.isLiveEngine == 1) (boot_init 1000 1000 none []) (by decide)
  exact ⟨t, p, hr, by simpa using hp, at_most_one_engine t p hr⟩

/-- Two clients send `start`; both calls check the slot before either of them
has stored a handle. -/
def startOverlapping : List Step :=
  serve ++ [client 1 "start", client 2 "start"] ++ loadStart 1 ++ loadStart 2 ++
    sections 1 1 ++ sections 2 1 ++ sections 1 3 ++ sections 2 3

theorem two_engines : ¬ ∀ t p, System.Reachable daemon.system t p →
    p.count Thread.isLiveEngine ≤ 1 := by
  intro h
  obtain ⟨t, p, hr, hp⟩ := System.exists_reach (fun _ _ => true) startOverlapping
    (fun _ p => p.count Thread.isLiveEngine == 2) (boot_init 1000 1000 none []) (by decide)
  have := h t p hr
  simp at hp
  omega

/-- When no engine ends before its handle is stored either, a full slot stands
for an engine whose handle has been stored. -/
structure Truthful (p : Process) : Prop extends Exclusive p where
  stored : held p .storing ≤ held p .live
  full : p.shared.inner.engine.isSome = true → held p .live = 1 ∧ held p .storing = 0

/-- Both conditions on one run. -/
def orderlyEngines (p : Process) (a : Step) : Bool := noOverlappingStart p a && noEarlyFinish p a

theorem boot_truthful {p : Process} (h : daemon.system.init p) : Truthful p := by
  refine ⟨boot_exclusive h, ?_, ?_⟩
  · rw [boot_held h .storing (by decide)]
    exact Nat.zero_le _
  · obtain ⟨d, t, ⟨_, _, _, _, rfl, rfl⟩, rfl⟩ := h
    intro hs
    cases hs

theorem truthful_step {p p' : Process} {a : Step} {e : Option Effect} (hx : Truthful p)
    (hok : orderlyEngines p a = true) (h : daemon.system.step p a = some (p', e)) :
    Truthful p' := by
  simp only [orderlyEngines, Bool.and_eq_true] at hok
  have hex := exclusive_step hx.toExclusive hok.1 h
  suffices held p' .storing ≤ held p' .live ∧
      (p'.shared.inner.engine.isSome = true → held p' .live = 1 ∧ held p' .storing = 0) from
    ⟨hex, this.1, this.2⟩
  obtain ⟨⟨hwin, heng, hempty⟩, hstored, hfull⟩ := hx
  rcases Program.step_cases h with ⟨i, o, t, m, rfl, ht, hm, rfl, -⟩ | ⟨t, rfl, ha, rfl, -⟩
  · have hslot := slot_step hm
    have ho := held_after (m := m) ht .opened
    have hs := held_after (m := m) ht .storing
    have hl := held_after (m := m) ht .live
    have hdrop : t.dropsGuard = true → held p .storing = 0 := by
      intro hd
      have := hok.2
      simpa [noEarlyFinish, ht, hd, held_storing] using this
    rw [← Pool.after_shared p i m] at hslot
    generalize p.after i m = p' at *
    generalize phase t = ph, phase m.self = ph', m.spawned.map phase = child at *
    cases hslot with
    | aside same quiet | run same quiet =>
      rw [same]
      rcases quiet with rfl | rfl
      all_goals
        simp only [reduceCtorEq, ↓reduceIte, Option.some.injEq, Nat.add_zero] at ho hs hl
        exact ⟨by omega, fun hn => by have := hfull hn; omega⟩
    | call same | refuse same | prepare same | abandon same | accept empty same | spawn same =>
      rw [same]
      simp only [reduceCtorEq, ↓reduceIte, Option.some.injEq, Nat.add_zero] at ho hs hl
      exact ⟨by omega, fun hn => by have := hfull hn; omega⟩
    | store handle set =>
      simp only [reduceCtorEq, ↓reduceIte, Nat.add_zero] at ho hs hl
      exact ⟨by omega, fun _ => by omega⟩
    | finish drop cleared =>
      have := hdrop drop
      rw [cleared]
      simp only [reduceCtorEq, ↓reduceIte, Nat.add_zero] at ho hs hl
      exact ⟨by omega, fun hn => by cases hn⟩
  · have hj := fun x hx => held_join (p := p) ha x hx
    rw [hj _ (by decide), hj _ (by decide)]
    exact ⟨hstored, hfull⟩

theorem reach_truthful {t : List Effect} {p : Process}
    (h : System.Reach daemon.system orderlyEngines t p) : Truthful p := by
  apply h.invariant (I := fun _ p => Truthful p)
  · intro p hp
    exact boot_truthful hp
  · intro t p a p' e _ hx hok hs
    exact truthful_step hx hok hs

/-- Whenever no call of `engine_start` is in progress, the slot is full exactly
when an engine thread is live. -/
theorem slot_tells_truth (t : List Effect) (p : Process)
    (h : System.Reach daemon.system orderlyEngines t p)
    (idle : ∀ th ∈ p.threads, th.isStarting = false) :
    p.shared.inner.engine.isSome = true ↔ ∃ th ∈ p.threads, th.isLiveEngine = true := by
  have hx := reach_truthful h
  have hs : held p .storing = 0 := by
    rw [held_storing, Pool.count_eq_zero]
    intro th hth
    have := idle th hth
    cases th with
    | starting caller config pc => cases this
    | _ => rfl
  have hlive : (∃ th ∈ p.threads, th.isLiveEngine = true) ↔ 0 < held p .live := by
    rw [held_live]
    exact List.countP_pos_iff.symm
  rw [hlive]
  constructor
  · intro hfull
    have := hx.full hfull
    omega
  · intro hpos
    cases he : p.shared.inner.engine with
    | some handle => rfl
    | none =>
      have := hx.empty he
      omega

theorem slot_tells_truth_sample : ∃ t p, System.Reach daemon.system orderlyEngines t p ∧
    (∀ th ∈ p.threads, th.isStarting = false) ∧
    (p.shared.inner.engine.isSome = true ↔ ∃ th ∈ p.threads, th.isLiveEngine = true) := by
  obtain ⟨t, p, hr, hp⟩ := System.exists_reach orderlyEngines startTwice
    (fun _ p => p.threads.all fun th => !th.isStarting) (boot_init 1000 1000 none []) (by decide)
  have hidle : ∀ th ∈ p.threads, th.isStarting = false := by simpa using hp
  exact ⟨t, p, hr, hidle, slot_tells_truth t p hr hidle⟩

/-- A username that no C string can hold ends the engine before libopenconnect
is even initialised. -/
def nulConfig : Config :=
  { sampleConfig with credentials := ⟨String.singleton (Char.ofNat 0), "pw"⟩ }

/-- One client sends `start`. The engine thread runs to its end while the
caller has yet to store the handle. -/
def engineEndsFirst : List Step :=
  serve ++ [client 1 "start"] ++ loadStart 1 nulConfig ++ sections 1 4 ++ sections 2 10 ++
    sections 1 1

theorem slot_full_without_engine : ¬ ∀ t p, System.Reachable daemon.system t p →
    (∀ th ∈ p.threads, th.isStarting = false) →
    (p.shared.inner.engine.isSome = true ↔ ∃ th ∈ p.threads, th.isLiveEngine = true) := by
  intro h
  obtain ⟨t, p, hr, hp⟩ := System.exists_reach (fun _ _ => true) engineEndsFirst
    (fun _ p => p.threads.all (fun th => !th.isStarting && !th.isLiveEngine) &&
      p.shared.inner.engine.isSome) (boot_init 1000 1000 none []) (by decide)
  simp only [Bool.and_eq_true, List.all_eq_true, Bool.not_eq_eq_eq_not, Bool.not_true] at hp
  obtain ⟨th, hth, hlive⟩ := (h t p hr fun th hth => (hp.1 th hth).1).mp hp.2
  rw [(hp.1 th hth).2] at hlive
  cases hlive

end InodeVpn.Proofs.EngineSlot
