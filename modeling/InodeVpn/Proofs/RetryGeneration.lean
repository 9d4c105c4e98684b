import InodeVpn.Proofs.Sections

namespace InodeVpn.Proofs.RetryGeneration
open InodeVpn.Core Lib Daemon Sections

/-- The generation of the retry thread that calls `engine_start`. -/
def ofCaller : Caller → Option Nat
  | .retry generation => some generation
  | _ => none

/-- The generation of a live retry thread, in its loop or in its call of `engine_start`. -/
def retryOf : Thread → Option Nat
  | .retry _ generation _ _ => some generation
  | .starting caller _ _ => ofCaller caller
  | _ => none

/-- The generation that is about to be given to a retry thread. -/
def ofSchedule : SchedulePc → Option Nat
  | .lock => none
  | .spawn generation _ => some generation

def ofEngine : EnginePc → Option Nat
  | .teardown _ _ (.scheduleRetry pc) => ofSchedule pc
  | _ => none

/-- The generation that a thread has captured, for itself or for the retry thread that it is
about to spawn. -/
def captured : Thread → Option Nat
  | .engine e => ofEngine e.pc
  | .panicked _ _ pc => ofSchedule pc
  | t => retryOf t

theorem captured_of_retryOf {t : Thread} {g : Nat} (h : retryOf t = some g) :
    captured t = some g := by
  cases t with
  | retry config generation delay pc => exact h
  | starting caller config pc => exact h
  | _ => cases h

/-- What a section does with generations: it keeps the counter or makes it grow, its thread
captures a generation only when the counter is made to reach it, and what it spawns has taken
over the thread's own. -/
structure Hands (d : Shared) (t : Thread) (m : Section) : Prop where
  counter : d.inner.retryGeneration ≤ m.shared.inner.retryGeneration
  self : ∀ g, captured m.self = some g → captured t = some g ∨
    (g = d.inner.retryGeneration + 1 ∧ m.shared.inner.retryGeneration = g)
  child : ∀ c ∈ m.spawned, (captured m.self = none ∨ captured c = none) ∧
    ∀ g, captured c = some g → captured t = some g

section Sections
variable {o : Outside} {me fresh : Nat} {d shared : Shared} {m : Section} {t : Thread}

theorem hands_of_none (hcounter : m.shared.inner.retryGeneration = d.inner.retryGeneration)
    (hself : captured m.self = none)
    (hchild : ∀ c ∈ m.spawned, captured c = none ∨ captured c = captured t) : Hands d t m where
  counter := Nat.le_of_eq hcounter.symm
  self g hg := by
    rw [hself] at hg
    cases hg
  child c hc := by
    refine ⟨Or.inl hself, fun g hg => ?_⟩
    rcases hchild c hc with hnone | hsame
    · rw [hnone] at hg
      cases hg
    · exact hsame ▸ hg

theorem hands_of_same (hcounter : d.inner.retryGeneration ≤ m.shared.inner.retryGeneration)
    (hself : captured m.self = captured t) (hchild : ∀ c ∈ m.spawned, captured c = none) :
    Hands d t m where
  counter := hcounter
  self g hg := Or.inl (hself ▸ hg)
  child c hc := ⟨Or.inr (hchild c hc), fun g hg => by
    rw [hchild c hc] at hg
    cases hg⟩

theorem captured_ofRequest (id : Nat) (restarting : Bool) (config : Config) (pc : StartPc) :
    captured (.starting (.ofRequest id restarting) config pc) = none := by
  cases restarting <;> rfl

theorem captured_resume (caller : Caller) (result : Option Error) :
    captured (caller.resume result) = none := by
  cases caller <;> cases result <;> rfl

theorem setState_generation (o : Outside) (me : Nat) (d : Shared) (call : SetState) :
    (setStateNext o me d call).1.inner.retryGeneration = d.inner.retryGeneration := by
  cases call with
  | update state lastError =>
    obtain ⟨since, err, heq⟩ := d.inner.setState_eq o state lastError
    simp only [setStateNext, heq]
  | persist => simp only [setStateNext, Shared.persistState_inner]
  | snapshot => rfl
  | emit snapshot => rfl

/-- What `schedule_engine_retry` can do. -/
theorem scheduleNext_cases {config : Config} {pc : SchedulePc} {result : Scheduled}
    (h : scheduleNext o d config pc = (shared, result)) :
    (pc = .lock ∧ shared = d ∧ result = .returned) ∨
    (pc = .lock ∧ shared.inner.retryGeneration = d.inner.retryGeneration + 1 ∧
      ∃ delay, result = .next (.spawn (d.inner.retryGeneration + 1) delay)) ∨
    ∃ generation delay, pc = .spawn generation delay ∧ shared = d ∧
      (result = .spawned (.retry config generation delay .sleep) generation ∨
        result = .panicked) := by
  cases pc with
  | lock =>
    simp only [scheduleNext] at h
    split at h
    · cases h
      exact Or.inl ⟨rfl, rfl, rfl⟩
    · cases h
      exact Or.inr (Or.inl ⟨rfl, rfl, _, rfl⟩)
  | spawn generation delay =>
    simp only [scheduleNext] at h
    split at h
    · cases h
      exact Or.inr (Or.inr ⟨_, _, rfl, rfl, Or.inl rfl⟩)
    · cases h
      exact Or.inr (Or.inr ⟨_, _, rfl, rfl, Or.inr rfl⟩)

/-- What the call leaves to its caller. -/
def ofScheduled : Scheduled → Option Nat
  | .next pc => ofSchedule pc
  | _ => none

def spawnedBy : Scheduled → Option Thread
  | .spawned retry _ => some retry
  | _ => none

/-- It is all the same who calls `schedule_engine_retry`. -/
theorem schedule_hands {config : Config} {pc : SchedulePc} {result : Scheduled}
    (h : scheduleNext o d config pc = (m.shared, result)) (ht : captured t = ofSchedule pc)
    (hself : captured m.self = ofScheduled result) (hspawned : m.spawned = spawnedBy result) :
    Hands d t m := by
  rcases scheduleNext_cases h with ⟨rfl, hshared, rfl⟩ | ⟨rfl, hgrows, delay, rfl⟩ |
    ⟨generation, delay, rfl, hshared, rfl | rfl⟩
  · exact hands_of_none (by rw [hshared]) hself (by simp [hspawned, spawnedBy])
  · refine ⟨by rw [hgrows]; omega, fun g hg => Or.inr ?_, by simp [hspawned, spawnedBy]⟩
    rw [hself] at hg
    cases hg
    exact ⟨rfl, hgrows⟩
  · refine hands_of_none (by rw [hshared]) hself fun c hc => Or.inr ?_
    rw [hspawned] at hc
    cases hc
    exact ht.symm
  · exact hands_of_none (by rw [hshared]) hself (by simp [hspawned, spawnedBy])

theorem engine_schedule_hands {e : Engine} {v : Option Nat} {result : Option Error}
    {pc : SchedulePc} (h : teardownNext o me d e v result (.scheduleRetry pc) = some m)
    (hpc : e.pc = .teardown v result (.scheduleRetry pc)) : Hands d (.engine e) m := by
  obtain ⟨config, tunScript, publishing, epc⟩ := e
  subst hpc
  simp only [teardownNext] at h
  generalize hs : scheduleNext o d config pc = scheduled at h
  obtain ⟨shared, outcome⟩ := scheduled
  cases outcome <;> cases h <;> exact schedule_hands hs rfl rfl rfl

theorem engineRun_hands {e : Engine} (h : engineRunNext o me fresh d e = some m) :
    Hands d (.engine e) m := by
  simp only [engineRunNext] at h
  split at h
  · cases h
    exact hands_of_none rfl rfl (by simp)
  · cases hpc : e.pc with
    | session v pc =>
      simp only [hpc, sessionNext] at h
      repeat' split at h
      all_goals cases h
      all_goals exact hands_of_none rfl rfl (by simp [captured, retryOf])
    | teardown v result pc =>
      cases pc with
      | scheduleRetry pc =>
        simp only [hpc] at h
        exact engine_schedule_hands h hpc
      | free =>
        simp only [hpc, teardownNext] at h
        cases h
        refine hands_of_none ?_ ?_ (by simp)
        · cases v <;> rfl
        · cases result <;> rfl
      | _ =>
        simp only [hpc, teardownNext] at h
        repeat' split at h
        all_goals cases h
        all_goals exact hands_of_none rfl rfl (by simp)
    | _ =>
      simp only [hpc] at h
      repeat' split at h
      all_goals cases h
      all_goals exact hands_of_none rfl rfl (by simp)

theorem panicked_hands {config : Config} {pc : SchedulePc} {publishing : Option SetState}
    (h : panickedNext o me d config pc publishing = some m) :
    Hands d (.panicked config publishing pc) m := by
  cases publishing with
  | some call =>
    have hcounter := setState_generation o me d call
    cases call <;> cases h <;> exact hands_of_same (Nat.le_of_eq hcounter.symm) rfl (by simp)
  | none =>
    simp only [panickedNext] at h
    generalize hs : scheduleNext o d config pc = scheduled at h
    obtain ⟨shared, outcome⟩ := scheduled
    cases outcome <;> cases h <;> exact schedule_hands hs rfl rfl rfl

theorem next_hands (h : daemon.next o me fresh d t = some m) : Hands d t m := by
  replace h := daemon_next h
  cases t with
  | main pc =>
    simp only [threadNext, mainNext] at h
    repeat' split at h
    all_goals cases h
    all_goals exact hands_of_none (by simp [Shared.addRedactionSecrets]) rfl (by simp)
  | request r pc =>
    simp only [threadNext, requestNext] at h
    repeat' split at h
    all_goals cases h
    all_goals refine hands_of_none ?_ ?_ ?_
    all_goals first
      | rfl
      | exact captured_ofRequest _ _ _ _
      | simp [captured, retryOf]
  | network pc =>
    obtain ⟨last, hlast⟩ := d.inner.networkAction_fst o
    cases pc with
    | decide =>
      simp only [threadNext, networkNext] at h
      split at h <;> cases h <;> exact hands_of_none (by simp [hlast]) rfl (by simp)
    | publish fd call =>
      have hcounter := setState_generation o me d call
      cases call <;> cases h <;> exact hands_of_none hcounter rfl (by simp)
    | writePause fd =>
      cases h
      exact hands_of_none rfl rfl (by simp)
  | retry config generation delay pc =>
    simp only [threadNext, retryNext] at h
    repeat' split at h
    all_goals cases h
    all_goals first
      | exact hands_of_same (Nat.le_refl _) rfl (by simp)
      | exact hands_of_none rfl rfl (by simp)
  | starting caller config pc =>
    simp only [threadNext, startNext] at h
    repeat' split at h
    all_goals cases h
    all_goals first
      | exact hands_of_same (Nat.le_refl _) rfl (by simp [captured, ofEngine])
      | exact hands_of_same (Nat.le_succ _) rfl (by simp)
      | exact hands_of_none rfl (captured_resume _ _) (by simp)
  | engine e =>
    obtain ⟨config, tunScript, publishing, pc⟩ := e
    cases publishing with
    | some call =>
      have hcounter := setState_generation o me d call
      cases call <;> cases h <;> exact hands_of_same (Nat.le_of_eq hcounter.symm) rfl (by simp)
    | none => exact engineRun_hands h
  | panicked config publishing pc => exact panicked_hands h
  | health gateway interval pc =>
    simp only [threadNext, healthNext] at h
    repeat' split at h
    all_goals cases h
    all_goals exact hands_of_none rfl rfl (by simp)
  | writer ch =>
    simp only [threadNext, writerNext] at h
    split at h <;> cases h <;> exact hands_of_none rfl rfl (by simp)
  | replied response => cases h
  | done => cases h

/-- Only a retry thread is one afterwards, with what it was spawned with. -/
theorem retry_self {config : Config} {generation delay : Nat} {pc : RetryPc}
    (h : daemon.next o me fresh d t = some m)
    (hself : m.self = .retry config generation delay pc) :
    ∃ pc', t = .retry config generation delay pc' := by
  have hkind := (next_kind h).1
  rw [hself] at hkind
  cases t with
  | retry config' generation' delay' pc' =>
    replace h := daemon_next h
    simp only [threadNext, retryNext] at h
    repeat' split at h
    all_goals cases h
    all_goals cases hself
    all_goals exact ⟨_, rfl⟩
  | _ => cases hkind

/-- A retry thread whose generation is not the current one leaves its loop at its check. -/
theorem stale_leaves {config : Config} {generation delay : Nat}
    (hstale : generation ≠ d.inner.retryGeneration)
    (h : daemon.next o me fresh d (.retry config generation delay .check) = some m) :
    m = { shared := d, self := .done } := by
  have hobsolete : d.inner.retryObsolete generation = true := by
    simp [Inner.retryObsolete, hstale.symm]
  replace h := daemon_next h
  simp only [threadNext, retryNext, hobsolete, if_true] at h
  cases h
  rfl

end Sections

/-- The generations that have been captured are distinct, and the counter has reached them. -/
structure Issued (p : Process) : Prop where
  exclusive : Pool.Exclusive captured p
  reached : ∀ t ∈ p.threads, ∀ g, captured t = some g → g ≤ p.shared.inner.retryGeneration

section Runs
variable {p p' : Process} {a : Step} {e : Option Effect} {t es : List Effect}

theorem arrival_captures_nothing {d : Shared} {t : Thread} (h : daemon.arrives d t = true) :
    captured t = none := by
  rcases (arrives_kind h).2 with ⟨r, rfl⟩ | rfl <;> rfl

theorem issued_step (h : Issued p) (hs : daemon.system.step p a = some (p', e)) : Issued p' := by
  rcases Program.step_cases hs with ⟨i, o, th, m, rfl, ht, hm, rfl, rfl⟩ | ⟨th, rfl, ha, rfl, rfl⟩
  · have hands := next_hands hm
    have hreached := h.reached th (List.mem_of_getElem? ht)
    have hheld : ∀ u k, (u = m.self ∨ m.spawned = some u) → captured u = some k →
        captured th = some k ∨
          (k = p.shared.inner.retryGeneration + 1 ∧ m.shared.inner.retryGeneration = k) := by
      rintro u k (rfl | hchild) hk
      · exact hands.self k hk
      · exact Or.inl ((hands.child u hchild).2 k hk)
    have hgrows : ∀ u k, (u = m.self ∨ m.spawned = some u) → captured u = some k →
        k ≤ m.shared.inner.retryGeneration := by
      intro u k hu hk
      rcases hheld u k hu hk with hmover | ⟨-, hcounter⟩
      · exact Nat.le_trans (hreached k hmover) hands.counter
      · exact Nat.le_of_eq hcounter.symm
    refine ⟨h.exclusive.after ht ?_ fun c hc => (hands.child c hc).1, fun u hu k hk => ?_⟩
    · intro u k hu hk
      refine (hheld u k hu hk).imp id ?_
      rintro ⟨rfl, -⟩ w hw hwk
      have hle := h.reached w hw _ hwk
      omega
    · rcases Pool.mem_after hu with hself | hchild | hold
      · exact hgrows u k (Or.inl hself) hk
      · exact hgrows u k (Or.inr hchild) hk
      · exact Nat.le_trans (h.reached u hold k hk) hands.counter
  · refine ⟨h.exclusive.join (arrival_captures_nothing ha), fun u hu g hg => ?_⟩
    rcases Pool.mem_join.mp hu with hold | rfl
    · exact h.reached u hold g hg
    · rw [arrival_captures_nothing ha] at hg
      cases hg

theorem issued (t : List Effect) (p : Process) (h : System.Reachable daemon.system t p) :
    Issued p := by
  apply h.invariant (I := fun _ p => Issued p)
  · rintro _ ⟨d, th, ⟨targetUid, targetGid, tunScript, environ, rfl, rfl⟩, rfl⟩
    have hnone : ∀ th ∈ [Thread.main .load], captured th = none := by
      intro th hth
      rw [List.mem_singleton.mp hth]
      rfl
    constructor
    · intro i j t u k ht _ hk _
      rw [hnone t (List.mem_of_getElem? ht)] at hk
      cases hk
    · intro th hth g hg
      rw [hnone th hth] at hg
      cases hg
  · intro t p a p' e _ hp _ hs
    exact issued_step hp hs

theorem counter_step (hs : daemon.system.step p a = some (p', e)) :
    p.shared.inner.retryGeneration ≤ p'.shared.inner.retryGeneration := by
  rcases Program.step_cases hs with ⟨i, o, th, m, -, -, hm, rfl, -⟩ | ⟨th, -, -, rfl, -⟩
  · exact (next_hands hm).counter
  · exact Nat.le_refl _

/-- As the daemon goes on, the counter does not go back, and a retry thread is one that there
was. -/
theorem retry_kept {i : Nat} {th : Thread} (ht : p.threads[i]? = some th)
    (h : System.Reachable (daemon.system.startedAt p) es p') :
    p.shared.inner.retryGeneration ≤ p'.shared.inner.retryGeneration ∧
      ∃ u, p'.threads[i]? = some u ∧ ∀ config generation delay pc,
        u = .retry config generation delay pc → ∃ pc', th = .retry config generation delay pc' := by
  apply h.invariant (I := fun _ p' => p.shared.inner.retryGeneration ≤
    p'.shared.inner.retryGeneration ∧ ∃ u, p'.threads[i]? = some u ∧ ∀ config generation delay pc,
      u = .retry config generation delay pc → ∃ pc', th = .retry config generation delay pc')
  · rintro _ rfl
    exact ⟨Nat.le_refl _, th, ht, fun _ _ _ pc hu => ⟨pc, hu⟩⟩
  · rintro t p₁ a p₂ e _ ⟨hcounter, u, hu, hretry⟩ _ hs
    refine ⟨Nat.le_trans hcounter (counter_step hs), ?_⟩
    rcases Program.step_at hs hu with hsame | ⟨o, m, hm, hself⟩
    · exact ⟨u, hsame, hretry⟩
    · refine ⟨m.self, hself, fun config generation delay pc heq => ?_⟩
      obtain ⟨pc', rfl⟩ := retry_self hm heq
      exact hretry config generation delay pc' rfl

/-- A retry thread that is superseded before its check never comes to call `engine_start`. -/
theorem superseded {i : Nat} {config : Config} {generation delay : Nat} {pc : RetryPc}
    (ht : p.threads[i]? = some (.retry config generation delay pc)) (hpc : pc ≠ .probe)
    (hstale : generation < p.shared.inner.retryGeneration)
    (h : System.Reachable (daemon.system.startedAt p) es p') :
    p.shared.inner.retryGeneration ≤ p'.shared.inner.retryGeneration ∧
      (p'.threads[i]? = some .done ∨
        ∃ pc', pc' ≠ .probe ∧ p'.threads[i]? = some (.retry config generation delay pc')) := by
  apply h.invariant (I := fun _ p' => p.shared.inner.retryGeneration ≤
    p'.shared.inner.retryGeneration ∧ (p'.threads[i]? = some .done ∨
      ∃ pc', pc' ≠ .probe ∧ p'.threads[i]? = some (.retry config generation delay pc')))
  · rintro _ rfl
    exact ⟨Nat.le_refl _, Or.inr ⟨pc, hpc, ht⟩⟩
  · rintro t p₁ a p₂ e _ ⟨hcounter, hthread⟩ _ hs
    refine ⟨Nat.le_trans hcounter (counter_step hs), ?_⟩
    rcases hthread with hdone | ⟨pc', hpc', hu⟩
    · rcases Program.step_at hs hdone with hsame | ⟨o, m, hm, -⟩
      · exact Or.inl hsame
      · cases daemon_next hm
    · rcases Program.step_at hs hu with hsame | ⟨o, m, hm, hself⟩
      · exact Or.inr ⟨pc', hpc', hsame⟩
      · cases pc' with
        | sleep =>
          cases daemon_next hm
          exact Or.inr ⟨.check, by simp, hself⟩
        | check =>
          rw [stale_leaves (by omega) hm] at hself
          exact Or.inl hself
        | probe => exact absurd rfl hpc'

end Runs

/-- The thread is a live retry thread with this generation. -/
def LiveRetry (p : Process) (i generation : Nat) : Prop :=
  ∃ t, p.threads[i]? = some t ∧ retryOf t = some generation

/-- However the daemon goes on, the retry thread leaves its loop at its next check; and if it has
not passed one since it slept, it does not call `engine_start` before that either. -/
def LeavesLoop (p : Process) (i : Nat) : Prop :=
  ∀ es p', System.Reachable (daemon.system.startedAt p) es p' →
    (∀ config generation delay o m,
      p'.threads[i]? = some (.retry config generation delay .check) →
      daemon.next o i p'.threads.length p'.shared (.retry config generation delay .check) = some m →
      m = { shared := p'.shared, self := .done }) ∧
    ((∀ config generation delay, p.threads[i]? ≠ some (.retry config generation delay .probe)) →
      ∀ caller config pc, p'.threads[i]? ≠ some (.starting caller config pc))

structure OneCurrent (p : Process) : Prop where
  distinct : ∀ i j generation, LiveRetry p i generation → LiveRetry p j generation → i = j
  reached : ∀ i generation, LiveRetry p i generation → generation ≤ p.shared.inner.retryGeneration
  current : ∀ i j, LiveRetry p i p.shared.inner.retryGeneration →
    LiveRetry p j p.shared.inner.retryGeneration → i = j
  others : ∀ i config generation delay pc,
    p.threads[i]? = some (.retry config generation delay pc) →
    generation ≠ p.shared.inner.retryGeneration → LeavesLoop p i

theorem leavesLoop {p : Process} (h : Issued p) {i : Nat} {config : Config}
    {generation delay : Nat} {pc : RetryPc}
    (ht : p.threads[i]? = some (.retry config generation delay pc))
    (hstale : generation ≠ p.shared.inner.retryGeneration) : LeavesLoop p i := by
  have hlt : generation < p.shared.inner.retryGeneration :=
    Nat.lt_of_le_of_ne (h.reached _ (List.mem_of_getElem? ht) generation rfl) hstale
  intro es p' hrun
  constructor
  · intro config' generation' delay' o m hcheck hm
    obtain ⟨hcounter, u, hu, hsame⟩ := retry_kept ht hrun
    rw [hu] at hcheck
    obtain ⟨pc', heq⟩ := hsame _ _ _ _ (Option.some.inj hcheck)
    cases heq
    exact stale_leaves (by omega) hm
  · intro hloop caller config' pc' hstarting
    have hpc : pc ≠ .probe := by
      rintro rfl
      exact hloop config generation delay ht
    rcases (superseded ht hpc hlt hrun).2 with hdone | ⟨pc', -, hretry⟩
    · rw [hdone] at hstarting
      cases hstarting
    · rw [hretry] at hstarting
      cases hstarting

/-- Whatever engines fail and whoever starts them, at most one retry thread is current, and the
others give up. -/
theorem one_current_retry (t : List Effect) (p : Process)
    (h : System.Reachable daemon.system t p) : OneCurrent p := by
  have hissued := issued t p h
  have hdistinct : ∀ i j generation, LiveRetry p i generation → LiveRetry p j generation →
      i = j := by
    rintro i j generation ⟨u, hu, hgu⟩ ⟨w, hw, hgw⟩
    exact hissued.exclusive i j u w generation hu hw (captured_of_retryOf hgu)
      (captured_of_retryOf hgw)
  refine ⟨hdistinct, ?_, fun i j => hdistinct i j _, fun i config generation delay pc =>
    leavesLoop hissued⟩
  rintro i generation ⟨u, hu, hgu⟩
  exact hissued.reached u (List.mem_of_getElem? hu) generation (captured_of_retryOf hgu)

/-- The engine of a first start fails, and so does that of a second one. -/
def failsTwice : List Step :=
  serve ++ [client 1 "start"] ++ loadStart 1 ++ sections 1 5 ++ sections 2 20 { null := true } ++
    [client 2 "start"] ++ loadStart 4 ++ sections 4 5 ++ sections 5 20 { null := true }

theorem one_current_retry_sample : ∃ t p, System.Reachable daemon.system t p ∧
    LiveRetry p 3 2 ∧ LiveRetry p 6 4 ∧ p.shared.inner.retryGeneration = 4 ∧ OneCurrent p := by
  obtain ⟨t, p, hr, hp⟩ := System.exists_reach (fun _ _ => true) failsTwice
    (fun _ p => p.threads[3]? == some (.retry sampleConfig 2 10 .sleep) &&
      p.threads[6]? == some (.retry sampleConfig 4 10 .sleep) &&
      p.shared.inner.retryGeneration == 4) (boot_init 1000 1000 none []) (by decide)
  simp only [Bool.and_eq_true, beq_iff_eq] at hp
  obtain ⟨⟨hfirst, hsecond⟩, hcounter⟩ := hp
  exact ⟨t, p, hr, ⟨_, hfirst, rfl⟩, ⟨_, hsecond, rfl⟩, hcounter, one_current_retry t p hr⟩

end InodeVpn.Proofs.RetryGeneration
