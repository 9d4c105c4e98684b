import InodeVpn.Proofs.Sections

namespace InodeVpn.Proofs.RefusedStart
open InodeVpn.Core Lib Daemon Sections

/-- The fields that a refused start leaves as they are. -/
def startFields (i : Inner) : Bool × Option String × Option Config × Nat × Option Nat ×
    Option RawFd × SessionState :=
  (i.stopRequested, i.lastError, i.config, i.retryGeneration, i.engine, i.cmdFd, i.state)

/-- A retry thread waits that will not find itself obsolete. -/
def Pending (generation : Nat) (p : Process) : Prop :=
  (∃ config delay pc, .retry config generation delay pc ∈ p.threads) ∧
    p.shared.inner.retryObsolete generation = false

/-- Nothing has changed, and an automatic retry that was pending still is. -/
structure Untouched (p p' : Process) : Prop where
  fields : startFields p'.shared.inner = startFields p.shared.inner
  pending : ∀ generation, Pending generation p → Pending generation p'

/-- The thread `i` runs its call of `engine_start` to an `Err`. In between other threads may run,
as long as they do not change these fields themselves. -/
inductive Refusal (i : Nat) (caller : Caller) : Process → Process → Prop
  | refused {p p' : Process} {o : Outside} {error : Error}
      (moves : daemon.system.step p (.run i o) = some (p', some (.refused i caller error))) :
      Refusal i caller p p'
  | goesOn {p p₁ p' : Process} {o : Outside} {e : Option Effect}
      (moves : daemon.system.step p (.run i o) = some (p₁, e))
      (on : ∀ error, e ≠ some (.refused i caller error)) (rest : Refusal i caller p₁ p') :
      Refusal i caller p p'
  | elsewhere {p p₁ p' : Process} {a : Step} {e : Option Effect}
      (moves : daemon.system.step p a = some (p₁, e)) (other : ∀ o, a ≠ .run i o)
      (same : startFields p₁.shared.inner = startFields p.shared.inner)
      (rest : Refusal i caller p₁ p') : Refusal i caller p p'

section Running
variable {i : Nat} {caller : Caller} {config : Config} {p p' : Process}

/-- With an engine in its slot every retry is obsolete. -/
theorem not_pending {generation : Nat} (hengine : p.shared.inner.engine.isSome = true) :
    ¬ Pending generation p := by
  rintro ⟨-, hgoes⟩
  rw [Inner.retryObsolete_eq_false] at hgoes
  rw [hgoes.2.2.1] at hengine
  cases hengine

/-- The check with an engine running: nothing is done but to refuse. -/
theorem check_refuses {o : Outside} {e : Option Effect}
    (ht : p.threads[i]? = some (.starting caller config .check))
    (hengine : p.shared.inner.engine.isSome = true)
    (h : daemon.system.step p (.run i o) = some (p', e)) :
    e = some (.refused i caller (.ipc "engine already running")) ∧ p'.shared = p.shared := by
  rcases Program.step_cases h with ⟨j, o', t, m, ha, ht', hm, rfl, rfl⟩ | ⟨t, ha, -, -, -⟩
  · cases ha
    rw [ht] at ht'
    cases ht'
    replace hm := daemon_next hm
    simp only [threadNext, startNext, hengine, if_true] at hm
    cases hm
    exact ⟨rfl, rfl⟩
  · cases ha

/-- Another thread's step leaves the caller where it is. -/
theorem elsewhere_running {a : Step} {e : Option Effect} {t : Thread}
    (ht : p.threads[i]? = some t) (h : daemon.system.step p a = some (p', e))
    (hother : ∀ o, a ≠ .run i o) : p'.threads[i]? = some t := by
  rcases Program.step_cases h with ⟨j, o, u, m, rfl, hu, hm, rfl, -⟩ | ⟨u, rfl, -, rfl, -⟩
  · have hij : i ≠ j := by
      rintro rfl
      exact hother o rfl
    exact Pool.others_after hu ht hij m
  · exact Pool.others_join ht u

theorem Refusal.live (h : Refusal i caller p p') : p.shared.exited = false := by
  cases h with
  | refused moves => exact not_exited moves
  | goesOn moves on rest => exact not_exited moves
  | elsewhere moves other same rest => exact not_exited moves

theorem Refusal.untouched (h : Refusal i caller p p')
    (ht : p.threads[i]? = some (.starting caller config .check))
    (hengine : p.shared.inner.engine.isSome = true) : Untouched p p' := by
  induction h with
  | refused moves =>
    obtain ⟨-, hshared⟩ := check_refuses ht hengine moves
    exact ⟨by rw [hshared], fun generation hp => absurd hp (not_pending hengine)⟩
  | goesOn moves on rest ih => exact absurd (check_refuses ht hengine moves).1 (on _)
  | @elsewhere p p₁ p' a e moves other same rest ih =>
    have hsome : p₁.shared.inner.engine.isSome = true := by
      rwa [show p₁.shared.inner.engine = p.shared.inner.engine from
        congrArg (fun fields => fields.2.2.2.2.1) same]
    have huntouched := ih (elsewhere_running ht moves other) hsome
    exact ⟨huntouched.fields.trans same, fun generation hp => absurd hp (not_pending hengine)⟩

/-- With no engine running the call can still be refused, after it has reset the fields. -/
theorem spawn_fails (ht : p.threads[i]? = some (.starting caller config .check))
    (hengine : p.shared.inner.engine = none) (hlive : p.shared.exited = false) :
    ∃ p', Refusal i caller p p' ∧ p'.shared.inner = (p.shared.acceptStart config).inner := by
  let accepted : Section :=
    { shared := p.shared.acceptStart config, self := .starting caller config .addSecrets
      effect := some (.accepted i caller) }
  let named : Section :=
    { shared := (p.shared.acceptStart config).addRedactionSecrets config
      self := .starting caller config .tunScript }
  let ready : Section :=
    { shared := (p.shared.acceptStart config).addRedactionSecrets config
      self := .starting caller config (.spawn p.shared.inner.tunScript) }
  let failed : Section :=
    { shared := (p.shared.acceptStart config).addRedactionSecrets config
      self := caller.resume (some (.ipc ("spawn engine failed: " ++ "")))
      effect := some (.refused i caller (.ipc ("spawn engine failed: " ++ ""))) }
  have haccept : threadNext {} i p.threads.length p.shared (.starting caller config .check) =
      some accepted := by
    simp [threadNext, startNext, hengine, accepted]
  have ht₁ := Pool.self_after ht accepted
  have ht₂ := Pool.self_after ht₁ named
  have ht₃ := Pool.self_after ht₂ ready
  refine ⟨(((p.after i accepted).after i named).after i ready).after i failed, ?_, rfl⟩
  apply Refusal.goesOn (step_live ht hlive haccept) (by simp [accepted])
  apply Refusal.goesOn (step_live (o := {}) ht₁ hlive rfl) (by simp)
  apply Refusal.goesOn (step_live (o := {}) ht₂ hlive rfl) (by simp)
  exact .refused (step_live (o := { spawns := false }) ht₃ hlive rfl)

end Running

/-- A refused start changes nothing exactly if what refuses it is a running engine; the other
refusal comes after the fields have been reset. -/
theorem refused_untouched (p : Process) (i : Nat) (caller : Caller) (config : Config)
    (ht : p.threads[i]? = some (.starting caller config .check)) :
    (∀ p', Refusal i caller p p' → Untouched p p') ↔
      (p.shared.inner.engine.isSome = true ∨ p.shared.exited = true) := by
  constructor
  · intro h
    by_contra hnot
    rw [not_or] at hnot
    obtain ⟨p', hrefusal, hinner⟩ := spawn_fails ht (by simpa using hnot.1) (by simpa using hnot.2)
    have hgeneration : p'.shared.inner.retryGeneration = p.shared.inner.retryGeneration :=
      congrArg (fun fields => fields.2.2.2.1) (h p' hrefusal).fields
    rw [hinner] at hgeneration
    exact absurd hgeneration (Nat.succ_ne_self _)
  · rintro (hengine | hexited) p' hrefusal
    · exact hrefusal.untouched ht hengine
    · exact absurd hexited (by rw [hrefusal.live]; simp)

/-- An engine runs, and a second `start` is at its check. -/
def startsAgain : List Step :=
  serve ++ [client 1 "start"] ++ loadStart 1 ++ sections 1 5 ++ [client 2 "start"] ++ loadStart 3

theorem refused_untouched_sample : ∃ t p, System.Reachable daemon.system t p ∧
    ∀ p', Refusal 3 (.start 2) p p' → Untouched p p' := by
  obtain ⟨t, p, hr, hp⟩ := System.exists_reach (fun _ _ => true) startsAgain
    (fun _ p => p.threads[3]? == some (.starting (.start 2) sampleConfig .check) &&
      p.shared.inner.engine.isSome) (boot_init 1000 1000 none []) (by decide)
  simp only [Bool.and_eq_true, beq_iff_eq] at hp
  exact ⟨t, p, hr, (refused_untouched p 3 _ _ hp.1).mpr (Or.inl hp.2)⟩

/-- An engine has failed and a retry is pending; the client sends `start` again. -/
def startsAfterFailure : List Step :=
  serve ++ [client 1 "start"] ++ loadStart 1 ++ sections 1 5 ++ sections 2 20 { null := true } ++
    [client 2 "start"] ++ loadStart 4

/-- That start cannot spawn its thread, and the pending retry is lost with it. -/
theorem retry_lost : ¬ ∀ t p, System.Reachable daemon.system t p →
    ∀ i caller config, p.threads[i]? = some (.starting caller config .check) →
      ∀ p', Refusal i caller p p' → Untouched p p' := by
  intro h
  obtain ⟨t, p, hr, hp⟩ := System.exists_reach (fun _ _ => true) startsAfterFailure
    (fun _ p => p.threads[4]? == some (.starting (.start 2) sampleConfig .check) &&
      p.threads[3]? == some (.retry sampleConfig 2 10 .sleep) &&
      !p.shared.inner.retryObsolete 2 && !p.shared.exited) (boot_init 1000 1000 none []) (by decide)
  simp only [Bool.and_eq_true, beq_iff_eq, Bool.not_eq_true'] at hp
  obtain ⟨⟨⟨ht, hretry⟩, hgoes⟩, hlive⟩ := hp
  have hengine := (Inner.retryObsolete_eq_false.mp hgoes).2.2.1
  obtain ⟨p', hrefusal, hinner⟩ := spawn_fails ht hengine hlive
  have hpending : Pending 2 p := ⟨⟨_, _, _, List.mem_of_getElem? hretry⟩, hgoes⟩
  have hstill := ((h t p hr 4 _ _ ht p' hrefusal).pending 2 hpending).2
  have hbefore := (Inner.retryObsolete_eq_false.mp hgoes).2.1
  have hafter := (Inner.retryObsolete_eq_false.mp hstill).2.1
  rw [hinner] at hafter
  simp only [Shared.acceptStart] at hafter
  omega

end InodeVpn.Proofs.RefusedStart
