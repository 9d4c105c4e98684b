import InodeVpn.Proofs.Sections

namespace InodeVpn.Proofs.SessionSettles
open InodeVpn.Core Lib Daemon Sections

/-- From this place on `engine_run` still publishes Stopped or Failed. -/
def pcOwes : EnginePc → Bool
  | .teardown _ none _ => false
  | .teardown _ (some _) (.scheduleRetry _) => false
  | .teardown _ (some _) .guardDrop => false
  | _ => true

/-- The thread of an engine that has yet to publish Stopped or Failed. -/
def owes : Thread → Bool
  | .engine ⟨_, _, some (.update _ _), _⟩ => true
  | .engine e => pcOwes e.pc
  | .panicked _ (some (.update _ _)) _ => true
  | _ => false

/-- `network_changed` has chosen to pause and has released the lock, but has not
published Reconnecting yet. -/
def pausing : Thread → Bool
  | .network (.publish _ (.update _ _)) => true
  | _ => false

/-- What the thread is about to publish agrees with where it is: the states in
between are published on the way to a terminal one. -/
def coherent : Thread → Prop
  | .engine ⟨_, _, some (.update state _), pc⟩ => state.isTerminal = false → pcOwes pc = true
  | .panicked _ (some (.update state _)) _ => state.isTerminal = true
  | _ => True

/-- What one section does to the session state. -/
inductive SettleStep (d : Shared) (t : Thread) (m : Section) : Prop
  | keep (same : m.shared.inner.state = d.inner.state) (owing : owes t = true → owes m.self = true)
      (decided : pausing m.self = true → pausing t = true ∨ d.inner.state.isTerminal = false)
  | publish (state : SessionState) (lastError : Option String)
      (publisher : (∃ e, t = .engine e ∧ e.publishing = some (.update state lastError)) ∨
        ∃ config pc, t = .panicked config (some (.update state lastError)) pc)
      (set : m.shared.inner.state = state)
      (owing : state.isTerminal = false → owes m.self = true) (quiet : pausing m.self = false)
  | pause (was : pausing t = true) (quiet : pausing m.self = false) (debt : owes t = false)

section Sections
variable {o : Outside} {me fresh : Nat} {d : Shared} {m : Section} {t : Thread}

/-- The code that calls `set_state` nowhere. -/
def silent : Kind → Bool
  | .engine | .panicked | .network => false
  | _ => true

/-- It does not go on to code that does. -/
theorem goesOn_silent {k k' : Kind} (h : goesOn k k' = true) (hk : silent k = true) :
    silent k' = true := by
  cases k with
  | engine | panicked | network => cases hk
  | _ => cases k' <;> first | rfl | cases h

theorem silent_thread (h : silent (kind t) = true) :
    coherent t ∧ owes t = false ∧ pausing t = false := by
  cases t with
  | engine e => cases h
  | panicked config publishing pc => cases h
  | network pc => cases h
  | _ => exact ⟨trivial, rfl, rfl⟩

/-- An engine starts coherent, and no other thread is spawned that publishes. -/
theorem canSpawn_coherent (h : canSpawn t = true) : coherent t ∧ pausing t = false := by
  cases t with
  | engine e =>
    obtain ⟨config, tunScript, publishing, pc⟩ := e
    obtain ⟨rfl, rfl⟩ := canSpawn_engine h
    exact ⟨fun _ => rfl, rfl⟩
  | retry config generation delay pc => exact ⟨trivial, rfl⟩
  | health gateway interval pc => exact ⟨trivial, rfl⟩
  | writer ch => exact ⟨trivial, rfl⟩
  | _ => cases h

/-- A section of a thread that never publishes. -/
theorem silent_step (hstate : m.shared.inner.state = d.inner.state) (hdebt : owes t = false)
    (hpause : pausing m.self = true → pausing t = true ∨ d.inner.state.isTerminal = false) :
    SettleStep d t m :=
  .keep hstate (fun h => by rw [hdebt] at h; cases h) hpause

theorem start_state {caller : Caller} {config : Config} {pc : StartPc}
    (h : startNext o me fresh d caller config pc = some m) :
    m.shared.inner.state = d.inner.state := by
  unfold startNext at h
  repeat' split at h
  all_goals cases h
  all_goals rfl

theorem network_step {pc : NetworkPc} (h : networkNext o me d pc = some m) :
    SettleStep d (.network pc) m ∧ coherent m.self := by
  obtain ⟨last, hlast⟩ := d.inner.networkAction_fst o
  cases pc with
  | decide =>
    simp only [networkNext] at h
    split at h
    · cases h
      exact ⟨silent_step (by simp [hlast]) rfl (fun h => by cases h), trivial⟩
    · rename_i fd hact
      cases h
      refine ⟨silent_step (by simp [hlast]) rfl fun _ => Or.inr ?_, trivial⟩
      rcases (Inner.networkAction_pause hact).2 with hs | hs <;> rw [hs] <;> rfl
    · cases h
      exact ⟨silent_step (by simp [hlast]) rfl (fun h => by cases h), trivial⟩
  | publish fd call =>
    cases call with
    | update state lastError => cases h; exact ⟨.pause rfl rfl rfl, trivial⟩
    | _ => cases h; exact ⟨silent_step (by simp) rfl (fun h => by cases h), trivial⟩
  | writePause fd => cases h; exact ⟨silent_step rfl rfl (fun h => by cases h), trivial⟩

/-- A section of `engine_run` outside of `set_state`. -/
structure Works (d : Shared) (pc : EnginePc) (m : Section) : Prop where
  state : m.shared.inner.state = d.inner.state
  owing : pcOwes pc = true → owes m.self = true
  self : coherent m.self

theorem session_works {e : Engine} {v : Nat} {pc : SessionPc}
    (h : sessionNext o me fresh d e v pc = some m) : Works d (.session v pc) m := by
  unfold sessionNext at h
  repeat' split at h
  all_goals cases h
  all_goals constructor
  all_goals simp [owes, coherent, pcOwes, Engine.goto, Engine.fail, Engine.publish, Engine.panic,
    SessionState.isTerminal]

/-- With an error the teardown publishes after the free, without one it has
published already. -/
theorem teardown_works {e : Engine} {v : Option Nat} {result : Option Error} {pc : TeardownPc}
    (h : teardownNext o me d e v result pc = some m) : Works d (.teardown v result pc) m := by
  cases pc with
  | scheduleRetry pc =>
    simp only [teardownNext] at h
    split at h
    all_goals
      rename_i heq
      obtain ⟨g, rfl⟩ := scheduleNext_shared heq
      cases h
      exact ⟨rfl, fun ho => (by cases result <;> cases ho), trivial⟩
  | takeHealth =>
    cases h
    refine ⟨rfl, ?_, trivial⟩
    intro ho
    cases d.healthThread <;> cases result <;> first | rfl | cases ho
  | joinHealth handle =>
    simp only [teardownNext] at h
    split at h <;> cases h
    exact ⟨rfl, fun ho => (by cases result <;> first | rfl | cases ho), trivial⟩
  | free =>
    cases h
    refine ⟨by cases v <;> rfl, ?_, trivial⟩
    intro ho
    cases result <;> first | rfl | cases ho
  | stopCheck error =>
    cases h
    refine ⟨rfl, fun _ => ?_, ?_⟩
    · dsimp only
      split <;> rfl
    · dsimp only
      split <;> intro h <;> cases h
  | guardDrop => cases h; exact ⟨rfl, fun ho => (by cases result <;> cases ho), trivial⟩
  | _ => cases h; exact ⟨rfl, fun ho => (by cases result <;> first | rfl | cases ho), trivial⟩

theorem engineRun_works {e : Engine} (h : engineRunNext o me fresh d e = some m) :
    Works d e.pc m := by
  obtain ⟨config, tunScript, publishing, pc⟩ := e
  simp only [engineRunNext] at h
  split at h
  · cases h
    exact ⟨rfl, fun _ => rfl, trivial⟩
  · cases pc with
    | cstrings =>
      cases h
      refine ⟨rfl, fun _ => ?_, ?_⟩
      · dsimp only
        split <;> rfl
      · dsimp only
        split
        · trivial
        · intro h
          cases h
    | initSsl =>
      cases h
      refine ⟨rfl, fun _ => ?_, ?_⟩
      · dsimp only
        split <;> rfl
      · dsimp only
        split <;> trivial
    | vpninfoNew =>
      simp only at h
      split at h <;> cases h <;> exact ⟨rfl, fun _ => rfl, trivial⟩
    | session v pc => exact session_works h
    | teardown v result pc => exact teardown_works h
    | unwind origin => cases h; exact ⟨rfl, fun _ => rfl, rfl⟩

theorem engine_step {e : Engine} (hd : daemon.next o me fresh d (.engine e) = some m)
    (h : engineNext o me fresh d e = some m) (hcoh : coherent (.engine e)) :
    SettleStep d (.engine e) m ∧ coherent m.self := by
  have hquiet : pausing m.self = false := by
    have hk := (next_kind hd).1
    generalize m.self = u at hk
    cases u with
    | network pc => cases hk
    | _ => rfl
  obtain ⟨config, tunScript, publishing, pc⟩ := e
  cases publishing with
  | none =>
    obtain ⟨hs, ho, hc⟩ := engineRun_works h
    exact ⟨.keep hs ho fun h => (by rw [hquiet] at h; cases h), hc⟩
  | some call =>
    cases call with
    | update state lastError =>
      cases h
      exact ⟨.publish state lastError (Or.inl ⟨_, rfl, rfl⟩) (by simp) hcoh hquiet, trivial⟩
    | _ =>
      cases h
      exact ⟨.keep (by simp) (fun h => h) (fun h => by cases h), trivial⟩

theorem panicked_step {config : Config} {pc : SchedulePc} {publishing : Option SetState}
    (h : panickedNext o me d config pc publishing = some m)
    (hcoh : coherent (.panicked config publishing pc)) :
    SettleStep d (.panicked config publishing pc) m ∧ coherent m.self := by
  cases publishing with
  | none =>
    simp only [panickedNext] at h
    split at h
    all_goals
      rename_i heq
      obtain ⟨g, rfl⟩ := scheduleNext_shared heq
      cases h
      exact ⟨silent_step rfl rfl (fun h => by cases h), trivial⟩
  | some call =>
    cases call with
    | update state lastError =>
      cases h
      refine ⟨.publish state lastError (Or.inr ⟨_, _, rfl⟩) (by simp) ?_ rfl, trivial⟩
      intro hn
      rw [show state.isTerminal = true from hcoh] at hn
      cases hn
    | _ => cases h; exact ⟨silent_step (by simp) rfl (fun h => by cases h), trivial⟩

theorem settles (h : daemon.next o me fresh d t = some m) (hcoh : coherent t) :
    SettleStep d t m ∧ coherent m.self := by
  have hsection := daemon_next h
  cases t with
  | network pc => exact network_step hsection
  | engine e => exact engine_step h hsection hcoh
  | panicked config publishing pc => exact panicked_step hsection hcoh
  | starting caller config pc =>
    obtain ⟨hc, -, hq⟩ := silent_thread (goesOn_silent (next_kind h).1 rfl)
    exact ⟨silent_step (start_state hsection) rfl fun h => (by rw [hq] at h; cases h), hc⟩
  | _ =>
    obtain ⟨hc, -, hq⟩ := silent_thread (goesOn_silent (next_kind h).1 rfl)
    have hb := next_bystands h (fun h => by cases h) fun h => by cases h
    have hstate := hb.state fun _ _ h => by cases h
    exact ⟨silent_step hstate rfl fun h => (by rw [hq] at h; cases h), hc⟩

end Sections

/-- The defect: `network_changed` publishes Reconnecting after it has released
the lock. A run avoids it when no engine publishes Stopped or Failed in between. -/
def settlesInOrder (p : Process) : Step → Bool
  | .run i _ =>
    match p.threads[i]? with
    | some (.engine ⟨_, _, some (.update state _), _⟩) =>
      !state.isTerminal || p.count pausing == 0
    | some (.panicked _ (some (.update state _)) _) =>
      !state.isTerminal || p.count pausing == 0
    | _ => true
  | .arrive _ => true

/-- A state that is not terminal, and a pause that may still publish one, are
covered by an engine that has yet to publish a terminal state. -/
structure Covered (p : Process) : Prop where
  coherent : ∀ t ∈ p.threads, coherent t
  owed : p.shared.inner.state.isTerminal = false → 0 < p.count owes
  paused : 0 < p.count pausing → 0 < p.count owes

theorem boot_covered {p : Process} (h : daemon.system.init p) : Covered p := by
  obtain ⟨d, t, ⟨_, _, _, _, rfl, rfl⟩, rfl⟩ := h
  refine ⟨?_, fun h => (by cases h), fun h => absurd h (Nat.lt_irrefl 0)⟩
  intro t ht
  rw [List.mem_singleton.mp ht]
  trivial

/-- What the condition says about a section that publishes a terminal state. -/
theorem pausing_none {p : Process} {i : Nat} {o : Outside} {t : Thread} {state : SessionState}
    {lastError : Option String} (hok : settlesInOrder p (.run i o) = true)
    (ht : p.threads[i]? = some t)
    (hpub : (∃ e, t = .engine e ∧ e.publishing = some (.update state lastError)) ∨
      ∃ config pc, t = .panicked config (some (.update state lastError)) pc)
    (hterm : state.isTerminal = true) : p.count pausing = 0 := by
  rcases hpub with ⟨⟨config, tunScript, publishing, pc⟩, rfl, rfl⟩ | ⟨config, pc, rfl⟩
  all_goals simpa [settlesInOrder, ht, hterm] using hok

theorem covered_step {p p' : Process} {a : Step} {e : Option Effect} (hx : Covered p)
    (hok : settlesInOrder p a = true) (h : daemon.system.step p a = some (p', e)) :
    Covered p' := by
  obtain ⟨hcoh, howed, hpaused⟩ := hx
  rcases Program.step_cases h with ⟨i, o, t, m, rfl, ht, hm, rfl, -⟩ | ⟨t, rfl, ha, rfl, -⟩
  · obtain ⟨hstep, hself⟩ := settles hm (hcoh t (List.mem_of_getElem? ht))
    have hchild := fun c hc => canSpawn_coherent ((next_kind hm).2 c hc).1
    have hcoh' := Pool.forall_after (i := i) hcoh hself fun c hc => (hchild c hc).1
    have hnew := Pool.self_after ht m
    cases hstep with
    | keep same owing decided =>
      have hle := Pool.le_count_after ht owing
      refine ⟨hcoh', ?_, ?_⟩
      · intro hn
        rw [Pool.after_shared, same] at hn
        have := howed hn
        omega
      · intro hp
        have hbefore : 0 < p.count owes := by
          by_cases hq : pausing m.self = true
          · rcases decided hq with hq | hq
            · exact hpaused (Pool.count_pos ht hq)
            · exact howed hq
          · have := Pool.count_after_le ht (fun h => absurd h hq) fun c hc => (hchild c hc).2
            exact hpaused (by omega)
        omega
    | publish state lastError publisher set owing quiet =>
      cases hterm : state.isTerminal with
      | false =>
        have hpos := Pool.count_pos hnew (owing hterm)
        exact ⟨hcoh', fun _ => hpos, fun _ => hpos⟩
      | true =>
        have hnone := pausing_none hok ht publisher hterm
        have hle := Pool.count_after_le ht (fun h => by rw [quiet] at h; cases h)
          fun c hc => (hchild c hc).2
        refine ⟨hcoh', ?_, fun hp => by omega⟩
        intro hn
        rw [Pool.after_shared, set, hterm] at hn
        cases hn
    | pause was quiet debt =>
      -- the engine that made the state pausable has not published since
      have hbefore := hpaused (Pool.count_pos ht was)
      have hle := Pool.le_count_after (m := m) ht fun h => absurd h (debt ▸ Bool.false_ne_true)
      exact ⟨hcoh', fun _ => by omega, fun _ => by omega⟩
  · have hquiet : coherent t ∧ owes t = false ∧ pausing t = false := by
      rcases (arrives_kind ha).2 with ⟨r, rfl⟩ | rfl <;> exact ⟨trivial, rfl, rfl⟩
    obtain ⟨hc, ho, hp⟩ := hquiet
    refine ⟨?_, by simpa [ho] using howed, by simpa [ho, hp] using hpaused⟩
    intro x hx
    rcases Pool.mem_join.mp hx with hx | rfl
    · exact hcoh x hx
    · exact hc

theorem reach_covered {t : List Effect} {p : Process}
    (h : System.Reach daemon.system settlesInOrder t p) : Covered p := by
  apply h.invariant (I := fun _ p => Covered p)
  · intro p hp
    exact boot_covered hp
  · intro t p a p' e _ hx hok hs
    exact covered_step hx hok hs

/-- Threads that are in a spawned engine's closure, in `engine_start`, in
`network_changed` or in `set_state`. -/
def inProgress : Thread → Bool
  | .engine _ | .panicked _ _ _ | .starting _ _ _ | .network _ => true
  | _ => false

/-- When nothing is in progress, the state is one that a retry or a network
change can recover from. -/
theorem session_settles (t : List Effect) (p : Process)
    (h : System.Reach daemon.system settlesInOrder t p)
    (idle : ∀ th ∈ p.threads, inProgress th = false) :
    p.shared.inner.state = .stopped ∨ p.shared.inner.state = .failed := by
  have hnone : p.count owes = 0 := by
    rw [Pool.count_eq_zero]
    intro th hth
    have := idle th hth
    cases th with
    | engine e => cases this
    | panicked config publishing pc => cases this
    | _ => rfl
  have hterm : p.shared.inner.state.isTerminal = true := by
    by_contra hn
    have := (reach_covered h).owed (by simpa using hn)
    omega
  cases hs : p.shared.inner.state <;> simp_all [SessionState.isTerminal]

/-- The network changes while the engine is connected, the client stops it, and
all calls come to their end. -/
theorem session_settles_sample : ∃ t p, System.Reach daemon.system settlesInOrder t p ∧
    (∀ th ∈ p.threads, inProgress th = false) ∧
    (p.shared.inner.state = .stopped ∨ p.shared.inner.state = .failed) := by
  obtain ⟨t, p, hr, hp⟩ := System.exists_reach settlesInOrder
    (connects ++ [.arrive (.network .decide)] ++ sections 4 6 ++ [client 2 "stop"] ++
      sections 5 1 ++ goesDown)
    (fun _ p => p.threads.all fun th => !inProgress th) (boot_init 1000 1000 none []) (by decide)
  have hidle : ∀ th ∈ p.threads, inProgress th = false := by simpa using hp
  exact ⟨t, p, hr, hidle, session_settles t p hr hidle⟩

/-- The same, but `network_changed` is overtaken by the engine's end between its
decision to pause and its call of `set_state`. -/
theorem stuck_reconnecting : ¬ ∀ t p, System.Reachable daemon.system t p →
    (∀ th ∈ p.threads, inProgress th = false) →
    (p.shared.inner.state = .stopped ∨ p.shared.inner.state = .failed) := by
  intro h
  obtain ⟨t, p, hr, hp⟩ := System.exists_reach (fun _ _ => true)
    (connects ++ [.arrive (.network .decide)] ++ sections 4 1 ++ [client 2 "stop"] ++
      sections 5 1 ++ goesDown ++ sections 4 5)
    (fun _ p => p.threads.all (fun th => !inProgress th) &&
      p.shared.inner.state == .reconnecting) (boot_init 1000 1000 none []) (by decide)
  simp only [Bool.and_eq_true, List.all_eq_true, Bool.not_eq_eq_eq_not, Bool.not_true,
    beq_iff_eq] at hp
  rcases h t p hr hp.1 with hs | hs
  all_goals
    rw [hp.2] at hs
    cases hs

end InodeVpn.Proofs.SessionSettles
