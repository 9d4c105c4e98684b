import InodeVpn.Proofs.Effects

namespace InodeVpn.Proofs.StopRespected
open InodeVpn.Core Lib Daemon Sections Effects

/-- An automatic start past its own guard, whose engine thread does not exist
yet: the stop it has not seen would come too late. -/
def pending : Thread → Bool
  | .retry _ _ _ .probe => true
  | .starting _ _ (.setEngine _) => false
  | .starting caller _ _ => caller.isAutomatic
  | _ => false

/-- An automatic start inside `engine_start` whose engine thread does not exist yet. -/
def onItsWay : Thread → Bool
  | .starting _ _ (.setEngine _) => false
  | .starting caller _ _ => caller.isAutomatic
  | _ => false

/-- The daemon decides by itself to start an engine: `network_changed` restarts a
failed session, or a retry thread has passed its guard and finds the network up. -/
def decides (o : Outside) (d : Shared) : Thread → Bool
  | .network .decide =>
    match (d.inner.networkAction o).2 with
    | some (.restart _) => true
    | _ => false
  | .retry _ _ _ .probe => o.networkUp
  | _ => false

/-- `main` before it lets anything in. -/
def booting : Thread → Bool
  | .main .load | .main (.addSecrets _) | .main .spawnServers => true
  | .starting caller _ _ => caller = .autostart
  | _ => false

def requesting (t : Thread) : Bool := kind t = .request

/-- A guard of an automatic start lets it pass. -/
def opens (o : Outside) (d : Shared) : Thread → Prop
  | .network .decide => decides o d (.network .decide) = true
  | .retry _ _ _ .check => d.inner.stopRequested = false
  | _ => False

section Sections
variable {o : Outside} {me fresh : Nat} {d : Shared} {m : Section} {t : Thread}

theorem spawned_quiet (h : canSpawn t = true) :
    pending t = false ∧ booting t = false ∧ requesting t = false := by
  cases t with
  | retry config generation delay pc =>
    cases pc <;> simp_all [canSpawn, pending, booting, requesting, kind]
  | engine e => exact ⟨rfl, rfl, rfl⟩
  | health gateway interval pc => exact ⟨rfl, rfl, rfl⟩
  | writer ch => exact ⟨rfl, rfl, rfl⟩
  | _ => cases h

theorem decides_cases (h : decides o d t = true) :
    (t = .network .decide ∧ ∃ config, (d.inner.networkAction o).2 = some (.restart config)) ∨
      ∃ config generation delay, t = .retry config generation delay .probe ∧
        o.networkUp = true := by
  cases t with
  | network pc =>
    cases pc with
    | decide =>
      simp only [decides] at h
      split at h
      · rename_i config decided
        exact Or.inl ⟨rfl, config, decided⟩
      · cases h
    | _ => cases h
  | retry config generation delay pc =>
    cases pc with
    | probe => exact Or.inr ⟨config, generation, delay, rfl, h⟩
    | _ => cases h
  | _ => cases h

/-- A call that is over leaves no one in `engine_start`. -/
theorem setEngine_leaves {caller : Caller} {config config' : Config} {handle : Nat} {pc : StartPc}
    (h : daemon.next o me fresh d (.starting caller config (.setEngine handle)) = some m) :
    m.self ≠ .starting caller config' pc := by
  replace h := daemon_next h
  cases h
  cases caller <;> intro h <;> cases h

/-- An automatic start comes into `engine_start` from the decision of a network
change, or from a retry thread that has found the network up. -/
theorem onItsWay_step (h : daemon.next o me fresh d t = some m) (hs : onItsWay m.self = true) :
    onItsWay t = true ∨ decides o d t = true := by
  cases hself : m.self with
  | starting caller config pc =>
    rw [hself] at hs
    rcases next_starting h hself with ⟨hcall, rfl, -⟩ | ⟨pc', rfl⟩
    · cases hcall with
      | request => simp [onItsWay] at hs
      | autostart => cases hs
      | network decided => exact Or.inr (by simp [decides, decided])
      | retry =>
        replace h := daemon_next h
        simp only [threadNext, retryNext] at h
        split at h <;> cases h <;> cases hself
        rename_i hup
        exact Or.inr hup
    · have hauto : caller.isAutomatic = true := by cases pc <;> first | exact hs | cases hs
      cases pc' with
      | setEngine handle => exact absurd hself (setEngine_leaves h)
      | _ => exact Or.inl hauto
  | _ => rw [hself] at hs; cases hs

theorem onItsWay_pending (h : onItsWay t = true) : pending t = true := by
  cases t with
  | starting caller config pc => cases pc <;> exact h
  | _ => cases h

/-- Nothing becomes an automatic start on its way but through a guard. -/
theorem pending_step (h : daemon.next o me fresh d t = some m) (hp : pending m.self = true) :
    pending t = true ∨ opens o d t := by
  have hk := (next_kind h).1
  cases hself : m.self with
  | starting caller config pc =>
    have hs : onItsWay m.self = true := by
      rw [hself] at hp ⊢
      cases pc <;> exact hp
    rcases onItsWay_step h hs with hs | hdecides
    · exact Or.inl (onItsWay_pending hs)
    · rcases decides_cases hdecides with ⟨rfl, -⟩ | ⟨_, _, _, rfl, -⟩
      · exact Or.inr hdecides
      · exact Or.inl rfl
  | retry config generation delay pc =>
    rw [hself] at hk hp
    replace h := daemon_next h
    cases t with
    | retry config' generation' delay' pc' =>
      cases pc' with
      | sleep => cases h; cases hself; cases hp
      | check =>
        simp only [threadNext, retryNext] at h
        split at h <;> cases h <;> cases hself
        rename_i hguard
        exact Or.inr (Inner.retryObsolete_eq_false.mp (by simpa using hguard)).1
      | probe =>
        simp only [threadNext, retryNext] at h
        split at h <;> cases h <;> cases hself
        cases hp
    | _ => cases hk
  | _ => rw [hself] at hp; cases hp

theorem booting_step (h : daemon.next o me fresh d t = some m) (hb : booting m.self = true) :
    booting t = true ∧ t ≠ .main .spawnServers := by
  have hk := (next_kind h).1
  cases hself : m.self with
  | starting caller config pc =>
    rw [hself] at hb
    simp only [booting, decide_eq_true_eq] at hb
    subst hb
    rcases next_starting h hself with ⟨hcall, -, -⟩ | ⟨pc', rfl⟩
    · generalize hc : Caller.autostart = caller at hcall
      cases hcall with
      | autostart => exact ⟨rfl, fun h => by cases h⟩
      | request => exact absurd hc.symm (Caller.ofRequest_ne_autostart _ _)
      | network | retry => cases hc
    · exact ⟨rfl, fun h => by cases h⟩
  | main pc =>
    rw [hself] at hk hb
    replace h := daemon_next h
    cases t with
    | main pc' =>
      simp only [threadNext, mainNext] at h
      repeat' split at h
      all_goals cases h
      all_goals cases hself
      all_goals cases hb
      all_goals exact ⟨rfl, fun h => by cases h⟩
    | starting caller config pc' =>
      simp only [threadNext, startNext] at h
      repeat' split at h
      all_goals cases h
      all_goals cases caller
      all_goals cases hself
      all_goals exact ⟨rfl, fun h => by cases h⟩
    | _ => cases hk
  | _ => rw [hself] at hb; cases hb

/-- A request comes from a request only. -/
theorem requesting_step (h : daemon.next o me fresh d t = some m)
    (hr : requesting m.self = true) : requesting t = true := by
  have hk := (next_kind h).1
  simp only [requesting, decide_eq_true_eq] at hr ⊢
  rw [hr] at hk
  cases t <;> first | rfl | cases hk

end Sections

/-- `engine_start` accepts a start or restart that a client asked for. -/
def isRequestedStart : Effect → Bool
  | .accepted _ caller => caller.isRequest
  | _ => false

/-- A client's stop has been accepted, and no requested start since. -/
def stopStands (t : List Effect) : Bool := since isStop isRequestedStart t

/-- The two defects: `network_changed` restarts a failed session without a look
at `stop_requested`, and a stop that comes between the guard of an automatic
start and its spawn is overtaken. -/
def heedsStop (p : Process) : Step → Bool
  | .run i o =>
    match p.threads[i]? with
    | some (.network .decide) =>
      !p.shared.inner.stopRequested || !decides o p.shared (.network .decide)
    | some (.request r .dispatch) => r.method ≠ "stop" || p.count pending == 0
    | _ => true
  | .arrive _ => true

/-- What holds of the daemon after the trace `t`. -/
structure Heeded (t : List Effect) (p : Process) : Prop where
  boots : p.count booting ≤ 1
  bootsFirst : 0 < p.count booting → p.shared.serving = false
  requested : 0 < p.count requesting → p.shared.serving = true
  stopped : stopStands t = true →
    p.shared.inner.stopRequested = true ∧ p.count pending = 0 ∧ p.shared.serving = true

theorem boot_heeded {p : Process} (h : daemon.system.init p) : Heeded [] p := by
  obtain ⟨d, t, ⟨_, _, _, _, rfl, rfl⟩, rfl⟩ := h
  exact ⟨Nat.le_refl 1, fun _ => rfl, fun h => absurd h (Nat.lt_irrefl 0), fun h => by cases h⟩

/-- A stop stands after a section only if it was accepted by it, or stood
before and the section did not accept a requested start. -/
theorem stopStands_append {t : List Effect} {e : Option Effect}
    (h : stopStands (t ++ e.toList) = true) :
    (∃ stopper fd, e = some (.stopRequested stopper fd) ∧ stopper.isStop = true) ∨
    (stopStands t = true ∧ ∀ thread caller, e = some (.accepted thread caller) →
      caller.isRequest = false) := by
  rcases since_append.mp h with ⟨x, rfl, hp⟩ | ⟨hs, hq⟩
  · cases x with
    | stopRequested stopper fd => exact Or.inl ⟨stopper, fd, rfl, hp⟩
    | _ => cases hp
  · exact Or.inr ⟨hs, fun thread caller he => hq _ he⟩

section Step
variable {p : Process} {t : List Effect} {i : Nat} {o : Outside} {th : Thread} {m : Section}

/-- Once a stop stands, only a requested start can clear the flag. -/
theorem flag_stays (hx : Heeded t p) (ht : p.threads[i]? = some th)
    (hm : daemon.next o i p.threads.length p.shared th = some m) (hs : stopStands t = true)
    (hacc : ∀ thread caller, m.effect = some (.accepted thread caller) → caller.isRequest = false) :
    m.shared.inner.stopRequested = true := by
  obtain ⟨hflag, hpend, hserv⟩ := hx.stopped hs
  have hboot : booting th = false := by
    have hnone : p.count booting = 0 := by
      have := hx.bootsFirst
      rw [hserv] at this
      simpa using this
    exact Pool.count_zero_of_running hnone ht
  have hidle := Pool.count_zero_of_running hpend ht
  rw [(next_flags hm).1, hflag]
  cases he : m.effect with
  | none => rfl
  | some e =>
    have horigin := effect_origin hm he
    cases horigin with
    | @accepted caller config thread =>
      -- neither of the two other kinds of callers is around
      have hreq := hacc i caller he
      cases caller <;> simp_all [Caller.isRequest, pending, booting, Caller.isAutomatic]
    | _ => rfl

/-- No automatic start gets past its guard while the flag is set. -/
theorem pending_stays (hok : heedsStop p (.run i o) = true) (ht : p.threads[i]? = some th)
    (hm : daemon.next o i p.threads.length p.shared th = some m)
    (hflag : p.shared.inner.stopRequested = true) :
    pending m.self = true → pending th = true := by
  intro hp
  rcases pending_step hm hp with hp | hopen
  · exact hp
  · cases th with
    | network pc =>
      cases pc with
      | decide =>
        rw [opens] at hopen
        simp [heedsStop, ht, hflag, hopen] at hok
      | _ => exact hopen.elim
    | retry config generation delay pc =>
      cases pc with
      | check =>
        rw [opens, hflag] at hopen
        cases hopen
      | _ => exact hopen.elim
    | _ => exact hopen.elim

theorem booting_le (ht : p.threads[i]? = some th)
    (hm : daemon.next o i p.threads.length p.shared th = some m) :
    (p.after i m).count booting ≤ p.count booting :=
  Pool.count_after_le ht (fun h => (booting_step hm h).1)
    fun c hc => (spawned_quiet ((next_kind hm).2 c hc).1).2.1

theorem pending_le (ht : p.threads[i]? = some th)
    (hm : daemon.next o i p.threads.length p.shared th = some m)
    (hself : pending m.self = true → pending th = true) :
    (p.after i m).count pending ≤ p.count pending :=
  Pool.count_after_le ht hself fun c hc => (spawned_quiet ((next_kind hm).2 c hc).1).1

theorem requesting_le (ht : p.threads[i]? = some th)
    (hm : daemon.next o i p.threads.length p.shared th = some m) :
    (p.after i m).count requesting ≤ p.count requesting :=
  Pool.count_after_le ht (requesting_step hm)
    fun c hc => (spawned_quiet ((next_kind hm).2 c hc).1).2.2

/-- While `main` is booting, nothing is served. -/
theorem bootsFirst_step (hx : Heeded t p) (ht : p.threads[i]? = some th)
    (hm : daemon.next o i p.threads.length p.shared th = some m)
    (hpos : 0 < (p.after i m).count booting) : m.shared.serving = false := by
  have hle := booting_le ht hm
  have hserv := hx.bootsFirst (by omega)
  rw [(next_flags hm).2, hserv, Bool.false_or, decide_eq_false_iff_not]
  intro hth
  -- the only booting thread has just stopped being one
  have hself : booting m.self = false := by
    by_contra hself
    exact (booting_step hm (by simpa using hself)).2 hth
  have hcount := Pool.count_after booting ht m
  have hchild : m.spawned.toList.countP booting = 0 := by
    rw [List.countP_eq_zero]
    intro c hc
    simp [(spawned_quiet ((next_kind hm).2 c (Option.mem_toList.mp hc)).1).2.1]
  rw [hself, hchild, hth] at hcount
  have := hx.boots
  simp only [booting, Bool.toNat_true, Bool.toNat_false] at hcount
  omega

theorem serving_stays (hm : daemon.next o i p.threads.length p.shared th = some m)
    (hs : p.shared.serving = true) : m.shared.serving = true := by
  rw [(next_flags hm).2, hs, Bool.true_or]

end Step

theorem heeded_step {t : List Effect} {p p' : Process} {a : Step} {e : Option Effect}
    (hx : Heeded t p) (hok : heedsStop p a = true) (h : daemon.system.step p a = some (p', e)) :
    Heeded (t ++ e.toList) p' := by
  rcases Program.step_cases h with ⟨i, o, th, m, rfl, ht, hm, rfl, rfl⟩ | ⟨th, rfl, ha, rfl, rfl⟩
  · have hasked := requesting_le ht hm
    refine ⟨Nat.le_trans (booting_le ht hm) hx.boots, bootsFirst_step hx ht hm, ?_, ?_⟩
    · intro hpos
      exact serving_stays hm (hx.requested (by omega))
    · intro hstands
      rcases stopStands_append hstands with ⟨stopper, fd, he, hstop⟩ | ⟨hold, hacc⟩
      · have horigin := effect_origin hm he
        obtain ⟨r, rfl, hr⟩ : ∃ r : Request, th = .request r .dispatch ∧ r.method = "stop" := by
          cases horigin with
          | stopRequested asks => exact stopperOf_isStop asks hstop
        have hnone : p.count pending = 0 := by
          simpa [heedsStop, ht, hr] using hok
        have hle := pending_le ht hm fun h => (pending_step hm h).resolve_right fun hopen => hopen
        have hserv := hx.requested (Pool.count_pos ht rfl)
        refine ⟨?_, by omega, serving_stays hm hserv⟩
        rw [Pool.after_shared, (next_flags hm).1, he]
        rfl
      · obtain ⟨hflag, hnone, hserv⟩ := hx.stopped hold
        have hle := pending_le ht hm (pending_stays hok ht hm hflag)
        exact ⟨flag_stays hx ht hm hold hacc, by omega, serving_stays hm hserv⟩
  · obtain ⟨hserv, hth⟩ := arrives_kind ha
    have hquiet : pending th = false ∧ booting th = false := by
      rcases hth with ⟨r, rfl⟩ | rfl <;> exact ⟨rfl, rfl⟩
    obtain ⟨hp, hb⟩ := hquiet
    simp only [Option.toList_none, List.append_nil]
    refine ⟨?_, ?_, fun _ => hserv, fun hold => ?_⟩
    · simpa [hb] using hx.boots
    · simpa [hb] using hx.bootsFirst
    · simpa [hp] using hx.stopped hold

/-- The daemon does not start an engine by itself while a stop stands. -/
def NotUndone (before : List Effect) (e : Effect) : Prop :=
  ∀ thread caller engine, e = .spawned thread caller engine → caller.isAutomatic = true →
    stopStands before = false

theorem notUndone_step {t : List Effect} {p p' : Process} {a : Step} {e : Option Effect}
    (hx : Heeded t p) (h : daemon.system.step p a = some (p', e)) : ∀ x ∈ e, NotUndone t x := by
  intro x hxe thread caller engine hspawned hauto
  subst hspawned
  rcases Program.step_cases h with ⟨i, o, th, m, rfl, ht, hm, rfl, rfl⟩ | ⟨th, rfl, ha, rfl, rfl⟩
  · have horigin := effect_origin hm hxe
    cases horigin with
    | spawned thread =>
      have hpos : 0 < p.count pending := Pool.count_pos ht (by rw [thread]; exact hauto)
      by_contra hstands
      have := (hx.stopped (by simpa using hstands)).2.1
      omega
  · cases hxe

theorem reach_heeded {t : List Effect} {p : Process}
    (h : System.Reach daemon.system heedsStop t p) : Heeded t p := by
  apply h.invariant (I := Heeded)
  · intro p hp
    exact boot_heeded hp
  · intro t p a p' e _ hx hok hs
    exact heeded_step hx hok hs

/-- While every stop finds no automatic start on its way, and no network change
finds a failed session that was stopped, a stop is undone by a request only. -/
theorem stop_respected (t : List Effect) (p : Process)
    (h : System.Reach daemon.system heedsStop t p) : Always NotUndone t := by
  apply h.always (P := NotUndone)
  intro t p a p' e run _ hs
  exact notUndone_step (reach_heeded run) hs

/-- A client starts an engine, which fails for want of memory. -/
def startFails : List Step :=
  serve ++ [client 1 "start"] ++ loadStart 1 ++ sections 1 5 ++ sections 2 20 { null := true }

/-- A network change, handled by the thread `i` up to the spawn. -/
def networkRestarts (i : Nat) : List Step := .arrive (.network .decide) :: sections i 5

theorem stop_respected_sample : ∃ t p, System.Reach daemon.system heedsStop t p ∧
    stopStands t = true ∧ Always NotUndone t := by
  obtain ⟨t, p, hr, hp⟩ := System.exists_reach heedsStop
    (startFails ++ networkRestarts 4 ++ [client 2 "stop"] ++ sections 6 1)
    (fun t _ => stopStands t) (boot_init 1000 1000 none []) (by decide)
  exact ⟨t, p, hr, hp, stop_respected t p hr⟩

/-- A start by the network watcher. -/
def networkStarted : Effect → Bool
  | .spawned _ .network _ => true
  | _ => false

theorem networkStarted_eq {e : Effect} (h : networkStarted e = true) :
    ∃ thread engine, e = .spawned thread .network engine := by
  unfold networkStarted at h
  split at h
  · exact ⟨_, _, rfl⟩
  · cases h

/-- The engine has failed, the client sends `stop`, the network changes. -/
theorem stop_undone_by_network : ¬ ∀ t p, System.Reachable daemon.system t p →
    Always NotUndone t := by
  intro h
  obtain ⟨t, p, hr, hp⟩ := System.exists_reach (fun _ _ => true)
    (startFails ++ [client 2 "stop"] ++ sections 4 1 ++ networkRestarts 5)
    (fun t _ => t.getLast?.any networkStarted && stopStands t.dropLast)
    (boot_init 1000 1000 none []) (by decide)
  obtain ⟨hlast, hstands⟩ := Bool.and_eq_true_iff.mp hp
  obtain ⟨e, hget, hstarted⟩ := (Option.any_eq_true _ _).mp hlast
  obtain ⟨thread, engine, rfl⟩ := networkStarted_eq hstarted
  obtain ⟨before, rfl⟩ := List.getLast?_eq_some_iff.mp hget
  rw [List.dropLast_concat] at hstands
  have hquiet := h _ p hr before _ [] rfl thread .network engine rfl rfl
  rw [hstands] at hquiet
  cases hquiet

end InodeVpn.Proofs.StopRespected
