import InodeVpn.Proofs.Sections
import InodeVpn.Routectl.Plan

namespace InodeVpn.Proofs.Environment
open InodeVpn.Core Lib Daemon Routectl Sections

/-- The section that exports `preserve_cidrs`. -/
def pcExports : EnginePc → Bool
  | .session _ .setPreserveCidrs => true
  | _ => false

def exportsNext : Thread → Bool
  | .engine e => pcExports e.pc
  | _ => false

/-- The configuration of an engine that completes the section; a `set_var` that
panics does not. -/
def exported (o : Outside) : Thread → Option Config
  | .engine e =>
    if pcExports e.pc ∧ e.publishing = none ∧ o.panics = false ∧
        (e.config.network.preserveCidrs = [] ∨
          hasNul (",".intercalate e.config.network.preserveCidrs) = false) then some e.config
    else none
  | _ => none

/-- What a section does to the environment that `inode-routectl` reads. -/
inductive Exports (o : Outside) (d : Shared) (t : Thread) (m : Section) : Prop
  | dnsMode (e : Engine) (v : Nat) (thread : t = .engine e)
      (shared : m.shared = d.setVar "INODE_DNS_MODE" (dnsModeText e.config.network.dns))
      (self : m.self = e.goto (.session v .setPreserveCidrs)) (quiet : exported o t = none)
  | preserveCidrs (e : Engine) (v : Nat) (thread : t = .engine e) (next : exportsNext t = true)
      (shared : m.shared = if e.config.network.preserveCidrs = [] then d else
        d.setVar "INODE_PRESERVE_CIDRS" (",".intercalate e.config.network.preserveCidrs))
      (self : m.self = e.goto (.session v .setStateDir)) (done : exported o t = some e.config)
  | other (environ : ∀ key, key ≠ "INODE_ROUTECTL_STATE_DIR" → m.shared.var key = d.var key)
      (self : exportsNext m.self = true → exportsNext t = true) (quiet : exported o t = none)

section Sections
variable {o : Outside} {me fresh : Nat} {d : Shared} {m : Section} {t : Thread}

@[simp] theorem var_setVar_self (key value : String) :
    (d.setVar key value).var key = some value := by
  simp [Shared.var, Shared.setVar]

theorem var_setVar {key key' : String} (value : String) (h : key' ≠ key) :
    (d.setVar key value).var key' = d.var key' := by
  simp only [Shared.var, Shared.setVar]
  rw [List.find?_cons_of_neg (by simpa using h.symm), List.find?_filter]
  congr 2
  funext kv
  by_cases hkv : kv.1 = key' <;> simp [hkv, h]

theorem var_congr {d' : Shared} (h : d'.environ = d.environ) (key : String) :
    d'.var key = d.var key := by
  rw [Shared.var, Shared.var, h]

/-- A section that leaves the environment as it is, and does not come to the exports. -/
theorem exports_other (environ : m.shared.environ = d.environ) (self : exportsNext m.self = false)
    (quiet : exported o t = none) : Exports o d t m :=
  .other (fun key _ => var_congr environ key) (by simp [self]) quiet

theorem exported_none (h : exportsNext t = false) : exported o t = none := by
  cases t with
  | engine e => exact if_neg fun hall => by simp [exportsNext, hall.1] at h
  | _ => rfl

theorem session_exports {e : Engine} {v : Nat} {pc : SessionPc} (hpub : e.publishing = none)
    (hpc : e.pc = .session v pc) (hpanic : o.panics = false)
    (h : sessionNext o me fresh d e v pc = some m) : Exports o d (.engine e) m := by
  obtain ⟨config, tunScript, publishing, pc'⟩ := e
  cases hpub
  cases hpc
  cases pc with
  | setDnsMode =>
    cases h
    exact .dnsMode _ v rfl rfl rfl rfl
  | setPreserveCidrs =>
    simp only [sessionNext] at h
    by_cases hnil : config.network.preserveCidrs = []
    · rw [if_pos hnil] at h
      cases h
      exact .preserveCidrs _ v rfl rfl (by rw [if_pos hnil]) rfl
        (if_pos ⟨rfl, rfl, hpanic, Or.inl hnil⟩)
    · rw [if_neg hnil] at h
      split at h <;> cases h
      · rename_i hnul
        exact exports_other rfl rfl (if_neg fun hall => by simp [hnil, hnul] at hall)
      · rename_i hnul
        exact .preserveCidrs _ v rfl rfl (by rw [if_neg hnil]) rfl
          (if_pos ⟨rfl, rfl, hpanic, Or.inr (by simpa using hnul)⟩)
  | setStateDir =>
    cases h
    refine .other (fun key hkey => ?_) (fun h => by cases h) rfl
    dsimp only
    split
    · exact var_setVar _ hkey
    · rfl
  | _ =>
    simp only [sessionNext] at h
    repeat' split at h
    all_goals cases h
    all_goals exact exports_other rfl rfl rfl

theorem engineRun_exports {e : Engine} (hpub : e.publishing = none)
    (h : engineRunNext o me fresh d e = some m) : Exports o d (.engine e) m := by
  simp only [engineRunNext] at h
  split at h
  · rename_i hpanic
    cases h
    exact exports_other rfl rfl (if_neg fun hall => by simp [hpanic.1] at hall)
  · rename_i hpanic
    cases hpc : e.pc with
    | session v pc =>
      rw [hpc] at h
      exact session_exports hpub hpc (by simpa [hpc, EnginePc.mayPanic] using hpanic) h
    | teardown v result pc =>
      have hquiet : exported o (.engine e) = none := exported_none (by rw [exportsNext, hpc]; rfl)
      cases pc with
      | scheduleRetry pc =>
        simp only [hpc, teardownNext] at h
        split at h
        all_goals
          rename_i heq
          obtain ⟨g, rfl⟩ := scheduleNext_shared heq
          cases h
          exact exports_other rfl rfl hquiet
      | free =>
        simp only [hpc, teardownNext] at h
        cases h
        cases result <;> cases v <;> exact exports_other rfl rfl hquiet
      | _ =>
        simp only [hpc, teardownNext] at h
        repeat' split at h
        all_goals cases h
        all_goals exact exports_other rfl rfl hquiet
    | _ =>
      have hquiet : exported o (.engine e) = none := exported_none (by rw [exportsNext, hpc]; rfl)
      simp only [hpc] at h
      repeat' split at h
      all_goals cases h
      all_goals exact exports_other rfl rfl hquiet

/-- Only `engine_run` exports settings. -/
theorem next_exports (h : daemon.next o me fresh d t = some m) : Exports o d t m := by
  by_cases hk : kind t = .engine
  · replace h := daemon_next h
    cases t with
    | engine e =>
      obtain ⟨config, tunScript, publishing, pc⟩ := e
      cases publishing with
      | some call =>
        have hquiet : exported o (.engine ⟨config, tunScript, some call, pc⟩) = none :=
          if_neg fun hall => by cases hall.2.1
        cases call <;> cases h <;>
          exact .other (fun key _ => var_congr (by simp [Shared.emit]) key) id hquiet
      | none => exact engineRun_exports rfl h
    | _ => cases hk
  · apply exports_other ((next_keeps h).environ hk)
    · have hself := (next_kind h).1
      cases hs : m.self with
      | engine e =>
        rw [hs] at hself
        exact absurd (goesOn_engine hself) hk
      | _ => rfl
    · cases t with
      | engine e => exact absurd rfl hk
      | _ => rfl

/-- An engine keeps its configuration. -/
theorem engine_config (h : daemon.next o me fresh d t = some m) {e : Engine}
    (hself : m.self = .engine e) : ∃ e', t = .engine e' ∧ e'.config = e.config := by
  have hk := (next_kind h).1
  rw [hself] at hk
  have ht := goesOn_engine hk
  replace h := daemon_next h
  cases t with
  | engine e' =>
    refine ⟨e', rfl, ?_⟩
    obtain ⟨config, tunScript, publishing, pc⟩ := e'
    cases publishing with
    | some call => cases call <;> cases h <;> cases hself <;> rfl
    | none =>
      simp only [threadNext, engineNext, engineRunNext] at h
      split at h
      · cases h
        cases hself
        rfl
      · cases pc with
        | session v pc =>
          simp only [sessionNext] at h
          repeat' split at h
          all_goals cases h
          all_goals cases hself
          all_goals rfl
        | teardown v result pc =>
          simp only [teardownNext] at h
          repeat' split at h
          all_goals cases h
          all_goals cases hself
          all_goals rfl
        | _ =>
          simp only at h
          repeat' split at h
          all_goals cases h
          all_goals cases hself
          all_goals rfl
  | _ => cases ht

end Sections

/-- The engine runs that have set up the environment, in order: the engine's
thread and its configuration. -/
abbrev Runs := List (Nat × Config)

def watchRuns (runs : Runs) (p : Process) : Step → Option Effect → Runs
  | .run i o, _ => runs ++ ((p.threads[i]?.bind (exported o)).map (i, ·)).toList
  | .arrive _, _ => runs

/-- The list that the runs leave in the environment: the last that is not empty. -/
def carried (runs : Runs) : List String :=
  runs.foldl (fun list run =>
    if run.2.network.preserveCidrs = [] then list else run.2.network.preserveCidrs) []

theorem carried_append (runs : Runs) (i : Nat) (config : Config) :
    carried (runs ++ [(i, config)]) =
      if config.network.preserveCidrs = [] then carried runs
      else config.network.preserveCidrs := by
  simp [carried]

theorem carried_eq_nil {runs : Runs} :
    carried runs = [] ↔ ∀ run ∈ runs, run.2.network.preserveCidrs = [] := by
  induction runs using List.reverseRecOn with
  | nil => simp [carried]
  | append_singleton runs run ih =>
    rw [carried_append]
    split
    · rename_i hnil
      rw [ih]
      simp [or_imp, forall_and, hnil]
    · rename_i hne
      constructor
      · intro h
        exact absurd h hne
      · intro h
        exact absurd (h run (by simp)) hne

theorem carried_mem {runs : Runs} {cidr : String} (h : cidr ∈ carried runs) :
    ∃ run ∈ runs, cidr ∈ run.2.network.preserveCidrs := by
  induction runs using List.reverseRecOn with
  | nil => cases h
  | append_singleton runs run ih =>
    rw [carried_append] at h
    split at h
    · obtain ⟨run', hrun', hcidr⟩ := ih h
      exact ⟨run', List.mem_append_left _ hrun', hcidr⟩
    · exact ⟨run, by simp, h⟩

/-- The engine runs follow each other. -/
def oneEngine (s : Runs × Process) (_ : Step) : Bool := s.2.count Thread.isLiveEngine ≤ 1

/-- The environment after the runs. -/
structure Exported (runs : Runs) (p : Process) : Prop where
  known : ∀ run ∈ runs, run.1 < p.threads.length
  preserveCidrs : p.shared.var "INODE_PRESERVE_CIDRS" =
    if carried runs = [] then none else some (",".intercalate (carried runs))
  dnsMode : ∀ i e, p.threads[i]? = some (.engine e) →
    pcExports e.pc = true ∨ i ∈ runs.map Prod.fst →
      p.shared.var "INODE_DNS_MODE" = some (dnsModeText e.config.network.dns)
  mine : ∀ run ∈ runs, ∀ e, p.threads[run.1]? = some (.engine e) →
    run.2 = e.config ∧ runs.getLast? = some run

section Step
variable {runs : Runs} {p : Process} {i : Nat} {o : Outside} {t : Thread} {m : Section}

/-- An engine after a section: the mover, one that has not moved, or a new one. -/
theorem engine_after (ht : p.threads[i]? = some t)
    (hm : daemon.next o i p.threads.length p.shared t = some m) {j : Nat} {u : Engine}
    (hu : (p.after i m).threads[j]? = some (.engine u)) :
    (j = i ∧ m.self = .engine u) ∨ (j ≠ i ∧ p.threads[j]? = some (.engine u)) ∨
      (p.threads.length ≤ j ∧ pcExports u.pc = false) := by
  by_cases hj : j < p.threads.length
  · rcases Pool.running_after_lt ht hj hu with ⟨hji, hself⟩ | hold
    · exact Or.inl ⟨hji, hself.symm⟩
    · exact Or.inr (Or.inl hold)
  · rw [Pool.getElem?_after ht, if_neg hj] at hu
    have hchild := (next_kind hm).2 _ (Option.mem_toList.mp (List.mem_of_getElem? hu))
    have hpc := (canSpawn_engine hchild.1).2
    exact Or.inr (Or.inr ⟨Nat.le_of_not_lt hj, by rw [hpc]; rfl⟩)

/-- A thread that is yet to come has exported nothing. -/
theorem newcomer {j : Nat} (hx : Exported runs p) (hge : p.threads.length ≤ j) :
    j ∉ runs.map Prod.fst := by
  intro hj
  obtain ⟨run, hrun, rfl⟩ := List.mem_map.mp hj
  have := hx.known run hrun
  omega

theorem known_after (hx : Exported runs p) (m : Section) :
    ∀ run ∈ runs, run.1 < (p.after i m).threads.length := by
  intro run hrun
  have hlt := hx.known run hrun
  simp only [Pool.after, List.length_append, List.length_set]
  omega

/-- While the list of runs stays, an engine in it stays the one it was. -/
theorem mine_after (hx : Exported runs p) (ht : p.threads[i]? = some t)
    (hm : daemon.next o i p.threads.length p.shared t = some m) :
    ∀ run ∈ runs, ∀ e, (p.after i m).threads[run.1]? = some (.engine e) →
      run.2 = e.config ∧ runs.getLast? = some run := by
  intro run hrun u hu
  rcases engine_after ht hm hu with ⟨hi, hself⟩ | ⟨-, hold⟩ | ⟨hge, -⟩
  · obtain ⟨e, rfl, hconfig⟩ := engine_config hm hself
    rw [← hi] at ht
    rw [← hconfig]
    exact hx.mine run hrun e ht
  · exact hx.mine run hrun u hold
  · exact absurd (List.mem_map_of_mem hrun) (newcomer hx hge)

/-- A thread that has just come has set up nothing. -/
theorem newcomer_exports {j : Nat} {u : Engine} {more : Runs} (hx : Exported runs p)
    (hge : p.threads.length ≤ j) (hpc : pcExports u.pc = false)
    (hmore : ∀ run ∈ more, run.1 < p.threads.length) :
    ¬ (pcExports u.pc = true ∨ j ∈ (runs ++ more).map Prod.fst) := by
  rintro (hwhere | hwhere)
  · rw [hpc] at hwhere
    cases hwhere
  · rw [List.map_append, List.mem_append] at hwhere
    rcases hwhere with hwhere | hwhere
    · exact newcomer hx hge hwhere
    · obtain ⟨run, hrun, rfl⟩ := List.mem_map.mp hwhere
      have := hmore run hrun
      omega

/-- No other engine is there while one works. -/
theorem only_engine (hok : p.count Thread.isLiveEngine ≤ 1) {e u : Engine} {j : Nat}
    (ht : p.threads[i]? = some (.engine e)) (hj : p.threads[j]? = some (.engine u)) : j = i :=
  Pool.eq_of_count_le_one hok hj ht rfl rfl

theorem exported_dnsMode {e : Engine} {v : Nat} (hx : Exported runs p)
    (hok : p.count Thread.isLiveEngine ≤ 1) (ht : p.threads[i]? = some (.engine e))
    (hm : daemon.next o i p.threads.length p.shared (.engine e) = some m)
    (shared : m.shared = p.shared.setVar "INODE_DNS_MODE" (dnsModeText e.config.network.dns))
    (self : m.self = e.goto (.session v .setPreserveCidrs)) : Exported runs (p.after i m) := by
  refine ⟨known_after hx m, ?_, ?_, mine_after hx ht hm⟩
  · rw [Pool.after_shared, shared, var_setVar _ (by decide), hx.preserveCidrs]
  · intro j u hu hwhere
    rcases engine_after ht hm hu with ⟨-, hself⟩ | ⟨hji, hold⟩ | ⟨hge, hpc⟩
    · rw [self] at hself
      cases hself
      rw [Pool.after_shared, shared, var_setVar_self]
    · exact absurd (only_engine hok ht hold) hji
    · have hnone : ∀ run ∈ ([] : Runs), run.1 < p.threads.length := by simp
      rw [← List.append_nil runs] at hwhere
      exact absurd hwhere (newcomer_exports hx hge hpc hnone)

theorem exported_preserveCidrs {e : Engine} {v : Nat} (hx : Exported runs p)
    (hok : p.count Thread.isLiveEngine ≤ 1) (ht : p.threads[i]? = some (.engine e))
    (hm : daemon.next o i p.threads.length p.shared (.engine e) = some m)
    (next : exportsNext (.engine e) = true)
    (shared : m.shared = if e.config.network.preserveCidrs = [] then p.shared else
      p.shared.setVar "INODE_PRESERVE_CIDRS" (",".intercalate e.config.network.preserveCidrs))
    (self : m.self = e.goto (.session v .setStateDir)) :
    Exported (runs ++ [(i, e.config)]) (p.after i m) := by
  have hi := (List.getElem?_eq_some_iff.mp ht).choose
  have hmover : ∀ run ∈ [(i, e.config)], run.1 < p.threads.length := by
    intro run hrun
    cases List.mem_singleton.mp hrun
    exact hi
  have hvar : ∀ key, key ≠ "INODE_PRESERVE_CIDRS" → m.shared.var key = p.shared.var key := by
    intro key hkey
    rw [shared]
    split
    · rfl
    · exact var_setVar _ hkey
  refine ⟨?_, ?_, ?_, ?_⟩
  · intro run hrun
    rcases List.mem_append.mp hrun with hrun | hrun
    · exact known_after hx m run hrun
    · have hlt := hmover run hrun
      simp only [Pool.after, List.length_append, List.length_set]
      omega
  · rw [Pool.after_shared, shared, carried_append]
    split
    · rw [hx.preserveCidrs]
    · rename_i hne
      rw [var_setVar_self]
  · intro j u hu hwhere
    rcases engine_after ht hm hu with ⟨-, hself⟩ | ⟨hji, hold⟩ | ⟨hge, hpc⟩
    · rw [self] at hself
      cases hself
      rw [Pool.after_shared, hvar _ (by decide)]
      exact hx.dnsMode i e ht (Or.inl next)
    · exact absurd (only_engine hok ht hold) hji
    · exact absurd hwhere (newcomer_exports hx hge hpc hmover)
  · intro run hrun u hu
    rw [List.getLast?_concat]
    rcases engine_after ht hm hu with ⟨hrun_i, hself⟩ | ⟨hji, hold⟩ | ⟨hge, -⟩
    · rw [self] at hself
      cases hself
      rcases List.mem_append.mp hrun with hrun | hrun
      · rw [← hrun_i] at ht
        have hconfig := (hx.mine run hrun e ht).1
        exact ⟨hconfig, by rw [← hrun_i, ← hconfig]⟩
      · cases List.mem_singleton.mp hrun
        exact ⟨rfl, rfl⟩
    · exact absurd (only_engine hok ht hold) hji
    · rcases List.mem_append.mp hrun with hrun | hrun
      · exact absurd (List.mem_map_of_mem hrun) (newcomer hx hge)
      · exact absurd (hmover run hrun) (Nat.not_lt.mpr hge)

theorem exported_other (hx : Exported runs p) (ht : p.threads[i]? = some t)
    (hm : daemon.next o i p.threads.length p.shared t = some m)
    (environ : ∀ key, key ≠ "INODE_ROUTECTL_STATE_DIR" → m.shared.var key = p.shared.var key)
    (self : exportsNext m.self = true → exportsNext t = true) : Exported runs (p.after i m) := by
  refine ⟨known_after hx m, ?_, ?_, mine_after hx ht hm⟩
  · rw [Pool.after_shared, environ _ (by decide), hx.preserveCidrs]
  · intro j u hu hwhere
    rw [Pool.after_shared, environ _ (by decide)]
    rcases engine_after ht hm hu with ⟨hji, hself⟩ | ⟨-, hold⟩ | ⟨hge, hpc⟩
    · obtain ⟨e, rfl, hconfig⟩ := engine_config hm hself
      rw [hself] at self
      rw [hji] at hwhere
      rw [← hconfig]
      exact hx.dnsMode i e ht (hwhere.imp_left self)
    · exact hx.dnsMode j u hold hwhere
    · have hnone : ∀ run ∈ ([] : Runs), run.1 < p.threads.length := by simp
      rw [← List.append_nil runs] at hwhere
      exact absurd hwhere (newcomer_exports hx hge hpc hnone)

theorem exported_section (hx : Exported runs p) (hok : p.count Thread.isLiveEngine ≤ 1)
    (ht : p.threads[i]? = some t)
    (hm : daemon.next o i p.threads.length p.shared t = some m) :
    Exported (runs ++ ((exported o t).map (i, ·)).toList) (p.after i m) := by
  cases next_exports hm with
  | dnsMode e v thread shared self quiet =>
    subst thread
    rw [quiet, Option.map_none, Option.toList_none, List.append_nil]
    exact exported_dnsMode hx hok ht hm shared self
  | preserveCidrs e v thread next shared self done =>
    subst thread
    rw [done, Option.map_some, Option.toList_some]
    exact exported_preserveCidrs hx hok ht hm next shared self
  | other environ self quiet =>
    rw [quiet, Option.map_none, Option.toList_none, List.append_nil]
    exact exported_other hx ht hm environ self

end Step

/-- The daemon, started without `INODE_PRESERVE_CIDRS` in its environment. -/
def started : System Process Step Effect :=
  { daemon.system with
    init := fun p => daemon.system.init p ∧ p.shared.var "INODE_PRESERVE_CIDRS" = none }

/-- With the engine runs so far beside its state. -/
abbrev engineRuns : System (Runs × Process) Step Effect := started.watched [] watchRuns

theorem exported_step {s s' : Runs × Process} {a : Step} {e : Option Effect}
    (hx : Exported s.1 s.2) (hok : oneEngine s a = true) (h : engineRuns.step s a = some (s', e)) :
    Exported s'.1 s'.2 := by
  obtain ⟨hs, hwatch⟩ := System.watched_step.mp h
  obtain ⟨list', p'⟩ := s'
  cases hwatch
  rcases Program.step_cases hs with ⟨i, o, t, m, rfl, ht, hm, hp, -⟩ | ⟨t, rfl, ha, hp, -⟩
  · cases hp
    simp only [ht, Option.bind_some]
    exact exported_section hx (by simpa [oneEngine] using hok) ht hm
  · cases hp
    have hold : ∀ (j : Nat) (e : Engine), (s.2.join t).threads[j]? = some (.engine e) →
        s.2.threads[j]? = some (.engine e) := by
      intro j e hj
      rcases Pool.running_join hj with hj | rfl
      · exact hj
      · obtain ⟨-, ⟨r, hr⟩ | hr⟩ := arrives_kind ha <;> cases hr
    refine ⟨?_, hx.preserveCidrs, ?_, ?_⟩
    · intro run hrun
      have := hx.known run hrun
      simp only [List.length_append]
      omega
    · intro j e hj
      exact hx.dnsMode j e (hold j e hj)
    · intro run hrun e hj
      exact hx.mine run hrun e (hold run.1 e hj)

theorem reach_exported {t : List Effect} {s : Runs × Process}
    (h : System.Reach engineRuns oneEngine t s) : Exported s.1 s.2 := by
  apply h.invariant (I := fun _ s => Exported s.1 s.2)
  · rintro ⟨list, p⟩ ⟨rfl, hp, hvar⟩
    obtain ⟨d, t, ⟨_, _, _, _, rfl, rfl⟩, rfl⟩ := hp
    constructor
    · intro run hrun
      cases hrun
    · exact hvar
    · intro i e hi
      cases List.mem_singleton.mp (List.mem_of_getElem? hi)
    · intro run hrun
      cases hrun
  · intro t s a s' e _ hx hok hs
    exact exported_step hx hok hs

/-- An entry that `INODE_PRESERVE_CIDRS` can carry. -/
def plainCidr (cidr : String) : Bool := cidr ≠ "" && cidr.toList.all fun c => !isCidrSeparator c

/-- What `from_env` makes of the list that the runs have left. -/
theorem carried_plan {runs : Runs} {environ : Environ}
    (plain : ∀ run ∈ runs, ∀ cidr ∈ run.2.network.preserveCidrs, plainCidr cidr = true)
    (hvar : var "INODE_PRESERVE_CIDRS" environ =
      if carried runs = [] then none else some (",".intercalate (carried runs))) :
    ((var "INODE_PRESERVE_CIDRS" environ).map (pieces isCidrSeparator)).getD [] =
      carried runs := by
  rw [hvar]
  split
  · rename_i hnil
    rw [hnil]
    rfl
  · apply pieces_intercalate (c := ',') rfl
    intro cidr hcidr
    obtain ⟨run, hrun, hmem⟩ := carried_mem hcidr
    simpa [plainCidr] using plain run hrun cidr hmem

/-- In a sequence of engine runs, the plan of a run is the one of its own
configuration unless its list is empty and an earlier run's was not. -/
theorem routed_by_own_config (t : List Effect) (s : Runs × Process)
    (h : System.Reach engineRuns oneEngine t s)
    (plain : ∀ run ∈ s.1, ∀ cidr ∈ run.2.network.preserveCidrs, plainCidr cidr = true)
    (i : Nat) (e : Engine) (running : s.2.threads[i]? = some (.engine e))
    (exported : i ∈ s.1.map Prod.fst) (environ : Environ)
    (inherits : ∀ key ∈ ["INODE_DNS_MODE", "INODE_PRESERVE_CIDRS"],
      var key environ = s.2.shared.var key)
    (reason : String) (plan : RoutePlan) (built : RoutePlan.fromEnv reason environ = .ok plan) :
    (plan.preserveCidrs = e.config.network.preserveCidrs ∧
        plan.dnsMode = dnsModeText e.config.network.dns) ↔
      (e.config.network.preserveCidrs ≠ [] ∨
        ∀ run ∈ s.1, run.1 ≠ i → run.2.network.preserveCidrs = []) := by
  have hx := reach_exported h
  obtain ⟨hdns, hpreserve⟩ := RoutePlan.fromEnv_settings built
  have hmode : plan.dnsMode = dnsModeText e.config.network.dns := by
    rw [hdns, nonEmptyVar, inherits _ (by simp), hx.dnsMode i e running (Or.inr exported)]
    cases e.config.network.dns <;> rfl
  have hlist : plan.preserveCidrs = carried s.1 := by
    rw [hpreserve]
    apply carried_plan plain
    rw [inherits _ (by simp), hx.preserveCidrs]
  rw [hlist, and_iff_left hmode]
  obtain ⟨run, hrun, rfl⟩ := List.mem_map.mp exported
  obtain ⟨hconfig, hlast⟩ := hx.mine run hrun e running
  obtain ⟨earlier, hruns⟩ := List.getLast?_eq_some_iff.mp hlast
  rw [show run = (run.1, e.config) from by rw [← hconfig]] at hruns
  by_cases hnil : e.config.network.preserveCidrs = []
  · rw [hruns, carried_append, if_pos hnil, hnil, carried_eq_nil]
    simp only [ne_eq, not_true_eq_false, false_or, List.mem_append, List.mem_singleton]
    constructor
    · rintro hearlier run' (hrun' | rfl) hne
      · exact hearlier run' hrun'
      · exact hnil
    · intro hothers run' hrun'
      by_cases hsame : run'.1 = run.1
      · -- the same engine, exporting again
        have hmem : run' ∈ s.1 := by rw [hruns]; exact List.mem_append_left _ hrun'
        rw [(hx.mine run' hmem e (by rw [hsame]; exact running)).1]
        exact hnil
      · exact hothers run' (Or.inl hrun') hsame
  · rw [hruns, carried_append, if_neg hnil]
    exact ⟨fun _ => Or.inl hnil, fun _ => rfl⟩

/-- The sample configuration with a list of its own. -/
def preserving (cidrs : List String) : Config :=
  { sampleConfig with network := { sampleConfig.network with preserveCidrs := cidrs } }

/-- An engine run with one configuration, as the thread 2, is stopped; the next,
the thread 6, has another and connects. -/
def runsTwice (first second : Config) : List Step :=
  serve ++ [client 1 "start"] ++ loadStart 1 first ++ sections 1 5 ++ sections 2 39 ++
    [client 2 "stop"] ++ sections 4 1 ++ goesDown ++
    [client 3 "start"] ++ loadStart 5 second ++ sections 5 5 ++ sections 6 39

/-- The engine run 6 is on with the list `own`, and `list` is in its plan. -/
def plans (own list : List String) (s : Runs × Process) : Bool :=
  s.1.all (fun run => run.2.network.preserveCidrs.all plainCidr) &&
    (s.1.map Prod.fst).contains 6 &&
    (s.2.threads[6]?.any fun
      | .engine e => e.config.network.preserveCidrs = own
      | _ => false) &&
    (RoutePlan.fromEnv "connect" s.2.shared.environ).toOption.any (·.preserveCidrs = list)

theorem plans_cases {own list : List String} {s : Runs × Process} (h : plans own list s = true) :
    (∀ run ∈ s.1, ∀ cidr ∈ run.2.network.preserveCidrs, plainCidr cidr = true) ∧
    6 ∈ s.1.map Prod.fst ∧
    (∃ e, s.2.threads[6]? = some (.engine e) ∧ e.config.network.preserveCidrs = own) ∧
    ∃ plan, RoutePlan.fromEnv "connect" s.2.shared.environ = .ok plan ∧
      plan.preserveCidrs = list := by
  simp only [plans, Bool.and_eq_true, List.all_eq_true, List.contains_iff_mem] at h
  obtain ⟨⟨⟨hplain, hmem⟩, hengine⟩, hplan⟩ := h
  refine ⟨hplain, hmem, ?_, ?_⟩
  · obtain ⟨t, ht, he⟩ := (Option.any_eq_true _ _).mp hengine
    cases t with
    | engine e => exact ⟨e, ht, by simpa using he⟩
    | _ => cases he
  · cases hbuilt : RoutePlan.fromEnv "connect" s.2.shared.environ with
    | ok plan => exact ⟨plan, rfl, by simpa [hbuilt, Except.toOption] using hplan⟩
    | error e => simp [hbuilt, Except.toOption] at hplan

theorem routed_by_own_config_sample : ∃ t s e, ∃ plan : RoutePlan,
    System.Reach engineRuns oneEngine t s ∧
    s.2.threads[6]? = some (.engine e) ∧ plan.preserveCidrs = ["10.1.0.0/16"] ∧
    ((plan.preserveCidrs = e.config.network.preserveCidrs ∧
        plan.dnsMode = dnsModeText e.config.network.dns) ↔
      (e.config.network.preserveCidrs ≠ [] ∨
        ∀ run ∈ s.1, run.1 ≠ 6 → run.2.network.preserveCidrs = [])) := by
  obtain ⟨t, s, hr, hp⟩ := System.exists_reach (M := engineRuns) oneEngine
    (runsTwice (preserving ["10.0.0.0/8"]) (preserving ["10.1.0.0/16"]))
    (fun _ s => plans ["10.1.0.0/16"] ["10.1.0.0/16"] s) (s := ([], boot 1000 1000 none []))
    ⟨rfl, boot_init 1000 1000 none [], rfl⟩ (by decide +kernel)
  obtain ⟨hplain, hmem, ⟨e, he, -⟩, plan, hbuilt, hlist⟩ := plans_cases hp
  exact ⟨t, s, e, plan, hr, he, hlist,
    routed_by_own_config t s hr hplain 6 e he hmem s.2.shared.environ (fun _ _ => rfl) "connect"
      plan hbuilt⟩

/-- A run with a list, then a run without one: the second keeps the first one's. -/
theorem routed_by_earlier_config : ¬ ∀ (t : List Effect) (s : Runs × Process) (i : Nat)
    (e : Engine) (reason : String) (plan : RoutePlan), System.Reach engineRuns oneEngine t s →
    (∀ run ∈ s.1, ∀ cidr ∈ run.2.network.preserveCidrs, plainCidr cidr = true) →
    s.2.threads[i]? = some (.engine e) → i ∈ s.1.map Prod.fst →
    RoutePlan.fromEnv reason s.2.shared.environ = .ok plan →
      plan.preserveCidrs = e.config.network.preserveCidrs ∧
        plan.dnsMode = dnsModeText e.config.network.dns := by
  intro h
  obtain ⟨t, s, hr, hp⟩ := System.exists_reach (M := engineRuns) oneEngine
    (runsTwice (preserving ["10.0.0.0/8"]) (preserving []))
    (fun _ s => plans [] ["10.0.0.0/8"] s) (s := ([], boot 1000 1000 none []))
    ⟨rfl, boot_init 1000 1000 none [], rfl⟩ (by decide +kernel)
  obtain ⟨hplain, hmem, ⟨e, he, hown⟩, plan, hbuilt, hlist⟩ := plans_cases hp
  have hsame := (h t s 6 e "connect" plan hr hplain he hmem hbuilt).1
  rw [hlist, hown] at hsame
  cases hsame

end InodeVpn.Proofs.Environment
