import InodeVpn.Proofs.Sections

namespace InodeVpn.Proofs.Vpninfo
open InodeVpn.Core Lib Daemon Sections

/-- How far an engine is with its vpninfo: the command pipe is not set up, its
descriptor is about to be stored, it will not be set up any more, or the vpninfo
has been freed and the guard not dropped. -/
inductive Stage
  | early
  | storing (fd : RawFd)
  | held
  | freed
  deriving DecidableEq

def sessionStage : SessionPc → Stage
  | .setProtocol | .parseUrl | .setDropUid | .setupCmdPipe => .early
  | .storeCmdFd fd => .storing fd
  | _ => .held

def teardownStage : TeardownPc → Stage
  | .stopCheck _ | .scheduleRetry _ | .guardDrop => .freed
  | _ => .held

/-- An unwinding engine has lost a vpninfo that it had not freed. -/
def pcStage : EnginePc → Option (Nat × Stage)
  | .session v pc => some (v, sessionStage pc)
  | .teardown (some v) _ pc => some (v, teardownStage pc)
  | .unwind origin => (pcStage origin).filter fun claim => claim.2 = .freed
  | _ => none

def stage : Thread → Option (Nat × Stage)
  | .engine e => pcStage e.pc
  | _ => none

/-- A section that leaves the vpninfos alone moves its thread like this. -/
def Passes (s s' : Option (Nat × Stage)) : Prop :=
  s' = s ∨ (∃ v, s = some (v, .early) ∧ s' = some (v, .held)) ∨
    (s' = none ∧ ∀ v, s ≠ some (v, .freed))

/-- What one section does to the vpninfos, to `cmd_fd` and to its thread's claim. -/
inductive InfoStep (d d' : Shared) : Option (Nat × Stage) → Option (Nat × Stage) → Prop
  | pass {s s'} (infos : d'.vpninfos = d.vpninfos) (slot : d'.inner.cmdFd = d.inner.cmdFd)
      (passes : Passes s s') : InfoStep d d' s s'
  | write (cmd : UInt8) (fd : RawFd) (infos : d'.vpninfos = (d.writeFd cmd fd).vpninfos)
      (slot : d'.inner.cmdFd = d.inner.cmdFd) : InfoStep d d' none none
  | create (infos : d'.vpninfos = d.vpninfos ++ [({} : VpnInfo)])
      (slot : d'.inner.cmdFd = d.inner.cmdFd) :
      InfoStep d d' none (some (d.vpninfos.length, .early))
  | dropUid (v : Nat) (ids : Nat × Nat)
      (infos : d'.vpninfos = d.vpninfos.modify v fun info => { info with dropUid := some ids })
      (slot : d'.inner.cmdFd = d.inner.cmdFd) :
      InfoStep d d' (some (v, .early)) (some (v, .early))
  | setup (v : Nat) (num : Int)
      (infos : d'.vpninfos = d.vpninfos.modify v fun info => { info with cmdFd := some num })
      (slot : d'.inner.cmdFd = d.inner.cmdFd) :
      InfoStep d d' (some (v, .early)) (some (v, .storing ⟨num, v⟩))
  | store (v : Nat) (fd : RawFd) (infos : d'.vpninfos = d.vpninfos)
      (slot : d'.inner.cmdFd = some fd) :
      InfoStep d d' (some (v, .storing fd)) (some (v, .held))
  | free (v : Nat)
      (infos : d'.vpninfos = d.vpninfos.modify v fun info => { info with frees := info.frees + 1 })
      (slot : d'.inner.cmdFd = d.inner.cmdFd) :
      InfoStep d d' (some (v, .held)) (some (v, .freed))
  | finish {s} (infos : d'.vpninfos = d.vpninfos) (slot : d'.inner.cmdFd = none) :
      InfoStep d d' s none

/-- The section is such a step, and its child holds nothing. -/
structure Handles (d : Shared) (t : Thread) (m : Section) : Prop where
  step : InfoStep d m.shared (stage t) (stage m.self)
  child : ∀ c ∈ m.spawned, stage c = none

section Sections
variable {o : Outside} {me fresh : Nat} {d : Shared} {m : Section}

theorem passes_none : Passes none none := Or.inl rfl

/-- Only an engine has a vpninfo. -/
theorem stage_of_kind {t : Thread} (h : kind t ≠ .engine) : stage t = none := by
  cases t with
  | engine e => exact absurd rfl h
  | _ => rfl

/-- A thread that has just been spawned has none yet. -/
theorem stage_canSpawn {t : Thread} (h : canSpawn t = true) : stage t = none := by
  cases t with
  | engine e =>
    rw [stage, (canSpawn_engine h).2]
    rfl
  | _ => rfl

theorem bystander_step {t : Thread} (h : daemon.next o me fresh d t = some m)
    (hs : kind t ≠ .starting) (he : kind t ≠ .engine) :
    InfoStep d m.shared (stage t) (stage m.self) := by
  have hb := next_bystands h hs he
  have hself : kind m.self ≠ .engine := fun hk => he (goesOn_engine (hk ▸ (next_kind h).1))
  rw [stage_of_kind he, stage_of_kind hself]
  rcases hb.infos with hsame | ⟨cmd, fd, hwrite⟩
  · exact .pass hsame hb.cmdFd passes_none
  · exact .write cmd fd hwrite hb.cmdFd

theorem start_step {caller : Caller} {config : Config} {pc : StartPc}
    (h : startNext o me fresh d caller config pc = some m) :
    InfoStep d m.shared none (stage m.self) := by
  unfold startNext at h
  repeat' split at h
  all_goals cases h
  all_goals cases caller
  all_goals exact .pass rfl rfl passes_none

theorem passes_panic (pc : EnginePc) : Passes (pcStage pc) (pcStage (.unwind pc)) := by
  rw [pcStage]
  rcases hs : pcStage pc with _ | ⟨v, _ | _ | _ | _⟩ <;> simp [Passes]

/-- The claim of an engine does not depend on what it publishes. -/
@[simp] theorem stage_goto (e : Engine) (pc : EnginePc) : stage (e.goto pc) = pcStage pc := rfl

@[simp] theorem stage_publish (e : Engine) (state : SessionState) (lastError : Option String)
    (pc : EnginePc) : stage (e.publish state lastError pc) = pcStage pc := rfl

@[simp] theorem stage_fail (e : Engine) (v : Option Nat) (message : String) :
    stage (e.fail v message) = v.map fun v => (v, .held) := by
  cases v <;> rfl

@[simp] theorem stage_panic (e : Engine) : stage e.panic = pcStage (.unwind e.pc) := rfl

theorem session_step {e : Engine} {v : Nat} {pc : SessionPc} (he : e.pc = .session v pc)
    (h : sessionNext o me fresh d e v pc = some m) :
    InfoStep d m.shared (some (v, sessionStage pc)) (stage m.self) := by
  have hpanic := passes_panic e.pc
  rw [he] at hpanic
  cases pc with
  | setDropUid => cases h; exact .dropUid v _ rfl rfl
  | setupCmdPipe =>
    simp only [sessionNext] at h
    repeat' split at h
    all_goals cases h
    · exact .pass rfl rfl (Or.inr (Or.inl ⟨v, rfl, rfl⟩))
    · exact .setup v _ rfl rfl
  | storeCmdFd fd => cases h; exact .store v fd rfl rfl
  | _ =>
    simp only [sessionNext] at h
    repeat' split at h
    all_goals cases h
    all_goals refine .pass (by simp) (by simp) ?_
    all_goals simp_all [Passes, pcStage, sessionStage, teardownStage]

theorem teardown_step {e : Engine} {v : Option Nat} {result : Option Error} {pc : TeardownPc}
    (he : e.pc = .teardown v result pc) (h : teardownNext o me d e v result pc = some m) :
    InfoStep d m.shared (pcStage (.teardown v result pc)) (stage m.self) := by
  have hpanic := passes_panic e.pc
  rw [he] at hpanic
  cases pc with
  | free =>
    cases h
    cases v with
    | none => cases result <;> exact .pass rfl rfl passes_none
    | some v => cases result <;> exact .free v rfl rfl
  | guardDrop => cases h; exact .finish rfl rfl
  | scheduleRetry pc =>
    simp only [teardownNext] at h
    split at h
    all_goals
      rename_i heq
      obtain ⟨g, rfl⟩ := scheduleNext_shared heq
      cases h
      refine .pass rfl rfl ?_
    · cases v <;> exact Or.inl rfl
    · cases v <;> exact Or.inl rfl
    · cases v <;> exact Or.inl rfl
    · rw [stage_panic, he]
      exact hpanic
  | joinHealth handle =>
    simp only [teardownNext] at h
    split at h <;> cases h
    exact .pass rfl rfl (by cases v <;> exact Or.inl rfl)
  | takeHealth =>
    cases h
    refine .pass rfl rfl ?_
    cases d.healthThread <;> cases v <;> exact Or.inl rfl
  | stopCheck error =>
    cases h
    refine .pass rfl rfl ?_
    dsimp only
    split <;> cases v <;> exact Or.inl rfl
  | _ => cases h; exact .pass rfl rfl (by cases v <;> exact Or.inl rfl)

theorem engine_step {e : Engine} (h : engineNext o me fresh d e = some m) :
    InfoStep d m.shared (pcStage e.pc) (stage m.self) := by
  obtain ⟨config, tunScript, publishing, pc⟩ := e
  cases publishing with
  | some call => cases call <;> cases h <;> exact .pass (by simp) (by simp) (Or.inl rfl)
  | none =>
    simp only [engineNext, engineRunNext] at h
    split at h
    · cases h
      exact .pass rfl rfl (passes_panic pc)
    · cases pc with
      | cstrings =>
        cases h
        refine .pass rfl rfl ?_
        dsimp only
        split <;> exact passes_none
      | initSsl =>
        cases h
        refine .pass rfl rfl ?_
        dsimp only
        split <;> exact passes_none
      | vpninfoNew =>
        simp only at h
        split at h <;> cases h
        · exact .pass rfl rfl passes_none
        · exact .create rfl rfl
      | session v pc => exact session_step rfl h
      | teardown v result pc => exact teardown_step rfl h
      | unwind origin => cases h; exact .finish rfl rfl

theorem handles {t : Thread} (h : daemon.next o me fresh d t = some m) : Handles d t m := by
  refine ⟨?_, fun c hc => stage_canSpawn ((next_kind h).2 c hc).1⟩
  have hsection := daemon_next h
  cases t with
  | starting caller config pc => exact start_step hsection
  | engine e => exact engine_step hsection
  | _ => exact bystander_step h (fun hs => by cases hs) fun he => by cases he

end Sections

/-- What a claim on the vpninfo `v` says about it. -/
def Holds (v : Nat) (info : VpnInfo) : Stage → Prop
  | .early => info.frees = 0 ∧ info.cmdFd = none
  | .storing fd => info.frees = 0 ∧ info.cmdFd = some fd.num ∧ fd.vpninfo = v
  | .held => info.frees = 0
  | .freed => info.frees ≠ 0

/-- Claims are exclusive and true, and `cmd_fd` is the descriptor of a live
vpninfo, or of one whose engine is about to drop its guard. -/
structure Owned (p : Process) : Prop where
  unique : ∀ (i j : Nat) (t u : Thread) (v : Nat) (x y : Stage), p.threads[i]? = some t →
    p.threads[j]? = some u → stage t = some (v, x) → stage u = some (v, y) → i = j
  holds : ∀ t ∈ p.threads, ∀ v x, stage t = some (v, x) →
    ∃ info, p.shared.vpninfos[v]? = some info ∧ Holds v info x
  slot : ∀ fd, p.shared.inner.cmdFd = some fd →
    ∃ info, p.shared.vpninfos[fd.vpninfo]? = some info ∧ info.cmdFd = some fd.num ∧
      (info.frees ≠ 0 → ∃ t ∈ p.threads, stage t = some (fd.vpninfo, .freed))

theorem boot_owned {p : Process} (h : daemon.system.init p) : Owned p := by
  obtain ⟨d, t, ⟨_, _, _, _, rfl, rfl⟩, rfl⟩ := h
  have hnone : ∀ t ∈ [Thread.main .load], stage t = none := by
    intro t ht
    rw [List.mem_singleton.mp ht]
    rfl
  refine ⟨?_, ?_, fun fd h => by cases h⟩
  · intro i j t u v x y ht _ hs
    rw [hnone t (List.mem_of_getElem? ht)] at hs
    cases hs
  · intro t ht v x hs
    rw [hnone t ht] at hs
    cases hs

/-- A claim that the mover had, or that is new, stays exclusive. -/
theorem unique_after {p : Process} (hx : Owned p) {i : Nat} {t : Thread} {m : Section}
    (ht : p.threads[i]? = some t) (hchild : ∀ c ∈ m.spawned, stage c = none)
    (hself : ∀ v x, stage m.self = some (v, x) →
      (∃ y, stage t = some (v, y)) ∨ ∀ u ∈ p.threads, ∀ y, stage u ≠ some (v, y)) :
    ∀ (j k : Nat) (u w : Thread) (v : Nat) (x y : Stage), (p.after i m).threads[j]? = some u →
      (p.after i m).threads[k]? = some w → stage u = some (v, x) → stage w = some (v, y) →
      j = k := by
  -- the mover against a thread that has not moved
  have hcross : ∀ k w v x y, k ≠ i → p.threads[k]? = some w → stage m.self = some (v, x) →
      stage w = some (v, y) → False := by
    intro k w v x y hk hw hs hsw
    rcases hself v x hs with ⟨z, hz⟩ | hfresh
    · exact hk (hx.unique k i w t v y z hw ht hsw hz)
    · exact hfresh w (List.mem_of_getElem? hw) y hsw
  intro j k u w v x y hu hw hsu hsw
  rcases Pool.running_after ht hu with ⟨hj, hum⟩ | ⟨hj, hup⟩ | huc
  · rcases Pool.running_after ht hw with ⟨hk, -⟩ | ⟨hk, hwp⟩ | hwc
    · rw [hj, hk]
    · exact (hcross k w v x y hk hwp (hum ▸ hsu) hsw).elim
    · rw [hchild w hwc] at hsw; cases hsw
  · rcases Pool.running_after ht hw with ⟨hk, hwm⟩ | ⟨hk, hwp⟩ | hwc
    · exact (hcross j u v y x hj hup (hwm ▸ hsw) hsu).elim
    · exact hx.unique j k u w v x y hup hwp hsu hsw
    · rw [hchild w hwc] at hsw; cases hsw
  · rw [hchild u huc] at hsu; cases hsu

/-- The claims of the threads that have not moved stay true when only the
vpninfo of the mover changes. -/
theorem holds_after {p : Process} (hx : Owned p) {i : Nat} {t : Thread} {m : Section}
    (ht : p.threads[i]? = some t) (hchild : ∀ c ∈ m.spawned, stage c = none)
    (hself : ∀ v x, stage m.self = some (v, x) →
      ∃ info, m.shared.vpninfos[v]? = some info ∧ Holds v info x)
    (hothers : ∀ v x info, (∀ y, stage t ≠ some (v, y)) → p.shared.vpninfos[v]? = some info →
      Holds v info x → ∃ info', m.shared.vpninfos[v]? = some info' ∧ Holds v info' x) :
    ∀ u ∈ (p.after i m).threads, ∀ v x, stage u = some (v, x) →
      ∃ info, m.shared.vpninfos[v]? = some info ∧ Holds v info x := by
  intro u hu v x hs
  obtain ⟨j, hj⟩ := List.mem_iff_getElem?.mp hu
  rcases Pool.running_after ht hj with ⟨-, rfl⟩ | ⟨hji, hup⟩ | huc
  · exact hself v x hs
  · obtain ⟨info, hinfo, hh⟩ := hx.holds u (List.mem_of_getElem? hup) v x hs
    exact hothers v x info (fun y hy => hji (hx.unique j i u t v x y hup ht hs hy)) hinfo hh
  · rw [hchild u huc] at hs; cases hs

/-- A write on a descriptor changes what is in pipes, and nothing else. -/
theorem writeFd_get (cmd : UInt8) (fd : RawFd) (d : Shared) (v : Nat) :
    ∀ info, d.vpninfos[v]? = some info → ∃ pipe, (d.writeFd cmd fd).vpninfos[v]? =
      some { info with pipe } := by
  intro info hinfo
  simp only [Shared.writeFd, List.getElem?_mapIdx, hinfo, Option.map_some, Option.some.injEq]
  split
  · exact ⟨_, rfl⟩
  · exact ⟨info.pipe, rfl⟩

/-- What a claim says is not about the pipe or the user to drop to. -/
theorem Holds.congr {v : Nat} {info info' : VpnInfo} {x : Stage} (h : Holds v info x)
    (hf : info'.frees = info.frees) (hc : info'.cmdFd = info.cmdFd) : Holds v info' x := by
  cases x <;> simp_all [Holds]

theorem modify_get {l : List VpnInfo} {v u : Nat} {f : VpnInfo → VpnInfo} {info : VpnInfo}
    (h : l[u]? = some info) : (l.modify v f)[u]? = some (if v = u then f info else info) := by
  rw [List.getElem?_modify, h]
  split <;> rfl

/-- The part of the step that concerns a section which changes the vpninfo of
its own engine only, by `f`, and leaves `cmd_fd` alone. -/
theorem owned_modify {p : Process} (hx : Owned p) {i : Nat} {t : Thread} {m : Section}
    (ht : p.threads[i]? = some t) (hchild : ∀ c ∈ m.spawned, stage c = none) {v : Nat}
    {x x' : Stage} {f : VpnInfo → VpnInfo} (hst : stage t = some (v, x))
    (hss : stage m.self = some (v, x')) (hnot : x ≠ .freed)
    (infos : m.shared.vpninfos = p.shared.vpninfos.modify v f)
    (slot : m.shared.inner.cmdFd = p.shared.inner.cmdFd)
    (hself : ∀ info, Holds v info x → Holds v (f info) x')
    (hslot : ∀ info, Holds v info x →
      (∀ num, info.cmdFd = some num → (f info).cmdFd = some num) ∧
        ((f info).frees ≠ 0 → x' = .freed)) :
    Owned (p.after i m) := by
  obtain ⟨info, hinfo, hh⟩ := hx.holds t (List.mem_of_getElem? ht) v x hst
  have hnew : m.shared.vpninfos[v]? = some (f info) := by
    rw [infos, modify_get hinfo, if_pos rfl]
  refine ⟨unique_after hx ht hchild ?_, holds_after hx ht hchild ?_ ?_, ?_⟩
  · intro w z hz
    rw [hss] at hz
    cases hz
    exact Or.inl ⟨x, hst⟩
  · intro w z hz
    rw [hss] at hz
    cases hz
    exact ⟨_, hnew, hself info hh⟩
  · intro w z info' hw hinfo' hh'
    have hne : v ≠ w := fun h => hw x (by rw [hst, h])
    exact ⟨info', by rw [infos, modify_get hinfo', if_neg hne], hh'⟩
  · intro fd hfd
    rw [Pool.after_shared, slot] at hfd
    obtain ⟨info', hinfo', hnum, hfreed⟩ := hx.slot fd hfd
    by_cases hv : v = fd.vpninfo
    · subst hv
      rw [hinfo] at hinfo'
      cases hinfo'
      obtain ⟨hkeep, hfree⟩ := hslot info hh
      refine ⟨f info, hnew, hkeep _ hnum, fun hf => ⟨m.self, ?_, ?_⟩⟩
      · exact List.mem_of_getElem? (Pool.self_after ht m)
      · rw [hss, hfree hf]
    · refine ⟨info', by rw [Pool.after_shared, infos, modify_get hinfo', if_neg hv], hnum,
        fun hf => Pool.exists_after ht ?_ (hfreed hf)⟩
      rw [hst]
      rintro ⟨⟩
      exact absurd rfl hnot

section Step
variable {p : Process} {i : Nat} {t : Thread} {m : Section} (hx : Owned p)
  (ht : p.threads[i]? = some t) (hchild : ∀ c ∈ m.spawned, stage c = none)
include hx ht hchild

theorem owned_pass (infos : m.shared.vpninfos = p.shared.vpninfos)
    (slot : m.shared.inner.cmdFd = p.shared.inner.cmdFd)
    (passes : Passes (stage t) (stage m.self)) : Owned (p.after i m) := by
  -- a claim that is still there is the old one, or one that says less
  have hsame : ∀ v x, stage m.self = some (v, x) → ∃ y, stage t = some (v, y) ∧
      ∀ info, Holds v info y → Holds v info x := by
    intro v x hv
    rcases passes with hs | ⟨w, hw, hs⟩ | ⟨hs, -⟩
    · exact ⟨x, hs ▸ hv, fun _ h => h⟩
    · rw [hs] at hv
      cases hv
      exact ⟨.early, hw, fun _ h => h.1⟩
    · rw [hs] at hv
      cases hv
  refine ⟨unique_after hx ht hchild ?_, holds_after hx ht hchild ?_ ?_, ?_⟩
  · intro v x hv
    obtain ⟨y, hy, -⟩ := hsame v x hv
    exact Or.inl ⟨y, hy⟩
  · intro v x hv
    obtain ⟨y, hy, himp⟩ := hsame v x hv
    obtain ⟨info, hinfo, hh⟩ := hx.holds t (List.mem_of_getElem? ht) v y hy
    exact ⟨info, infos ▸ hinfo, himp info hh⟩
  · intro v x info _ hinfo hh
    exact ⟨info, infos ▸ hinfo, hh⟩
  · intro fd hfd
    obtain ⟨info, hinfo, hnum, hfreed⟩ := hx.slot fd (slot ▸ hfd)
    refine ⟨info, by rwa [Pool.after_shared, infos], hnum,
      fun hf => Pool.exists_after ht (fun hs => ?_) (hfreed hf)⟩
    rcases passes with hp | ⟨w, hw, -⟩ | ⟨-, hw⟩
    · rw [hp, hs]
    · rw [hs] at hw
      cases hw
    · exact absurd hs (hw _)

theorem owned_write {cmd : UInt8} {fd : RawFd}
    (infos : m.shared.vpninfos = (p.shared.writeFd cmd fd).vpninfos)
    (slot : m.shared.inner.cmdFd = p.shared.inner.cmdFd) (hst : stage t = none)
    (hss : stage m.self = none) : Owned (p.after i m) := by
  have hnone : ∀ v x, stage m.self ≠ some (v, x) := by simp [hss]
  refine ⟨unique_after hx ht hchild fun v x hv => absurd hv (hnone v x),
    holds_after hx ht hchild (fun v x hv => absurd hv (hnone v x)) ?_, ?_⟩
  · intro v x info _ hinfo hh
    obtain ⟨pipe, hp⟩ := writeFd_get cmd fd p.shared v info hinfo
    exact ⟨{ info with pipe }, infos ▸ hp, hh.congr rfl rfl⟩
  · intro fd' hfd
    obtain ⟨info, hinfo, hnum, hfreed⟩ := hx.slot fd' (slot ▸ hfd)
    obtain ⟨pipe, hp⟩ := writeFd_get cmd fd p.shared fd'.vpninfo info hinfo
    exact ⟨{ info with pipe }, infos ▸ hp, hnum,
      fun hf => Pool.exists_after ht (by simp [hst]) (hfreed hf)⟩

theorem owned_create (infos : m.shared.vpninfos = p.shared.vpninfos ++ [({} : VpnInfo)])
    (slot : m.shared.inner.cmdFd = p.shared.inner.cmdFd) (hst : stage t = none)
    (hss : stage m.self = some (p.shared.vpninfos.length, .early)) : Owned (p.after i m) := by
  have hold : ∀ (v : Nat) info, p.shared.vpninfos[v]? = some info →
      m.shared.vpninfos[v]? = some info := by
    intro v info hinfo
    rw [infos, List.getElem?_append_left (List.getElem?_eq_some_iff.mp hinfo).choose, hinfo]
  refine ⟨unique_after hx ht hchild ?_, holds_after hx ht hchild ?_ ?_, ?_⟩
  · intro v x hv
    rw [hss] at hv
    cases hv
    right
    intro u hu y hy
    obtain ⟨info, hinfo, -⟩ := hx.holds u hu _ y hy
    simp at hinfo
  · intro v x hv
    rw [hss] at hv
    cases hv
    exact ⟨{}, by simp [infos], rfl, rfl⟩
  · exact fun v x info _ hinfo hh => ⟨info, hold v info hinfo, hh⟩
  · intro fd hfd
    obtain ⟨info, hinfo, hnum, hfreed⟩ := hx.slot fd (slot ▸ hfd)
    exact ⟨info, hold _ _ hinfo, hnum, fun hf => Pool.exists_after ht (by simp [hst]) (hfreed hf)⟩

theorem owned_store {v : Nat} {fd : RawFd} (infos : m.shared.vpninfos = p.shared.vpninfos)
    (slot : m.shared.inner.cmdFd = some fd) (hst : stage t = some (v, .storing fd))
    (hss : stage m.self = some (v, .held)) : Owned (p.after i m) := by
  obtain ⟨info, hinfo, hf, hnum, rfl⟩ := hx.holds t (List.mem_of_getElem? ht) v _ hst
  refine ⟨unique_after hx ht hchild ?_, holds_after hx ht hchild ?_ ?_, ?_⟩
  · intro w x hw
    rw [hss] at hw
    cases hw
    exact Or.inl ⟨_, hst⟩
  · intro w x hw
    rw [hss] at hw
    cases hw
    exact ⟨info, infos ▸ hinfo, hf⟩
  · exact fun w x info _ hinfo hh => ⟨info, infos ▸ hinfo, hh⟩
  · intro fd' hfd
    rw [Pool.after_shared, slot] at hfd
    cases hfd
    exact ⟨info, infos ▸ hinfo, hnum, fun hn => absurd hf hn⟩

theorem owned_finish (infos : m.shared.vpninfos = p.shared.vpninfos)
    (slot : m.shared.inner.cmdFd = none) (hss : stage m.self = none) : Owned (p.after i m) := by
  have hnone : ∀ v x, stage m.self ≠ some (v, x) := by simp [hss]
  refine ⟨unique_after hx ht hchild fun v x hv => absurd hv (hnone v x),
    holds_after hx ht hchild (fun v x hv => absurd hv (hnone v x)) ?_, ?_⟩
  · exact fun v x info _ hinfo hh => ⟨info, infos ▸ hinfo, hh⟩
  · intro fd hfd
    rw [Pool.after_shared, slot] at hfd
    cases hfd

end Step

/-- A thread that arrives has no claim. -/
theorem owned_join {p : Process} {t : Thread} (hx : Owned p)
    (ha : daemon.arrives p.shared t = true) : Owned (p.join t) := by
  have hnone : stage t = none := by
    rcases (arrives_kind ha).2 with ⟨r, rfl⟩ | rfl <;> rfl
  have hold : ∀ (j : Nat) u, (p.join t).threads[j]? = some u → ∀ v x, stage u = some (v, x) →
      p.threads[j]? = some u := by
    intro j u hu v x hs
    rcases Pool.running_join hu with hu | rfl
    · exact hu
    · rw [hnone] at hs
      cases hs
  refine ⟨?_, ?_, ?_⟩
  · intro i j u w v x y hu hw hsu hsw
    exact hx.unique i j u w v x y (hold i u hu v x hsu) (hold j w hw v y hsw) hsu hsw
  · intro u hu v x hs
    obtain ⟨j, hj⟩ := List.mem_iff_getElem?.mp hu
    exact hx.holds u (List.mem_of_getElem? (hold j u hj v x hs)) v x hs
  · intro fd hfd
    obtain ⟨info, hinfo, hnum, hfreed⟩ := hx.slot fd hfd
    refine ⟨info, hinfo, hnum, ?_⟩
    intro hf
    obtain ⟨u, hu, hs⟩ := hfreed hf
    exact ⟨u, List.mem_append_left _ hu, hs⟩

theorem owned_step {p p' : Process} {a : Step} {e : Option Effect} (hx : Owned p)
    (h : daemon.system.step p a = some (p', e)) : Owned p' := by
  rcases Program.step_cases h with ⟨i, o, t, m, rfl, ht, hm, rfl, -⟩ | ⟨t, rfl, ha, rfl, -⟩
  · obtain ⟨hstep, hchild⟩ := handles hm
    generalize hst : stage t = s, hss : stage m.self = s' at hstep
    cases hstep with
    | pass infos slot passes =>
      rw [← hst, ← hss] at passes
      exact owned_pass hx ht hchild infos slot passes
    | write cmd fd infos slot => exact owned_write hx ht hchild infos slot hst hss
    | create infos slot => exact owned_create hx ht hchild infos slot hst hss
    | dropUid v ids infos slot =>
      exact owned_modify hx ht hchild hst hss (by simp) infos slot (fun info h => h)
        fun info h => ⟨fun num hnum => hnum, fun hf => absurd h.1 hf⟩
    | setup v num infos slot =>
      refine owned_modify hx ht hchild hst hss (by simp) infos slot
        (fun info h => ⟨h.1, rfl, rfl⟩) fun info h => ⟨fun num hnum => ?_, fun hf => absurd h.1 hf⟩
      rw [h.2] at hnum
      cases hnum
    | store v fd infos slot => exact owned_store hx ht hchild infos slot hst hss
    | free v infos slot =>
      exact owned_modify hx ht hchild hst hss (by simp) infos slot
        (fun info h => Nat.succ_ne_zero _) fun info h => ⟨fun num hnum => hnum, fun _ => rfl⟩
    | finish infos slot => exact owned_finish hx ht hchild infos slot hss
  · exact owned_join hx ha

theorem reach_owned {ok : Process → Step → Bool} {t : List Effect} {p : Process}
    (h : System.Reach daemon.system ok t p) : Owned p :=
  h.invariant (I := fun _ p => Owned p) (fun _ h => boot_owned h)
    (fun _ _ _ _ _ _ hx _ hs => owned_step hx hs)

end InodeVpn.Proofs.Vpninfo
