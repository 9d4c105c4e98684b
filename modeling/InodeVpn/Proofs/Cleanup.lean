import InodeVpn.Proofs.EngineSlot
import InodeVpn.Proofs.Vpninfo

namespace InodeVpn.Proofs.Cleanup
open InodeVpn.Core Lib Daemon Sections Vpninfo

/-- The next section of the engine panics. -/
def panics (o : Outside) (e : Engine) : Bool :=
  e.publishing.isNone && ((o.panics && e.pc.mayPanic) ||
    match e.pc with
    | .session _ .spawnHealth => !o.spawns
    | .session _ .setPreserveCidrs =>
      e.config.network.preserveCidrs ≠ [] && hasNul (",".intercalate e.config.network.preserveCidrs)
    | _ => false)

/-- A vpninfo has been made and not been freed. -/
def hasVpninfo (pc : EnginePc) : Bool := (pcStage pc).any fun claim => claim.2 ≠ .freed

/-- One engine thread at a time. -/
def alone (p : Process) : Step → Bool
  | .run i _ =>
    match p.threads[i]? with
    | some (.starting _ _ (.spawn _)) => p.count Thread.isLiveEngine == 0
    | _ => true
  | .arrive _ => true

/-- And no panic between `openconnect_vpninfo_new` and `openconnect_vpninfo_free`. -/
def cleansUp (p : Process) (a : Step) : Bool :=
  alone p a &&
    match a with
    | .run i o =>
      match p.threads[i]? with
      | some (.engine e) => !(hasVpninfo e.pc && panics o e)
      | _ => true
    | .arrive _ => true

/-- Nothing of an engine is left. -/
structure Clean (p : Process) : Prop where
  cookie : p.shared.inner.cookie = none
  health : p.shared.inner.health = none
  cmdFd : p.shared.inner.cmdFd = none
  noHealth : ∀ t ∈ p.threads, kind t ≠ .health
  freed : ∀ info ∈ p.shared.vpninfos, info.frees = 1

/-- What `engine_run` can have acquired where it is: a cookie, a health report, and a health
thread whose handle is stored. -/
structure Acquired where
  cookie : Bool := false
  health : Bool := false
  thread : Bool := false

/-- What may be held in `a` may be held in `b`. -/
def Acquired.le (a b : Acquired) : Bool :=
  (!a.cookie || b.cookie) && (!a.health || b.health) && (!a.thread || b.thread)

def sessionThread : SessionPc → Bool
  | .setProtocol | .parseUrl | .setDropUid | .setupCmdPipe | .storeCmdFd _ | .obtainCookie
  | .obtainingCookie _ | .getCookie | .setCookie _ | .clearHealthStop | .spawnHealth
  | .storeHealthThread _ => false
  | _ => true

def acquired : EnginePc → Acquired
  | .session _ pc => ⟨true, true, sessionThread pc⟩
  | .teardown (some _) _ .setHealthStop | .teardown (some _) _ .takeHealth => ⟨true, true, true⟩
  | .teardown (some _) _ (.joinHealth _) | .teardown (some _) _ .clearHealth => ⟨true, true, false⟩
  | .teardown (some _) _ .clearCookie => ⟨true, false, false⟩
  | _ => {}

/-- The health thread whose handle the engine itself has in hand. -/
def inHand : EnginePc → Option Nat
  | .session _ (.storeHealthThread h) | .teardown (some _) _ (.joinHealth h) => some h
  | _ => none

/-- The thread is an engine after the section, at such a place. -/
def GoesTo (Q : EnginePc → Prop) (m : Section) : Prop := ∃ e, m.self = .engine e ∧ Q e.pc

/-- What a section of `engine_run` does to what it has acquired. -/
structure Tends (d : Shared) (pc : EnginePc) (m : Section) (fresh : Nat) : Prop where
  claim : ∀ v x, pcStage pc = some (v, x) → x ≠ .freed → ∃ x', stage m.self = some (v, x')
  cmdFd : GoesTo (fun _ => True) m ∨ m.shared.inner.cmdFd = none
  cookie : (d.inner.cookie.isSome = true → (acquired pc).cookie = true) →
    m.shared.inner.cookie.isSome = true → GoesTo (fun pc => (acquired pc).cookie = true) m
  health : (d.inner.health.isSome = true → (acquired pc).health = true) →
    m.shared.inner.health.isSome = true → GoesTo (fun pc => (acquired pc).health = true) m
  thread : (d.healthThread.isSome = true → (acquired pc).thread = true) →
    m.shared.healthThread.isSome = true → GoesTo (fun pc => (acquired pc).thread = true) m
  keeps : (d.healthThread.isSome = true → (acquired pc).thread = true) → ∀ h,
    d.healthThread = some h ∨ inHand pc = some h →
      m.shared.healthThread = some h ∨ GoesTo (fun pc => inHand pc = some h) m ∨ h ∈ d.endedHealth
  child : ∀ c ∈ m.spawned, kind c = .health → GoesTo (fun pc => inHand pc = some fresh) m
  ended : m.shared.endedHealth = d.endedHealth

section Engine
variable {o : Outside} {me fresh : Nat} {d : Shared} {m : Section} {e e' : Engine}
  {pc : EnginePc}

/-- A section that goes on with what it had, or without it. -/
theorem tends_on (hself : m.self = .engine e')
    (hclaim : ∀ v x, pcStage pc = some (v, x) → x ≠ .freed → ∃ x', pcStage e'.pc = some (v, x'))
    (hcookie : m.shared.inner.cookie = none ∨ m.shared.inner.cookie = d.inner.cookie ∧
      ((acquired pc).cookie = true → (acquired e'.pc).cookie = true))
    (hhealth : m.shared.inner.health = none ∨ m.shared.inner.health = d.inner.health ∧
      ((acquired pc).health = true → (acquired e'.pc).health = true))
    (hthread : m.shared.healthThread = d.healthThread)
    (hacquired : (acquired pc).thread = true → (acquired e'.pc).thread = true)
    (hhand : inHand pc = none ∨ inHand e'.pc = inHand pc)
    (hended : m.shared.endedHealth = d.endedHealth)
    (hchild : ∀ c ∈ m.spawned, kind c ≠ .health) : Tends d pc m fresh := by
  have hgoes : ∀ Q : EnginePc → Prop, Q e'.pc → GoesTo Q m := fun Q hQ => ⟨e', hself, hQ⟩
  refine ⟨?_, Or.inl (hgoes _ trivial), ?_, ?_, ?_, ?_, ?_, hended⟩
  · rw [hself]
    exact hclaim
  · rcases hcookie with hnone | ⟨hsame, hkeeps⟩
    · rw [hnone]
      exact fun _ hsome => by cases hsome
    · rw [hsame]
      exact fun hold hsome => hgoes _ (hkeeps (hold hsome))
  · rcases hhealth with hnone | ⟨hsame, hkeeps⟩
    · rw [hnone]
      exact fun _ hsome => by cases hsome
    · rw [hsame]
      exact fun hold hsome => hgoes _ (hkeeps (hold hsome))
  · rw [hthread]
    exact fun hold hsome => hgoes _ (hacquired (hold hsome))
  · rw [hthread]
    rintro - h (hh | hh)
    · exact Or.inl hh
    · rcases hhand with hnone | hsame
      · rw [hnone] at hh
        cases hh
      · exact Or.inr (Or.inl (hgoes _ (hsame.trans hh)))
  · exact fun c hc hk => absurd hk (hchild c hc)

/-- A section that acquires nothing, releases nothing and loses nothing. -/
theorem tends_quietly (hself : m.self = .engine e')
    (hclaim : ∀ v x, pcStage pc = some (v, x) → x ≠ .freed → ∃ x', pcStage e'.pc = some (v, x'))
    (hle : (acquired pc).le (acquired e'.pc) = true) (hhand : inHand pc = none)
    (hcookie : m.shared.inner.cookie = d.inner.cookie)
    (hhealth : m.shared.inner.health = d.inner.health)
    (hthread : m.shared.healthThread = d.healthThread)
    (hended : m.shared.endedHealth = d.endedHealth)
    (hchild : ∀ c ∈ m.spawned, kind c ≠ .health) : Tends d pc m fresh := by
  simp only [Acquired.le, Bool.and_eq_true, Bool.or_eq_true, Bool.not_eq_true',
    ← Bool.not_eq_true, ← imp_iff_not_or] at hle
  obtain ⟨⟨hlecookie, hlehealth⟩, hlethread⟩ := hle
  exact tends_on hself hclaim (Or.inr ⟨hcookie, hlecookie⟩) (Or.inr ⟨hhealth, hlehealth⟩) hthread
    hlethread (Or.inl hhand) hended hchild

/-- The claim on the vpninfo is what it was. -/
theorem claim_kept {pc' : EnginePc} (h : pcStage pc' = pcStage pc) :
    ∀ v x, pcStage pc = some (v, x) → x ≠ .freed → ∃ x', pcStage pc' = some (v, x') :=
  fun _ x hv _ => ⟨x, h.trans hv⟩

/-- `start_health` makes a thread and stores its handle. -/
theorem startHealth_tends {v : Nat} {pc : SessionPc} (hpc : e.pc = .session v pc)
    (hpub : e.publishing = none) (hcalm : panics o e = false)
    (hhealth : pc = .spawnHealth ∨ ∃ handle, pc = .storeHealthThread handle)
    (h : sessionNext o me fresh d e v pc = some m) : Tends d (.session v pc) m fresh := by
  rcases hhealth with rfl | ⟨handle, rfl⟩
  · have hspawns : o.spawns = true := by
      simp only [panics, hpub, hpc, Option.isNone_none, Bool.true_and, Bool.or_eq_false_iff,
        Bool.not_eq_false'] at hcalm
      exact hcalm.2
    simp only [sessionNext, hspawns, if_true] at h
    cases h
    refine ⟨claim_kept rfl, Or.inl ⟨_, rfl, trivial⟩,
      fun _ _ => ⟨_, rfl, rfl⟩, fun _ _ => ⟨_, rfl, rfl⟩, ?_, ?_, fun _ _ _ => ⟨_, rfl, rfl⟩, rfl⟩
    · exact fun hold hsome => by cases hold hsome
    · rintro - h (hh | hh)
      · exact Or.inl hh
      · cases hh
  · cases h
    refine ⟨claim_kept rfl, Or.inl ⟨_, rfl, trivial⟩,
      fun _ _ => ⟨_, rfl, rfl⟩, fun _ _ => ⟨_, rfl, rfl⟩, fun _ _ => ⟨_, rfl, rfl⟩, ?_,
      fun c hc => (by cases hc), rfl⟩
    rintro hold h (hh | hh)
    · have hnone := hold (by rw [hh]; rfl)
      cases hnone
    · exact Or.inl hh

theorem session_tends {v : Nat} {pc : SessionPc} (hpc : e.pc = .session v pc)
    (hpub : e.publishing = none) (hcalm : panics o e = false)
    (h : sessionNext o me fresh d e v pc = some m) : Tends d (.session v pc) m fresh := by
  cases pc with
  | spawnHealth => exact startHealth_tends hpc hpub hcalm (Or.inl rfl) h
  | storeHealthThread handle =>
    exact startHealth_tends hpc hpub hcalm (Or.inr ⟨handle, rfl⟩) h
  | setPreserveCidrs =>
    simp only [panics, hpub, hpc, Option.isNone_none, Bool.true_and, Bool.or_eq_false_iff] at hcalm
    simp only [sessionNext] at h
    split at h
    · cases h
      exact tends_quietly rfl (claim_kept rfl) rfl rfl rfl rfl rfl rfl (by simp)
    · rename_i hcidrs
      split at h
      · rename_i hnul
        simp [hcidrs, hnul] at hcalm
      · cases h
        exact tends_quietly rfl (claim_kept rfl) rfl rfl rfl rfl rfl rfl (by simp)
  | setCookie cookie =>
    cases h
    refine ⟨claim_kept rfl, Or.inl ⟨_, rfl, trivial⟩, fun _ _ => ⟨_, rfl, rfl⟩,
      fun _ _ => ⟨_, rfl, rfl⟩, fun hold hsome => (by cases hold hsome), ?_,
      fun c hc => (by cases hc), rfl⟩
    rintro - h (hh | hh)
    · exact Or.inl hh
    · cases hh
  | _ =>
    simp only [sessionNext] at h
    repeat' split at h
    all_goals cases h
    all_goals
      refine tends_quietly rfl ?_ rfl rfl rfl rfl rfl rfl (by simp)
      rintro v x ⟨⟩ -
      exact ⟨_, rfl⟩

/-- Where nothing is acquired an engine can end. -/
theorem tends_finish (hclaim : ∀ v x, pcStage pc = some (v, x) → x = .freed)
    (hacquired : acquired pc = {}) (hhand : inHand pc = none)
    (hcookie : m.shared.inner.cookie = d.inner.cookie)
    (hhealth : m.shared.inner.health = d.inner.health)
    (hthread : m.shared.healthThread = d.healthThread)
    (hended : m.shared.endedHealth = d.endedHealth) (hcmd : m.shared.inner.cmdFd = none)
    (hchild : m.spawned = none) : Tends d pc m fresh := by
  refine ⟨fun v x hv hx => absurd (hclaim v x hv) hx, Or.inr hcmd, ?_, ?_, ?_, ?_, ?_, hended⟩
  · rw [hcookie, hacquired]
    exact fun hold hsome => by cases hold hsome
  · rw [hhealth, hacquired]
    exact fun hold hsome => by cases hold hsome
  · rw [hthread, hacquired]
    exact fun hold hsome => by cases hold hsome
  · rw [hthread, hhand]
    rintro - h (hh | hh)
    · exact Or.inl hh
    · cases hh
  · rw [hchild]
    exact fun c hc => by cases hc

/-- `stop_health` takes the handle and waits for the thread. -/
theorem takeHealth_tends {v : Option Nat} {result : Option Error}
    (h : teardownNext o me d e v result .takeHealth = some m) :
    Tends d (.teardown v result .takeHealth) m fresh := by
  cases h
  cases v with
  | none =>
    refine ⟨fun v x hv => (by cases hv), Or.inl ⟨_, rfl, trivial⟩,
      fun hold hsome => (by cases hold hsome), fun hold hsome => (by cases hold hsome),
      fun _ hsome => (by cases hsome), ?_, fun c hc => (by cases hc), rfl⟩
    rintro hold h (hh | hh)
    · cases hold (by rw [hh]; rfl)
    · cases hh
  | some v =>
    refine ⟨?_, Or.inl ⟨_, rfl, trivial⟩, fun _ _ => ⟨_, rfl, ?_⟩, fun _ _ => ⟨_, rfl, ?_⟩,
      fun _ hsome => (by cases hsome), ?_, fun c hc => (by cases hc), rfl⟩
    · cases d.healthThread <;> exact fun v x hv _ => ⟨x, hv⟩
    · cases d.healthThread <;> rfl
    · cases d.healthThread <;> rfl
    · rintro - h (hh | hh)
      · refine Or.inr (Or.inl ⟨_, rfl, ?_⟩)
        rw [hh]
        rfl
      · cases hh

theorem joinHealth_tends {v : Option Nat} {result : Option Error} {handle : Nat}
    (h : teardownNext o me d e v result (.joinHealth handle) = some m) :
    Tends d (.teardown v result (.joinHealth handle)) m fresh := by
  simp only [teardownNext] at h
  split at h
  · rename_i hended
    cases h
    cases v with
    | none => exact tends_quietly rfl (claim_kept rfl) rfl rfl rfl rfl rfl rfl (by simp)
    | some v =>
      refine ⟨claim_kept rfl, Or.inl ⟨_, rfl, trivial⟩, fun _ _ => ⟨_, rfl, rfl⟩,
        fun _ _ => ⟨_, rfl, rfl⟩, fun hold hsome => (by cases hold hsome), ?_,
        fun c hc => (by cases hc), rfl⟩
      rintro - h (hh | hh)
      · exact Or.inl hh
      · cases hh
        exact Or.inr (Or.inr hended)
  · cases h

theorem teardown_tends {v : Option Nat} {result : Option Error} {pc : TeardownPc}
    (h : teardownNext o me d e v result pc = some m) : Tends d (.teardown v result pc) m fresh := by
  cases pc with
  | setHealthStop =>
    cases h
    cases v <;> exact tends_quietly rfl (claim_kept rfl) rfl rfl rfl rfl rfl rfl (by simp)
  | takeHealth => exact takeHealth_tends h
  | joinHealth handle => exact joinHealth_tends h
  | clearHealth =>
    cases h
    cases v <;>
      exact tends_on rfl (claim_kept rfl) (Or.inr ⟨rfl, id⟩) (Or.inl rfl) rfl id (Or.inl rfl) rfl
        (by simp)
  | clearCookie =>
    cases h
    cases v <;>
      exact tends_on rfl (claim_kept rfl) (Or.inl rfl) (Or.inr ⟨rfl, id⟩) rfl id (Or.inl rfl) rfl
        (by simp)
  | free =>
    cases h
    cases v with
    | none =>
      cases result <;>
        exact tends_quietly rfl (claim_kept rfl) rfl rfl rfl rfl rfl rfl (by simp)
    | some v =>
      cases result <;>
        exact tends_quietly rfl (fun v x hv _ => ⟨.freed, by cases hv; rfl⟩) rfl rfl rfl rfl rfl rfl
          (by simp)
  | stopCheck error =>
    cases h
    cases v <;> split <;>
      exact tends_quietly rfl (claim_kept rfl) rfl rfl rfl rfl rfl rfl (by simp)
  | scheduleRetry pc =>
    have hclaim : ∀ v' x, pcStage (.teardown v result (.scheduleRetry pc)) = some (v', x) →
        x = .freed := by
      cases v <;> rintro v' x ⟨⟩
      rfl
    have hacquired : acquired (.teardown v result (.scheduleRetry pc)) = {} := by cases v <;> rfl
    have hhand : inHand (.teardown v result (.scheduleRetry pc)) = none := by cases v <;> rfl
    simp only [teardownNext] at h
    split at h
    all_goals
      rename_i heq
      obtain ⟨g, rfl⟩ := scheduleNext_shared heq
      cases h
      refine tends_quietly rfl (fun v x hv hx => absurd (hclaim v x hv) hx) ?_ hhand rfl rfl rfl rfl
        ?_
    all_goals first
      | (rw [hacquired]; rfl)
      | simp
    obtain ⟨delay, rfl⟩ := scheduleNext_spawned heq
    simp [kind]
  | guardDrop =>
    cases h
    cases v with
    | none => exact tends_finish (fun v x hv => by cases hv) rfl rfl rfl rfl rfl rfl rfl rfl
    | some v => exact tends_finish (fun v x hv => by cases hv; rfl) rfl rfl rfl rfl rfl rfl rfl rfl

/-- Without a vpninfo there is nothing else either. -/
theorem acquired_none (h : hasVpninfo pc = false) : acquired pc = {} ∧ inHand pc = none ∧
    ∀ v x, pcStage pc = some (v, x) → x = .freed := by
  have hclaim : ∀ v x, pcStage pc = some (v, x) → x = .freed := by
    intro v x hv
    simpa [hasVpninfo, hv] using h
  refine ⟨?_, ?_, hclaim⟩
  all_goals
    cases pc with
    | session v pc =>
      have hfreed := hclaim v _ rfl
      cases pc <;> cases hfreed
    | teardown v result pc =>
      cases v with
      | none => rfl
      | some v =>
        have hfreed := hclaim v _ rfl
        cases pc <;> first | rfl | cases hfreed
    | _ => rfl

theorem engineRun_tends (hpub : e.publishing = none)
    (hok : (hasVpninfo e.pc && panics o e) = false)
    (h : engineRunNext o me fresh d e = some m) : Tends d e.pc m fresh := by
  unfold engineRunNext at h
  split at h
  · rename_i hpanics
    cases h
    have hnone : hasVpninfo e.pc = false := by
      simpa [panics, hpub, hpanics.1, hpanics.2] using hok
    obtain ⟨hacquired, hhand, hclaim⟩ := acquired_none hnone
    exact tends_quietly rfl (fun v x hv hx => absurd (hclaim v x hv) hx) (by rw [hacquired]; rfl)
      hhand rfl rfl rfl rfl (by simp)
  · split at h
    · rename_i hpc
      cases h
      rw [hpc]
      split <;>
        exact tends_quietly rfl (claim_kept rfl) rfl rfl rfl rfl rfl rfl (by simp)
    · rename_i hpc
      cases h
      rw [hpc]
      split <;>
        exact tends_quietly rfl (claim_kept rfl) rfl rfl rfl rfl rfl rfl (by simp)
    · rename_i hpc
      rw [hpc]
      split at h <;> cases h <;>
        exact tends_quietly rfl (fun v x hv => by cases hv) rfl rfl rfl rfl rfl rfl (by simp)
    · rename_i v pc hpc
      rw [hpc]
      have hcalm : panics o e = false := by
        have hhas : hasVpninfo e.pc = true := by
          rw [hpc]
          cases pc <;> rfl
        simpa [hhas] using hok
      exact session_tends hpc hpub hcalm h
    · rename_i v result pc hpc
      rw [hpc]
      exact teardown_tends h
    · rename_i origin hpc
      cases h
      rw [hpc]
      refine tends_finish ?_ rfl rfl rfl rfl rfl rfl rfl rfl
      intro v x hv
      simpa using (Option.filter_eq_some_iff.mp hv).2

theorem engine_tends (hok : (hasVpninfo e.pc && panics o e) = false)
    (h : engineNext o me fresh d e = some m) : Tends d e.pc m fresh := by
  obtain ⟨config, tunScript, publishing, pc⟩ := e
  cases publishing with
  | none => exact engineRun_tends rfl hok h
  | some call =>
    have hkeeps := setState_keeps o me d .done call
    have hended : (setStateNext o me d call).1.endedHealth = d.endedHealth := by
      cases call with
      | persist =>
        simp only [setStateNext, Shared.persistState]
        split <;> rfl
      | _ => rfl
    cases h
    exact tends_on rfl (claim_kept rfl)
      (Or.inr ⟨hkeeps.cookie (by decide), id⟩)
      (Or.inr ⟨hkeeps.health (by decide) (fun _ _ _ hne => by cases hne), id⟩)
      (hkeeps.healthThread (by decide)) id (Or.inr rfl) hended (by simp)

end Engine

/-- The engine is at such a place. -/
def Current (Q : EnginePc → Prop) (p : Process) : Prop :=
  ∃ t ∈ p.threads, ∃ e, t = .engine e ∧ Q e.pc

/-- What there is belongs to the engine that lives, and to where it is. -/
structure Tidy (p : Process) : Prop where
  one : p.count Thread.isLiveEngine ≤ 1
  cmdFd : p.shared.inner.cmdFd.isSome = true → Current (fun _ => True) p
  cookie : p.shared.inner.cookie.isSome = true → Current (fun pc => (acquired pc).cookie = true) p
  health : p.shared.inner.health.isSome = true → Current (fun pc => (acquired pc).health = true) p
  thread : p.shared.healthThread.isSome = true → Current (fun pc => (acquired pc).thread = true) p
  live : ∀ h u, p.threads[h]? = some u → kind u = .health →
    p.shared.healthThread = some h ∨ Current (fun pc => inHand pc = some h) p
  ended : ∀ h ∈ p.shared.endedHealth, ∃ u, p.threads[h]? = some u ∧ kind u ≠ .health
  freed : ∀ v info, p.shared.vpninfos[v]? = some info →
    info.frees = 1 ∨ info.frees = 0 ∧ ∃ t ∈ p.threads, ∃ x, stage t = some (v, x)

section Step
variable {o : Outside} {p p' : Process} {i : Nat} {t : Thread} {e : Engine} {m : Section}
  {Q : EnginePc → Prop}

/-- The engine that moves is the one that lives. -/
theorem current_mover (hone : p.count Thread.isLiveEngine ≤ 1)
    (ht : p.threads[i]? = some (.engine e)) (h : Current Q p) : Q e.pc := by
  obtain ⟨u, hu, e', rfl, hQ⟩ := h
  obtain ⟨j, hj⟩ := List.mem_iff_getElem?.mp hu
  have hji := Pool.eq_of_count_le_one hone hj ht rfl rfl
  subst hji
  rw [ht] at hj
  cases hj
  exact hQ

theorem current_self (ht : p.threads[i]? = some t) (h : GoesTo Q m) : Current Q (p.after i m) := by
  obtain ⟨e, hself, hQ⟩ := h
  exact ⟨m.self, List.mem_of_getElem? (Pool.self_after ht m), e, hself, hQ⟩

/-- Another thread's section leaves the engine where it is. -/
theorem current_other (ht : p.threads[i]? = some t) (hk : kind t ≠ .engine) (h : Current Q p) :
    Current Q (p.after i m) := by
  apply Pool.exists_after ht _ h
  rintro ⟨e, rfl, -⟩
  exact absurd rfl hk

/-- Each vpninfo has been freed once, or a thread has it. -/
def Accounted (infos : List VpnInfo) (p : Process) : Prop :=
  ∀ v info, infos[v]? = some info → info.frees = 1 ∨
    info.frees = 0 ∧ ∃ t ∈ p.threads, ∃ x, stage t = some (v, x)

theorem Accounted.modify {infos : List VpnInfo} (h : Accounted infos p) (v : Nat)
    {f : VpnInfo → VpnInfo} (hf : ∀ info, (f info).frees = info.frees) :
    Accounted (infos.modify v f) p := by
  intro u info hinfo
  rw [List.getElem?_modify] at hinfo
  obtain ⟨info', hinfo', rfl⟩ := Option.map_eq_some_iff.mp hinfo
  have hframe : (if v = u then f info' else info').frees = info'.frees := by
    split <;> simp [hf]
  rw [hframe]
  exact h u info' hinfo'

/-- A mover that takes its claim along leaves each vpninfo accounted for. -/
theorem Accounted.after (h : Accounted p.shared.vpninfos p) (hx : Owned p)
    (ht : p.threads[i]? = some t)
    (hclaim : ∀ v x, stage t = some (v, x) → x ≠ .freed → ∃ x', stage m.self = some (v, x')) :
    Accounted p.shared.vpninfos (p.after i m) := by
  intro v info hinfo
  rcases h v info hinfo with hone | ⟨hzero, hheld⟩
  · exact Or.inl hone
  · refine Or.inr ⟨hzero, Pool.exists_after ht ?_ hheld⟩
    rintro ⟨x, hs⟩
    apply hclaim v x hs
    rintro rfl
    obtain ⟨info', hinfo', hnonzero⟩ := hx.holds t (List.mem_of_getElem? ht) v _ hs
    rw [hinfo] at hinfo'
    cases hinfo'
    exact hnonzero hzero

/-- A section that takes its claim along keeps each vpninfo claimed or freed once. -/
theorem freed_step (hx : Owned p) (hfreed : Accounted p.shared.vpninfos p)
    (ht : p.threads[i]? = some t) (hm : daemon.next o i p.threads.length p.shared t = some m)
    (hclaim : ∀ v x, stage t = some (v, x) → x ≠ .freed → ∃ x', stage m.self = some (v, x')) :
    Accounted m.shared.vpninfos (p.after i m) := by
  have hstays := hfreed.after hx ht hclaim
  obtain ⟨hstep, -⟩ := handles hm
  generalize hst : stage t = s, hss : stage m.self = s' at hstep
  cases hstep with
  | pass infos slot passes => rwa [infos]
  | store v fd infos slot => rwa [infos]
  | finish infos slot => rwa [infos]
  | write cmd fd infos slot =>
    intro v info hinfo
    rw [infos, Shared.writeFd, List.getElem?_mapIdx] at hinfo
    obtain ⟨info', hinfo', rfl⟩ := Option.map_eq_some_iff.mp hinfo
    have hold := hstays v info' hinfo'
    split <;> exact hold
  | create infos slot =>
    intro v info hinfo
    rw [infos, List.getElem?_append] at hinfo
    split at hinfo
    · exact hstays v info hinfo
    · have hv : v = p.shared.vpninfos.length := by
        have hlt := (List.getElem?_eq_some_iff.mp hinfo).choose
        simp only [List.length_singleton] at hlt
        omega
      subst hv
      simp only [Nat.sub_self, List.getElem?_cons_zero] at hinfo
      cases hinfo
      exact Or.inr ⟨rfl, m.self, List.mem_of_getElem? (Pool.self_after ht m), _, hss⟩
  | dropUid v ids infos slot =>
    rw [infos]
    exact hstays.modify v fun _ => rfl
  | setup v num infos slot =>
    rw [infos]
    exact hstays.modify v fun _ => rfl
  | free v infos slot =>
    intro u info hinfo
    rw [infos, List.getElem?_modify] at hinfo
    obtain ⟨info', hinfo', rfl⟩ := Option.map_eq_some_iff.mp hinfo
    split
    · rename_i hvu
      subst hvu
      obtain ⟨info'', hheld, hzero⟩ := hx.holds t (List.mem_of_getElem? ht) v _ hst
      rw [hinfo'] at hheld
      cases hheld
      exact Or.inl (by rw [show info'.frees = 0 from hzero])
    · exact hstays u info' hinfo'

/-- Only a health thread goes on as one. -/
theorem goesOn_health {k : Kind} (h : goesOn k .health = true) : k = .health := by
  cases k <;> first | rfl | cases h

theorem spawns_health {k : Kind} (h : spawns k .health = true) : k = .engine := by
  cases k <;> first | rfl | cases h

/-- A thread that has ended its health check does not begin one. -/
theorem ended_after (ht : p.threads[i]? = some t)
    (hm : daemon.next o i p.threads.length p.shared t = some m) {h : Nat}
    (hended : ∃ u, p.threads[h]? = some u ∧ kind u ≠ .health) :
    ∃ u, (p.after i m).threads[h]? = some u ∧ kind u ≠ .health := by
  obtain ⟨u, hu, hk⟩ := hended
  by_cases hhi : h = i
  · subst hhi
    rw [ht] at hu
    cases hu
    exact ⟨m.self, Pool.self_after ht m, fun hself => hk (goesOn_health (hself ▸ (next_kind hm).1))⟩
  · exact ⟨u, Pool.others_after ht hu hhi m, hk⟩

theorem tidy_engine (hx : Tidy p) (howned : Owned p) (ht : p.threads[i]? = some (.engine e))
    (hm : daemon.next o i p.threads.length p.shared (.engine e) = some m)
    (hok : (hasVpninfo e.pc && panics o e) = false) : Tidy (p.after i m) := by
  have htends := engine_tends hok (daemon_next hm)
  have hmover : ∀ {Q : EnginePc → Prop}, Current Q p → Q e.pc := current_mover hx.one ht
  have hafter : ∀ {Q : EnginePc → Prop}, GoesTo Q m → Current Q (p.after i m) := current_self ht
  have hchild : ∀ c ∈ m.spawned, Thread.isLiveEngine c = false := by
    intro c hc
    have hk := (next_kind hm).2 c hc
    cases c with
    | engine e' => cases spawns_engine hk.2
    | _ => rfl
  have hthread : p.shared.healthThread.isSome = true → (acquired e.pc).thread = true :=
    fun hsome => hmover (hx.thread hsome)
  refine ⟨?_, ?_, ?_, ?_, ?_, ?_, ?_, ?_⟩
  · exact Nat.le_trans (Pool.count_after_le ht (fun _ => rfl) hchild) hx.one
  · intro hsome
    rcases htends.cmdFd with hgoes | hnone
    · exact hafter hgoes
    · rw [Pool.after_shared, hnone] at hsome
      cases hsome
  · exact fun hsome => hafter (htends.cookie (fun hold => hmover (hx.cookie hold)) hsome)
  · exact fun hsome => hafter (htends.health (fun hold => hmover (hx.health hold)) hsome)
  · exact fun hsome => hafter (htends.thread hthread hsome)
  · intro h u hu hk
    rcases Pool.running_after_at ht hu with ⟨-, rfl⟩ | ⟨-, hold⟩ | ⟨rfl, hspawned⟩
    · cases goesOn_health (hk ▸ (next_kind hm).1)
    · have hwas : p.shared.healthThread = some h ∨ inHand e.pc = some h :=
        (hx.live h u hold hk).imp_right hmover
      rcases htends.keeps hthread h hwas with hstored | hhand | hended
      · exact Or.inl hstored
      · exact Or.inr (hafter hhand)
      · obtain ⟨u', hu', hne⟩ := hx.ended h hended
        rw [hold] at hu'
        cases hu'
        exact absurd hk hne
    · exact Or.inr (hafter (htends.child u hspawned hk))
  · intro h hh
    rw [Pool.after_shared, htends.ended] at hh
    exact ended_after ht hm (hx.ended h hh)
  · exact freed_step howned hx.freed ht hm htends.claim

/-- The health check of an engine that is up belongs to it. -/
theorem acquired_health {pc : EnginePc} {h : Nat}
    (hpc : (acquired pc).thread = true ∨ inHand pc = some h) : (acquired pc).health = true := by
  cases pc with
  | session v pc => rfl
  | teardown v result pc =>
    cases v with
    | none => rcases hpc with hpc | hpc <;> cases hpc
    | some v => cases pc <;> first | rfl | (rcases hpc with hpc | hpc <;> cases hpc)
  | _ => rcases hpc with hpc | hpc <;> cases hpc

theorem health_ended (hm : daemon.next o i p.threads.length p.shared t = some m)
    (hk : kind t = .health) : m.shared.endedHealth = p.shared.endedHealth ∨
      m.shared.endedHealth = i :: p.shared.endedHealth ∧ m.self = .done := by
  replace hm := daemon_next hm
  cases t with
  | health gateway interval pc =>
    simp only [threadNext, healthNext] at hm
    repeat' split at hm
    all_goals cases hm
    all_goals first
      | exact Or.inl rfl
      | exact Or.inr ⟨rfl, rfl⟩
  | _ => cases hk

/-- An engine thread begins at the spawn of `engine_start`. -/
theorem spawns_live (hm : daemon.next o i p.threads.length p.shared t = some m)
    (hchild : ∃ c ∈ m.spawned, Thread.isLiveEngine c = true) :
    ∃ caller config tunScript, t = .starting caller config (.spawn tunScript) := by
  obtain ⟨c, hc, hlive⟩ := hchild
  cases c with
  | engine e =>
    have hstarting := spawns_engine ((next_kind hm).2 _ hc).2
    obtain ⟨caller, config, pc, rfl⟩ := kind_starting hstarting
    replace hm := daemon_next hm
    cases pc with
    | spawn tunScript => exact ⟨caller, config, tunScript, rfl⟩
    | _ =>
      simp only [threadNext, startNext] at hm
      repeat' split at hm
      all_goals cases hm
      all_goals cases hc
  | _ => cases hlive

/-- One engine thread at a time is spawned, so there is one at most. -/
theorem one_live (hone : p.count Thread.isLiveEngine ≤ 1) (ht : p.threads[i]? = some t)
    (hm : daemon.next o i p.threads.length p.shared t = some m) (hok : alone p (.run i o) = true) :
    (p.after i m).count Thread.isLiveEngine ≤ 1 := by
  have hself : Thread.isLiveEngine m.self = true → Thread.isLiveEngine t = true := by
    intro hself
    have hk := (next_kind hm).1
    cases hs : m.self with
    | engine e =>
      rw [hs] at hk
      have hengine := goesOn_engine hk
      cases t with
      | engine e' => rfl
      | _ => cases hengine
    | _ => rw [hs] at hself; cases hself
  by_cases hchild : ∃ c ∈ m.spawned, Thread.isLiveEngine c = true
  · obtain ⟨caller, config, tunScript, rfl⟩ := spawns_live hm hchild
    have hnone : p.count Thread.isLiveEngine = 0 := by simpa [alone, ht] using hok
    have hcount := Pool.count_after Thread.isLiveEngine ht m
    have hnot : Thread.isLiveEngine m.self = false := by
      rw [← Bool.not_eq_true]
      exact fun hlive => by cases hself hlive
    have hone : m.spawned.toList.countP Thread.isLiveEngine ≤ 1 := by
      refine Nat.le_trans List.countP_le_length ?_
      cases m.spawned <;> simp
    rw [hnone, hnot, Bool.toNat_false] at hcount
    omega
  · refine Nat.le_trans (Pool.count_after_le ht hself fun c hc => ?_) hone
    rw [← Bool.not_eq_true]
    exact fun hlive => hchild ⟨c, hc, hlive⟩

theorem tidy_other (hx : Tidy p) (howned : Owned p) (ht : p.threads[i]? = some t)
    (hk : kind t ≠ .engine) (hm : daemon.next o i p.threads.length p.shared t = some m)
    (hone : (p.after i m).count Thread.isLiveEngine ≤ 1) : Tidy (p.after i m) := by
  have hkeeps := next_keeps hm
  have hself : kind m.self ≠ .engine := fun hself => hk (goesOn_engine (hself ▸ (next_kind hm).1))
  have hstays : ∀ {Q : EnginePc → Prop}, Current Q p → Current Q (p.after i m) :=
    current_other ht hk
  have hlive : kind t = .health → Current (fun pc => (acquired pc).health = true) p := by
    intro hhealth
    rcases hx.live i t ht hhealth with hstored | ⟨u, hu, e, he, hhand⟩
    · obtain ⟨u, hu, e, he, hthread⟩ := hx.thread (by rw [hstored]; rfl)
      exact ⟨u, hu, e, he, acquired_health (h := 0) (Or.inl hthread)⟩
    · exact ⟨u, hu, e, he, acquired_health (Or.inr hhand)⟩
  refine ⟨hone, ?_, ?_, ?_, ?_, ?_, ?_, ?_⟩
  · have hslot : m.shared.inner.cmdFd = p.shared.inner.cmdFd ∨ m.shared.inner.cmdFd = none := by
      have hstep := (handles hm).step
      rw [stage_of_kind hk, stage_of_kind hself] at hstep
      cases hstep with
      | pass infos slot passes => exact Or.inl slot
      | write cmd fd infos slot => exact Or.inl slot
      | finish infos slot => exact Or.inr slot
    intro hsome
    rcases hslot with hsame | hnone
    · rw [Pool.after_shared, hsame] at hsome
      exact hstays (hx.cmdFd hsome)
    · rw [Pool.after_shared, hnone] at hsome
      cases hsome
  · intro hsome
    rw [Pool.after_shared, hkeeps.cookie hk] at hsome
    exact hstays (hx.cookie hsome)
  · intro hsome
    by_cases hhealth : kind t = .health
    · exact hstays (hlive hhealth)
    · rw [Pool.after_shared, hkeeps.health hk fun _ _ _ hne => hhealth (hne ▸ rfl)] at hsome
      exact hstays (hx.health hsome)
  · intro hsome
    rw [Pool.after_shared, hkeeps.healthThread hk] at hsome
    exact hstays (hx.thread hsome)
  · intro h u hu hku
    rw [Pool.after_shared, hkeeps.healthThread hk]
    rcases Pool.running_after_at ht hu with ⟨rfl, rfl⟩ | ⟨-, hold⟩ | ⟨-, hspawned⟩
    · exact (hx.live h t ht (goesOn_health (hku ▸ (next_kind hm).1))).imp_right hstays
    · exact (hx.live h u hold hku).imp_right hstays
    · exact absurd (spawns_health (hku ▸ ((next_kind hm).2 u hspawned).2)) hk
  · intro h hh
    by_cases hhealth : kind t = .health
    · rcases health_ended hm hhealth with hsame | ⟨hmore, hdone⟩
      · rw [Pool.after_shared, hsame] at hh
        exact ended_after ht hm (hx.ended h hh)
      · rw [Pool.after_shared, hmore] at hh
        rcases List.mem_cons.mp hh with rfl | hold
        · exact ⟨m.self, Pool.self_after ht m, by rw [hdone]; exact fun hk => by cases hk⟩
        · exact ended_after ht hm (hx.ended h hold)
    · rw [Pool.after_shared, hkeeps.ended hhealth] at hh
      exact ended_after ht hm (hx.ended h hh)
  · apply freed_step howned hx.freed ht hm
    intro v x hv
    rw [stage_of_kind hk] at hv
    cases hv

/-- What arrives has nothing of an engine. -/
theorem tidy_join (hx : Tidy p) (ha : daemon.arrives p.shared t = true) : Tidy (p.join t) := by
  have hmono : ∀ {Q : EnginePc → Prop}, Current Q p → Current Q (p.join t) := by
    rintro Q ⟨u, hu, hQ⟩
    exact ⟨u, List.mem_append_left _ hu, hQ⟩
  have hkind : kind t = .request ∨ kind t = .network := by
    rcases (arrives_kind ha).2 with ⟨r, rfl⟩ | rfl
    · exact Or.inl rfl
    · exact Or.inr rfl
  have hlive : Thread.isLiveEngine t = false := by
    cases t with
    | engine e => rcases hkind with hk | hk <;> cases hk
    | _ => rfl
  refine ⟨?_, fun hs => hmono (hx.cmdFd hs), fun hs => hmono (hx.cookie hs),
    fun hs => hmono (hx.health hs), fun hs => hmono (hx.thread hs), ?_, ?_, ?_⟩
  · rw [Pool.count_join, hlive]
    exact hx.one
  · intro h u hu hk
    rcases Pool.running_join hu with hold | rfl
    · exact (hx.live h u hold hk).imp_right hmono
    · rcases hkind with hk' | hk' <;> rw [hk] at hk' <;> cases hk'
  · intro h hh
    obtain ⟨u, hu, hk⟩ := hx.ended h hh
    exact ⟨u, Pool.others_join hu t, hk⟩
  · intro v info hinfo
    rcases hx.freed v info hinfo with hone | ⟨hzero, u, hu, hs⟩
    · exact Or.inl hone
    · exact Or.inr ⟨hzero, u, List.mem_append_left _ hu, hs⟩

theorem tidy_step {a : Step} {ef : Option Effect} (hx : Tidy p) (howned : Owned p)
    (hok : cleansUp p a = true) (h : daemon.system.step p a = some (p', ef)) : Tidy p' := by
  simp only [cleansUp, Bool.and_eq_true] at hok
  rcases Program.step_cases h with ⟨i, o, t, m, rfl, ht, hm, rfl, -⟩ | ⟨t, rfl, ha, rfl, -⟩
  · by_cases hk : kind t = .engine
    · cases t with
      | engine e =>
        have hcalm := hok.2
        simp only [ht, Bool.not_eq_true'] at hcalm
        exact tidy_engine hx howned ht hm hcalm
      | _ => cases hk
    · exact tidy_other hx howned ht hk hm (one_live hx.one ht hm hok.1)
  · exact tidy_join hx ha

theorem reach_tidy {t : List Effect} (h : System.Reach daemon.system cleansUp t p) : Tidy p := by
  apply h.invariant (I := fun _ p => Tidy p)
  · rintro p ⟨d, t, ⟨_, _, _, _, rfl, rfl⟩, rfl⟩
    refine ⟨Nat.zero_le _, fun hs => (by cases hs), fun hs => (by cases hs),
      fun hs => (by cases hs), fun hs => (by cases hs), ?_, fun h hh => absurd hh List.not_mem_nil,
      ?_⟩
    · intro h u hu hk
      rw [List.mem_singleton.mp (List.mem_of_getElem? hu)] at hk
      cases hk
    · intro v info hinfo
      cases hinfo
  · intro t p a p' e run hx hok hs
    exact tidy_step hx (reach_owned run) hok hs

end Step

/-- With one engine at a time and no panic while it has a vpninfo, nothing of an engine is left
once it has ended, however it came to its end. -/
theorem engine_cleans_up (t : List Effect) (p : Process)
    (h : System.Reach daemon.system cleansUp t p) (hended : p.count Thread.isLiveEngine = 0) :
    Clean p := by
  have hx := reach_tidy h
  have hnone : ∀ {Q : EnginePc → Prop}, ¬ Current Q p := by
    rintro Q ⟨u, hu, e, rfl, -⟩
    have hlive := Pool.count_eq_zero.mp hended _ hu
    cases hlive
  refine ⟨?_, ?_, ?_, ?_, ?_⟩
  · by_contra hsome
    exact hnone (hx.cookie (Option.isSome_iff_ne_none.mpr hsome))
  · by_contra hsome
    exact hnone (hx.health (Option.isSome_iff_ne_none.mpr hsome))
  · by_contra hsome
    exact hnone (hx.cmdFd (Option.isSome_iff_ne_none.mpr hsome))
  · intro u hu hk
    obtain ⟨h, hh⟩ := List.mem_iff_getElem?.mp hu
    rcases hx.live h u hh hk with hstored | hhand
    · exact hnone (hx.thread (by rw [hstored]; rfl))
    · exact hnone hhand
  · intro info hinfo
    obtain ⟨v, hv⟩ := List.mem_iff_getElem?.mp hinfo
    rcases hx.freed v info hv with hone | ⟨-, u, hu, x, hs⟩
    · exact hone
    · cases u with
      | engine e => exact absurd ⟨_, hu, e, rfl, trivial⟩ (hnone (Q := fun _ => True))
      | _ => cases hs

/-- A session that a client stops. -/
theorem engine_cleans_up_sample : ∃ t p, System.Reach daemon.system cleansUp t p ∧
    p.shared.vpninfos.length = 1 ∧ p.threads[2]? = some .done ∧ Clean p := by
  obtain ⟨t, p, hr, hp⟩ := System.exists_reach cleansUp
    (connects ++ [client 2 "stop"] ++ sections 4 1 ++ goesDown)
    (fun _ p => p.shared.vpninfos.length == 1 && p.threads[2]? == some .done &&
      p.count Thread.isLiveEngine == 0) (boot_init 1000 1000 none []) (by decide)
  simp only [Bool.and_eq_true, beq_iff_eq] at hp
  exact ⟨t, p, hr, hp.1.1, hp.1.2, engine_cleans_up t p hr hp.2⟩

/-- A network to preserve, with a NUL behind it. -/
def nulConfig : Config :=
  { sampleConfig with
    network := { sampleConfig.network with preserveCidrs := ["10.0.0.0/8\x00"] } }

/-- The session panics over it, and its thread ends. -/
def panicsOverCidrs : List Step :=
  serve ++ [client 1 "start"] ++ loadStart 1 nulConfig ++ sections 1 5 ++ sections 2 39

theorem cookie_left : ¬ ∀ t p, System.Reach daemon.system alone t p →
    p.count Thread.isLiveEngine = 0 → p.threads[2]? = some .done → Clean p := by
  intro h
  obtain ⟨t, p, hr, hp⟩ := System.exists_reach alone panicsOverCidrs
    (fun _ p => p.count Thread.isLiveEngine == 0 && p.threads[2]? == some .done &&
      p.shared.inner.cookie.isSome) (boot_init 1000 1000 none []) (by decide)
  simp only [Bool.and_eq_true, beq_iff_eq] at hp
  have hcookie := (h t p hr hp.1.1 hp.1.2).cookie
  rw [hcookie] at hp
  cases hp.2

end InodeVpn.Proofs.Cleanup
