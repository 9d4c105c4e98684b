import InodeVpn.Proofs.Effects
import InodeVpn.Proofs.Vpninfo

namespace InodeVpn.Proofs.CommandPipe
open InodeVpn.Core Lib Daemon Sections Effects Vpninfo

/-- The descriptor that a call of `network_changed` is going to write to. -/
def pauseFd : Thread → Option RawFd
  | .network (.publish fd _) => some fd
  | .network (.writePause fd) => some fd
  | _ => none

/-- The vpninfo that the next section hands to `openconnect_vpninfo_free`. -/
def freesNext : Thread → Option Nat
  | .engine ⟨_, _, none, .teardown v _ .free⟩ => v
  | _ => none

/-- No engine has freed the vpninfo of `cmd_fd` without having dropped its guard. -/
def slotSettled (p : Process) : Bool :=
  match p.shared.inner.cmdFd with
  | some fd => p.count (fun t => stage t == some (fd.vpninfo, .freed)) == 0
  | none => true

/-- The defects: `cmd_fd` outlives its vpninfo, from `openconnect_vpninfo_free`
to the drop of the guard, and `network_changed` writes to its copy of `cmd_fd`
after it has released the lock. -/
def pipeInOrder (p : Process) : Step → Bool
  | .run i o =>
    match p.threads[i]? with
    | none => true
    | some t =>
      -- no stop in the window
      ((stopperOf t).isNone || slotSettled p) &&
      -- no network change in the window that finds a session to pause
      (t ≠ .network .decide ||
        (p.shared.inner.state ≠ .connected && p.shared.inner.state ≠ .reconnecting) ||
        slotSettled p) &&
      -- no free under a pause that is still to be written
      match freesNext t with
      | some v => o.panics || p.count (fun t => (pauseFd t).any fun fd => fd.vpninfo = v) == 0
      | none => true
  | .arrive _ => true

section Sections
variable {o : Outside} {me fresh : Nat} {d : Shared} {m : Section} {t : Thread}

theorem pauseFd_kind {fd : RawFd} (h : pauseFd t = some fd) : kind t = .network := by
  cases t with
  | network pc => rfl
  | _ => cases h

/-- Only `network_changed` comes to hold a descriptor, from `cmd_fd`. -/
theorem pauseFd_step (h : daemon.next o me fresh d t = some m) {fd : RawFd}
    (hp : pauseFd m.self = some fd) :
    pauseFd t = some fd ∨ (t = .network .decide ∧ d.inner.cmdFd = some fd ∧
      (d.inner.state = .connected ∨ d.inner.state = .reconnecting)) := by
  have hk := (next_kind h).1
  rw [pauseFd_kind hp] at hk
  replace h := daemon_next h
  cases t with
  | network pc =>
    cases pc with
    | decide =>
      simp only [threadNext, networkNext] at h
      split at h <;> cases h
      · cases hp
      · rename_i fd' hact
        cases hp
        exact Or.inr ⟨rfl, Inner.networkAction_pause hact⟩
      · cases hp
    | publish fd' call => cases call <;> cases h <;> exact Or.inl hp
    | writePause fd' => cases h; cases hp
  | _ => cases hk

/-- Only `openconnect_vpninfo_free` makes a held vpninfo a freed one. -/
theorem free_section (h : daemon.next o me fresh d t = some m) {v : Nat}
    (hs : stage t = some (v, .held)) (hs' : stage m.self = some (v, .freed)) :
    freesNext t = some v ∧ o.panics = false := by
  replace h := daemon_next h
  cases t with
  | engine e =>
    obtain ⟨config, tunScript, publishing, pc⟩ := e
    change pcStage pc = _ at hs
    cases publishing with
    | some call =>
      cases call <;> cases h
      all_goals
        change pcStage pc = _ at hs'
        rw [hs] at hs'
        cases hs'
    | none =>
      simp only [threadNext, engineNext, engineRunNext] at h
      split at h
      · cases h
        simp [pcStage, hs] at hs'
      · rename_i hpanics
        cases pc with
        | session w pc =>
          simp only [sessionNext] at h
          repeat' split at h
          all_goals cases h
          all_goals simp [pcStage, sessionStage, teardownStage] at hs' hs
        | teardown w result pc =>
          cases pc with
          | free =>
            cases w with
            | none => cases hs
            | some w =>
              cases hs
              exact ⟨rfl, by simpa [EnginePc.mayPanic] using hpanics⟩
          | _ =>
            cases w with
            | none => cases hs
            | some w =>
              simp only [teardownNext] at h
              repeat' split at h
              all_goals cases h
              all_goals simp [pcStage, teardownStage] at hs' hs
        | unwind origin => cases h; cases hs'
        | _ => cases hs
  | _ => cases hs

end Sections

/-- Whether a section keeps a vpninfo alive. -/
theorem frees_after {o : Outside} {me fresh : Nat} {d : Shared} {m : Section} {t : Thread}
    (h : daemon.next o me fresh d t = some m) {v : Nat} {info : VpnInfo}
    (hinfo : d.vpninfos[v]? = some info) : ∃ info', m.shared.vpninfos[v]? = some info' ∧
      (info.frees ≠ 0 → info'.frees ≠ 0) ∧
      (info.frees = 0 → info'.frees = 0 ∨ (freesNext t = some v ∧ o.panics = false)) := by
  have hstep := (handles h).step
  generalize hst : stage t = s, hss : stage m.self = s' at hstep
  cases hstep with
  | pass infos | store w fd infos | finish infos =>
    exact ⟨info, infos ▸ hinfo, fun h => h, Or.inl⟩
  | write cmd fd infos =>
    obtain ⟨pipe, hp⟩ := writeFd_get cmd fd d v info hinfo
    exact ⟨{ info with pipe }, infos ▸ hp, fun h => h, Or.inl⟩
  | create infos =>
    refine ⟨info, ?_, fun h => h, Or.inl⟩
    rw [infos, List.getElem?_append_left (List.getElem?_eq_some_iff.mp hinfo).choose, hinfo]
  | dropUid w ids infos | setup w num infos =>
    refine ⟨_, infos ▸ modify_get hinfo, ?_, fun h => Or.inl ?_⟩
    · split <;> exact fun h => h
    · split <;> exact h
  | free w infos =>
    by_cases hw : w = v
    · subst hw
      refine ⟨_, infos ▸ modify_get hinfo, fun _ => ?_, fun _ => Or.inr (free_section h hst hss)⟩
      simp
    · refine ⟨info, ?_, fun h => h, Or.inl⟩
      rw [infos, modify_get hinfo, if_neg hw]

/-- What holds of the vpninfos after the trace `t`. -/
structure Piped (t : List Effect) (p : Process) : Prop where
  freed : ∀ v, .freed v ∈ t → ∃ info, p.shared.vpninfos[v]? = some info ∧ info.frees ≠ 0
  paused : ∀ th ∈ p.threads, ∀ fd, pauseFd th = some fd →
    ∃ info, p.shared.vpninfos[fd.vpninfo]? = some info ∧ info.frees = 0

theorem boot_piped {p : Process} (h : daemon.system.init p) : Piped [] p := by
  obtain ⟨d, t, ⟨_, _, _, _, rfl, rfl⟩, rfl⟩ := h
  refine ⟨by simp, ?_⟩
  intro th hth fd hp
  rw [List.mem_singleton.mp hth] at hp
  cases hp

/-- Outside of the window, `cmd_fd` is the descriptor of a live vpninfo. -/
theorem slot_live {p : Process} (hx : Owned p) (hs : slotSettled p = true) {fd : RawFd}
    (hfd : p.shared.inner.cmdFd = some fd) :
    ∃ info, p.shared.vpninfos[fd.vpninfo]? = some info ∧ info.frees = 0 := by
  obtain ⟨info, hinfo, -, hfreed⟩ := hx.slot fd hfd
  refine ⟨info, hinfo, ?_⟩
  by_contra hn
  obtain ⟨t, ht, hstage⟩ := hfreed hn
  simp only [slotSettled, hfd, beq_iff_eq, Pool.count_eq_zero] at hs
  have := hs t ht
  simp [hstage] at this

theorem piped_step {t : List Effect} {p p' : Process} {a : Step} {e : Option Effect}
    (ho : Owned p) (hx : Piped t p) (hok : pipeInOrder p a = true)
    (h : daemon.system.step p a = some (p', e)) : Piped (t ++ e.toList) p' := by
  rcases Program.step_cases h with ⟨i, o, th, m, rfl, ht, hm, rfl, rfl⟩ | ⟨th, rfl, ha, rfl, rfl⟩
  · simp only [pipeInOrder, ht, Bool.and_eq_true] at hok
    obtain ⟨⟨hstop, hnet⟩, hfree⟩ := hok
    -- a pause that is still to be written keeps its vpninfo alive
    have hkeep : ∀ u ∈ p.threads, ∀ fd, pauseFd u = some fd →
        ∃ info, m.shared.vpninfos[fd.vpninfo]? = some info ∧ info.frees = 0 := by
      intro u hu fd hp
      obtain ⟨info, hinfo, hzero⟩ := hx.paused u hu fd hp
      obtain ⟨info', hinfo', -, halive⟩ := frees_after hm hinfo
      refine ⟨info', hinfo', ?_⟩
      rcases halive hzero with halive | ⟨hnext, hpanics⟩
      · exact halive
      · simp only [hnext, hpanics, Bool.false_or, beq_iff_eq, Pool.count_eq_zero] at hfree
        have := hfree u hu
        simp [hp] at this
    refine ⟨?_, ?_⟩
    · intro v hv
      rcases List.mem_append.mp hv with hv | hv
      · obtain ⟨info, hinfo, hn⟩ := hx.freed v hv
        obtain ⟨info', hinfo', hstill, -⟩ := frees_after hm hinfo
        exact ⟨info', hinfo', hstill hn⟩
      · have horigin := effect_origin hm (Option.mem_toList.mp hv)
        cases horigin with
        | @freed eng _ result thread idle pc shared =>
          have hstage : stage th = some (v, .held) := by
            rw [thread]
            change pcStage eng.pc = _
            rw [pc]
            rfl
          obtain ⟨info, hinfo, -⟩ := ho.holds th (List.mem_of_getElem? ht) v _ hstage
          refine ⟨_, by rw [Pool.after_shared, shared]; exact modify_get hinfo, ?_⟩
          simp
    · intro u hu fd hp
      rcases Pool.mem_after hu with rfl | hc | hu
      · rcases pauseFd_step hm hp with hp | ⟨rfl, hfd, hstate⟩
        · exact hkeep th (List.mem_of_getElem? ht) fd hp
        · have hsettled : slotSettled p = true := by
            rcases hstate with hstate | hstate <;> simpa [hstate] using hnet
          obtain ⟨info, hinfo, hzero⟩ := slot_live ho hsettled hfd
          obtain ⟨info', hinfo', -, halive⟩ := frees_after hm hinfo
          exact ⟨info', hinfo', (halive hzero).resolve_right fun h => by cases h.1⟩
      · have := canSpawn_kind ((next_kind hm).2 u hc).1
        simp [pauseFd_kind hp] at this
      · exact hkeep u hu fd hp
  · simp only [Option.toList_none, List.append_nil]
    refine ⟨hx.freed, ?_⟩
    intro u hu fd hp
    rcases Pool.mem_join.mp hu with hu | rfl
    · exact hx.paused u hu fd hp
    · rcases (arrives_kind ha).2 with ⟨r, rfl⟩ | rfl <;> cases hp

/-- A command byte goes to a vpninfo that has not been freed. -/
def LiveWrite (before : List Effect) (e : Effect) : Prop :=
  (∀ stopper fd, e = .stopRequested stopper (some fd) → .freed fd.vpninfo ∉ before) ∧
    ∀ fd, e = .wrotePause fd → .freed fd.vpninfo ∉ before

theorem liveWrite_step {t : List Effect} {p p' : Process} {a : Step} {e : Option Effect}
    (ho : Owned p) (hx : Piped t p) (hok : pipeInOrder p a = true)
    (h : daemon.system.step p a = some (p', e)) : ∀ x ∈ e, LiveWrite t x := by
  have hdead : ∀ (fd : RawFd) info, p.shared.vpninfos[fd.vpninfo]? = some info → info.frees = 0 →
      .freed fd.vpninfo ∉ t := by
    intro fd info hinfo hzero hmem
    obtain ⟨info', hinfo', hn⟩ := hx.freed _ hmem
    rw [hinfo] at hinfo'
    cases hinfo'
    exact hn hzero
  intro x hxe
  rcases Program.step_cases h with ⟨i, o, th, m, rfl, ht, hm, rfl, rfl⟩ | ⟨th, rfl, ha, rfl, rfl⟩
  · have horigin := effect_origin hm hxe
    constructor
    · intro stopper fd hstop
      cases horigin with
      | stopRequested asks shared =>
        obtain ⟨-, hslot⟩ := Effect.stopRequested.inj hstop
        simp only [pipeInOrder, ht, asks, Option.isNone_some, Bool.false_or,
          Bool.and_eq_true] at hok
        obtain ⟨info, hinfo, hzero⟩ := slot_live ho hok.1.1 hslot
        exact hdead fd info hinfo hzero
      | _ => cases hstop
    · intro fd hpause
      cases horigin with
      | wrotePause thread =>
        obtain ⟨info, hinfo, hzero⟩ := hx.paused th (List.mem_of_getElem? ht) fd (by
          rw [thread, Effect.wrotePause.inj hpause]
          rfl)
        exact hdead fd info hinfo hzero
      | _ => cases hpause
  · cases hxe

theorem reach_piped {t : List Effect} {p : Process}
    (h : System.Reach daemon.system pipeInOrder t p) : Piped t p := by
  apply h.invariant (I := Piped)
  · intro p hp
    exact boot_piped hp
  · intro t p a p' e run hx hok hs
    exact piped_step (reach_owned run) hx hok hs

/-- While nothing reads `cmd_fd` between a free and the drop of its guard, and
no vpninfo is freed under a pause, every command byte finds its pipe open. -/
theorem command_pipe_live (t : List Effect) (p : Process)
    (h : System.Reach daemon.system pipeInOrder t p) : Always LiveWrite t := by
  apply h.always (P := LiveWrite)
  intro t p a p' e run hok hs
  exact liveWrite_step (reach_owned run) (reach_piped run) hok hs

/-- A network change, then a stop, each finding the engine in its main loop. -/
theorem command_pipe_live_sample : ∃ t p, System.Reach daemon.system pipeInOrder t p ∧
    .wrotePause ⟨0, 0⟩ ∈ t ∧ .freed 0 ∈ t ∧ Always LiveWrite t := by
  obtain ⟨t, p, hr, hp⟩ := System.exists_reach pipeInOrder
    (connects ++ [.arrive (.network .decide)] ++ sections 4 6 ++ [client 2 "stop"] ++
      sections 5 1 ++ goesDown)
    (fun t _ => t.contains (.wrotePause ⟨0, 0⟩) && t.contains (.freed 0))
    (boot_init 1000 1000 none []) (by decide)
  simp only [Bool.and_eq_true, List.contains_iff_mem] at hp
  exact ⟨t, p, hr, hp.1, hp.2, command_pipe_live t p hr⟩

/-- The main loop ends with an error, and the engine frees its vpninfo. -/
def freesAfterError : List Step :=
  connects ++ sections 2 4 { ret := 1 } ++ sections 3 1 ++ sections 2 4

theorem cancel_after_free : ¬ ∀ t p, System.Reachable daemon.system t p → Always LiveWrite t := by
  intro h
  obtain ⟨t, p, hr, hp⟩ := System.exists_reach (fun _ _ => true)
    (freesAfterError ++ [client 2 "stop"] ++ sections 4 1)
    (fun (t : List Effect) _ => t.getLast? = some (.stopRequested (.stop 2) (some ⟨0, 0⟩)) &&
      t.dropLast.contains (.freed 0)) (boot_init 1000 1000 none []) (by decide)
  simp only [Bool.and_eq_true, decide_eq_true_eq, List.contains_iff_mem] at hp
  obtain ⟨t', rfl⟩ := List.getLast?_eq_some_iff.mp hp.1
  have hfreed : .freed 0 ∈ t' := by simpa using hp.2
  exact (h _ p hr t' _ [] rfl).1 _ ⟨0, 0⟩ rfl hfreed

end InodeVpn.Proofs.CommandPipe
