import InodeVpn.Proofs.Effects
import InodeVpn.Proofs.Vpninfo

namespace InodeVpn.Proofs.Cancellation
open InodeVpn.Core Lib Daemon Sections Effects Vpninfo

/-- The thread is about to publish Connected. -/
def announces (t : Thread) : Bool :=
  match publishingOf t with
  | some (.update .connected _) => true
  | _ => false

/-- The main loop has been entered. -/
def pcPast : EnginePc → Bool
  | .session _ (.inMainloop _) | .session _ (.statsSnapshot _) | .session _ (.emitStats _ _)
  | .session _ (.stopCheck _) | .session _ .pausedStopCheck => true
  | _ => false

def pastEntry : Thread → Bool
  | .engine e => pcPast e.pc
  | _ => false

/-- With a cancel byte in its pipe an engine at this place does not connect any
more: `make_cstp_connection` or the main loop is still to be entered, or has been
entered with the byte there. -/
def cancellable : SessionPc → Bool
  | .obtainCookie | .obtainingCookie _ | .getCookie | .setCookie _ | .clearHealthStop
  | .spawnHealth | .storeHealthThread _ | .makeCstp | .mainloop | .stopCheck _ => true
  | .makingCstp cancelled | .inMainloop cancelled | .statsSnapshot cancelled
  | .emitStats cancelled _ => cancelled
  | _ => false

/-- `engine_start` has accepted and has not created its engine thread. -/
def unspawned : Thread → Bool
  | .starting _ _ .addSecrets | .starting _ _ .tunScript | .starting _ _ (.spawn _) => true
  | _ => false

/-- `cmd_fd` leads to the engine's command pipe, or a cancel byte is in it. -/
def reachable (d : Shared) (v : Nat) : Bool :=
  d.cancelled v || d.inner.cmdFd.any fun fd => fd.vpninfo = v

/-- A stop accepted now is not lost on an engine at this place. -/
def pcHears (d : Shared) : EnginePc → Bool
  | .session v pc => cancellable pc && reachable d v
  | .teardown _ _ _ | .unwind _ => true
  | _ => false

/-- A stop accepted now is not lost on the thread. -/
def hears (d : Shared) : Thread → Bool
  | .engine e => pcPast e.pc || (pcHears d e.pc && !announces (.engine e))
  | t => !unspawned t

/-- What libopenconnect does with a cancel byte that is in the pipe when it is
called: `openconnect_obtain_cookie` and `openconnect_make_cstp_connection` fail,
`openconnect_mainloop` does not reconnect. -/
def honours (o : Outside) : Thread → Bool
  | .engine ⟨_, _, none, .session _ (.obtainingCookie true)⟩ => o.ret ≠ 0
  | .engine ⟨_, _, none, .session _ (.makingCstp true)⟩ => o.ret ≠ 0
  | .engine ⟨_, _, none, .session _ (.inMainloop true)⟩ => o.callback ≠ some .reconnected
  | _ => true

/-- An engine of this kind never publishes Connected again. -/
def pcDoomed (d : Shared) : EnginePc → Bool
  | .session v pc => cancellable pc && d.cancelled v
  | .teardown _ _ _ | .unwind _ => true
  | _ => false

structure Doomed (d : Shared) (t : Thread) : Prop where
  silent : announces t = false
  engine : ∀ e, t = .engine e → pcDoomed d e.pc = true

section Sections
variable {o : Outside} {me fresh : Nat} {d : Shared} {m : Section} {t : Thread}

/-- A byte stays in the pipe. -/
theorem cancelled_stays (h : daemon.next o me fresh d t = some m) {v : Nat}
    (hc : d.cancelled v = true) : m.shared.cancelled v = true := by
  obtain ⟨info, hinfo, hpipe⟩ := (Option.any_eq_true _ _).mp hc
  have hkeep : ∀ info', m.shared.vpninfos[v]? = some info' → info'.pipe = info.pipe →
      m.shared.cancelled v = true := by
    intro info' hinfo' hp
    exact (Option.any_eq_true _ _).mpr ⟨info', hinfo', by rw [hp]; exact hpipe⟩
  have hstep := (handles h).step
  generalize stage t = s, stage m.self = s' at hstep
  cases hstep with
  | pass infos | store w fd infos | finish infos => rw [Shared.cancelled_congr infos, hc]
  | create infos =>
    refine hkeep info ?_ rfl
    rw [infos, List.getElem?_append_left (List.getElem?_eq_some_iff.mp hinfo).choose, hinfo]
  | dropUid w ids infos | setup w num infos | free w infos =>
    apply hkeep _ (infos ▸ modify_get hinfo)
    split <;> rfl
  | write cmd fd infos =>
    rw [Shared.cancelled_congr infos]
    exact Shared.writeFd_cancelled cmd fd hc

/-- Where a session goes on to the main loop, or reconnects in it. -/
def pcAtMainloop : EnginePc → Bool
  | .session _ .mainloop | .session _ (.inMainloop _) => true
  | _ => false

def atMainloop : Thread → Bool
  | .engine e => pcAtMainloop e.pc
  | _ => false

theorem engine_announces {e : Engine} (h : engineNext o me fresh d e = some m)
    (ha : announces m.self = true) : atMainloop m.self = true := by
  obtain ⟨config, tunScript, publishing, pc⟩ := e
  cases publishing with
  | some call => cases call <;> cases h <;> cases ha
  | none =>
    simp only [engineNext, engineRunNext] at h
    split at h
    · cases h; cases ha
    · cases pc with
      | session v pc =>
        simp only [sessionNext] at h
        repeat' split at h
        all_goals cases h
        all_goals first | rfl | cases ha
      | teardown v result pc =>
        simp only [teardownNext] at h
        repeat' split at h
        all_goals cases h
        all_goals cases ha
      | _ =>
        simp only at h
        repeat' split at h
        all_goals cases h
        all_goals cases ha

theorem announces_update (h : announces t = true) :
    ∃ lastError, publishingOf t = some (.update .connected lastError) := by
  unfold announces at h
  split at h
  · rename_i lastError hcall
    exact ⟨lastError, hcall⟩
  · cases h

/-- Connected is announced by an engine that goes on to the main loop, or is in it. -/
theorem announces_where (h : daemon.next o me fresh d t = some m) (ha : announces m.self = true) :
    atMainloop m.self = true := by
  obtain ⟨lastError, hcall⟩ := announces_update ha
  rcases next_update h hcall with ⟨e, rfl, -⟩ | ⟨-, hstate⟩
  · exact engine_announces (daemon_next h) ha
  · cases hstate

/-- The main loop is entered from its own place, and stays entered. -/
theorem pastEntry_step (h : daemon.next o me fresh d t = some m) (hp : pastEntry m.self = true) :
    pastEntry t = true ∨ ∃ b, m.effect = some (.enteredMainloop me b) := by
  have hk := (next_kind h).1
  replace h := daemon_next h
  cases t with
  | engine e =>
    obtain ⟨config, tunScript, publishing, pc⟩ := e
    cases publishing with
    | some call => cases call <;> cases h <;> exact Or.inl hp
    | none =>
      simp only [threadNext, engineNext, engineRunNext] at h
      split at h
      · cases h; cases hp
      · cases pc with
        | session v pc =>
          simp only [sessionNext] at h
          repeat' split at h
          all_goals cases h
          all_goals first | exact Or.inl rfl | exact Or.inr ⟨_, rfl⟩ | cases hp
        | teardown v result pc =>
          simp only [teardownNext] at h
          repeat' split at h
          all_goals cases h
          all_goals cases hp
        | _ =>
          simp only at h
          repeat' split at h
          all_goals cases h
          all_goals cases hp
  | _ =>
    have hk' : kind m.self = .engine := by
      generalize m.self = u at hp
      cases u with
      | engine e => rfl
      | _ => cases hp
    rw [hk'] at hk
    cases hk

/-- Nobody waits to be spawned but behind an accepted start. -/
theorem unspawned_step (h : daemon.next o me fresh d t = some m) (hu : unspawned m.self = true) :
    unspawned t = true ∨ ∃ caller, m.effect = some (.accepted me caller) := by
  cases hself : m.self with
  | starting caller config pc =>
    rcases next_starting h hself with ⟨-, rfl, -⟩ | ⟨pc', rfl⟩
    · rw [hself] at hu
      cases hu
    · replace h := daemon_next h
      cases pc' with
      | check =>
        simp only [threadNext, startNext] at h
        split at h <;> cases h
        · cases caller <;> cases hu
        · exact Or.inr ⟨caller, rfl⟩
      | setEngine handle => cases h; cases caller <;> cases hu
      | _ => exact Or.inl rfl
  | _ => rw [hself] at hu; cases hu

/-- A thread just spawned announces nothing and has entered no main loop. -/
theorem canSpawn_silent (h : canSpawn t = true) : announces t = false ∧ pastEntry t = false := by
  cases t with
  | engine e =>
    obtain ⟨config, script, publishing, pc⟩ := e
    obtain ⟨rfl, rfl⟩ := canSpawn_engine h
    exact ⟨rfl, rfl⟩
  | retry config generation delay pc => exact ⟨rfl, rfl⟩
  | health gateway interval pc => exact ⟨rfl, rfl⟩
  | writer ch => exact ⟨rfl, rfl⟩
  | _ => cases h

/-- Only the spawn of `engine_start` makes an engine. -/
theorem engine_child (h : daemon.next o me fresh d t = some m) {c : Thread} (hc : c ∈ m.spawned)
    (hk : kind c = .engine) : unspawned t = true := by
  have hspawns := ((next_kind h).2 c hc).2
  rw [hk] at hspawns
  replace h := daemon_next h
  cases t with
  | starting caller config pc =>
    cases pc with
    | setEngine handle => cases h; cases hc
    | check =>
      simp only [threadNext, startNext] at h
      split at h <;> cases h <;> cases hc
    | _ => rfl
  | _ => cases hspawns

theorem mainloop_kind (h : atMainloop t = true) : kind t = .engine := by
  cases t with
  | engine e => rfl
  | _ => cases h

/-- Only an engine comes to announce Connected. -/
theorem silent_next (h : daemon.next o me fresh d t = some m) (hk : kind m.self ≠ .engine) :
    announces m.self = false := by
  by_contra ha
  exact hk (mainloop_kind (announces_where h (by simpa using ha)))

theorem pcDoomed_mono {d d' : Shared} (hc : ∀ v, d.cancelled v = true → d'.cancelled v = true)
    {pc : EnginePc} (h : pcDoomed d pc = true) : pcDoomed d' pc = true := by
  cases pc with
  | session v pc =>
    simp only [pcDoomed, Bool.and_eq_true] at h ⊢
    exact ⟨h.1, hc v h.2⟩
  | _ => exact h

theorem Doomed.mono {d d' : Shared} (hc : ∀ v, d.cancelled v = true → d'.cancelled v = true)
    (h : Doomed d t) : Doomed d' t :=
  ⟨h.silent, fun e he => pcDoomed_mono hc (h.engine e he)⟩

theorem doomed_of_kind (hs : announces t = false) (hk : kind t ≠ .engine) : Doomed d t := by
  refine ⟨hs, ?_⟩
  intro e he
  subst he
  exact absurd rfl hk

theorem doomed_engine {e : Engine} (hs : announces (.engine e) = false)
    (hp : pcDoomed d e.pc = true) : Doomed d (.engine e) := by
  refine ⟨hs, ?_⟩
  intro e' he
  cases he
  exact hp

theorem session_doomed {e : Engine} {v : Nat} {pc : SessionPc}
    (h : sessionNext o me fresh d e v pc = some m) (hd : cancellable pc = true)
    (hc : d.cancelled v = true) (hc' : m.shared.cancelled v = true)
    (hstop : d.inner.stopRequested = true)
    (hh : honours o (.engine { e with publishing := none, pc := .session v pc }) = true) :
    Doomed m.shared m.self := by
  have hgoto : ∀ pc, cancellable pc = true → Doomed m.shared (e.goto (.session v pc)) := by
    intro pc hpc
    apply doomed_engine rfl
    simp [pcDoomed, hpc, hc']
  have hdown : ∀ result pc, Doomed m.shared (e.goto (.teardown (some v) result pc)) := by
    intro result pc
    exact doomed_engine rfl rfl
  cases pc with
  | obtainCookie => cases h; exact hgoto _ rfl
  | obtainingCookie c =>
    simp only [sessionNext] at h
    cases h
    dsimp only
    split
    · exact hdown _ _
    · exact hgoto _ rfl
  | getCookie =>
    simp only [sessionNext] at h
    split at h <;> cases h <;> exact hgoto _ rfl
  | setCookie cookie => cases h; exact hgoto _ rfl
  | clearHealthStop => cases h; exact hgoto _ rfl
  | spawnHealth =>
    simp only [sessionNext] at h
    split at h <;> cases h
    · exact hgoto _ rfl
    · exact doomed_engine rfl rfl
  | storeHealthThread handle =>
    cases h
    apply doomed_engine rfl
    simpa [pcDoomed, cancellable] using hc'
  | makeCstp =>
    cases h
    rw [hc] at hgoto ⊢
    exact hgoto _ rfl
  | makingCstp c =>
    -- entered with the byte in the pipe, the call fails
    simp only [cancellable] at hd
    subst hd
    simp only [honours, ne_eq, decide_eq_true_eq] at hh
    cases h
    dsimp only
    rw [if_pos hh]
    exact hdown _ _
  | mainloop =>
    cases h
    rw [hc] at hgoto ⊢
    exact hgoto _ rfl
  | inMainloop c =>
    simp only [cancellable] at hd
    subst hd
    simp only [honours, ne_eq, decide_eq_true_eq] at hh
    simp only [sessionNext] at h
    split at h
    · rename_i heq
      exact absurd heq hh
    · cases h; exact hgoto _ rfl
    · cases h; exact hgoto _ rfl
  | statsSnapshot c => cases h; exact hgoto _ hd
  | emitStats c snapshot => cases h; exact hgoto _ hd
  | stopCheck ret =>
    simp only [sessionNext, hstop, ↓reduceIte] at h
    cases h
    exact doomed_engine rfl rfl
  | _ => cases hd

theorem engine_doomed {e : Engine} (h : engineNext o me fresh d e = some m)
    (hh : honours o (.engine e) = true) (hstop : d.inner.stopRequested = true)
    (hd : Doomed d (.engine e)) (hc : ∀ v, d.cancelled v = true → m.shared.cancelled v = true) :
    Doomed m.shared m.self := by
  have hpc := hd.engine e rfl
  obtain ⟨config, tunScript, publishing, pc⟩ := e
  cases publishing with
  | some call =>
    cases call <;> cases h <;> exact doomed_engine rfl (pcDoomed_mono hc hpc)
  | none =>
    simp only [engineNext, engineRunNext] at h
    split at h
    · cases h
      exact doomed_engine rfl rfl
    · cases pc with
      | session v pc =>
        simp only [pcDoomed, Bool.and_eq_true] at hpc
        exact session_doomed h hpc.1 hpc.2 (hc v hpc.2) hstop hh
      | teardown v result pc =>
        cases pc with
        | guardDrop => cases h; exact doomed_of_kind rfl (by simp [kind])
        | _ =>
          simp only [teardownNext] at h
          repeat' split at h
          all_goals cases h
          all_goals exact doomed_engine rfl rfl
      | unwind origin => cases h; exact doomed_of_kind rfl (by simp [kind])
      | _ => cases hpc

/-- A doomed thread stays doomed while the stop stands. -/
theorem doomed_step (h : daemon.next o me fresh d t = some m) (hh : honours o t = true)
    (hstop : d.inner.stopRequested = true) (hd : Doomed d t) : Doomed m.shared m.self := by
  have hc : ∀ v, d.cancelled v = true → m.shared.cancelled v = true := fun v => cancelled_stays h
  have hk := (next_kind h).1
  cases t with
  | engine e => exact engine_doomed (daemon_next h) hh hstop hd hc
  | _ =>
    have hne : kind m.self ≠ .engine := by
      intro hself
      rw [hself] at hk
      cases hk
    exact doomed_of_kind (silent_next h hne) hne

/-- What a doomed thread leaves in the trace. -/
theorem doomed_effect (h : daemon.next o me fresh d t = some m) (hd : Doomed d t) :
    m.effect ≠ some (.published me .connected) ∧
      m.effect ≠ some (.enteredMainloop me false) := by
  constructor
  · intro he
    have horigin := effect_origin h he
    cases horigin with
    | published call =>
      have := hd.silent
      simp [announces, call] at this
  · intro he
    have horigin := effect_origin h he
    generalize hb : (Effect.enteredMainloop me false) = x at horigin
    cases horigin with
    | @enteredMainloop e v thread idle pc =>
      have hdoom := hd.engine e thread
      simp only [pc, pcDoomed, Bool.and_eq_true] at hdoom
      rw [hdoom.2] at hb
      cases hb
    | _ => cases hb

/-- The byte of `request_stop` arrives in the pipe that `cmd_fd` leads to. -/
theorem stop_reaches {p : Process} (hx : Owned p) {fd : RawFd}
    (hfd : p.shared.inner.cmdFd = some fd) (hlive : ∀ info,
      p.shared.vpninfos[fd.vpninfo]? = some info → info.frees = 0) :
    p.shared.requestStop.cancelled fd.vpninfo = true := by
  obtain ⟨info, hinfo, hnum, -⟩ := hx.slot fd hfd
  have hvp := p.shared.requestStop_vpninfos
  rw [hfd] at hvp
  refine (Option.any_eq_true _ _).mpr ⟨{ info with pipe := info.pipe ++ [OC_CMD_CANCEL] }, ?_, ?_⟩
  · rw [hvp]
    simp [Shared.writeFd, List.getElem?_mapIdx, hinfo, hlive info hinfo, hnum]
  · simp

theorem stop_keeps {v : Nat} (h : d.cancelled v = true) : d.requestStop.cancelled v = true := by
  have hvp := d.requestStop_vpninfos
  split at hvp
  · rw [Shared.cancelled_congr hvp]
    exact Shared.writeFd_cancelled _ _ h
  · rw [Shared.cancelled_congr hvp, h]

/-- An engine that can still be cancelled holds its vpninfo. -/
theorem cancellable_held {pc : SessionPc} (h : cancellable pc = true) :
    sessionStage pc = .held := by
  cases pc <;> first | rfl | cases h

/-- A stop dooms a thread that hears it, unless its main loop runs already. -/
theorem doomed_of_hears {p : Process} (hx : Owned p) (ht : t ∈ p.threads)
    (hwhere : announces t = true → atMainloop t = true) (hh : hears p.shared t = true)
    (hpast : pastEntry t = false) : Doomed p.shared.requestStop t := by
  cases t with
  | engine e =>
    have hpast' : pcPast e.pc = false := hpast
    simp only [hears, hpast', Bool.false_or, Bool.and_eq_true, Bool.not_eq_eq_eq_not,
      Bool.not_true] at hh
    apply doomed_engine hh.2
    cases hpc : e.pc with
    | session v pc =>
      simp only [hpc, pcHears, Bool.and_eq_true, reachable, Bool.or_eq_true] at hh
      obtain ⟨⟨hcan, hreach⟩, -⟩ := hh
      simp only [pcDoomed, hcan, Bool.true_and]
      rcases hreach with hreach | hreach
      · exact stop_keeps hreach
      · obtain ⟨fd, hfd, hv⟩ := (Option.any_eq_true _ _).mp hreach
        simp only [decide_eq_true_eq] at hv
        subst hv
        apply stop_reaches hx hfd
        intro info hinfo
        have hstage : stage (.engine e) = some (fd.vpninfo, .held) := by
          change pcStage e.pc = _
          rw [hpc, pcStage, cancellable_held hcan]
        obtain ⟨info', hinfo', hzero⟩ := hx.holds _ ht _ _ hstage
        rw [hinfo] at hinfo'
        cases hinfo'
        exact hzero
    | teardown v result pc => rfl
    | unwind origin => rfl
    | _ => simp [hpc, pcHears] at hh
  | _ =>
    apply doomed_of_kind ?_ (by simp [kind])
    by_contra ha
    have := hwhere (by simpa using ha)
    cases this

end Sections

end InodeVpn.Proofs.Cancellation
