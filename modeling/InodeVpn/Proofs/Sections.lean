import InodeVpn.Daemon.System

namespace InodeVpn.Proofs.Sections
open InodeVpn.Core Lib Daemon

/-- The code a thread is in, without the place in it. -/
inductive Kind
  | main
  | request
  | network
  | retry
  | starting
  | engine
  | panicked
  | health
  | writer
  | over
  deriving DecidableEq

def kind : Thread → Kind
  | .main _ => .main
  | .request _ _ => .request
  | .network _ => .network
  | .retry _ _ _ _ => .retry
  | .starting _ _ _ => .starting
  | .engine _ => .engine
  | .panicked _ _ _ => .panicked
  | .health _ _ _ => .health
  | .writer _ => .writer
  | .replied _ | .done => .over

/-- The code that the code of a kind can go on to. -/
def goesOn : Kind → Kind → Bool
  | _, .over => true
  | .main, k => k = .main ∨ k = .starting
  | .request, k => k = .request ∨ k = .starting
  | .network, k => k = .network ∨ k = .starting
  | .retry, k => k = .retry ∨ k = .starting
  | .starting, k => k = .starting ∨ k = .main
  | .engine, k => k = .engine ∨ k = .panicked
  | .panicked, k => k = .panicked
  | .health, k => k = .health
  | .writer, k => k = .writer
  | .over, _ => false

/-- The threads that are spawned, as they start. -/
def canSpawn : Thread → Bool
  | .engine ⟨_, _, some (.update .authenticating none), .cstrings⟩ => true
  | .retry _ _ _ .sleep => true
  | .health _ _ .loop => true
  | .writer _ => true
  | _ => false

section Kinds
variable {o : Outside} {me fresh : Nat} {d : Shared} {m : Section}

/-- The code that spawns threads of a kind. -/
def spawns : Kind → Kind → Bool
  | .starting, k => k = .engine
  | .engine, k => k = .retry ∨ k = .health
  | .panicked, k => k = .retry
  | .request, k => k = .writer
  | _, _ => false

/-- What a section leaves behind is of a kind that the thread goes on to, and
what it spawns is at its start. -/
def KeepsKind (k : Kind) (m : Section) : Prop :=
  goesOn k (kind m.self) = true ∧
    ∀ c ∈ m.spawned, canSpawn c = true ∧ spawns k (kind c) = true

theorem engineRun_kind {e : Engine} (h : engineRunNext o me fresh d e = some m) :
    KeepsKind .engine m := by
  simp only [engineRunNext] at h
  split at h
  · cases h
    exact ⟨rfl, by simp⟩
  · cases hpc : e.pc with
    | session v pc =>
      simp only [hpc, sessionNext] at h
      repeat' split at h
      all_goals cases h
      all_goals exact ⟨rfl, by simp [canSpawn, spawns, kind]⟩
    | teardown v result pc =>
      cases pc with
      | scheduleRetry pc =>
        simp only [hpc, teardownNext] at h
        split at h <;> cases h
        case h_3 heq =>
          obtain ⟨delay, rfl⟩ := scheduleNext_spawned heq
          exact ⟨rfl, by simp [canSpawn, spawns, kind]⟩
        all_goals exact ⟨rfl, by simp⟩
      | _ =>
        simp only [hpc, teardownNext] at h
        repeat' split at h
        all_goals cases h
        all_goals exact ⟨rfl, by simp⟩
    | _ =>
      simp only [hpc] at h
      repeat' split at h
      all_goals cases h
      all_goals exact ⟨rfl, by simp⟩

theorem panicked_kind {config : Config} {pc : SchedulePc} {publishing : Option SetState}
    (h : panickedNext o me d config pc publishing = some m) : KeepsKind .panicked m := by
  cases publishing with
  | some call => cases call <;> cases h <;> exact ⟨rfl, by simp⟩
  | none =>
    simp only [panickedNext] at h
    split at h <;> cases h
    case h_3 heq =>
      obtain ⟨delay, rfl⟩ := scheduleNext_spawned heq
      exact ⟨rfl, by simp [canSpawn, spawns, kind]⟩
    all_goals exact ⟨rfl, by simp⟩

theorem next_kind {t : Thread} (h : daemon.next o me fresh d t = some m) :
    KeepsKind (kind t) m := by
  replace h := daemon_next h
  cases t with
  | main pc =>
    simp only [threadNext, mainNext] at h
    repeat' split at h
    all_goals cases h
    all_goals exact ⟨rfl, by simp⟩
  | request r pc =>
    simp only [threadNext, requestNext] at h
    repeat' split at h
    all_goals cases h
    all_goals exact ⟨rfl, by simp [canSpawn, spawns, kind]⟩
  | network pc =>
    cases pc with
    | publish fd call => cases call <;> cases h <;> exact ⟨rfl, by simp⟩
    | _ =>
      simp only [threadNext, networkNext] at h
      repeat' split at h
      all_goals cases h
      all_goals exact ⟨rfl, by simp⟩
  | retry config generation delay pc =>
    simp only [threadNext, retryNext] at h
    repeat' split at h
    all_goals cases h
    all_goals exact ⟨rfl, by simp⟩
  | starting caller config pc =>
    simp only [threadNext, startNext] at h
    repeat' split at h
    all_goals cases h
    all_goals cases caller
    all_goals exact ⟨rfl, by simp [canSpawn, spawns, kind]⟩
  | engine e =>
    obtain ⟨config, tunScript, publishing, pc⟩ := e
    cases publishing with
    | some call => cases call <;> cases h <;> exact ⟨rfl, by simp⟩
    | none => exact engineRun_kind h
  | panicked config publishing pc => exact panicked_kind h
  | health gateway interval pc =>
    simp only [threadNext, healthNext] at h
    repeat' split at h
    all_goals cases h
    all_goals exact ⟨rfl, by simp⟩
  | writer ch =>
    simp only [threadNext, writerNext] at h
    split at h <;> cases h <;> exact ⟨rfl, by simp⟩
  | replied response => cases h
  | done => cases h

theorem kind_starting {t : Thread} (h : kind t = .starting) :
    ∃ caller config pc, t = .starting caller config pc := by
  cases t with
  | starting caller config pc => exact ⟨caller, config, pc, rfl⟩
  | _ => cases h

theorem spawns_engine {k : Kind} (h : spawns k .engine = true) : k = .starting := by
  cases k <;> first | rfl | cases h

/-- Only an engine goes on as an engine. -/
theorem goesOn_engine {k : Kind} (h : goesOn k .engine = true) : k = .engine := by
  cases k <;> first | rfl | cases h

theorem canSpawn_kind {t : Thread} (h : canSpawn t = true) :
    kind t = .engine ∨ kind t = .retry ∨ kind t = .health ∨ kind t = .writer := by
  cases t with
  | engine e => exact Or.inl rfl
  | retry config generation delay pc => exact Or.inr (Or.inl rfl)
  | health gateway interval pc => exact Or.inr (Or.inr (Or.inl rfl))
  | writer ch => exact Or.inr (Or.inr (Or.inr rfl))
  | _ => cases h

theorem canSpawn_engine {e : Engine} (h : canSpawn (.engine e) = true) :
    e.publishing = some (.update .authenticating none) ∧ e.pc = .cstrings := by
  unfold canSpawn at h
  split at h
  · rename_i heq
    cases heq
    exact ⟨rfl, rfl⟩
  all_goals first | (rename_i heq; cases heq) | cases h

/-- Only requests and network changes arrive. -/
theorem arrives_kind {t : Thread} (h : daemon.arrives d t = true) :
    d.serving = true ∧ ((∃ r, t = .request r .dispatch) ∨ t = .network .decide) := by
  simp only [daemon, Bool.and_eq_true] at h
  obtain ⟨⟨hserving, -⟩, h⟩ := h
  refine ⟨hserving, ?_⟩
  split at h
  · exact Or.inl ⟨_, rfl⟩
  · exact Or.inr rfl
  · cases h

/-- `stop_requested` after a section that left the effect. -/
def flagAfter (flag : Bool) : Option Effect → Bool
  | some (.stopRequested _ _) => true
  | some (.accepted _ _) => false
  | _ => flag

@[simp] theorem requestStop_serving (d : Shared) : d.requestStop.serving = d.serving := by
  unfold Shared.requestStop
  cases h : d.inner.cmdFd <;> simp [h, Shared.writeFd]

@[simp] theorem persistState_serving (d : Shared) : (d.persistState o).serving = d.serving := by
  unfold Shared.persistState
  split <;> rfl

@[simp] theorem requestStop_environ (d : Shared) : d.requestStop.environ = d.environ := by
  unfold Shared.requestStop
  cases h : d.inner.cmdFd <;> simp [h, Shared.writeFd]

@[simp] theorem persistState_environ (d : Shared) : (d.persistState o).environ = d.environ := by
  unfold Shared.persistState
  split <;> rfl

/-- Only `request_stop` and an accepted start touch `stop_requested`, and only
`main` sets `serving`. -/
def KeepsFlags (d : Shared) (t : Thread) (m : Section) : Prop :=
  m.shared.inner.stopRequested = flagAfter d.inner.stopRequested m.effect ∧
    m.shared.serving = (d.serving || t = .main .spawnServers)

theorem engineRun_flags {e : Engine} (h : engineRunNext o me fresh d e = some m) :
    KeepsFlags d (.engine e) m := by
  simp only [engineRunNext] at h
  split at h
  · cases h
    simp [KeepsFlags, flagAfter]
  · cases hpc : e.pc with
    | session v pc =>
      simp only [hpc, sessionNext] at h
      repeat' split at h
      all_goals cases h
      all_goals simp [KeepsFlags, flagAfter, Shared.emit, Shared.setVar, Shared.modifyVpnInfo]
    | teardown v result pc =>
      cases pc with
      | scheduleRetry pc =>
        simp only [hpc, teardownNext] at h
        split at h
        all_goals
          rename_i heq
          obtain ⟨g, rfl⟩ := scheduleNext_shared heq
          cases h
          simp [KeepsFlags, flagAfter]
      | free =>
        simp only [hpc, teardownNext] at h
        cases h
        cases v <;> simp [KeepsFlags, flagAfter, Shared.modifyVpnInfo]
      | _ =>
        simp only [hpc, teardownNext] at h
        repeat' split at h
        all_goals cases h
        all_goals simp [KeepsFlags, flagAfter, Shared.markEngineFinished]
    | _ =>
      simp only [hpc] at h
      repeat' split at h
      all_goals cases h
      all_goals simp [KeepsFlags, flagAfter, Shared.markEngineFinished]

theorem panicked_flags {config : Config} {pc : SchedulePc} {publishing : Option SetState}
    (h : panickedNext o me d config pc publishing = some m) :
    KeepsFlags d (.panicked config publishing pc) m := by
  cases publishing with
  | some call => cases call <;> cases h <;> simp [KeepsFlags, flagAfter, Shared.emit]
  | none =>
    simp only [panickedNext] at h
    split at h
    all_goals
      rename_i heq
      obtain ⟨g, rfl⟩ := scheduleNext_shared heq
      cases h
      simp [KeepsFlags, flagAfter]

theorem next_flags {t : Thread} (h : daemon.next o me fresh d t = some m) : KeepsFlags d t m := by
  replace h := daemon_next h
  cases t with
  | main pc =>
    simp only [threadNext, mainNext] at h
    repeat' split at h
    all_goals cases h
    all_goals simp [KeepsFlags, flagAfter, Shared.addRedactionSecrets]
  | request r pc =>
    simp only [threadNext, requestNext] at h
    repeat' split at h
    all_goals cases h
    all_goals simp [KeepsFlags, flagAfter, Shared.dropReceiver, Shared.send]
  | network pc =>
    obtain ⟨last, hlast⟩ := d.inner.networkAction_fst o
    cases pc with
    | decide =>
      simp only [threadNext, networkNext] at h
      split at h <;> cases h <;> simp [KeepsFlags, flagAfter, hlast]
    | publish fd call => cases call <;> cases h <;> simp [KeepsFlags, flagAfter, Shared.emit]
    | writePause fd => cases h; simp [KeepsFlags, flagAfter, Shared.writeFd]
  | retry config generation delay pc =>
    simp only [threadNext, retryNext] at h
    repeat' split at h
    all_goals cases h
    all_goals simp [KeepsFlags, flagAfter]
  | starting caller config pc =>
    simp only [threadNext, startNext] at h
    repeat' split at h
    all_goals cases h
    all_goals simp [KeepsFlags, flagAfter, Shared.acceptStart, Shared.addRedactionSecrets]
  | engine e =>
    obtain ⟨config, tunScript, publishing, pc⟩ := e
    cases publishing with
    | some call => cases call <;> cases h <;> simp [KeepsFlags, flagAfter, Shared.emit]
    | none => exact engineRun_flags h
  | panicked config publishing pc => exact panicked_flags h
  | health gateway interval pc =>
    simp only [threadNext, healthNext] at h
    repeat' split at h
    all_goals cases h
    all_goals simp [KeepsFlags, flagAfter, Shared.emit]
  | writer ch =>
    simp only [threadNext, writerNext] at h
    split at h <;> cases h <;> simp [KeepsFlags, flagAfter, Shared.dropReceiver]
  | replied response => cases h
  | done => cases h

end Kinds

/-- The call of `set_state` that the thread is in. -/
def publishingOf : Thread → Option SetState
  | .engine e => e.publishing
  | .panicked _ publishing _ => publishing
  | .network (.publish _ call) => some call
  | _ => none

/-- While the daemon runs, so does a thread whose section is enabled. -/
theorem step_live {p : Process} {i : Nat} {o : Outside} {t : Thread} {m : Section}
    (ht : p.threads[i]? = some t) (hlive : p.shared.exited = false)
    (hm : threadNext o i p.threads.length p.shared t = some m) :
    daemon.system.step p (.run i o) = some (p.after i m, m.effect) := by
  apply Program.step_run ht
  simp only [daemon, hlive, Bool.false_eq_true, if_false]
  exact hm

theorem not_exited {p p' : Process} {a : Step} {e : Option Effect}
    (h : daemon.system.step p a = some (p', e)) : p.shared.exited = false := by
  rcases Program.step_cases h with ⟨i, o, t, m, -, -, hm, -, -⟩ | ⟨t, -, ha, -, -⟩
  · by_contra hexited
    simp [daemon, hexited] at hm
  · simp only [daemon, Bool.and_eq_true] at ha
    simpa using ha.1.2

/-- What a thread outside of `engine_start` and `engine_run` does to the session:
it may write to a command pipe, or publish a state, and touches nothing else. -/
structure Bystands (d : Shared) (t : Thread) (m : Section) : Prop where
  engine : m.shared.inner.engine = d.inner.engine
  cmdFd : m.shared.inner.cmdFd = d.inner.cmdFd
  infos : m.shared.vpninfos = d.vpninfos ∨
    ∃ cmd fd, m.shared.vpninfos = (d.writeFd cmd fd).vpninfos
  state : (∀ state lastError, publishingOf t ≠ some (.update state lastError)) →
    m.shared.inner.state = d.inner.state

section Bystands
variable {o : Outside} {me fresh : Nat} {d : Shared} {m : Section} {t : Thread}

theorem requestStop_infos (d : Shared) : d.requestStop.vpninfos = d.vpninfos ∨
    ∃ cmd fd, d.requestStop.vpninfos = (d.writeFd cmd fd).vpninfos := by
  rw [d.requestStop_vpninfos]
  cases d.inner.cmdFd with
  | none => exact Or.inl rfl
  | some fd => exact Or.inr ⟨OC_CMD_CANCEL, fd, rfl⟩

theorem next_bystands (h : daemon.next o me fresh d t = some m) (hs : kind t ≠ .starting)
    (he : kind t ≠ .engine) : Bystands d t m := by
  replace h := daemon_next h
  cases t with
  | main pc =>
    simp only [threadNext, mainNext] at h
    repeat' split at h
    all_goals cases h
    all_goals first
      | exact ⟨rfl, rfl, Or.inl rfl, fun _ => rfl⟩
      | exact ⟨by simp, by simp, requestStop_infos d, fun _ => by simp⟩
  | request r pc =>
    simp only [threadNext, requestNext] at h
    repeat' split at h
    all_goals cases h
    all_goals first
      | exact ⟨rfl, rfl, Or.inl rfl, fun _ => rfl⟩
      | exact ⟨by simp, by simp, requestStop_infos d, fun _ => by simp⟩
  | network pc =>
    obtain ⟨last, hlast⟩ := d.inner.networkAction_fst o
    cases pc with
    | decide =>
      simp only [threadNext, networkNext] at h
      split at h <;> cases h <;> constructor <;> simp [hlast]
    | publish fd call => cases call <;> cases h <;> constructor <;> simp [publishingOf]
    | writePause fd =>
      cases h
      exact ⟨rfl, rfl, Or.inr ⟨OC_CMD_PAUSE, fd, rfl⟩, fun _ => rfl⟩
  | retry config generation delay pc =>
    simp only [threadNext, retryNext] at h
    repeat' split at h
    all_goals cases h
    all_goals exact ⟨rfl, rfl, Or.inl rfl, fun _ => rfl⟩
  | panicked config publishing pc =>
    cases publishing with
    | some call => cases call <;> cases h <;> constructor <;> simp [publishingOf]
    | none =>
      simp only [threadNext, panickedNext] at h
      split at h
      all_goals
        rename_i heq
        obtain ⟨g, rfl⟩ := scheduleNext_shared heq
        cases h
        exact ⟨rfl, rfl, Or.inl rfl, fun _ => rfl⟩
  | health gateway interval pc =>
    simp only [threadNext, healthNext] at h
    repeat' split at h
    all_goals cases h
    all_goals exact ⟨rfl, rfl, Or.inl rfl, fun _ => rfl⟩
  | writer ch =>
    simp only [threadNext, writerNext] at h
    split at h <;> cases h <;> exact ⟨rfl, rfl, Or.inl rfl, fun _ => rfl⟩
  | starting caller config pc => exact absurd rfl hs
  | engine e => exact absurd rfl he
  | replied response => cases h
  | done => cases h

/-- Who calls `engine_start`, from which place, and with which configuration. -/
inductive Calls (o : Outside) (d : Shared) : Thread → Caller → Config → Prop
  | request {r : Request} {restarting : Bool} {config : Config} :
      Calls o d (.request r (.loadConfig restarting)) (.ofRequest r.id restarting) config
  | autostart {config : Config} : Calls o d (.main (.addSecrets config)) .autostart config
  | network {config : Config} (decided : (d.inner.networkAction o).2 = some (.restart config)) :
      Calls o d (.network .decide) .network config
  | retry {config : Config} {generation delay : Nat} :
      Calls o d (.retry config generation delay .probe) (.retry generation) config

/-- A thread comes into `engine_start` by a call, and is at its check then. -/
theorem next_starting (h : daemon.next o me fresh d t = some m) {caller : Caller}
    {config : Config} {pc : StartPc} (hself : m.self = .starting caller config pc) :
    (Calls o d t caller config ∧ pc = .check ∧ m.spawned = none) ∨
      ∃ pc', t = .starting caller config pc' := by
  have hk := (next_kind h).1
  replace h := daemon_next h
  cases t with
  | main pc =>
    simp only [threadNext, mainNext] at h
    repeat' split at h
    all_goals cases h
    all_goals cases hself
    exact Or.inl ⟨.autostart, rfl, rfl⟩
  | request r pc =>
    simp only [threadNext, requestNext] at h
    repeat' split at h
    all_goals cases h
    all_goals cases hself
    exact Or.inl ⟨.request, rfl, rfl⟩
  | network pc =>
    cases pc with
    | decide =>
      simp only [threadNext, networkNext] at h
      split at h <;> cases h <;> cases hself
      rename_i hact
      exact Or.inl ⟨.network hact, rfl, rfl⟩
    | publish fd call => cases call <;> cases h <;> cases hself
    | writePause fd => cases h; cases hself
  | retry config generation delay pc =>
    simp only [threadNext, retryNext] at h
    repeat' split at h
    all_goals cases h
    all_goals cases hself
    exact Or.inl ⟨.retry, rfl, rfl⟩
  | starting caller' config' pc' =>
    simp only [threadNext, startNext] at h
    repeat' split at h
    all_goals cases h
    all_goals first
      | (cases hself; exact Or.inr ⟨_, rfl⟩)
      | (cases caller' <;> cases hself)
  | _ => rw [hself] at hk; cases hk

theorem publishingOf_kind {call : SetState} (h : publishingOf t = some call) :
    kind t = .engine ∨ kind t = .panicked ∨ kind t = .network := by
  cases t with
  | engine e => exact Or.inl rfl
  | panicked config publishing pc => exact Or.inr (Or.inl rfl)
  | network pc => exact Or.inr (Or.inr rfl)
  | _ => cases h

/-- A call of `set_state` begins in an engine, or in a network change that pauses. -/
theorem next_update (h : daemon.next o me fresh d t = some m) {state : SessionState}
    {lastError : Option String} (hp : publishingOf m.self = some (.update state lastError)) :
    (∃ e, t = .engine e ∧ e.publishing = none) ∨
      (t = .network .decide ∧ state = .reconnecting) := by
  have hk := (next_kind h).1
  replace h := daemon_next h
  cases t with
  | engine e =>
    obtain ⟨config, tunScript, publishing, pc⟩ := e
    cases publishing with
    | none => exact Or.inl ⟨_, rfl, rfl⟩
    | some call => cases call <;> cases h <;> cases hp
  | panicked config publishing pc =>
    cases publishing with
    | some call => cases call <;> cases h <;> cases hp
    | none =>
      simp only [threadNext, panickedNext] at h
      split at h <;> cases h <;> cases hp
  | network pc =>
    cases pc with
    | decide =>
      simp only [threadNext, networkNext] at h
      split at h <;> cases h <;> cases hp
      exact Or.inr ⟨rfl, rfl⟩
    | publish fd call => cases call <;> cases h <;> cases hp
    | writePause fd => cases h; cases hp
  | _ => rcases publishingOf_kind hp with hs | hs | hs <;> rw [hs] at hk <;> cases hk

end Bystands

/-- Who touches the moment of the last network event, the cookie, the health check and the
environment. -/
structure Keeps (d : Shared) (t : Thread) (d' : Shared) : Prop where
  lastNetEvent : t ≠ .network .decide → d'.inner.lastNetEvent = d.inner.lastNetEvent
  cookie : kind t ≠ .engine → d'.inner.cookie = d.inner.cookie
  healthThread : kind t ≠ .engine → d'.healthThread = d.healthThread
  health : kind t ≠ .engine →
    (∀ gateway interval ok, t ≠ .health gateway interval (.setHealth ok)) →
      d'.inner.health = d.inner.health
  ended : kind t ≠ .health → d'.endedHealth = d.endedHealth
  environ : kind t ≠ .engine → d'.environ = d.environ

section Keeps
variable {o : Outside} {me fresh : Nat} {d d' : Shared} {m : Section} {t : Thread}

theorem keeps_of_eq (h : d'.inner = d.inner) (hthread : d'.healthThread = d.healthThread)
    (hended : d'.endedHealth = d.endedHealth) (henviron : d'.environ = d.environ) :
    Keeps d t d' :=
  ⟨fun _ => by rw [h], fun _ => by rw [h], fun _ => hthread, fun _ _ => by rw [h],
    fun _ => hended, fun _ => henviron⟩

theorem requestStop_keeps (d : Shared) : Keeps d t d.requestStop := by
  have hhealth : d.requestStop.healthThread = d.healthThread ∧
      d.requestStop.endedHealth = d.endedHealth := by
    unfold Shared.requestStop
    cases h : d.inner.cmdFd <;> simp [h, Shared.writeFd]
  constructor <;> intros <;> simp [hhealth]

theorem setState_keeps (o : Outside) (me : Nat) (d : Shared) (t : Thread) (call : SetState) :
    Keeps d t (setStateNext o me d call).1 := by
  cases call with
  | update state lastError =>
    obtain ⟨since, err, heq⟩ := d.inner.setState_eq o state lastError
    constructor <;> intros <;> simp only [setStateNext, heq]
  | persist =>
    apply keeps_of_eq (d.persistState_inner o)
    all_goals
      simp only [Shared.persistState]
      split <;> rfl
  | snapshot => exact keeps_of_eq rfl rfl rfl rfl
  | emit snapshot => exact keeps_of_eq rfl rfl rfl rfl

theorem engineRun_keeps {e : Engine} (h : engineRunNext o me fresh d e = some m) :
    Keeps d (.engine e) m.shared := by
  have hkeeps (hsame : m.shared.inner.lastNetEvent = d.inner.lastNetEvent ∧
      m.shared.endedHealth = d.endedHealth) : Keeps d (.engine e) m.shared :=
    ⟨fun _ => hsame.1, fun hk => absurd rfl hk, fun hk => absurd rfl hk, fun hk => absurd rfl hk,
      fun _ => hsame.2, fun hk => absurd rfl hk⟩
  apply hkeeps
  simp only [engineRunNext] at h
  split at h
  · cases h
    exact ⟨rfl, rfl⟩
  · cases hpc : e.pc with
    | session v pc =>
      simp only [hpc, sessionNext] at h
      repeat' split at h
      all_goals cases h
      all_goals exact ⟨rfl, rfl⟩
    | teardown v result pc =>
      cases pc with
      | scheduleRetry pc =>
        simp only [hpc, teardownNext] at h
        split at h
        all_goals
          rename_i heq
          obtain ⟨g, rfl⟩ := scheduleNext_shared heq
          cases h
          exact ⟨rfl, rfl⟩
      | free =>
        simp only [hpc, teardownNext] at h
        cases h
        cases v <;> exact ⟨rfl, rfl⟩
      | _ =>
        simp only [hpc, teardownNext] at h
        repeat' split at h
        all_goals cases h
        all_goals exact ⟨rfl, rfl⟩
    | _ =>
      simp only [hpc] at h
      repeat' split at h
      all_goals cases h
      all_goals exact ⟨rfl, rfl⟩

theorem next_keeps (h : daemon.next o me fresh d t = some m) : Keeps d t m.shared := by
  replace h := daemon_next h
  cases t with
  | main pc =>
    simp only [threadNext, mainNext] at h
    repeat' split at h
    all_goals cases h
    all_goals first
      | exact requestStop_keeps d
      | exact keeps_of_eq rfl rfl rfl rfl
  | request r pc =>
    simp only [threadNext, requestNext] at h
    repeat' split at h
    all_goals cases h
    all_goals first
      | exact requestStop_keeps d
      | exact keeps_of_eq rfl rfl rfl rfl
  | network pc =>
    obtain ⟨last, hlast⟩ := d.inner.networkAction_fst o
    cases pc with
    | decide =>
      simp only [threadNext, networkNext] at h
      split at h <;> cases h <;>
        exact ⟨fun hne => absurd rfl hne, fun _ => by simp [hlast], fun _ => rfl,
          fun _ _ => by simp [hlast], fun _ => rfl, fun _ => rfl⟩
    | publish fd call =>
      have hkeeps := setState_keeps o me d (.network (.publish fd call)) call
      cases call <;> cases h <;> exact hkeeps
    | writePause fd => cases h; exact keeps_of_eq rfl rfl rfl rfl
  | retry config generation delay pc =>
    simp only [threadNext, retryNext] at h
    repeat' split at h
    all_goals cases h
    all_goals exact keeps_of_eq rfl rfl rfl rfl
  | starting caller config pc =>
    simp only [threadNext, startNext] at h
    repeat' split at h
    all_goals cases h
    all_goals exact ⟨fun _ => rfl, fun _ => rfl, fun _ => rfl, fun _ _ => rfl, fun _ => rfl,
      fun _ => rfl⟩
  | engine e =>
    obtain ⟨config, tunScript, publishing, pc⟩ := e
    cases publishing with
    | some call =>
      have hkeeps := setState_keeps o me d (.engine ⟨config, tunScript, some call, pc⟩) call
      cases call <;> cases h <;> exact hkeeps
    | none => exact engineRun_keeps h
  | panicked config publishing pc =>
    cases publishing with
    | some call =>
      have hkeeps := setState_keeps o me d (.panicked config (some call) pc) call
      cases call <;> cases h <;> exact hkeeps
    | none =>
      simp only [threadNext, panickedNext] at h
      split at h
      all_goals
        rename_i heq
        obtain ⟨g, rfl⟩ := scheduleNext_shared heq
        cases h
        exact ⟨fun _ => rfl, fun _ => rfl, fun _ => rfl, fun _ _ => rfl, fun _ => rfl,
          fun _ => rfl⟩
  | health gateway interval pc =>
    simp only [threadNext, healthNext] at h
    repeat' split at h
    all_goals cases h
    all_goals exact ⟨fun _ => rfl, fun _ => rfl, fun _ => rfl,
      fun _ hne => (by first | rfl | exact absurd rfl (hne _ _ _)), fun hk => absurd rfl hk,
      fun _ => rfl⟩
  | writer ch =>
    simp only [threadNext, writerNext] at h
    split at h <;> cases h <;> exact keeps_of_eq rfl rfl rfl rfl
  | replied response => cases h
  | done => cases h

end Keeps

end InodeVpn.Proofs.Sections
