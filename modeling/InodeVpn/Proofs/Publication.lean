import InodeVpn.Proofs.Sections

namespace InodeVpn.Proofs.Publication
open InodeVpn.Core Lib Daemon Sections

section Sections
variable {o : Outside} {me fresh : Nat} {d : Shared} {m : Section} {t : Thread}

/-- A thread inside `set_state` runs the next section of that call and nothing else. -/
theorem publishing_step {call : SetState} (h : daemon.next o me fresh d t = some m)
    (hc : publishingOf t = some call) :
    setStateNext o me d call = (m.shared, publishingOf m.self, m.effect) ∧ m.spawned = none := by
  replace h := daemon_next h
  cases t with
  | engine e =>
    obtain ⟨config, tunScript, publishing, pc⟩ := e
    cases hc
    cases call <;> cases h <;> exact ⟨rfl, rfl⟩
  | panicked config publishing pc =>
    cases hc
    cases call <;> cases h <;> exact ⟨rfl, rfl⟩
  | network pc =>
    cases pc with
    | publish fd call' =>
      cases hc
      cases call <;> cases h <;> exact ⟨rfl, rfl⟩
    | _ => cases hc
  | _ => cases hc

/-- The subscriber that a request is serving, up to its first snapshot. -/
def serves : Thread → Option Nat
  | .request _ (.subscribed ch) => some ch
  | .request _ (.currentSnapshot ch) => some ch
  | .request _ (.sendSnapshot ch _) => some ch
  | _ => none

/-- What a section outside of `set_state` does to the subscribers' channels. -/
inductive Traffic (d : Shared) (t : Thread) (m : Section) : Prop
  | none (channels : m.shared.channels = d.channels)
      (subscribers : m.shared.subscribers = d.subscribers) (quiet : serves t = none)
  | other (method : String) (params : StatusSnapshot) (hne : method ≠ "state_changed")
      (channels : m.shared.channels = (d.emit method params).channels)
      (subscribers : m.shared.subscribers = (d.emit method params).subscribers)
      (quiet : serves t = none)
  | subscribe (r : Request) (channels : m.shared.channels = d.channels ++ [({} : Channel)])
      (subscribers : m.shared.subscribers = d.subscribers ++ [d.channels.length])
      (quiet : serves t = none) (self : m.self = .request r (.subscribed d.channels.length))
  | answered (r : Request) (ch : Nat) (thread : t = .request r (.subscribed ch))
      (channels : m.shared.channels = d.channels)
      (subscribers : m.shared.subscribers = d.subscribers)
      (self : m.self = .request r (.currentSnapshot ch))
  | looked (r : Request) (ch : Nat) (thread : t = .request r (.currentSnapshot ch))
      (channels : m.shared.channels = d.channels)
      (subscribers : m.shared.subscribers = d.subscribers)
      (self : m.self = .request r (.sendSnapshot ch d.inner.snapshot))
  | sent (r : Request) (ch : Nat) (s : StatusSnapshot)
      (thread : t = .request r (.sendSnapshot ch s))
      (channels : m.shared.channels = (d.send ch ⟨"state_changed", s⟩).channels)
      (subscribers : m.shared.subscribers = d.subscribers)
  | dropped (ch : Nat) (channels : m.shared.channels = (d.dropReceiver ch).channels)
      (subscribers : m.shared.subscribers = d.subscribers) (only : ∀ c, serves t = some c → c = ch)

/-- A section outside of `set_state` leaves the state and its record alone. -/
structure Quiet (d : Shared) (t : Thread) (m : Section) : Prop where
  state : m.shared.inner.state = d.inner.state
  since : m.shared.inner.since = d.inner.since
  stateFile : m.shared.stateFile = d.stateFile
  effect : ∀ thread state, m.effect ≠ some (.published thread state)
  traffic : Traffic d t m

theorem requestStop_quiet (d : Shared) : d.requestStop.stateFile = d.stateFile ∧
    d.requestStop.channels = d.channels ∧ d.requestStop.subscribers = d.subscribers := by
  unfold Shared.requestStop
  cases h : d.inner.cmdFd <;> simp [h, Shared.writeFd]

theorem engineRun_quiet {e : Engine} (h : engineRunNext o me fresh d e = some m) :
    Quiet d (.engine e) m := by
  simp only [engineRunNext] at h
  split at h
  · cases h
    exact ⟨rfl, rfl, rfl, by simp, .none rfl rfl rfl⟩
  · cases hpc : e.pc with
    | session v pc =>
      cases pc with
      | emitSession snapshot =>
        simp only [hpc, sessionNext] at h
        cases h
        exact ⟨rfl, rfl, rfl, by simp, .other _ _ (by decide) rfl rfl rfl⟩
      | emitStats cancelled snapshot =>
        simp only [hpc, sessionNext] at h
        cases h
        exact ⟨rfl, rfl, rfl, by simp, .other _ _ (by decide) rfl rfl rfl⟩
      | _ =>
        simp only [hpc, sessionNext] at h
        repeat' split at h
        all_goals cases h
        all_goals exact ⟨rfl, rfl, rfl, by simp, .none rfl rfl rfl⟩
    | teardown v result pc =>
      cases pc with
      | scheduleRetry pc =>
        simp only [hpc, teardownNext] at h
        split at h
        all_goals
          rename_i heq
          obtain ⟨g, rfl⟩ := scheduleNext_shared heq
          cases h
          exact ⟨rfl, rfl, rfl, by simp, .none rfl rfl rfl⟩
      | free =>
        simp only [hpc, teardownNext] at h
        cases h
        cases v <;> exact ⟨rfl, rfl, rfl, by simp, .none rfl rfl rfl⟩
      | _ =>
        simp only [hpc, teardownNext] at h
        repeat' split at h
        all_goals cases h
        all_goals exact ⟨rfl, rfl, rfl, by simp, .none rfl rfl rfl⟩
    | _ =>
      simp only [hpc] at h
      repeat' split at h
      all_goals cases h
      all_goals exact ⟨rfl, rfl, rfl, by simp, .none rfl rfl rfl⟩

theorem request_quiet {r : Request} {pc : RequestPc} (h : requestNext o d r pc = some m) :
    Quiet d (.request r pc) m := by
  obtain ⟨hfile, hchannels, hsubscribers⟩ := requestStop_quiet d
  cases pc with
  | dispatch =>
    simp only [requestNext] at h
    repeat' split at h
    all_goals cases h
    all_goals first
      | exact ⟨rfl, rfl, rfl, by simp, .none rfl rfl rfl⟩
      | exact ⟨by simp, by simp, hfile, by simp, .none hchannels hsubscribers rfl⟩
      | exact ⟨rfl, rfl, rfl, by simp, .subscribe r rfl rfl rfl rfl⟩
  | waitForEngine =>
    simp only [requestNext] at h
    repeat' split at h
    all_goals cases h
    all_goals exact ⟨rfl, rfl, rfl, by simp, .none rfl rfl rfl⟩
  | loadConfig restarting =>
    cases h
    exact ⟨rfl, rfl, rfl, by simp, .none rfl rfl rfl⟩
  | subscribed ch =>
    simp only [requestNext] at h
    split at h <;> cases h
    · exact ⟨rfl, rfl, rfl, by simp, .answered r ch rfl rfl rfl rfl⟩
    · exact ⟨rfl, rfl, rfl, by simp, .dropped ch rfl rfl (by simp [serves])⟩
  | currentSnapshot ch =>
    cases h
    exact ⟨rfl, rfl, rfl, by simp, .looked r ch rfl rfl rfl rfl⟩
  | sendSnapshot ch s =>
    cases h
    exact ⟨rfl, rfl, rfl, by simp, .sent r ch s rfl rfl rfl⟩
  | spawnWriter ch =>
    simp only [requestNext] at h
    split at h <;> cases h
    · exact ⟨rfl, rfl, rfl, by simp, .none rfl rfl rfl⟩
    · exact ⟨rfl, rfl, rfl, by simp, .dropped ch rfl rfl (by simp [serves])⟩

theorem quiet_step (h : daemon.next o me fresh d t = some m) (hp : publishingOf t = none) :
    Quiet d t m := by
  obtain ⟨hfile, hchannels, hsubscribers⟩ := requestStop_quiet d
  replace h := daemon_next h
  cases t with
  | main pc =>
    simp only [threadNext, mainNext] at h
    repeat' split at h
    all_goals cases h
    all_goals first
      | exact ⟨rfl, rfl, rfl, by simp, .none rfl rfl rfl⟩
      | exact ⟨by simp, by simp, hfile, by simp, .none hchannels hsubscribers rfl⟩
  | request r pc => exact request_quiet h
  | network pc =>
    obtain ⟨last, hlast⟩ := d.inner.networkAction_fst o
    cases pc with
    | decide =>
      simp only [threadNext, networkNext] at h
      split at h <;> cases h
      all_goals exact ⟨by simp [hlast], by simp [hlast], rfl, by simp, .none rfl rfl rfl⟩
    | publish fd call => cases hp
    | writePause fd => cases h; exact ⟨rfl, rfl, rfl, by simp, .none rfl rfl rfl⟩
  | retry config generation delay pc =>
    simp only [threadNext, retryNext] at h
    repeat' split at h
    all_goals cases h
    all_goals exact ⟨rfl, rfl, rfl, by simp, .none rfl rfl rfl⟩
  | starting caller config pc =>
    simp only [threadNext, startNext] at h
    repeat' split at h
    all_goals cases h
    all_goals exact ⟨rfl, rfl, rfl, by simp, .none rfl rfl rfl⟩
  | engine e =>
    obtain ⟨config, tunScript, publishing, pc⟩ := e
    cases publishing with
    | some call => cases hp
    | none => exact engineRun_quiet h
  | panicked config publishing pc =>
    cases publishing with
    | some call => cases hp
    | none =>
      simp only [threadNext, panickedNext] at h
      split at h
      all_goals
        rename_i heq
        obtain ⟨g, rfl⟩ := scheduleNext_shared heq
        cases h
        exact ⟨rfl, rfl, rfl, by simp, .none rfl rfl rfl⟩
  | health gateway interval pc =>
    cases pc with
    | emit snapshot =>
      cases h
      exact ⟨rfl, rfl, rfl, by simp, .other _ _ (by decide) rfl rfl rfl⟩
    | _ =>
      simp only [threadNext, healthNext] at h
      repeat' split at h
      all_goals cases h
      all_goals exact ⟨rfl, rfl, rfl, by simp, .none rfl rfl rfl⟩
  | writer ch =>
    simp only [threadNext, writerNext] at h
    split at h <;> cases h
    · exact ⟨rfl, rfl, rfl, by simp, .none rfl rfl rfl⟩
    · exact ⟨rfl, rfl, rfl, by simp, .dropped ch rfl rfl (by simp [serves])⟩
  | replied response => cases h
  | done => cases h

/-- A thread that arrives is not inside `set_state` and serves no subscriber yet. -/
theorem arrives_serves (h : daemon.arrives d t = true) :
    publishingOf t = none ∧ serves t = none := by
  obtain ⟨-, ⟨r, rfl⟩ | rfl⟩ := arrives_kind h <;> exact ⟨rfl, rfl⟩

end Sections

end InodeVpn.Proofs.Publication
