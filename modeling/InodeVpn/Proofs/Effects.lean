import InodeVpn.Proofs.Sections

namespace InodeVpn.Proofs.Effects
open InodeVpn.Core Lib Daemon Sections

/-- The thread's next section calls `request_stop`. -/
def stopperOf : Thread → Option Stopper
  | .request r .dispatch =>
    if r.method = "stop" then some (.stop r.id)
    else if r.method = "restart" then some (.restart r.id)
    else none
  | .main .waitSignal => some .shutdown
  | _ => none

theorem stopperOf_isStop {t : Thread} {stopper : Stopper} (h : stopperOf t = some stopper)
    (hs : stopper.isStop = true) :
    ∃ r : Request, t = .request r .dispatch ∧ r.method = "stop" := by
  cases t with
  | request r pc =>
    cases pc with
    | dispatch =>
      simp only [stopperOf] at h
      split at h
      · rename_i hr
        exact ⟨r, rfl, hr⟩
      · split at h <;> cases h
        cases hs
    | _ => cases h
  | main pc =>
    cases pc with
    | waitSignal => cases h; cases hs
    | _ => cases h
  | _ => cases h

/-- The stop of a client, in a trace. -/
def isStop : Effect → Bool
  | .stopRequested stopper _ => stopper.isStop
  | _ => false

/-- Where an effect comes from, and what its section did to the shared memory. -/
inductive Origin (o : Outside) (me fresh : Nat) (d : Shared) (t : Thread) (m : Section) :
    Effect → Prop
  | accepted {caller : Caller} {config : Config} (thread : t = .starting caller config .check)
      (free : d.inner.engine = none) (shared : m.shared = d.acceptStart config) :
      Origin o me fresh d t m (.accepted me caller)
  | refused {caller : Caller} {config : Config} {pc : StartPc} {error : Error}
      (thread : t = .starting caller config pc) : Origin o me fresh d t m (.refused me caller error)
  | spawned {caller : Caller} {config : Config} {script : Option String}
      (thread : t = .starting caller config (.spawn script)) :
      Origin o me fresh d t m (.spawned me caller fresh)
  | stopRequested {stopper : Stopper} (asks : stopperOf t = some stopper)
      (shared : m.shared = d.requestStop) :
      Origin o me fresh d t m (.stopRequested stopper d.inner.cmdFd)
  | wrotePause {fd : RawFd} (thread : t = .network (.writePause fd)) :
      Origin o me fresh d t m (.wrotePause fd)
  | published {state : SessionState} {lastError : Option String}
      (call : publishingOf t = some (.update state lastError)) :
      Origin o me fresh d t m (.published me state)
  | returned {e : Engine} {call : OcCall} (thread : t = .engine e) (idle : e.publishing = none) :
      Origin o me fresh d t m (.returned me call o.ret)
  | enteredMainloop {e : Engine} {v : Nat} (thread : t = .engine e) (idle : e.publishing = none)
      (pc : e.pc = .session v .mainloop) :
      Origin o me fresh d t m (.enteredMainloop me (d.cancelled v))
  | freed {e : Engine} {v : Nat} {result : Option Error} (thread : t = .engine e)
      (idle : e.publishing = none) (pc : e.pc = .teardown (some v) result .free)
      (shared : m.shared = d.modifyVpnInfo v fun info => { info with frees := info.frees + 1 }) :
      Origin o me fresh d t m (.freed v)
  | finished {e : Engine} (thread : t = .engine e) : Origin o me fresh d t m (.finished me)
  | retryScheduled {generation : Nat} : Origin o me fresh d t m (.retryScheduled me generation)

section Sections
variable {o : Outside} {me fresh : Nat} {d : Shared} {m : Section} {x : Effect}

theorem request_effect {r : Request} {pc : RequestPc} (h : requestNext o d r pc = some m)
    (hx : x ∈ m.effect) : Origin o me fresh d (.request r pc) m x := by
  unfold requestNext at h
  repeat' split at h
  all_goals cases h
  all_goals cases hx
  all_goals exact .stopRequested (by simp_all [stopperOf]) rfl

theorem main_effect {pc : MainPc} (h : mainNext o d pc = some m)
    (hx : x ∈ m.effect) : Origin o me fresh d (.main pc) m x := by
  unfold mainNext at h
  repeat' split at h
  all_goals cases h
  all_goals cases hx
  exact .stopRequested rfl rfl

theorem network_effect {pc : NetworkPc} (h : networkNext o me d pc = some m)
    (hx : x ∈ m.effect) : Origin o me fresh d (.network pc) m x := by
  cases pc with
  | decide =>
    simp only [networkNext] at h
    split at h <;> cases h <;> cases hx
  | publish fd call =>
    cases call <;> cases h <;> cases hx
    exact .published rfl
  | writePause fd =>
    cases h
    cases hx
    exact .wrotePause rfl

theorem start_effect {caller : Caller} {config : Config} {pc : StartPc}
    (h : startNext o me fresh d caller config pc = some m)
    (hx : x ∈ m.effect) : Origin o me fresh d (.starting caller config pc) m x := by
  cases pc with
  | check =>
    simp only [startNext] at h
    split at h <;> cases h <;> cases hx
    · exact .refused rfl
    · rename_i hnone
      exact .accepted rfl (by simpa using hnone) rfl
  | spawn script =>
    simp only [startNext] at h
    split at h <;> cases h <;> cases hx
    · exact .spawned rfl
    · exact .refused rfl
  | _ => cases h; cases hx

theorem session_effect {e : Engine} {v : Nat} {pc : SessionPc} (hpub : e.publishing = none)
    (hpc : e.pc = .session v pc) (h : sessionNext o me fresh d e v pc = some m)
    (hx : x ∈ m.effect) : Origin o me fresh d (.engine e) m x := by
  cases pc with
  | mainloop =>
    cases h
    cases hx
    exact .enteredMainloop rfl hpub hpc
  | _ =>
    simp only [sessionNext] at h
    repeat' split at h
    all_goals cases h
    all_goals cases hx
    all_goals exact .returned rfl hpub

theorem teardown_effect {e : Engine} {v : Option Nat} {result : Option Error} {pc : TeardownPc}
    (hpub : e.publishing = none) (hpc : e.pc = .teardown v result pc)
    (h : teardownNext o me d e v result pc = some m)
    (hx : x ∈ m.effect) : Origin o me fresh d (.engine e) m x := by
  cases pc with
  | free =>
    cases h
    cases v with
    | none => cases hx
    | some v =>
      cases hx
      exact .freed rfl hpub hpc rfl
  | guardDrop =>
    cases h
    cases hx
    exact .finished rfl
  | _ =>
    simp only [teardownNext] at h
    repeat' split at h
    all_goals cases h
    all_goals cases hx
    all_goals exact .retryScheduled

theorem engine_effect {e : Engine} (h : engineNext o me fresh d e = some m)
    (hx : x ∈ m.effect) : Origin o me fresh d (.engine e) m x := by
  obtain ⟨config, tunScript, publishing, pc⟩ := e
  cases publishing with
  | some call =>
    cases call <;> cases h <;> cases hx
    exact .published rfl
  | none =>
    simp only [engineNext, engineRunNext] at h
    split at h
    · cases h; cases hx
    · cases pc with
      | session v pc => exact session_effect rfl rfl h hx
      | teardown v result pc => exact teardown_effect rfl rfl h hx
      | unwind origin =>
        cases h
        cases hx
        exact .finished rfl
      | _ =>
        simp only at h
        repeat' split at h
        all_goals cases h
        all_goals cases hx
        all_goals exact .returned rfl rfl

theorem panicked_effect {config : Config} {pc : SchedulePc} {publishing : Option SetState}
    (h : panickedNext o me d config pc publishing = some m)
    (hx : x ∈ m.effect) : Origin o me fresh d (.panicked config publishing pc) m x := by
  cases publishing with
  | some call =>
    cases call <;> cases h <;> cases hx
    exact .published rfl
  | none =>
    simp only [panickedNext] at h
    split at h <;> cases h <;> cases hx
    exact .retryScheduled

/-- Every effect of the daemon has its origin. -/
theorem effect_origin {t : Thread} (h : daemon.next o me fresh d t = some m)
    (hx : x ∈ m.effect) : Origin o me fresh d t m x := by
  replace h := daemon_next h
  cases t with
  | main pc => exact main_effect h hx
  | request r pc => exact request_effect h hx
  | network pc => exact network_effect h hx
  | starting caller config pc => exact start_effect h hx
  | engine e => exact engine_effect h hx
  | panicked config publishing pc => exact panicked_effect h hx
  | retry config generation delay pc =>
    simp only [threadNext, retryNext] at h
    repeat' split at h
    all_goals cases h
    all_goals cases hx
  | health gateway interval pc =>
    simp only [threadNext, healthNext] at h
    repeat' split at h
    all_goals cases h
    all_goals cases hx
  | writer ch =>
    simp only [threadNext, writerNext] at h
    split at h <;> cases h <;> cases hx
  | replied response => cases h
  | done => cases h

end Sections

end InodeVpn.Proofs.Effects
