import InodeVpn.Proofs.Redaction
import InodeVpn.Proofs.Sections

namespace InodeVpn.Proofs.LogSecrecy
open InodeVpn.Core Lib Daemon Sections Redaction

/-- The secrets of a configuration. -/
def credentials (config : Config) : List String :=
  [config.credentials.password, config.credentials.username]

/-- The cookie that an engine is about to store. -/
def cookieAt : EnginePc → List String
  | .session _ (.setCookie cookie) => [cookie]
  | _ => []

/-- The secrets that a thread works with once they have to be kept out of the log. -/
def secretsOf : Thread → List String
  | .starting _ _ .check | .starting _ _ .addSecrets => []
  | .starting _ config _ => credentials config
  | .engine e => cookieAt e.pc ++ credentials e.config
  | .panicked config _ _ => credentials config
  | .retry config _ _ _ => credentials config
  | .health _ _ (.probe cookie) => [cookie]
  | _ => []

/-- The redactor knows a secret. The empty one is none. -/
def Knows (r : Redactor) (secret : String) : Prop := secret ≠ "" → secret ∈ r.secrets

/-- What the redactor is after a section of a thread. -/
def redactorAfter (o : Outside) (d : Shared) : Thread → Redactor
  | .main (.addSecrets config) => (d.addRedactionSecrets config).redactor
  | .starting _ config .addSecrets => (d.addRedactionSecrets config).redactor
  | .engine ⟨_, _, none, .session _ .getCookie⟩ =>
    if o.panics ∨ o.null then d.redactor else d.redactor.add o.cookie
  | _ => d.redactor

section Steps
variable {o : Outside} {me fresh : Nat} {d : Shared} {t : Thread} {m : Section} {secret : String}

theorem Knows.add {r : Redactor} (h : Knows r secret) (other : String) :
    Knows (r.add other) secret :=
  fun hne => (r.mem_add other secret).mpr (Or.inl (h hne))

theorem knows_added (r : Redactor) (secret : String) : Knows (r.add secret) secret :=
  fun hne => (r.mem_add secret secret).mpr (Or.inr ⟨rfl, hne⟩)

theorem knows_credentials (d : Shared) (config : Config) :
    ∀ s ∈ credentials config, Knows (d.addRedactionSecrets config).redactor s := by
  intro s hs
  simp only [credentials, List.mem_cons, List.not_mem_nil, or_false] at hs
  rcases hs with rfl | rfl
  · exact (knows_added _ _).add _
  · exact knows_added _ _

@[simp] theorem requestStop_redactor (d : Shared) : d.requestStop.redactor = d.redactor := by
  unfold Shared.requestStop
  cases h : d.inner.cmdFd <;> simp [h, Shared.writeFd]

@[simp] theorem persistState_redactor (d : Shared) :
    (d.persistState o).redactor = d.redactor := by
  unfold Shared.persistState
  split <;> rfl

theorem setState_redactor (o : Outside) (me : Nat) (d : Shared) (call : SetState) :
    (setStateNext o me d call).1.redactor = d.redactor := by
  cases call <;> simp [setStateNext, Shared.emit]

theorem engineRun_redactor {e : Engine} (hidle : e.publishing = none)
    (h : engineRunNext o me fresh d e = some m) :
    m.shared.redactor = redactorAfter o d (.engine e) := by
  obtain ⟨config, tunScript, publishing, pc⟩ := e
  cases hidle
  simp only [engineRunNext] at h
  split at h
  · rename_i hpanics
    cases h
    unfold redactorAfter
    split
    case h_3 => simp [hpanics.1]
    all_goals first | rfl | (rename_i heq; cases heq)
  · rename_i hpanics
    cases pc with
    | session v pc =>
      cases pc with
      | getCookie =>
        have hcalm : o.panics = false := by simpa [EnginePc.mayPanic] using hpanics
        simp only [sessionNext] at h
        split at h <;> cases h <;> simp_all [redactorAfter]
      | _ =>
        simp only [sessionNext] at h
        repeat' split at h
        all_goals cases h
        all_goals simp [redactorAfter, Shared.emit, Shared.setVar, Shared.modifyVpnInfo]
    | teardown v result pc =>
      cases pc with
      | scheduleRetry pc =>
        simp only [teardownNext] at h
        split at h
        all_goals
          rename_i heq
          obtain ⟨g, rfl⟩ := scheduleNext_shared heq
          cases h
          rfl
      | free =>
        simp only [teardownNext] at h
        cases h
        cases v <;> rfl
      | _ =>
        simp only [teardownNext] at h
        repeat' split at h
        all_goals cases h
        all_goals rfl
    | _ =>
      simp only at h
      repeat' split at h
      all_goals cases h
      all_goals rfl

/-- The redactor changes where secrets are added to it, and nowhere else. -/
theorem next_redactor (h : daemon.next o me fresh d t = some m) :
    m.shared.redactor = redactorAfter o d t := by
  replace h := daemon_next h
  cases t with
  | main pc =>
    cases pc <;> simp only [threadNext, mainNext] at h <;> (repeat' split at h) <;> cases h <;>
      simp [redactorAfter]
  | request r pc =>
    simp only [threadNext, requestNext] at h
    repeat' split at h
    all_goals cases h
    all_goals simp [redactorAfter, Shared.dropReceiver, Shared.send]
  | network pc =>
    cases pc with
    | publish fd call =>
      have hset := setState_redactor o me d call
      cases call <;> cases h <;> exact hset
    | _ =>
      simp only [threadNext, networkNext] at h
      repeat' split at h
      all_goals cases h
      all_goals rfl
  | retry config generation delay pc =>
    simp only [threadNext, retryNext] at h
    repeat' split at h
    all_goals cases h
    all_goals rfl
  | starting caller config pc =>
    cases pc <;> simp only [threadNext, startNext] at h <;> (repeat' split at h) <;> cases h <;>
      rfl
  | engine e =>
    obtain ⟨config, tunScript, publishing, pc⟩ := e
    cases publishing with
    | some call =>
      have hset := setState_redactor o me d call
      cases call <;> cases h <;> exact hset
    | none => exact engineRun_redactor rfl h
  | panicked config publishing pc =>
    cases publishing with
    | some call =>
      have hset := setState_redactor o me d call
      cases call <;> cases h <;> exact hset
    | none =>
      simp only [threadNext, panickedNext] at h
      split at h
      all_goals
        rename_i heq
        obtain ⟨g, rfl⟩ := scheduleNext_shared heq
        cases h
        rfl
  | health gateway interval pc =>
    simp only [threadNext, healthNext] at h
    repeat' split at h
    all_goals cases h
    all_goals simp [redactorAfter, Shared.emit]
  | writer ch =>
    simp only [threadNext, writerNext] at h
    split at h <;> cases h <;> rfl
  | replied response => cases h
  | done => cases h

/-- Nothing is forgotten. -/
theorem Knows.after (h : Knows d.redactor secret) : Knows (redactorAfter o d t) secret := by
  unfold redactorAfter
  split
  · exact (h.add _).add _
  · exact (h.add _).add _
  · split
    · exact h
    · exact h.add _
  · exact h

end Steps


/-- A secret after a section was with its thread or stored before, or is registered now. -/
def From (d : Shared) (t : Thread) (m : Section) (secret : String) : Prop :=
  secret ∈ secretsOf t ∨ d.inner.cookie = some secret ∨ Knows m.shared.redactor secret

/-- What a section works with, hands to the thread it spawns and leaves stored. -/
structure Carries (d : Shared) (t : Thread) (m : Section) : Prop where
  self : ∀ s ∈ secretsOf m.self, From d t m s
  spawned : ∀ c ∈ m.spawned, ∀ s ∈ secretsOf c, From d t m s
  cookie : ∀ s ∈ m.shared.inner.cookie, From d t m s

section Carries
variable {o : Outside} {me fresh : Nat} {d : Shared} {t : Thread} {m : Section}

/-- Most sections bring no secret about. -/
theorem carries_of_mem (hself : ∀ s ∈ secretsOf m.self, s ∈ secretsOf t)
    (hspawned : ∀ c ∈ m.spawned, ∀ s ∈ secretsOf c, s ∈ secretsOf t)
    (hcookie : m.shared.inner.cookie = d.inner.cookie) : Carries d t m where
  self s hs := Or.inl (hself s hs)
  spawned c hc s hs := Or.inl (hspawned c hc s hs)
  cookie _ hs := Or.inr (Or.inl (hcookie ▸ hs))

@[simp] theorem setState_cookie (state : SessionState) (lastError : Option String) (i : Inner) :
    (i.setState o state lastError).cookie = i.cookie := by
  obtain ⟨_, _, h⟩ := i.setState_eq o state lastError
  rw [h]

theorem setStateNext_cookie (o : Outside) (me : Nat) (d : Shared) (call : SetState) :
    (setStateNext o me d call).1.inner.cookie = d.inner.cookie := by
  cases call <;> simp [setStateNext, Shared.emit]

theorem resume_secrets (caller : Caller) (result : Option Error) (s : String) :
    s ∉ secretsOf (caller.resume result) := by
  cases caller <;> cases result <;> simp [Caller.resume, secretsOf]

section Goes
variable (e : Engine) (v : Option Nat) (pc : EnginePc) (state : SessionState)
  (lastError : Option String) (message : String)

@[simp] theorem secretsOf_goto :
    secretsOf (e.goto pc) = cookieAt pc ++ credentials e.config := rfl

@[simp] theorem secretsOf_publish :
    secretsOf (e.publish state lastError pc) = cookieAt pc ++ credentials e.config := rfl

@[simp] theorem secretsOf_fail : secretsOf (e.fail v message) = credentials e.config := rfl

@[simp] theorem secretsOf_panic : secretsOf e.panic = credentials e.config := rfl

end Goes

theorem session_carries {e : Engine} {v : Nat} {pc : SessionPc}
    (h : sessionNext o me fresh d e v pc = some m) :
    Carries d (.engine { e with publishing := none, pc := .session v pc }) m := by
  cases pc with
  | getCookie =>
    simp only [sessionNext] at h
    split at h
    · cases h
      exact carries_of_mem (fun _ hs => hs) (by simp) rfl
    · cases h
      refine ⟨fun s hs => ?_, by simp, fun s hs => Or.inr (Or.inl hs)⟩
      rcases List.mem_cons.mp hs with rfl | hs
      · exact Or.inr (Or.inr (knows_added _ _))
      · exact Or.inl hs
  | setCookie cookie =>
    cases h
    refine ⟨fun s hs => Or.inl (List.mem_cons_of_mem cookie hs), by simp, fun s hs => ?_⟩
    cases hs
    exact Or.inl List.mem_cons_self
  | _ =>
    simp only [sessionNext] at h
    repeat' split at h
    all_goals cases h
    all_goals
      exact carries_of_mem
        (fun s hs => List.mem_append_right _ (by simpa [cookieAt] using hs))
        (by simp [secretsOf]) rfl

theorem teardown_carries {e : Engine} {v : Option Nat} {result : Option Error} {pc : TeardownPc}
    (h : teardownNext o me d e v result pc = some m) :
    Carries d (.engine { e with publishing := none, pc := .teardown v result pc }) m := by
  cases pc with
  | clearCookie =>
    cases h
    exact ⟨fun s hs => Or.inl hs, by simp, by simp⟩
  | scheduleRetry pc =>
    simp only [teardownNext] at h
    split at h
    all_goals
      rename_i heq
      obtain ⟨g, rfl⟩ := scheduleNext_shared heq
      cases h
      refine carries_of_mem (fun _ hs => hs) ?_ rfl
    case h_3 =>
      obtain ⟨delay, rfl⟩ := scheduleNext_spawned heq
      simp +contextual [secretsOf]
    all_goals simp
  | free =>
    simp only [teardownNext] at h
    cases h
    exact carries_of_mem (fun _ hs => hs) (by simp) (by cases v <;> rfl)
  | guardDrop =>
    cases h
    exact carries_of_mem (by simp [secretsOf]) (by simp) rfl
  | _ =>
    simp only [teardownNext] at h
    repeat' split at h
    all_goals cases h
    all_goals exact carries_of_mem (fun _ hs => hs) (by simp) rfl

theorem engineRun_carries {e : Engine} (hidle : e.publishing = none)
    (h : engineRunNext o me fresh d e = some m) : Carries d (.engine e) m := by
  obtain ⟨config, tunScript, publishing, pc⟩ := e
  cases hidle
  simp only [engineRunNext] at h
  split at h
  · cases h
    exact carries_of_mem (fun _ hs => List.mem_append_right _ hs) (by simp) rfl
  · cases pc with
    | session v pc => exact session_carries h
    | teardown v result pc => exact teardown_carries h
    | _ =>
      simp only at h
      repeat' split at h
      all_goals cases h
      all_goals exact carries_of_mem (fun _ hs => hs) (by simp) rfl

/-- No section of the daemon brings a secret about that it does not register. -/
theorem next_carries (h : daemon.next o me fresh d t = some m) : Carries d t m := by
  replace h := daemon_next h
  cases t with
  | main pc =>
    simp only [threadNext, mainNext] at h
    repeat' split at h
    all_goals cases h
    all_goals exact carries_of_mem (by simp [secretsOf]) (by simp) (by simp)
  | request r pc =>
    simp only [threadNext, requestNext] at h
    repeat' split at h
    all_goals cases h
    all_goals exact carries_of_mem (by simp [secretsOf]) (by simp [secretsOf]) (by simp)
  | network pc =>
    obtain ⟨last, hlast⟩ := d.inner.networkAction_fst o
    cases pc with
    | decide =>
      simp only [threadNext, networkNext] at h
      split at h
      all_goals cases h
      all_goals exact carries_of_mem (by simp [secretsOf]) (by simp) (by simp [hlast])
    | publish fd call =>
      have hset := setStateNext_cookie o me d call
      cases call
      all_goals cases h
      all_goals exact carries_of_mem (by simp [secretsOf]) (by simp) hset
    | writePause fd =>
      cases h
      exact carries_of_mem (by simp [secretsOf]) (by simp) rfl
  | retry config generation delay pc =>
    simp only [threadNext, retryNext] at h
    repeat' split at h
    all_goals cases h
    all_goals exact carries_of_mem (by simp [secretsOf]) (by simp) rfl
  | starting caller config pc =>
    cases pc with
    | addSecrets =>
      cases h
      refine ⟨fun s hs => Or.inr (Or.inr ?_), by simp, fun s hs => Or.inr (Or.inl hs)⟩
      exact knows_credentials d config s hs
    | _ =>
      simp only [threadNext, startNext] at h
      repeat' split at h
      all_goals cases h
      all_goals
        refine carries_of_mem (fun s hs => ?_) (by simp [secretsOf, cookieAt]) rfl
        first | exact hs | exact absurd hs (resume_secrets _ _ s)
  | engine e =>
    obtain ⟨config, tunScript, publishing, pc⟩ := e
    cases publishing with
    | some call =>
      have hset := setStateNext_cookie o me d call
      cases call
      all_goals cases h
      all_goals exact carries_of_mem (fun _ hs => hs) (by simp) hset
    | none => exact engineRun_carries rfl h
  | panicked config publishing pc =>
    cases publishing with
    | some call =>
      have hset := setStateNext_cookie o me d call
      cases call
      all_goals cases h
      all_goals exact carries_of_mem (fun _ hs => hs) (by simp) hset
    | none =>
      simp only [threadNext, panickedNext] at h
      split at h
      all_goals
        rename_i heq
        obtain ⟨g, rfl⟩ := scheduleNext_shared heq
        cases h
        refine carries_of_mem (by simp [secretsOf]) ?_ rfl
      case h_3 =>
        obtain ⟨delay, rfl⟩ := scheduleNext_spawned heq
        simp [secretsOf]
      all_goals simp
  | health gateway interval pc =>
    cases pc with
    | getCookie =>
      simp only [threadNext, healthNext] at h
      split at h
      · rename_i cookie hcookie
        cases h
        refine ⟨fun s hs => Or.inr (Or.inl ?_), by simp, fun s hs => Or.inr (Or.inl hs)⟩
        rw [hcookie, List.mem_singleton.mp hs]
      · cases h
        exact carries_of_mem (by simp [secretsOf]) (by simp) rfl
    | _ =>
      simp only [threadNext, healthNext] at h
      repeat' split at h
      all_goals cases h
      all_goals exact carries_of_mem (by simp [secretsOf]) (by simp) rfl
  | writer ch =>
    simp only [threadNext, writerNext] at h
    split at h
    all_goals cases h
    all_goals exact carries_of_mem (by simp [secretsOf]) (by simp) rfl
  | replied response => cases h
  | done => cases h

end Carries


/-- A secret that the daemon works with: a thread has it, or it is stored for the health check. -/
def Holds (p : Process) (secret : String) : Prop :=
  (∃ t ∈ p.threads, secret ∈ secretsOf t) ∨ p.shared.inner.cookie = some secret

instance (p : Process) (secret : String) : Decidable (Holds p secret) :=
  inferInstanceAs (Decidable (_ ∨ _))

/-- What the daemon works with is registered, and nothing else is than what is no empty text. -/
structure Guarded (p : Process) : Prop where
  knows : ∀ secret, Holds p secret → Knows p.shared.redactor secret
  texts : ∀ secret ∈ p.shared.redactor.secrets, secret ≠ ""

section Run
variable {ok : Process → Step → Bool} {p p' : Process} {es : List Effect}

theorem ne_empty_of_add {r : Redactor} (h : ∀ s ∈ r.secrets, s ≠ "") (secret : String) :
    ∀ s ∈ (r.add secret).secrets, s ≠ "" := by
  intro s hs
  rcases (r.mem_add secret s).mp hs with hs | ⟨rfl, hne⟩
  · exact h s hs
  · exact hne

theorem ne_empty_after {o : Outside} {d : Shared} (t : Thread)
    (h : ∀ s ∈ d.redactor.secrets, s ≠ "") : ∀ s ∈ (redactorAfter o d t).secrets, s ≠ "" := by
  unfold redactorAfter
  split
  · exact ne_empty_of_add (ne_empty_of_add h _) _
  · exact ne_empty_of_add (ne_empty_of_add h _) _
  · split
    · exact h
    · exact ne_empty_of_add h _
  · exact h

theorem Guarded.after {i : Nat} {o : Outside} {t : Thread} {m : Section} (h : Guarded p)
    (ht : p.threads[i]? = some t)
    (hm : daemon.next o i p.threads.length p.shared t = some m) : Guarded (p.after i m) := by
  have hredactor : m.shared.redactor = redactorAfter o p.shared t := next_redactor hm
  have hkept : ∀ {s}, Holds p s → Knows m.shared.redactor s := fun hs =>
    hredactor ▸ (h.knows _ hs).after
  have hfrom : ∀ {s}, From p.shared t m s → Knows m.shared.redactor s := by
    rintro s (hs | hs | hs)
    · exact hkept (Or.inl ⟨t, List.mem_of_getElem? ht, hs⟩)
    · exact hkept (Or.inr hs)
    · exact hs
  have hcarries := next_carries hm
  refine ⟨?_, hredactor ▸ ne_empty_after t h.texts⟩
  rintro secret (⟨u, hu, hs⟩ | hs)
  · rcases Pool.mem_after hu with rfl | hspawned | hold
    · exact hfrom (hcarries.self secret hs)
    · exact hfrom (hcarries.spawned u hspawned secret hs)
    · exact hkept (Or.inl ⟨u, hold, hs⟩)
  · exact hfrom (hcarries.cookie secret hs)

/-- Requests and network changes bring no secret. -/
theorem Guarded.join {t : Thread} (h : Guarded p) (ha : daemon.arrives p.shared t = true) :
    Guarded (p.join t) := by
  have hnone : secretsOf t = [] := by
    rcases (arrives_kind ha).2 with ⟨r, rfl⟩ | rfl <;> rfl
  refine ⟨?_, h.texts⟩
  rintro secret (⟨u, hu, hs⟩ | hs)
  · rcases List.mem_append.mp hu with hu | hu
    · exact h.knows secret (Or.inl ⟨u, hu, hs⟩)
    · rw [List.mem_singleton.mp hu, hnone] at hs
      cases hs
  · exact h.knows secret (Or.inr hs)

theorem Guarded.step {a : Step} {e : Option Effect} (h : Guarded p)
    (moves : daemon.system.step p a = some (p', e)) : Guarded p' := by
  rcases Program.step_cases moves with ⟨i, o, t, m, -, ht, hm, rfl, -⟩ | ⟨t, -, ha, rfl, -⟩
  · exact h.after ht hm
  · exact h.join ha

theorem guarded (h : System.Reach daemon.system ok es p) : Guarded p := by
  refine h.invariant (I := fun _ p => Guarded p) ?_ ?_
  · rintro p ⟨d, t, ⟨uid, gid, script, environ, rfl, rfl⟩, rfl⟩
    exact ⟨by simp [Holds, secretsOf, Shared.new], by simp [Shared.new]⟩
  · exact fun _ _ _ _ _ _ hguarded _ moves => hguarded.step moves

/-- The redactor forgets nothing, whatever happens next. -/
theorem Knows.later {secret : String} (hsecret : Knows p.shared.redactor secret)
    (h : System.Reach (daemon.system.startedAt p) (fun _ _ => true) es p') :
    Knows p'.shared.redactor secret := by
  refine h.invariant (I := fun _ p => Knows p.shared.redactor secret) ?_ ?_
  · rintro _ rfl
    exact hsecret
  · intro _ p _ p' e _ hknows _ moves
    rcases Program.step_cases (P := daemon) moves with
      ⟨i, o, t, m, -, -, hm, rfl, -⟩ | ⟨t, -, -, rfl, -⟩
    · exact next_redactor hm ▸ hknows.after
    · exact hknows

/-- Whatever libopenconnect says, and whichever thread says it, no line of the log holds a
secret that the daemon works with or has ever worked with. -/
theorem log_secrecy {later : List Effect} {secret : String}
    (run : System.Reachable daemon.system es p) (holds : Holds p secret)
    (goes_on : System.Reachable (daemon.system.startedAt p) later p')
    (maskable : Maskable secret) (level : Int) (msg : List Char) :
    ¬ secret.toList <:+: (p'.shared.progress level msg).2 := by
  have hne : secret ≠ "" := fun heq => maskable.ne_nil (by simp [heq])
  have hmem : secret ∈ p'.shared.redactor.secrets :=
    ((guarded run).knows secret holds).later goes_on hne
  exact redacted_absent maskable (guarded (run.append goes_on)).texts hmem

/-- A client starts an engine, which connects; the gateway gave it the cookie. -/
theorem log_secrecy_connected : ∃ es p, System.Reachable daemon.system es p ∧
    Holds p "svpnginfo=1" ∧ Holds p "pw" ∧
    ∀ level msg, ¬ "svpnginfo=1".toList <:+: (p.shared.progress level msg).2 := by
  obtain ⟨es, p, hr, hp⟩ := System.exists_reach (fun _ _ => true)
    (serve ++ [client 1 "start"] ++ loadStart 1 ++ sections 1 5 ++
      sections 2 39 { cookie := "svpnginfo=1" })
    (fun _ p => decide (Holds p "svpnginfo=1" ∧ Holds p "pw"))
    (boot_init 1000 1000 none []) (by decide)
  obtain ⟨hcookie, hpassword⟩ := of_decide_eq_true hp
  exact ⟨es, p, hr, hcookie, hpassword,
    log_secrecy hr hcookie (.init rfl) ⟨by decide, by decide, by decide⟩⟩

end Run

end InodeVpn.Proofs.LogSecrecy
