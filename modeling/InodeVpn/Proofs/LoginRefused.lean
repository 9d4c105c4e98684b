import InodeVpn.Proofs.StopRespected

namespace InodeVpn.Proofs.LoginRefused
open InodeVpn.Core Lib Daemon Sections Effects StopRespected

/-- `EPERM`: `h3c_obtain_cookie` returns `-EPERM` when the gateway refuses the login. -/
def EPERM : Int := 1

def isRefusal : Effect → Bool
  | .returned _ .obtainCookie ret => ret = -EPERM
  | _ => false

/-- The gateway has refused the login, and no requested start since. -/
def refusalStands (t : List Effect) : Bool := since isRefusal isRequestedStart t

/-- The engine's next section is the return of `openconnect_obtain_cookie`. -/
def atLogin : Thread → Bool
  | .engine ⟨_, _, none, .session _ (.obtainingCookie _)⟩ => true
  | _ => false

/-- The defect: the error path of `engine_run` does not tell a refused login from
a network failure. It leaves the state Failed with a retry thread behind, and
both that thread and `network_changed` start the engine again. -/
def waitsForRequest (s : List Effect × Process) : Step → Bool
  | .run i o =>
    match s.2.threads[i]? with
    | some t =>
      !(refusalStands s.1 && decides o s.2.shared t) &&
        !(atLogin t && !o.panics && o.ret = -EPERM && 0 < s.2.count onItsWay)
    | none => true
  | .arrive _ => true

/-- The daemon does not start an engine by itself while a refusal stands. -/
def NotRetried (before : List Effect) (e : Effect) : Prop :=
  ∀ thread caller engine, e = .spawned thread caller engine → caller.isAutomatic = true →
    refusalStands before = false

section Sections
variable {o : Outside} {me fresh : Nat} {d : Shared} {m : Section} {t : Thread}

/-- A refusal comes from an engine at its login, which does not panic there. -/
theorem refusal_origin (h : daemon.next o me fresh d t = some m) {x : Effect} (hx : x ∈ m.effect)
    (hr : isRefusal x = true) : atLogin t = true ∧ o.panics = false ∧ o.ret = -EPERM := by
  have horigin := effect_origin h hx
  cases horigin with
  | @returned e call thread idle =>
    subst thread
    obtain ⟨config, tunScript, publishing, pc⟩ := e
    cases idle
    cases call with
    | obtainCookie =>
      have hret : o.ret = -EPERM := by simpa [isRefusal] using hr
      replace h := daemon_next h
      simp only [threadNext, engineNext, engineRunNext] at h
      split at h
      · cases h; cases hx
      · rename_i hpanic
        cases pc with
        | session v pc =>
          cases pc with
          | obtainingCookie cancelled =>
            exact ⟨rfl, by simpa [EnginePc.mayPanic] using hpanic, hret⟩
          | _ =>
            simp only [sessionNext] at h
            repeat' split at h
            all_goals cases h
            all_goals cases hx
        | teardown v result pc =>
          simp only [teardownNext] at h
          repeat' split at h
          all_goals cases h
          all_goals cases hx
        | _ =>
          simp only at h
          repeat' split at h
          all_goals cases h
          all_goals cases hx
    | _ => cases hr
  | _ => cases hr

end Sections

/-- A refusal stands after a section only if the section is the refusal, or it
stood before and the section did not accept a requested start. -/
theorem refusalStands_append {t : List Effect} {e : Option Effect}
    (h : refusalStands (t ++ e.toList) = true) :
    (∃ x, e = some x ∧ isRefusal x = true) ∨ refusalStands t = true :=
  (since_append.mp h).imp_right And.left

/-- No automatic start is on its way while a refusal stands. -/
def Waiting (t : List Effect) (p : Process) : Prop :=
  refusalStands t = true → p.count onItsWay = 0

section Step
variable {t : List Effect} {p : Process} {i : Nat} {o : Outside} {th : Thread} {m : Section}

theorem onItsWay_le (ht : p.threads[i]? = some th)
    (hm : daemon.next o i p.threads.length p.shared th = some m)
    (hdecides : decides o p.shared th = false) :
    (p.after i m).count onItsWay ≤ p.count onItsWay := by
  apply Pool.count_after_le ht
  · intro hself
    exact (onItsWay_step hm hself).resolve_right (by simp [hdecides])
  · intro c hc
    by_contra hway
    have hpending := onItsWay_pending (by simpa using hway)
    rw [(spawned_quiet ((next_kind hm).2 c hc).1).1] at hpending
    cases hpending

theorem waiting_section (hx : Waiting t p) (hok : waitsForRequest (t, p) (.run i o) = true)
    (ht : p.threads[i]? = some th)
    (hm : daemon.next o i p.threads.length p.shared th = some m) :
    Waiting (t ++ m.effect.toList) (p.after i m) := by
  intro hstands
  simp only [waitsForRequest, ht, Bool.and_eq_true, Bool.not_eq_true'] at hok
  obtain ⟨hdecides, hlogin⟩ := hok
  rcases refusalStands_append hstands with ⟨x, he, hr⟩ | hold
  · -- the refusal itself: the engine's own section starts nothing
    obtain ⟨hat, hpanic, hret⟩ := refusal_origin hm he hr
    have hnone : p.count onItsWay = 0 := by
      simpa [hat, hpanic, hret] using hlogin
    have hidle : decides o p.shared th = false := by
      cases th with
      | engine e => rfl
      | _ => cases hat
    have hle := onItsWay_le ht hm hidle
    omega
  · have hidle : decides o p.shared th = false := by simpa [hold] using hdecides
    have hle := onItsWay_le ht hm hidle
    have hnone := hx hold
    omega

end Step

theorem waiting_step {t : List Effect} {p p' : Process} {a : Step} {e : Option Effect}
    (hx : Waiting t p) (hok : waitsForRequest (t, p) a = true)
    (h : daemon.system.step p a = some (p', e)) : Waiting (t ++ e.toList) p' := by
  rcases Program.step_cases h with ⟨i, o, th, m, rfl, ht, hm, rfl, rfl⟩ | ⟨th, rfl, ha, rfl, rfl⟩
  · exact waiting_section hx hok ht hm
  · have hidle : onItsWay th = false := by
      obtain ⟨-, ⟨r, rfl⟩ | rfl⟩ := arrives_kind ha <;> rfl
    intro hstands
    simpa [hidle] using hx (by simpa using hstands)

theorem reach_waiting {t : List Effect} {s : List Effect × Process}
    (h : System.Reach daemon.system.logged waitsForRequest t s) : Waiting t s.2 := by
  apply h.invariant (I := fun t s => Waiting t s.2)
  · intro s _ hstands
    cases hstands
  · intro t s a s' e run hx hok hs
    obtain ⟨log, p⟩ := s
    cases run.logged
    exact waiting_step hx hok (System.watched_step.mp hs).1

theorem notRetried_step {t : List Effect} {p p' : Process} {a : Step} {e : Option Effect}
    (hx : Waiting t p) (h : daemon.system.step p a = some (p', e)) : ∀ x ∈ e, NotRetried t x := by
  intro x hxe thread caller engine hspawned hauto
  subst hspawned
  rcases Program.step_cases h with ⟨i, o, th, m, rfl, ht, hm, rfl, rfl⟩ | ⟨th, rfl, ha, rfl, rfl⟩
  · have horigin := effect_origin hm hxe
    cases horigin with
    | spawned thread =>
      have hpos : 0 < p.count onItsWay := Pool.count_pos ht (by rw [thread]; exact hauto)
      by_contra hstands
      have hnone := hx (by simpa using hstands)
      omega
  · cases hxe

/-- While neither a retry thread nor a network change decides to start an engine
after a refused login, only a request starts the next one. -/
theorem login_refused_waits (t : List Effect) (s : List Effect × Process)
    (h : System.Reach daemon.system.logged waitsForRequest t s) : Always NotRetried t := by
  apply h.always (P := NotRetried)
  intro t s a s' e run _ hs
  exact notRetried_step (reach_waiting run) (System.watched_step.mp hs).1

/-- A client starts an engine, the thread 2, and the gateway refuses the login. -/
def loginRefused : List Step :=
  serve ++ [client 1 "start"] ++ loadStart 1 ++ sections 1 5 ++ sections 2 13 ++
    sections 2 1 { ret := -EPERM }

/-- The refused engine goes down; its retry thread is the thread 3. -/
def schedulesRetry : List Step := sections 2 13

theorem login_refused_waits_sample : ∃ t s,
    System.Reach daemon.system.logged waitsForRequest t s ∧ refusalStands t = true ∧
      Always NotRetried t := by
  obtain ⟨t, s, hr, hp⟩ := System.exists_reach (M := daemon.system.logged) waitsForRequest
    (loginRefused ++ schedulesRetry ++ [client 2 "stop"] ++ sections 4 1 ++ sections 3 2)
    (fun t _ => refusalStands t) (s := ([], boot 1000 1000 none []))
    ⟨rfl, boot_init 1000 1000 none []⟩ (by decide)
  exact ⟨t, s, hr, hp, login_refused_waits t s hr⟩

/-- A start by a retry thread. -/
def retryStarted : Effect → Bool
  | .spawned _ (.retry _) _ => true
  | _ => false

theorem retryStarted_eq {e : Effect} (h : retryStarted e = true) :
    ∃ thread generation engine, e = .spawned thread (.retry generation) engine := by
  unfold retryStarted at h
  split at h
  · exact ⟨_, _, _, rfl⟩
  · cases h

/-- The gateway has refused the login; the retry thread logs in again. -/
theorem refused_login_retried : ¬ ∀ t p, System.Reachable daemon.system t p →
    Always NotRetried t := by
  intro h
  obtain ⟨t, p, hr, hp⟩ := System.exists_reach (fun _ _ => true)
    (loginRefused ++ schedulesRetry ++ sections 3 7)
    (fun t _ => t.getLast?.any retryStarted && refusalStands t.dropLast)
    (boot_init 1000 1000 none []) (by decide)
  obtain ⟨hlast, hstands⟩ := Bool.and_eq_true_iff.mp hp
  obtain ⟨e, hget, hstarted⟩ := (Option.any_eq_true _ _).mp hlast
  obtain ⟨thread, generation, engine, rfl⟩ := retryStarted_eq hstarted
  obtain ⟨before, rfl⟩ := List.getLast?_eq_some_iff.mp hget
  rw [List.dropLast_concat] at hstands
  have hquiet := h _ p hr before _ [] rfl thread (.retry generation) engine rfl rfl
  rw [hstands] at hquiet
  cases hquiet

end InodeVpn.Proofs.LoginRefused
