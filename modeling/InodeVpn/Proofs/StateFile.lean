import InodeVpn.Proofs.Publication

namespace InodeVpn.Proofs.StateFile
open InodeVpn.Core Lib Daemon Sections Publication

/-- A call of `set_state` has changed the state and has yet to persist it. -/
def owesFile (t : Thread) : Bool := publishingOf t = some .persist

def isPublished : Effect → Bool
  | .published _ _ => true
  | _ => false

/-- Every write of `state.json` succeeds. -/
def writesFile (p : Process) : Step → Bool
  | .run i o =>
    match p.threads[i]? with
    | some t => !owesFile t || (o.created && o.written)
    | none => true
  | .arrive _ => true

/-- What `state.json` says of the session, against what `Inner` says. -/
def Recorded (d : Shared) : Prop :=
  ∃ file, d.stateFile = some file ∧ file.state = d.inner.state ∧ file.since = d.inner.since

/-- Once a state has been published, the file has it, or some call will write it. -/
def Filed (t : List Effect) (p : Process) : Prop :=
  t.any isPublished = true → 0 < p.count owesFile ∨ Recorded p.shared

section Sections
variable {o : Outside} {me fresh : Nat} {d : Shared} {m : Section} {t : Thread}

theorem Recorded.quiet (h : Recorded d) (hq : Quiet d t m) : Recorded m.shared := by
  obtain ⟨file, hfile, hstate, hsince⟩ := h
  exact ⟨file, hq.stateFile.trans hfile, hstate.trans hq.state.symm, hsince.trans hq.since.symm⟩

/-- The file is written from `Inner` as it is then, whoever changed it. -/
theorem recorded_persist (hc : o.created = true) (hw : o.written = true) :
    Recorded (d.persistState o) := by
  refine ⟨d.inner.stateFile, ?_, ?_, ?_⟩
  · rw [Shared.persistState, if_pos hc, if_pos hw]
  · rw [Shared.persistState_inner]
    rfl
  · rw [Shared.persistState_inner]
    rfl

end Sections

theorem boot_filed {p : Process} : Filed [] p := by
  intro h
  cases h

section Step
variable {t : List Effect} {p : Process} {i : Nat} {o : Outside} {th : Thread} {m : Section}

/-- A section that publishes nothing and owes nothing keeps the account. -/
theorem filed_kept (hx : Filed t p) (ht : p.threads[i]? = some th) (hidle : owesFile th = false)
    (heffect : ∀ x ∈ m.effect, isPublished x = false)
    (hkeep : Recorded p.shared → Recorded m.shared) :
    Filed (t ++ m.effect.toList) (p.after i m) := by
  intro hpub
  have hbefore : t.any isPublished = true := by
    rw [List.any_append, Bool.or_eq_true] at hpub
    rcases hpub with hpub | hpub
    · exact hpub
    · obtain ⟨x, hx, hp⟩ := List.any_eq_true.mp hpub
      rw [heffect x (Option.mem_toList.mp hx)] at hp
      cases hp
  rcases hx hbefore with howed | hfile
  · have := Pool.le_count_after (m := m) ht (q := owesFile) (by simp [hidle])
    exact Or.inl (by omega)
  · exact Or.inr (hkeep hfile)

theorem filed_section (hx : Filed t p) (hok : writesFile p (.run i o) = true)
    (ht : p.threads[i]? = some th)
    (hm : daemon.next o i p.threads.length p.shared th = some m) :
    Filed (t ++ m.effect.toList) (p.after i m) := by
  cases hcall : publishingOf th with
  | none =>
    have hquiet := quiet_step hm hcall
    apply filed_kept hx ht (by simp [owesFile, hcall]) ?_ fun h => h.quiet hquiet
    intro x he
    cases x with
    | published thread state => exact absurd he (hquiet.effect thread state)
    | _ => rfl
  | some call =>
    have hnext := (publishing_step hm hcall).1
    cases call with
    | update state lastError =>
      -- the caller itself will write the file
      simp only [setStateNext, Prod.mk.injEq] at hnext
      intro _
      left
      apply Pool.count_pos (Pool.self_after ht m)
      simp [owesFile, ← hnext.2.1]
    | persist =>
      simp only [setStateNext, Prod.mk.injEq] at hnext
      have hwritten : o.created = true ∧ o.written = true := by
        simpa [writesFile, ht, owesFile, hcall] using hok
      intro _
      right
      rw [Pool.after_shared, ← hnext.1]
      exact recorded_persist hwritten.1 hwritten.2
    | snapshot =>
      simp only [setStateNext, Prod.mk.injEq] at hnext
      apply filed_kept hx ht (by simp [owesFile, hcall])
      · simp [← hnext.2.2]
      · rw [← hnext.1]
        exact id
    | emit s =>
      simp only [setStateNext, Prod.mk.injEq] at hnext
      apply filed_kept hx ht (by simp [owesFile, hcall])
      · simp [← hnext.2.2]
      · rw [← hnext.1]
        exact id

end Step

theorem filed_step {t : List Effect} {p p' : Process} {a : Step} {e : Option Effect}
    (hx : Filed t p) (hok : writesFile p a = true) (h : daemon.system.step p a = some (p', e)) :
    Filed (t ++ e.toList) p' := by
  rcases Program.step_cases h with ⟨i, o, th, m, rfl, ht, hm, rfl, rfl⟩ | ⟨th, rfl, ha, rfl, rfl⟩
  · exact filed_section hx hok ht hm
  · have hidle : owesFile th = false := by simp [owesFile, (arrives_serves ha).1]
    rw [Option.toList_none, List.append_nil]
    intro hpub
    simpa [hidle] using hx hpub

theorem reach_filed {t : List Effect} {p : Process}
    (h : System.Reach daemon.system writesFile t p) : Filed t p := by
  apply h.invariant (I := Filed)
  · intro p _
    exact boot_filed
  · intro t p a p' e _ hx hok hs
    exact filed_step hx hok hs

/-- When no call of `set_state` is in progress and at least one has returned,
`state.json` has the state and the time of `Inner`. -/
theorem file_converges (t : List Effect) (p : Process)
    (h : System.Reach daemon.system writesFile t p) (ran : t.any isPublished = true)
    (idle : ∀ th ∈ p.threads, publishingOf th = none) :
    ∃ file, p.shared.stateFile = some file ∧ file.state = p.shared.inner.state ∧
      file.since = p.shared.inner.since := by
  rcases reach_filed h ran with howed | hfile
  · have hnone : p.count owesFile = 0 := by
      rw [Pool.count_eq_zero]
      intro th hth
      simp [owesFile, idle th hth]
    omega
  · exact hfile

/-- An engine has connected, and the network has changed under it. The change is
published, but not yet written, when the engine publishes that it is back; the
engine's write comes last. -/
theorem file_converges_sample : ∃ t p, System.Reach daemon.system writesFile t p ∧
    p.shared.inner.state = .connected ∧ ∃ file, p.shared.stateFile = some file ∧
      file.state = p.shared.inner.state ∧ file.since = p.shared.inner.since := by
  obtain ⟨t, p, hr, hp⟩ := System.exists_reach writesFile
    (connects ++ [.arrive (.network .decide)] ++ sections 4 2 ++
      sections 2 1 { callback := some .reconnected } ++ sections 2 1 ++ sections 4 4 ++
      sections 2 3)
    (fun t p => t.any isPublished && p.threads.all (fun th => (publishingOf th).isNone) &&
      p.shared.inner.state == .connected)
    (boot_init 1000 1000 none []) (by decide)
  simp only [Bool.and_eq_true, beq_iff_eq, List.all_eq_true, Option.isNone_iff_eq_none] at hp
  obtain ⟨⟨hran, hidle⟩, hstate⟩ := hp
  exact ⟨t, p, hr, hstate, file_converges t p hr hran hidle⟩

end InodeVpn.Proofs.StateFile
