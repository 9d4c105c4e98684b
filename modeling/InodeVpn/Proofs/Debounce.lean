import InodeVpn.Proofs.Sections

namespace InodeVpn.Proofs.Debounce
open InodeVpn.Core Lib Daemon Sections

/-- The clock, the last moment at which `network_changed` wrote a PAUSE or started an engine, and
that of the last call past the debounce, if it came to nothing. -/
structure Watch where
  now : Nat := 0
  acted : Option Nat := none
  idle : Option Nat := none

def Watch.see (g : Watch) (p : Process) (a : Step) (e : Option Effect) : Watch :=
  match a with
  | .arrive _ => g
  | .run i o =>
    let g := { g with now := o.clock }
    match e with
    | some (.wrotePause _) | some (.spawned _ .network _) => { g with acted := some o.clock }
    | some (.refused _ .network _) => { g with idle := p.shared.inner.lastNetEvent }
    | _ =>
      if p.threads[i]? = some (.network .decide) ∧
          debounced p.shared.inner.lastNetEvent o.clock = false then
        { g with idle :=
            if (p.shared.inner.networkAction o).2.isNone then some o.clock else none }
      else g

/-- A call of `network_changed` that has not returned. -/
def isCall : Thread → Bool
  | .network _ | .starting .network _ _ => true
  | _ => false

/-- The clock does not run backwards, and the watcher makes one call after the other. -/
def inSequence (s : Watch × Process) : Step → Bool
  | .run _ o => s.1.now ≤ o.clock
  | .arrive t => !isCall t || s.2.count isCall == 0

/-- The daemon under a clock. -/
def timed : System (Watch × Process) Step Effect := daemon.system.watched {} Watch.see

/-- There is something for `network_changed` to do. -/
def Eligible (i : Inner) : Prop :=
  ((i.state = .connected ∨ i.state = .reconnecting) ∧ i.cmdFd.isSome = true) ∨
    (i.state = .failed ∧ i.engine = none ∧ i.config.isSome = true)

/-- Less than two seconds ago. -/
def Lately (event : Option Nat) (now : Nat) : Prop := ∃ t ∈ event, now < t + 2000000000

/-- The thread goes on to write a PAUSE, whatever its sections meet. -/
def Pauses (i : Nat) (fd : RawFd) (p : Process) : Prop :=
  ∀ o₁ o₂ o₃ o₄ o₅ : Outside, ∃ p' es,
    daemon.system.replay (fun _ _ => true) p ([o₁, o₂, o₃, o₄, o₅].map (.run i)) = some (p', es) ∧
      .wrotePause fd ∈ es

/-- The call pauses the session that is up, or goes on to start the one that has failed. -/
def Heard (p : Process) (i : Nat) (o : Outside) : Prop :=
  ∃ p', daemon.system.step p (.run i o) = some (p', none) ∧
    ((∃ fd, p.shared.inner.cmdFd = some fd ∧
        (p.shared.inner.state = .connected ∨ p.shared.inner.state = .reconnecting) ∧
        Pauses i fd p') ∨
      ∃ config, p.shared.inner.config = some config ∧ p.shared.inner.state = .failed ∧
        p'.threads[i]? = some (.starting .network config .check))

/-- A call that has something to do does it, unless the watcher has acted lately. -/
def Unswallowed (g : Watch) (p : Process) (i : Nat) (o : Outside) : Prop :=
  Eligible p.shared.inner → ¬ Lately g.acted o.clock → Heard p i o

/-- Past its decision, and neither written nor spawned yet. -/
def isActing : Thread → Bool
  | .network .decide => false
  | .network _ => true
  | .starting .network _ (.setEngine _) => false
  | .starting .network _ _ => true
  | _ => false

theorem isCall_of_isActing {t : Thread} (h : isActing t = true) : isCall t = true := by
  unfold isActing at h
  split at h <;> first | rfl | cases h

theorem debounced_iff {last : Option Nat} {now : Nat} :
    debounced last now = true ↔ Lately last now := by
  cases last with
  | none => simp [debounced, Lately]
  | some t =>
    simp only [debounced, Lately, decide_eq_true_eq, Option.mem_def, Option.some.injEq,
      exists_eq_left']
    omega

section Decision
variable {o : Outside} {i : Inner}

theorem networkAction_debounced (h : debounced i.lastNetEvent o.clock = true) :
    i.networkAction o = (i, none) := by
  rw [Inner.networkAction, if_pos h]

theorem networkAction_lastNetEvent (h : debounced i.lastNetEvent o.clock = false) :
    (i.networkAction o).1.lastNetEvent = some o.clock := by
  unfold Inner.networkAction
  rw [if_neg (by simp [h])]
  simp only
  split
  · rfl
  · split <;> rfl

/-- Past the debounce an event with something to do leads to it. -/
theorem networkAction_eligible (h : debounced i.lastNetEvent o.clock = false) (he : Eligible i) :
    (∃ fd, i.cmdFd = some fd ∧ (i.state = .connected ∨ i.state = .reconnecting) ∧
      (i.networkAction o).2 = some (.pause fd)) ∨
    ∃ config, i.config = some config ∧ i.state = .failed ∧
      (i.networkAction o).2 = some (.restart config) := by
  unfold Inner.networkAction
  rw [if_neg (by simp [h])]
  simp only
  rcases he with ⟨hup, hfd⟩ | ⟨hfailed, hengine, hconfig⟩
  · obtain ⟨fd, hfd⟩ := Option.isSome_iff_exists.mp hfd
    rw [if_pos hup, hfd]
    exact Or.inl ⟨fd, rfl, hup, rfl⟩
  · obtain ⟨config, hconfig⟩ := Option.isSome_iff_exists.mp hconfig
    rw [if_neg (by simp [hfailed]), if_pos ⟨hfailed, by simp [hengine]⟩, hconfig]
    exact Or.inr ⟨config, rfl, hfailed, rfl⟩

end Decision

section Section
variable {o : Outside} {i : Nat} {p p' : Process} {e : Option Effect}

theorem setState_exited (o : Outside) (me : Nat) (d : Shared) (call : SetState) :
    (setStateNext o me d call).1.exited = d.exited := by
  cases call with
  | persist =>
    simp only [setStateNext, Shared.persistState]
    split <;> rfl
  | _ => rfl

/-- One section of the call of `set_state` in front of the PAUSE. -/
theorem publish_section {fd : RawFd} {call call' : SetState}
    (ht : p.threads[i]? = some (.network (.publish fd call))) (hlive : p.shared.exited = false)
    (hcall : (setStateNext o i p.shared call).2.1 = some call') :
    ∃ p' e, daemon.system.step p (.run i o) = some (p', e) ∧
      p'.threads[i]? = some (.network (.publish fd call')) ∧ p'.shared.exited = false := by
  have hexited := setState_exited o i p.shared call
  generalize hnext : setStateNext o i p.shared call = next at hcall hexited
  obtain ⟨shared, publishing, effect⟩ := next
  simp only at hcall hexited
  subst hcall
  have hm : threadNext o i p.threads.length p.shared (.network (.publish fd call)) =
      some { shared, self := .network (.publish fd call'), effect } := by
    simp only [threadNext, networkNext, hnext]
  exact ⟨_, _, step_live ht hlive hm, Pool.self_after ht _, hexited.trans hlive⟩

theorem last_section {fd : RawFd} {snapshot : StatusSnapshot}
    (ht : p.threads[i]? = some (.network (.publish fd (.emit snapshot))))
    (hlive : p.shared.exited = false) :
    ∃ p' e, daemon.system.step p (.run i o) = some (p', e) ∧
      p'.threads[i]? = some (.network (.writePause fd)) ∧ p'.shared.exited = false :=
  ⟨_, _, step_live ht hlive rfl, Pool.self_after ht _, hlive⟩

/-- A thread in front of its PAUSE writes it. -/
theorem pauses {fd : RawFd} {state : SessionState} {lastError : Option String}
    (ht : p.threads[i]? = some (.network (.publish fd (.update state lastError))))
    (hlive : p.shared.exited = false) : Pauses i fd p := by
  intro o₁ o₂ o₃ o₄ o₅
  obtain ⟨p₁, e₁, hs₁, ht₁, hl₁⟩ := publish_section (o := o₁) ht hlive rfl
  obtain ⟨p₂, e₂, hs₂, ht₂, hl₂⟩ := publish_section (o := o₂) ht₁ hl₁ rfl
  obtain ⟨p₃, e₃, hs₃, ht₃, hl₃⟩ := publish_section (o := o₃) ht₂ hl₂ rfl
  obtain ⟨p₄, e₄, hs₄, ht₄, hl₄⟩ := last_section (o := o₄) ht₃ hl₃
  have hs₅ := step_live (o := o₅) ht₄ hl₄ rfl
  simp only [List.map_cons, List.map_nil]
  rw [System.replay_cons rfl hs₁, System.replay_cons rfl hs₂, System.replay_cons rfl hs₃,
    System.replay_cons rfl hs₄, System.replay_cons rfl hs₅]
  exact ⟨_, _, rfl, by simp⟩

end Section

/-- The last call past the debounce came to nothing, has acted since, or is still to act. -/
structure Watched (g : Watch) (p : Process) : Prop where
  one : p.count isCall ≤ 1
  past : ∀ t ∈ p.shared.inner.lastNetEvent, t ≤ g.now
  idle : ∀ t ∈ g.idle, p.shared.inner.lastNetEvent = some t
  last : ∀ t ∈ p.shared.inner.lastNetEvent, g.idle = some t ∨ (∃ w ∈ g.acted, t ≤ w) ∨
    ∃ u ∈ p.threads, isActing u = true

section Step
variable {o : Outside} {me fresh : Nat} {d : Shared} {m : Section} {t : Thread}

theorem calls_network {config : Config} (h : Calls o d t .network config) :
    t = .network .decide := by
  generalize hc : Caller.network = caller at h
  cases h with
  | @request r restarting config => cases restarting <;> cases hc
  | autostart => cases hc
  | network decided => rfl
  | retry => cases hc

theorem isCall_self (h : daemon.next o me fresh d t = some m) (hself : isCall m.self = true) :
    isCall t = true := by
  have hk := (next_kind h).1
  cases hs : m.self with
  | network pc =>
    rw [hs] at hk
    cases t with
    | network pc' => rfl
    | _ => cases hk
  | starting caller config pc =>
    have hcaller : caller = .network := by
      rw [hs] at hself
      cases caller <;> first | rfl | cases hself
    subst hcaller
    rcases next_starting h hs with ⟨hcalls, -⟩ | ⟨pc', rfl⟩
    · rw [calls_network hcalls]
      rfl
    · rfl
  | _ => rw [hs] at hself; cases hself

theorem isCall_canSpawn {c : Thread} (h : canSpawn c = true) : isCall c = false := by
  have hkind := canSpawn_kind h
  cases c with
  | network pc => simp [kind] at hkind
  | starting caller config pc => simp [kind] at hkind
  | _ => rfl

/-- A call that is to act goes on, acts, or is refused. -/
theorem acting_next (h : daemon.next o me fresh d t = some m) (hacting : isActing t = true) :
    isActing m.self = true ∨ (∃ fd, m.effect = some (.wrotePause fd)) ∨
      (∃ engine, m.effect = some (.spawned me .network engine)) ∨
      ∃ error, m.effect = some (.refused me .network error) := by
  replace h := daemon_next h
  cases t with
  | network pc =>
    cases pc with
    | decide => cases hacting
    | publish fd call => cases call <;> cases h <;> exact Or.inl rfl
    | writePause fd => cases h; exact Or.inr (Or.inl ⟨fd, rfl⟩)
  | starting caller config pc =>
    have hcaller : caller = .network := by
      cases caller <;> first | rfl | cases hacting
    subst hcaller
    cases pc with
    | check =>
      simp only [threadNext, startNext] at h
      split at h <;> cases h
      · exact Or.inr (Or.inr (Or.inr ⟨_, rfl⟩))
      · exact Or.inl rfl
    | spawn tunScript =>
      simp only [threadNext, startNext] at h
      split at h <;> cases h
      · exact Or.inr (Or.inr (Or.inl ⟨fresh, rfl⟩))
      · exact Or.inr (Or.inr (Or.inr ⟨_, rfl⟩))
    | setEngine handle => cases hacting
    | _ => cases h; exact Or.inl rfl
  | _ => cases hacting

/-- The decision, by what comes of it. -/
theorem decide_next (h : daemon.next o me fresh d (.network .decide) = some m) :
    m.effect = none ∧ m.shared.inner = (d.inner.networkAction o).1 ∧
      m.self = match (d.inner.networkAction o).2 with
        | none => .done
        | some (.pause fd) => .network (.publish fd (.update .reconnecting none))
        | some (.restart config) => .starting .network config .check := by
  replace h := daemon_next h
  simp only [threadNext, networkNext] at h
  cases haction : (d.inner.networkAction o).2 with
  | none =>
    simp only [haction] at h
    cases h
    exact ⟨rfl, rfl, rfl⟩
  | some action =>
    cases action with
    | pause fd =>
      simp only [haction] at h
      cases h
      exact ⟨rfl, rfl, rfl⟩
    | restart config =>
      simp only [haction] at h
      cases h
      exact ⟨rfl, rfl, rfl⟩

end Step

section Runs
variable {o : Outside} {g : Watch} {p p' : Process} {i : Nat} {m : Section} {t : Thread}

theorem one_after (hx : Watched g p) (ht : p.threads[i]? = some t)
    (hm : daemon.next o i p.threads.length p.shared t = some m) : (p.after i m).count isCall ≤ 1 :=
  Nat.le_trans (Pool.count_after_le ht (isCall_self hm)
    fun c hc => isCall_canSpawn ((next_kind hm).2 c hc).1) hx.one

/-- A decision is remembered: as idle, or as one that is to act. -/
theorem watched_decide (hx : Watched g p) (ht : p.threads[i]? = some (.network .decide))
    (hm : daemon.next o i p.threads.length p.shared (.network .decide) = some m)
    (hclock : g.now ≤ o.clock) : Watched (g.see p (.run i o) m.effect) (p.after i m) := by
  obtain ⟨heffect, hinner, hself⟩ := decide_next hm
  have hone := one_after hx ht hm
  rw [heffect]
  by_cases hdebounced : debounced p.shared.inner.lastNetEvent o.clock = true
  · rw [networkAction_debounced hdebounced] at hinner hself
    have hsee : g.see p (.run i o) none = { g with now := o.clock } :=
      if_neg fun hpast => by simp [hdebounced] at hpast
    rw [hsee]
    refine ⟨hone, ?_, ?_, ?_⟩
    all_goals rw [Pool.after_shared, hinner]
    · exact fun t ht => Nat.le_trans (hx.past t ht) hclock
    · exact hx.idle
    · intro w hw
      rcases hx.last w hw with hidle | hacted | ⟨u, hu, hacting⟩
      · exact Or.inl hidle
      · exact Or.inr (Or.inl hacted)
      · obtain ⟨j, hj⟩ := List.mem_iff_getElem?.mp hu
        have hji := Pool.eq_of_count_le_one hx.one hj ht (isCall_of_isActing hacting) rfl
        subst hji
        rw [ht] at hj
        cases hj
        cases hacting
  · rw [Bool.not_eq_true] at hdebounced
    have hevent := networkAction_lastNetEvent hdebounced
    have hsee : g.see p (.run i o) none = { g with
        now := o.clock
        idle := if (p.shared.inner.networkAction o).2.isNone then some o.clock else none } :=
      if_pos ⟨ht, hdebounced⟩
    rw [hsee]
    refine ⟨hone, ?_, ?_, ?_⟩
    all_goals rw [Pool.after_shared, hinner, hevent]
    · rintro w ⟨⟩
      exact Nat.le_refl _
    · intro w hw
      simp only [Option.mem_def, Option.ite_none_right_eq_some] at hw
      exact hw.2
    · rintro w ⟨⟩
      cases haction : (p.shared.inner.networkAction o).2 with
      | none => exact Or.inl rfl
      | some action =>
        rw [haction] at hself
        refine Or.inr (Or.inr ⟨m.self, List.mem_of_getElem? (Pool.self_after ht m), ?_⟩)
        rw [hself]
        cases action <;> rfl

/-- Every other section leaves the moment alone, and the watch sees what it does. -/
theorem watched_other (hx : Watched g p) (ht : p.threads[i]? = some t) (hne : t ≠ .network .decide)
    (hm : daemon.next o i p.threads.length p.shared t = some m) (hclock : g.now ≤ o.clock) :
    Watched (g.see p (.run i o) m.effect) (p.after i m) := by
  have hone := one_after hx ht hm
  have hlast : (p.after i m).shared.inner.lastNetEvent = p.shared.inner.lastNetEvent :=
    (next_keeps hm).lastNetEvent hne
  have hpast : ∀ w ∈ p.shared.inner.lastNetEvent, w ≤ o.clock := fun w hw =>
    Nat.le_trans (hx.past w hw) hclock
  have hacted : ∀ g' : Watch, g'.acted = some o.clock → g'.now = o.clock → g'.idle = g.idle →
      Watched g' (p.after i m) := by
    intro g' hact hnow hidle
    refine ⟨hone, ?_, ?_, ?_⟩
    all_goals rw [hlast]
    · rwa [hnow]
    · rw [hidle]
      exact hx.idle
    · exact fun w hw => Or.inr (Or.inl ⟨o.clock, hact, hpast w hw⟩)
  unfold Watch.see
  simp only
  split
  · exact hacted _ rfl rfl rfl
  · exact hacted _ rfl rfl rfl
  · refine ⟨hone, ?_, ?_, ?_⟩
    all_goals rw [hlast]
    · exact hpast
    · exact fun w hw => hw
    · exact fun w hw => Or.inl hw
  · rename_i hpause hspawn hrefuse
    rw [if_neg fun hpc => hne (Option.some.inj (ht.symm.trans hpc.1))]
    refine ⟨hone, ?_, ?_, ?_⟩
    all_goals rw [hlast]
    · exact hpast
    · exact hx.idle
    · intro w hw
      rcases hx.last w hw with hidle | hacted | ⟨u, hu, hacting⟩
      · exact Or.inl hidle
      · exact Or.inr (Or.inl hacted)
      · refine Or.inr (Or.inr (Pool.exists_after ht (fun hmover => ?_) ⟨u, hu, hacting⟩))
        rcases acting_next hm hmover with hself | ⟨fd, he⟩ | ⟨engine, he⟩ | ⟨error, he⟩
        · exact hself
        · exact absurd he (hpause fd)
        · exact absurd he (hspawn _ _)
        · exact absurd he (hrefuse _ error)

theorem watched_step {a : Step} {e : Option Effect} (hx : Watched g p)
    (hok : inSequence (g, p) a = true) (h : daemon.system.step p a = some (p', e)) :
    Watched (g.see p a e) p' := by
  rcases Program.step_cases h with ⟨i, o, t, m, rfl, ht, hm, rfl, rfl⟩ | ⟨t, rfl, ha, rfl, rfl⟩
  · have hclock : g.now ≤ o.clock := by simpa [inSequence] using hok
    by_cases hdecide : t = .network .decide
    · subst hdecide
      exact watched_decide hx ht hm hclock
    · exact watched_other hx ht hdecide hm hclock
  · refine ⟨?_, hx.past, hx.idle, fun w hw => ?_⟩
    · have hone := hx.one
      rw [Pool.count_join]
      cases hcall : isCall t with
      | false => exact hone
      | true =>
        have hnone : p.count isCall = 0 := by simpa [inSequence, hcall] using hok
        rw [hnone]
        exact Nat.le_refl _
    · rcases hx.last w hw with hidle | hacted | ⟨u, hu, hacting⟩
      · exact Or.inl hidle
      · exact Or.inr (Or.inl hacted)
      · exact Or.inr (Or.inr ⟨u, List.mem_append_left _ hu, hacting⟩)

theorem reach_watched {t : List Effect} {s : Watch × Process}
    (h : System.Reach timed inSequence t s) : Watched s.1 s.2 := by
  apply h.invariant (I := fun _ s => Watched s.1 s.2)
  · rintro ⟨g, p⟩ ⟨hg, d, t, ⟨_, _, _, _, rfl, rfl⟩, hp⟩
    simp only at hg hp
    subst hg hp
    exact ⟨Nat.zero_le _, fun w hw => (by cases hw), fun w hw => (by cases hw),
      fun w hw => (by cases hw)⟩
  · intro t s a s' e _ hx hok hs
    obtain ⟨hstep, hsee⟩ := System.watched_step.mp hs
    rw [hsee]
    exact watched_step hx hok hstep

/-- Past the debounce an event with something to do is heard. -/
theorem heard_of_passed (ht : p.threads[i]? = some (.network .decide))
    (hlive : p.shared.exited = false) (he : Eligible p.shared.inner)
    (hdebounced : debounced p.shared.inner.lastNetEvent o.clock = false) : Heard p i o := by
  rcases networkAction_eligible hdebounced he with ⟨fd, hfd, hup, haction⟩ |
    ⟨config, hconfig, hfailed, haction⟩
  · have hm : threadNext o i p.threads.length p.shared (.network .decide) =
        some { shared := { p.shared with inner := (p.shared.inner.networkAction o).1 }
               self := .network (.publish fd (.update .reconnecting none)) } := by
      simp only [threadNext, networkNext, haction]
    exact ⟨_, step_live ht hlive hm, Or.inl ⟨fd, hfd, hup, pauses (Pool.self_after ht _) hlive⟩⟩
  · have hm : threadNext o i p.threads.length p.shared (.network .decide) =
        some { shared := { p.shared with inner := (p.shared.inner.networkAction o).1 }
               self := .starting .network config .check } := by
      simp only [threadNext, networkNext, haction]
    exact ⟨_, step_live ht hlive hm, Or.inr ⟨config, hconfig, hfailed, Pool.self_after ht _⟩⟩

/-- A debounced event is not. -/
theorem not_heard (ht : p.threads[i]? = some (.network .decide))
    (hdebounced : debounced p.shared.inner.lastNetEvent o.clock = true) : ¬ Heard p i o := by
  rintro ⟨p', hstep, hheard⟩
  have hdone : p'.threads[i]? = some .done := by
    rcases Program.step_cases hstep with ⟨j, o', t, m, ha, ht', hm, rfl, -⟩ | ⟨t, ha, -, -, -⟩
    · cases ha
      rw [ht] at ht'
      cases ht'
      obtain ⟨-, -, hself⟩ := decide_next hm
      rw [networkAction_debounced hdebounced] at hself
      rw [Pool.self_after ht m, hself]
    · cases ha
  rcases hheard with ⟨fd, -, -, hpauses⟩ | ⟨config, -, -, hstarts⟩
  · obtain ⟨p'', es, hreplay, -⟩ := hpauses {} {} {} {} {}
    simp [System.replay, Program.system, Program.step, daemon, hdone, threadNext] at hreplay
  · rw [hdone] at hstarts
    cases hstarts

end Runs

/-- In every sequence of events a network change with something to do is acted on, unless the
watcher has acted lately, exactly if the last event to pass the debounce did not come to nothing
less than two seconds ago. -/
theorem unswallowed_iff (t : List Effect) (s : Watch × Process)
    (h : System.Reach timed inSequence t s) (i : Nat) (o : Outside)
    (ht : s.2.threads[i]? = some (.network .decide)) (hlive : s.2.shared.exited = false) :
    Unswallowed s.1 s.2 i o ↔
      (Eligible s.2.shared.inner → ¬ Lately s.1.acted o.clock → ¬ Lately s.1.idle o.clock) := by
  have hx := reach_watched h
  constructor
  · rintro hheard heligible hacted ⟨w, hw, hlate⟩
    have hdebounced : debounced s.2.shared.inner.lastNetEvent o.clock = true := by
      rw [debounced_iff, hx.idle w hw]
      exact ⟨w, rfl, hlate⟩
    exact not_heard ht hdebounced (hheard heligible hacted)
  · intro hidle heligible hacted
    apply heard_of_passed ht hlive heligible
    rw [← Bool.not_eq_true, debounced_iff]
    rintro ⟨w, hw, hlate⟩
    rcases hx.last w hw with hw | ⟨v, hv, hle⟩ | ⟨u, hu, hacting⟩
    · exact hidle heligible hacted ⟨w, hw, hlate⟩
    · exact hacted ⟨v, hv, by omega⟩
    · obtain ⟨j, hj⟩ := List.mem_iff_getElem?.mp hu
      have hji := Pool.eq_of_count_le_one hx.one hj ht (isCall_of_isActing hacting) rfl
      subst hji
      rw [ht] at hj
      cases hj
      cases hacting

/-- The network changes when a session is up for the first time. -/
theorem unswallowed_sample : ∃ t s, System.Reach timed inSequence t s ∧
    Eligible s.2.shared.inner ∧ Unswallowed s.1 s.2 4 { clock := 1000000000 } := by
  obtain ⟨t, s, hr, hp⟩ := System.exists_reach (M := timed) inSequence
    (connects ++ [.arrive (.network .decide)])
    (fun _ s => s.1.idle.isNone && s.2.shared.inner.state == .connected &&
      s.2.shared.inner.cmdFd.isSome && s.2.threads[4]? == some (.network .decide) &&
      !s.2.shared.exited) (s := ({}, boot 1000 1000 none [])) ⟨rfl, boot_init 1000 1000 none []⟩
    (by decide)
  simp only [Bool.and_eq_true, beq_iff_eq, Bool.not_eq_true', Option.isNone_iff_eq_none] at hp
  obtain ⟨⟨⟨⟨hidle, hup⟩, hfd⟩, ht⟩, hlive⟩ := hp
  refine ⟨t, s, hr, Or.inl ⟨Or.inl hup, hfd⟩, (unswallowed_iff t s hr 4 _ ht hlive).mpr ?_⟩
  rintro - - ⟨w, hw, -⟩
  rw [hidle] at hw
  cases hw

/-- An event finds nothing to do; within a second the session is up and the network changes. -/
def changesTwice : List Step :=
  serve ++ [.arrive (.network .decide)] ++ sections 1 1 ++ [client 1 "start"] ++ loadStart 2 ++
    sections 2 5 ++ sections 3 39 ++ [.arrive (.network .decide)]

theorem event_swallowed : ¬ ∀ t s, System.Reach timed inSequence t s → ∀ i o,
    s.2.threads[i]? = some (.network .decide) → s.2.shared.exited = false →
      Unswallowed s.1 s.2 i o := by
  intro h
  obtain ⟨t, s, hr, hp⟩ := System.exists_reach (M := timed) inSequence changesTwice
    (fun _ s => s.1.acted.isNone && s.2.shared.inner.state == .connected &&
      s.2.shared.inner.cmdFd.isSome && s.2.threads[5]? == some (.network .decide) &&
      !s.2.shared.exited && debounced s.2.shared.inner.lastNetEvent 1000000000)
    (s := ({}, boot 1000 1000 none [])) ⟨rfl, boot_init 1000 1000 none []⟩ (by decide)
  simp only [Bool.and_eq_true, beq_iff_eq, Bool.not_eq_true', Option.isNone_iff_eq_none] at hp
  obtain ⟨⟨⟨⟨⟨hacted, hup⟩, hfd⟩, ht⟩, hlive⟩, hdebounced⟩ := hp
  refine not_heard ht hdebounced (h t s hr 5 { clock := 1000000000 } ht hlive ?_ ?_)
  · exact Or.inl ⟨Or.inl hup, hfd⟩
  · rintro ⟨w, hw, -⟩
    rw [hacted] at hw
    cases hw

end InodeVpn.Proofs.Debounce
