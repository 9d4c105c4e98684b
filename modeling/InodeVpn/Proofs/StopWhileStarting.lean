import InodeVpn.Proofs.Cancellation

namespace InodeVpn.Proofs.StopWhileStarting
open InodeVpn.Core Lib Daemon Sections Effects Vpninfo Cancellation

def honoursCancel (p : Process) : Step → Bool
  | .run i o => p.threads[i]?.all (honours o)
  | .arrive _ => true

/-- The defect: `engine_run` does not look at `stop_requested` before the main
loop has returned, so that a stop is lost on an engine that it cannot cancel. -/
def stopHeard (p : Process) : Step → Bool
  | .run i _ =>
    match p.threads[i]? with
    | some (.request r .dispatch) => r.method ≠ "stop" || p.threads.all (hears p.shared)
    | _ => true
  | .arrive _ => true

/-- `engine_start` accepts a start, whoever asked for it. -/
def isAccepted : Effect → Bool
  | .accepted _ _ => true
  | _ => false

/-- A client's stop was accepted before the engine had entered its main loop,
and no start has been accepted since. -/
def Stopping (t : List Effect) (engine : Nat) : Prop :=
  ∃ t₁ stop t₂, t = t₁ ++ stop :: t₂ ∧ isStop stop = true ∧ (∀ x ∈ t₂, isAccepted x = false) ∧
    ∀ b, .enteredMainloop engine b ∉ t₁

theorem Stopping.stands {t : List Effect} {engine : Nat} (h : Stopping t engine) :
    since isStop isAccepted t = true := by
  obtain ⟨t₁, stop, t₂, rfl, hstop, hacc, -⟩ := h
  exact (since_iff _ _ _).mpr ⟨t₁, stop, t₂, rfl, hstop, hacc⟩

theorem stopping_append {t : List Effect} {e : Option Effect} {engine : Nat}
    (h : Stopping (t ++ e.toList) engine) :
    (Stopping t engine ∧ ∀ x ∈ e, isAccepted x = false) ∨
    (∃ x, e = some x ∧ isStop x = true ∧ ∀ b, .enteredMainloop engine b ∉ t) := by
  obtain ⟨t₁, stop, t₂, heq, hstop, hacc, hent⟩ := h
  cases e with
  | none =>
    simp only [Option.toList_none, List.append_nil] at heq
    exact Or.inl ⟨⟨t₁, stop, t₂, heq, hstop, hacc, hent⟩, fun x hx => by cases hx⟩
  | some x =>
    simp only [Option.toList_some] at heq
    rcases append_one_split heq with ⟨rfl, rfl⟩ | ⟨t₃, rfl, rfl⟩
    · exact Or.inr ⟨_, rfl, hstop, hent⟩
    · refine Or.inl ⟨⟨t₁, stop, t₃, rfl, hstop, fun y hy => hacc y (by simp [hy]), hent⟩, ?_⟩
      rintro y ⟨⟩
      exact hacc _ (by simp)

/-- What holds of the daemon after the trace `t`. -/
structure Heard (t : List Effect) (p : Process) : Prop where
  spawned : since isStop isAccepted t = true → p.count unspawned = 0
  flag : since isStop isAccepted t = true → p.shared.inner.stopRequested = true
  entered : ∀ j th, p.threads[j]? = some th → pastEntry th = true →
    ∃ b, .enteredMainloop j b ∈ t
  announced : ∀ th ∈ p.threads, announces th = true → atMainloop th = true
  doomed : ∀ j th, p.threads[j]? = some th → Stopping t j → Doomed p.shared th

theorem boot_heard {p : Process} (h : daemon.system.init p) : Heard [] p := by
  obtain ⟨d, t, ⟨_, _, _, _, rfl, rfl⟩, rfl⟩ := h
  have hmain : ∀ (j : Nat) th, [Thread.main .load][j]? = some th → th = .main .load :=
    fun j th h => List.mem_singleton.mp (List.mem_of_getElem? h)
  refine ⟨fun h => (by cases h), fun h => (by cases h), ?_, ?_, ?_⟩
  · intro j th hth hp
    rw [hmain j th hth] at hp
    cases hp
  · intro th hth ha
    rw [List.mem_singleton.mp hth] at ha
    cases ha
  · intro j th hth _
    rw [hmain j th hth]
    exact doomed_of_kind rfl (by decide)

section Step
variable {t : List Effect} {p : Process} {i : Nat} {o : Outside} {th c : Thread} {m : Section}

theorem unspawned_le (ht : p.threads[i]? = some th)
    (hm : daemon.next o i p.threads.length p.shared th = some m)
    (hacc : ∀ x ∈ m.effect, isAccepted x = false) :
    (p.after i m).count unspawned ≤ p.count unspawned := by
  apply Pool.count_after_le ht
  · intro hu
    rcases unspawned_step hm hu with hu | ⟨caller, he⟩
    · exact hu
    · cases hacc _ he
  · intro c hc
    have hk := canSpawn_kind ((next_kind hm).2 c hc).1
    cases c with
    | starting caller config pc => simp [kind] at hk
    | _ => rfl

/-- A stop section: its thread is a request, and every thread hears it. -/
theorem stop_section (hok : stopHeard p (.run i o) = true) (ht : p.threads[i]? = some th)
    (hm : daemon.next o i p.threads.length p.shared th = some m) {x : Effect}
    (he : m.effect = some x) (hx : isStop x = true) :
    kind th = .request ∧ m.shared = p.shared.requestStop ∧
      ∀ u ∈ p.threads, hears p.shared u = true := by
  have horigin := effect_origin hm he
  cases horigin with
  | stopRequested asks shared =>
    obtain ⟨r, rfl, hr⟩ := stopperOf_isStop asks hx
    refine ⟨rfl, shared, ?_⟩
    simpa [stopHeard, ht, hr] using hok
  | _ => cases hx

theorem doomed_after (ho : Owned p) (hx : Heard t p) (hhon : honours o th = true)
    (hok : stopHeard p (.run i o) = true) (ht : p.threads[i]? = some th)
    (hm : daemon.next o i p.threads.length p.shared th = some m) {j : Nat} {u : Thread}
    (hu : (p.after i m).threads[j]? = some u) (hs : Stopping (t ++ m.effect.toList) j) :
    Doomed m.shared u := by
  have hchild : m.spawned = some u → kind u ≠ .engine → Doomed m.shared u := fun hc hk =>
    doomed_of_kind (canSpawn_silent ((next_kind hm).2 u hc).1).1 hk
  rcases stopping_append hs with ⟨hold, hacc⟩ | ⟨x, he, hstop, hent⟩
  · have hstands := hold.stands
    rcases Pool.running_after ht hu with ⟨rfl, rfl⟩ | ⟨-, hup⟩ | hc
    · exact doomed_step hm hhon (hx.flag hstands) (hx.doomed j th ht hold)
    · exact (hx.doomed j u hup hold).mono fun v => cancelled_stays hm
    · apply hchild hc
      intro hk
      have := Pool.count_pos ht (engine_child hm hc hk)
      have := hx.spawned hstands
      omega
  · obtain ⟨hk, hshared, hhears⟩ := stop_section hok ht hm he hstop
    have hkind := next_kind hm
    rw [hk] at hkind
    rcases Pool.running_after ht hu with ⟨-, rfl⟩ | ⟨-, hup⟩ | hc
    · have hne : kind m.self ≠ .engine := by
        intro hself
        have := hkind.1
        rw [hself] at this
        cases this
      exact doomed_of_kind (silent_next hm hne) hne
    · rw [hshared]
      have hmem := List.mem_of_getElem? hup
      apply doomed_of_hears ho hmem (hx.announced u hmem) (hhears u hmem)
      by_contra hpast
      obtain ⟨b, hb⟩ := hx.entered j u hup (by simpa using hpast)
      exact hent b hb
    · apply hchild hc
      intro hke
      have := (hkind.2 u hc).2
      rw [hke] at this
      cases this

/-- After a stop nobody waits to be spawned. -/
theorem spawned_after (hx : Heard t p) (hok : stopHeard p (.run i o) = true)
    (ht : p.threads[i]? = some th) (hm : daemon.next o i p.threads.length p.shared th = some m)
    (hs : since isStop isAccepted (t ++ m.effect.toList) = true) :
    (p.after i m).count unspawned = 0 := by
  rcases since_append.mp hs with ⟨x, he, hstop⟩ | ⟨hold, hacc⟩
  · obtain ⟨-, -, hhears⟩ := stop_section hok ht hm he hstop
    have hnone : p.count unspawned = 0 := by
      rw [Pool.count_eq_zero]
      intro u hu
      have := hhears u hu
      cases u with
      | starting caller config pc => simpa [hears] using this
      | _ => rfl
    have hle := unspawned_le ht hm fun y hy => by
      rw [he] at hy
      cases hy
      cases x with
      | accepted thread caller => cases hstop
      | _ => rfl
    omega
  · have hle := unspawned_le ht hm hacc
    have hnone := hx.spawned hold
    omega

/-- After a stop the flag is set. -/
theorem flag_after (hx : Heard t p)
    (hm : daemon.next o i p.threads.length p.shared th = some m)
    (hs : since isStop isAccepted (t ++ m.effect.toList) = true) :
    m.shared.inner.stopRequested = true := by
  rw [(next_flags hm).1]
  rcases since_append.mp hs with ⟨x, he, hstop⟩ | ⟨hold, hacc⟩
  · rw [he]
    cases x with
    | stopRequested stopper fd => rfl
    | _ => cases hstop
  · rw [hx.flag hold]
    cases he : m.effect with
    | none => rfl
    | some x =>
      cases x with
      | accepted thread caller => cases hacc _ he
      | _ => rfl

end Step

/-- An arrival changes nothing for the threads that were there. -/
theorem heard_join {t : List Effect} {p : Process} {th : Thread} (hx : Heard t p)
    (ha : daemon.arrives p.shared th = true) : Heard t (p.join th) := by
  have hquiet : unspawned th = false ∧ pastEntry th = false ∧ announces th = false ∧
      kind th ≠ .engine := by
    rcases (arrives_kind ha).2 with ⟨r, rfl⟩ | rfl <;> exact ⟨rfl, rfl, rfl, fun h => by cases h⟩
  obtain ⟨hu, hp, han, hk⟩ := hquiet
  refine ⟨by simpa [hu] using hx.spawned, hx.flag, ?_, ?_, ?_⟩
  · intro j u hj hpast
    rcases Pool.running_join hj with hj | rfl
    · exact hx.entered j u hj hpast
    · rw [hp] at hpast
      cases hpast
  · intro u hmem hann
    rcases Pool.mem_join.mp hmem with hmem | rfl
    · exact hx.announced u hmem hann
    · rw [han] at hann
      cases hann
  · intro j u hj hs
    rcases Pool.running_join hj with hj | rfl
    · exact hx.doomed j u hj hs
    · exact doomed_of_kind han hk

theorem heard_step {t : List Effect} {p p' : Process} {a : Step} {e : Option Effect}
    (ho : Owned p) (hx : Heard t p) (hhon : honoursCancel p a = true) (hok : stopHeard p a = true)
    (h : daemon.system.step p a = some (p', e)) : Heard (t ++ e.toList) p' := by
  rcases Program.step_cases h with ⟨i, o, th, m, rfl, ht, hm, rfl, rfl⟩ | ⟨th, rfl, ha, rfl, rfl⟩
  · have hhon' : honours o th = true := by simpa [honoursCancel, ht] using hhon
    constructor
    case spawned => exact spawned_after hx hok ht hm
    case flag => exact flag_after hx hm
    case entered =>
      intro j u hu hp
      rcases Pool.running_after ht hu with ⟨rfl, rfl⟩ | ⟨-, hup⟩ | hc
      · rcases pastEntry_step hm hp with hp | ⟨b, he⟩
        · obtain ⟨b, hb⟩ := hx.entered j th ht hp
          exact ⟨b, List.mem_append_left _ hb⟩
        · exact ⟨b, by simp [he]⟩
      · obtain ⟨b, hb⟩ := hx.entered j u hup hp
        exact ⟨b, List.mem_append_left _ hb⟩
      · rw [(canSpawn_silent ((next_kind hm).2 u hc).1).2] at hp
        cases hp
    case announced =>
      apply Pool.forall_after hx.announced (announces_where hm)
      intro c hc hann
      rw [(canSpawn_silent ((next_kind hm).2 c hc).1).1] at hann
      cases hann
    case doomed => exact fun j u hu hs => doomed_after ho hx hhon' hok ht hm hu hs
  · simpa using heard_join hx ha

/-- An engine that a stop found on its way does not connect after it, and enters
its main loop with the cancel byte in the pipe only. -/
def NotLost (before : List Effect) (e : Effect) : Prop :=
  ∀ engine, Stopping before engine →
    e ≠ .published engine .connected ∧ e ≠ .enteredMainloop engine false

theorem notLost_step {t : List Effect} {p p' : Process} {a : Step} {e : Option Effect}
    (hx : Heard t p) (h : daemon.system.step p a = some (p', e)) : ∀ x ∈ e, NotLost t x := by
  intro x hxe engine hs
  rcases Program.step_cases h with ⟨i, o, th, m, rfl, ht, hm, rfl, rfl⟩ | ⟨th, rfl, ha, rfl, rfl⟩
  · have horigin := effect_origin hm hxe
    constructor
    · intro he
      subst he
      cases horigin with
      | published => exact (doomed_effect hm (hx.doomed _ th ht hs)).1 hxe
    · intro he
      cases horigin with
      | enteredMainloop =>
        obtain ⟨rfl, hb⟩ := Effect.enteredMainloop.inj he
        rw [hb] at hxe
        exact (doomed_effect hm (hx.doomed i th ht hs)).2 hxe
      | _ => cases he
  · cases hxe

/-- Both conditions on one run. -/
def cancelsInTime (p : Process) (a : Step) : Bool := honoursCancel p a && stopHeard p a

theorem reach_heard {t : List Effect} {p : Process}
    (h : System.Reach daemon.system cancelsInTime t p) : Heard t p := by
  apply h.invariant (I := Heard)
  · intro p hp
    exact boot_heard hp
  · intro t p a p' e run hx hok hs
    simp only [cancelsInTime, Bool.and_eq_true] at hok
    exact heard_step (reach_owned run) hx hok.1 hok.2 hs

/-- A stop that every engine hears is not lost on the engines that are starting. -/
theorem stop_not_lost (t : List Effect) (p : Process)
    (h : System.Reach daemon.system cancelsInTime t p) : Always NotLost t := by
  apply h.always (P := NotLost)
  intro t p a p' e run _ hs
  exact notLost_step (reach_heard run) hs

/-- The stop finds the engine inside `openconnect_obtain_cookie`, which succeeds;
`openconnect_make_cstp_connection` then finds the byte and fails. -/
def stopInTime : List Step :=
  serve ++ [client 1 "start"] ++ loadStart 1 ++ sections 1 5 ++ sections 2 13 ++
    [client 2 "stop"] ++ sections 3 1 ++ sections 2 11 ++ sections 2 3 { ret := 1 }

theorem stop_not_lost_sample : ∃ t p, System.Reach daemon.system cancelsInTime t p ∧
    since isStop isAccepted t = true ∧ .returned 2 .makeCstpConnection 1 ∈ t ∧
    Always NotLost t := by
  obtain ⟨t, p, hr, hp⟩ := System.exists_reach cancelsInTime stopInTime
    (fun t _ => since isStop isAccepted t && t.contains (.returned 2 .makeCstpConnection 1))
    (boot_init 1000 1000 none []) (by decide)
  simp only [Bool.and_eq_true, List.contains_iff_mem] at hp
  exact ⟨t, p, hr, hp.1, hp.2, stop_not_lost t p hr⟩

/-- The stop comes before the command pipe exists: the engine connects and
enters its main loop. -/
theorem stop_lost : ¬ ∀ t p, System.Reach daemon.system honoursCancel t p → Always NotLost t := by
  intro h
  obtain ⟨t, p, hr, hp⟩ := System.exists_reach honoursCancel
    (serve ++ [client 1 "start"] ++ loadStart 1 ++ sections 1 5 ++ [client 2 "stop"] ++
      sections 3 1 ++ sections 2 39)
    (fun (t : List Effect) _ => t.getLast? = some (.enteredMainloop 2 false) &&
      since isStop isAccepted t.dropLast && !t.dropLast.contains (.enteredMainloop 2 true) &&
      !t.dropLast.contains (.enteredMainloop 2 false)) (boot_init 1000 1000 none []) (by decide)
  simp only [Bool.and_eq_true, decide_eq_true_eq, Bool.not_eq_eq_eq_not, Bool.not_true,
    List.contains_eq_mem, decide_eq_false_iff_not] at hp
  obtain ⟨⟨⟨hlast, hs⟩, hnt⟩, hnf⟩ := hp
  obtain ⟨t', rfl⟩ := List.getLast?_eq_some_iff.mp hlast
  simp only [List.dropLast_concat] at hs hnt hnf
  obtain ⟨t₁, stop, t₂, rfl, hstop, hacc⟩ := (since_iff _ _ _).mp hs
  have hstopping : Stopping (t₁ ++ stop :: t₂) 2 := by
    refine ⟨t₁, stop, t₂, rfl, hstop, hacc, ?_⟩
    intro b hb
    cases b
    · exact hnf (List.mem_append_left _ hb)
    · exact hnt (List.mem_append_left _ hb)
  exact (h _ p hr _ _ [] rfl 2 hstopping).2 rfl

end InodeVpn.Proofs.StopWhileStarting
