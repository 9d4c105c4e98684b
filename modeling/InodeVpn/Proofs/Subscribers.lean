import InodeVpn.Proofs.Publication

namespace InodeVpn.Proofs.Subscribers
open InodeVpn.Core Lib Daemon Sections Publication

/-- The state that the last `state_changed` event on a channel carries. -/
def lastState (c : Channel) : Option SessionState :=
  (c.events.filter fun e => e.method = "state_changed").getLast?.map fun e => e.params.state

/-- The state that the thread's next section queues on the channel. -/
def queues (ch : Nat) (t : Thread) : Option SessionState :=
  match publishingOf t with
  | some (.emit s) => some s.state
  | some _ => none
  | none =>
    match t with
    | .request _ (.sendSnapshot c s) => if c = ch then some s.state else none
    | _ => none

/-- The thread is still to take a snapshot, which it will queue on the channel. -/
def looks (ch : Nat) (t : Thread) : Bool :=
  match publishingOf t with
  | some (.emit _) => false
  | some _ => true
  | none =>
    match t with
    | .request _ (.subscribed c) | .request _ (.currentSnapshot c) => c = ch
    | _ => false

def covers (state : SessionState) (ch : Nat) (t : Thread) : Bool :=
  looks ch t || queues ch t = some state

/-- Some thread will still queue the current state on the channel. -/
def awaited (p : Process) (ch : Nat) : Bool := 0 < p.count (covers p.shared.inner.state ch)

/-- The receiver of the channel is there. -/
def listens (d : Shared) (ch : Nat) : Bool := (d.channels[ch]?).any Channel.alive

/-- The defect: a snapshot is queued later than it is taken, and the state may
have changed and been queued by another thread in between. -/
def notOvertaken (p : Process) : Step → Bool
  | .run i _ =>
    match p.threads[i]? with
    | some t =>
      (List.range p.shared.channels.length).all fun ch =>
        !listens p.shared ch ||
          (queues ch t).all fun state => state = p.shared.inner.state || awaited p ch
    | none => true
  | .arrive _ => true

/-- A channel whose receiver is there is subscribed, and its last event is current
or will be. -/
def Current (p : Process) : Prop :=
  ∀ ch c, p.shared.channels[ch]? = some c → c.alive = true →
    ch ∈ p.shared.subscribers ∧
      (lastState c = some p.shared.inner.state ∨ 0 < p.count (covers p.shared.inner.state ch))

section Channel
variable {d : Shared} {ch c' : Nat} {c : Channel} {e : Event}

theorem lastState_push (h : e.method = "state_changed") :
    lastState { c with events := c.events ++ [e] } = some e.params.state := by
  simp [lastState, h]

theorem lastState_push_other (h : e.method ≠ "state_changed") :
    lastState { c with events := c.events ++ [e] } = lastState c := by
  simp [lastState, h]

/-- A channel after `emit` is a channel before it, with one event more if it is heard. -/
theorem emit_channel {method : String} {params : StatusSnapshot}
    (h : (d.emit method params).channels[ch]? = some c) :
    ∃ old, d.channels[ch]? = some old ∧ old.alive = c.alive ∧
      c = if ch ∈ d.subscribers ∧ old.alive then
        { old with events := old.events ++ [⟨method, params⟩] } else old := by
  simp only [Shared.emit, List.getElem?_mapIdx, Option.map_eq_some_iff] at h
  obtain ⟨old, hold, rfl⟩ := h
  refine ⟨old, hold, ?_, rfl⟩
  split <;> rfl

theorem emit_subscribers {method : String} {params : StatusSnapshot} (hch : ch ∈ d.subscribers)
    (hc : d.channels[ch]? = some c) (ha : c.alive = true) :
    ch ∈ (d.emit method params).subscribers := by
  simp only [Shared.emit, List.mem_filter]
  exact ⟨hch, by simp [hc, ha]⟩

theorem send_channel (h : (d.send c' e).channels[ch]? = some c) :
    ∃ old, d.channels[ch]? = some old ∧ old.alive = c.alive ∧
      c = if c' = ch ∧ old.alive then { old with events := old.events ++ [e] } else old := by
  simp only [Shared.send, List.getElem?_modify, Option.map_eq_map, Option.map_eq_some_iff] at h
  obtain ⟨old, hold, rfl⟩ := h
  refine ⟨old, hold, ?_, ?_⟩
  · by_cases hch : c' = ch
    · simp only [hch, if_true]
      split <;> rfl
    · simp only [hch, if_false]
  · by_cases hch : c' = ch <;> simp [hch]

theorem dropReceiver_channel (h : (d.dropReceiver c').channels[ch]? = some c)
    (ha : c.alive = true) : d.channels[ch]? = some c ∧ ch ≠ c' := by
  simp only [Shared.dropReceiver, List.getElem?_modify, Option.map_eq_map,
    Option.map_eq_some_iff] at h
  obtain ⟨old, hold, rfl⟩ := h
  by_cases hch : c' = ch
  · simp [hch] at ha
  · simp only [hch, ↓reduceIte] at hold ⊢
    exact ⟨hold, fun h => hch h.symm⟩

end Channel

section Step
variable {p : Process} {i ch : Nat} {o : Outside} {th : Thread} {m : Section} {c : Channel}

/-- Whoever was to queue the current state still is, the mover perhaps apart. -/
theorem awaited_kept (ht : p.threads[i]? = some th)
    (hstate : m.shared.inner.state = p.shared.inner.state)
    (hself : covers p.shared.inner.state ch th = true →
      covers p.shared.inner.state ch m.self = true)
    (h : 0 < p.count (covers p.shared.inner.state ch)) :
    0 < (p.after i m).count (covers (p.after i m).shared.inner.state ch) := by
  have hle := Pool.le_count_after (m := m) ht hself
  rw [Pool.after_shared, hstate]
  omega

/-- A thread that will look is waited for on every channel it will queue on. -/
theorem awaited_self (ht : p.threads[i]? = some th)
    (hself : covers m.shared.inner.state ch m.self = true) :
    0 < (p.after i m).count (covers (p.after i m).shared.inner.state ch) :=
  Pool.count_pos (Pool.self_after ht m) hself

/-- What the condition says of the thread that queues a snapshot. -/
theorem notOvertaken_queues (hok : notOvertaken p (.run i o) = true)
    (ht : p.threads[i]? = some th) (hc : p.shared.channels[ch]? = some c)
    (ha : c.alive = true) {state : SessionState} (hq : queues ch th = some state) :
    state = p.shared.inner.state ∨ 0 < p.count (covers p.shared.inner.state ch) := by
  simp only [notOvertaken, ht, List.all_eq_true, List.mem_range] at hok
  have hch := hok ch (List.getElem?_eq_some_iff.mp hc).choose
  simpa [listens, hc, ha, hq, awaited] using hch

/-- Queued is the current state, or a stale one that someone else will put right. -/
theorem queued_current (hok : notOvertaken p (.run i o) = true) (ht : p.threads[i]? = some th)
    (hstate : m.shared.inner.state = p.shared.inner.state)
    (hc : p.shared.channels[ch]? = some c) (ha : c.alive = true) {state : SessionState}
    (hq : queues ch th = some state) (hlooks : looks ch th = false) :
    some state = some (p.after i m).shared.inner.state ∨
      0 < (p.after i m).count (covers (p.after i m).shared.inner.state ch) := by
  by_cases hs : state = p.shared.inner.state
  · left
    rw [Pool.after_shared, hstate, hs]
  · right
    apply awaited_kept ht hstate
    · intro hcov
      simp [covers, hlooks, hq, hs] at hcov
    · exact (notOvertaken_queues hok ht hc ha hq).resolve_left hs

/-- A channel on which the mover itself is still to queue the current state. -/
theorem served_current (ht : p.threads[i]? = some th) (hmem : ch ∈ m.shared.subscribers)
    (hself : covers m.shared.inner.state ch m.self = true) :
    ch ∈ (p.after i m).shared.subscribers ∧
      (lastState c = some (p.after i m).shared.inner.state ∨
        0 < (p.after i m).count (covers (p.after i m).shared.inner.state ch)) :=
  ⟨hmem, Or.inr (awaited_self ht hself)⟩

theorem current_publishing {call : SetState} (hx : Current p)
    (hok : notOvertaken p (.run i o) = true) (ht : p.threads[i]? = some th)
    (hcall : publishingOf th = some call)
    (hnext : setStateNext o i p.shared call = (m.shared, publishingOf m.self, m.effect)) :
    Current (p.after i m) := by
  cases call with
  | update state lastError =>
    simp only [setStateNext, Prod.mk.injEq] at hnext
    intro ch c hc ha
    rw [Pool.after_shared, ← hnext.1] at hc
    apply served_current ht
    · rw [← hnext.1]
      exact (hx ch c hc ha).1
    · simp [covers, looks, ← hnext.2.1]
  | persist =>
    simp only [setStateNext, Prod.mk.injEq] at hnext
    have hfile : m.shared.channels = p.shared.channels ∧
        m.shared.subscribers = p.shared.subscribers := by
      rw [← hnext.1, Shared.persistState]
      split <;> exact ⟨rfl, rfl⟩
    intro ch c hc ha
    rw [Pool.after_shared, hfile.1] at hc
    apply served_current ht
    · rw [hfile.2]
      exact (hx ch c hc ha).1
    · simp [covers, looks, ← hnext.2.1]
  | snapshot =>
    simp only [setStateNext, Prod.mk.injEq] at hnext
    intro ch c hc ha
    rw [Pool.after_shared, ← hnext.1] at hc
    apply served_current ht
    · rw [← hnext.1]
      exact (hx ch c hc ha).1
    · simp [covers, queues, ← hnext.2.1, ← hnext.1, Inner.snapshot]
  | emit s =>
    simp only [setStateNext, Prod.mk.injEq] at hnext
    have hstate : m.shared.inner.state = p.shared.inner.state := by
      rw [← hnext.1, Shared.emit_inner]
    intro ch c hc ha
    rw [Pool.after_shared, ← hnext.1] at hc
    obtain ⟨old, hold, hsame, rfl⟩ := emit_channel hc
    have halive := hsame.trans ha
    obtain ⟨hmem, -⟩ := hx ch old hold halive
    refine ⟨?_, ?_⟩
    · rw [Pool.after_shared, ← hnext.1]
      exact emit_subscribers hmem hold halive
    · rw [if_pos ⟨hmem, halive⟩, lastState_push rfl]
      exact queued_current hok ht hstate hold halive (by simp [queues, hcall])
        (by simp [looks, hcall])

/-- Outside of `set_state`, only a request serving the channel is waited for. -/
theorem covers_serves {state : SessionState} (hp : publishingOf th = none)
    (h : covers state ch th = true) : serves th = some ch := by
  simp only [covers, looks, queues, hp] at h
  cases th with
  | request r pc => cases pc <;> simp_all [serves]
  | _ => simp at h

/-- A channel that the mover does not serve, and whose last event stays. -/
theorem kept_current {old : Channel} (hx : Current p) (ht : p.threads[i]? = some th)
    (hp : publishingOf th = none) (hstate : m.shared.inner.state = p.shared.inner.state)
    (hold : p.shared.channels[ch]? = some old) (ha : old.alive = true)
    (hsubs : ch ∈ p.shared.subscribers → ch ∈ m.shared.subscribers)
    (hlast : lastState c = lastState old) (hserves : serves th ≠ some ch) :
    ch ∈ (p.after i m).shared.subscribers ∧
      (lastState c = some (p.after i m).shared.inner.state ∨
        0 < (p.after i m).count (covers (p.after i m).shared.inner.state ch)) := by
  obtain ⟨hmem, hcur⟩ := hx ch old hold ha
  refine ⟨hsubs hmem, ?_⟩
  rcases hcur with hcur | hcur
  · left
    rw [hlast, hcur, Pool.after_shared, hstate]
  · right
    apply awaited_kept ht hstate ?_ hcur
    intro hcov
    exact absurd (covers_serves hp hcov) hserves

theorem current_quiet (hx : Current p) (hok : notOvertaken p (.run i o) = true)
    (ht : p.threads[i]? = some th) (hp : publishingOf th = none)
    (hm : daemon.next o i p.threads.length p.shared th = some m) : Current (p.after i m) := by
  have hquiet := quiet_step hm hp
  have hstate := hquiet.state
  intro ch c hc ha
  rw [Pool.after_shared] at hc
  cases hquiet.traffic with
  | none channels subscribers quiet =>
    rw [channels] at hc
    exact kept_current hx ht hp hstate hc ha (by rw [subscribers]; exact id) rfl (by simp [quiet])
  | other method params hne channels subscribers quiet =>
    rw [channels] at hc
    obtain ⟨old, hold, hsame, rfl⟩ := emit_channel hc
    have halive := hsame.trans ha
    apply kept_current hx ht hp hstate hold halive
    · intro hmem
      rw [subscribers]
      exact emit_subscribers hmem hold halive
    · split
      · exact lastState_push_other hne
      · rfl
    · simp [quiet]
  | subscribe r channels subscribers quiet self =>
    rw [channels] at hc
    by_cases hlt : ch < p.shared.channels.length
    · rw [List.getElem?_append_left hlt] at hc
      exact kept_current hx ht hp hstate hc ha
        (by rw [subscribers]; exact List.mem_append_left _) rfl (by simp [quiet])
    · -- the new channel: its first snapshot is still to come
      have hch : ch = p.shared.channels.length := by
        have := (List.getElem?_eq_some_iff.mp hc).choose
        simp only [List.length_append, List.length_singleton] at this
        omega
      apply served_current ht
      · rw [subscribers, hch]
        simp
      · simp [self, covers, looks, publishingOf, hch]
  | answered r ch' thread channels subscribers self =>
    rw [channels] at hc
    by_cases hch : ch' = ch
    · subst hch
      apply served_current ht
      · rw [subscribers]
        exact (hx ch' c hc ha).1
      · simp [self, covers, looks, publishingOf]
    · exact kept_current hx ht hp hstate hc ha (by rw [subscribers]; exact id) rfl
        (by simp [thread, serves, hch])
  | looked r ch' thread channels subscribers self =>
    rw [channels] at hc
    by_cases hch : ch' = ch
    · subst hch
      apply served_current ht
      · rw [subscribers]
        exact (hx ch' c hc ha).1
      · simp [self, covers, queues, publishingOf, Inner.snapshot, hstate]
    · exact kept_current hx ht hp hstate hc ha (by rw [subscribers]; exact id) rfl
        (by simp [thread, serves, hch])
  | sent r ch' s thread channels subscribers =>
    rw [channels] at hc
    obtain ⟨old, hold, hsame, rfl⟩ := send_channel hc
    have halive := hsame.trans ha
    by_cases hch : ch' = ch
    · subst hch
      rw [if_pos ⟨rfl, halive⟩, lastState_push rfl]
      refine ⟨?_, queued_current hok ht hstate hold halive ?_ ?_⟩
      · rw [Pool.after_shared, subscribers]
        exact (hx ch' old hold halive).1
      · simp [queues, thread, publishingOf]
      · simp [looks, thread, publishingOf]
    · rw [if_neg (fun h => hch h.1)]
      exact kept_current hx ht hp hstate hold halive (by rw [subscribers]; exact id) rfl
        (by simp [thread, serves, hch])
  | dropped ch' channels subscribers only =>
    rw [channels] at hc
    obtain ⟨hold, hne⟩ := dropReceiver_channel hc ha
    exact kept_current hx ht hp hstate hold ha (by rw [subscribers]; exact id) rfl
      fun h => hne (only ch h)

end Step

theorem current_step {p p' : Process} {a : Step} {e : Option Effect}
    (hx : Current p) (hok : notOvertaken p a = true) (h : daemon.system.step p a = some (p', e)) :
    Current p' := by
  rcases Program.step_cases h with ⟨i, o, th, m, rfl, ht, hm, rfl, -⟩ | ⟨th, rfl, -, rfl, -⟩
  · cases hcall : publishingOf th with
    | none => exact current_quiet hx hok ht hcall hm
    | some call => exact current_publishing hx hok ht hcall (publishing_step hm hcall).1
  · intro ch c hc ha
    obtain ⟨hmem, hcur⟩ := hx ch c hc ha
    refine ⟨hmem, hcur.imp_right fun hpos => ?_⟩
    simp only [Pool.join_shared, Pool.count_join]
    omega

theorem reach_current {t : List Effect} {p : Process}
    (h : System.Reach daemon.system notOvertaken t p) : Current p := by
  apply h.invariant (I := fun _ p => Current p)
  · intro p hp
    obtain ⟨d, t, ⟨_, _, _, _, rfl, rfl⟩, rfl⟩ := hp
    intro ch c hc
    cases hc
  · intro t p a p' e _ hx hok hs
    exact current_step hx hok hs

/-- No call of `set_state` is in progress, and the first snapshot of the
subscriber has been queued. -/
def Settled (p : Process) (ch : Nat) : Prop :=
  ∀ th ∈ p.threads, publishingOf th = none ∧ serves th ≠ some ch

instance (p : Process) (ch : Nat) : Decidable (Settled p ch) :=
  inferInstanceAs (Decidable (∀ th ∈ p.threads, publishingOf th = none ∧ serves th ≠ some ch))

/-- While nobody is the last to queue a snapshot that is out of date, every
subscriber ends up with the state of `Inner`. -/
theorem subscribers_current (t : List Effect) (p : Process)
    (h : System.Reach daemon.system notOvertaken t p) (ch : Nat) (settled : Settled p ch)
    (c : Channel) (hc : p.shared.channels[ch]? = some c) (alive : c.alive = true) :
    lastState c = some p.shared.inner.state := by
  obtain ⟨-, hcur⟩ := reach_current h ch c hc alive
  apply hcur.resolve_right
  intro hpos
  obtain ⟨th, hth, hcov⟩ := List.countP_pos_iff.mp hpos
  obtain ⟨hp, hs⟩ := settled th hth
  exact hs (covers_serves hp hcov)

/-- A client subscribes to the daemon that `connects` leaves, as the thread 4. -/
def subscribes : List Step := [client 2 "subscribe"] ++ sections 4 5

theorem subscribers_current_sample : ∃ t p c, System.Reach daemon.system notOvertaken t p ∧
    p.shared.channels[0]? = some c ∧ p.shared.inner.state = .connected ∧
    lastState c = some p.shared.inner.state := by
  obtain ⟨t, p, hr, hp⟩ := System.exists_reach notOvertaken
    (connects ++ subscribes ++ [.arrive (.network .decide)] ++ sections 6 5 ++
      sections 2 1 { callback := some .reconnected } ++ sections 2 4)
    (fun _ p => decide (Settled p 0) && (p.shared.channels[0]?).any Channel.alive &&
      p.shared.inner.state == .connected)
    (boot_init 1000 1000 none []) (by decide)
  simp only [Bool.and_eq_true, beq_iff_eq, decide_eq_true_eq, Option.any_eq_true] at hp
  obtain ⟨⟨hsettled, c, hc, ha⟩, hstate⟩ := hp
  exact ⟨t, p, c, hr, hc, hstate, subscribers_current t p hr 0 hsettled c hc ha⟩

/-- The network has changed under a connected engine. The watcher has taken its
snapshot when the engine publishes that it is back; the snapshot goes out last. -/
theorem stale_snapshot_last : ¬ ∀ (t : List Effect) (p : Process) (ch : Nat) (c : Channel),
    System.Reachable daemon.system t p → Settled p ch → p.shared.channels[ch]? = some c →
      c.alive = true → lastState c = some p.shared.inner.state := by
  intro h
  obtain ⟨t, p, hr, hp⟩ := System.exists_reach (fun _ _ => true)
    (connects ++ subscribes ++ [.arrive (.network .decide)] ++ sections 6 4 ++
      sections 2 1 { callback := some .reconnected } ++ sections 2 4 ++ sections 6 1)
    (fun _ p => decide (Settled p 0) &&
      (p.shared.channels[0]?).any (fun c => c.alive && lastState c == some .reconnecting) &&
      p.shared.inner.state == .connected)
    (boot_init 1000 1000 none []) (by decide)
  simp only [Bool.and_eq_true, beq_iff_eq, decide_eq_true_eq, Option.any_eq_true] at hp
  obtain ⟨⟨hsettled, c, hc, ha, hlast⟩, hstate⟩ := hp
  have hcur := h t p 0 c hr hsettled hc ha
  rw [hlast, hstate] at hcur
  cases hcur

end InodeVpn.Proofs.Subscribers
