import InodeVpn.Proofs.Effects

namespace InodeVpn.Proofs.RequestAnswers
open InodeVpn.Core Lib Daemon Sections Effects

/-- The states of a run, each with the step taken from it. -/
abbrev Moments := List (Process × Step)

/-- The thread `i` ran a section, from `thread` on, at one of the moments. -/
def Did (i : Nat) (moments : Moments) (thread : Thread)
    (what : Process → Outside → Process → Prop) : Prop :=
  ∃ q o q' e, (q, .run i o) ∈ moments ∧ q.threads[i]? = some thread ∧
    daemon.system.step q (.run i o) = some (q', e) ∧ what q o q'

/-- An effect of a call of `engine_start` by the thread `i`. -/
def startsBy (i : Nat) : Effect → Bool
  | .accepted thread _ | .refused thread _ _ | .spawned thread _ _ => thread = i
  | _ => false

/-- What the thread `i` did in `engine_start`. -/
def startsOf (i : Nat) (t : List Effect) : List Effect := t.filter (startsBy i)

/-- What a call of `engine_start` has done before the section `pc`. -/
def begun (i : Nat) (caller : Caller) : StartPc → List Effect
  | .check => []
  | .addSecrets | .tunScript | .spawn _ => [.accepted i caller]
  | .setEngine engine => [.accepted i caller, .spawned i caller engine]

/-- There is an engine in its slot. -/
def Busy (p : Process) : Prop := p.shared.inner.engine.isSome = true

/-- The request has called `request_stop`. -/
def Stops (i : Nat) (r : Request) (moments : Moments) : Prop :=
  Did i moments (.request r .dispatch) fun q _ q' => q'.shared = q.shared.requestStop

/-- The request asks for a start. For a restart the stop was called, and the engine gone then. -/
def Asks (i : Nat) (r : Request) (moments : Moments) (restarting : Bool) : Prop :=
  if restarting then r.method = "restart" ∧ Stops i r moments ∧
    Did i moments (.request r .waitForEngine) fun q _ _ => ¬Busy q
  else r.method = "start"

/-- What `load_config_for_daemon` has answered the request. -/
def Loads (i : Nat) (r : Request) (moments : Moments) (restarting : Bool)
    (result : Except Error Config) : Prop :=
  Did i moments (.request r (.loadConfig restarting)) fun _ o _ => o.config = result

def methods : List String := ["ping", "status", "start", "stop", "restart", "subscribe"]

/-- An answer is true, where `starts` is what its thread has done in `engine_start`. -/
inductive Told (i : Nat) (r : Request) (moments : Moments) (starts : List Effect) : Reply → Prop
  | pong (asks : r.method = "ping") (idle : starts = []) :
      Told i r moments starts (.pong VERSION)
  | status {snapshot : StatusSnapshot} (asks : r.method = "status") (idle : starts = [])
      (real : Did i moments (.request r .dispatch) fun q _ _ =>
        snapshot = q.shared.inner.snapshot) :
      Told i r moments starts (.status snapshot)
  | stopped (asks : r.method = "stop") (idle : starts = []) (done : Stops i r moments) :
      Told i r moments starts .accepted
  | started {restarting : Bool} {config : Config} {script : Option String} {engine : Nat}
      (asks : Asks i r moments restarting) (loads : Loads i r moments restarting (.ok config))
      (done : starts = [.accepted i (.ofRequest r.id restarting),
        .spawned i (.ofRequest r.id restarting) engine])
      (runs : Did i moments (.starting (.ofRequest r.id restarting) config (.spawn script))
        fun _ _ q' => ∃ e, q'.threads[engine]? = some (.engine e) ∧ e.config = config) :
      Told i r moments starts .accepted
  | running {restarting : Bool} {config : Config} (asks : Asks i r moments restarting)
      (loads : Loads i r moments restarting (.ok config))
      (done : starts = [.refused i (.ofRequest r.id restarting) (.ipc "engine already running")])
      (runs : Did i moments (.starting (.ofRequest r.id restarting) config .check)
        fun q _ _ => Busy q) :
      Told i r moments starts (.err (-32001) (Error.ipc "engine already running").toString)
  | spawnFailed {restarting : Bool} {config : Config} {script : Option String} {osError : String}
      (asks : Asks i r moments restarting) (loads : Loads i r moments restarting (.ok config))
      (done : starts = [.accepted i (.ofRequest r.id restarting),
        .refused i (.ofRequest r.id restarting) (.ipc ("spawn engine failed: " ++ osError))])
      (fails : Did i moments (.starting (.ofRequest r.id restarting) config (.spawn script))
        fun _ o _ => o.spawns = false ∧ o.osError = osError) :
      Told i r moments starts
        (.err (-32001) (Error.ipc ("spawn engine failed: " ++ osError)).toString)
  | notLoaded {restarting : Bool} {e : Error} (asks : Asks i r moments restarting)
      (idle : starts = []) (loads : Loads i r moments restarting (.error e)) :
      Told i r moments starts (.err (-32002) e.toString)
  | notStopped (asks : r.method = "restart") (idle : starts = []) (stops : Stops i r moments)
      (runs : Did i moments (.request r .waitForEngine) fun q o _ => Busy q ∧ o.timedOut = true) :
      Told i r moments starts (.err (-32003) "engine did not stop in time")
  | subscribed (asks : r.method = "subscribe") (idle : starts = []) :
      Told i r moments starts .subscribed
  | unknown (asks : r.method ∉ methods) (idle : starts = []) :
      Told i r moments starts (.err (-32601) ("method not found: " ++ r.method))

/-- The sections after a request has been made a subscriber. -/
def subscribing : RequestPc → Bool
  | .subscribed _ | .currentSnapshot _ | .sendSnapshot _ _ | .spawnWriter _ => true
  | _ => false

/-- The thread that a start has created runs an engine with its configuration. -/
def Created (i : Nat) (moments : Moments) (caller : Caller) (config : Config) : StartPc → Prop
  | .setEngine engine => ∃ script, Did i moments (.starting caller config (.spawn script))
      fun _ _ q' => ∃ e, q'.threads[engine]? = some (.engine e) ∧ e.config = config
  | _ => True

/-- Where the thread of a request is. -/
inductive Serving (i : Nat) (r : Request) (moments : Moments) (starts : List Effect) :
    Thread → Prop
  | arrived (idle : starts = []) : Serving i r moments starts (.request r .dispatch)
  | waiting (asks : r.method = "restart") (stops : Stops i r moments) (idle : starts = []) :
      Serving i r moments starts (.request r .waitForEngine)
  | loading {restarting : Bool} (asks : Asks i r moments restarting) (idle : starts = []) :
      Serving i r moments starts (.request r (.loadConfig restarting))
  | subscribing {pc : RequestPc} (asks : r.method = "subscribe") (idle : starts = [])
      (at_pc : subscribing pc = true) : Serving i r moments starts (.request r pc)
  | starting {restarting : Bool} {config : Config} {pc : StartPc}
      (asks : Asks i r moments restarting) (loads : Loads i r moments restarting (.ok config))
      (done : starts = begun i (.ofRequest r.id restarting) pc)
      (created : Created i moments (.ofRequest r.id restarting) config pc) :
      Serving i r moments starts (.starting (.ofRequest r.id restarting) config pc)
  | answered {reply : Reply} (told : Told i r moments starts reply) :
      Serving i r moments starts (.replied ⟨r.id, reply⟩)
  | hungUp : Serving i r moments starts .done

section Serving
variable {i : Nat} {r : Request} {moments moments' : Moments} {starts : List Effect}
  {thread : Thread} {q : Process} {o : Outside} {m : Section}

/-- What was done stays done. -/
theorem Did.mono {what : Process → Outside → Process → Prop} (h : Did i moments thread what)
    (hmore : moments ⊆ moments') : Did i moments' thread what := by
  obtain ⟨q, o, q', e, hmem, hdone⟩ := h
  exact ⟨q, o, q', e, hmore hmem, hdone⟩

theorem Did.now {what : Process → Outside → Process → Prop} (ht : q.threads[i]? = some thread)
    (h : daemon.next o i q.threads.length q.shared thread = some m)
    (hwhat : what q o (q.after i m)) : Did i (moments ++ [(q, .run i o)]) thread what :=
  ⟨q, o, _, _, List.mem_append_right _ List.mem_cons_self, ht, Program.step_run ht h, hwhat⟩

theorem Asks.mono {restarting : Bool} (h : Asks i r moments restarting)
    (hmore : moments ⊆ moments') : Asks i r moments' restarting := by
  cases restarting with
  | false => exact h
  | true => exact ⟨h.1, h.2.1.mono hmore, h.2.2.mono hmore⟩

/-- What was true stays true. -/
theorem Told.mono {reply : Reply} (h : Told i r moments starts reply)
    (hmore : moments ⊆ moments') : Told i r moments' starts reply := by
  cases h with
  | pong asks idle => exact .pong asks idle
  | status asks idle real => exact .status asks idle (real.mono hmore)
  | stopped asks idle done => exact .stopped asks idle (done.mono hmore)
  | started asks loads done runs =>
    exact .started (asks.mono hmore) (loads.mono hmore) done (runs.mono hmore)
  | running asks loads done runs =>
    exact .running (asks.mono hmore) (loads.mono hmore) done (runs.mono hmore)
  | spawnFailed asks loads done fails =>
    exact .spawnFailed (asks.mono hmore) (loads.mono hmore) done (fails.mono hmore)
  | notLoaded asks idle loads => exact .notLoaded (asks.mono hmore) idle (loads.mono hmore)
  | notStopped asks idle stops runs =>
    exact .notStopped asks idle (stops.mono hmore) (runs.mono hmore)
  | subscribed asks idle => exact .subscribed asks idle
  | unknown asks idle => exact .unknown asks idle

theorem Created.mono {caller : Caller} {config : Config} {pc : StartPc}
    (h : Created i moments caller config pc) (hmore : moments ⊆ moments') :
    Created i moments' caller config pc := by
  cases pc with
  | setEngine engine =>
    obtain ⟨script, hdid⟩ := h
    exact ⟨script, hdid.mono hmore⟩
  | _ => trivial

theorem Serving.mono (h : Serving i r moments starts thread) (hmore : moments ⊆ moments') :
    Serving i r moments' starts thread := by
  cases h with
  | arrived idle => exact .arrived idle
  | waiting asks stops idle => exact .waiting asks (stops.mono hmore) idle
  | loading asks idle => exact .loading (asks.mono hmore) idle
  | subscribing asks idle at_pc => exact .subscribing asks idle at_pc
  | starting asks loads done created =>
    exact .starting (asks.mono hmore) (loads.mono hmore) done (created.mono hmore)
  | answered told => exact .answered (told.mono hmore)
  | hungUp => exact .hungUp

/-- The answer to a request, by the result of `engine_start`. -/
def resultReply : Option Error → Reply
  | none => .accepted
  | some e => .err (-32001) e.toString

theorem resume_ofRequest (id : Nat) (restarting : Bool) (result : Option Error) :
    (Caller.ofRequest id restarting).resume result = .replied ⟨id, resultReply result⟩ := by
  cases restarting <;> cases result <;> rfl

/-- The first section of a request. -/
theorem Serving.dispatch (ht : q.threads[i]? = some (.request r .dispatch))
    (h : daemon.next o i q.threads.length q.shared (.request r .dispatch) = some m) :
    Serving i r (moments ++ [(q, .run i o)]) (startsOf i m.effect.toList) m.self := by
  have hnow {what : Process → Outside → Process → Prop} (hwhat : what q o (q.after i m)) :
      Did i (moments ++ [(q, .run i o)]) (.request r .dispatch) what := .now ht h hwhat
  replace h := daemon_next h
  simp only [threadNext, requestNext] at h
  split at h
  · rename_i hping
    cases h
    exact .answered (.pong hping rfl)
  split at h
  · rename_i hstatus
    cases h
    exact .answered (.status hstatus rfl (hnow rfl))
  split at h
  · rename_i hstart
    cases h
    exact .loading (show Asks i r _ false from hstart) rfl
  split at h
  · rename_i hstop
    cases h
    exact .answered (.stopped hstop rfl (hnow rfl))
  split at h
  · rename_i hrestart
    cases h
    exact .waiting hrestart (hnow rfl) rfl
  split at h
  · rename_i hsubscribe
    cases h
    exact .subscribing hsubscribe rfl rfl
  · rename_i hping hstatus hstart hstop hrestart hsubscribe
    cases h
    exact .answered (.unknown (by simp [methods, *]) rfl)

/-- A section of a call of `engine_start` in the name of a request. -/
theorem Serving.start {restarting : Bool} {config : Config} {pc : StartPc}
    (asks : Asks i r moments restarting) (loads : Loads i r moments restarting (.ok config))
    (created : Created i moments (.ofRequest r.id restarting) config pc)
    (ht : q.threads[i]? = some (.starting (.ofRequest r.id restarting) config pc))
    (h : daemon.next o i q.threads.length q.shared
      (.starting (.ofRequest r.id restarting) config pc) = some m) :
    Serving i r (moments ++ [(q, .run i o)])
      (begun i (.ofRequest r.id restarting) pc ++ startsOf i m.effect.toList) m.self := by
  have hnow {what : Process → Outside → Process → Prop} (hwhat : what q o (q.after i m)) :
      Did i (moments ++ [(q, .run i o)]) (.starting (.ofRequest r.id restarting) config pc) what :=
    .now ht h hwhat
  have hmore : moments ⊆ moments ++ [(q, .run i o)] := List.subset_append_left _ _
  replace asks := asks.mono hmore
  replace loads : Loads i r _ restarting (.ok config) := loads.mono hmore
  replace h := daemon_next h
  cases pc with
  | check =>
    simp only [threadNext, startNext] at h
    split at h <;> cases h
    · rename_i hbusy
      rw [resume_ofRequest]
      exact .answered (.running asks loads (by simp [begun, startsOf, startsBy]) (hnow hbusy))
    · exact .starting asks loads (by simp [begun, startsOf, startsBy]) trivial
  | addSecrets =>
    cases h
    exact .starting asks loads rfl trivial
  | tunScript =>
    cases h
    exact .starting asks loads rfl trivial
  | spawn script =>
    simp only [threadNext, startNext] at h
    split at h <;> cases h
    · refine .starting asks loads (by simp [begun, startsOf, startsBy]) ⟨script, hnow ?_⟩
      refine ⟨⟨config, script, some (.update .authenticating none), .cstrings⟩, ?_, rfl⟩
      rw [Pool.getElem?_after ht, if_neg (Nat.lt_irrefl _), Nat.sub_self]
      rfl
    · rename_i hspawns
      rw [resume_ofRequest]
      exact .answered (.spawnFailed asks loads (by simp [begun, startsOf, startsBy])
        (hnow ⟨Bool.eq_false_iff.mpr hspawns, rfl⟩))
  | setEngine engine =>
    obtain ⟨script, hruns⟩ := created
    cases h
    simp only [resume_ofRequest]
    exact .answered (.started asks loads rfl (hruns.mono hmore))

/-- One section of the thread of a request. -/
theorem Serving.next (hs : Serving i r moments starts thread) (ht : q.threads[i]? = some thread)
    (h : daemon.next o i q.threads.length q.shared thread = some m) :
    Serving i r (moments ++ [(q, .run i o)]) (starts ++ startsOf i m.effect.toList) m.self := by
  have hmore : moments ⊆ moments ++ [(q, .run i o)] := List.subset_append_left _ _
  have hnow {what : Process → Outside → Process → Prop} (hwhat : what q o (q.after i m)) :
      Did i (moments ++ [(q, .run i o)]) thread what := .now ht h hwhat
  cases hs with
  | arrived idle =>
    subst idle
    exact Serving.dispatch ht h
  | waiting asks stops idle =>
    subst idle
    replace h := daemon_next h
    simp only [threadNext, requestNext] at h
    split at h
    · rename_i hnone
      cases h
      exact .loading ⟨asks, stops.mono hmore, hnow (by simpa [Busy] using hnone)⟩ rfl
    rename_i hbusy
    replace hbusy : Busy q := by simpa [Busy, Option.isSome_iff_ne_none] using hbusy
    split at h <;> cases h
    · rename_i htimeout
      exact .answered (.notStopped asks rfl (stops.mono hmore) (hnow ⟨hbusy, htimeout⟩))
    · exact .waiting asks (stops.mono hmore) rfl
  | loading asks idle =>
    subst idle
    replace h := daemon_next h
    simp only [threadNext, requestNext] at h
    cases h
    cases hconfig : o.config with
    | ok config =>
      simp only [hconfig] at hnow ⊢
      exact .starting (asks.mono hmore) (hnow hconfig) rfl trivial
    | error e =>
      simp only [hconfig] at hnow ⊢
      exact .answered (.notLoaded (asks.mono hmore) rfl (hnow hconfig))
  | @subscribing pc asks idle at_pc =>
    subst idle
    replace h := daemon_next h
    cases pc with
    | subscribed channel =>
      simp only [threadNext, requestNext] at h
      split at h <;> cases h
      · exact .subscribing asks rfl rfl
      · exact .hungUp
    | currentSnapshot channel =>
      cases h
      exact .subscribing asks rfl rfl
    | sendSnapshot channel snapshot =>
      cases h
      exact .subscribing asks rfl rfl
    | spawnWriter channel =>
      simp only [threadNext, requestNext] at h
      split at h <;> cases h
      · exact .answered (.subscribed asks rfl)
      · exact .hungUp
    | _ => cases at_pc
  | starting asks loads done created =>
    subst done
    exact Serving.start asks loads created ht h
  | answered told => cases daemon_next h
  | hungUp => cases daemon_next h

end Serving

section Runs
variable {i : Nat} {r : Request} {t : List Effect} {p p' : Process} {s : Moments × Process}

/-- A thread that was spawned as an engine. -/
def ranEngine (thread : Thread) : Prop :=
  kind thread = .engine ∨ kind thread = .panicked ∨ kind thread = .over

theorem ranEngine_next {o : Outside} {j fresh : Nat} {d : Shared} {thread : Thread} {m : Section}
    (h : daemon.next o j fresh d thread = some m) (hran : ranEngine thread) :
    ranEngine m.self := by
  have hgoes := (next_kind h).1
  unfold ranEngine at hran ⊢
  rcases hran with hkind | hkind | hkind <;> rw [hkind] at hgoes <;>
    cases hself : kind m.self <;> simp_all [goesOn]

/-- The thread that a start has created. -/
def engineOf : Effect → Option Nat
  | .spawned _ _ engine => some engine
  | _ => none

/-- A section that says it has created an engine has. -/
theorem spawned_child {o : Outside} {j fresh : Nat} {d : Shared} {thread : Thread} {m : Section}
    {engine : Nat} (h : daemon.next o j fresh d thread = some m)
    (he : m.effect.bind engineOf = some engine) :
    engine = fresh ∧ ∃ c ∈ m.spawned, kind c = .engine := by
  obtain ⟨x, hx, hengine⟩ := Option.bind_eq_some_iff.mp he
  have horigin := effect_origin h (Option.mem_def.mpr hx)
  cases horigin with
  | spawned hthread =>
    cases hengine
    refine ⟨rfl, ?_⟩
    replace h := daemon_next h
    subst hthread
    simp only [threadNext, startNext] at h
    split at h <;> cases h
    · exact ⟨_, rfl, rfl⟩
    · cases hx
  | _ => cases hengine

/-- Every engine of a run has a thread of its own, that was not there before. -/
structure Engines (p : Process) (t : List Effect) (p' : Process) : Prop where
  grown : p.threads.length ≤ p'.threads.length
  there : ∀ engine ∈ t.filterMap engineOf, p.threads.length ≤ engine ∧
    ∃ thread, p'.threads[engine]? = some thread ∧ ranEngine thread
  once : (t.filterMap engineOf).Nodup

theorem engines_append (e : Option Effect) :
    (t ++ e.toList).filterMap engineOf = t.filterMap engineOf ++ (e.bind engineOf).toList := by
  rw [List.filterMap_append]
  cases e with
  | none => rfl
  | some x => cases hx : engineOf x <;> simp [hx]

theorem Engines.next {o : Outside} {j : Nat} {q : Process} {u : Thread} {m : Section}
    (h : Engines p t q) (hu : q.threads[j]? = some u)
    (hm : daemon.next o j q.threads.length q.shared u = some m) :
    Engines p (t ++ m.effect.toList) (q.after j m) := by
  have hlength : q.threads.length ≤ (q.after j m).threads.length := by simp [Pool.after]
  have hold : ∀ engine ∈ t.filterMap engineOf, p.threads.length ≤ engine ∧
      ∃ thread, (q.after j m).threads[engine]? = some thread ∧ ranEngine thread := by
    intro engine hmem
    obtain ⟨hfresh, thread, hthread, hran⟩ := h.there engine hmem
    refine ⟨hfresh, ?_⟩
    by_cases hmover : engine = j
    · subst hmover
      rw [hu] at hthread
      cases hthread
      exact ⟨_, Pool.self_after hu m, ranEngine_next hm hran⟩
    · exact ⟨thread, Pool.others_after hu hthread hmover m, hran⟩
  cases hborn : m.effect.bind engineOf with
  | none =>
    have hsame : (t ++ m.effect.toList).filterMap engineOf = t.filterMap engineOf := by
      rw [engines_append, hborn, Option.toList_none, List.append_nil]
    exact ⟨h.grown.trans hlength, hsame ▸ hold, hsame ▸ h.once⟩
  | some engine =>
    obtain ⟨rfl, c, hc, hkind⟩ := spawned_child hm hborn
    have hmore : (t ++ m.effect.toList).filterMap engineOf =
        t.filterMap engineOf ++ [q.threads.length] := by
      rw [engines_append, hborn, Option.toList_some]
    have hchild : (q.after j m).threads[q.threads.length]? = some c := by
      rw [Pool.getElem?_after hu, if_neg (Nat.lt_irrefl _), Nat.sub_self, Option.mem_def.mp hc]
      rfl
    refine ⟨h.grown.trans hlength, ?_, ?_⟩
    · rw [hmore]
      exact List.forall_mem_append.mpr ⟨hold, List.forall_mem_singleton.mpr
        ⟨h.grown, c, hchild, Or.inl hkind⟩⟩
    · rw [hmore, List.nodup_append]
      refine ⟨h.once, List.nodup_cons.mpr ⟨List.not_mem_nil, List.nodup_nil⟩, ?_⟩
      rintro engine hmem _ hlast rfl
      obtain ⟨-, thread, hthread, -⟩ := h.there engine hmem
      rw [List.mem_singleton.mp hlast] at hthread
      have := (List.getElem?_eq_some_iff.mp hthread).choose
      omega

end Runs

/-- `main` has set the daemon up, and a request to restart has come. -/
def asked : Process where
  shared := { Shared.new 1000 1000 none [] with serving := true }
  threads := [.main .waitSignal, .request ⟨7, "restart"⟩ .dispatch]

end InodeVpn.Proofs.RequestAnswers
