import InodeVpn.Proofs.Cleanup

namespace InodeVpn.Proofs.SessionProtocol
open InodeVpn.Core Lib Daemon Sections Cleanup

/-- What an observer of one engine run sees. -/
inductive Obs
  | published (state : SessionState)
  | returned (call : OcCall) (ret : Int)
  /-- one of the strings for libopenconnect has a NUL -/
  | nulFound
  /-- `stop_requested()`, with its answer -/
  | checked (stopRequested : Bool)
  /-- a call of `schedule_engine_retry` -/
  | scheduled
  | finished
  deriving DecidableEq

/-- What there is to see of a section of the engine `e`. -/
def observe (d : Shared) (e : Engine) (effect : Option Effect) : Option Obs :=
  match effect, e.publishing, e.pc with
  | some (.published _ state), _, _ => some (.published state)
  | some (.returned _ call ret), _, _ => some (.returned call ret)
  | some (.finished _), _, _ => some .finished
  | _, none, .cstrings =>
    match e.cstrings with
    | .ok () => none
    | .error _ => some .nulFound
  | _, none, .session _ (.stopCheck _) | _, none, .session _ .pausedStopCheck
  | _, none, .teardown _ _ (.stopCheck _) => some (.checked d.inner.stopRequested)
  | _, none, .teardown _ _ (.scheduleRetry .lock) => some .scheduled
  | _, _, _ => none

/-- The history of the thread `i` as an engine. -/
def watchEngine (i : Nat) (h : List Obs) (p : Process) (a : Step) (effect : Option Effect) :
    List Obs :=
  match a with
  | .run j _ =>
    if j = i then
      match p.threads[i]? with
      | some (.engine e) => h ++ (observe p.shared e effect).toList
      | _ => h
    else h
  | .arrive _ => h

def observed (i : Nat) : System (List Obs × Process) Step Effect :=
  daemon.system.watched [] (watchEngine i)

/-- The next section of the engine panics, or the spawn of its retry does. -/
def unwinds (o : Outside) (e : Engine) : Bool :=
  panics o e ||
    match e.publishing, e.pc with
    | none, .teardown _ _ (.scheduleRetry (.spawn _ _)) => !o.spawns
    | _, _ => false

/-- The engine does not panic. -/
def calm (i : Nat) (s : List Obs × Process) : Step → Bool
  | .run j o =>
    match s.2.threads[j]? with
    | some (.engine e) => j ≠ i || !unwinds o e
    | _ => true
  | .arrive _ => true

/-- What is published only after libopenconnect calls that have succeeded; a retry is scheduled
only for a session that has failed. -/
def Allowed (before : List Obs) : Obs → Prop
  | .published .connecting => .returned .obtainCookie 0 ∈ before
  | .published .connected =>
    .returned .makeCstpConnection 0 ∈ before ∧ .returned .setupTun 0 ∈ before
  | .scheduled => .published .failed ∈ before
  | _ => True

/-- The states published, the answer of the last check, and the number of calls of
`schedule_engine_retry`. -/
structure Summary where
  states : List SessionState := []
  lastCheck : Option Bool := none
  retries : Nat := 0

def Summary.note (s : Summary) : Obs → Summary
  | .published state => { s with states := s.states ++ [state] }
  | .checked stopRequested => { s with lastCheck := some stopRequested }
  | .scheduled => { s with retries := s.retries + 1 }
  | _ => s

def summary (h : List Obs) : Summary := h.foldl Summary.note {}

/-- The parts of `engine_run` between its publications. -/
inductive Segment
  | login
  | connecting
  | up

/-- What has been published there. -/
def Segment.Published : Segment → List SessionState → Prop
  | .login, states => states = [.authenticating]
  | .connecting, states => states = [.authenticating, .connecting]
  | .up, states => ∃ rest, states = [.authenticating, .connecting, .connected] ++ rest ∧
    ∀ state ∈ rest, state = .connected ∨ state = .reconnecting

/-- A run ends with one terminal state, on the last check, and with its retries. -/
structure Ends (terminal : SessionState) (stopRequested : Bool) (retries : Nat) (s : Summary) :
    Prop where
  states : ∃ segment states, Segment.Published segment states ∧ s.states = states ++ [terminal]
  lastCheck : s.lastCheck = some stopRequested
  retries : s.retries = retries

/-- The history of an engine run from its start to the drop of the guard. -/
structure Follows (h : List Obs) : Prop where
  order : Always Allowed h
  outcome : if .nulFound ∈ h then (summary h).states = [.authenticating, .failed] ∧
      (summary h).retries = 0
    else Ends .stopped true 0 (summary h) ∨ Ends .failed false 1 (summary h)

def segment : SessionPc → Segment
  | .makeCstp | .makingCstp _ | .getIpInfo | .setGateway _ | .setSession _ | .sessionSnapshot
  | .emitSession _ | .setDnsMode | .setPreserveCidrs | .setStateDir | .setupTun => .connecting
  | .mainloop | .inMainloop _ | .statsSnapshot _ | .emitStats _ _ | .stopCheck _
  | .pausedStopCheck => .up
  | _ => .login

/-- A run under way: no terminal state, and no retry. -/
def Underway (s : Summary) : Prop := (∃ segment, Segment.Published segment s.states) ∧ s.retries = 0

/-- What has been seen of an engine that is at `pc` and publishes nothing. -/
def Expected (s : Summary) : EnginePc → Prop
  | .cstrings | .initSsl | .vpninfoNew => Segment.login.Published s.states ∧ s.retries = 0
  | .session _ pc => (segment pc).Published s.states ∧ s.retries = 0
  | .teardown none none .guardDrop => s.states = [.authenticating, .failed] ∧ s.retries = 0
  | .teardown _ (some _) (.scheduleRetry .lock) => Ends .failed false 0 s
  | .teardown _ (some _) (.scheduleRetry (.spawn _ _)) => Ends .failed false 1 s
  | .teardown _ (some _) .guardDrop => Ends .stopped true 0 s ∨ Ends .failed false 1 s
  | .teardown _ (some _) _ => Underway s
  | .teardown _ none (.stopCheck _) | .teardown _ none (.scheduleRetry _) => False
  | .teardown (some _) none _ => Ends .stopped true 0 s
  | _ => False

/-- The state that a call of `set_state` is about to publish. -/
def Summary.withDue (s : Summary) : Option SetState → Summary
  | some (.update state _) => { s with states := s.states ++ [state] }
  | _ => s

/-- The calls that have succeeded on the way to `pc`. -/
def succeeded : EnginePc → List OcCall
  | .session _ pc =>
    match segment pc, pc with
    | .up, _ => [.obtainCookie, .makeCstpConnection, .setupTun]
    | .connecting, .makeCstp | .connecting, .makingCstp _ => [.obtainCookie]
    | .connecting, _ => [.obtainCookie, .makeCstpConnection]
    | .login, .setProtocol | .login, .parseUrl | .login, .setDropUid | .login, .setupCmdPipe
    | .login, .storeCmdFd _ | .login, .obtainCookie | .login, .obtainingCookie _ => []
    | .login, _ => [.obtainCookie]
  | _ => []

/-- Where `engine_run` publishes `Connecting` and `Connected`. -/
def publishesAt : SessionState → EnginePc → Bool
  | .connecting, .session _ .makeCstp => true
  | .connecting, _ => false
  | .connected, .session _ .mainloop | .connected, .session _ (.inMainloop _) => true
  | .connected, _ => false
  | _, _ => true

def isEarlyReturn : EnginePc → Bool
  | .teardown none none .guardDrop => true
  | _ => false

structure Stands (h : List Obs) (e : Engine) : Prop where
  order : Always Allowed h
  expected : Expected ((summary h).withDue e.publishing) e.pc
  succeeded : ∀ call ∈ succeeded e.pc, .returned call 0 ∈ h
  place : ∀ state lastError, e.publishing = some (.update state lastError) →
    publishesAt state e.pc = true
  early : .nulFound ∈ h ↔ isEarlyReturn e.pc = true
  running : .finished ∉ h

section Step
variable {o : Outside} {me fresh : Nat} {d : Shared} {m : Section} {e e' : Engine} {h : List Obs}

@[simp] theorem summary_append (h : List Obs) (x : Obs) :
    summary (h ++ [x]) = (summary h).note x := by
  simp [summary, List.foldl_append]

@[simp] theorem withDue_none (s : Summary) : s.withDue none = s := rfl

/-- The published state is allowed where it is published. -/
theorem Stands.allowed (hx : Stands h e) {state : SessionState} {lastError : Option String}
    (hpub : e.publishing = some (.update state lastError)) : Allowed h (.published state) := by
  have hplace := hx.place state lastError hpub
  cases state with
  | connecting =>
    cases hpc : e.pc with
    | session v pc =>
      rw [hpc] at hplace
      cases pc with
      | makeCstp => exact hx.succeeded _ (by rw [hpc]; simp [SessionProtocol.succeeded, segment])
      | _ => cases hplace
    | _ => rw [hpc] at hplace; cases hplace
  | connected =>
    cases hpc : e.pc with
    | session v pc =>
      rw [hpc] at hplace
      cases pc with
      | mainloop =>
        exact ⟨hx.succeeded _ (by rw [hpc]; simp [SessionProtocol.succeeded, segment]),
          hx.succeeded _ (by rw [hpc]; simp [SessionProtocol.succeeded, segment])⟩
      | inMainloop cancelled =>
        exact ⟨hx.succeeded _ (by rw [hpc]; simp [SessionProtocol.succeeded, segment]),
          hx.succeeded _ (by rw [hpc]; simp [SessionProtocol.succeeded, segment])⟩
      | _ => cases hplace
    | _ => rw [hpc] at hplace; cases hplace
  | _ => exact trivial

/-- A section of a call of `set_state`. -/
theorem Stands.publish (hx : Stands h e) {call : SetState} (hpub : e.publishing = some call)
    (hm : engineNext o me fresh d e = some m) :
    ∃ e', m.self = .engine e' ∧ Stands (h ++ (observe d e m.effect).toList) e' := by
  have hallowed : ∀ state lastError, call = .update state lastError →
      Allowed h (.published state) := fun state lastError hcall => hx.allowed (hcall ▸ hpub)
  obtain ⟨config, tunScript, publishing, pc⟩ := e
  subst hpub
  cases call with
  | update state lastError =>
    cases hm
    have hseen : observe d ⟨config, tunScript, some (.update state lastError), pc⟩
        (some (.published me state)) = some (.published state) := rfl
    rw [hseen, Option.toList_some]
    refine ⟨_, rfl, ?_, ?_, ?_, ?_, ?_, ?_⟩
    · refine hx.order.append (e := some _) ?_
      rintro x ⟨⟩
      exact hallowed state lastError rfl
    · rw [summary_append]
      exact hx.expected
    · exact fun call hcall => List.mem_append_left _ (hx.succeeded call hcall)
    · exact fun state lastError hp => by cases hp
    · rw [List.mem_append, List.mem_singleton, or_iff_left (fun hne => by cases hne)]
      exact hx.early
    · rw [List.mem_append, List.mem_singleton, or_iff_left (fun hne => by cases hne)]
      exact hx.running
  | _ =>
    cases hm
    refine ⟨_, rfl, ?_⟩
    rw [show observe .. = none from rfl, Option.toList_none, List.append_nil]
    refine ⟨hx.order, hx.expected, hx.succeeded, ?_, hx.early, hx.running⟩
    rintro state lastError ⟨⟩

/-- A section between two publications goes on. -/
theorem Stands.next (hx : Stands h e) (hpub : e.publishing = none)
    (hearly : isEarlyReturn e.pc = false) {x : Option Obs} (hallowed : ∀ y ∈ x, Allowed h y)
    (hexpected : ∀ s, Expected s e.pc →
      Expected ((x.toList.foldl Summary.note s).withDue e'.publishing) e'.pc)
    (hsucceeded : ∀ call ∈ SessionProtocol.succeeded e'.pc,
      call ∈ SessionProtocol.succeeded e.pc ∨ x = some (.returned call 0))
    (hplace : ∀ state lastError, e'.publishing = some (.update state lastError) →
      publishesAt state e'.pc = true)
    (hnul : x = some .nulFound ↔ isEarlyReturn e'.pc = true) (hrunning : x ≠ some .finished) :
    Stands (h ++ x.toList) e' := by
  have hwas := hx.expected
  rw [hpub, withDue_none] at hwas
  refine ⟨hx.order.append hallowed, ?_, ?_, hplace, ?_, ?_⟩
  · rw [summary, List.foldl_append]
    exact hexpected _ hwas
  · intro call hcall
    rcases hsucceeded call hcall with hold | rfl
    · exact List.mem_append_left _ (hx.succeeded call hold)
    · exact List.mem_append_right _ (List.mem_singleton_self _)
  · have hno : .nulFound ∉ h := by
      rw [hx.early, hearly]
      exact Bool.false_ne_true
    rw [← hnul, List.mem_append, or_iff_right hno, Option.mem_toList]
  · rw [List.mem_append, Option.mem_toList]
    exact fun hmem => hmem.elim hx.running hrunning

/-- What changes neither the states nor the retries. -/
def isPlain : Option Obs → Bool
  | none | some (.returned _ _) | some (.checked _) => true
  | _ => false

theorem plain_allowed {x : Option Obs} (hplain : isPlain x = true) : ∀ y ∈ x, Allowed h y := by
  rintro y rfl
  cases y <;> first | exact trivial | cases hplain

theorem plain_ne {x : Option Obs} (hplain : isPlain x = true) :
    x ≠ some .nulFound ∧ x ≠ some .finished := by
  constructor <;> rintro rfl <;> cases hplain

theorem plain_underway {x : Option Obs} (hplain : isPlain x = true) {s : Summary}
    (hs : Underway s) : Underway (x.toList.foldl Summary.note s) := by
  cases x with
  | none => exact hs
  | some y => cases y <;> first | exact hs | cases hplain

/-- A section that publishes nothing. -/
theorem Stands.silent (hx : Stands h e) (hpub : e.publishing = none)
    (hearly : isEarlyReturn e.pc = false) {x : Option Obs} (hplain : isPlain x = true)
    (hgoes : e'.publishing = none) (hearly' : isEarlyReturn e'.pc = false)
    (hexpected : ∀ s, Expected s e.pc → Expected (x.toList.foldl Summary.note s) e'.pc)
    (hsucceeded : ∀ call ∈ SessionProtocol.succeeded e'.pc,
      call ∈ SessionProtocol.succeeded e.pc ∨ x = some (.returned call 0)) :
    Stands (h ++ x.toList) e' := by
  refine hx.next hpub hearly (plain_allowed hplain) ?_ hsucceeded ?_ ?_ (plain_ne hplain).2
  · rw [hgoes]
    exact hexpected
  · rw [hgoes]
    rintro state lastError ⟨⟩
  · rw [hearly']
    exact iff_of_false (plain_ne hplain).1 Bool.false_ne_true

/-- The code goes on at `pc`, with no more calls that have succeeded. -/
theorem Stands.stays (hx : Stands h e) (hpub : e.publishing = none)
    (hearly : isEarlyReturn e.pc = false) {x : Option Obs} (hplain : isPlain x = true)
    {pc : EnginePc} (hearly' : isEarlyReturn pc = false)
    (hexpected : ∀ s, Expected s e.pc → Expected (x.toList.foldl Summary.note s) pc)
    (hsucceeded : ∀ call ∈ SessionProtocol.succeeded pc,
      call ∈ SessionProtocol.succeeded e.pc) :
    ∃ e', e.goto pc = .engine e' ∧ Stands (h ++ x.toList) e' :=
  ⟨_, rfl, hx.silent hpub hearly hplain rfl hearly' hexpected
    fun call hcall => Or.inl (hsucceeded call hcall)⟩

/-- The closure returns an error. -/
theorem Stands.fails (hx : Stands h e) (hpub : e.publishing = none)
    (hearly : isEarlyReturn e.pc = false) (hunderway : ∀ s, Expected s e.pc → Underway s)
    {x : Option Obs} (hplain : isPlain x = true) (v : Option Nat) (message : String) :
    ∃ e', e.fail v message = .engine e' ∧ Stands (h ++ x.toList) e' := by
  have hgoes : ∀ s, Expected s e.pc → Underway (x.toList.foldl Summary.note s) :=
    fun s hs => plain_underway hplain (hunderway s hs)
  refine ⟨_, rfl, hx.silent hpub hearly hplain rfl ?_ ?_ ?_⟩
  · cases v <;> rfl
  · cases v <;> exact hgoes
  · exact fun call hcall => absurd hcall List.not_mem_nil

theorem session_underway {v : Nat} {pc : SessionPc} (s : Summary)
    (hs : Expected s (.session v pc)) : Underway s := ⟨⟨_, hs.1⟩, hs.2⟩

/-- `set_state` is called. -/
theorem Stands.publishes (hx : Stands h e) (hpub : e.publishing = none)
    (hearly : isEarlyReturn e.pc = false) {x : Option Obs} (hplain : isPlain x = true)
    {state : SessionState} {lastError : Option String} {pc : EnginePc}
    (hplace : publishesAt state pc = true) (hearly' : isEarlyReturn pc = false)
    (hexpected : ∀ s, Expected s e.pc →
      Expected ((x.toList.foldl Summary.note s).note (.published state)) pc)
    (hsucceeded : ∀ call ∈ SessionProtocol.succeeded pc,
      call ∈ SessionProtocol.succeeded e.pc ∨ x = some (.returned call 0)) :
    ∃ e', e.publish state lastError pc = .engine e' ∧ Stands (h ++ x.toList) e' := by
  refine ⟨_, rfl, hx.next hpub hearly (plain_allowed hplain) hexpected hsucceeded ?_ ?_
    (plain_ne hplain).2⟩
  · rintro _ _ ⟨⟩
    exact hplace
  · rw [hearly']
    exact iff_of_false (plain_ne hplain).1 Bool.false_ne_true

theorem login_append {states : List SessionState} (h : Segment.login.Published states) :
    Segment.connecting.Published (states ++ [.connecting]) := by
  rw [Segment.Published] at h
  rw [h]
  rfl

theorem connecting_append {states : List SessionState}
    (h : Segment.connecting.Published states) : Segment.up.Published (states ++ [.connected]) := by
  rw [Segment.Published] at h
  rw [h]
  exact ⟨[], rfl, fun state hstate => absurd hstate List.not_mem_nil⟩

/-- The session stays up. -/
theorem up_append {states : List SessionState} (hup : Segment.up.Published states)
    {state : SessionState} (hstate : state = .connected ∨ state = .reconnecting) :
    Segment.up.Published (states ++ [state]) := by
  obtain ⟨rest, rfl, hrest⟩ := hup
  refine ⟨rest ++ [state], by rw [List.append_assoc], ?_⟩
  intro x hx
  rcases List.mem_append.mp hx with hold | hnew
  · exact hrest x hold
  · rwa [List.mem_singleton.mp hnew]

/-- The last check decides between `Stopped` and `Failed`. -/
theorem underway_ends {s : Summary} (hs : Underway s) (terminal : SessionState)
    (stopRequested : Bool) : Ends terminal stopRequested 0
      ((s.note (.checked stopRequested)).note (.published terminal)) := by
  obtain ⟨⟨segment, hpublished⟩, hretries⟩ := hs
  exact ⟨⟨segment, s.states, hpublished, rfl⟩, rfl, hretries⟩

/-- The loop ends with a stop. -/
theorem Stands.stops {config : Config} {tunScript : Option String} {v : Nat} {pc : SessionPc}
    (hx : Stands h ⟨config, tunScript, none, .session v pc⟩)
    (hpc : (∃ ret, pc = .stopCheck ret) ∨ pc = .pausedStopCheck)
    (hstop : d.inner.stopRequested = true) :
    ∃ e', Engine.publish ⟨config, tunScript, none, .session v pc⟩ .stopped none
        (.teardown (some v) none .setHealthStop) = .engine e' ∧
      Stands (h ++ (observe d ⟨config, tunScript, none, .session v pc⟩ none).toList) e' := by
  have hseen : observe d ⟨config, tunScript, none, .session v pc⟩ none = some (.checked true) := by
    rw [← hstop]
    rcases hpc with ⟨ret, rfl⟩ | rfl <;> rfl
  rw [hseen]
  refine hx.publishes rfl rfl rfl rfl rfl ?_ fun call hcall => absurd hcall List.not_mem_nil
  rintro s ⟨hstates, hretries⟩
  exact underway_ends ⟨⟨_, hstates⟩, hretries⟩ _ _

/-- A call of libopenconnect that has to return 0. -/
theorem Stands.call {config : Config} {tunScript : Option String} {v : Nat} {pc next : SessionPc}
    (hx : Stands h ⟨config, tunScript, none, .session v pc⟩) {call : OcCall} {ret : Int}
    {message : String} (hsegment : segment next = segment pc)
    (hcalls : ∀ c ∈ SessionProtocol.succeeded (.session v next),
      c ∈ SessionProtocol.succeeded (.session v pc) ∨ c = call) :
    ∃ e', (if ret ≠ 0 then Engine.fail ⟨config, tunScript, none, .session v pc⟩ (some v) message
        else Engine.goto ⟨config, tunScript, none, .session v pc⟩ (.session v next)) = .engine e' ∧
      Stands (h ++ [.returned call ret]) e' := by
  split
  · exact hx.fails (x := some _) rfl rfl session_underway rfl _ _
  · rename_i hret
    rw [not_not] at hret
    refine ⟨_, rfl, hx.silent (x := some _) rfl rfl rfl rfl rfl ?_ ?_⟩
    · intro s hs
      exact ⟨hsegment ▸ hs.1, hs.2⟩
    · intro c hc
      refine (hcalls c hc).imp_right fun hnew => ?_
      rw [hnew, hret]

theorem login_stands {config : Config} {tunScript : Option String} {v : Nat} {pc : SessionPc}
    (hx : Stands h ⟨config, tunScript, none, .session v pc⟩) (hsegment : segment pc = .login)
    (hcalm : panics o ⟨config, tunScript, none, .session v pc⟩ = false)
    (hm : sessionNext o me fresh d ⟨config, tunScript, none, .session v pc⟩ v pc = some m) :
    ∃ e', m.self = .engine e' ∧
      Stands (h ++ (observe d ⟨config, tunScript, none, .session v pc⟩ m.effect).toList) e' := by
  cases pc with
  | setProtocol | parseUrl =>
    cases hm
    exact hx.call rfl fun call hcall => Or.inl hcall
  | setupCmdPipe =>
    simp only [sessionNext] at hm
    split at hm
    · cases hm
      exact hx.fails rfl rfl session_underway rfl _ _
    · split at hm
      · cases hm
        exact hx.stays rfl rfl rfl rfl (fun s hs => hs) fun call hcall => hcall
      · cases hm
  | obtainingCookie cancelled =>
    cases hm
    exact hx.call rfl fun call hcall => Or.inr (List.mem_singleton.mp hcall)
  | spawnHealth =>
    simp only [panics, Option.isNone_none, Bool.true_and, Bool.or_eq_false_iff,
      Bool.not_eq_false'] at hcalm
    simp only [sessionNext, hcalm.2, if_true] at hm
    cases hm
    exact hx.stays rfl rfl rfl rfl (fun s hs => hs) fun call hcall => hcall
  | storeHealthThread handle =>
    cases hm
    refine hx.publishes rfl rfl rfl rfl rfl ?_ fun call hcall => Or.inl hcall
    rintro s ⟨hstates, hretries⟩
    exact ⟨login_append hstates, hretries⟩
  | setDropUid | storeCmdFd | obtainCookie | getCookie | setCookie | clearHealthStop =>
    simp only [sessionNext] at hm
    repeat' split at hm
    all_goals cases hm
    all_goals exact hx.stays rfl rfl rfl rfl (fun s hs => hs) fun call hcall => hcall
  | _ => cases hsegment

theorem connecting_stands {config : Config} {tunScript : Option String} {v : Nat}
    {pc : SessionPc} (hx : Stands h ⟨config, tunScript, none, .session v pc⟩)
    (hsegment : segment pc = .connecting)
    (hcalm : panics o ⟨config, tunScript, none, .session v pc⟩ = false)
    (hm : sessionNext o me fresh d ⟨config, tunScript, none, .session v pc⟩ v pc = some m) :
    ∃ e', m.self = .engine e' ∧
      Stands (h ++ (observe d ⟨config, tunScript, none, .session v pc⟩ m.effect).toList) e' := by
  cases pc with
  | makingCstp cancelled =>
    cases hm
    refine hx.call rfl fun call hcall => ?_
    rcases List.mem_cons.mp hcall with rfl | hnew
    · exact Or.inl (List.mem_singleton_self _)
    · exact Or.inr (List.mem_singleton.mp hnew)
  | setPreserveCidrs =>
    simp only [panics, Option.isNone_none, Bool.true_and, Bool.or_eq_false_iff] at hcalm
    simp only [sessionNext] at hm
    split at hm
    · cases hm
      exact hx.stays rfl rfl rfl rfl (fun s hs => hs) fun call hcall => hcall
    · rename_i hcidrs
      split at hm
      · rename_i hnul
        simp [hcidrs, hnul] at hcalm
      · cases hm
        exact hx.stays rfl rfl rfl rfl (fun s hs => hs) fun call hcall => hcall
  | setupTun =>
    simp only [sessionNext] at hm
    split at hm
    · cases hm
      exact hx.fails rfl rfl session_underway rfl _ _
    · split at hm
      · cases hm
        exact hx.fails rfl rfl session_underway rfl _ _
      · rename_i hret
        rw [not_not] at hret
        cases hm
        refine hx.publishes rfl rfl rfl rfl rfl ?_ ?_
        · rintro s ⟨hstates, hretries⟩
          exact ⟨connecting_append hstates, hretries⟩
        · intro call hcall
          have hsplit : call ∈ [.obtainCookie, .makeCstpConnection] ++ [OcCall.setupTun] := hcall
          rcases List.mem_append.mp hsplit with hold | hnew
          · exact Or.inl hold
          · rw [List.mem_singleton.mp hnew, ← hret]
            exact Or.inr rfl
  | makeCstp | getIpInfo | setGateway | setSession | sessionSnapshot | emitSession | setDnsMode
  | setStateDir =>
    simp only [sessionNext] at hm
    repeat' split at hm
    all_goals cases hm
    all_goals exact hx.stays rfl rfl rfl rfl (fun s hs => hs) fun call hcall => hcall
  | _ => cases hsegment

theorem up_stands {config : Config} {tunScript : Option String} {v : Nat} {pc : SessionPc}
    (hx : Stands h ⟨config, tunScript, none, .session v pc⟩) (hsegment : segment pc = .up)
    (hm : sessionNext o me fresh d ⟨config, tunScript, none, .session v pc⟩ v pc = some m) :
    ∃ e', m.self = .engine e' ∧
      Stands (h ++ (observe d ⟨config, tunScript, none, .session v pc⟩ m.effect).toList) e' := by
  cases pc with
  | inMainloop cancelled =>
    cases hcallback : o.callback with
    | some callback =>
      cases callback with
      | reconnected =>
        simp only [sessionNext, hcallback] at hm
        cases hm
        refine hx.publishes rfl rfl rfl rfl rfl ?_ fun call hcall => Or.inl hcall
        rintro s ⟨hup, hretries⟩
        exact ⟨up_append hup (Or.inl rfl), hretries⟩
      | stats stats =>
        simp only [sessionNext, hcallback] at hm
        cases hm
        exact hx.stays rfl rfl rfl rfl (fun s hs => hs) fun call hcall => hcall
    | none =>
      simp only [sessionNext, hcallback] at hm
      cases hm
      exact hx.stays rfl rfl rfl rfl (fun s hs => hs) fun call hcall => hcall
  | stopCheck ret =>
    simp only [sessionNext] at hm
    split at hm
    · rename_i hstop
      cases hm
      exact hx.stops (Or.inl ⟨_, rfl⟩) hstop
    · split at hm
      · cases hm
        exact hx.stays rfl rfl rfl rfl (fun s hs => hs) fun call hcall => hcall
      · cases hm
        exact hx.fails rfl rfl session_underway rfl _ _
  | pausedStopCheck =>
    simp only [sessionNext] at hm
    split at hm
    · rename_i hstop
      cases hm
      exact hx.stops (Or.inr rfl) hstop
    · cases hm
      refine hx.publishes rfl rfl rfl rfl rfl ?_ fun call hcall => Or.inl hcall
      rintro s ⟨hup, hretries⟩
      exact ⟨up_append hup (Or.inr rfl), hretries⟩
  | mainloop | statsSnapshot | emitStats =>
    cases hm
    exact hx.stays rfl rfl rfl rfl (fun s hs => hs) fun call hcall => hcall
  | _ => cases hsegment

theorem session_stands (hx : Stands h e) {v : Nat} {pc : SessionPc} (hpub : e.publishing = none)
    (hpc : e.pc = .session v pc) (hcalm : panics o e = false)
    (hm : sessionNext o me fresh d e v pc = some m) :
    ∃ e', m.self = .engine e' ∧ Stands (h ++ (observe d e m.effect).toList) e' := by
  obtain ⟨config, tunScript, publishing, place⟩ := e
  subst hpub
  subst hpc
  cases hsegment : segment pc with
  | login => exact login_stands hx hsegment hcalm hm
  | connecting => exact connecting_stands hx hsegment hcalm hm
  | up => exact up_stands hx hsegment hm

theorem note_states {s : Summary} (x : Obs) {state : SessionState}
    (h : state ∈ (s.note x).states) : state ∈ s.states ∨ x = .published state := by
  cases x with
  | published state' =>
    rcases List.mem_append.mp h with hold | hnew
    · exact Or.inl hold
    · rw [List.mem_singleton.mp hnew]
      exact Or.inr rfl
  | _ => exact Or.inl h

/-- The summary holds what has been published. -/
theorem summary_published {state : SessionState} (hstate : state ∈ (summary h).states) :
    .published state ∈ h := by
  induction h using List.reverseRecOn with
  | nil => cases hstate
  | append_singleton h x ih =>
    rw [summary_append] at hstate
    rcases note_states x hstate with hold | rfl
    · exact List.mem_append_left _ (ih hold)
    · exact List.mem_append_right _ (List.mem_singleton_self _)

/-- `schedule_engine_retry`, after `Failed`. -/
theorem schedule_stands {config : Config} {tunScript : Option String} {v : Option Nat}
    {failure : Error} {pc : SchedulePc}
    (hx : Stands h ⟨config, tunScript, none, .teardown v (some failure) (.scheduleRetry pc)⟩)
    (hcalm : ∀ generation delay, pc = .spawn generation delay → o.spawns = true)
    (hm : teardownNext o me d ⟨config, tunScript, none, .teardown v (some failure)
      (.scheduleRetry pc)⟩ v (some failure) (.scheduleRetry pc) = some m) :
    ∃ e', m.self = .engine e' ∧ Stands (h ++ (observe d ⟨config, tunScript, none,
      .teardown v (some failure) (.scheduleRetry pc)⟩ m.effect).toList) e' := by
  cases pc with
  | lock =>
    have hexpected : Ends .failed false 0 (summary h) := by cases v <;> exact hx.expected
    have hallowed : ∀ y ∈ some Obs.scheduled, Allowed h y := by
      rintro y ⟨⟩
      obtain ⟨segment, states, -, hstates⟩ := hexpected.states
      exact summary_published (hstates ▸ List.mem_append_right _ (List.mem_singleton_self _))
    have hgoes : ∀ s, Ends .failed false 0 s → Ends .failed false 1 (s.note .scheduled) :=
      fun s hs => ⟨hs.states, hs.lastCheck, congrArg (· + 1) hs.retries⟩
    have hstands : ∀ pc : TeardownPc, isEarlyReturn (.teardown v (some failure) pc) = false →
        (∀ s, Ends .failed false 1 s → Expected s (.teardown v (some failure) pc)) →
        Stands (h ++ [.scheduled]) ⟨config, tunScript, none, .teardown v (some failure) pc⟩ := by
      intro pc hearly hpc
      refine hx.next (x := some .scheduled) rfl ?_ hallowed ?_
        (fun call hcall => absurd hcall List.not_mem_nil) (fun _ _ hne => by cases hne) ?_
        (fun hne => by cases hne)
      · cases v <;> rfl
      · cases v <;> exact fun s hs => hpc _ (hgoes s hs)
      · rw [hearly]
        exact iff_of_false (fun hne => by cases hne) Bool.false_ne_true
    simp only [teardownNext, scheduleNext] at hm
    split at hm
    · rename_i heq
      split at heq
      · cases heq
      · cases heq
        cases hm
        exact ⟨_, rfl, hstands _ (by cases v <;> rfl) (by cases v <;> exact fun s hs => hs)⟩
    · rename_i heq
      split at heq
      · cases heq
        cases hm
        exact ⟨_, rfl, hstands _ (by cases v <;> rfl) (by cases v <;> exact fun s hs => Or.inr hs)⟩
      · cases heq
    all_goals
      rename_i heq
      split at heq <;> cases heq
  | spawn generation delay =>
    have hspawns := hcalm generation delay rfl
    simp only [teardownNext, scheduleNext, hspawns, if_true] at hm
    cases hm
    refine ⟨_, rfl, ?_⟩
    refine hx.silent rfl ?_ rfl rfl ?_ ?_ fun call hcall => absurd hcall List.not_mem_nil
    all_goals cases v
    all_goals first
      | rfl
      | exact fun s hs => Or.inr hs

/-- The last check of a session that has failed. -/
theorem Stands.ends {config : Config} {tunScript : Option String} {v : Option Nat}
    {failure error : Error}
    (hx : Stands h ⟨config, tunScript, none, .teardown v (some failure) (.stopCheck error)⟩)
    {stop : Bool} (hstop : d.inner.stopRequested = stop) {terminal : SessionState}
    {lastError : Option String} {pc : TeardownPc}
    (hplace : publishesAt terminal (.teardown v (some failure) pc) = true)
    (hexpected : ∀ s, Ends terminal stop 0 s → Expected s (.teardown v (some failure) pc)) :
    ∃ e', Engine.publish ⟨config, tunScript, none, .teardown v (some failure) (.stopCheck error)⟩
        terminal lastError (.teardown v (some failure) pc) = .engine e' ∧
      Stands (h ++ (observe d ⟨config, tunScript, none,
        .teardown v (some failure) (.stopCheck error)⟩ none).toList) e' := by
  have hseen : observe d ⟨config, tunScript, none, .teardown v (some failure) (.stopCheck error)⟩
      none = some (.checked stop) := by
    rw [← hstop]
    rfl
  have hunderway : ∀ s, Expected s (.teardown v (some failure) (.stopCheck error)) →
      Underway s := by
    cases v <;> exact fun s hs => hs
  rw [hseen]
  refine hx.publishes rfl ?_ rfl hplace ?_ ?_ fun call hcall => absurd hcall List.not_mem_nil
  · cases v <;> rfl
  · cases v <;> rfl
  · exact fun s hs => hexpected _ (underway_ends (hunderway s hs) _ _)

theorem teardown_stands (hx : Stands h e) {v : Option Nat} {result : Option Error}
    {pc : TeardownPc} (hpub : e.publishing = none) (hpc : e.pc = .teardown v result pc)
    (hfinish : pc ≠ .guardDrop)
    (hcalm : ∀ generation delay, pc = .scheduleRetry (.spawn generation delay) → o.spawns = true)
    (hm : teardownNext o me d e v result pc = some m) :
    ∃ e', m.self = .engine e' ∧ Stands (h ++ (observe d e m.effect).toList) e' := by
  obtain ⟨config, tunScript, publishing, place⟩ := e
  subst hpub
  subst hpc
  cases pc with
  | guardDrop => exact absurd rfl hfinish
  | stopCheck error =>
    cases result with
    | none => cases v <;> exact False.elim hx.expected
    | some failure =>
      simp only [teardownNext] at hm
      split at hm
      · rename_i hstop
        cases hm
        exact hx.ends hstop rfl fun s hs => by cases v <;> exact Or.inl hs
      · rename_i hstop
        cases hm
        exact hx.ends (Bool.eq_false_iff.mpr hstop) rfl fun s hs => by cases v <;> exact hs
  | scheduleRetry pc =>
    cases result with
    | none => cases v <;> exact False.elim hx.expected
    | some failure => exact schedule_stands hx (fun g delay h => hcalm g delay (h ▸ rfl)) hm
  | free =>
    cases hm
    cases v with
    | none =>
      cases result with
      | none => exact False.elim hx.expected
      | some error =>
        exact hx.stays rfl rfl rfl rfl (fun s hs => hs) fun call hcall => hcall
    | some v =>
      cases result <;> exact hx.stays rfl rfl rfl rfl (fun s hs => hs) fun call hcall => hcall
  | takeHealth =>
    cases hm
    cases d.healthThread <;> cases v <;> cases result <;>
      exact hx.stays rfl rfl rfl rfl (fun s hs => hs) fun call hcall => hcall
  | _ =>
    simp only [teardownNext] at hm
    repeat' split at hm
    all_goals cases hm
    all_goals
      cases v <;> cases result <;>
        exact hx.stays rfl rfl rfl rfl (fun s hs => hs) fun call hcall => hcall

theorem login_underway (s : Summary)
    (hs : Segment.login.Published s.states ∧ s.retries = 0) : Underway s := ⟨⟨_, hs.1⟩, hs.2⟩

/-- The strings for libopenconnect are checked before anything else. -/
theorem cstrings_stands {config : Config} {tunScript : Option String}
    (hx : Stands h ⟨config, tunScript, none, .cstrings⟩) :
    ∃ e', (match Engine.cstrings ⟨config, tunScript, none, .cstrings⟩ with
        | .ok () => Engine.goto ⟨config, tunScript, none, .cstrings⟩ .initSsl
        | .error error => Engine.publish ⟨config, tunScript, none, .cstrings⟩ .failed
          (some error.toString) (.teardown none none .guardDrop)) = .engine e' ∧
      Stands (h ++ (observe d ⟨config, tunScript, none, .cstrings⟩ none).toList) e' := by
  have hseen : observe d ⟨config, tunScript, none, .cstrings⟩ none =
      match Engine.cstrings ⟨config, tunScript, none, .cstrings⟩ with
      | .ok () => none
      | .error _ => some .nulFound := rfl
  rw [hseen]
  cases Engine.cstrings ⟨config, tunScript, none, .cstrings⟩ with
  | ok u =>
    exact hx.stays rfl rfl rfl rfl (fun s hs => hs) fun call hcall => hcall
  | error error =>
    refine ⟨_, rfl, hx.next rfl rfl ?_ ?_ (fun call hcall => absurd hcall List.not_mem_nil) ?_ ?_
      (fun hne => by cases hne)⟩
    · rintro y ⟨⟩
      exact trivial
    · rintro s ⟨hstates, hretries⟩
      rw [Segment.Published] at hstates
      have hboth : s.states ++ [.failed] = [.authenticating, .failed] := by
        rw [hstates]
        rfl
      exact ⟨hboth, hretries⟩
    · rintro _ _ ⟨⟩
      rfl
    · exact iff_of_true rfl rfl

theorem engineRun_stands (hx : Stands h e) (hpub : e.publishing = none)
    (hcalm : panics o e = false)
    (hretry : ∀ v result generation delay,
      e.pc = .teardown v result (.scheduleRetry (.spawn generation delay)) → o.spawns = true)
    (hfinish : ∀ v result, e.pc ≠ .teardown v result .guardDrop)
    (hm : engineRunNext o me fresh d e = some m) :
    ∃ e', m.self = .engine e' ∧ Stands (h ++ (observe d e m.effect).toList) e' := by
  have hquiet : ¬(o.panics ∧ e.pc.mayPanic) := by
    rintro ⟨hpanics, hmay⟩
    simp [panics, hpub, hpanics, hmay] at hcalm
  unfold engineRunNext at hm
  rw [if_neg hquiet] at hm
  obtain ⟨config, tunScript, publishing, pc⟩ := e
  subst hpub
  cases pc with
  | cstrings =>
    cases hm
    exact cstrings_stands hx
  | initSsl =>
    cases hm
    split
    · exact hx.fails rfl rfl login_underway rfl _ _
    · exact hx.stays rfl rfl rfl rfl (fun s hs => hs) fun call hcall => hcall
  | vpninfoNew =>
    simp only at hm
    split at hm
    · cases hm
      exact hx.fails rfl rfl login_underway rfl _ _
    · cases hm
      exact hx.stays rfl rfl rfl rfl (fun s hs => hs) fun call hcall => hcall
  | session v pc => exact session_stands hx rfl rfl hcalm hm
  | teardown v result pc =>
    refine teardown_stands hx rfl rfl (fun hdrop => hfinish v result (hdrop ▸ rfl)) ?_ hm
    exact fun generation delay hspawn => hretry v result generation delay (hspawn ▸ rfl)
  | unwind origin => exact False.elim hx.expected

/-- The guard is dropped. -/
theorem Stands.finishes (hx : Stands h e) (hpub : e.publishing = none) {v : Option Nat}
    {result : Option Error} (hpc : e.pc = .teardown v result .guardDrop) :
    Follows (h ++ [.finished]) := by
  have hwas := hx.expected
  have hearly := hx.early
  rw [hpub, withDue_none, hpc] at hwas
  rw [hpc] at hearly
  have horder : Always Allowed (h ++ [.finished]) := by
    refine hx.order.append (e := some _) ?_
    rintro y ⟨⟩
    exact trivial
  refine ⟨horder, ?_⟩
  rw [summary_append]
  have hnul : Obs.nulFound ∈ h ++ [.finished] ↔ Obs.nulFound ∈ h := by simp
  cases v with
  | none =>
    cases result with
    | none =>
      rw [if_pos (hnul.mpr (hearly.mpr rfl))]
      exact hwas
    | some error =>
      rw [if_neg fun hmem => by cases hearly.mp (hnul.mp hmem)]
      exact hwas
  | some v =>
    rw [if_neg fun hmem => by cases hearly.mp (hnul.mp hmem)]
    cases result with
    | none => exact Or.inl hwas
    | some error => exact hwas

/-- A section of the engine goes on, or is its last. -/
theorem engine_protocol (hx : Stands h e) (hcalm : unwinds o e = false)
    (hm : engineNext o me fresh d e = some m) :
    (∃ e', m.self = .engine e' ∧ Stands (h ++ (observe d e m.effect).toList) e') ∨
      m.self = .done ∧ Follows (h ++ (observe d e m.effect).toList) := by
  simp only [unwinds, Bool.or_eq_false_iff] at hcalm
  cases hpub : e.publishing with
  | some call => exact Or.inl (hx.publish hpub hm)
  | none =>
    simp only [engineNext, hpub] at hm
    by_cases hfinish : ∃ v result, e.pc = .teardown v result .guardDrop
    · obtain ⟨v, result, hpc⟩ := hfinish
      have hfollows := hx.finishes hpub hpc
      obtain ⟨config, tunScript, publishing, pc⟩ := e
      subst hpub
      subst hpc
      rw [engineRunNext, if_neg fun hpanics => by cases hpanics.2] at hm
      cases hm
      exact Or.inr ⟨rfl, hfollows⟩
    · refine Or.inl (engineRun_stands hx hpub hcalm.1 ?_ ?_ hm)
      · intro v result generation delay hpc
        simpa [hpub, hpc] using hcalm.2
      · exact fun v result hpc => hfinish ⟨v, result, hpc⟩

end Step

/-- The history of the thread, as what it is now. -/
def Protocol (h : List Obs) : Option Thread → Prop
  | none => h = []
  | some (.engine e) => Stands h e
  | some _ => h = [] ∨ Follows h

section Run
variable {i j : Nat} {o : Outside} {p p' : Process} {m : Section} {t : Thread} {e : Engine}
  {h : List Obs}

theorem protocol_other {h : List Obs} {t : Thread} (hk : kind t ≠ .engine) :
    Protocol h (some t) ↔ h = [] ∨ Follows h := by
  cases t <;> first | exact Iff.rfl | exact absurd rfl hk

/-- An engine thread starts with nothing seen of it. -/
theorem protocol_spawned {t : Thread} (hspawn : canSpawn t = true) : Protocol [] (some t) := by
  cases t with
  | engine e =>
    obtain ⟨config, tunScript, publishing, pc⟩ := e
    obtain ⟨rfl, rfl⟩ := canSpawn_engine hspawn
    refine ⟨always_nil, ⟨rfl, rfl⟩, fun call hcall => absurd hcall List.not_mem_nil, ?_, ?_,
      List.not_mem_nil⟩
    · rintro state lastError ⟨⟩
      rfl
    · exact iff_of_false List.not_mem_nil Bool.false_ne_true
  | _ => exact Or.inl rfl

theorem protocol_step {s s' : List Obs × Process} {a : Step} {ef : Option Effect}
    (hx : Protocol s.1 s.2.threads[i]?) (hok : calm i s a = true)
    (hs : (observed i).step s a = some (s', ef)) : Protocol s'.1 s'.2.threads[i]? := by
  obtain ⟨h, p⟩ := s
  obtain ⟨h', p'⟩ := s'
  obtain ⟨hs, hh⟩ := System.watched_step.mp hs
  dsimp only at hs hh hx ⊢
  rcases Program.step_cases hs with ⟨j, o, t, m, rfl, ht, hm, rfl, rfl⟩ | ⟨t, rfl, ha, rfl, rfl⟩
  · by_cases hji : j = i
    · subst hji
      rw [Pool.self_after ht m]
      rw [ht] at hx
      by_cases hk : kind t = .engine
      · cases t with
        | engine e =>
          have hcalm : unwinds o e = false := by simpa [calm, ht] using hok
          simp only [watchEngine, if_true, ht] at hh
          rw [hh]
          rcases engine_protocol hx hcalm (daemon_next hm) with
            ⟨e', hself, hstands⟩ | ⟨hself, hfollows⟩
          · rw [hself]
            exact hstands
          · rw [hself]
            exact Or.inr hfollows
        | _ => cases hk
      · have hsame : h' = h := by
          rw [hh]
          cases t <;> first | exact absurd rfl hk | simp [watchEngine, ht]
        have hself : kind m.self ≠ .engine :=
          fun hself => hk (goesOn_engine (hself ▸ (next_kind hm).1))
        rw [hsame]
        exact (protocol_other hself).mpr ((protocol_other hk).mp hx)
    · have hsame : h' = h := by rw [hh, watchEngine, if_neg hji]
      rw [hsame]
      cases hold : p.threads[i]? with
      | some u =>
        rw [Pool.others_after ht hold (Ne.symm hji) m, ← hold]
        exact hx
      | none =>
        rw [hold] at hx
        rw [show h = [] from hx]
        cases hnow : (p.after j m).threads[i]? with
        | none => rfl
        | some u =>
          rcases Pool.running_after_at ht hnow with ⟨rfl, -⟩ | ⟨-, hwas⟩ | ⟨-, hspawned⟩
          · exact absurd rfl hji
          · rw [hold] at hwas
            cases hwas
          · exact protocol_spawned ((next_kind hm).2 u hspawned).1
  · rw [show h' = h from hh, Pool.join, List.getElem?_append]
    split
    · exact hx
    · rename_i hnew
      rw [List.getElem?_eq_none (Nat.le_of_not_lt hnew)] at hx
      rw [show h = [] from hx]
      cases hnow : [t][i - p.threads.length]? with
      | none => rfl
      | some u =>
        rw [List.mem_singleton.mp (List.mem_of_getElem? hnow)]
        refine (protocol_other fun hk => ?_).mpr (Or.inl rfl)
        rcases (arrives_kind ha).2 with ⟨r, rfl⟩ | rfl <;> cases hk

end Run

/-- The published states are those of a session that goes on, or comes to its end. -/
def Conforms (states : List SessionState) : Prop :=
  ∃ segment published terminal, Segment.Published segment published ∧
    terminal.isTerminal = true ∧ states <+: published ++ [terminal]

theorem underway_conforms {s : Summary} (hs : Underway s) : Conforms s.states := by
  obtain ⟨⟨segment, hpublished⟩, -⟩ := hs
  exact ⟨segment, s.states, .stopped, hpublished, rfl, List.prefix_append _ _⟩

theorem Ends.conforms {s : Summary} {terminal : SessionState} {stopRequested : Bool}
    {retries : Nat} (hs : Ends terminal stopRequested retries s)
    (hterminal : terminal.isTerminal = true) : Conforms s.states := by
  obtain ⟨segment, states, hpublished, hstates⟩ := hs.states
  exact ⟨segment, states, terminal, hpublished, hterminal, hstates ▸ List.prefix_refl _⟩

theorem expected_conforms {s : Summary} {pc : EnginePc} (hs : Expected s pc) :
    Conforms s.states := by
  unfold Expected at hs
  split at hs
  · exact underway_conforms (login_underway s hs)
  · exact underway_conforms (login_underway s hs)
  · exact underway_conforms (login_underway s hs)
  · exact underway_conforms ⟨⟨_, hs.1⟩, hs.2⟩
  · exact ⟨.login, [.authenticating], .failed, rfl, rfl, hs.1 ▸ List.prefix_refl _⟩
  · exact hs.conforms rfl
  · exact hs.conforms rfl
  · rcases hs with hs | hs <;> exact hs.conforms rfl
  · exact underway_conforms hs
  · cases hs
  · cases hs
  · exact hs.conforms rfl
  · cases hs

theorem conforms_initial {states states' : List SessionState} (h : Conforms states')
    (hfirst : states <+: states') : Conforms states := by
  obtain ⟨segment, published, terminal, hpublished, hterminal, hstates⟩ := h
  exact ⟨segment, published, terminal, hpublished, hterminal, hfirst.trans hstates⟩

theorem withDue_initial (s : Summary) (due : Option SetState) :
    s.states <+: (s.withDue due).states := by
  cases due with
  | none => exact List.prefix_refl _
  | some call => cases call <;> first | exact List.prefix_append _ _ | exact List.prefix_refl _

theorem Follows.conforms {h : List Obs} (hx : Follows h) : Conforms (summary h).states := by
  have houtcome := hx.outcome
  split at houtcome
  · exact ⟨.login, [.authenticating], .failed, rfl, rfl, houtcome.1 ▸ List.prefix_refl _⟩
  · rcases houtcome with hends | hends <;> exact hends.conforms rfl

/-- What one engine run publishes, while it runs and when it has ended, whatever
libopenconnect answers and whenever a stop is requested. -/
theorem engine_follows_protocol (i : Nat) (t : List Effect) (s : List Obs × Process)
    (h : System.Reach (observed i) (calm i) t s) :
    Always Allowed s.1 ∧ Conforms (summary s.1).states ∧ (.finished ∈ s.1 → Follows s.1) := by
  have hx : Protocol s.1 s.2.threads[i]? := by
    apply h.invariant (I := fun _ s => Protocol s.1 s.2.threads[i]?)
    · rintro ⟨h, p⟩ ⟨rfl, d, t, ⟨_, _, _, _, rfl, rfl⟩, rfl⟩
      cases i with
      | zero => exact Or.inl rfl
      | succ i => rfl
    · exact fun t s a s' ef run hx hok hs => protocol_step hx hok hs
  have hnil : Always Allowed [] ∧ Conforms (summary []).states ∧
      (Obs.finished ∈ [] → Follows []) :=
    ⟨always_nil, ⟨.login, [.authenticating], .stopped, rfl, rfl, List.nil_prefix⟩,
      fun hmem => absurd hmem List.not_mem_nil⟩
  have hended : ∀ h : List Obs, h = [] ∨ Follows h → Always Allowed h ∧
      Conforms (summary h).states ∧ (.finished ∈ h → Follows h) := by
    rintro h (rfl | hfollows)
    · exact hnil
    · exact ⟨hfollows.order, hfollows.conforms, fun _ => hfollows⟩
  cases hthread : s.2.threads[i]? with
  | none =>
    rw [hthread] at hx
    exact hended _ (Or.inl hx)
  | some t =>
    rw [hthread] at hx
    by_cases hk : kind t = .engine
    · cases t with
      | engine e =>
        exact ⟨hx.order, conforms_initial (expected_conforms hx.expected) (withDue_initial _ _),
          fun hmem => absurd hmem hx.running⟩
      | _ => cases hk
    · exact hended _ ((protocol_other hk).mp hx)

/-- A session that comes up and is stopped. -/
theorem engine_follows_protocol_sample : ∃ t s, System.Reach (observed 2) (calm 2) t s ∧
    (summary s.1).states = [.authenticating, .connecting, .connected, .stopped] ∧ Follows s.1 := by
  have hstart : (observed 2).init ([], boot 1000 1000 none []) := ⟨rfl, boot_init 1000 1000 none []⟩
  obtain ⟨t, s, hr, hp⟩ := System.exists_reach (calm 2)
    (connects ++ [client 2 "stop"] ++ sections 4 1 ++ goesDown)
    (fun _ s => (summary s.1).states == [.authenticating, .connecting, .connected, .stopped] &&
      s.1.contains .finished) hstart (by decide)
  simp only [Bool.and_eq_true, beq_iff_eq, List.contains_eq_mem, decide_eq_true_eq] at hp
  exact ⟨t, s, hr, hp.1, (engine_follows_protocol 2 t s hr).2.2 hp.2⟩

end InodeVpn.Proofs.SessionProtocol
