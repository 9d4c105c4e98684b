import InodeVpn.Daemon.Shared
import InodeVpn.Lib.Threads

namespace InodeVpn.Daemon
open InodeVpn.Core Lib

/-- The sections of a call of `set_state`, from the next one on. -/
inductive SetState
  | update (state : SessionState) (lastError : Option String)
  | persist
  | snapshot
  | emit (snapshot : StatusSnapshot)
  deriving DecidableEq, Repr

/-- The callers of `engine_start`. -/
inductive Caller
  | start (id : Nat)
  | restart (id : Nat)
  | network
  | retry (generation : Nat)
  | autostart
  deriving DecidableEq, Repr

/-- A `start` or `restart` request of a client. -/
def Caller.isRequest : Caller → Bool
  | .start _ | .restart _ => true
  | _ => false

/-- The daemon acting by itself: `network_changed` or a retry thread. -/
def Caller.isAutomatic : Caller → Bool
  | .network | .retry _ => true
  | _ => false

/-- The call of `engine_start` that a request comes to. -/
def Caller.ofRequest (id : Nat) (restarting : Bool) : Caller :=
  if restarting then .restart id else .start id

@[simp] theorem Caller.isAutomatic_ofRequest (id : Nat) (restarting : Bool) :
    (Caller.ofRequest id restarting).isAutomatic = false := by
  cases restarting <;> rfl

@[simp] theorem Caller.ofRequest_ne_autostart (id : Nat) (restarting : Bool) :
    Caller.ofRequest id restarting ≠ .autostart := by
  cases restarting <;> intro h <;> cases h

/-- The callers of `request_stop`. -/
inductive Stopper
  | stop (id : Nat)
  | restart (id : Nat)
  | shutdown
  deriving DecidableEq, Repr

/-- A `stop` request of a client. -/
def Stopper.isStop : Stopper → Bool
  | .stop _ => true
  | _ => false

/-- The sections of `engine_start`. -/
inductive StartPc
  | check
  | addSecrets
  | tunScript
  | spawn (tunScript : Option String)
  | setEngine (handle : Nat)
  deriving DecidableEq, Repr

/-- The sections of `schedule_engine_retry`. -/
inductive SchedulePc
  | lock
  | spawn (generation delay : Nat)
  deriving DecidableEq, Repr

/-- `engine_run` with a vpninfo: the body of the `result` closure. A flag
`cancelled` says that a cancel byte was in the pipe when the call was made. -/
inductive SessionPc
  | setProtocol
  | parseUrl
  | setDropUid
  | setupCmdPipe
  | storeCmdFd (fd : RawFd)
  | obtainCookie
  | obtainingCookie (cancelled : Bool)
  | getCookie
  | setCookie (cookie : String)
  | clearHealthStop
  | spawnHealth
  | storeHealthThread (handle : Nat)
  | makeCstp
  | makingCstp (cancelled : Bool)
  | getIpInfo
  | setGateway (session : SessionInfo)
  | setSession (session : SessionInfo)
  | sessionSnapshot
  | emitSession (snapshot : StatusSnapshot)
  | setDnsMode
  | setPreserveCidrs
  | setStateDir
  | setupTun
  | mainloop
  | inMainloop (cancelled : Bool)
  | statsSnapshot (cancelled : Bool)
  | emitStats (cancelled : Bool) (snapshot : StatusSnapshot)
  | stopCheck (ret : Int)
  | pausedStopCheck
  deriving DecidableEq, Repr

/-- `engine_run` after the closure has returned `result`. -/
inductive TeardownPc
  | setHealthStop
  | takeHealth
  | joinHealth (handle : Nat)
  | clearHealth
  | clearCookie
  | free
  | stopCheck (error : Error)
  | scheduleRetry (pc : SchedulePc)
  | guardDrop
  deriving DecidableEq, Repr

inductive EnginePc
  | cstrings
  | initSsl
  | vpninfoNew
  | session (vpninfo : Nat) (pc : SessionPc)
  | teardown (vpninfo : Option Nat) (result : Option Error) (pc : TeardownPc)
  /-- a panic raised at `origin` is about to drop the guard -/
  | unwind (origin : EnginePc)
  deriving DecidableEq, Repr

/-- An engine thread inside `engine_run`. A call of `set_state` it has made is
finished section by section before the code at `pc` goes on. -/
structure Engine where
  config : Config
  tunScript : Option String
  publishing : Option SetState
  pc : EnginePc
  deriving DecidableEq, Repr

inductive NetworkPc
  | decide
  | publish (fd : RawFd) (call : SetState)
  | writePause (fd : RawFd)
  deriving DecidableEq, Repr

inductive RetryPc
  | sleep
  | check
  | probe
  deriving DecidableEq, Repr

inductive HealthPc
  | loop
  | sleep
  | wake
  | getCookie
  | probe (cookie : String)
  | setHealth (ok : Bool)
  | snapshot
  | emit (snapshot : StatusSnapshot)
  deriving DecidableEq, Repr

/-- `handle_client` and `dispatch`, from the parsed request on. -/
inductive RequestPc
  | dispatch
  | waitForEngine
  | loadConfig (restarting : Bool)
  | subscribed (channel : Nat)
  | currentSnapshot (channel : Nat)
  | sendSnapshot (channel : Nat) (snapshot : StatusSnapshot)
  | spawnWriter (channel : Nat)
  deriving DecidableEq, Repr

inductive MainPc
  | load
  | addSecrets (config : Config)
  | spawnServers
  | waitSignal
  | waitForEngine
  deriving DecidableEq, Repr

/-- Every thread of the daemon, by the code it is in. A finished thread, or one
that has written its response, keeps its place in the pool. -/
inductive Thread
  | main (pc : MainPc)
  | request (r : Request) (pc : RequestPc)
  | network (pc : NetworkPc)
  | retry (config : Config) (generation delay : Nat) (pc : RetryPc)
  | starting (caller : Caller) (config : Config) (pc : StartPc)
  | engine (e : Engine)
  /-- the panic handler of the engine thread's closure -/
  | panicked (config : Config) (publishing : Option SetState) (pc : SchedulePc)
  | health (gateway : String) (interval : Nat) (pc : HealthPc)
  | writer (channel : Nat)
  | replied (response : Response)
  | done
  deriving DecidableEq, Repr

/-- The libopenconnect calls whose result decides how an engine run goes on. -/
inductive OcCall
  | initSsl | setProtocol | parseUrl | setupCmdPipe
  | obtainCookie | makeCstpConnection | setupTun | mainloop
  deriving DecidableEq, Repr

/-- What a run leaves in its trace. -/
inductive Effect
  /-- `engine_start` found no engine and went on -/
  | accepted (thread : Nat) (caller : Caller)
  /-- `engine_start` returned the error -/
  | refused (thread : Nat) (caller : Caller) (error : Error)
  /-- `engine_start` created the engine thread -/
  | spawned (thread : Nat) (caller : Caller) (engine : Nat)
  /-- `request_stop`, and the descriptor it wrote `OC_CMD_CANCEL` to -/
  | stopRequested (stopper : Stopper) (fd : Option RawFd)
  | wrotePause (fd : RawFd)
  /-- the critical section of `set_state` -/
  | published (thread : Nat) (state : SessionState)
  | returned (engine : Nat) (call : OcCall) (ret : Int)
  | enteredMainloop (engine : Nat) (cancelled : Bool)
  | freed (vpninfo : Nat)
  | finished (engine : Nat)
  | retryScheduled (thread generation : Nat)
  deriving DecidableEq, Repr

abbrev Process := Pool Shared Thread
abbrev Section := Move Shared Thread Effect

namespace Thread

/-- Past the `engine is None` check of `engine_start`, the handle not stored. -/
def inStartWindow : Thread → Bool
  | .starting _ _ .check => false
  | .starting _ _ _ => true
  | _ => false

/-- The engine thread exists and its handle has yet to be stored. -/
def storesHandle : Thread → Bool
  | .starting _ _ (.setEngine _) => true
  | _ => false

def isStarting : Thread → Bool
  | .starting _ _ _ => true
  | _ => false

/-- Spawned by `engine_start` and not past `EngineGuard::drop`. -/
def isLiveEngine : Thread → Bool
  | .engine _ => true
  | _ => false

/-- The next section is `EngineGuard::drop`. -/
def dropsGuard : Thread → Bool
  | .engine ⟨_, _, none, .unwind _⟩ => true
  | .engine ⟨_, _, none, .teardown _ _ .guardDrop⟩ => true
  | _ => false

end Thread

/-- Sections of `set_state`; the call is over when none is left. -/
def setStateNext (o : Outside) (me : Nat) (d : Shared) :
    SetState → Shared × Option SetState × Option Effect
  | .update state lastError =>
    ({ d with inner := d.inner.setState o state lastError }, some .persist,
      some (.published me state))
  | .persist => (d.persistState o, some .snapshot, none)
  | .snapshot => (d, some (.emit d.inner.snapshot), none)
  | .emit snapshot => (d.emit "state_changed" snapshot, none, none)

/-- Where the caller of `engine_start` goes on. -/
def Caller.resume (caller : Caller) (result : Option Error) : Thread :=
  match caller, result with
  | .start id, none | .restart id, none => .replied ⟨id, .accepted⟩
  | .start id, some e | .restart id, some e => .replied ⟨id, .err (-32001) e.toString⟩
  | .network, _ | .retry _, _ => .done
  | .autostart, _ => .main .spawnServers

/-- `engine_start`. -/
def startNext (o : Outside) (me fresh : Nat) (d : Shared) (caller : Caller) (config : Config) :
    StartPc → Option Section
  | .check =>
    if d.inner.engine.isSome then
      some { shared := d, self := caller.resume (some (.ipc "engine already running"))
             effect := some (.refused me caller (.ipc "engine already running")) }
    else
      some { shared := d.acceptStart config, self := .starting caller config .addSecrets
             effect := some (.accepted me caller) }
  | .addSecrets =>
    some { shared := d.addRedactionSecrets config, self := .starting caller config .tunScript }
  | .tunScript =>
    some { shared := d, self := .starting caller config (.spawn d.inner.tunScript) }
  | .spawn tunScript =>
    if o.spawns then
      some { shared := d, self := .starting caller config (.setEngine fresh)
             spawned := some (.engine
               { config, tunScript, publishing := some (.update .authenticating none)
                 pc := .cstrings })
             effect := some (.spawned me caller fresh) }
    else
      some { shared := d, self := caller.resume (some (.ipc ("spawn engine failed: " ++ o.osError)))
             effect := some (.refused me caller (.ipc ("spawn engine failed: " ++ o.osError))) }
  | .setEngine handle =>
    some { shared := { d with inner := { d.inner with engine := some handle } }
           self := caller.resume none }

/-- `network_changed`. -/
def networkNext (o : Outside) (me : Nat) (d : Shared) : NetworkPc → Option Section
  | .decide =>
    let shared := { d with inner := (d.inner.networkAction o).1 }
    match (d.inner.networkAction o).2 with
    | none => some { shared, self := .done }
    | some (.pause fd) =>
      some { shared, self := .network (.publish fd (.update .reconnecting none)) }
    | some (.restart config) => some { shared, self := .starting .network config .check }
  | .publish fd call =>
    match setStateNext o me d call with
    | (shared, some call, effect) => some { shared, self := .network (.publish fd call), effect }
    | (shared, none, effect) => some { shared, self := .network (.writePause fd), effect }
  | .writePause fd =>
    some { shared := d.writeFd OC_CMD_PAUSE fd, self := .done, effect := some (.wrotePause fd) }

/-- The retry thread of `schedule_engine_retry`. -/
def retryNext (o : Outside) (d : Shared) (config : Config) (generation delay : Nat) :
    RetryPc → Option Section
  | .sleep => some { shared := d, self := .retry config generation delay .check }
  | .check =>
    if d.inner.retryObsolete generation then some { shared := d, self := .done }
    else some { shared := d, self := .retry config generation delay .probe }
  | .probe =>
    if o.networkUp then some { shared := d, self := .starting (.retry generation) config .check }
    else some { shared := d, self := .retry config generation delay .sleep }

/-- How a section of `schedule_engine_retry` ends. -/
inductive Scheduled
  | next (pc : SchedulePc)
  | returned
  | spawned (retry : Thread) (generation : Nat)
  | panicked

/-- `schedule_engine_retry`, called by the engine thread. -/
def scheduleNext (o : Outside) (d : Shared) (config : Config) : SchedulePc → Shared × Scheduled
  | .lock =>
    if d.inner.stopRequested then (d, .returned)
    else
      ({ d with inner := { d.inner with retryGeneration := d.inner.retryGeneration + 1 } },
        .next (.spawn (d.inner.retryGeneration + 1) (max config.service.restartDelay 1)))
  | .spawn generation delay =>
    if o.spawns then (d, .spawned (.retry config generation delay .sleep) generation)
    else (d, .panicked)

section Schedule
variable {o : Outside} {d shared : Shared} {config : Config} {pc : SchedulePc}

/-- `schedule_engine_retry` touches `retry_generation` and nothing else. -/
theorem scheduleNext_shared {result : Scheduled}
    (h : scheduleNext o d config pc = (shared, result)) :
    ∃ g, shared = { d with inner := { d.inner with retryGeneration := g } } := by
  cases pc <;> simp only [scheduleNext] at h <;> split at h <;> cases h <;> exact ⟨_, rfl⟩

theorem scheduleNext_spawned {t : Thread} {generation : Nat}
    (h : scheduleNext o d config pc = (shared, .spawned t generation)) :
    ∃ delay, t = .retry config generation delay .sleep := by
  cases pc <;> simp only [scheduleNext] at h <;> split at h <;> cases h
  exact ⟨_, rfl⟩

end Schedule

/-- `health_loop`. -/
def healthNext (o : Outside) (me : Nat) (d : Shared) (gateway : String) (interval : Nat) :
    HealthPc → Option Section
  | .loop =>
    if d.healthStop then
      some { shared := { d with endedHealth := me :: d.endedHealth }, self := .done }
    else some { shared := d, self := .health gateway interval .sleep }
  | .sleep => some { shared := d, self := .health gateway interval .wake }
  | .wake =>
    if d.healthStop then
      some { shared := { d with endedHealth := me :: d.endedHealth }, self := .done }
    else some { shared := d, self := .health gateway interval .getCookie }
  | .getCookie =>
    match d.inner.cookie with
    | some cookie => some { shared := d, self := .health gateway interval (.probe cookie) }
    | none => some { shared := d, self := .health gateway interval .loop }
  | .probe cookie =>
    -- `curl_checkonline` gives up at once on a cookie without `=`
    some { shared := d
           self := .health gateway interval (.setHealth (cookie.toList.contains '=' && o.online)) }
  | .setHealth ok =>
    some { shared := { d with inner := { d.inner with health := some ⟨ok, some o.now⟩ } }
           self := .health gateway interval .snapshot }
  | .snapshot =>
    some { shared := d, self := .health gateway interval (.emit d.inner.snapshot) }
  | .emit snapshot =>
    some { shared := d.emit "health" snapshot, self := .health gateway interval .loop }

end InodeVpn.Daemon
