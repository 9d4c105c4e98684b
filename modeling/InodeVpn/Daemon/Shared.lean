import InodeVpn.Core.Config
import InodeVpn.Core.State

namespace InodeVpn.Daemon
open InodeVpn.Core

/-- Command bytes of the libopenconnect command pipe. -/
def OC_CMD_CANCEL : UInt8 := 120
def OC_CMD_PAUSE : UInt8 := 112

/-- A descriptor number, tagged with the vpninfo whose
`openconnect_setup_cmd_pipe` returned it. The tag is not visible to the code. -/
structure RawFd where
  num : Int
  vpninfo : Nat
  deriving DecidableEq, Repr

/-- What the daemon does to a vpninfo: the ids to drop to, the write end of its
command pipe, the bytes written to that pipe, and how often it has been freed. -/
structure VpnInfo where
  dropUid : Option (Nat × Nat) := none
  cmdFd : Option Int := none
  pipe : List UInt8 := []
  frees : Nat := 0
  deriving DecidableEq, Repr

/-- `struct Inner`; every field is read and written under one mutex. The
engine's `JoinHandle` is the identity of its thread. -/
structure Inner where
  state : SessionState := .stopped
  since : Option String := none
  lastError : Option String := none
  gateway : Option String := none
  session : Option SessionInfo := none
  stats : Stats := {}
  health : Option HealthStatus := none
  cookie : Option String := none
  config : Option Config := none
  targetUid : Nat
  targetGid : Nat
  stopRequested : Bool := false
  lastNetEvent : Option Nat := none
  retryGeneration : Nat := 0
  cmdFd : Option RawFd := none
  engine : Option Nat := none
  tunScript : Option String

/-- Contents of `state.json`. -/
structure StateFile where
  state : SessionState
  since : Option String
  lastError : Option String
  autostart : Bool
  deriving DecidableEq, Repr

/-- An `mpsc` channel of one subscriber: everything sent, and whether the
receiving half is still there. -/
structure Channel where
  events : List Event := []
  alive : Bool := true
  deriving DecidableEq, Repr

/-- `struct Shared`, together with the process state that its threads act on:
the environment, `state.json`, the subscribers' channels and libopenconnect. -/
structure Shared where
  inner : Inner
  subscribers : List Nat := []
  redactor : Redactor := {}
  healthStop : Bool := false
  healthThread : Option Nat := none
  /-- health threads that have ended: `JoinHandle::join` returns for these -/
  endedHealth : List Nat := []
  environ : List (String × String) := []
  stateFile : Option StateFile := none
  channels : List Channel := []
  vpninfos : List VpnInfo := []
  /-- `main` has spawned the IPC listener and the network watcher. -/
  serving : Bool := false
  /-- `main` has returned, which ends every thread. -/
  exited : Bool := false

/-- What happens inside `openconnect_mainloop` before it returns. -/
inductive Callback
  | reconnected
  | stats (s : Stats)
  deriving DecidableEq, Repr

/-- The answers of everything outside the daemon to one atomic section. A
section reads only the answers to the questions it asks. -/
structure Outside where
  /-- return value of the libopenconnect call -/
  ret : Int := 0
  /-- a pointer returned by libopenconnect is null -/
  null : Bool := false
  /-- the new thread could be created -/
  spawns : Bool := true
  /-- the Rust code of this section of `engine_run` panics -/
  panics : Bool := false
  /-- text of the operating system's error -/
  osError : String := ""
  /-- `Instant::now`, in nanoseconds -/
  clock : Nat := 0
  /-- `SystemTime::now`, in seconds since the epoch, if not before it -/
  wall : Option Nat := some 0
  /-- result of `Config::load` -/
  config : Except Error Config := .error (.config "")
  cookie : String := ""
  session : SessionInfo := {}
  callback : Option Callback := none
  /-- where `inode-routectl` was found, if the executable's path is known -/
  routectl : Option String := some ""
  networkUp : Bool := true
  /-- the deadline of the wait has passed -/
  timedOut : Bool := false
  /-- the HTTP probe answered 200 -/
  online : Bool := true
  /-- the file can be created -/
  created : Bool := true
  /-- the file or the socket accepts what is written to it -/
  written : Bool := true

/-- `Shared::new`, in the environment the process was started with. -/
def Shared.new (targetUid targetGid : Nat) (tunScript : Option String)
    (environ : List (String × String)) : Shared where
  inner := { targetUid, targetGid, tunScript }
  environ

/-- `Shared::now`. -/
def Outside.now (o : Outside) : String :=
  match o.wall with
  | some secs => toString secs
  | none => "0"

/-- The critical section of `set_state`. -/
def Inner.setState (o : Outside) (state : SessionState) (lastError : Option String)
    (i : Inner) : Inner :=
  let i := if i.state ≠ state then { i with state, since := some o.now } else i
  if lastError.isSome then { i with lastError } else i

section SetState
variable (o : Outside) (state : SessionState) (lastError : Option String) (i : Inner)

@[simp] theorem Inner.setState_state : (i.setState o state lastError).state = state := by
  unfold Inner.setState
  by_cases h : i.state = state <;> cases lastError <;> simp [h]

/-- `set_state` touches `state`, `since` and `last_error` and nothing else. -/
theorem Inner.setState_eq : ∃ since err, i.setState o state lastError =
    { i with state, since, lastError := err } := by
  unfold Inner.setState
  by_cases h : i.state = state
  · subst h
    cases lastError with
    | none => exact ⟨i.since, i.lastError, by simp⟩
    | some e => exact ⟨i.since, some e, by simp⟩
  · cases lastError with
    | none => exact ⟨some o.now, i.lastError, by simp [h]⟩
    | some e => exact ⟨some o.now, some e, by simp [h]⟩

@[simp] theorem Inner.setState_engine : (i.setState o state lastError).engine = i.engine := by
  obtain ⟨_, _, h⟩ := i.setState_eq o state lastError
  rw [h]

@[simp] theorem Inner.setState_cmdFd : (i.setState o state lastError).cmdFd = i.cmdFd := by
  obtain ⟨_, _, h⟩ := i.setState_eq o state lastError
  rw [h]

@[simp] theorem Inner.setState_stopRequested :
    (i.setState o state lastError).stopRequested = i.stopRequested := by
  obtain ⟨_, _, h⟩ := i.setState_eq o state lastError
  rw [h]

end SetState

def Inner.autostart (i : Inner) : Bool :=
  match i.config with
  | some c => c.service.autostart
  | none => false

/-- `snapshot`; `supervisor` is the Linux one. -/
def Inner.snapshot (i : Inner) : StatusSnapshot where
  state := i.state
  since := i.since
  gateway := i.gateway
  session := i.session
  stats := some i.stats
  lastError := i.lastError
  health := i.health
  service := ⟨"systemd", true, i.autostart⟩

/-- The payload of `persist_state`. -/
def Inner.stateFile (i : Inner) : StateFile where
  state := i.state
  since := i.since
  lastError := i.lastError
  autostart := i.autostart

namespace Shared

/-- `persist_state`: the file is created, which empties it, and then written. -/
def persistState (o : Outside) (d : Shared) : Shared :=
  if o.created then
    { d with stateFile := if o.written then some d.inner.stateFile else none }
  else d

/-- `emit`: subscribers whose receiver is gone are dropped. -/
def emit (method : String) (params : StatusSnapshot) (d : Shared) : Shared :=
  let alive := fun ch => (d.channels[ch]?).any Channel.alive
  { d with
    channels := d.channels.mapIdx fun ch c =>
      if ch ∈ d.subscribers ∧ c.alive then { c with events := c.events ++ [⟨method, params⟩] }
      else c
    subscribers := d.subscribers.filter alive }

/-- `add_redaction_secrets`. -/
def addRedactionSecrets (config : Config) (d : Shared) : Shared :=
  { d with
    redactor := (d.redactor.add config.credentials.password).add config.credentials.username }

/-- `std::env::set_var`. -/
def setVar (key value : String) (d : Shared) : Shared :=
  { d with environ := (key, value) :: d.environ.filter (fun kv => kv.1 ≠ key) }

def var (key : String) (d : Shared) : Option String :=
  (d.environ.find? (fun kv => kv.1 == key)).map Prod.snd

/-- No open command pipe has the number. The kernel hands out such numbers only. -/
def fdUnused (num : Int) (d : Shared) : Bool :=
  d.vpninfos.all fun v => v.frees ≠ 0 ∨ v.cmdFd ≠ some num

def modifyVpnInfo (v : Nat) (f : VpnInfo → VpnInfo) (d : Shared) : Shared :=
  { d with vpninfos := d.vpninfos.modify v f }

/-- The receiving half of a channel is dropped. -/
def dropReceiver (ch : Nat) (d : Shared) : Shared :=
  { d with channels := d.channels.modify ch fun c => { c with alive := false } }

/-- `tx.send` on one channel. -/
def send (ch : Nat) (event : Event) (d : Shared) : Shared :=
  { d with
    channels := d.channels.modify ch fun c =>
      if c.alive then { c with events := c.events ++ [event] } else c }

/-- The vpninfo has been handed to `openconnect_vpninfo_free`. -/
def isFreed (v : Nat) (d : Shared) : Bool :=
  (d.vpninfos[v]?).any (fun info => info.frees ≠ 0)

/-- `libc::write` of one byte. An open descriptor leads to its own pipe. The
number of a closed one may have been reused, and the byte then reaches
whichever open pipe has that number now. -/
def writeFd (cmd : UInt8) (fd : RawFd) (d : Shared) : Shared :=
  { d with
    vpninfos := d.vpninfos.mapIdx fun v info =>
      if info.frees = 0 ∧ info.cmdFd = some fd.num ∧ (v = fd.vpninfo ∨ d.isFreed fd.vpninfo) then
        { info with pipe := info.pipe ++ [cmd] }
      else info }

/-- A cancel byte is in the command pipe of the vpninfo. -/
def cancelled (v : Nat) (d : Shared) : Bool :=
  (d.vpninfos[v]?).any (fun info => info.pipe.contains OC_CMD_CANCEL)

theorem cancelled_congr {d d' : Shared} (h : d'.vpninfos = d.vpninfos) (v : Nat) :
    d'.cancelled v = d.cancelled v := by
  rw [cancelled, cancelled, h]

/-- A write takes no byte out of a pipe. -/
theorem writeFd_cancelled {d : Shared} {v : Nat} (cmd : UInt8) (fd : RawFd)
    (h : d.cancelled v = true) : (d.writeFd cmd fd).cancelled v = true := by
  obtain ⟨info, hinfo, hpipe⟩ := (Option.any_eq_true _ _).mp h
  refine (Option.any_eq_true _ _).mpr ?_
  simp only [writeFd, List.getElem?_mapIdx, hinfo, Option.map_some]
  refine ⟨_, rfl, ?_⟩
  split
  · simp only [List.contains_eq_mem, List.mem_append, decide_eq_true_eq]
    exact Or.inl (by simpa using hpipe)
  · exact hpipe

/-- `request_stop`: the byte is written while the lock is held. -/
def requestStop (d : Shared) : Shared :=
  let d := { d with inner := { d.inner with stopRequested := true } }
  match d.inner.cmdFd with
  | some fd => d.writeFd OC_CMD_CANCEL fd
  | none => d

@[simp] theorem requestStop_inner (d : Shared) :
    d.requestStop.inner = { d.inner with stopRequested := true } := by
  unfold requestStop
  cases h : d.inner.cmdFd <;> simp [h, writeFd]

theorem requestStop_vpninfos (d : Shared) : d.requestStop.vpninfos =
    match d.inner.cmdFd with
    | some fd => (d.writeFd OC_CMD_CANCEL fd).vpninfos
    | none => d.vpninfos := by
  unfold requestStop
  cases h : d.inner.cmdFd <;> simp [h, writeFd, isFreed]

/-- `mark_engine_finished`. -/
def markEngineFinished (d : Shared) : Shared :=
  { d with inner := { d.inner with cmdFd := none, engine := none } }

section Frame
variable (d : Shared)

@[simp] theorem persistState_inner (o : Outside) : (d.persistState o).inner = d.inner := by
  unfold persistState
  split <;> rfl

@[simp] theorem persistState_vpninfos (o : Outside) :
    (d.persistState o).vpninfos = d.vpninfos := by
  unfold persistState
  split <;> rfl

@[simp] theorem emit_inner (method : String) (params : StatusSnapshot) :
    (d.emit method params).inner = d.inner := rfl

@[simp] theorem emit_vpninfos (method : String) (params : StatusSnapshot) :
    (d.emit method params).vpninfos = d.vpninfos := rfl

@[simp] theorem addRedactionSecrets_inner (config : Config) :
    (d.addRedactionSecrets config).inner = d.inner := rfl

@[simp] theorem addRedactionSecrets_vpninfos (config : Config) :
    (d.addRedactionSecrets config).vpninfos = d.vpninfos := rfl

@[simp] theorem setVar_inner (key value : String) : (d.setVar key value).inner = d.inner := rfl

@[simp] theorem setVar_vpninfos (key value : String) :
    (d.setVar key value).vpninfos = d.vpninfos := rfl

@[simp] theorem dropReceiver_inner (ch : Nat) : (d.dropReceiver ch).inner = d.inner := rfl

@[simp] theorem dropReceiver_vpninfos (ch : Nat) :
    (d.dropReceiver ch).vpninfos = d.vpninfos := rfl

@[simp] theorem send_inner (ch : Nat) (event : Event) : (d.send ch event).inner = d.inner := rfl

@[simp] theorem send_vpninfos (ch : Nat) (event : Event) :
    (d.send ch event).vpninfos = d.vpninfos := rfl

@[simp] theorem modifyVpnInfo_inner (v : Nat) (f : VpnInfo → VpnInfo) :
    (d.modifyVpnInfo v f).inner = d.inner := rfl

@[simp] theorem writeFd_inner (cmd : UInt8) (fd : RawFd) :
    (d.writeFd cmd fd).inner = d.inner := rfl

@[simp] theorem markEngineFinished_vpninfos : d.markEngineFinished.vpninfos = d.vpninfos := rfl

@[simp] theorem markEngineFinished_engine : d.markEngineFinished.inner.engine = none := rfl

@[simp] theorem markEngineFinished_cmdFd : d.markEngineFinished.inner.cmdFd = none := rfl

end Frame

/-- What the first section of `engine_start` does once it has accepted. -/
def acceptStart (config : Config) (d : Shared) : Shared :=
  { d with
    inner := { d.inner with
      stopRequested := false
      lastError := none
      config := some config
      retryGeneration := d.inner.retryGeneration + 1 } }

end Shared

inductive NetAction
  | pause (fd : RawFd)
  | restart (config : Config)

/-- `now.duration_since(t).as_secs() < 2`, on nanoseconds. -/
def debounced (last : Option Nat) (now : Nat) : Bool :=
  match last with
  | some t => (now - t) / 1000000000 < 2
  | none => false

/-- The critical section of `network_changed`: debounce, then decide. -/
def Inner.networkAction (o : Outside) (i : Inner) : Inner × Option NetAction :=
  if debounced i.lastNetEvent o.clock then (i, none)
  else
    let i := { i with lastNetEvent := some o.clock }
    if i.state = .connected ∨ i.state = .reconnecting then (i, i.cmdFd.map .pause)
    else if i.state = .failed ∧ i.engine.isNone then (i, i.config.map .restart)
    else (i, none)

/-- The decision touches `last_net_event` and nothing else. -/
theorem Inner.networkAction_fst (o : Outside) (i : Inner) :
    ∃ last, (i.networkAction o).1 = { i with lastNetEvent := last } := by
  unfold Inner.networkAction
  dsimp only
  split
  · exact ⟨i.lastNetEvent, rfl⟩
  · refine ⟨some o.clock, ?_⟩
    split
    · rfl
    · split <;> rfl

/-- When `network_changed` chooses to pause. -/
theorem Inner.networkAction_pause {o : Outside} {i : Inner} {fd : RawFd}
    (h : (i.networkAction o).2 = some (.pause fd)) :
    i.cmdFd = some fd ∧ (i.state = .connected ∨ i.state = .reconnecting) := by
  unfold Inner.networkAction at h
  dsimp only at h
  split at h
  · cases h
  · split at h
    · rename_i hs
      simp only [Option.map_eq_some_iff, NetAction.pause.injEq, exists_eq_right] at h
      exact ⟨h, hs⟩
    · split at h
      · simp at h
      · cases h

/-- The guard of the retry thread: true when the thread has to give up. -/
def Inner.retryObsolete (generation : Nat) (i : Inner) : Bool :=
  i.stopRequested || i.retryGeneration ≠ generation || i.engine.isSome || i.state ≠ .failed

/-- When the retry thread goes on. -/
theorem Inner.retryObsolete_eq_false {generation : Nat} {i : Inner} :
    i.retryObsolete generation = false ↔ i.stopRequested = false ∧
      i.retryGeneration = generation ∧ i.engine = none ∧ i.state = .failed := by
  simp [retryObsolete, and_assoc]

end InodeVpn.Daemon
