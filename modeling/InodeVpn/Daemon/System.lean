import InodeVpn.Daemon.EngineRun

namespace InodeVpn.Daemon
open InodeVpn.Core Lib

def VERSION : String := "1.0.0"

/-- `dispatch`, and the `subscribe` branch of `handle_client`. -/
def requestNext (o : Outside) (d : Shared) (r : Request) : RequestPc → Option Section
  | .dispatch =>
    if r.method = "ping" then some { shared := d, self := .replied ⟨r.id, .pong VERSION⟩ }
    else if r.method = "status" then
      some { shared := d, self := .replied ⟨r.id, .status d.inner.snapshot⟩ }
    else if r.method = "start" then
      some { shared := d, self := .request r (.loadConfig false) }
    else if r.method = "stop" then
      some { shared := d.requestStop, self := .replied ⟨r.id, .accepted⟩
             effect := some (.stopRequested (.stop r.id) d.inner.cmdFd) }
    else if r.method = "restart" then
      some { shared := d.requestStop, self := .request r .waitForEngine
             effect := some (.stopRequested (.restart r.id) d.inner.cmdFd) }
    else if r.method = "subscribe" then
      some { shared := { d with
               channels := d.channels ++ [{}]
               subscribers := d.subscribers ++ [d.channels.length] }
             self := .request r (.subscribed d.channels.length) }
    else
      some { shared := d
             self := .replied ⟨r.id, .err (-32601) ("method not found: " ++ r.method)⟩ }
  | .waitForEngine =>
    if d.inner.engine.isNone then
      some { shared := d, self := .request r (.loadConfig true) }
    else if o.timedOut then
      some { shared := d, self := .replied ⟨r.id, .err (-32003) "engine did not stop in time"⟩ }
    else some { shared := d, self := .request r .waitForEngine }
  | .loadConfig restarting =>
    some { shared := d
           self := match o.config with
             | .ok config => .starting (.ofRequest r.id restarting) config .check
             | .error e => .replied ⟨r.id, .err (-32002) e.toString⟩ }
  | .subscribed ch =>
    if o.written then some { shared := d, self := .request r (.currentSnapshot ch) }
    else some { shared := d.dropReceiver ch, self := .done }
  | .currentSnapshot ch =>
    some { shared := d, self := .request r (.sendSnapshot ch d.inner.snapshot) }
  | .sendSnapshot ch snapshot =>
    some { shared := d.send ch ⟨"state_changed", snapshot⟩, self := .request r (.spawnWriter ch) }
  | .spawnWriter ch =>
    if o.spawns then
      some { shared := d, self := .replied ⟨r.id, .subscribed⟩, spawned := some (.writer ch) }
    else some { shared := d.dropReceiver ch, self := .done }

/-- The thread that forwards a subscriber's events to its socket. -/
def writerNext (o : Outside) (d : Shared) (ch : Nat) : Option Section :=
  if o.written then some { shared := d, self := .writer ch }
  else some { shared := d.dropReceiver ch, self := .done }

/-- `main`. -/
def mainNext (o : Outside) (d : Shared) : MainPc → Option Section
  | .load =>
    some { shared := d
           self := match o.config with
             | .ok config =>
               if config.service.autostart then .main (.addSecrets config)
               else .main .spawnServers
             | .error _ => .main .spawnServers }
  | .addSecrets config =>
    some { shared := d.addRedactionSecrets config, self := .starting .autostart config .check }
  | .spawnServers => some { shared := { d with serving := true }, self := .main .waitSignal }
  | .waitSignal =>
    some { shared := d.requestStop, self := .main .waitForEngine
           effect := some (.stopRequested .shutdown d.inner.cmdFd) }
  | .waitForEngine =>
    if d.inner.engine.isNone ∨ o.timedOut then
      some { shared := { d with exited := true }, self := .done }
    else some { shared := d, self := .main .waitForEngine }

/-- One atomic section of the thread `me`. -/
def threadNext (o : Outside) (me fresh : Nat) (d : Shared) : Thread → Option Section
  | .main pc => mainNext o d pc
  | .request r pc => requestNext o d r pc
  | .network pc => networkNext o me d pc
  | .retry config generation delay pc => retryNext o d config generation delay pc
  | .starting caller config pc => startNext o me fresh d caller config pc
  | .engine e => engineNext o me fresh d e
  | .panicked config publishing pc => panickedNext o me d config pc publishing
  | .health gateway interval pc => healthNext o me d gateway interval pc
  | .writer ch => writerNext o d ch
  | .replied _ => none
  | .done => none

/-- The daemon. Requests and network changes come in any number, at any time
after `main` has set up the listener and the watcher. -/
def daemon : Program Shared Thread Outside Effect where
  init d t := ∃ targetUid targetGid tunScript environ,
    d = Shared.new targetUid targetGid tunScript environ ∧ t = .main .load
  arrives d t := d.serving && !d.exited &&
    match t with
    | .request _ .dispatch => true
    | .network .decide => true
    | _ => false
  next o me fresh d t := if d.exited then none else threadNext o me fresh d t

/-- Nothing runs once `main` has returned. -/
theorem daemon_next {o : Outside} {me fresh : Nat} {d : Shared} {t : Thread} {m : Section}
    (h : daemon.next o me fresh d t = some m) : threadNext o me fresh d t = some m := by
  simp only [daemon] at h
  split at h
  · cases h
  · exact h

/-- The state of the daemon when `main` starts. -/
def boot (targetUid targetGid : Nat) (tunScript : Option String)
    (environ : List (String × String)) : Process :=
  ⟨.new targetUid targetGid tunScript environ, [.main .load]⟩

theorem boot_init (targetUid targetGid : Nat) (tunScript : Option String)
    (environ : List (String × String)) :
    daemon.system.init (boot targetUid targetGid tunScript environ) :=
  ⟨_, _, ⟨targetUid, targetGid, tunScript, environ, rfl, rfl⟩, rfl⟩

abbrev Step := Act Thread Outside

/-- `n` sections of the thread `i`, the outside answering `o` to each. -/
def sections (i n : Nat) (o : Outside := {}) : List Step := List.replicate n (.run i o)

/-- A configuration that passes every check of the daemon. -/
def sampleConfig : Config :=
  { Config.default with gateway := ⟨"vpn.example.com:2000", ""⟩, credentials := ⟨"alice", "pw"⟩ }

/-- `main` finds no configuration and goes on to serve requests. -/
def serve : List Step := sections 0 2

/-- A request that has not been looked at. -/
def client (id : Nat) (method : String) : Step := .arrive (.request ⟨id, method⟩ .dispatch)

/-- The thread `i` serves a `start` up to the check of `engine_start`. -/
def loadStart (i : Nat) (config : Config := sampleConfig) : List Step :=
  sections i 2 { config := .ok config }

/-- A client starts an engine, the thread 2, which connects and enters the main
loop. Its health check is the thread 3. -/
def connects : List Step :=
  serve ++ [client 1 "start"] ++ loadStart 1 ++ sections 1 5 ++ sections 2 39

/-- After a stop, the main loop returns and `engine_run` goes down to its end. -/
def goesDown : List Step := sections 2 8 ++ sections 3 1 ++ sections 2 5

end InodeVpn.Daemon
