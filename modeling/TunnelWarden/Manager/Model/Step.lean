import TunnelWarden.Manager.Model.World

/-!
# The manager's loop

`TunnelManager::run` and everything it calls, one input at a time. The
awaits inside one command do not let another command in, so a command is
one step; the reports of tasks and handshakes come between steps.
-/

namespace TunnelWarden

namespace Manager

open Lifecycle

/-- The host a hop names. -/
def findHost (hosts : List SshHost) (hop : HostId) : Option SshHost :=
  hosts.find? fun host => host.id = hop

/-! ## Publishing and logging -/

namespace World

/-- `TunnelManager::publish`. -/
def publish (w : World) : World := { w with snapshots := w.current }

/-- `TunnelManager::push_log`: the oldest entry goes where the log is
full. -/
def pushLog (level : LogLevel) (source : LogSource) (subject stage message : String) (w : World) :
    World :=
  let kept := if w.logs.length = maxLogEvents then w.logs.drop 1 else w.logs
  let logs := kept ++ [⟨level, source, subject, stage, message⟩]
  { w with logs := logs, logViews := logs }

/-- `TunnelManager::log_state`. -/
def logState (id : TunnelId) (state : SupervisorState) (w : World) : World :=
  let (level, message) : LogLevel × String :=
    match state with
    | .stopped => (.info, "Stopped")
    | .connecting _ => (.info, "Connecting to SSH host")
    | .healthy .. => (.info, "SSH connection healthy")
    | .degraded .. => (.warning, "SSH connection degraded")
    | .reconnecting .. => (.warning, "Reconnecting")
    | .blocked _ => (.error, "Tunnel blocked; inspect status for details")
  w.pushLog level .tunnel id.val "Lifecycle" message

/-- `TunnelManager::set_state`. -/
def setState (id : TunnelId) (state : SupervisorState) (localAddr : Option SocketAddr)
    (w : World) : World :=
  match w.current.lookup id with
  | none => w
  | some view =>
    let w := { w with current := w.current.insert id ⟨state, localAddr⟩ }
    let w := if view.state.discriminant ≠ state.discriminant then w.logState id state else w
    w.publish

/-- `TunnelManager::publish_host_keys`. -/
def publishHostKeys (w : World) : World :=
  { w with hostKeyViews := w.pendingHostKeys.map PendingHostKey.view }

/-! ## Tasks -/

/-- `tokio::spawn` of a supervisor, under the next number. -/
def spawn (id : TunnelId) (tunnel : TunnelConfig) (hosts : List SshHost) (w : World) : World :=
  { w with
    tasks := w.tasks ++ [{ id := id, tunnel := tunnel, hosts := hosts }]
    history := w.history ++ [.spawned w.tasks.length id] }

/-- The task is over: it ended before, or it does now. -/
def finishTask (task : ℕ) (w : World) : World :=
  { w with
    tasks := w.tasks.modify task fun t => { t with exit := t.exit.or (some (.returned none)) } }

/-- Cancel the task and await its handle; a task that does not end in
time is aborted first. -/
def endTask (task : ℕ) (inTime : Bool) (w : World) : World :=
  let w := w.finishTask task
  { w with history := w.history ++ [if inTime then .joined task else .aborted task] }

/-- `Notify::notify_one` on the retry hint of a task. -/
def notify (task : ℕ) (w : World) : World :=
  { w with tasks := w.tasks.modify task fun t => { t with hints := t.hints + 1 } }

/-- The state the task published last. -/
def stateOf (task : ℕ) (w : World) : Option SupervisorState := w.tasks[task]?.map Task.state

/-! ## Starting and stopping -/

/-- The local side of a start: nothing for a Remote tunnel, and a bound
listener in the hands of a supervisor for the others. The answer is the
address to show, or the reason why the tunnel is blocked. -/
def acquire (env : Env) (tunnel : TunnelConfig) : Except String (Option SocketAddr) :=
  if tunnel.mode = .remote then .ok none
  else
    match SocketAddr.parse (tunnel.localEnd.host ++ ":" ++ digits 10 tunnel.localEnd.port) with
    | none => .error "Invalid listener address: invalid socket address syntax"
    | some address =>
      let bind := env.bind tunnel.id
      match (ListenerRuntime.startListener address bind env.now).run ListenerRuntime.new with
      | (.error error, _) => .error error.display
      | (.ok _, runtime) =>
        if tunnel.mode = .local ∧ tunnel.remote = none then .error "Remote target is missing"
        else if runtime.listener = none then .error "local listener is not bound"
        else .ok (runtime.localAddr bind)

/-- `TunnelManager::start`. -/
def start (env : Env) (id : TunnelId) (w : World) : World :=
  if id ∈ w.active then w
  else match w.tunnels.lookup id with
    | none => w
    | some tunnel =>
      match tunnel.validate w.hosts w.groups with
      | .error error => w.setState id (.blocked error.display) none
      | .ok () =>
        match tunnel.jumpChain.mapM (findHost w.hosts) with
        | none => w.setState id (.blocked "Unknown jump host") none
        | some hosts =>
          match acquire env tunnel with
          | .error reason => w.setState id (.blocked reason) none
          | .ok localAddr =>
            -- the number under which the task is spawned
            let task := w.tasks.length
            let w := (w.spawn id tunnel hosts).setState id (.connecting 1) localAddr
            { w with active := w.active.insert id task }

/-- `TunnelManager::stop`. -/
def stop (env : Env) (id : TunnelId) (w : World) : World :=
  let w := match w.active.lookup id with
    | none => w
    | some task => { w with active := w.active.erase id }.endTask task (env.inTime id)
  w.setState id .stopped none

/-! ## The poll -/

/-- The accumulators of `refresh`. -/
structure Poll where
  world : World
  changed : Bool := false
  transitions : List (TunnelId × SupervisorState) := []
  finished : List TunnelId := []

/-- A state of the task that was not seen yet goes to the view. -/
def showState (env : Env) (p : Poll) (id : TunnelId) (task : ℕ) (t : Task) : Poll :=
  if t.changed && env.sees id then
    let w := { p.world with tasks := p.world.tasks.modify task fun t => { t with changed := false } }
    match w.current.lookup id with
    | none => { p with world := w }
    | some view =>
      { p with
        world := { w with current := w.current.insert id { view with state := t.state } }
        changed := true
        transitions := p.transitions ++
          (if view.state.discriminant ≠ t.state.discriminant then [(id, t.state)] else []) }
  else p

/-- One entry of `active`: its state is shown, and a task that is
finished is noted. -/
def pollOne (env : Env) (p : Poll) (id : TunnelId) : Poll :=
  match p.world.active.lookup id with
  | none => p
  | some task =>
    match p.world.tasks[task]? with
    | none => p
    | some t =>
      let p := showState env p id task t
      if t.exit.isSome then { p with finished := p.finished ++ [id] } else p

/-- Why a finished task makes its tunnel blocked. -/
def exitReason : Option TaskExit → String
  | some (.returned (some reason)) => reason
  | some (.returned none) | none => "Tunnel task exited"
  | some (.failed error) => error

/-- One finished task: it is awaited, and its tunnel is blocked. -/
def finishOne (p : Poll) (id : TunnelId) : Poll :=
  match p.world.active.lookup id with
  | none => p
  | some task =>
    let w := { p.world with active := p.world.active.erase id }
    let state := SupervisorState.blocked (exitReason (w.tasks[task]?.bind Task.exit))
    let w := w.endTask task true
    match w.current.lookup id with
    | none => { p with world := w }
    | some _ =>
      { p with
        world := { w with current := w.current.insert id ⟨state, none⟩ }
        changed := true
        transitions := p.transitions ++ [(id, state)] }

/-- Drop the prompts nobody waits for any more. -/
def prunePrompts (w : World) : World :=
  let kept := w.pendingHostKeys.filter fun prompt => prompt.reply ∉ w.closedReplies
  if kept.length ≠ w.pendingHostKeys.length then
    { w with pendingHostKeys := kept }.publishHostKeys
  else w

/-- `TunnelManager::refresh`. -/
def refresh (env : Env) (w : World) : World :=
  let w := w.prunePrompts
  let p := (arrange (env.order 0) w.active.keys).foldl (pollOne env) { world := w }
  -- a task is taken out only after all states have been shown
  let p := p.finished.foldl finishOne p
  let w := p.transitions.foldl (fun w t => w.logState t.1 t.2) p.world
  if p.changed then w.publish else w

/-! ## A new configuration -/

end World

/-- `same_tunnel_runtime`. -/
def sameTunnelRuntime (old new : TunnelConfig) : Bool :=
  old.mode = new.mode && old.jumpChain = new.jumpChain && old.localEnd = new.localEnd &&
    old.remote = new.remote && old.reconnect = new.reconnect

/-- `same_host_connection`. -/
def sameHostConnection : Option SshHost → Option SshHost → Bool
  | some old, some new =>
    old.hostname = new.hostname && old.port = new.port && old.username = new.username &&
      old.auth = new.auth && old.hostKeyPolicy = new.hostKeyPolicy &&
      old.connectTimeout = new.connectTimeout &&
      old.keepaliveInterval = new.keepaliveInterval && old.keepaliveMax = new.keepaliveMax
  | none, none => true
  | _, _ => false

namespace World

/-- Must a running tunnel be restarted for the new configuration? -/
def needsRestart (w : World) (hosts : List SshHost) (updated : Map TunnelId TunnelConfig)
    (id : TunnelId) : Bool :=
  match w.tunnels.lookup id, updated.lookup id with
  | some old, some new =>
    !sameTunnelRuntime old new ||
      old.jumpChain.any fun hop => !sameHostConnection (findHost w.hosts hop) (findHost hosts hop)
  | _, _ => true

/-- The maps are exchanged: views of tunnels that are gone are dropped,
and new tunnels are shown as stopped. -/
def install (config : DomainConfig) (updated : Map TunnelId TunnelConfig) (w : World) : World :=
  { w with
    hosts := config.hosts
    groups := config.groups
    tunnels := updated
    current := Map.orInsertAll ⟨.stopped, none⟩ updated.keys
      (Map.retain (fun id => id ∈ updated) w.current) }

/-- `TunnelManager::replace_config`. -/
def replaceConfig (env : Env) (config : DomainConfig) (w : World) : World :=
  let w := { w with configViews := config }
  -- what ran before is what is started again, whatever the restart stops
  let oldRunning := w.active.keys
  let updated := Map.ofValues TunnelConfig.id config.tunnels
  let restart := (arrange (env.order 0) oldRunning).filter (w.needsRestart config.hosts updated)
  let w := restart.foldl (fun w id => w.stop env id) w
  let w := (w.install config updated).publish
  let toStart := ((arrange (env.order 1) w.tunnels.values).filter fun tunnel =>
    tunnel.autoStart || tunnel.id ∈ oldRunning).map TunnelConfig.id
  toStart.foldl (fun w id => w.start env id) w

/-! ## Host keys -/

/-- `TunnelManager::queue_host_key`. The id is a `u64` that wraps and is
never 0. -/
def queueHostKey (prompt : HostKeyPrompt) (w : World) : World :=
  if maxHostKeyPrompts ≤ w.pendingHostKeys.length then
    { w with decisions := w.decisions ++ [(prompt.reply, .cancel)] }
  else
    let view : HostKeyPromptView :=
      ⟨w.nextHostKeyId, prompt.host, prompt.port, prompt.algorithm, prompt.fingerprint⟩
    let w := { w with
      nextHostKeyId := max ((w.nextHostKeyId + 1) % 2 ^ 64) 1
      pendingHostKeys := w.pendingHostKeys ++ [PendingHostKey.mk view prompt.reply] }
    (w.pushLog .warning .host prompt.host "Host key" "Confirmation required").publishHostKeys

/-- The command `ResolveHostKey`. -/
def resolveHostKey (id : ℕ) (decision : HostKeyDecision) (w : World) : World :=
  match w.pendingHostKeys.find? fun prompt => prompt.view.id = id with
  | none => w
  | some pending =>
    { w with
      pendingHostKeys := w.pendingHostKeys.eraseP fun prompt => prompt.view.id = id
      decisions := w.decisions ++ [(pending.reply, decision)] }.publishHostKeys

/-! ## The loop -/

/-- The tunnels of a group, in some order. -/
def inGroup (env : Env) (group : GroupId) (w : World) : List TunnelId :=
  ((arrange (env.order 0) w.tunnels.entries).filter fun e => e.2.groupId = some group).map Sigma.fst

/-- `RetryTunnel`: a hint for a supervisor that waits, a start where
there is none. -/
def retry (env : Env) (id : TunnelId) (w : World) : World :=
  match w.active.lookup id with
  | some task =>
    match w.stateOf task with
    -- the state is read from the task, not from the view
    | some (.blocked _) | some (.reconnecting ..) => w.notify task
    | _ => w
  | none => w.start env id

/-- `NetworkRecovered`: a hint for every supervisor in backoff. -/
def networkRecovered (env : Env) (w : World) : World :=
  ((arrange (env.order 0) w.active.entries).map Sigma.snd).foldl (fun w task =>
    match w.stateOf task with
    | some (.reconnecting ..) => w.notify task
    | _ => w) w

/-- The end of `run`: every task is cancelled and awaited. -/
def drain (env : Env) (w : World) : World :=
  let w := { w with pendingHostKeys := [], running := false }
  (arrange (env.order 0) w.active.entries).foldl (fun w e =>
    { w with active := w.active.erase e.1 }.endTask e.2 (env.inTime e.1)) w

variable (home : Option PathBuf) (codec : Codec)

/-- `SaveConfig`: the new configuration is used once it is stored. -/
def saveConfig (env : Env) (directory : PathBuf) (config : DomainConfig)
    (secret : Option SecretUpdate) (w : World) : Exit String Unit × World :=
  match persistConfig home codec directory config secret w.configViews.app.runAtStartup
      env.verdicts (0, w.stores) with
  | (.value u, (_, stores)) => (.value u, { w with stores }.replaceConfig env config)
  | (result, (_, stores)) => (result, { w with stores })

/-- One command. -/
def handle (env : Env) (command : CoreCommand) (w : World) : Option Reply × World :=
  match command with
  | .startAll =>
    (none, (arrange (env.order 0) w.tunnels.keys).foldl (fun w id => w.start env id) w)
  | .stopAll => (none, (arrange (env.order 0) w.active.keys).foldl (fun w id => w.stop env id) w)
  | .startGroup group => (none, (w.inGroup env group).foldl (fun w id => w.start env id) w)
  | .stopGroup group => (none, (w.inGroup env group).foldl (fun w id => w.stop env id) w)
  | .startTunnel id => (none, w.start env id)
  | .stopTunnel id => (none, w.stop env id)
  | .restartTunnel id => (none, (w.stop env id).start env id)
  | .retryTunnel id => (none, w.retry env id)
  | .networkRecovered => (none, w.networkRecovered env)
  | .saveConfig directory config secret =>
    let (result, w) := w.saveConfig home codec env directory config secret
    (some (.saved result), w)
  | .importConfig path =>
    let (result, (_, stores)) :=
      StoreProg.onDisk (ConfigStore.importFile home codec path) env.verdicts (0, w.stores)
    (some (.imported result), { w with stores })
  | .previewSshConfig _ => (none, w)
  | .exportConfig path config =>
    let (result, (_, stores)) :=
      StoreProg.onDisk (ConfigStore.exportFile home codec path config) env.verdicts (0, w.stores)
    (some (.exported result), { w with stores })
  | .resolveHostKey id decision => (none, w.resolveHostKey id decision)

/-- One input. The poll is armed only where something is active, and
after the loop has ended nothing is received. -/
def step (w : World) (input : Input) : Option Reply × World :=
  if !w.running then (none, w)
  else match input with
    | .command command env => w.handle home codec env command
    | .prompt prompt => (none, w.queueHostKey prompt)
    | .tick env => (none, if w.active.keys = [] then w else w.refresh env)
    | .report task state =>
      (none, { w with tasks := w.tasks.modify task fun t =>
        if t.exit = none then { t with state, changed := true } else t })
    | .exit task result =>
      (none, { w with tasks := w.tasks.modify task fun t =>
        if t.exit = none then { t with exit := some result } else t })
    | .giveUp reply => (none, { w with closedReplies := reply :: w.closedReplies })
    | .shutdown env => (none, w.drain env)

end World

/-! ## The beginning -/

inductive ManagerError where
  | tooManyTunnels
  | duplicateTunnel (id : String)
  deriving DecidableEq, Repr

/-- The loop of `TunnelManager::new` over the tunnels. -/
def define : List TunnelConfig → Map TunnelId TunnelConfig × ManagerSnapshot × List TunnelId →
    Except ManagerError (Map TunnelId TunnelConfig × ManagerSnapshot × List TunnelId)
  | [], acc => .ok acc
  | tunnel :: rest, (definitions, current, autoStart) =>
    if tunnel.id ∈ definitions then .error (.duplicateTunnel tunnel.id.val)
    else define rest (definitions.insert tunnel.id tunnel,
      current.insert tunnel.id ⟨.stopped, none⟩,
      if tunnel.autoStart then autoStart ++ [tunnel.id] else autoStart)

/-- `TunnelManager::new`, with the order `order` of the tunnels in the
published configuration. -/
def new (order : ℕ) (hosts : List SshHost) (groups : List TunnelGroup)
    (tunnels : List TunnelConfig) : Except ManagerError World :=
  if maxTunnels < tunnels.length then .error .tooManyTunnels
  else match define tunnels (∅, ∅, []) with
    | .error error => .error error
    | .ok (definitions, current, autoStart) => .ok {
        hosts, groups, tunnels := definitions, current, autoStart, snapshots := current
        configViews := { app := {}, hosts, groups, tunnels := arrange order definitions.values } }

/-- `TunnelManager::with_app_settings`. -/
def World.withAppSettings (app : AppSettings) (w : World) : World :=
  { w with configViews := { w.configViews with app } }

/-- `run` up to its loop: the tunnels marked for it are started. -/
def World.launch (env : Env) (w : World) : World :=
  w.autoStart.foldl (fun w id => w.start env id) { w with autoStart := [] }

/-- The state in which the loop of `run` begins. -/
def Booted (w : World) : Prop :=
  ∃ order hosts groups tunnels app stores env w₀, new order hosts groups tunnels = .ok w₀ ∧
    w = { (w₀.withAppSettings app) with stores }.launch env

end Manager

end TunnelWarden
