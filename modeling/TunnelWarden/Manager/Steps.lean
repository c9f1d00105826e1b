import TunnelWarden.Manager.Model.Step
import TunnelWarden.Supervisor.Model.Retry

/-!
# What the manager's operations can do

One inversion for each operation: what it leaves in the fields, and the
conditions of each outcome. The invariants read these and never unfold
an operation. The logs are the one part no invariant is about, so the
inversions leave them open.
-/

namespace TunnelWarden

namespace Manager

namespace World

variable {w : World} {env : Env} {id : TunnelId} {state : SupervisorState}
variable {localAddr : Option SocketAddr}

/-- The world with other logs. -/
def withLogs (w : World) (logs logViews : List LogEvent) : World :=
  { w with logs := logs, logViews := logViews }

/-- The world with a view set and published. -/
def withView (w : World) (id : TunnelId) (view : TunnelView) : World :=
  { w with current := w.current.insert id view, snapshots := w.current.insert id view }

section SetState

variable (w id state localAddr)

/-- **`set_state`** sets the view of a tunnel that has one, and nothing
else. -/
theorem setState_cases :
    (id ∉ w.current ∧ w.setState id state localAddr = w) ∨
    (id ∈ w.current ∧ ∃ l lv,
      w.setState id state localAddr = (w.withView id ⟨state, localAddr⟩).withLogs l lv) := by
  unfold setState
  cases hv : w.current.lookup id with
  | none => exact .inl ⟨Map.lookup_eq_none_iff.1 hv, rfl⟩
  | some view =>
      refine .inr ⟨Map.mem_iff.2 ⟨view, hv⟩, ?_⟩
      dsimp only
      split
      · exact ⟨_, _, rfl⟩
      · exact ⟨_, _, rfl⟩

/-- A field that neither a view nor a log entry is part of. -/
theorem setState_field {α : Type} (field : World → α)
    (h : ∀ view l lv, field ((w.withView id view).withLogs l lv) = field w) :
    field (w.setState id state localAddr) = field w := by
  rcases setState_cases w id state localAddr with ⟨-, heq⟩ | ⟨-, l, lv, heq⟩
  · rw [heq]
  · rw [heq, h]

@[simp] theorem setState_hosts : (w.setState id state localAddr).hosts = w.hosts :=
  setState_field w id state localAddr hosts fun _ _ _ => rfl

@[simp] theorem setState_groups : (w.setState id state localAddr).groups = w.groups :=
  setState_field w id state localAddr groups fun _ _ _ => rfl

@[simp] theorem setState_tunnels : (w.setState id state localAddr).tunnels = w.tunnels :=
  setState_field w id state localAddr tunnels fun _ _ _ => rfl

@[simp] theorem setState_active : (w.setState id state localAddr).active = w.active :=
  setState_field w id state localAddr active fun _ _ _ => rfl

@[simp] theorem setState_tasks : (w.setState id state localAddr).tasks = w.tasks :=
  setState_field w id state localAddr tasks fun _ _ _ => rfl

@[simp] theorem setState_history : (w.setState id state localAddr).history = w.history :=
  setState_field w id state localAddr history fun _ _ _ => rfl

@[simp] theorem setState_configViews : (w.setState id state localAddr).configViews = w.configViews :=
  setState_field w id state localAddr configViews fun _ _ _ => rfl

@[simp] theorem setState_stores : (w.setState id state localAddr).stores = w.stores :=
  setState_field w id state localAddr stores fun _ _ _ => rfl

/-- The views `set_state` leaves. -/
theorem setState_lookup (id' : TunnelId) :
    (w.setState id state localAddr).current.lookup id' =
      if id' = id ∧ id ∈ w.current then some ⟨state, localAddr⟩ else w.current.lookup id' := by
  rcases setState_cases w id state localAddr with ⟨hid, heq⟩ | ⟨hid, l, lv, heq⟩
  · rw [heq, if_neg fun h => hid h.2]
  · rw [heq]
    refine (Map.lookup_insert_eq id').trans ?_
    by_cases h : id' = id
    · rw [if_pos h, if_pos ⟨h, hid⟩]
    · rw [if_neg h, if_neg fun h' => h h'.1]

@[simp] theorem mem_setState_current {id' : TunnelId} :
    id' ∈ (w.setState id state localAddr).current ↔ id' ∈ w.current := by
  rw [← AList.lookup_isSome, setState_lookup]
  split
  · rename_i h
    exact iff_of_true rfl (h.1 ▸ h.2)
  · exact AList.lookup_isSome

theorem setState_published (h : w.snapshots = w.current) :
    (w.setState id state localAddr).snapshots = (w.setState id state localAddr).current := by
  rcases setState_cases w id state localAddr with ⟨-, heq⟩ | ⟨-, l, lv, heq⟩
  · rw [heq, h]
  · rw [heq]; rfl

end SetState

/-- **`start`** does nothing, blocks the tunnel, or spawns a task from
the tunnel and the hosts of its chain as they are. -/
theorem start_cases (env : Env) (id : TunnelId) (w : World) :
    ((id ∈ w.active ∨ id ∉ w.tunnels) ∧ w.start env id = w) ∨
    (id ∉ w.active ∧ id ∈ w.tunnels ∧
      ∃ reason, w.start env id = w.setState id (.blocked reason) none) ∨
    (id ∉ w.active ∧ ∃ tunnel hosts localAddr, w.tunnels.lookup id = some tunnel ∧
      tunnel.validate w.hosts w.groups = .ok () ∧
      tunnel.jumpChain.mapM (findHost w.hosts) = some hosts ∧
      acquire env tunnel = .ok localAddr ∧
      w.start env id =
        { (w.spawn id tunnel hosts).setState id (.connecting 1) localAddr with
          active := w.active.insert id w.tasks.length }) := by
  unfold start
  split
  · exact .inl ⟨.inl ‹_›, rfl⟩
  · rename_i hactive
    cases ht : w.tunnels.lookup id with
    | none => exact .inl ⟨.inr (Map.lookup_eq_none_iff.1 ht), rfl⟩
    | some tunnel =>
        have hmem : id ∈ w.tunnels := Map.mem_iff.2 ⟨tunnel, ht⟩
        dsimp only
        cases hval : tunnel.validate w.hosts w.groups with
        | error e => exact .inr (.inl ⟨hactive, hmem, _, rfl⟩)
        | ok u =>
            dsimp only
            cases hh : tunnel.jumpChain.mapM (findHost w.hosts) with
            | none => exact .inr (.inl ⟨hactive, hmem, _, rfl⟩)
            | some hosts =>
                dsimp only
                cases ha : acquire env tunnel with
                | error reason => exact .inr (.inl ⟨hactive, hmem, _, rfl⟩)
                | ok localAddr =>
                    refine .inr (.inr ⟨hactive, tunnel, hosts, localAddr, rfl, hval, hh, ha, ?_⟩)
                    dsimp only
                    rw [setState_active]
                    rfl

/-- **`stop`** awaits the task of an active tunnel, and shows the tunnel
as stopped. -/
theorem stop_cases (env : Env) (id : TunnelId) (w : World) :
    (id ∉ w.active ∧ w.stop env id = w.setState id .stopped none) ∨
    ∃ task, w.active.lookup id = some task ∧
      w.stop env id = ({ w with active := w.active.erase id }.endTask task (env.inTime id)).setState
        id .stopped none := by
  unfold stop
  cases h : w.active.lookup id with
  | none => exact .inl ⟨Map.lookup_eq_none_iff.1 h, rfl⟩
  | some task => exact .inr ⟨task, rfl, rfl⟩

/-! ### What starting and stopping leave alone -/

theorem stop_lookup_active (env : Env) (id id' : TunnelId) (w : World) :
    (w.stop env id).active.lookup id' = if id' = id then none else w.active.lookup id' := by
  rcases stop_cases env id w with ⟨hid, heq⟩ | ⟨task, -, heq⟩
  · rw [heq, setState_active]
    split
    · subst_vars; exact Map.lookup_eq_none_iff.2 hid
    · rfl
  · rw [heq, setState_active]
    exact Map.lookup_erase_eq id'

/-- A stop shows the tunnel as stopped, where it is shown at all. -/
theorem stop_lookup_current (env : Env) (id : TunnelId) (w : World) :
    (w.stop env id).current.lookup id = if id ∈ w.current then some ⟨.stopped, none⟩ else none := by
  rcases stop_cases env id w with ⟨-, heq⟩ | ⟨task, -, heq⟩
  all_goals
    rw [heq, setState_lookup]
    by_cases hid : id ∈ w.current
    · rw [if_pos ⟨rfl, hid⟩, if_pos hid]
    · rw [if_neg fun h => hid h.2, if_neg hid]
      exact Map.lookup_eq_none_iff.2 hid

/-- A field that neither the tasks nor a view is part of. -/
theorem stop_field {α : Type} (env : Env) (id : TunnelId) (w : World) (field : World → α)
    (hset : ∀ w id state localAddr, field (setState id state localAddr w) = field w)
    (hend : ∀ (w : World) active task inTime,
      field ({ w with active := active }.endTask task inTime) = field w) :
    field (w.stop env id) = field w := by
  rcases stop_cases env id w with ⟨-, heq⟩ | ⟨task, -, heq⟩
  · rw [heq, hset]
  · rw [heq, hset, hend]

@[simp] theorem stop_tunnels (env : Env) (id : TunnelId) (w : World) :
    (w.stop env id).tunnels = w.tunnels :=
  stop_field env id w tunnels setState_tunnels fun _ _ _ _ => rfl

@[simp] theorem stop_hosts (env : Env) (id : TunnelId) (w : World) :
    (w.stop env id).hosts = w.hosts :=
  stop_field env id w hosts setState_hosts fun _ _ _ _ => rfl

@[simp] theorem stop_groups (env : Env) (id : TunnelId) (w : World) :
    (w.stop env id).groups = w.groups :=
  stop_field env id w groups setState_groups fun _ _ _ _ => rfl

@[simp] theorem stop_configViews (env : Env) (id : TunnelId) (w : World) :
    (w.stop env id).configViews = w.configViews :=
  stop_field env id w configViews setState_configViews fun _ _ _ _ => rfl

@[simp] theorem stop_stores (env : Env) (id : TunnelId) (w : World) :
    (w.stop env id).stores = w.stores :=
  stop_field env id w stores setState_stores fun _ _ _ _ => rfl

/-- A field that neither the tasks, nor `active`, nor a view is part of. -/
theorem start_field {α : Type} (env : Env) (id : TunnelId) (w : World) (field : World → α)
    (hset : ∀ w id state localAddr, field (setState id state localAddr w) = field w)
    (hspawn : ∀ (w : World) id tunnel hosts, field (w.spawn id tunnel hosts) = field w)
    (hactive : ∀ (w : World) active, field { w with active := active } = field w) :
    field (w.start env id) = field w := by
  rcases start_cases env id w with ⟨-, heq⟩ | ⟨-, -, reason, heq⟩ |
    ⟨-, tunnel, hosts, localAddr, -, -, -, -, heq⟩
  · rw [heq]
  · rw [heq, hset]
  · rw [heq, hactive, hset, hspawn]

@[simp] theorem start_tunnels (env : Env) (id : TunnelId) (w : World) :
    (w.start env id).tunnels = w.tunnels :=
  start_field env id w tunnels setState_tunnels (fun _ _ _ _ => rfl) fun _ _ => rfl

@[simp] theorem start_hosts (env : Env) (id : TunnelId) (w : World) :
    (w.start env id).hosts = w.hosts :=
  start_field env id w hosts setState_hosts (fun _ _ _ _ => rfl) fun _ _ => rfl

@[simp] theorem start_groups (env : Env) (id : TunnelId) (w : World) :
    (w.start env id).groups = w.groups :=
  start_field env id w groups setState_groups (fun _ _ _ _ => rfl) fun _ _ => rfl

@[simp] theorem start_configViews (env : Env) (id : TunnelId) (w : World) :
    (w.start env id).configViews = w.configViews :=
  start_field env id w configViews setState_configViews (fun _ _ _ _ => rfl) fun _ _ => rfl

@[simp] theorem start_stores (env : Env) (id : TunnelId) (w : World) :
    (w.start env id).stores = w.stores :=
  start_field env id w stores setState_stores (fun _ _ _ _ => rfl) fun _ _ => rfl

/-- A start drops and adds no view. -/
@[simp] theorem mem_start_current {env : Env} {id id' : TunnelId} {w : World} :
    id' ∈ (w.start env id).current ↔ id' ∈ w.current := by
  rcases start_cases env id w with ⟨-, heq⟩ | ⟨-, -, reason, heq⟩ |
    ⟨-, tunnel, hosts, localAddr, -, -, -, -, heq⟩
  · rw [heq]
  · rw [heq, mem_setState_current]
  · rw [heq]
    exact mem_setState_current _ _ _ _

/-- Stopping several tunnels, one after another. -/
def stopEach (env : Env) (ids : List TunnelId) (w : World) : World :=
  ids.foldl (fun w id => w.stop env id) w

/-- Starting several tunnels, one after another. -/
def startEach (env : Env) (ids : List TunnelId) (w : World) : World :=
  ids.foldl (fun w id => w.start env id) w

theorem stopEach_lookup_active (env : Env) (ids : List TunnelId) (id' : TunnelId) (w : World) :
    (w.stopEach env ids).active.lookup id' = if id' ∈ ids then none else w.active.lookup id' := by
  induction ids generalizing w with
  | nil => rfl
  | cons id ids ih =>
      refine (ih (w.stop env id)).trans ?_
      rw [stop_lookup_active]
      by_cases h : id' = id
      · simp [h]
      · simp [h]

/-- A field no stop is about. -/
theorem stopEach_field {α : Type} (env : Env) (ids : List TunnelId) (w : World) (field : World → α)
    (h : ∀ id w, field (stop env id w) = field w) : field (w.stopEach env ids) = field w :=
  List.foldlRecOn (motive := fun v => field v = field w) ids _ rfl
    fun v hv id _ => (h id v).trans hv

@[simp] theorem stopEach_tunnels (env : Env) (ids : List TunnelId) (w : World) :
    (w.stopEach env ids).tunnels = w.tunnels := stopEach_field env ids w tunnels (stop_tunnels env)

@[simp] theorem stopEach_hosts (env : Env) (ids : List TunnelId) (w : World) :
    (w.stopEach env ids).hosts = w.hosts := stopEach_field env ids w hosts (stop_hosts env)

@[simp] theorem stopEach_configViews (env : Env) (ids : List TunnelId) (w : World) :
    (w.stopEach env ids).configViews = w.configViews :=
  stopEach_field env ids w configViews (stop_configViews env)

@[simp] theorem stopEach_stores (env : Env) (ids : List TunnelId) (w : World) :
    (w.stopEach env ids).stores = w.stores := stopEach_field env ids w stores (stop_stores env)

/-- A field no start is about. -/
theorem startEach_field {α : Type} (env : Env) (ids : List TunnelId) (w : World) (field : World → α)
    (h : ∀ id w, field (start env id w) = field w) : field (w.startEach env ids) = field w :=
  List.foldlRecOn (motive := fun v => field v = field w) ids _ rfl
    fun v hv id _ => (h id v).trans hv

/-! ### The poll -/

/-- **What the poll keeps**, if each of its parts does. The log entries
of the transitions leave the rest as it is. -/
theorem refresh_cases {I : Poll → Prop} (env : Env) (w : World)
    (hstart : I { world := w.prunePrompts }) (hpoll : ∀ p id, I p → I (pollOne env p id))
    (hfinish : ∀ p id, I p → I (finishOne p id)) :
    ∃ p l lv, I p ∧ w.refresh env =
      if p.changed then (p.world.withLogs l lv).publish else p.world.withLogs l lv := by
  unfold refresh
  dsimp only
  have hpolled := List.foldlRecOn (motive := I) (arrange (env.order 0) w.prunePrompts.active.keys)
    (pollOne env) hstart fun p hp id _ => hpoll p id hp
  generalize List.foldl (pollOne env) _ _ = q at hpolled ⊢
  have hended := List.foldlRecOn (motive := I) q.finished finishOne hpolled
    fun p hp id _ => hfinish p id hp
  generalize List.foldl finishOne _ _ = p at hended ⊢
  have hlogs : ∃ l lv, p.transitions.foldl (fun w t => w.logState t.1 t.2) p.world =
      p.world.withLogs l lv := by
    refine List.foldlRecOn (motive := fun w => ∃ l lv, w = p.world.withLogs l lv) _ _
      ⟨p.world.logs, p.world.logViews, rfl⟩ ?_
    rintro w ⟨l, lv, rfl⟩ t -
    exact ⟨_, _, rfl⟩
  obtain ⟨l, lv, hl⟩ := hlogs
  exact ⟨p, l, lv, hended, by rw [hl]⟩

/-- The prompts are no part of a world's tunnels. -/
theorem prunePrompts_cases (w : World) :
    ∃ kept views, w.prunePrompts = { w with pendingHostKeys := kept, hostKeyViews := views } := by
  unfold prunePrompts
  dsimp only
  split
  · exact ⟨_, _, rfl⟩
  · exact ⟨_, _, rfl⟩

/-! ### A new configuration -/

/-- The running tunnels a new configuration restarts. -/
def toRestart (env : Env) (config : DomainConfig) (w : World) : List TunnelId :=
  (arrange (env.order 0) w.active.keys).filter
    (w.needsRestart config.hosts (Map.ofValues TunnelConfig.id config.tunnels))

/-- `replace_config` up to its starts. -/
def exchange (env : Env) (config : DomainConfig) (w : World) : World :=
  ((({ w with configViews := config } : World).stopEach env (w.toRestart env config)).install config
    (Map.ofValues TunnelConfig.id config.tunnels)).publish

/-- What `replace_config` starts: what is marked for it, and what ran. -/
def toStart (env : Env) (config : DomainConfig) (w : World) : List TunnelId :=
  ((arrange (env.order 1) (Map.ofValues TunnelConfig.id config.tunnels).values).filter fun tunnel =>
    tunnel.autoStart || tunnel.id ∈ w.active.keys).map TunnelConfig.id

theorem replaceConfig_eq (env : Env) (config : DomainConfig) (w : World) :
    w.replaceConfig env config = (w.exchange env config).startEach env (w.toStart env config) := rfl

theorem mem_toRestart {env : Env} {config : DomainConfig} {w : World} {id : TunnelId} :
    id ∈ w.toRestart env config ↔ id ∈ w.active ∧
      w.needsRestart config.hosts (Map.ofValues TunnelConfig.id config.tunnels) id = true := by
  rw [toRestart, List.mem_filter, mem_arrange, AList.mem_keys]

theorem mem_toStart {env : Env} {config : DomainConfig} {w : World} {id : TunnelId} :
    id ∈ w.toStart env config ↔ ∃ tunnel,
      (Map.ofValues TunnelConfig.id config.tunnels).lookup id = some tunnel ∧
        (tunnel.autoStart = true ∨ id ∈ w.active) := by
  simp only [toStart, List.mem_map, List.mem_filter, mem_arrange, Map.mem_values, Bool.or_eq_true,
    decide_eq_true_eq, ← AList.mem_keys]
  constructor
  · rintro ⟨tunnel, ⟨⟨key, htunnel⟩, hwhy⟩, rfl⟩
    rw [Map.key_ofValues htunnel]
    exact ⟨tunnel, htunnel, Map.key_ofValues htunnel ▸ hwhy⟩
  · rintro ⟨tunnel, htunnel, hwhy⟩
    exact ⟨tunnel, ⟨⟨id, htunnel⟩, (Map.key_ofValues htunnel).symm ▸ hwhy⟩, Map.key_ofValues htunnel⟩

theorem mem_inGroup {env : Env} {group : GroupId} {w : World} {id : TunnelId} :
    id ∈ w.inGroup env group ↔
      ∃ tunnel, w.tunnels.lookup id = some tunnel ∧ tunnel.groupId = some group := by
  simp only [inGroup, List.mem_map, List.mem_filter, mem_arrange, Map.mem_lookup_iff_entries,
    decide_eq_true_eq]
  constructor
  · rintro ⟨⟨key, tunnel⟩, ⟨hmem, hgroup⟩, rfl⟩
    exact ⟨tunnel, hmem, hgroup⟩
  · rintro ⟨tunnel, hmem, hgroup⟩
    exact ⟨⟨id, tunnel⟩, ⟨hmem, hgroup⟩, rfl⟩

/-- **What is active after the exchange** was active before, and does
not need a restart. -/
theorem exchange_active (env : Env) (config : DomainConfig) (w : World) {id : TunnelId} {k : ℕ}
    (h : (w.exchange env config).active.lookup id = some k) :
    w.active.lookup id = some k ∧
      w.needsRestart config.hosts (Map.ofValues TunnelConfig.id config.tunnels) id = false := by
  have hlookup : (if id ∈ w.toRestart env config then none else w.active.lookup id) = some k :=
    (stopEach_lookup_active env _ id { w with configViews := config }).symm.trans h
  split at hlookup
  · simp at hlookup
  · rename_i hnot
    refine ⟨hlookup, Bool.eq_false_iff.2 fun hneeds => hnot ?_⟩
    exact mem_toRestart.2 ⟨Map.mem_iff.2 ⟨k, hlookup⟩, hneeds⟩

/-- A running tunnel that needs no restart is in both configurations,
and they agree on it and on its hosts. -/
theorem needsRestart_false {w : World} {hosts : List SshHost}
    {updated : Map TunnelId TunnelConfig} {id : TunnelId}
    (h : w.needsRestart hosts updated id = false) :
    ∃ old new, w.tunnels.lookup id = some old ∧ updated.lookup id = some new ∧
      sameTunnelRuntime old new = true ∧ ∀ hop ∈ old.jumpChain,
        sameHostConnection (findHost w.hosts hop) (findHost hosts hop) = true := by
  unfold needsRestart at h
  split at h
  · rename_i old new hold hnew
    simp only [Bool.or_eq_false_iff, Bool.not_eq_false', List.any_eq_false] at h
    exact ⟨old, new, hold, hnew, h.1, fun hop hmem => by simpa using h.2 hop hmem⟩
  · simp at h

/-- **What `replace_config` installs**: the configuration as it was
submitted. The stores are not looked at. -/
theorem replaceConfig_installs (env : Env) (config : DomainConfig) (w : World) :
    (w.replaceConfig env config).hosts = config.hosts ∧
    (w.replaceConfig env config).groups = config.groups ∧
    (w.replaceConfig env config).tunnels = Map.ofValues TunnelConfig.id config.tunnels ∧
    (w.replaceConfig env config).configViews = config ∧
    (w.replaceConfig env config).stores = w.stores := by
  rw [replaceConfig_eq]
  refine ⟨?_, ?_, ?_, ?_, ?_⟩
  · exact startEach_field env _ _ hosts (start_hosts env)
  · exact startEach_field env _ _ groups (start_groups env)
  · exact startEach_field env _ _ tunnels (start_tunnels env)
  · exact (startEach_field env _ _ configViews (start_configViews env)).trans
      (stopEach_configViews env _ { w with configViews := config })
  · exact (startEach_field env _ _ stores (start_stores env)).trans
      (stopEach_stores env _ { w with configViews := config })

/-- **`SaveConfig`** replaces the configuration exactly where it was
stored. -/
theorem saveConfig_cases (home : Option PathBuf) (codec : Codec) (env : Env) (directory : PathBuf)
    (config : DomainConfig) (secret : Option SecretUpdate) (w : World) :
    ∃ stores,
      ((w.saveConfig home codec env directory config secret).1 = .value () ∧
        (w.saveConfig home codec env directory config secret).2 =
          { w with stores }.replaceConfig env config) ∨
      ((w.saveConfig home codec env directory config secret).1 ≠ .value () ∧
        (w.saveConfig home codec env directory config secret).2 = { w with stores }) := by
  unfold saveConfig
  rcases persistConfig home codec directory config secret w.configViews.app.runAtStartup
    env.verdicts (0, w.stores) with ⟨result, n, stores⟩
  cases result with
  | value u => exact ⟨stores, .inl ⟨rfl, rfl⟩⟩
  | error e => exact ⟨stores, .inr ⟨nofun, rfl⟩⟩
  | cut => exact ⟨stores, .inr ⟨nofun, rfl⟩⟩

/-- What the sender of a save is told. -/
theorem saveConfig_fst (home : Option PathBuf) (codec : Codec) (env : Env) (directory : PathBuf)
    (config : DomainConfig) (secret : Option SecretUpdate) (w : World) :
    (w.saveConfig home codec env directory config secret).1 =
      (persistConfig home codec directory config secret w.configViews.app.runAtStartup env.verdicts
        (0, w.stores)).1 := by
  unfold saveConfig
  split
  · rename_i h; rw [h]
  · rename_i h; rw [h]

/-- What a save that is stored does. -/
theorem saveConfig_of_stored {home : Option PathBuf} {codec : Codec} {env : Env}
    {directory : PathBuf} {config : DomainConfig} {secret : Option SecretUpdate} {w : World}
    (h : (persistConfig home codec directory config secret w.configViews.app.runAtStartup
      env.verdicts (0, w.stores)).1 = .value ()) :
    (w.saveConfig home codec env directory config secret).2 =
      { w with stores := (persistConfig home codec directory config secret
        w.configViews.app.runAtStartup env.verdicts (0, w.stores)).2.2 }.replaceConfig env config := by
  unfold saveConfig
  split
  · rename_i heq; rw [heq]
  · rename_i hne heq
    rw [heq] at h
    exact (hne () h).elim

/-! ## Signals -/

/-- The task is signalled if it shows a state the command signals. -/
def hurry (signal : Signal) (task : ℕ) (w : World) : World :=
  if (w.stateOf task).any signal.notifies then w.notify task else w

/-- **`RetryTunnel` of a tunnel with a supervisor** is a look at its
state and perhaps a signal. -/
theorem retry_of_active {task : ℕ} (h : w.active.lookup id = some task) :
    w.retry env id = w.hurry .retryTunnel task := by
  simp only [retry, hurry, h]
  rcases w.stateOf task with _ | state
  · rfl
  · cases state <;> rfl

/-- **`NetworkRecovered`** is one for every supervisor. -/
theorem networkRecovered_eq : w.networkRecovered env =
    ((arrange (env.order 0) w.active.entries).map Sigma.snd).foldl
      (fun w task => w.hurry .networkRecovered task) w := by
  refine List.foldl_ext _ _ _ fun v task _ => ?_
  simp only [hurry]
  rcases v.stateOf task with _ | state
  · rfl
  · cases state <;> rfl

theorem hurry_cases (signal : Signal) (task : ℕ) :
    w.hurry signal task = w.notify task ∨ w.hurry signal task = w := by
  unfold hurry
  split
  · exact .inl rfl
  · exact .inr rfl

/-- What a signal keeps, `RetryTunnel` keeps where its start does. -/
theorem retry_keeps {I : World → Prop} (h : I w) (hnotify : ∀ task, I (w.notify task))
    (hstart : I (w.start env id)) : I (w.retry env id) := by
  cases hactive : w.active.lookup id with
  | none =>
      rw [retry, hactive]
      exact hstart
  | some task =>
      rw [retry_of_active hactive]
      rcases hurry_cases (w := w) .retryTunnel task with heq | heq
      · rw [heq]; exact hnotify task
      · rw [heq]; exact h

theorem networkRecovered_keeps {I : World → Prop} (h : I w)
    (hnotify : ∀ v task, I v → I (v.notify task)) : I (w.networkRecovered env) := by
  rw [networkRecovered_eq]
  refine List.foldlRecOn _ _ h fun v hv task _ => ?_
  rcases hurry_cases (w := v) .networkRecovered task with heq | heq
  · rw [heq]; exact hnotify v task hv
  · rw [heq]; exact hv

/-- A loop that has ended does not come back. -/
theorem step_running {home : Option PathBuf} {codec : Codec} {w : World} {input : Input}
    (h : (w.step home codec input).2.running = true) : w.running = true := by
  by_contra hw
  unfold step at h
  rw [if_pos (by simpa using hw)] at h
  exact hw h

/-- A command is processed while the loop runs. -/
theorem step_command {home : Option PathBuf} {codec : Codec} {w : World} {command : CoreCommand}
    {env : Env} (h : w.running = true) :
    w.step home codec (.command command env) = w.handle home codec env command := by
  rw [step, if_neg (by simp [h])]

end World

end Manager

end TunnelWarden
