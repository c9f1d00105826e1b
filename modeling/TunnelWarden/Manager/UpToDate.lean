import TunnelWarden.Manager.Bookkeeping

/-!
# Tasks and the configuration they run on

A supervisor task keeps the tunnel and the hosts it was started from,
and `replace_config` compares only the last two configurations. What
keeps a task up to date over any number of edits is that the two
comparisons are equalities of what a task uses, so agreement carries
over from the start to the present. A running tunnel that an edit does
not touch keeps its task.
-/

namespace TunnelWarden

namespace Manager

/-! ## The comparisons -/

/-- The two tunnels agree on everything a task uses of them. -/
structure TunnelAgrees (a b : TunnelConfig) : Prop where
  mode : a.mode = b.mode
  jumpChain : a.jumpChain = b.jumpChain
  localEnd : a.localEnd = b.localEnd
  remote : a.remote = b.remote
  reconnect : a.reconnect = b.reconnect

/-- The two hosts agree on everything a connection uses of them. -/
structure HostAgrees (a b : SshHost) : Prop where
  hostname : a.hostname = b.hostname
  port : a.port = b.port
  username : a.username = b.username
  auth : a.auth = b.auth
  hostKeyPolicy : a.hostKeyPolicy = b.hostKeyPolicy
  connectTimeout : a.connectTimeout = b.connectTimeout
  keepaliveInterval : a.keepaliveInterval = b.keepaliveInterval
  keepaliveMax : a.keepaliveMax = b.keepaliveMax

theorem sameTunnelRuntime_iff {a b : TunnelConfig} :
    sameTunnelRuntime a b = true ↔ TunnelAgrees a b := by
  simp only [sameTunnelRuntime, Bool.and_eq_true, decide_eq_true_eq]
  exact ⟨fun ⟨⟨⟨⟨h1, h2⟩, h3⟩, h4⟩, h5⟩ => ⟨h1, h2, h3, h4, h5⟩,
    fun h => ⟨⟨⟨⟨h.mode, h.jumpChain⟩, h.localEnd⟩, h.remote⟩, h.reconnect⟩⟩

theorem sameHostConnection_iff {a b : SshHost} :
    sameHostConnection (some a) (some b) = true ↔ HostAgrees a b := by
  simp only [sameHostConnection, Bool.and_eq_true, decide_eq_true_eq]
  exact ⟨fun ⟨⟨⟨⟨⟨⟨⟨h1, h2⟩, h3⟩, h4⟩, h5⟩, h6⟩, h7⟩, h8⟩ => ⟨h1, h2, h3, h4, h5, h6, h7, h8⟩,
    fun h => ⟨⟨⟨⟨⟨⟨⟨h.hostname, h.port⟩, h.username⟩, h.auth⟩, h.hostKeyPolicy⟩, h.connectTimeout⟩,
      h.keepaliveInterval⟩, h.keepaliveMax⟩⟩

theorem TunnelAgrees.refl (a : TunnelConfig) : TunnelAgrees a a := ⟨rfl, rfl, rfl, rfl, rfl⟩

theorem TunnelAgrees.trans {a b c : TunnelConfig} (h : TunnelAgrees a b) (h' : TunnelAgrees b c) :
    TunnelAgrees a c where
  mode := h.mode.trans h'.mode
  jumpChain := h.jumpChain.trans h'.jumpChain
  localEnd := h.localEnd.trans h'.localEnd
  remote := h.remote.trans h'.remote
  reconnect := h.reconnect.trans h'.reconnect

theorem HostAgrees.refl (a : SshHost) : HostAgrees a a := ⟨rfl, rfl, rfl, rfl, rfl, rfl, rfl, rfl⟩

theorem HostAgrees.trans {a b c : SshHost} (h : HostAgrees a b) (h' : HostAgrees b c) :
    HostAgrees a c where
  hostname := h.hostname.trans h'.hostname
  port := h.port.trans h'.port
  username := h.username.trans h'.username
  auth := h.auth.trans h'.auth
  hostKeyPolicy := h.hostKeyPolicy.trans h'.hostKeyPolicy
  connectTimeout := h.connectTimeout.trans h'.connectTimeout
  keepaliveInterval := h.keepaliveInterval.trans h'.keepaliveInterval
  keepaliveMax := h.keepaliveMax.trans h'.keepaliveMax

/-! ## Up to date -/

/-- The hosts of a chain, hop by hop, agree with the ones configured. -/
def ChainAgrees (hosts : List SshHost) (chain : List HostId) (used : List SshHost) : Prop :=
  List.Forall₂ (fun hop a => ∃ b, findHost hosts hop = some b ∧ HostAgrees a b) chain used

/-- What a task was started from agrees with the tunnel of that id and
the hosts configured. -/
def StartedFrom (tunnels : Map TunnelId TunnelConfig) (hosts : List SshHost) (id : TunnelId)
    (tunnel : TunnelConfig) (used : List SshHost) : Prop :=
  ∃ now, tunnels.lookup id = some now ∧ TunnelAgrees tunnel now ∧
    ChainAgrees hosts now.jumpChain used

/-- **Every running task is up to date.** -/
def UpToDate (w : World) : Prop :=
  ∀ id k t, w.active.lookup id = some k → w.tasks[k]? = some t →
    StartedFrom w.tunnels w.hosts id t.tunnel t.hosts

variable {w : World} {env : Env} {id : TunnelId}

/-- The hosts a start resolves are the ones configured. -/
theorem chainAgrees_of_mapM {hosts used : List SshHost} {chain : List HostId}
    (h : chain.mapM (findHost hosts) = some used) : ChainAgrees hosts chain used := by
  induction chain generalizing used with
  | nil =>
      obtain rfl : [] = used := by simpa using h
      exact .nil
  | cons hop chain ih =>
      rw [List.mapM_cons] at h
      cases hh : findHost hosts hop with
      | none => simp [hh] at h
      | some host =>
          cases hr : chain.mapM (findHost hosts) with
          | none => simp [hh, hr] at h
          | some rest =>
              obtain rfl : host :: rest = used := by simpa [hh, hr] using h
              exact .cons ⟨host, hh, HostAgrees.refl host⟩ (ih hr)

/-- Hosts that agree before and after an edit. -/
theorem ChainAgrees.trans {hosts hosts' used : List SshHost} {chain : List HostId}
    (h : ChainAgrees hosts chain used)
    (hsame : ∀ hop ∈ chain, sameHostConnection (findHost hosts hop) (findHost hosts' hop) = true) :
    ChainAgrees hosts' chain used := by
  induction h with
  | nil => exact .nil
  | @cons hop a chain used ha hrest ih =>
      obtain ⟨b, hb, hab⟩ := ha
      refine .cons ?_ (ih fun hop' hmem => hsame hop' (List.mem_cons_of_mem _ hmem))
      have hs := hsame hop List.mem_cons_self
      rw [hb] at hs
      -- A host that is gone is a change.
      cases hc : findHost hosts' hop with
      | none => rw [hc] at hs; simp [sameHostConnection] at hs
      | some c =>
          rw [hc] at hs
          exact ⟨c, rfl, hab.trans (sameHostConnection_iff.1 hs)⟩

/-- **Agreement carries over an edit that does not ask for a restart.** -/
theorem StartedFrom.edit {config : DomainConfig} {updated : Map TunnelId TunnelConfig}
    {tunnel : TunnelConfig} {used : List SshHost}
    (h : StartedFrom w.tunnels w.hosts id tunnel used)
    (hkeep : w.needsRestart config.hosts updated id = false) :
    StartedFrom updated config.hosts id tunnel used := by
  obtain ⟨now, hnow, hagrees, hchain⟩ := h
  obtain ⟨old, new, hold, hnew, hsame, hhosts⟩ := World.needsRestart_false hkeep
  obtain rfl := Option.some.inj (hnow.symm.trans hold)
  have htunnel := sameTunnelRuntime_iff.1 hsame
  refine ⟨new, hnew, hagrees.trans htunnel, ?_⟩
  rw [← htunnel.jumpChain]
  exact hchain.trans hhosts

/-! ## The inputs -/

namespace UpToDate

/-- Setting a view. -/
theorem setState (h : UpToDate w) (id : TunnelId) (state : SupervisorState)
    (localAddr : Option SocketAddr) : UpToDate (w.setState id state localAddr) := by
  intro id' k t hk ht
  rw [World.setState_active] at hk
  rw [World.setState_tasks] at ht
  rw [World.setState_tunnels, World.setState_hosts]
  exact h id' k t hk ht

/-- An update of one task that leaves alone what it was started from. -/
theorem modifyTask (h : UpToDate w) (k : ℕ) {f : Task → Task} (htunnel : ∀ t, (f t).tunnel = t.tunnel)
    (hhosts : ∀ t, (f t).hosts = t.hosts) : UpToDate { w with tasks := w.tasks.modify k f } := by
  intro id j t hj ht
  dsimp only at ht
  rw [List.getElem?_modify] at ht
  obtain ⟨t', ht', rfl⟩ := Option.map_eq_some_iff.1 ht
  have hold := h id j t' hj ht'
  split
  · rw [htunnel, hhosts]; exact hold
  · exact hold

/-- Fewer active tunnels. -/
theorem ofActive (h : UpToDate w) {active : Map TunnelId ℕ}
    (hsub : ∀ id k, active.lookup id = some k → w.active.lookup id = some k) :
    UpToDate { w with active := active } :=
  fun id k t hk ht => h id k t (hsub id k hk) ht

theorem endTask (h : UpToDate w) (k : ℕ) (inTime : Bool) : UpToDate (w.endTask k inTime) :=
  h.modifyTask k (fun _ => rfl) fun _ => rfl

theorem erase_sub {active : Map TunnelId ℕ} (id id' : TunnelId) (k : ℕ)
    (hk : (active.erase id).lookup id' = some k) : active.lookup id' = some k := by
  rw [Map.lookup_erase_eq] at hk
  split at hk
  · simp at hk
  · exact hk

theorem stop (h : UpToDate w) (env : Env) (id : TunnelId) : UpToDate (w.stop env id) := by
  rcases World.stop_cases env id w with ⟨-, heq⟩ | ⟨task, -, heq⟩
  · rw [heq]; exact h.setState id _ _
  · rw [heq]
    exact ((h.ofActive (erase_sub id)).endTask task (env.inTime id)).setState id _ _

/-- A start resolves the present configuration. -/
theorem start (h : UpToDate w) (hb : Bookkeeping w) (env : Env) (id : TunnelId) :
    UpToDate (w.start env id) := by
  rcases World.start_cases env id w with ⟨-, heq⟩ | ⟨-, -, reason, heq⟩ |
    ⟨-, tunnel, hosts, localAddr, htunnel, -, hhosts, -, heq⟩
  · rw [heq]; exact h
  · rw [heq]; exact h.setState id _ _
  · rw [heq]
    intro id' k t hk ht
    dsimp only at hk ht ⊢
    rw [World.setState_tasks] at ht
    rw [World.setState_tunnels, World.setState_hosts]
    rw [Map.lookup_insert_eq] at hk
    split at hk
    · obtain rfl := Option.some.inj hk
      subst_vars
      obtain rfl : { id := id', tunnel := tunnel, hosts := hosts } = t := by
        simpa [World.spawn] using ht
      exact ⟨tunnel, htunnel, TunnelAgrees.refl tunnel, chainAgrees_of_mapM hhosts⟩
    · obtain ⟨u, hu, -⟩ := hb.tasks.owned id' k hk
      have hlt := (List.getElem?_eq_some_iff.1 hu).1
      rw [World.spawn, List.getElem?_append_left hlt] at ht
      exact h id' k t hk ht

theorem stopEach (h : UpToDate w) (env : Env) (ids : List TunnelId) :
    UpToDate (w.stopEach env ids) :=
  List.foldlRecOn _ _ h fun _ hv id _ => hv.stop env id

theorem startEach (h : UpToDate w) (hb : Bookkeeping w) (env : Env) (ids : List TunnelId) :
    UpToDate (w.startEach env ids) :=
  (List.foldlRecOn (motive := fun v => UpToDate v ∧ Bookkeeping v) ids _ ⟨h, hb⟩
    fun _ hv id _ => ⟨hv.1.start hv.2 env id, hv.2.start env id⟩).1

/-- The poll takes note of states and awaits what is finished. -/
theorem pollOne {p : World.Poll} (h : UpToDate p.world) (env : Env) (id : TunnelId) :
    UpToDate (World.pollOne env p id).world := by
  unfold World.pollOne
  cases p.world.active.lookup id with
  | none => exact h
  | some task =>
      dsimp only
      cases p.world.tasks[task]? with
      | none => exact h
      | some t =>
          have hs : UpToDate (World.showState env p id task t).world := by
            unfold World.showState
            have hseen := h.modifyTask task (f := fun t => { t with changed := false })
              (fun _ => rfl) fun _ => rfl
            split
            · dsimp only
              split <;> exact hseen
            · exact h
          dsimp only
          split <;> exact hs

theorem finishOne {p : World.Poll} (h : UpToDate p.world) (id : TunnelId) :
    UpToDate (World.finishOne p id).world := by
  unfold World.finishOne
  cases p.world.active.lookup id with
  | none => exact h
  | some task =>
      have hended := (h.ofActive (erase_sub id)).endTask task true
      dsimp only
      split <;> exact hended

theorem refresh (h : UpToDate w) (env : Env) : UpToDate (w.refresh env) := by
  have hstart : UpToDate w.prunePrompts := by
    obtain ⟨kept, views, heq⟩ := w.prunePrompts_cases
    rw [heq]; exact h
  obtain ⟨p, l, lv, hp, heq⟩ := World.refresh_cases (I := fun p => UpToDate p.world) env w hstart
    (fun _ id hp => hp.pollOne env id) fun _ id hp => hp.finishOne id
  rw [heq]
  split <;> exact hp

/-- **A new configuration.** What still runs after the stops did not ask
for a restart. -/
theorem replaceConfig (h : UpToDate w) (hb : Bookkeeping w) (env : Env) (config : DomainConfig) :
    UpToDate (w.replaceConfig env config) := by
  rw [World.replaceConfig_eq]
  refine UpToDate.startEach ?_ (hb.exchange env config) env _
  intro id k t hk ht
  obtain ⟨hact, hkeep⟩ := World.exchange_active env config w hk
  refine StartedFrom.edit ?_ hkeep
  have hviews : UpToDate { w with configViews := config } := h
  have hold := hviews.stopEach env (w.toRestart env config) id k t hk ht
  rwa [World.stopEach_tunnels, World.stopEach_hosts] at hold

theorem saveConfig (h : UpToDate w) (hb : Bookkeeping w) (home : Option PathBuf) (codec : Codec)
    (env : Env) (directory : PathBuf) (config : DomainConfig) (secret : Option SecretUpdate) :
    UpToDate (w.saveConfig home codec env directory config secret).2 := by
  obtain ⟨stores, hsave⟩ := World.saveConfig_cases home codec env directory config secret w
  have hstores : UpToDate { w with stores } := h
  rcases hsave with ⟨-, heq⟩ | ⟨-, heq⟩
  · rw [heq]; exact hstores.replaceConfig ⟨⟨hb.views, hb.tasks⟩, hb.published⟩ env config
  · rw [heq]; exact hstores

theorem notify (h : UpToDate w) (task : ℕ) : UpToDate (w.notify task) :=
  h.modifyTask task (fun _ => rfl) fun _ => rfl

theorem networkRecovered (h : UpToDate w) (env : Env) : UpToDate (w.networkRecovered env) :=
  World.networkRecovered_keeps h fun _ task hv => hv.notify task

theorem retry (h : UpToDate w) (hb : Bookkeeping w) (env : Env) (id : TunnelId) :
    UpToDate (w.retry env id) :=
  World.retry_keeps h h.notify (h.start hb env id)

theorem handle (h : UpToDate w) (hb : Bookkeeping w) (home : Option PathBuf) (codec : Codec)
    (env : Env) (command : CoreCommand) : UpToDate (w.handle home codec env command).2 := by
  cases command with
  | startAll => exact h.startEach hb env _
  | stopAll => exact h.stopEach env _
  | startGroup group => exact h.startEach hb env _
  | stopGroup group => exact h.stopEach env _
  | startTunnel id => exact h.start hb env id
  | stopTunnel id => exact h.stop env id
  | restartTunnel id => exact (h.stop env id).start (hb.stop env id) env id
  | retryTunnel id => exact h.retry hb env id
  | networkRecovered => exact h.networkRecovered env
  | saveConfig directory config secret =>
      exact h.saveConfig hb home codec env directory config secret
  | importConfig path => exact h
  | previewSshConfig path => exact h
  | exportConfig path config => exact h
  | resolveHostKey k decision =>
      dsimp only [World.handle, World.resolveHostKey]
      split <;> exact h

/-- **One input keeps every task up to date.** -/
theorem step (h : UpToDate w) (hb : Bookkeeping w) (home : Option PathBuf) (codec : Codec)
    (input : Input) (hrun : (w.step home codec input).2.running = true) :
    UpToDate (w.step home codec input).2 := by
  unfold World.step at hrun ⊢
  split at hrun
  · rw [if_pos ‹_›]; exact h
  · rename_i hw
    rw [if_neg hw]
    cases input with
    | command command env => exact h.handle hb home codec env command
    | prompt prompt =>
        dsimp only [World.queueHostKey]
        split <;> exact h
    | tick env =>
        dsimp only
        split
        · exact h
        · exact h.refresh env
    | report task state =>
        refine h.modifyTask task (fun t => ?_) fun t => ?_
        · split <;> rfl
        · split <;> rfl
    | exit task result =>
        refine h.modifyTask task (fun t => ?_) fun t => ?_
        · split <;> rfl
        · split <;> rfl
    | giveUp reply => exact h
    | shutdown env => simp [Bookkeeping.drain_running] at hrun

end UpToDate

/-! ## What an edit does not touch -/

/-- The new configuration has the tunnel and its hosts as they are. -/
structure Unchanged (w : World) (config : DomainConfig) (id : TunnelId) (old new : TunnelConfig) :
    Prop where
  before : w.tunnels.lookup id = some old
  after : (Map.ofValues TunnelConfig.id config.tunnels).lookup id = some new
  tunnel : TunnelAgrees old new
  hosts : ∀ hop ∈ old.jumpChain, ∃ a b, findHost w.hosts hop = some a ∧
    findHost config.hosts hop = some b ∧ HostAgrees a b

theorem Unchanged.needsRestart {config : DomainConfig} {old new : TunnelConfig}
    (h : Unchanged w config id old new) :
    w.needsRestart config.hosts (Map.ofValues TunnelConfig.id config.tunnels) id = false := by
  unfold World.needsRestart
  rw [h.before, h.after]
  dsimp only
  rw [sameTunnelRuntime_iff.2 h.tunnel, Bool.or_eq_false_iff, List.any_eq_false]
  refine ⟨rfl, fun hop hmem => ?_⟩
  obtain ⟨a, b, ha, hb, hab⟩ := h.hosts hop hmem
  rw [ha, hb, sameHostConnection_iff.2 hab]
  simp

/-- The tunnel runs as task `k`, which is `t`. -/
def RunsAs (id : TunnelId) (k : ℕ) (t : Task) (w : World) : Prop :=
  w.active.lookup id = some k ∧ w.tasks[k]? = some t

namespace RunsAs

variable {k : ℕ} {t : Task}

/-- Stopping another tunnel ends another task. -/
theorem stop (h : RunsAs id k t w) (hb : Bookkeeping w) (env : Env) {other : TunnelId}
    (hne : id ≠ other) : RunsAs id k t (w.stop env other) := by
  refine ⟨by rw [World.stop_lookup_active, if_neg hne, h.1], ?_⟩
  rcases World.stop_cases env other w with ⟨-, heq⟩ | ⟨task, htask, heq⟩
  · rw [heq, World.setState_tasks]; exact h.2
  · have hdiff : task ≠ k := by
      rintro rfl
      -- Both tunnels would own the task.
      obtain ⟨u, hu, hid⟩ := hb.tasks.owned other task htask
      obtain ⟨v, hv, hid'⟩ := hb.tasks.owned id task h.1
      exact hne (hid'.symm.trans ((Option.some.inj (hv.symm.trans hu)) ▸ hid))
    rw [heq, World.setState_tasks]
    exact (List.getElem?_modify_ne _ _ hdiff).trans h.2

/-- A start leaves what runs. -/
theorem start (h : RunsAs id k t w) (env : Env) (other : TunnelId) :
    RunsAs id k t (w.start env other) := by
  rcases World.start_cases env other w with ⟨-, heq⟩ | ⟨-, -, reason, heq⟩ |
    ⟨hother, tunnel, hosts, localAddr, -, -, -, -, heq⟩
  · rw [heq]; exact h
  · rw [heq]; exact ⟨by rw [World.setState_active, h.1], by rw [World.setState_tasks, h.2]⟩
  · have hne : id ≠ other := by
      rintro rfl
      exact hother (Map.mem_iff.2 ⟨k, h.1⟩)
    rw [heq]
    refine ⟨(AList.lookup_insert_ne hne).trans h.1, ?_⟩
    dsimp only
    rw [World.setState_tasks, World.spawn,
      List.getElem?_append_left (List.getElem?_eq_some_iff.1 h.2).1, h.2]

theorem stopEach (h : RunsAs id k t w) (hb : Bookkeeping w) (env : Env) {ids : List TunnelId}
    (hids : id ∉ ids) : RunsAs id k t (w.stopEach env ids) :=
  (List.foldlRecOn (motive := fun v => RunsAs id k t v ∧ Bookkeeping v) ids _ ⟨h, hb⟩
    fun _ hv other hmem => ⟨hv.1.stop hv.2 env fun heq => hids (heq ▸ hmem), hv.2.stop env other⟩).1

theorem startEach (h : RunsAs id k t w) (env : Env) (ids : List TunnelId) :
    RunsAs id k t (w.startEach env ids) :=
  List.foldlRecOn _ _ h fun _ hv other _ => hv.start env other

/-- **A new configuration leaves a tunnel it does not change running.** -/
theorem replaceConfig (h : RunsAs id k t w) (hb : Bookkeeping w) (env : Env)
    {config : DomainConfig} {old new : TunnelConfig} (hsame : Unchanged w config id old new) :
    RunsAs id k t (w.replaceConfig env config) := by
  have hviews : RunsAs id k t { w with configViews := config } := h
  have hbviews : Bookkeeping { w with configViews := config } := ⟨⟨hb.views, hb.tasks⟩, hb.published⟩
  have hnot : id ∉ w.toRestart env config := by
    intro hmem
    have hneeds := (World.mem_toRestart.1 hmem).2
    rw [hsame.needsRestart] at hneeds
    exact Bool.false_ne_true hneeds
  have hexchanged : RunsAs id k t (w.exchange env config) := hviews.stopEach hbviews env hnot
  rw [World.replaceConfig_eq]
  exact hexchanged.startEach env _

end RunsAs

/-! ## Along every run -/

theorem upToDate_booted {w : World} (h : Booted w) : UpToDate w := by
  obtain ⟨order, hosts, groups, configs, app, stores, env, w₀, hnew, rfl⟩ := h
  have h0 : UpToDate w₀ := by
    intro id k t hk ht
    -- The manager begins with nothing active.
    unfold new at hnew
    split at hnew
    · simp at hnew
    · split at hnew
      · simp at hnew
      · obtain rfl := Except.ok.inj hnew
        simp at hk
  have hb := bookkeeping_new hnew
  exact UpToDate.startEach (w := { (w₀.withAppSettings app) with stores, autoStart := [] }) h0
    ⟨⟨hb.views, hb.tasks⟩, hb.published⟩ env w₀.autoStart

/-- The tasks are up to date along every run. -/
theorem upToDate_reached {home : Option PathBuf} {codec : Codec} {w : World} (hw : Booted w)
    (inputs : List Input) (hrun : (runState (World.step home codec) w inputs).running = true) :
    UpToDate (runState (World.step home codec) w inputs) := by
  refine (runState_invariant (I := fun w : World => w.running = true → Bookkeeping w ∧ UpToDate w)
    (fun v input h hrun => ?_) (fun _ => ⟨bookkeeping_booted hw, upToDate_booted hw⟩) inputs hrun).2
  have hv : v.running = true := World.step_running hrun
  exact ⟨Bookkeeping.step (fun hv => (h hv).1) home codec input hrun,
    (h hv).2.step (h hv).1 home codec input hrun⟩

/-- **No supervisor runs on an outdated configuration.** In every state
a run reaches, an active tunnel's task was started from a tunnel and
hosts that agree with the present ones; a save that succeeds makes those
it stored the present ones; and a save that leaves a tunnel and its hosts
alone leaves the task running. -/
theorem upToDate_run (home : Option PathBuf) (codec : Codec) {w : World} (hw : Booted w)
    (inputs : List Input) (hrun : (runState (World.step home codec) w inputs).running = true) :
    let v := runState (World.step home codec) w inputs
    (∀ id k, v.active.lookup id = some k → ∃ t, v.tasks[k]? = some t ∧ t.id = id ∧
      StartedFrom v.tunnels v.hosts id t.tunnel t.hosts) ∧
    (∀ (env : Env) (directory : PathBuf) (config : DomainConfig) (secret : Option SecretUpdate),
      let saved := v.step home codec (.command (.saveConfig directory config secret) env)
      saved.1 = some (.saved (.value ())) →
        saved.2.tunnels = Map.ofValues TunnelConfig.id config.tunnels ∧
          saved.2.hosts = config.hosts) ∧
    ∀ (env : Env) (directory : PathBuf) (config : DomainConfig) (secret : Option SecretUpdate)
      (id : TunnelId) (k : ℕ) (t : Task) (old new : TunnelConfig),
      RunsAs id k t v → Unchanged v config id old new →
      RunsAs id k t (v.step home codec (.command (.saveConfig directory config secret) env)).2 := by
  intro v
  have hb : Bookkeeping v := bookkeeping_reached hw inputs hrun
  refine ⟨fun id k hk => ?_, fun env directory config secret => ?_,
    fun env directory config secret id k t old new hruns hsame => ?_⟩
  · obtain ⟨t, ht, hid⟩ := hb.tasks.owned id k hk
    exact ⟨t, ht, hid, upToDate_reached hw inputs hrun id k t hk ht⟩
  · intro saved hsaved
    dsimp only [saved] at hsaved ⊢
    rw [World.step_command hrun] at hsaved ⊢
    dsimp only [World.handle] at hsaved ⊢
    obtain ⟨stores, ⟨-, heq⟩ | ⟨hfailed, -⟩⟩ :=
      World.saveConfig_cases home codec env directory config secret v
    · rw [heq]
      obtain ⟨hhosts, -, htunnels, -⟩ := World.replaceConfig_installs env config { v with stores }
      exact ⟨htunnels, hhosts⟩
    · exact absurd (by simpa using hsaved) hfailed
  · rw [World.step_command hrun]
    obtain ⟨stores, hsave⟩ := World.saveConfig_cases home codec env directory config secret v
    have hstores : RunsAs id k t { v with stores } := hruns
    rcases hsave with ⟨-, heq⟩ | ⟨-, heq⟩
    · dsimp only [World.handle]
      rw [heq]
      have hsame' : Unchanged { v with stores } config id old new :=
        ⟨hsame.before, hsame.after, hsame.tunnel, hsame.hosts⟩
      exact hstores.replaceConfig ⟨⟨hb.views, hb.tasks⟩, hb.published⟩ env hsame'
    · dsimp only [World.handle]
      rw [heq]; exact hstores

/-- The tunnel under another name. -/
def renamedTunnel : TunnelConfig := { socksTunnel with name := "Proxy" }

/-- After a restart the second task runs, up to date, and a new name
leaves it alone. -/
theorem upToDate_run_labWorld :
    let v := runState (World.step none defaultCodec) labWorld
      [.command (.restartTunnel ⟨"socks"⟩) calm]
    let renamed : DomainConfig := { hosts := [labHost], tunnels := [renamedTunnel] }
    let t : Task := { id := ⟨"socks"⟩, tunnel := socksTunnel, hosts := [labHost] }
    StartedFrom v.tunnels v.hosts ⟨"socks"⟩ t.tunnel t.hosts ∧
      RunsAs ⟨"socks"⟩ 1 t
        (v.step none defaultCodec (.command (.saveConfig appDirectory renamed none) calm)).2 := by
  intro v renamed t
  have hrun := upToDate_run none defaultCodec booted_labWorld
    [.command (.restartTunnel ⟨"socks"⟩) calm] (by decide +kernel)
  have hruns : RunsAs ⟨"socks"⟩ 1 t v := ⟨by decide +kernel, by rfl⟩
  obtain ⟨u, hu, -, hfrom⟩ := hrun.1 ⟨"socks"⟩ 1 hruns.1
  obtain rfl := Option.some.inj (hu.symm.trans hruns.2)
  refine ⟨hfrom, hrun.2.2 calm appDirectory renamed none _ 1 _ socksTunnel renamedTunnel hruns ?_⟩
  refine ⟨by decide +kernel, by decide +kernel, ⟨rfl, rfl, rfl, rfl, rfl⟩, fun hop hmem => ?_⟩
  obtain rfl := List.mem_singleton.1 hmem
  exact ⟨labHost, labHost, by decide +kernel, by decide +kernel, HostAgrees.refl labHost⟩

end Manager

end TunnelWarden
