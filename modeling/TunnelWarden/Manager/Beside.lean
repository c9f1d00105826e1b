import TunnelWarden.Manager.Steps

/-!
# Fields the tunnels are no part of

Most of what the manager does concerns the tasks, the stores and what is
shown of the tunnels. A field beside these (`Beside`) is kept by every
operation but the few that are about it.
-/

namespace TunnelWarden

namespace Manager

namespace World

/-- A field that no view, log entry, task or store is part of. -/
def Beside {α : Type} (field : World → α) : Prop :=
  ∀ (w : World) current snapshots logs logViews active tasks history stores,
    field { w with
      current := current, snapshots := snapshots, logs := logs, logViews := logViews,
      active := active, tasks := tasks, history := history, stores := stores } = field w

namespace Beside

variable {α : Type} {field : World → α} (hf : Beside field)
include hf

/-- A view and a log entry are all that is written. -/
theorem setState (w : World) (id : TunnelId) (state : SupervisorState)
    (localAddr : Option SocketAddr) : field (w.setState id state localAddr) = field w :=
  setState_field w id state localAddr field fun _ _ _ => hf w _ _ _ _ _ _ _ _

/-- The task, and what its tunnel is shown as. -/
theorem start (env : Env) (id : TunnelId) (w : World) : field (w.start env id) = field w :=
  start_field env id w field hf.setState (fun w _ _ _ => hf w _ _ _ _ _ _ _ _)
    fun w _ => hf w _ _ _ _ _ _ _ _

/-- The handle is awaited, and nothing else waits for it. -/
theorem stop (env : Env) (id : TunnelId) (w : World) : field (w.stop env id) = field w :=
  stop_field env id w field hf.setState fun w _ _ _ => hf w _ _ _ _ _ _ _ _

theorem startEach (env : Env) (ids : List TunnelId) (w : World) :
    field (w.startEach env ids) = field w := startEach_field env ids w field (hf.start env)

theorem stopEach (env : Env) (ids : List TunnelId) (w : World) :
    field (w.stopEach env ids) = field w := stopEach_field env ids w field (hf.stop env)

/-- A hint is left with the task. -/
theorem notify (w : World) (task : ℕ) : field (w.notify task) = field w :=
  hf w _ _ _ _ _ _ _ _

theorem retry (env : Env) (id : TunnelId) (w : World) : field (w.retry env id) = field w :=
  retry_keeps (I := fun v => field v = field w) rfl (hf.notify w) (hf.start env id w)

/-- Hints, for the tasks in backoff. -/
theorem networkRecovered (env : Env) (w : World) : field (w.networkRecovered env) = field w :=
  networkRecovered_keeps (I := fun v => field v = field w) rfl
    fun v task hv => (hf.notify v task).trans hv

/-! ### The poll -/

theorem showState (env : Env) (p : Poll) (id : TunnelId) (task : ℕ) (t : Task) :
    field (showState env p id task t).world = field p.world := by
  unfold World.showState
  split
  · dsimp only
    split
    · exact hf p.world _ _ _ _ _ _ _ _
    · exact hf p.world _ _ _ _ _ _ _ _
  · rfl

/-- What is shown of a task, and whether it is finished. -/
theorem pollOne (env : Env) (p : Poll) (id : TunnelId) :
    field (pollOne env p id).world = field p.world := by
  unfold World.pollOne
  split
  · rfl
  · split
    · rfl
    · dsimp only
      split
      · exact hf.showState env p id _ _
      · exact hf.showState env p id _ _

theorem finishOne (p : Poll) (id : TunnelId) :
    field (finishOne p id).world = field p.world := by
  unfold World.finishOne
  split
  · rfl
  · dsimp only
    split
    · exact hf p.world _ _ _ _ _ _ _ _
    · exact hf p.world _ _ _ _ _ _ _ _

/-- Of the poll, only the prompts that are dropped are left. -/
theorem refresh (env : Env) (w : World) : field (w.refresh env) = field w.prunePrompts := by
  obtain ⟨p, l, lv, hp, heq⟩ :=
    refresh_cases (I := fun p => field p.world = field w.prunePrompts) env w rfl
      (fun p id h => (hf.pollOne env p id).trans h) fun p id h => (hf.finishOne p id).trans h
  rw [heq, ← hp]
  split
  · exact hf p.world _ _ _ _ _ _ _ _
  · exact hf p.world _ _ _ _ _ _ _ _

/-! ### Commands -/

/-- **Every command** but the two that are about fields beside the
tunnels. -/
theorem handle (home : Option PathBuf) (codec : Codec) (env : Env) (command : CoreCommand)
    (w : World) (hsave : ∀ directory config secret, command ≠ .saveConfig directory config secret)
    (hresolve : ∀ id decision, command ≠ .resolveHostKey id decision) :
    field (w.handle home codec env command).2 = field w := by
  cases command with
  | startAll => exact hf.startEach env _ w
  | stopAll => exact hf.stopEach env _ w
  | startGroup group => exact hf.startEach env _ w
  | stopGroup group => exact hf.stopEach env _ w
  | startTunnel id => exact hf.start env id w
  | stopTunnel id => exact hf.stop env id w
  | restartTunnel id => exact (hf.start env id _).trans (hf.stop env id w)
  | retryTunnel id => exact hf.retry env id w
  | networkRecovered => exact hf.networkRecovered env w
  | saveConfig directory config secret => exact absurd rfl (hsave directory config secret)
  | importConfig path => exact hf w _ _ _ _ _ _ _ _
  | previewSshConfig path => rfl
  | exportConfig path config => exact hf w _ _ _ _ _ _ _ _
  | resolveHostKey id decision => exact absurd rfl (hresolve id decision)

/-- A new configuration, if that is no part of the field either. -/
theorem replaceConfig
    (hconfig : ∀ (w : World) hosts groups tunnels configViews, field { w with
      hosts := hosts, groups := groups, tunnels := tunnels, configViews := configViews } = field w)
    (env : Env) (config : DomainConfig) (w : World) :
    field (w.replaceConfig env config) = field w := by
  rw [replaceConfig_eq, hf.startEach]
  have hstopped := hf.stopEach env (w.toRestart env config) { w with configViews := config }
  generalize hv : ({ w with configViews := config } : World).stopEach env
    (w.toRestart env config) = v at hstopped
  -- the maps are exchanged, and then the views are made to fit
  have hexchange : w.exchange env config =
      (v.install config (Map.ofValues TunnelConfig.id config.tunnels)).publish := by
    rw [exchange, hv]
  rw [hexchange]
  refine (hf { v with
      hosts := config.hosts
      groups := config.groups
      tunnels := Map.ofValues TunnelConfig.id config.tunnels } _ _ v.logs v.logViews v.active
    v.tasks v.history v.stores).trans ?_
  refine (hconfig v _ _ _ v.configViews).trans ?_
  exact hstopped.trans (hconfig w w.hosts w.groups w.tunnels config)

/-- The stores change also where the save fails. -/
theorem saveConfig
    (hconfig : ∀ (w : World) hosts groups tunnels configViews, field { w with
      hosts := hosts, groups := groups, tunnels := tunnels, configViews := configViews } = field w)
    (home : Option PathBuf) (codec : Codec) (env : Env) (directory : PathBuf)
    (config : DomainConfig) (secret : Option SecretUpdate) (w : World) :
    field (w.saveConfig home codec env directory config secret).2 = field w := by
  have hstores (stores : Stores) : field { w with stores } = field w := hf w _ _ _ _ _ _ _ _
  obtain ⟨stores, ⟨-, heq⟩ | ⟨-, heq⟩⟩ :=
    saveConfig_cases home codec env directory config secret w
  · rw [heq, hf.replaceConfig hconfig, hstores]
  · rw [heq, hstores]

/-- The end of `run`. -/
theorem drain (env : Env) (w : World) :
    field (w.drain env) = field { w with pendingHostKeys := [], running := false } :=
  List.foldlRecOn
    (motive := fun v => field v = field { w with pendingHostKeys := [], running := false })
    (arrange (env.order 0) w.active.entries) _ rfl
    fun v hv _ _ => (hf v _ _ _ _ _ _ _ _).trans hv

end Beside

/-- **The published configuration** changes by a `SaveConfig` only. -/
theorem step_configViews (home : Option PathBuf) (codec : Codec) (w : World) {input : Input}
    (hsave : ∀ directory config secret env,
      input ≠ .command (.saveConfig directory config secret) env) :
    (w.step home codec input).2.configViews = w.configViews := by
  have hf : Beside configViews := fun _ _ _ _ _ _ _ _ _ => rfl
  unfold step
  split
  · rfl
  · cases input with
    | command command env =>
        by_cases hresolve : ∃ id decision, command = .resolveHostKey id decision
        · obtain ⟨id, decision, rfl⟩ := hresolve
          dsimp only [World.handle, World.resolveHostKey]
          split
          · rfl
          · rfl
        · refine hf.handle home codec env command w (fun directory config secret heq => ?_)
            fun id decision heq => hresolve ⟨id, decision, heq⟩
          exact hsave directory config secret env (by rw [heq])
    | prompt prompt =>
        dsimp only [World.queueHostKey]
        split
        · rfl
        · rfl
    | tick env =>
        dsimp only
        split
        · rfl
        · rw [hf.refresh]
          obtain ⟨kept, views, heq⟩ := prunePrompts_cases w
          rw [heq]
    | report task state => rfl
    | exit task result => rfl
    | giveUp reply => rfl
    | shutdown env => exact hf.drain env w

end World

end Manager

end TunnelWarden
