import TunnelWarden.Manager.Beside
import TunnelWarden.Store.Keyring

/-!
# The keyring of the manager

Only a `SaveConfig` looks at the keyring, and it changes the entry of its
own secret at most.
-/

namespace TunnelWarden

namespace Manager

namespace World

variable {w : World} {env : Env}

/-! ## The poll -/

theorem showState_keyring (env : Env) (p : Poll) (id : TunnelId) (task : ℕ) (t : Task) :
    (showState env p id task t).world.stores.keyring = p.world.stores.keyring := by
  unfold showState
  split
  · dsimp only
    split
    · rfl
    · rfl
  · rfl

/-- No state of a task is a secret. -/
theorem pollOne_keyring (env : Env) (p : Poll) (id : TunnelId) :
    (pollOne env p id).world.stores.keyring = p.world.stores.keyring := by
  unfold pollOne
  split
  · rfl
  · split
    · rfl
    · dsimp only
      split
      · exact showState_keyring env p id _ _
      · exact showState_keyring env p id _ _

/-- A task that ended took its secrets with it. -/
theorem finishOne_keyring (p : Poll) (id : TunnelId) :
    (finishOne p id).world.stores.keyring = p.world.stores.keyring := by
  unfold finishOne
  split
  · rfl
  · dsimp only
    split
    · rfl
    · rfl

/-- **The poll** does not look at the keyring. -/
theorem refresh_keyring (env : Env) (w : World) :
    (w.refresh env).stores.keyring = w.stores.keyring := by
  have hprune : w.prunePrompts.stores.keyring = w.stores.keyring := by
    obtain ⟨kept, views, heq⟩ := prunePrompts_cases w
    rw [heq]
  obtain ⟨p, l, lv, hp, heq⟩ := refresh_cases
    (I := fun p => p.world.stores.keyring = w.stores.keyring) env w hprune
    (fun p id hp => (pollOne_keyring env p id).trans hp)
    fun p id hp => (finishOne_keyring p id).trans hp
  rw [heq]
  split
  · exact hp
  · exact hp

/-! ## Commands -/

/-- A start hands out references, and the supervisor looks them up. -/
theorem startEach_keyring (env : Env) (ids : List TunnelId) (w : World) :
    (w.startEach env ids).stores.keyring = w.stores.keyring := by
  rw [startEach_field env ids w stores (start_stores env)]

theorem stopEach_keyring (env : Env) (ids : List TunnelId) (w : World) :
    (w.stopEach env ids).stores.keyring = w.stores.keyring := by
  rw [stopEach_stores]

/-- **A command** that saves nothing leaves every entry. -/
theorem handle_keyring (home : Option PathBuf) (codec : Codec) (env : Env) (w : World)
    {command : CoreCommand}
    (hsave : ∀ directory config secret, command ≠ .saveConfig directory config secret) :
    (w.handle home codec env command).2.stores.keyring = w.stores.keyring := by
  cases command with
  | startAll => exact startEach_keyring env _ w
  | stopAll => exact stopEach_keyring env _ w
  | startGroup group => exact startEach_keyring env _ w
  | stopGroup group => exact stopEach_keyring env _ w
  | startTunnel id => exact congrArg Stores.keyring (start_stores env id w)
  | stopTunnel id => exact congrArg Stores.keyring (stop_stores env id w)
  | restartTunnel id =>
      have hstart := start_stores env id (w.stop env id)
      exact congrArg Stores.keyring (hstart.trans (stop_stores env id w))
  | retryTunnel id =>
      exact retry_keeps (I := fun v => v.stores.keyring = w.stores.keyring) rfl
        (fun _ => rfl) (congrArg Stores.keyring (start_stores env id w))
  | networkRecovered =>
      exact networkRecovered_keeps (I := fun v => v.stores.keyring = w.stores.keyring) rfl
        fun _ _ hv => hv
  | saveConfig directory config secret => exact absurd rfl (hsave directory config secret)
  | importConfig path => rfl
  | previewSshConfig path => rfl
  | exportConfig path config => rfl
  | resolveHostKey id decision =>
      dsimp only [handle, resolveHostKey]
      split
      · rfl
      · rfl

/-- **The keyring** changes by a `SaveConfig` only. -/
theorem step_keyring (home : Option PathBuf) (codec : Codec) (w : World) {input : Manager.Input}
    (hsave : ∀ directory config secret env,
      input ≠ .command (.saveConfig directory config secret) env) :
    (w.step home codec input).2.stores.keyring = w.stores.keyring := by
  unfold step
  split
  · rfl
  · cases input with
    | command command env =>
        refine handle_keyring home codec env w fun directory config secret heq => ?_
        exact hsave directory config secret env (by rw [heq])
    | prompt prompt =>
        dsimp only [queueHostKey]
        split
        · rfl
        · rfl
    | tick env =>
        dsimp only
        split
        · rfl
        · exact refresh_keyring env w
    | report task state => rfl
    | exit task result => rfl
    | giveUp reply => rfl
    | shutdown env =>
        exact List.foldlRecOn (motive := fun v : World => v.stores.keyring = w.stores.keyring)
          (arrange (env.order 0) w.active.entries) _ rfl fun _ hv _ _ => hv

/-- **A save at the manager**: of the keyring only the entry of its secret
may change. Where it ends well the secret is there, and the configuration
is in use. -/
theorem saveConfig_keyring (home : Option PathBuf) (codec : Codec) (env : Env)
    (directory : PathBuf) (config : DomainConfig) (secret : Option SecretUpdate) (w : World) :
    let r := w.saveConfig home codec env directory config secret
    r.2.stores.Others secret w.stores.keyring ∧
      (r.1 = .value () → r.2.stores.Holds secret w.stores.keyring ∧ r.2.configViews = config) ∧
      (r.1 ≠ .value () → r.2.configViews = w.configViews) := by
  have hpersist : Prog.Triple env.verdicts (Stores.Others secret w.stores.keyring)
      (persistConfig home codec directory config secret w.configViews.app.runAtStartup)
      (fun _ => Stores.Holds secret w.stores.keyring) (Stores.Others secret w.stores.keyring)
      (Stores.Others secret w.stores.keyring) :=
    persistConfig_holds home codec directory config secret w.configViews.app.runAtStartup
  replace hpersist := hpersist 0 w.stores fun _ _ => rfl
  unfold saveConfig
  rcases hr : persistConfig home codec directory config secret w.configViews.app.runAtStartup
    env.verdicts (0, w.stores) with ⟨result, n, stores⟩
  rw [hr] at hpersist
  cases result with
  | value u =>
      obtain ⟨-, -, -, hviews, hstores⟩ := replaceConfig_installs env config { w with stores }
      have hholds : ({ w with stores }.replaceConfig env config).stores.Holds secret
          w.stores.keyring := by
        rw [hstores]
        exact hpersist
      exact ⟨hholds.1, fun _ => ⟨hholds, hviews⟩, fun h => absurd rfl h⟩
  | error e =>
      refine ⟨hpersist, fun h => ?_, fun _ => rfl⟩
      cases h
  | cut =>
      refine ⟨hpersist, fun h => ?_, fun _ => rfl⟩
      cases h

end World

end Manager

end TunnelWarden
