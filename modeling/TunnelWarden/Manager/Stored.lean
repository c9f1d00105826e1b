import TunnelWarden.Manager.Stop
import TunnelWarden.Store.Reload

/-!
# The configuration in use and the one in the file

After a save the manager runs on the configuration that was submitted,
not on what the file gives back. The two agree exactly where the file
holds the configuration as it is: a key path under `~` or a fraction of
a millisecond is changed by the way through the file.
-/

namespace TunnelWarden

namespace Manager

open ConfigStore

/-- The manager runs on this configuration, and shows it. -/
structure RunsOn (w : World) (config : DomainConfig) : Prop where
  hosts : w.hosts = config.hosts
  groups : w.groups = config.groups
  tunnels : ∀ id, w.tunnels.lookup id =
    (Map.ofValues TunnelConfig.id config.tunnels).lookup id
  views : w.configViews = config

variable {w : World} {env : Env} {home : Option PathBuf} {codec : Codec} {directory : PathBuf}
variable {config : DomainConfig} {secret : Option SecretUpdate}

/-- A save that succeeds leaves its document in the file. -/
theorem World.saveConfig_stored
    (hvalue : (w.saveConfig home codec env directory config secret).1 = .value ()) :
    ∃ document, ConfigDocument.tryFrom config = .ok document ∧
      Stored home codec directory document
        (w.saveConfig home codec env directory config secret).2.stores.disk := by
  rw [World.saveConfig_fst] at hvalue
  have hstored := persistConfig_stores home codec directory config secret env.verdicts
    w.configViews.app.runAtStartup 0 w.stores trivial
  rw [hvalue] at hstored
  obtain ⟨-, -, -, -, hstores⟩ := World.replaceConfig_installs env config { w with stores := _ }
  rw [World.saveConfig_of_stored hvalue, hstores]
  exact hstored

/-- **What a successful save leaves**: the manager runs on what was
submitted, and the file holds its document. -/
theorem saved_step (hrun : w.running = true)
    (hok : (w.step home codec (.command (.saveConfig directory config secret) env)).1 =
      some (.saved (.value ()))) :
    RunsOn (w.step home codec (.command (.saveConfig directory config secret) env)).2 config ∧
    ∃ document, ConfigDocument.tryFrom config = .ok document ∧
      Stored home codec directory document
        (w.step home codec (.command (.saveConfig directory config secret) env)).2.stores.disk := by
  rw [World.step_command hrun] at hok ⊢
  dsimp only [World.handle] at hok ⊢
  have hvalue : (w.saveConfig home codec env directory config secret).1 = .value () := by
    simpa using hok
  refine ⟨?_, World.saveConfig_stored hvalue⟩
  rw [World.saveConfig_fst] at hvalue
  rw [World.saveConfig_of_stored hvalue]
  obtain ⟨hhosts, hgroups, htunnels, hviews, -⟩ :=
    World.replaceConfig_installs env config { w with stores := _ }
  exact ⟨hhosts, hgroups, fun id => by rw [htunnels], hviews⟩

/-- **What the file gives back**: something, and the configuration in
use exactly where that one is literal. -/
theorem loaded_of_saved (home : Option PathBuf) (codec : Codec) (w : World) (env : Env)
    (directory : PathBuf) (config : DomainConfig) (secret : Option SecretUpdate)
    (hcodec : ∀ document text, codec.toStringPretty document = .ok text →
      codec.fromStr text = .ok document)
    {fenv : Verdicts FileOp IoError} (hfenv : Works fenv) (hrun : w.running = true)
    (hok : (w.step home codec (.command (.saveConfig directory config secret) env)).1 =
      some (.saved (.value ()))) (n : ℕ) :
    ∃ loaded,
      (load home codec directory fenv (n,
        (w.step home codec (.command (.saveConfig directory config secret) env)).2.stores.disk)).1 =
          .value loaded ∧
      (RunsOn (w.step home codec (.command (.saveConfig directory config secret) env)).2 loaded ↔
        config.Literal home) := by
  obtain ⟨hon, document, hdoc, text, hser, hfile⟩ := saved_step hrun hok
  obtain ⟨loaded, hloaded, hload⟩ := load_of_serialized hfenv n hser
    (hcodec document text (serialized_cases hser).1) hfile
  refine ⟨loaded, hload, ?_⟩
  rw [← ConfigDocument.intoDomain_tryFrom_iff hdoc hloaded]
  constructor
  · intro hon'
    exact hon'.views.symm.trans hon.views
  · rintro rfl
    exact hon

/-- **When the manager runs on what it stored.** After a save that
succeeds, loading the file gives the configuration in use exactly where
the submitted one has key paths that need no home directory and
durations of whole milliseconds. -/
theorem runsOn_loaded_iff (home : Option PathBuf) (codec : Codec) (w : World) (env : Env)
    (directory : PathBuf) (config : DomainConfig) (secret : Option SecretUpdate)
    (hcodec : ∀ document text, codec.toStringPretty document = .ok text →
      codec.fromStr text = .ok document)
    {fenv : Verdicts FileOp IoError} (hfenv : Works fenv) (hrun : w.running = true)
    (hok : (w.step home codec (.command (.saveConfig directory config secret) env)).1 =
      some (.saved (.value ()))) (n : ℕ) :
    (∃ loaded,
      (load home codec directory fenv (n,
        (w.step home codec (.command (.saveConfig directory config secret) env)).2.stores.disk)).1 =
          .value loaded ∧
      RunsOn (w.step home codec (.command (.saveConfig directory config secret) env)).2 loaded) ↔
    config.Literal home := by
  obtain ⟨c, hload, hiff⟩ := loaded_of_saved home codec w env directory config secret hcodec hfenv hrun
    hok n
  rw [← hiff]
  constructor
  · rintro ⟨loaded, hloaded, hon⟩
    obtain rfl : c = loaded := by simpa using hload.symm.trans hloaded
    exact hon
  · intro hon
    exact ⟨c, hload, hon⟩

/-! ## A key in the home directory -/

/-- The criterion for the manager with one tunnel. -/
theorem runsOn_loaded_iff_labConfig :
    (∃ loaded, (load none labCodec appDirectory working (0, (labWorld.step none labCodec
        (.command (.saveConfig appDirectory labConfig none) calm)).2.stores.disk)).1 =
          .value loaded ∧
      RunsOn (labWorld.step none labCodec
        (.command (.saveConfig appDirectory labConfig none) calm)).2 loaded) ↔
    labConfig.Literal none :=
  runsOn_loaded_iff none labCodec labWorld calm appDirectory labConfig none
    (fun _ _ h => Codec.only_fromStr h) works_working (by decide +kernel) (by decide +kernel) 0

def userHome : PathBuf := ⟨[.windowsPrefix "C:", .rootDir, .normal "Users", .normal "operator"]⟩

/-- The host of that tunnel with a private key, as the editor takes it. -/
def keyConfig : DomainConfig :=
  let keyPath : PathBuf := ⟨[.normal "~", .normal ".ssh", .normal "id_ed25519"]⟩
  { hosts := [{ labHost with auth := .privateKey keyPath none }] }

def keyDocument : ConfigDocument where
  hosts := [{
    id := "lab", name := "Lab", hostname := "example.test", port := 22, username := "operator",
    authType := .privateKey, credentialRef := none,
    identityFile := some ⟨[.normal "~", .normal ".ssh", .normal "id_ed25519"]⟩,
    passphraseRef := none, agentSocket := none, hostKeyPolicy := .strict,
    connectTimeoutMs := 10000, keepaliveIntervalMs := 30000, keepaliveMax := 3, notes := "" }]

def keyText : String :=
  "schema_version = 1\ngroups = []\ntunnels = []\n\n[app]\ntheme = \"system\"\n" ++
  "run_at_startup = false\nminimize_to_tray = true\ntraffic_monitor = false\n\n[[hosts]]\n" ++
  "id = \"lab\"\nname = \"Lab\"\nhostname = \"example.test\"\nport = 22\nusername = \"operator\"\n" ++
  "auth_type = \"private_key\"\nidentity_file = \"~/.ssh/id_ed25519\"\n" ++
  "host_key_policy = \"strict\"\nconnect_timeout_ms = 10000\nkeepalive_interval_ms = 30000\n" ++
  "keepalive_max = 3\nnotes = \"\"\n"

def keyCodec : Codec := .only keyDocument keyText

def keySave : Input := .command (.saveConfig appDirectory keyConfig none) calm

/-- The path of the key is one under the home directory. -/
theorem keyPath_expands : ¬ AuthConfig.Literal (some userHome)
    (.privateKey ⟨[.normal "~", .normal ".ssh", .normal "id_ed25519"]⟩ none) := by
  unfold AuthConfig.Literal
  decide +kernel

/-- **A key under `~` is another key after a restart.** The save
succeeds, and what is loaded from the file is not what is in use. -/
theorem keySave_not_runsOn_loaded :
    (labWorld.step (some userHome) keyCodec keySave).1 = some (.saved (.value ())) ∧
    ¬ ∃ loaded, (load (some userHome) keyCodec appDirectory working (0,
        (labWorld.step (some userHome) keyCodec keySave).2.stores.disk)).1 = .value loaded ∧
      RunsOn (labWorld.step (some userHome) keyCodec keySave).2 loaded := by
  have hok : (labWorld.step (some userHome) keyCodec keySave).1 = some (.saved (.value ())) := by
    decide +kernel
  refine ⟨hok, ?_⟩
  unfold keySave at hok ⊢
  obtain ⟨c, hload, hiff⟩ := loaded_of_saved (some userHome) keyCodec labWorld calm appDirectory
    keyConfig none (fun _ _ h => Codec.only_fromStr h) works_working (by decide +kernel) hok 0
  rintro ⟨loaded, hloaded, hon⟩
  obtain rfl : c = loaded := by simpa using hload.symm.trans hloaded
  have hkey := ((hiff.1 hon).hosts _ List.mem_cons_self).auth
  exact absurd hkey keyPath_expands

end Manager

end TunnelWarden
