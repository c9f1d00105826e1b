import TunnelWarden.Manager.Bookkeeping

/-!
# What a stop settles

A tunnel that was stopped is down: it is not active, and what is shown
of it is that it is stopped. No command or poll but those that ask for
the tunnel brings it up again, with one exception. `replace_config`
starts every tunnel that is marked for it, whatever was edited and
whatever the user had stopped, so a save of a configuration with the
mark set undoes the stop.
-/

namespace TunnelWarden

namespace Manager

/-- **The tunnel is down.** -/
structure Down (id : TunnelId) (w : World) : Prop where
  inactive : id ∉ w.active
  view : ∀ view, w.current.lookup id = some view → view.state = .stopped
  shown : ∀ view, w.snapshots.lookup id = some view → view.state = .stopped

/-- The input asks for the tunnel to be started: by name, or with all
tunnels, or with its group. -/
def Asks (id : TunnelId) (w : World) : Input → Prop
  | .command (.startTunnel id') _ => id' = id
  | .command (.restartTunnel id') _ => id' = id
  | .command (.retryTunnel id') _ => id' = id
  | .command .startAll _ => True
  | .command (.startGroup group) _ =>
    ∃ tunnel, w.tunnels.lookup id = some tunnel ∧ tunnel.groupId = some group
  | _ => False

/-- The configuration has the tunnel, marked to be started. -/
def Marked (config : DomainConfig) (id : TunnelId) : Prop :=
  ∃ tunnel, (Map.ofValues TunnelConfig.id config.tunnels).lookup id = some tunnel ∧
    tunnel.autoStart = true

/-- The input is a save that succeeds, of a configuration in which the
tunnel is marked to be started. -/
def SavesMarked (home : Option PathBuf) (codec : Codec) (id : TunnelId) (w : World) : Input → Prop
  | .command (.saveConfig directory config secret) env =>
    w.running = true ∧ Marked config id ∧
      (persistConfig home codec directory config secret w.configViews.app.runAtStartup env.verdicts
        (0, w.stores)).1 = .value ()
  | _ => False

variable {w : World} {env : Env} {id : TunnelId}

/-! ## What leaves a tunnel down -/

namespace Down

theorem setState_other (h : Down id w) {other : TunnelId} (hne : id ≠ other)
    (state : SupervisorState) (localAddr : Option SocketAddr) :
    Down id (w.setState other state localAddr) := by
  rcases World.setState_cases w other state localAddr with ⟨-, heq⟩ | ⟨-, l, lv, heq⟩
  · rw [heq]; exact h
  · rw [heq]
    have hview (view : TunnelView) (hv : (w.current.insert other ⟨state, localAddr⟩).lookup id =
        some view) : view.state = .stopped := by
      rw [AList.lookup_insert_ne hne] at hv
      exact h.view view hv
    exact ⟨h.inactive, hview, hview⟩

theorem setState_stopped (h : Down id w) (other : TunnelId) :
    Down id (w.setState other .stopped none) := by
  by_cases hne : id = other
  · subst hne
    rcases World.setState_cases w id .stopped none with ⟨-, heq⟩ | ⟨-, l, lv, heq⟩
    · rw [heq]; exact h
    · rw [heq]
      have hview (view : TunnelView) (hv : (w.current.insert id ⟨.stopped, none⟩).lookup id =
          some view) : view.state = .stopped := by
        rw [AList.lookup_insert] at hv
        rw [← Option.some.inj hv]
      exact ⟨h.inactive, hview, hview⟩
  · exact h.setState_other hne _ _

/-- A stop of any tunnel. -/
theorem stop (h : Down id w) (env : Env) (other : TunnelId) : Down id (w.stop env other) := by
  rcases World.stop_cases env other w with ⟨-, heq⟩ | ⟨task, -, heq⟩
  · rw [heq]; exact h.setState_stopped other
  · rw [heq]
    have hended : Down id ({ w with active := w.active.erase other }.endTask task
        (env.inTime other)) :=
      ⟨fun hid => h.inactive (AList.mem_erase.1 hid).2, h.view, h.shown⟩
    exact hended.setState_stopped other

/-- A start of another tunnel. -/
theorem start (h : Down id w) (env : Env) {other : TunnelId} (hne : id ≠ other) :
    Down id (w.start env other) := by
  rcases World.start_cases env other w with ⟨-, heq⟩ | ⟨-, -, reason, heq⟩ |
    ⟨-, tunnel, hosts, localAddr, -, -, -, -, heq⟩
  · rw [heq]; exact h
  · rw [heq]; exact h.setState_other hne _ _
  · rw [heq]
    have hspawned : Down id (w.spawn other tunnel hosts) := ⟨h.inactive, h.view, h.shown⟩
    have hset := hspawned.setState_other hne (.connecting 1) localAddr
    refine ⟨fun hid => ?_, hset.view, hset.shown⟩
    exact (AList.mem_insert w.active).1 hid |>.elim hne h.inactive

theorem stopEach (h : Down id w) (env : Env) (ids : List TunnelId) : Down id (w.stopEach env ids) :=
  List.foldlRecOn _ _ h fun _ hv other _ => hv.stop env other

theorem startEach (h : Down id w) (env : Env) {ids : List TunnelId} (hids : id ∉ ids) :
    Down id (w.startEach env ids) :=
  List.foldlRecOn _ _ h fun _ hv _ hmem => hv.start env fun heq => hids (heq ▸ hmem)

/-! ### The poll -/

/-- The poll works on what is active. -/
theorem pollOne {p : World.Poll} (h : Down id p.world) (env : Env) (other : TunnelId) :
    Down id (World.pollOne env p other).world := by
  unfold World.pollOne
  cases ha : p.world.active.lookup other with
  | none => exact h
  | some task =>
      have hne : id ≠ other := by
        rintro rfl
        exact h.inactive (Map.mem_iff.2 ⟨task, ha⟩)
      dsimp only
      cases p.world.tasks[task]? with
      | none => exact h
      | some t =>
          have hs : Down id (World.showState env p other task t).world := by
            unfold World.showState
            split
            · dsimp only
              split
              · exact ⟨h.inactive, h.view, h.shown⟩
              · refine ⟨h.inactive, fun view hv => ?_, h.shown⟩
                dsimp only at hv
                rw [AList.lookup_insert_ne hne] at hv
                exact h.view view hv
            · exact h
          dsimp only
          split <;> exact ⟨hs.inactive, hs.view, hs.shown⟩

theorem finishOne {p : World.Poll} (h : Down id p.world) (other : TunnelId) :
    Down id (World.finishOne p other).world := by
  unfold World.finishOne
  cases ha : p.world.active.lookup other with
  | none => exact h
  | some task =>
      have hne : id ≠ other := by
        rintro rfl
        exact h.inactive (Map.mem_iff.2 ⟨task, ha⟩)
      have hgone : id ∉ p.world.active.erase other := fun hid =>
        h.inactive (AList.mem_erase.1 hid).2
      dsimp only
      split
      · exact ⟨hgone, h.view, h.shown⟩
      · refine ⟨hgone, fun view hv => ?_, h.shown⟩
        have hv : (p.world.current.insert other _).lookup id = some view := hv
        rw [AList.lookup_insert_ne hne] at hv
        exact h.view view hv

theorem refresh (h : Down id w) (env : Env) : Down id (w.refresh env) := by
  have hstart : Down id w.prunePrompts := by
    obtain ⟨kept, views, heq⟩ := w.prunePrompts_cases
    rw [heq]; exact ⟨h.inactive, h.view, h.shown⟩
  obtain ⟨p, l, lv, hp, heq⟩ := World.refresh_cases (I := fun p => Down id p.world) env w hstart
    (fun _ other hp => hp.pollOne env other) fun _ other hp => hp.finishOne other
  rw [heq]
  split
  · exact ⟨hp.inactive, hp.view, hp.view⟩
  · exact ⟨hp.inactive, hp.view, hp.shown⟩

/-! ### A new configuration -/

/-- The exchange drops the tunnel's view, keeps it, or shows the tunnel
as stopped. -/
theorem exchange (h : Down id w) (env : Env) (config : DomainConfig) :
    Down id (w.exchange env config) := by
  have hviews : Down id { w with configViews := config } := ⟨h.inactive, h.view, h.shown⟩
  have hs := hviews.stopEach env (w.toRestart env config)
  have hview (view : TunnelView) (hv : (w.exchange env config).current.lookup id = some view) :
      view.state = .stopped := by
    have hv := (Map.lookup_orInsertAll _ _ id).symm.trans hv
    rw [Map.lookup_retain] at hv
    split at hv
    · split at hv
      · exact hs.view view hv
      · simp at hv
    · split at hv
      · rw [← Option.some.inj hv]
      · simp at hv
  exact ⟨hs.inactive, hview, hview⟩

theorem replaceConfig (h : Down id w) (env : Env) {config : DomainConfig}
    (hmark : ¬ Marked config id) : Down id (w.replaceConfig env config) := by
  rw [World.replaceConfig_eq]
  refine (h.exchange env config).startEach env fun hmem => ?_
  obtain ⟨tunnel, htunnel, hwhy⟩ := World.mem_toStart.1 hmem
  exact hwhy.elim (fun hauto => hmark ⟨tunnel, htunnel, hauto⟩) h.inactive

theorem notify (h : Down id w) (task : ℕ) : Down id (w.notify task) := ⟨h.inactive, h.view, h.shown⟩

theorem networkRecovered (h : Down id w) (env : Env) : Down id (w.networkRecovered env) :=
  World.networkRecovered_keeps h fun _ task hv => hv.notify task

theorem retry (h : Down id w) (env : Env) {other : TunnelId} (hne : id ≠ other) :
    Down id (w.retry env other) :=
  World.retry_keeps h h.notify (h.start env hne)

theorem drain (h : Down id w) (env : Env) : Down id (w.drain env) := by
  unfold World.drain
  have h0 : Down id { w with pendingHostKeys := [], running := false } :=
    ⟨h.inactive, h.view, h.shown⟩
  refine List.foldlRecOn _ _ h0 fun v hv e _ => ?_
  exact ⟨fun hid => hv.inactive (AList.mem_erase.1 hid).2, hv.view, hv.shown⟩

variable {home : Option PathBuf} {codec : Codec}

/-- **One command** that neither asks for the tunnel nor saves it with
its mark set. -/
theorem handle (h : Down id w) (hrun : w.running = true) {command : CoreCommand}
    (hask : ¬ Asks id w (.command command env))
    (hsave : ¬ SavesMarked home codec id w (.command command env)) :
    Down id (w.handle home codec env command).2 := by
  cases command with
  | startAll => exact absurd trivial hask
  | stopAll => exact h.stopEach env _
  | startGroup group =>
      refine h.startEach env fun hmem => hask ?_
      exact World.mem_inGroup.1 hmem
  | stopGroup group => exact h.stopEach env _
  | startTunnel other => exact h.start env fun heq => hask heq.symm
  | stopTunnel other => exact h.stop env other
  | restartTunnel other => exact (h.stop env other).start env fun heq => hask heq.symm
  | retryTunnel other => exact h.retry env fun heq => hask heq.symm
  | networkRecovered => exact h.networkRecovered env
  | saveConfig directory config secret =>
      obtain ⟨stores, hcases⟩ := World.saveConfig_cases home codec env directory config secret w
      have hstores : Down id { w with stores } := ⟨h.inactive, h.view, h.shown⟩
      dsimp only [World.handle]
      rcases hcases with ⟨hok, heq⟩ | ⟨-, heq⟩
      · rw [heq]
        rw [World.saveConfig_fst] at hok
        exact hstores.replaceConfig env fun hmark => hsave ⟨hrun, hmark, hok⟩
      · rw [heq]; exact hstores
  | importConfig path => exact ⟨h.inactive, h.view, h.shown⟩
  | previewSshConfig path => exact h
  | exportConfig path config => exact ⟨h.inactive, h.view, h.shown⟩
  | resolveHostKey k decision =>
      dsimp only [World.handle, World.resolveHostKey]
      split
      · exact h
      · exact ⟨h.inactive, h.view, h.shown⟩

/-- **One input.** -/
theorem step (h : Down id w) {input : Input} (hask : ¬ Asks id w input)
    (hsave : ¬ SavesMarked home codec id w input) : Down id (w.step home codec input).2 := by
  unfold World.step
  split
  · exact h
  · rename_i hw
    cases input with
    | command command env => exact h.handle (by simpa using hw) hask hsave
    | prompt prompt =>
        dsimp only [World.queueHostKey]
        split
        · exact ⟨h.inactive, h.view, h.shown⟩
        · exact ⟨h.inactive, h.view, h.shown⟩
    | tick env =>
        dsimp only
        split
        · exact h
        · exact h.refresh env
    | report task state => exact ⟨h.inactive, h.view, h.shown⟩
    | exit task result => exact ⟨h.inactive, h.view, h.shown⟩
    | giveUp reply => exact ⟨h.inactive, h.view, h.shown⟩
    | shutdown env => exact h.drain env

end Down

/-! ## What brings it up -/

/-- The tunnel is active, or blocked: a start was tried. -/
def Tried (id : TunnelId) (w : World) : Prop :=
  id ∈ w.active ∨ ∃ view reason, w.current.lookup id = some view ∧ view.state = .blocked reason

theorem Tried.not_down (h : Tried id w) : ¬ Down id w := by
  intro hdown
  rcases h with hactive | ⟨view, reason, hview, hstate⟩
  · exact hdown.inactive hactive
  · rw [hdown.view view hview] at hstate
    simp at hstate

/-- Setting any view to blocked, or another tunnel's view. -/
theorem Tried.setState (h : Tried id w) {other : TunnelId} (state : SupervisorState)
    (localAddr : Option SocketAddr) (hstate : id = other → ∃ reason, state = .blocked reason) :
    Tried id (w.setState other state localAddr) := by
  rcases h with hactive | ⟨view, reason, hview, hblocked⟩
  · exact .inl (by rw [World.setState_active]; exact hactive)
  · refine .inr ?_
    rw [World.setState_lookup]
    split
    · rename_i hid
      obtain ⟨reason', rfl⟩ := hstate hid.1
      exact ⟨_, reason', rfl, rfl⟩
    · exact ⟨view, reason, hview, hblocked⟩

/-- It stays so while tunnels are started. -/
theorem Tried.start (h : Tried id w) (env : Env) (other : TunnelId) :
    Tried id (w.start env other) := by
  rcases World.start_cases env other w with ⟨-, heq⟩ | ⟨-, -, reason, heq⟩ |
    ⟨-, tunnel, hosts, localAddr, -, -, -, -, heq⟩
  · rw [heq]; exact h
  · rw [heq]; exact h.setState _ _ fun _ => ⟨reason, rfl⟩
  · rw [heq]
    by_cases hid : id = other
    · exact .inl ((AList.mem_insert w.active).2 (.inl hid))
    · have hspawned : Tried id (w.spawn other tunnel hosts) := h
      rcases hspawned.setState (.connecting 1) localAddr fun heq => absurd heq hid with
        hactive | hblocked
      · rw [World.setState_active] at hactive
        exact .inl ((AList.mem_insert w.active).2 (.inr hactive))
      · exact .inr hblocked

/-- A start of a tunnel that is configured and has a view. -/
theorem tried_start (env : Env) (htunnel : id ∈ w.tunnels) (hview : id ∈ w.current) :
    Tried id (w.start env id) := by
  rcases World.start_cases env id w with ⟨hactive | hgone, heq⟩ | ⟨-, -, reason, heq⟩ |
    ⟨-, tunnel, hosts, localAddr, -, -, -, -, heq⟩
  · rw [heq]; exact .inl hactive
  · exact absurd htunnel hgone
  · rw [heq]
    refine .inr ⟨⟨.blocked reason, none⟩, reason, ?_, rfl⟩
    rw [World.setState_lookup, if_pos ⟨rfl, hview⟩]
  · rw [heq]
    exact .inl ((AList.mem_insert w.active).2 (.inl rfl))

/-- Among several tunnels that are started. -/
theorem tried_startEach (env : Env) {ids : List TunnelId} (hmem : id ∈ ids)
    (htunnel : id ∈ w.tunnels) (hview : id ∈ w.current) : Tried id (w.startEach env ids) := by
  obtain ⟨pre, post, rfl⟩ := List.append_of_mem hmem
  -- The starts before it keep the tunnel and its view, and those after
  -- it keep what came of its own.
  have hpre : id ∈ (w.startEach env pre).tunnels ∧ id ∈ (w.startEach env pre).current :=
    List.foldlRecOn (motive := fun v : World => id ∈ v.tunnels ∧ id ∈ v.current) _ _
      ⟨htunnel, hview⟩ fun v hv other _ =>
        ⟨by rw [World.start_tunnels]; exact hv.1, World.mem_start_current.2 hv.2⟩
  have heq : w.startEach env (pre ++ id :: post) =
      ((w.startEach env pre).start env id).startEach env post := by
    simp only [World.startEach, List.foldl_append, List.foldl_cons]
  rw [heq]
  exact List.foldlRecOn _ _ (tried_start env hpre.1 hpre.2) fun _ hv other _ => hv.start env other

/-- **A new configuration in which the tunnel is marked starts it.** -/
theorem tried_replaceConfig (env : Env) {config : DomainConfig} (hmark : Marked config id) :
    Tried id (w.replaceConfig env config) := by
  obtain ⟨tunnel, htunnel, hauto⟩ := hmark
  have hmem : id ∈ Map.ofValues TunnelConfig.id config.tunnels := Map.mem_iff.2 ⟨tunnel, htunnel⟩
  rw [World.replaceConfig_eq]
  refine tried_startEach env (World.mem_toStart.2 ⟨tunnel, htunnel, .inl hauto⟩) hmem ?_
  exact Map.mem_orInsertAll.2 (.inr (AList.mem_keys.1 hmem))

variable {home : Option PathBuf} {codec : Codec}

theorem SavesMarked.tried {input : Input} (h : SavesMarked home codec id w input) :
    Tried id (w.step home codec input).2 := by
  unfold SavesMarked at h
  split at h
  · rename_i directory config secret env
    obtain ⟨hrun, hmark, hok⟩ := h
    rw [World.step_command hrun]
    obtain ⟨stores, hcases⟩ := World.saveConfig_cases home codec env directory config secret w
    dsimp only [World.handle]
    rcases hcases with ⟨-, heq⟩ | ⟨hfail, -⟩
    · rw [heq]; exact tried_replaceConfig env hmark
    · rw [World.saveConfig_fst] at hfail
      exact absurd hok hfail
  · exact h.elim

/-! ## After a stop -/

/-- The stop itself. -/
theorem down_stop (h : Bookkeeping w) (env : Env) (id : TunnelId) : Down id (w.stop env id) := by
  have hview (view : TunnelView) (hv : (w.stop env id).current.lookup id = some view) :
      view.state = .stopped := by
    rw [World.stop_lookup_current] at hv
    split at hv
    · rw [← Option.some.inj hv]
    · simp at hv
  refine ⟨?_, hview, ?_⟩
  · rw [← Map.lookup_eq_none_iff, World.stop_lookup_active, if_pos rfl]
  · rw [(h.stop env id).published]
    exact hview

/-- **When a stop is final.** In every state a run reaches, a stop of
the tunnel takes it down, and it is down from then on, through every
list of inputs that do not ask for it, exactly where no configuration is
saved in which it is marked to be started. -/
theorem down_after_stop_iff (home : Option PathBuf) (codec : Codec) {w : World} (hw : Booted w)
    (inputs : List Input) (env : Env) (id : TunnelId) (later : List Input)
    (hrun : (runState (World.step home codec) w inputs).running = true)
    (hask : ∀ x ∈ trace (World.step home codec)
      (runState (World.step home codec) w (inputs ++ [.command (.stopTunnel id) env])) later,
      ¬ Asks id x.before x.input) :
    (∀ v ∈ visited (World.step home codec)
      (runState (World.step home codec) w (inputs ++ [.command (.stopTunnel id) env])) later,
      Down id v) ↔
    ∀ x ∈ trace (World.step home codec)
      (runState (World.step home codec) w (inputs ++ [.command (.stopTunnel id) env])) later,
      ¬ SavesMarked home codec id x.before x.input := by
  refine visited_forall_iff (A := fun v input => ¬ Asks id v input) (fun _ h => h)
    (fun v input hasks hsave hdown => hdown.step hasks hsave)
    (fun v input _ hsave _ => hsave.tried.not_down) ?_ hask
  rw [runState_concat, World.step_command hrun]
  exact down_stop (bookkeeping_reached hw inputs hrun) env id

/-! ## An edit of something else -/

/-- The configuration of the manager with one tunnel, after the window's
setting was changed. -/
def labConfig : DomainConfig :=
  { app := { minimizeToTray := false }, hosts := [labHost], tunnels := [socksTunnel] }

def labDocument : ConfigDocument where
  app := { minimizeToTray := false }
  hosts := [{
    id := "lab", name := "Lab", hostname := "example.test", port := 22, username := "operator",
    authType := .agent, credentialRef := none, identityFile := none, passphraseRef := none,
    agentSocket := none, hostKeyPolicy := .strict, connectTimeoutMs := 10000,
    keepaliveIntervalMs := 30000, keepaliveMax := 3, notes := "" }]
  tunnels := [{
    id := "socks", name := "SOCKS", groupId := none, mode := .dynamic, jumpChain := ["lab"],
    localHost := "127.0.0.1", localPort := 1080, remoteHost := none, remotePort := none,
    autoStart := true, reconnectBaseMs := 1000, reconnectMaxMs := 30000, reconnectResetMs := 60000,
    reconnectJitterPercent := 20, description := "" }]

def labText : String :=
  "schema_version = 1\ngroups = []\n\n[app]\ntheme = \"system\"\nrun_at_startup = false\n" ++
  "minimize_to_tray = false\ntraffic_monitor = false\n\n[[hosts]]\nid = \"lab\"\nname = \"Lab\"\n" ++
  "hostname = \"example.test\"\nport = 22\nusername = \"operator\"\nauth_type = \"agent\"\n" ++
  "host_key_policy = \"strict\"\nconnect_timeout_ms = 10000\nkeepalive_interval_ms = 30000\n" ++
  "keepalive_max = 3\nnotes = \"\"\n\n[[tunnels]]\nid = \"socks\"\nname = \"SOCKS\"\n" ++
  "mode = \"dynamic\"\njump_chain = [\"lab\"]\nlocal_host = \"127.0.0.1\"\nlocal_port = 1080\n" ++
  "auto_start = true\nreconnect_base_ms = 1000\nreconnect_max_ms = 30000\n" ++
  "reconnect_reset_ms = 60000\nreconnect_jitter_percent = 20\ndescription = \"\"\n"

def labCodec : Codec := .only labDocument labText

def labSave : Input := .command (.saveConfig appDirectory labConfig none) calm

/-- The criterion after a stop, over a poll and a save of the changed
setting. -/
theorem down_after_stop_iff_labSave :
    let stopped := runState (World.step none labCodec) labWorld
      [.command (.stopTunnel ⟨"socks"⟩) calm]
    (∀ v ∈ visited (World.step none labCodec) stopped [.tick calm, labSave],
      Down ⟨"socks"⟩ v) ↔
    ∀ x ∈ trace (World.step none labCodec) stopped [.tick calm, labSave],
      ¬ SavesMarked none labCodec ⟨"socks"⟩ x.before x.input := by
  refine down_after_stop_iff none labCodec booted_labWorld [] calm ⟨"socks"⟩ [.tick calm, labSave]
    (by decide +kernel) fun x hx => ?_
  simp only [trace, List.mem_cons, List.not_mem_nil, or_false] at hx
  rcases hx with rfl | rfl
  · exact id
  · exact id

/-- **A stop undone by an unrelated edit.** The tunnel is stopped, its
own configuration stays the same, nothing asks for it, and the save
starts it. -/
theorem labSave_not_down :
    let stopped := runState (World.step none labCodec) labWorld
      [.command (.stopTunnel ⟨"socks"⟩) calm]
    (Map.ofValues TunnelConfig.id labConfig.tunnels).lookup ⟨"socks"⟩ =
      stopped.tunnels.lookup ⟨"socks"⟩ ∧
    (∀ x ∈ trace (World.step none labCodec) stopped [labSave],
      ¬ Asks ⟨"socks"⟩ x.before x.input) ∧
    ¬ ∀ v ∈ visited (World.step none labCodec) stopped [labSave], Down ⟨"socks"⟩ v := by
  intro stopped
  refine ⟨by decide +kernel, fun x hx => ?_, fun h => ?_⟩
  · obtain rfl := List.mem_singleton.1 hx
    exact id
  · have hup : (⟨"socks"⟩ : TunnelId) ∈
        (runState (World.step none labCodec) stopped [labSave]).active := by
      decide +kernel
    refine (h _ ?_).inactive hup
    exact List.mem_cons_of_mem _ List.mem_cons_self

end Manager

end TunnelWarden
