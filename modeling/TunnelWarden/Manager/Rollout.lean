import TunnelWarden.Manager.Shown
import TunnelWarden.Manager.Stop
import TunnelWarden.Manager.UpToDate

/-!
# What a save does to each tunnel

`replace_config` stops what changed, exchanges the maps and starts what
ran or is marked for it, all in one command. Seen from one tunnel there
are five ways this goes (`Applied`): it is gone, it keeps its task, its
task is replaced, it is started, or it is left idle. A start depends on
the configuration and the surroundings alone (`resolveStart`), so the order
of the starts does not matter, and in every reachable state **a save is
applied to every tunnel, or disturbs none** (`save_applies`).
-/

namespace TunnelWarden

namespace Manager

variable {w : World} {env : Env} {id other : TunnelId} {config : DomainConfig}
variable {hosts : List SshHost} {groups : List TunnelGroup} {tunnel : TunnelConfig} {n : ℕ}

/-! ## One start -/

/-- What a start of the tunnel comes to: the reason why it is blocked, or
the hosts it runs over and the address to show. -/
def resolveStart (env : Env) (hosts : List SshHost) (groups : List TunnelGroup)
    (tunnel : TunnelConfig) : Except String (List SshHost × Option SocketAddr) :=
  match tunnel.validate hosts groups with
  | .error error => .error error.display
  | .ok () =>
    match tunnel.jumpChain.mapM (findHost hosts) with
    | none => .error "Unknown jump host"
    | some used =>
      match World.acquire env tunnel with
      | .error reason => .error reason
      | .ok localAddr => .ok (used, localAddr)

/-- The start of a tunnel that does not run. -/
theorem start_attempt (env : Env) (hidle : id ∉ w.active)
    (htunnel : w.tunnels.lookup id = some tunnel) :
    (∃ reason, resolveStart env w.hosts w.groups tunnel = .error reason ∧
      w.start env id = w.setState id (.blocked reason) none) ∨
    ∃ used localAddr, resolveStart env w.hosts w.groups tunnel = .ok (used, localAddr) ∧
      w.start env id = { (w.spawn id tunnel used).setState id (.connecting 1) localAddr with
        active := w.active.insert id w.tasks.length } := by
  unfold resolveStart World.start
  rw [if_neg hidle, htunnel]
  dsimp only
  cases hvalid : tunnel.validate w.hosts w.groups with
  | error error => exact .inl ⟨_, rfl, rfl⟩
  | ok u =>
      dsimp only
      cases hhosts : tunnel.jumpChain.mapM (findHost w.hosts) with
      | none => exact .inl ⟨_, rfl, rfl⟩
      | some used =>
          dsimp only
          cases hacquire : World.acquire env tunnel with
          | error reason => exact .inl ⟨_, rfl, rfl⟩
          | ok localAddr =>
              refine .inr ⟨used, localAddr, rfl, ?_⟩
              dsimp only
              rw [World.setState_active]
              rfl

/-- A start leaves the view of another tunnel alone. -/
theorem start_lookup_current (env : Env) (w : World) (hne : id ≠ other) :
    (w.start env other).current.lookup id = w.current.lookup id := by
  rcases World.start_cases env other w with ⟨-, heq⟩ | ⟨-, -, reason, heq⟩ |
    ⟨-, tunnel, hosts, localAddr, -, -, -, -, heq⟩
  · rw [heq]
  · rw [heq, World.setState_lookup, if_neg fun h => hne h.1]
  · rw [heq]
    exact (World.setState_lookup _ _ _ _ _).trans (if_neg fun h => hne h.1)

theorem start_lookup_active (hne : id ≠ other) :
    (w.start env other).active.lookup id = w.active.lookup id := by
  rcases World.start_cases env other w with ⟨-, heq⟩ | ⟨-, -, reason, heq⟩ |
    ⟨-, tunnel, hosts, localAddr, -, -, -, -, heq⟩
  · rw [heq]
  · rw [heq, World.setState_active]
  · rw [heq]
    exact AList.lookup_insert_ne hne

/-- A stop leaves the view of another tunnel alone. -/
theorem stop_lookup_current_ne (hne : id ≠ other) :
    (w.stop env other).current.lookup id = w.current.lookup id := by
  rcases World.stop_cases env other w with ⟨-, heq⟩ | ⟨task, -, heq⟩
  · rw [heq, World.setState_lookup, if_neg fun h => hne h.1]
  · rw [heq]
    exact (World.setState_lookup _ _ _ _ _).trans (if_neg fun h => hne h.1)

theorem stopEach_lookup_current {ids : List TunnelId} (hids : id ∉ ids) :
    (w.stopEach env ids).current.lookup id = w.current.lookup id :=
  List.foldlRecOn (motive := fun v : World => v.current.lookup id = w.current.lookup id) ids _ rfl
    fun _ hv other hmem =>
      have hne : id ≠ other := fun heq => hids (heq ▸ hmem)
      (stop_lookup_current_ne hne).trans hv

/-- The record of what was done to the tasks only grows. -/
theorem Handled.grows {b c : Books} (h : Handled b c) :
    b.tasks.length ≤ c.tasks.length ∧ ∃ more, c.history = b.history ++ more := by
  induction h with
  | nothing => exact ⟨Nat.le_refl _, [], (List.append_nil _).symm⟩
  | spawned _ hid tunnel hosts ih =>
      obtain ⟨hle, more, ih⟩ := ih
      exact ⟨by simpa using Nat.le_succ_of_le hle, _, by rw [ih, List.append_assoc]⟩
  | awaited _ hk inTime ih =>
      obtain ⟨hle, more, ih⟩ := ih
      exact ⟨by simpa using hle, _, by rw [ih, List.append_assoc]⟩
  | touched _ k hid hlive ih =>
      obtain ⟨hle, ih⟩ := ih
      exact ⟨by simpa using hle, ih⟩

/-! ## Starts one after another -/

/-- The tunnel was started: it runs as a new task, from the `n`-th on, or
it is blocked. -/
inductive Launched (env : Env) (hosts : List SshHost) (groups : List TunnelGroup)
    (tunnel : TunnelConfig) (n : ℕ) (id : TunnelId) (w : World) : Prop where
  | runs {k : ℕ} {used : List SshHost} {localAddr : Option SocketAddr} (hnew : n ≤ k)
      (hattempt : resolveStart env hosts groups tunnel = .ok (used, localAddr))
      (hruns : RunsAs id k { id, tunnel, hosts := used } w)
      (hview : w.current.lookup id = some ⟨.connecting 1, localAddr⟩)
  | blocked {reason : String} (hattempt : resolveStart env hosts groups tunnel = .error reason)
      (hidle : id ∉ w.active) (hview : w.current.lookup id = some ⟨.blocked reason, none⟩)

theorem Launched.mono {m : ℕ} (h : Launched env hosts groups tunnel n id w) (hle : m ≤ n) :
    Launched env hosts groups tunnel m id w := by
  cases h with
  | runs hnew hattempt hruns hview => exact .runs (hle.trans hnew) hattempt hruns hview
  | blocked hattempt hidle hview => exact .blocked hattempt hidle hview

/-- **A start starts**: what comes of it is what `resolveStart` says. -/
theorem launched_start (hidle : id ∉ w.active) (htunnel : w.tunnels.lookup id = some tunnel)
    (hview : id ∈ w.current) :
    Launched env w.hosts w.groups tunnel w.tasks.length id (w.start env id) := by
  rcases start_attempt env hidle htunnel with ⟨reason, hattempt, heq⟩ |
    ⟨used, localAddr, hattempt, heq⟩
  · rw [heq]
    refine .blocked hattempt (by rwa [World.setState_active]) ?_
    rw [World.setState_lookup, if_pos ⟨rfl, hview⟩]
  · rw [heq]
    refine .runs (Nat.le_refl _) hattempt ⟨AList.lookup_insert _, ?_⟩ ?_
    · dsimp only
      rw [World.setState_tasks, World.spawn]
      exact List.getElem?_concat_length
    · exact (World.setState_lookup _ _ _ _ _).trans (if_pos ⟨rfl, hview⟩)

/-- What a later start leaves as it is: also one of the same tunnel,
which runs already or is blocked for the same reason. -/
theorem Launched.start (h : Launched env w.hosts w.groups tunnel n id w)
    (htunnel : w.tunnels.lookup id = some tunnel) (other : TunnelId) :
    Launched env w.hosts w.groups tunnel n id (w.start env other) := by
  by_cases hne : id = other
  · subst hne
    cases h with
    | runs hnew hattempt hruns hview =>
        have hactive : id ∈ w.active := Map.mem_iff.2 ⟨_, hruns.1⟩
        have hsame : w.start env id = w := by
          unfold World.start
          rw [if_pos hactive]
        rw [hsame]
        exact .runs hnew hattempt hruns hview
    | @blocked reason hattempt hidle hview =>
        rcases start_attempt env hidle htunnel with ⟨reason', hagain, heq⟩ |
          ⟨used, localAddr, hagain, -⟩
        · rw [hattempt] at hagain
          obtain rfl := Except.error.inj hagain
          rw [heq]
          refine .blocked hattempt (by rwa [World.setState_active]) ?_
          rw [World.setState_lookup, if_pos ⟨rfl, Map.mem_iff.2 ⟨_, hview⟩⟩]
        · rw [hattempt] at hagain
          simp at hagain
  · have hviews := start_lookup_current env w hne
    cases h with
    | runs hnew hattempt hruns hview =>
        exact .runs hnew hattempt (hruns.start env other) (hviews.trans hview)
    | blocked hattempt hidle hview =>
        refine .blocked hattempt ?_ (hviews.trans hview)
        rw [← Map.lookup_eq_none_iff, start_lookup_active hne]
        exact Map.lookup_eq_none_iff.2 hidle

theorem Launched.startEach (h : Launched env w.hosts w.groups tunnel n id w)
    (htunnel : w.tunnels.lookup id = some tunnel) (ids : List TunnelId) :
    Launched env w.hosts w.groups tunnel n id (w.startEach env ids) := by
  have hrest := List.foldlRecOn (motive := fun v : World =>
      Launched env w.hosts w.groups tunnel n id v ∧ v.hosts = w.hosts ∧ v.groups = w.groups ∧
        v.tunnels = w.tunnels) ids (fun v id => v.start env id) ⟨h, rfl, rfl, rfl⟩
    fun v hv other _ => by
      obtain ⟨hlaunched, hhosts, hgroups, htunnels⟩ := hv
      refine ⟨?_, (World.start_hosts env other v).trans hhosts,
        (World.start_groups env other v).trans hgroups,
        (World.start_tunnels env other v).trans htunnels⟩
      rw [← hhosts, ← hgroups] at hlaunched ⊢
      exact hlaunched.start (htunnels ▸ htunnel) other
  exact hrest.1

/-- **Every tunnel of a list is started**, whatever the others do. -/
theorem launched_startEach (env : Env) {ids : List TunnelId} (hmem : id ∈ ids)
    (hidle : id ∉ w.active) (htunnel : w.tunnels.lookup id = some tunnel) (hview : id ∈ w.current) :
    Launched env w.hosts w.groups tunnel w.tasks.length id (w.startEach env ids) := by
  induction ids generalizing w with
  | nil => simp at hmem
  | cons first ids ih =>
      change Launched env w.hosts w.groups tunnel w.tasks.length id
        ((w.start env first).startEach env ids)
      have hhosts := World.start_hosts env first w
      have hgroups := World.start_groups env first w
      have htunnels := World.start_tunnels env first w
      rw [← hhosts, ← hgroups]
      by_cases hne : id = first
      · subst hne
        refine Launched.startEach ?_ (htunnels ▸ htunnel) ids
        rw [hhosts, hgroups]
        exact launched_start hidle htunnel hview
      · have hlater : id ∈ ids := (List.mem_cons.1 hmem).resolve_left hne
        have hidle' : id ∉ (w.start env first).active := by
          rw [← Map.lookup_eq_none_iff, start_lookup_active hne]
          exact Map.lookup_eq_none_iff.2 hidle
        have hview' : id ∈ (w.start env first).current := by
          rw [← AList.lookup_isSome, start_lookup_current env _ hne]
          exact AList.lookup_isSome.2 hview
        exact (ih hlater hidle' (htunnels ▸ htunnel) hview').mono
          (World.start_handled env first w).grows.1

/-- A tunnel that is not in the list is left alone. -/
theorem startEach_untouched (env : Env) (w : World) {ids : List TunnelId} (hids : id ∉ ids) :
    (w.startEach env ids).active.lookup id = w.active.lookup id ∧
      (w.startEach env ids).current.lookup id = w.current.lookup id :=
  List.foldlRecOn (motive := fun v : World => v.active.lookup id = w.active.lookup id ∧
      v.current.lookup id = w.current.lookup id) ids _ ⟨rfl, rfl⟩
    fun _ hv other hmem =>
      have hne : id ≠ other := fun heq => hids (heq ▸ hmem)
      ⟨(start_lookup_active hne).trans hv.1, (start_lookup_current env _ hne).trans hv.2⟩

/-! ## One tunnel through a save -/

/-- The tunnel as the configuration has it. -/
def configured (config : DomainConfig) (id : TunnelId) : Option TunnelConfig :=
  (Map.ofValues TunnelConfig.id config.tunnels).lookup id

/-- **What a save that is stored does to a tunnel**, from `w` to `v`. -/
inductive Applied (env : Env) (config : DomainConfig) (id : TunnelId) (w v : World) : Prop where
  /-- The tunnel is no longer configured: nothing of it is left. -/
  | gone (hnew : configured config id = none) (hidle : id ∉ v.active) (hview : id ∉ v.current)
      (hended : ∀ k, w.active.lookup id = some k → Ended v.history k)
  /-- It runs and is unchanged, with its hosts: it keeps its task and its
  view. -/
  | kept {k : ℕ} {t : Task} {old new : TunnelConfig} (hsame : Unchanged w config id old new)
      (hbefore : RunsAs id k t w) (hafter : RunsAs id k t v)
      (hview : v.current.lookup id = w.current.lookup id)
  /-- It runs and is changed: its task has ended, and it was started as it
  is now. -/
  | replaced {k : ℕ} {new : TunnelConfig} (hnew : configured config id = some new)
      (hchanged : ∀ old, ¬ Unchanged w config id old new) (hbefore : w.active.lookup id = some k)
      (hended : Ended v.history k)
      (hafter : Launched env config.hosts config.groups new w.tasks.length id v)
  /-- It does not run, and is marked to be started. -/
  | started {new : TunnelConfig} (hnew : configured config id = some new)
      (hmark : new.autoStart = true) (hbefore : id ∉ w.active)
      (hafter : Launched env config.hosts config.groups new w.tasks.length id v)
  /-- It does not run, and is left as it was shown, or stopped. -/
  | idle {new : TunnelConfig} (hnew : configured config id = some new)
      (hmark : new.autoStart = false) (hbefore : id ∉ w.active) (hafter : id ∉ v.active)
      (hview : v.current.lookup id = some ((w.current.lookup id).getD ⟨.stopped, none⟩))

/-- What is active after the exchange of the maps. -/
theorem exchange_lookup_active (env : Env) (config : DomainConfig) (w : World) (id : TunnelId) :
    (w.exchange env config).active.lookup id =
      if id ∈ w.toRestart env config then none else w.active.lookup id :=
  World.stopEach_lookup_active env _ id { w with configViews := config }

/-- The view after the exchange of a tunnel that was not stopped for it. -/
theorem exchange_lookup_kept (hnot : id ∉ w.toRestart env config) {new : TunnelConfig}
    (hnew : configured config id = some new) : (w.exchange env config).current.lookup id =
      some ((w.current.lookup id).getD ⟨.stopped, none⟩) := by
  have hviews : (({ w with configViews := config } : World).stopEach env
      (w.toRestart env config)).current.lookup id = w.current.lookup id :=
    stopEach_lookup_current hnot
  rw [World.exchange_lookup_current, if_pos (Map.mem_iff.2 ⟨new, hnew⟩), hviews]

/-- A task that a save takes from its tunnel has ended. -/
theorem ended_of_taken (hb : Bookkeeping w) (env : Env) (config : DomainConfig) {k : ℕ}
    (hk : w.active.lookup id = some k)
    (htaken : (w.replaceConfig env config).active.lookup id ≠ some k) :
    Ended (w.replaceConfig env config).history k := by
  obtain ⟨t, ht, hid⟩ := hb.tasks.owned id k hk
  have hspawned := hb.tasks.recorded k t ht
  rw [hid] at hspawned
  obtain ⟨more, hmore⟩ := (World.replaceConfig_handled env config w).grows.2
  have hrecorded : .spawned k id ∈ (w.replaceConfig env config).history := by
    rw [show (w.replaceConfig env config).history = w.history ++ more from hmore]
    exact List.mem_append_left _ hspawned
  exact ((hb.replaceConfig env config).tasks.ended k id hrecorded).resolve_left htaken

/-- The hosts a running task uses are configured. -/
theorem ChainAgrees.exists_host {used : List SshHost} {chain : List HostId}
    (h : ChainAgrees hosts chain used) : ∀ hop ∈ chain, ∃ host, findHost hosts hop = some host := by
  induction h with
  | nil => simp
  | cons ha _ ih =>
      intro hop hmem
      obtain ⟨b, hb, -⟩ := ha
      rcases List.mem_cons.1 hmem with rfl | hmem
      · exact ⟨b, hb⟩
      · exact ih hop hmem

/-- **A running tunnel that needs no restart** is unchanged, with its
hosts. -/
theorem unchanged_of_kept (hu : UpToDate w) {k : ℕ} {t : Task} (hruns : RunsAs id k t w)
    (hkeep : w.needsRestart config.hosts (Map.ofValues TunnelConfig.id config.tunnels) id = false) :
    ∃ old new, Unchanged w config id old new := by
  obtain ⟨old, new, hold, hnew, htunnel, hhosts⟩ := World.needsRestart_false hkeep
  obtain ⟨now, hnow, -, hchain⟩ := hu id k t hruns.1 hruns.2
  obtain rfl := Option.some.inj (hold.symm.trans hnow)
  refine ⟨old, new, hold, hnew, sameTunnelRuntime_iff.1 htunnel, fun hop hmem => ?_⟩
  obtain ⟨a, ha⟩ := hchain.exists_host hop hmem
  have hsame := hhosts hop hmem
  rw [ha] at hsame
  cases hb : findHost config.hosts hop with
  | none => simp [hb, sameHostConnection] at hsame
  | some b =>
      rw [hb] at hsame
      exact ⟨a, b, ha, rfl, sameHostConnection_iff.1 hsame⟩

/-- What is to be started is started, from the new configuration. -/
theorem launched_replaceConfig (env : Env) (hidle : id ∉ (w.exchange env config).active)
    (hstart : id ∈ w.toStart env config) {new : TunnelConfig}
    (hnew : configured config id = some new) :
    Launched env config.hosts config.groups new w.tasks.length id (w.replaceConfig env config) := by
  have hview : id ∈ (w.exchange env config).current := by
    rw [← AList.lookup_isSome, World.exchange_lookup_current, if_pos (Map.mem_iff.2 ⟨new, hnew⟩)]
    rfl
  have hexchanged : Handled w.books (w.exchange env config).books :=
    World.stopEach_handled env (w.toRestart env config) { w with configViews := config }
  rw [World.replaceConfig_eq]
  exact (launched_startEach env hstart hidle hnew hview).mono hexchanged.grows.1

/-- A tunnel that keeps its task keeps its view. -/
theorem startEach_lookup_kept {k : ℕ} {t : Task} (hruns : RunsAs id k t w) (ids : List TunnelId) :
    (w.startEach env ids).current.lookup id = w.current.lookup id :=
  (List.foldlRecOn (motive := fun v : World => RunsAs id k t v ∧
      v.current.lookup id = w.current.lookup id) ids _ ⟨hruns, rfl⟩
    fun v hv other _ => by
      refine ⟨hv.1.start env other, ?_⟩
      by_cases hne : id = other
      · have hactive : other ∈ v.active := hne ▸ Map.mem_iff.2 ⟨k, hv.1.1⟩
        unfold World.start
        rw [if_pos hactive]
        exact hv.2
      · exact (start_lookup_current env v hne).trans hv.2).2

/-- **A stored configuration is applied to every tunnel.** -/
theorem applied_replaceConfig (hb : Bookkeeping w) (hu : UpToDate w) (env : Env)
    (config : DomainConfig) (id : TunnelId) :
    Applied env config id w (w.replaceConfig env config) := by
  have hexchanged := exchange_lookup_active env config w id
  cases hnew : configured config id with
  | none =>
      have hstart : id ∉ w.toStart env config := by
        intro hmem
        obtain ⟨tunnel, htunnel, -⟩ := World.mem_toStart.1 hmem
        rw [configured, htunnel] at hnew
        simp at hnew
      obtain ⟨hactive, hviews⟩ := startEach_untouched env (w.exchange env config) hstart
      rw [← World.replaceConfig_eq] at hactive hviews
      -- it needs a restart, as it is not configured, and so it was stopped
      have hidle : (w.replaceConfig env config).active.lookup id = none := by
        rw [hactive, Option.eq_none_iff_forall_ne_some]
        intro k hk
        obtain ⟨_, new, -, hnew', -⟩ :=
          World.needsRestart_false (World.exchange_active env config w hk).2
        rw [configured, hnew'] at hnew
        simp at hnew
      refine .gone hnew (Map.lookup_eq_none_iff.1 hidle) (Map.lookup_eq_none_iff.1 ?_) fun k hk =>
        ended_of_taken hb env config hk (by rw [hidle]; simp)
      rw [hviews, World.exchange_lookup_current]
      exact if_neg (Map.lookup_eq_none_iff.1 hnew)
  | some new =>
      cases hk : w.active.lookup id with
      | some k =>
          obtain ⟨t, ht, -⟩ := hb.tasks.owned id k hk
          have hactive : id ∈ w.active := Map.mem_iff.2 ⟨k, hk⟩
          cases hneeds : w.needsRestart config.hosts
              (Map.ofValues TunnelConfig.id config.tunnels) id with
          | true =>
              have hstopped : id ∈ w.toRestart env config := World.mem_toRestart.2 ⟨hactive, hneeds⟩
              rw [if_pos hstopped] at hexchanged
              have hlaunched := launched_replaceConfig env (Map.lookup_eq_none_iff.1 hexchanged)
                (World.mem_toStart.2 ⟨new, hnew, .inr hactive⟩) hnew
              have htaken : (w.replaceConfig env config).active.lookup id ≠ some k := by
                intro heq
                cases hlaunched with
                | runs hge hattempt hruns hview =>
                    have hlt := (List.getElem?_eq_some_iff.1 ht).1
                    rw [hruns.1, Option.some.injEq] at heq
                    omega
                | blocked hattempt hidle hview => exact hidle (Map.mem_iff.2 ⟨k, heq⟩)
              refine .replaced hnew (fun old hsame => ?_) hk
                (ended_of_taken hb env config hk htaken) hlaunched
              rw [hsame.needsRestart] at hneeds
              simp at hneeds
          | false =>
              obtain ⟨old, new', hsame⟩ := unchanged_of_kept hu ⟨hk, ht⟩ hneeds
              have hnot : id ∉ w.toRestart env config := by
                intro hmem
                rw [(World.mem_toRestart.1 hmem).2] at hneeds
                simp at hneeds
              have hafter : RunsAs id k t (w.exchange env config) := by
                have hviews : RunsAs id k t { w with configViews := config } := ⟨hk, ht⟩
                exact hviews.stopEach ⟨⟨hb.views, hb.tasks⟩, hb.published⟩ env hnot
              have hshown : id ∈ w.current :=
                (hb.views.keys id).2 (hb.views.configured id hactive)
              refine .kept hsame ⟨hk, ht⟩ (RunsAs.replaceConfig ⟨hk, ht⟩ hb env hsame) ?_
              rw [World.replaceConfig_eq, startEach_lookup_kept hafter,
                exchange_lookup_kept hnot hnew]
              obtain ⟨view, hview⟩ := Map.mem_iff.1 hshown
              rw [hview]
              rfl
      | none =>
          have hbefore : id ∉ w.active := Map.lookup_eq_none_iff.1 hk
          have hnot : id ∉ w.toRestart env config := fun hmem =>
            hbefore (World.mem_toRestart.1 hmem).1
          rw [if_neg hnot, hk] at hexchanged
          cases hmark : new.autoStart with
          | true =>
              have hstart : id ∈ w.toStart env config :=
                World.mem_toStart.2 ⟨new, hnew, .inl hmark⟩
              exact .started hnew hmark hbefore
                (launched_replaceConfig env (Map.lookup_eq_none_iff.1 hexchanged) hstart hnew)
          | false =>
              have hstart : id ∉ w.toStart env config := by
                intro hmem
                obtain ⟨tunnel, htunnel, hauto | hactive⟩ := World.mem_toStart.1 hmem
                · obtain rfl := Option.some.inj (htunnel.symm.trans hnew)
                  simp [hmark] at hauto
                · exact hbefore hactive
              obtain ⟨hactive, hviews⟩ := startEach_untouched env (w.exchange env config) hstart
              rw [← World.replaceConfig_eq] at hactive hviews
              refine .idle hnew hmark hbefore ?_ (hviews.trans (exchange_lookup_kept hnot hnew))
              rw [← Map.lookup_eq_none_iff, hactive, hexchanged]

/-! ## Along every run -/

/-- **A save is applied to every tunnel, or disturbs none**: in every
state a run reaches, a configuration that was stored is carried out for
each tunnel, and one that was not leaves all but the stores as it was. -/
theorem save_applies (home : Option PathBuf) (codec : Codec) {w : World} (hw : Booted w)
    (inputs : List Input) (hrun : (runState (World.step home codec) w inputs).running = true)
    (env : Env) (directory : PathBuf) (config : DomainConfig) (secret : Option SecretUpdate) :
    let v := runState (World.step home codec) w inputs
    let r := v.step home codec (.command (.saveConfig directory config secret) env)
    (r.1 = some (.saved (.value ())) ∧ ∀ id, Applied env config id v r.2) ∨
      r.1 ≠ some (.saved (.value ())) ∧ ∃ stores, r.2 = { v with stores } := by
  intro v r
  have hb : Bookkeeping v := bookkeeping_reached hw inputs hrun
  have hu : UpToDate v := upToDate_reached hw inputs hrun
  obtain ⟨stores, ⟨hok, heq⟩ | ⟨hne, heq⟩⟩ :=
    World.saveConfig_cases home codec env directory config secret v
  · left
    have hr : r = (some (.saved (v.saveConfig home codec env directory config secret).1),
        (v.saveConfig home codec env directory config secret).2) := World.step_command hrun
    rw [hr, hok, heq]
    refine ⟨rfl, fun id => ?_⟩
    have happlied := applied_replaceConfig (w := { v with stores })
      ⟨⟨hb.views, hb.tasks⟩, hb.published⟩ hu env config id
    -- what a save does to the tunnels does not depend on the stores
    cases happlied with
    | gone hnew hidle hview hended => exact .gone hnew hidle hview hended
    | kept hsame hbefore hafter hview =>
        exact .kept ⟨hsame.before, hsame.after, hsame.tunnel, hsame.hosts⟩ hbefore hafter hview
    | replaced hnew hchanged hbefore hended hafter =>
        refine .replaced hnew (fun old hsame => hchanged old ?_) hbefore hended hafter
        exact ⟨hsame.before, hsame.after, hsame.tunnel, hsame.hosts⟩
    | started hnew hmark hbefore hafter => exact .started hnew hmark hbefore hafter
    | idle hnew hmark hbefore hafter hview => exact .idle hnew hmark hbefore hafter hview
  · right
    have hr : r = (some (.saved (v.saveConfig home codec env directory config secret).1),
        (v.saveConfig home codec env directory config secret).2) := World.step_command hrun
    rw [hr, heq]
    refine ⟨fun heq' => hne ?_, stores, rfl⟩
    simpa using heq'

/-- A setting is changed, and the save goes through. -/
theorem save_applies_labSave :
    let r := labWorld.step none labCodec labSave
    r.1 = some (.saved (.value ())) ∧ ∀ id, Applied calm labConfig id labWorld r.2 := by
  rcases save_applies none labCodec booted_labWorld [] (by decide +kernel) calm appDirectory
    labConfig none with happlied | ⟨hne, -⟩
  · exact happlied
  · exact absurd (by decide +kernel) hne

end Manager

end TunnelWarden
