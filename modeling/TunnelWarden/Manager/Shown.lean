import TunnelWarden.Manager.Ends

/-!
# What is shown of a running tunnel

The view of an active tunnel is the state its own task published last,
unless there is a change the poll has yet to see: what an earlier task of
the tunnel published is never shown of a later one. A poll that finds the
channels of the live tasks open leaves no change unseen, and no task
that has ended.
-/

namespace TunnelWarden

namespace Manager

variable {active active' : Map TunnelId ℕ} {current current' : ManagerSnapshot}
variable {tasks tasks' : List Task} {id : TunnelId} {k : ℕ} {w : World}

/-- The view of an active tunnel is that of its task, up to a change that
was not seen. -/
def Shown (active : Map TunnelId ℕ) (current : ManagerSnapshot) (tasks : List Task) : Prop :=
  ∀ id k, active.lookup id = some k → ∃ t view, tasks[k]? = some t ∧ t.id = id ∧
    current.lookup id = some view ∧ (t.changed = false → view.state = t.state)

/-- A task that is no less seen than it was. -/
def Task.Follows (t' t : Task) : Prop :=
  t'.id = t.id ∧ (t'.changed = false → t.changed = false ∧ t'.state = t.state)

/-- What is active was active before, with the same view. -/
theorem Shown.weaken (h : Shown active current tasks)
    (h' : ∀ id k, active'.lookup id = some k → active.lookup id = some k ∧
      current'.lookup id = current.lookup id ∧
      ∀ t, tasks[k]? = some t → ∃ t', tasks'[k]? = some t' ∧ t'.Follows t) :
    Shown active' current' tasks' := by
  intro id k hk
  obtain ⟨hold, hview, htask⟩ := h' id k hk
  obtain ⟨t, view, ht, hid, hv, hstate⟩ := h id k hold
  obtain ⟨t', ht', hsame, hfollows⟩ := htask t ht
  refine ⟨t', view, ht', hsame.trans hid, hview.trans hv, fun hseen => ?_⟩
  obtain ⟨hchanged, heq⟩ := hfollows hseen
  rw [heq]
  exact hstate hchanged

theorem Task.Follows.self (t : Task) : t.Follows t := ⟨rfl, fun h => ⟨h, rfl⟩⟩

/-- An update of one task that the views need not follow. -/
theorem exists_modify {f : Task → Task} (hf : ∀ t, (f t).Follows t) (j : ℕ) {t : Task}
    (ht : tasks[k]? = some t) : ∃ t', (tasks.modify j f)[k]? = some t' ∧ t'.Follows t := by
  rw [List.getElem?_modify, ht]
  by_cases hjk : j = k
  · exact ⟨f t, by simp [hjk], hf t⟩
  · exact ⟨t, by simp [hjk], Task.Follows.self t⟩

theorem Shown.modify (h : Shown active current tasks) (j : ℕ) {f : Task → Task}
    (hf : ∀ t, (f t).Follows t) : Shown active current (tasks.modify j f) :=
  h.weaken fun _ _ hk => ⟨hk, rfl, fun _ ht => exists_modify hf j ht⟩

namespace World

/-- The views of a world are those of its tasks. -/
def Shows (w : World) : Prop := Shown w.active w.current w.tasks

variable {env : Env} {state : SupervisorState}

/-- Two tunnels are not active with one task. -/
theorem Shows.apart (h : w.Shows) {id' : TunnelId} {j : ℕ} (hj : w.active.lookup id = some j)
    (hk : w.active.lookup id' = some k) (hne : id' ≠ id) : j ≠ k := by
  rintro rfl
  obtain ⟨t, -, ht, hid, -, -⟩ := h id j hj
  obtain ⟨t', -, ht', hid', -, -⟩ := h id' j hk
  obtain rfl := Option.some.inj (ht.symm.trans ht')
  exact hne (hid'.symm.trans hid)

/-! ## The operations -/

theorem Shows.setState (h : w.Shows) (hid : id ∉ w.active) (localAddr : Option SocketAddr) :
    (w.setState id state localAddr).Shows := by
  unfold Shows
  rw [setState_active, setState_tasks]
  refine h.weaken fun id' k hk => ⟨hk, ?_, fun t ht => ⟨t, ht, Task.Follows.self t⟩⟩
  have hne : id' ≠ id := by
    rintro rfl
    exact hid (Map.mem_iff.2 ⟨k, hk⟩)
  rw [setState_lookup, if_neg fun h => hne h.1]

/-- A new task is shown as connecting, as it is. -/
theorem Shows.start (h : w.Shows) (hviews : ∀ id, id ∈ w.tunnels → id ∈ w.current) (env : Env)
    (id : TunnelId) : (w.start env id).Shows := by
  rcases start_cases env id w with ⟨-, heq⟩ | ⟨hid, -, reason, heq⟩ |
    ⟨hid, tunnel, hosts, localAddr, ht, -, -, -, heq⟩
  · rw [heq]
    exact h
  · rw [heq]
    exact h.setState hid none
  · have hmem : id ∈ w.current := hviews id (Map.mem_iff.2 ⟨tunnel, ht⟩)
    rw [heq]
    intro id' k hk
    simp only [setState_tasks, setState_lookup]
    rw [Map.lookup_insert_eq] at hk
    split at hk
    · rename_i hsame
      obtain rfl := Option.some.inj hk
      refine ⟨{ id := id, tunnel := tunnel, hosts := hosts }, ⟨.connecting 1, localAddr⟩, ?_,
        hsame.symm, if_pos ⟨hsame, hmem⟩, fun _ => rfl⟩
      exact List.getElem?_concat_length
    · rename_i hne
      obtain ⟨t, view, ht, hid', hview, hstate⟩ := h id' k hk
      refine ⟨t, view, ?_, hid', ?_, hstate⟩
      · exact (List.getElem?_append_left (List.getElem?_eq_some_iff.1 ht).1).trans ht
      · rw [if_neg fun hc => hne hc.1]
        exact hview

/-- A task that ends shows what it showed. -/
theorem exit_follows (t : Task) (exit : Option TaskExit) : ({ t with exit } : Task).Follows t :=
  ⟨rfl, fun h => ⟨h, rfl⟩⟩

/-- A tunnel whose task is awaited is not active any more. -/
theorem Shows.endTask (h : w.Shows) (id : TunnelId) (task : ℕ) (inTime : Bool) :
    ({ w with active := w.active.erase id }.endTask task inTime).Shows := by
  refine h.weaken fun id' k hk => ?_
  have hlookup : (if id' = id then none else w.active.lookup id') = some k :=
    (Map.lookup_erase_eq id').symm.trans hk
  split at hlookup
  · cases hlookup
  · exact ⟨hlookup, rfl, fun t ht => exists_modify (fun t => exit_follows t _) task ht⟩

theorem Shows.stop (h : w.Shows) (env : Env) (id : TunnelId) : (w.stop env id).Shows := by
  rcases stop_cases env id w with ⟨hid, heq⟩ | ⟨task, -, heq⟩
  · rw [heq]
    exact h.setState hid none
  · have hgone : id ∉ w.active.erase id := fun hmem => (AList.mem_erase.1 hmem).1 rfl
    rw [heq]
    exact (h.endTask id task (env.inTime id)).setState hgone none

theorem Shows.stopEach (h : w.Shows) (env : Env) (ids : List TunnelId) : (w.stopEach env ids).Shows :=
  List.foldlRecOn (motive := Shows) ids _ h fun _ hv id _ => hv.stop env id

theorem Shows.startEach (h : w.Shows) (hviews : ∀ id, id ∈ w.tunnels → id ∈ w.current) (env : Env)
    (ids : List TunnelId) : (w.startEach env ids).Shows := by
  have hboth := List.foldlRecOn
    (motive := fun v : World => v.Shows ∧ ∀ id, id ∈ v.tunnels → id ∈ v.current) ids
    (fun v id => v.start env id) ⟨h, hviews⟩ fun v hv id _ => by
      refine ⟨hv.1.start hv.2 env id, fun id' => ?_⟩
      rw [start_tunnels, mem_start_current]
      exact hv.2 id'
  exact hboth.1

/-! ## The poll -/

theorem Shows.showState {p : Poll} (h : p.world.Shows) (env : Env) {task : ℕ} {t : Task}
    (ha : p.world.active.lookup id = some task) (ht : p.world.tasks[task]? = some t) :
    (showState env p id task t).world.Shows := by
  obtain ⟨t', view, ht', hid, hview, hstate⟩ := h id task ha
  obtain rfl := Option.some.inj (ht.symm.trans ht')
  unfold World.showState
  split
  · dsimp only
    rw [hview]
    intro id' k hk
    dsimp only at hk ⊢
    rw [List.getElem?_modify, Map.lookup_insert_eq]
    by_cases hsame : id' = id
    · subst hsame
      obtain rfl := Option.some.inj (ha.symm.trans hk)
      refine ⟨{ t with changed := false }, { view with state := t.state }, ?_, hid, if_pos rfl,
        fun _ => rfl⟩
      simp [ht]
    · obtain ⟨u, view', hu, hid', hview', hstate'⟩ := h id' k hk
      have hother : task ≠ k := h.apart ha hk hsame
      refine ⟨u, view', ?_, hid', ?_, hstate'⟩
      · simp [hother, hu]
      · rw [if_neg hsame]
        exact hview'
  · exact h

theorem Shows.pollOne {p : Poll} (h : p.world.Shows) (env : Env) (id : TunnelId) :
    (pollOne env p id).world.Shows := by
  unfold World.pollOne
  cases ha : p.world.active.lookup id with
  | none => exact h
  | some task =>
      dsimp only
      cases ht : p.world.tasks[task]? with
      | none => exact h
      | some t =>
          have hshown := h.showState env ha ht
          dsimp only
          split
          · exact hshown
          · exact hshown

theorem Shows.finishOne {p : Poll} (h : p.world.Shows) (id : TunnelId) :
    (finishOne p id).world.Shows := by
  unfold World.finishOne
  cases ha : p.world.active.lookup id with
  | none => exact h
  | some task =>
      have hended := h.endTask id task true
      dsimp only
      split
      · exact hended
      · refine hended.weaken fun id' k hk => ⟨hk, ?_, fun t ht => ⟨t, ht, Task.Follows.self t⟩⟩
        have hne : id' ≠ id := by
          rintro rfl
          have hsome : (p.world.active.erase id').lookup id' = some k := hk
          rw [AList.lookup_erase] at hsome
          cases hsome
        exact AList.lookup_insert_ne hne

theorem Shows.prunePrompts (h : w.Shows) : w.prunePrompts.Shows := by
  obtain ⟨kept, views, heq⟩ := w.prunePrompts_cases
  rw [heq]
  exact h

theorem Shows.refresh (h : w.Shows) (env : Env) : (w.refresh env).Shows := by
  obtain ⟨p, l, lv, hp, heq⟩ := refresh_cases (I := fun p => p.world.Shows) env w h.prunePrompts
    (fun _ id hp => hp.pollOne env id) fun _ id hp => hp.finishOne id
  rw [heq]
  split
  · exact hp
  · exact hp

/-! ## The other inputs -/

/-- The entries of the keys that stay, and the default for new keys. -/
theorem lookup_exchanged {κ α β : Type} [DecidableEq κ] (default : α) (updated : Map κ β)
    (m : Map κ α) (key : κ) :
    (Map.orInsertAll default updated.keys (Map.retain (fun key => key ∈ updated) m)).lookup key =
      if key ∈ updated then some ((m.lookup key).getD default) else none := by
  have hretain := Map.lookup_retain (m := m) (fun key => key ∈ updated) key
  rw [Map.lookup_orInsertAll]
  by_cases hmem : key ∈ updated
  · rw [if_pos (by simpa using hmem)] at hretain
    rw [if_pos hmem]
    cases hm : m.lookup key with
    | none =>
        rw [hm] at hretain
        rw [if_neg (Map.lookup_eq_none_iff.1 hretain), if_pos (AList.mem_keys.1 hmem)]
        rfl
    | some a =>
        rw [hm] at hretain
        rw [if_pos (Map.mem_iff.2 ⟨a, hretain⟩), hretain]
        rfl
  · rw [if_neg (by simpa using hmem)] at hretain
    rw [if_neg (Map.lookup_eq_none_iff.1 hretain), if_neg fun h => hmem (AList.mem_keys.2 h),
      if_neg hmem]

/-- The views after an exchange: those there were, of the tunnels of the
new configuration, and stopped ones. -/
theorem exchange_lookup_current (env : Env) (config : DomainConfig) (w : World) (id : TunnelId) :
    (w.exchange env config).current.lookup id =
      if id ∈ Map.ofValues TunnelConfig.id config.tunnels then
        some (((({ w with configViews := config } : World).stopEach env
          (w.toRestart env config)).current.lookup id).getD ⟨.stopped, none⟩)
      else none :=
  lookup_exchanged _ _ _ id

/-- A tunnel that stays active keeps its view through an exchange of the
configuration. -/
theorem Shows.exchange (h : w.Shows) (env : Env) (config : DomainConfig) :
    (w.exchange env config).Shows := by
  let stopped : World := { w with configViews := config }.stopEach env (w.toRestart env config)
  have hstopped : stopped.Shows :=
    Shows.stopEach (w := { w with configViews := config }) h env (w.toRestart env config)
  refine hstopped.weaken fun id k hk => ⟨hk, ?_, fun t ht => ⟨t, ht, Task.Follows.self t⟩⟩
  obtain ⟨-, new, -, hnew, -⟩ := needsRestart_false (exchange_active env config w hk).2
  obtain ⟨t, view, -, -, hview, -⟩ := hstopped id k hk
  rw [exchange_lookup_current, if_pos (Map.mem_iff.2 ⟨new, hnew⟩), hview]
  rfl

theorem Shows.replaceConfig (h : w.Shows) (env : Env) (config : DomainConfig) :
    (w.replaceConfig env config).Shows := by
  rw [replaceConfig_eq]
  refine (h.exchange env config).startEach (fun id hid => ?_) env _
  have hmem : id ∈ Map.ofValues TunnelConfig.id config.tunnels := hid
  rw [← AList.lookup_isSome, exchange_lookup_current, if_pos hmem]
  rfl

theorem notify_follows (t : Task) : ({ t with hints := t.hints + 1 } : Task).Follows t :=
  ⟨rfl, fun h => ⟨h, rfl⟩⟩

theorem Shows.notify (h : w.Shows) (task : ℕ) : (w.notify task).Shows := h.modify task notify_follows

theorem Shows.handle (h : w.Shows) (hviews : ∀ id, id ∈ w.tunnels → id ∈ w.current)
    (home : Option PathBuf) (codec : Codec) (env : Env) (command : CoreCommand) :
    (w.handle home codec env command).2.Shows := by
  cases command with
  | startAll => exact h.startEach hviews env _
  | stopAll => exact h.stopEach env _
  | startGroup group => exact h.startEach hviews env _
  | stopGroup group => exact h.stopEach env _
  | startTunnel id => exact h.start hviews env id
  | stopTunnel id => exact h.stop env id
  | restartTunnel id =>
      refine (h.stop env id).start (fun id' hid' => ?_) env id
      rw [stop_tunnels] at hid'
      have hmem : id' ∈ w.current := hviews id' hid'
      rcases stop_cases env id w with ⟨-, heq⟩ | ⟨task, -, heq⟩
      · rw [heq, mem_setState_current]
        exact hmem
      · rw [heq, mem_setState_current]
        exact hmem
  | retryTunnel id => exact retry_keeps h h.notify (h.start hviews env id)
  | networkRecovered => exact networkRecovered_keeps h fun _ task hv => hv.notify task
  | saveConfig directory config secret =>
      obtain ⟨stores, hsave⟩ := saveConfig_cases home codec env directory config secret w
      rcases hsave with ⟨-, heq⟩ | ⟨-, heq⟩
      · have hreplaced := Shows.replaceConfig (w := { w with stores }) h env config
        rw [World.handle, heq]
        exact hreplaced
      · rw [World.handle, heq]
        exact h
  | importConfig path => exact h
  | previewSshConfig path => exact h
  | exportConfig path config => exact h
  | resolveHostKey id decision =>
      unfold World.handle resolveHostKey
      dsimp only
      split
      · exact h
      · exact h

/-- **One input** keeps the views with the tasks. -/
theorem Shows.step (h : w.Shows)
    (hviews : w.running = true → ∀ id, id ∈ w.tunnels → id ∈ w.current) (home : Option PathBuf)
    (codec : Codec) (input : Input) : (w.step home codec input).2.Shows := by
  unfold World.step
  split
  · exact h
  · rename_i hrun
    have hviews := hviews (by simpa using hrun)
    cases input with
    | command command env => exact h.handle hviews home codec env command
    | prompt prompt =>
        unfold queueHostKey
        dsimp only
        split
        · exact h
        · exact h
    | tick env =>
        dsimp only
        split
        · exact h
        · exact h.refresh env
    | report task state =>
        refine h.modify task fun t => ?_
        split
        · exact ⟨rfl, nofun⟩
        · exact Task.Follows.self t
    | exit task result =>
        refine h.modify task fun t => ?_
        split
        · exact exit_follows t _
        · exact Task.Follows.self t
    | giveUp reply => exact h
    | shutdown env =>
        intro id k hk
        exact absurd (Map.mem_iff.2 ⟨k, hk⟩) ((drain_handled env w).2 id)

/-! ## A poll that sees everything -/

/-- A fold, with what it has been at. -/
theorem foldl_past {α β : Type} {f : β → α → β} {I : List α → β → Prop} {b : β} (items : List α)
    (h0 : I [] b) (hstep : ∀ past b a, I past b → I (past ++ [a]) (f b a)) :
    I items (items.foldl f b) := by
  induction items using List.reverseRecOn with
  | nil => exact h0
  | append_singleton items a ih =>
      rw [List.foldl_append]
      exact hstep items _ a ih

/-- The poll can see what the live tasks publish. -/
def Sees (env : Env) (w : World) : Prop :=
  ∀ id k t, w.active.lookup id = some k → w.tasks[k]? = some t → t.Live → env.sees id = true

/-- The poll has been at these tunnels. -/
structure Polled (env : Env) (active : Map TunnelId ℕ) (past : List TunnelId) (p : Poll) : Prop where
  shows : p.world.Shows
  active : p.world.active = active
  sees : p.world.Sees env
  seen : ∀ id ∈ past, ∀ k t, p.world.active.lookup id = some k → p.world.tasks[k]? = some t →
    t.Live → t.changed = false
  noted : ∀ id ∈ past, ∀ k t, p.world.active.lookup id = some k → p.world.tasks[k]? = some t →
    ¬ t.Live → id ∈ p.finished

/-- What the poll does to the entry of a tunnel. -/
theorem pollOne_spec {p : Poll} (h : p.world.Shows) (env : Env) {task : ℕ} {t : Task}
    (ha : p.world.active.lookup id = some task) (ht : p.world.tasks[task]? = some t) :
    (pollOne env p id).world.active = p.world.active ∧
      (pollOne env p id).world.tasks = (if t.changed && env.sees id then
        p.world.tasks.modify task fun t => { t with changed := false } else p.world.tasks) ∧
      (pollOne env p id).finished = p.finished ++ if t.exit.isSome then [id] else [] := by
  obtain ⟨_, view, -, -, hview, -⟩ := h id task ha
  unfold pollOne showState
  rw [ha]
  dsimp only
  rw [ht]
  dsimp only
  rw [hview]
  cases t.changed && env.sees id
  · cases t.exit.isSome
    · exact ⟨rfl, rfl, (List.append_nil _).symm⟩
    · exact ⟨rfl, rfl, rfl⟩
  · cases t.exit.isSome
    · exact ⟨rfl, rfl, (List.append_nil _).symm⟩
    · exact ⟨rfl, rfl, rfl⟩

theorem Polled.pollOne {p : Poll} {env : Env} {past : List TunnelId}
    (h : Polled env active past p) (id : TunnelId) :
    Polled env active (past ++ [id]) (pollOne env p id) := by
  cases ha : p.world.active.lookup id with
  | none =>
      have hnone : World.pollOne env p id = p := by rw [World.pollOne, ha]
      have hother : ∀ id' ∈ past ++ [id], ∀ k, p.world.active.lookup id' = some k → id' ∈ past := by
        intro id' hid' k hk
        rcases List.mem_append.1 hid' with hpast | hlast
        · exact hpast
        · obtain rfl := List.mem_singleton.1 hlast
          rw [ha] at hk
          cases hk
      rw [hnone]
      exact ⟨h.shows, h.active, h.sees, fun id' hid' k t hk => h.seen id' (hother id' hid' k hk) k t hk,
        fun id' hid' k t hk => h.noted id' (hother id' hid' k hk) k t hk⟩
  | some task =>
      obtain ⟨t, view, ht, hid, -, -⟩ := h.shows id task ha
      obtain ⟨hactive, htasks, hfinished⟩ := pollOne_spec h.shows env ha ht
      -- the other tasks are as they were
      have hother : ∀ id' k t', id' ≠ id → p.world.active.lookup id' = some k →
          (World.pollOne env p id).world.tasks[k]? = some t' → p.world.tasks[k]? = some t' := by
        intro id' k t' hne hk ht'
        rw [htasks] at ht'
        split at ht'
        · rwa [List.getElem?_modify_ne _ _ (h.shows.apart ha hk hne)] at ht'
        · exact ht'
      -- this one is the old one, with no change unseen where the poll sees it
      have hsame : ∀ t', (World.pollOne env p id).world.tasks[task]? = some t' →
          t'.exit = t.exit ∧ (env.sees id = true → t'.changed = false) := by
        intro t' ht'
        rw [htasks] at ht'
        split at ht'
        · rw [List.getElem?_modify_eq, ht] at ht'
          obtain rfl := Option.some.inj ht'
          exact ⟨rfl, fun _ => rfl⟩
        · rename_i hnot
          obtain rfl := Option.some.inj (ht.symm.trans ht')
          exact ⟨rfl, fun hsees => by simpa [hsees] using hnot⟩
      refine ⟨h.shows.pollOne env id, hactive.trans h.active, ?_, ?_, ?_⟩
      · intro id' k t' hk ht' hlive
        rw [hactive] at hk
        by_cases hne : id' = id
        · subst hne
          obtain rfl := Option.some.inj (ha.symm.trans hk)
          exact h.sees id' task t ha ht ((hsame t' ht').1.symm.trans hlive)
        · exact h.sees id' k t' hk (hother id' k t' hne hk ht') hlive
      · intro id' hid' k t' hk ht' hlive
        rw [hactive] at hk
        by_cases hne : id' = id
        · subst hne
          obtain rfl := Option.some.inj (ha.symm.trans hk)
          obtain ⟨hexit, hseen⟩ := hsame t' ht'
          exact hseen (h.sees id' task t ha ht (hexit.symm.trans hlive))
        · have hpast : id' ∈ past := by simpa [hne] using hid'
          exact h.seen id' hpast k t' hk (hother id' k t' hne hk ht') hlive
      · intro id' hid' k t' hk ht' hlive
        rw [hactive] at hk
        rw [hfinished]
        by_cases hne : id' = id
        · subst hne
          obtain rfl := Option.some.inj (ha.symm.trans hk)
          have hexit : t.exit.isSome = true := by
            rw [← (hsame t' ht').1]
            exact Option.isSome_iff_ne_none.2 hlive
          rw [if_pos hexit]
          exact List.mem_append_right _ (List.mem_singleton_self _)
        · have hpast : id' ∈ past := by simpa [hne] using hid'
          exact List.mem_append_left _
            (h.noted id' hpast k t' hk (hother id' k t' hne hk ht') hlive)

/-- The finished tasks of these tunnels have been awaited. -/
structure Finished (finished past : List TunnelId) (w : World) : Prop where
  shows : w.Shows
  seen : ∀ id k t, w.active.lookup id = some k → w.tasks[k]? = some t → t.Live → t.changed = false
  rest : ∀ id k t, w.active.lookup id = some k → w.tasks[k]? = some t → ¬ t.Live →
    id ∈ finished ∧ id ∉ past

theorem Finished.finishOne {finished past : List TunnelId} {p : Poll}
    (h : Finished finished past p.world) (id : TunnelId) :
    Finished finished (past ++ [id]) (finishOne p id).world := by
  -- what is active afterwards was active before, under another name
  have hbefore : ∀ id' k t, (World.finishOne p id).world.active.lookup id' = some k →
      (World.finishOne p id).world.tasks[k]? = some t →
      id' ≠ id ∧ p.world.active.lookup id' = some k ∧ p.world.tasks[k]? = some t := by
    intro id' k t hk ht
    unfold World.finishOne at hk ht
    cases ha : p.world.active.lookup id with
    | none =>
        rw [ha] at hk ht
        refine ⟨?_, hk, ht⟩
        rintro rfl
        have hk : p.world.active.lookup id' = some k := hk
        rw [ha] at hk
        cases hk
    | some task =>
        rw [ha] at hk ht
        have hkept : (p.world.active.erase id).lookup id' = some k ∧
            (p.world.tasks.modify task fun t =>
              { t with exit := t.exit.or (some (.returned none)) })[k]? = some t := by
          dsimp only at hk ht
          split at hk
          · rename_i hnone
            rw [hnone] at ht
            exact ⟨hk, ht⟩
          · rename_i view hview
            rw [hview] at ht
            exact ⟨hk, ht⟩
        obtain ⟨hlookup, htask⟩ := hkept
        rw [Map.lookup_erase_eq] at hlookup
        split at hlookup
        · cases hlookup
        · rename_i hne
          rw [List.getElem?_modify_ne _ _ (h.shows.apart ha hlookup hne)] at htask
          exact ⟨hne, hlookup, htask⟩
  refine ⟨h.shows.finishOne id, fun id' k t hk ht => ?_, fun id' k t hk ht hlive => ?_⟩
  · obtain ⟨-, hk, ht⟩ := hbefore id' k t hk ht
    exact h.seen id' k t hk ht
  · obtain ⟨hne, hk, ht⟩ := hbefore id' k t hk ht
    obtain ⟨hmem, hnot⟩ := h.rest id' k t hk ht hlive
    refine ⟨hmem, fun hpast => ?_⟩
    rcases List.mem_append.1 hpast with hpast | hlast
    · exact hnot hpast
    · exact hne (List.mem_singleton.1 hlast)

/-- The log entries of a poll leave the tasks alone. -/
theorem logStates_books (transitions : List (TunnelId × SupervisorState)) (w : World) :
    (transitions.foldl (fun w t => w.logState t.1 t.2) w).books = w.books :=
  List.foldlRecOn (motive := fun v : World => v.books = w.books) transitions _ rfl
    fun _ hv _ _ => hv

/-- After a poll that sees the live tasks, what is active is alive, and
no change of it is unseen. -/
theorem refresh_seen (h : w.Shows) (env : Env) (hsees : w.Sees env) :
    ∀ id k t, (w.refresh env).active.lookup id = some k → (w.refresh env).tasks[k]? = some t →
      t.Live ∧ t.changed = false := by
  obtain ⟨kept, views, hprune⟩ := w.prunePrompts_cases
  let ids : List TunnelId := arrange (env.order 0) w.prunePrompts.active.keys
  let first : Poll := { world := w.prunePrompts }
  let polled : Poll := ids.foldl (pollOne env) first
  let finished : Poll := polled.finished.foldl World.finishOne polled
  have hactive : w.prunePrompts.active = w.active := by rw [hprune]
  have hfirst : Polled env w.active [] first := by
    refine ⟨h.prunePrompts, hactive, ?_, fun id hid => (List.not_mem_nil hid).elim,
      fun id hid => (List.not_mem_nil hid).elim⟩
    have hworld : first.world = w.prunePrompts := rfl
    rw [hworld, hprune]
    exact hsees
  have hpolled : Polled env w.active ids polled :=
    foldl_past ids hfirst fun past p id hp => hp.pollOne id
  -- the poll has been at every active tunnel
  have hall : ∀ id k, polled.world.active.lookup id = some k → id ∈ ids := by
    intro id k hk
    rw [hpolled.active] at hk
    rw [mem_arrange, hactive]
    exact AList.mem_keys.1 (Map.mem_iff.2 ⟨k, hk⟩)
  have hbegin : Finished polled.finished [] polled.world :=
    ⟨hpolled.shows, fun id k t hk ht hlive => hpolled.seen id (hall id k hk) k t hk ht hlive,
      fun id k t hk ht hlive =>
        ⟨hpolled.noted id (hall id k hk) k t hk ht hlive, List.not_mem_nil⟩⟩
  have hend : Finished polled.finished polled.finished finished.world :=
    foldl_past (I := fun past (p : Poll) => Finished polled.finished past p.world) polled.finished
      hbegin fun past p id hp => hp.finishOne id
  have hbooks : (w.refresh env).books = finished.world.books := by
    have hlogs := logStates_books finished.transitions finished.world
    unfold refresh
    dsimp only
    split
    · exact hlogs
    · exact hlogs
  have hactives : (w.refresh env).active = finished.world.active := congrArg Books.active hbooks
  have htasks : (w.refresh env).tasks = finished.world.tasks := congrArg Books.tasks hbooks
  intro id k t hk ht
  rw [hactives] at hk
  rw [htasks] at ht
  have hlive : t.Live := by
    by_contra hdead
    obtain ⟨hmem, hnot⟩ := hend.rest id k t hk ht hdead
    exact hnot hmem
  exact ⟨hlive, hend.seen id k t hk ht hlive⟩

end World

/-! ## Along every run -/

theorem shows_booted (h : Booted w) : w.Shows := by
  obtain ⟨order, hosts, groups, tunnels, app, stores, env, w₀, hnew, rfl⟩ := h
  have hbook := bookkeeping_new hnew
  obtain ⟨hbooks, -⟩ := new_books hnew
  let w₁ : World := { (w₀.withAppSettings app) with stores, autoStart := [] }
  have hempty : w₁.active = ∅ := congrArg Books.active hbooks
  have hshows : w₁.Shows := by
    intro id k hk
    rw [hempty] at hk
    cases hk
  exact hshows.startEach (fun id => (hbook.views.keys id).2) env w₀.autoStart

/-- **What is shown of a running tunnel.** Along every run the published
view of an active tunnel is the state its own, present task published
last, or there is a change of it that the poll has yet to see. A poll that
sees the live tasks leaves no such change, and no task that has ended. -/
theorem views_follow (home : Option PathBuf) (codec : Codec) (hw : Booted w) (inputs : List Input)
    (hrun : (runState (World.step home codec) w inputs).running = true) :
    let s := runState (World.step home codec) w inputs
    (∀ id k, s.active.lookup id = some k → ∃ t view, s.tasks[k]? = some t ∧ t.id = id ∧
        s.snapshots.lookup id = some view ∧ (t.changed = false → view.state = t.state)) ∧
      ∀ env, s.Sees env → ∀ id k, (s.refresh env).active.lookup id = some k →
        ∃ t view, (s.refresh env).tasks[k]? = some t ∧ t.id = id ∧ t.Live ∧
          (s.refresh env).snapshots.lookup id = some view ∧ view.state = t.state := by
  intro s
  have hboth : s.Shows ∧ (s.running = true → Bookkeeping s) := by
    refine runState_invariant (I := fun w : World => w.Shows ∧ (w.running = true → Bookkeeping w))
      (fun v input hv => ⟨?_, Bookkeeping.step hv.2 home codec input⟩)
      ⟨shows_booted hw, fun _ => bookkeeping_booted hw⟩ inputs
    exact hv.1.step (fun hrunning id => ((hv.2 hrunning).views.keys id).2) home codec input
  obtain ⟨hshows, hbooks⟩ := hboth
  have hbook : Bookkeeping s := hbooks hrun
  refine ⟨fun id k hk => ?_, fun env hsees id k hk => ?_⟩
  · rw [hbook.published]
    exact hshows id k hk
  · obtain ⟨t, view, ht, hid, hview, hstate⟩ := hshows.refresh env id k hk
    obtain ⟨hlive, hseen⟩ := World.refresh_seen hshows env hsees id k t hk ht
    rw [(hbook.refresh env).published]
    exact ⟨t, view, ht, hid, hlive, hview, hstate hseen⟩

/-- A tunnel that is restarted while a report of its first task is under
way is shown as its second task has it. -/
theorem views_follow_labWorld :
    let inputs : List Input := [.report 0 (.reconnecting 1 0 "lost"),
      .command (.restartTunnel ⟨"socks"⟩) calm, .report 0 (.blocked "late"), .tick calm]
    let s := runState (World.step none defaultCodec) labWorld inputs
    s.running = true ∧ ∃ t view, s.tasks[1]? = some t ∧ t.id = ⟨"socks"⟩ ∧
      s.snapshots.lookup ⟨"socks"⟩ = some view ∧ (t.changed = false → view.state = t.state) := by
  intro inputs s
  have hrun : s.running = true := by decide +kernel
  have hactive : s.active.lookup ⟨"socks"⟩ = some 1 := by decide +kernel
  exact ⟨hrun, (views_follow none defaultCodec booted_labWorld inputs hrun).1 ⟨"socks"⟩ 1 hactive⟩

end Manager

end TunnelWarden
