import TunnelWarden.Common.Run
import TunnelWarden.Manager.Steps
import TunnelWarden.Store.Persist

/-!
# The manager's books

The maps of the manager and its tasks stay in step. Every tunnel has a
view, every active tunnel is configured, a tunnel that is not active is
shown stopped or blocked and without an address, and what is published
is what the manager holds. A live task is the one its tunnel is active
with, so there is at most one for a tunnel, and a task is spawned only
when the one before it has been awaited.

The invariant has two halves. `TasksOk` is about the tasks and needs
`active` only; `ViewsOk` is about the maps and needs the tasks not at
all.
-/

namespace TunnelWarden

namespace Manager

/-! ## Tasks -/

/-- The handle of the task has been awaited. -/
def Ended (history : List TaskEvent) (task : ℕ) : Prop :=
  .joined task ∈ history ∨ .aborted task ∈ history

/-- A task is spawned for a tunnel only when every task spawned for it
before has been awaited. -/
def SpawnedInTurn (history : List TaskEvent) : Prop :=
  ∀ pre task id post, history = pre ++ .spawned task id :: post →
    ∀ earlier, .spawned earlier id ∈ pre → Ended pre earlier

/-- The tasks and what the manager knows of them. -/
structure TasksOk (active : Map TunnelId ℕ) (tasks : List Task) (history : List TaskEvent) :
    Prop where
  owned : ∀ id k, active.lookup id = some k → ∃ t, tasks[k]? = some t ∧ t.id = id
  live : ∀ k t, tasks[k]? = some t → t.Live → active.lookup t.id = some k
  recorded : ∀ k t, tasks[k]? = some t → .spawned k t.id ∈ history
  ended : ∀ k id, .spawned k id ∈ history → active.lookup id = some k ∨ Ended history k
  inTurn : SpawnedInTurn history

variable {active : Map TunnelId ℕ} {tasks : List Task} {history : List TaskEvent} {id : TunnelId}

theorem Ended.append {more : List TaskEvent} {k : ℕ} (h : Ended history k) :
    Ended (history ++ more) k :=
  h.imp (fun h => List.mem_append_left _ h) fun h => List.mem_append_left _ h

theorem SpawnedInTurn.concat {e : TaskEvent} (h : SpawnedInTurn history)
    (he : ∀ k id, e = .spawned k id → ∀ j, .spawned j id ∈ history → Ended history j) :
    SpawnedInTurn (history ++ [e]) := by
  intro pre k id post heq
  -- The spawn is an old one, or it is the event at the end.
  rcases concat_eq_append_cons heq with ⟨rfl, he'⟩ | ⟨post', hpre⟩
  · exact he k id he'
  · exact h pre k id post' hpre

theorem TasksOk.spawn (h : TasksOk active tasks history) (hid : id ∉ active)
    (tunnel : TunnelConfig) (hosts : List SshHost) :
    TasksOk (active.insert id tasks.length)
      (tasks ++ [{ id := id, tunnel := tunnel, hosts := hosts }])
      (history ++ [.spawned tasks.length id]) where
  owned := by
    intro id' k hk
    rw [Map.lookup_insert_eq] at hk
    split at hk
    · obtain rfl := Option.some.inj hk
      subst_vars
      exact ⟨{ id := id', tunnel := tunnel, hosts := hosts }, by simp, rfl⟩
    · obtain ⟨t, ht, hid'⟩ := h.owned id' k hk
      refine ⟨t, ?_, hid'⟩
      rw [List.getElem?_append_left (List.getElem?_eq_some_iff.1 ht).1, ht]
  live := by
    intro k t ht hlive
    rcases Nat.lt_or_ge k tasks.length with hk | hk
    · rw [List.getElem?_append_left hk] at ht
      have hold := h.live k t ht hlive
      rw [AList.lookup_insert_ne ?_, hold]
      rintro rfl
      exact hid (Map.mem_iff.2 ⟨k, hold⟩)
    · rw [List.getElem?_append_right hk, List.getElem?_singleton] at ht
      split at ht
      · obtain rfl := Option.some.inj ht
        have : k = tasks.length := by omega
        rw [this]
        exact AList.lookup_insert _
      · simp at ht
  recorded := by
    intro k t ht
    rcases Nat.lt_or_ge k tasks.length with hk | hk
    · rw [List.getElem?_append_left hk] at ht
      exact List.mem_append_left _ (h.recorded k t ht)
    · rw [List.getElem?_append_right hk, List.getElem?_singleton] at ht
      split at ht
      · obtain rfl := Option.some.inj ht
        have : k = tasks.length := by omega
        simp [this]
      · simp at ht
  ended := by
    intro k id' hk
    rcases List.mem_append.1 hk with hk | hk
    · rcases h.ended k id' hk with hold | hold
      · refine .inl ?_
        rw [AList.lookup_insert_ne ?_, hold]
        rintro rfl
        exact hid (Map.mem_iff.2 ⟨k, hold⟩)
      · exact .inr hold.append
    · simp only [List.mem_singleton, TaskEvent.spawned.injEq] at hk
      obtain ⟨rfl, rfl⟩ := hk
      exact .inl (AList.lookup_insert _)
  inTurn := by
    refine h.inTurn.concat fun k id' he j hj => ?_
    obtain ⟨-, rfl⟩ := TaskEvent.spawned.inj he
    rcases h.ended j id hj with hold | hold
    · exact absurd (Map.mem_iff.2 ⟨j, hold⟩) hid
    · exact hold

/-- An update of one task that leaves its tunnel alone and does not
bring it back to life. -/
theorem TasksOk.modify (h : TasksOk active tasks history) (k : ℕ) {f : Task → Task}
    (hid : ∀ t, (f t).id = t.id) (hlive : ∀ t, (f t).Live → t.Live) :
    TasksOk active (tasks.modify k f) history where
  owned := by
    intro id j hj
    obtain ⟨t, ht, rfl⟩ := h.owned id j hj
    rw [List.getElem?_modify, ht]
    by_cases hkj : k = j
    · exact ⟨f t, by simp [hkj], hid t⟩
    · exact ⟨t, by simp [hkj], rfl⟩
  live := by
    intro j t ht hl
    rw [List.getElem?_modify] at ht
    obtain ⟨t', ht', rfl⟩ := Option.map_eq_some_iff.1 ht
    split at hl
    · rw [if_pos ‹_›, hid]
      exact h.live j t' ht' (hlive t' hl)
    · rw [if_neg ‹_›]
      exact h.live j t' ht' hl
  recorded := by
    intro j t ht
    rw [List.getElem?_modify] at ht
    obtain ⟨t', ht', rfl⟩ := Option.map_eq_some_iff.1 ht
    split
    · rw [hid]
      exact h.recorded j t' ht'
    · exact h.recorded j t' ht'
  ended := h.ended
  inTurn := h.inTurn

/-- A task that is awaited leaves `active`. -/
theorem TasksOk.await (h : TasksOk active tasks history) {k : ℕ} (hk : active.lookup id = some k)
    (inTime : Bool) {f : Task → Task} (hid : ∀ t, (f t).id = t.id)
    (hlive : ∀ t, ¬ (f t).Live) :
    TasksOk (active.erase id) (tasks.modify k f)
      (history ++ [if inTime then .joined k else .aborted k]) where
  owned := by
    intro id' j hj
    rw [Map.lookup_erase_eq] at hj
    split at hj
    · simp at hj
    · exact (h.modify k hid fun t hl => absurd hl (hlive t)).owned id' j hj
  live := by
    intro j t ht hl
    have hj := (h.modify k hid fun t hl => absurd hl (hlive t)).live j t ht hl
    rw [Map.lookup_erase_eq, if_neg ?_]
    · exact hj
    · rintro rfl
      obtain rfl := Option.some.inj (hk.symm.trans hj)
      rw [List.getElem?_modify_eq] at ht
      obtain ⟨t', -, rfl⟩ := Option.map_eq_some_iff.1 ht
      exact hlive t' hl
  recorded := by
    intro j t ht
    have hj := (h.modify k hid fun t hl => absurd hl (hlive t)).recorded j t ht
    exact List.mem_append_left _ hj
  ended := by
    intro j id' hj
    have hold : .spawned j id' ∈ history := by
      rcases List.mem_append.1 hj with hj | hj
      · exact hj
      · cases inTime <;> simp at hj
    rcases h.ended j id' hold with hact | hend
    · by_cases hid' : id' = id
      · subst hid'
        obtain rfl := Option.some.inj (hk.symm.trans hact)
        refine .inr ?_
        cases inTime
        · exact .inr (by simp)
        · exact .inl (by simp)
      · exact .inl (by rw [AList.lookup_erase_ne hid', hact])
    · exact .inr hend.append
  inTurn := h.inTurn.concat fun j id' he => by cases inTime <;> simp at he

/-! ## Views -/

/-- The maps of the manager agree with each other. -/
structure ViewsOk (tunnels : Map TunnelId TunnelConfig) (current : ManagerSnapshot)
    (active : Map TunnelId ℕ) : Prop where
  keys : ∀ id, id ∈ current ↔ id ∈ tunnels
  ids : ∀ id tunnel, tunnels.lookup id = some tunnel → tunnel.id = id
  configured : ∀ id, id ∈ active → id ∈ tunnels
  idle : ∀ id view, current.lookup id = some view → id ∉ active →
    view.state.Idle ∧ view.localAddr = none

/-- **One view at a time.** An operation that changes nothing but one
tunnel's view and whether it is active keeps the maps in step, if the
view of a tunnel that is not active shows nothing running. -/
theorem ViewsOk.update {tunnels : Map TunnelId TunnelConfig} {current current' : ManagerSnapshot}
    {active' : Map TunnelId ℕ} (h : ViewsOk tunnels current active) (view : TunnelView)
    (hcur : ∀ id', current'.lookup id' =
      if id' = id ∧ id ∈ current then some view else current.lookup id')
    (hact : ∀ id', id' ≠ id → (id' ∈ active' ↔ id' ∈ active))
    (hconf : id ∈ active' → id ∈ tunnels)
    (hok : id ∈ active' ∨ view.state.Idle ∧ view.localAddr = none) :
    ViewsOk tunnels current' active' where
  keys := by
    intro id'
    rw [← h.keys, ← AList.lookup_isSome, ← AList.lookup_isSome, hcur]
    split
    · rename_i hid
      rw [hid.1, AList.lookup_isSome.2 hid.2]
      rfl
    · rfl
  ids := h.ids
  configured := by
    intro id' hid'
    by_cases hne : id' = id
    · rw [hne] at hid' ⊢
      exact hconf hid'
    · exact h.configured id' ((hact id' hne).1 hid')
  idle := by
    intro id' view' hview hid'
    rw [hcur] at hview
    split at hview
    · rename_i hid
      obtain rfl := Option.some.inj hview
      rw [hid.1] at hid'
      exact hok.resolve_left hid'
    · rename_i hid
      have hne : id' ≠ id := by
        rintro rfl
        exact hid ⟨rfl, Map.mem_iff.2 ⟨view', hview⟩⟩
      exact h.idle id' view' hview fun hmem => hid' ((hact id' hne).2 hmem)

/-- Exchanging the tunnels: views of tunnels that are gone are dropped
and new tunnels are shown as stopped. -/
theorem ViewsOk.exchange {tunnels : Map TunnelId TunnelConfig} {current : ManagerSnapshot}
    (h : ViewsOk tunnels current active) (values : List TunnelConfig)
    (hactive : ∀ id, id ∈ active → id ∈ Map.ofValues TunnelConfig.id values) :
    ViewsOk (Map.ofValues TunnelConfig.id values)
      (Map.orInsertAll ⟨.stopped, none⟩ (Map.ofValues TunnelConfig.id values).keys
        (Map.retain (fun id => id ∈ Map.ofValues TunnelConfig.id values) current)) active where
  keys := by
    intro id
    rw [Map.mem_orInsertAll]
    refine ⟨?_, fun hmem => .inr (AList.mem_keys.1 hmem)⟩
    rintro (hmem | hmem)
    · rw [← AList.lookup_isSome, Map.lookup_retain] at hmem
      by_contra hnot
      simp [hnot] at hmem
    · exact AList.mem_keys.2 hmem
  ids := by
    intro id tunnel ht
    rw [Map.lookup_ofValues] at ht
    simpa using List.find?_some ht
  configured := hactive
  idle := by
    intro id view hview hid
    rw [Map.lookup_orInsertAll] at hview
    split at hview
    · rw [Map.lookup_retain] at hview
      split at hview
      · exact h.idle id view hview hid
      · simp at hview
    · split at hview
      · obtain rfl := Option.some.inj hview
        exact ⟨.inl rfl, rfl⟩
      · simp at hview

/-- **The books are right**, up to what is published. -/
structure Consistent (w : World) : Prop where
  views : ViewsOk w.tunnels w.current w.active
  tasks : TasksOk w.active w.tasks w.history

/-- **The books are right**, and what is published is what they say. -/
structure Bookkeeping (w : World) : Prop extends Consistent w where
  published : w.snapshots = w.current

namespace Bookkeeping

variable {w : World} {env : Env}

/-- Showing a tunnel that is not active as stopped or blocked. -/
theorem setState (h : Bookkeeping w) {state : SupervisorState} (hid : id ∉ w.active)
    (hidle : state.Idle) : Bookkeeping (w.setState id state none) where
  views := by
    rw [World.setState_tunnels, World.setState_active]
    exact h.views.update _ (World.setState_lookup w id state none) (fun _ _ => Iff.rfl)
      (fun hact => absurd hact hid) (.inr ⟨hidle, rfl⟩)
  tasks := by
    rw [World.setState_active, World.setState_tasks, World.setState_history]
    exact h.tasks
  published := World.setState_published w id state none h.published

theorem start (h : Bookkeeping w) (env : Env) (id : TunnelId) : Bookkeeping (w.start env id) := by
  rcases World.start_cases env id w with ⟨-, heq⟩ | ⟨hid, -, reason, heq⟩ |
    ⟨hid, tunnel, hosts, localAddr, ht, -, -, -, heq⟩
  · rw [heq]; exact h
  · rw [heq]; exact h.setState hid (.inr ⟨reason, rfl⟩)
  · rw [heq]
    refine { views := ?_, tasks := ?_, published := ?_ }
    · dsimp only
      rw [World.setState_tunnels]
      refine h.views.update _ (World.setState_lookup _ id _ localAddr) (fun id' hne => ?_)
        (fun _ => Map.mem_iff.2 ⟨tunnel, ht⟩) (.inl ((AList.mem_insert _).2 (.inl rfl)))
      rw [AList.mem_insert]
      exact or_iff_right hne
    · dsimp only
      rw [World.setState_tasks, World.setState_history]
      exact h.tasks.spawn hid tunnel hosts
    · exact World.setState_published _ id _ localAddr h.published

theorem stop (h : Bookkeeping w) (env : Env) (id : TunnelId) : Bookkeeping (w.stop env id) := by
  rcases World.stop_cases env id w with ⟨hid, heq⟩ | ⟨task, hid, heq⟩
  · rw [heq]; exact h.setState hid (.inl rfl)
  · rw [heq]
    refine { views := ?_, tasks := ?_, published := ?_ }
    · rw [World.setState_tunnels, World.setState_active]
      refine h.views.update _ (World.setState_lookup _ id _ none) (fun id' hne => ?_)
        (fun hmem => ?_) (.inr ⟨.inl rfl, rfl⟩)
      · exact AList.mem_erase.trans (and_iff_right hne)
      · exact absurd rfl (AList.mem_erase.1 hmem).1
    · rw [World.setState_active, World.setState_tasks, World.setState_history]
      exact h.tasks.await hid (env.inTime id) (fun _ => rfl) fun t => by
        cases t.exit <;> simp [Task.Live]
    · exact World.setState_published _ id _ none h.published

/-! ### The poll -/

open World in
/-- The accumulators of the poll: the books are right, and what is not
published yet is marked as changed. -/
structure PollOk (p : Poll) : Prop where
  world : Consistent p.world
  published : p.changed = false → p.world.snapshots = p.world.current

/-- A view set by hand, as `set_state` sets it. -/
theorem lookup_insert_of_mem {current : ManagerSnapshot} {view : TunnelView} (h : id ∈ current)
    (id' : TunnelId) : (current.insert id view).lookup id' =
      if id' = id ∧ id ∈ current then some view else current.lookup id' := by
  rw [Map.lookup_insert_eq]
  by_cases hid : id' = id
  · rw [if_pos hid, if_pos ⟨hid, h⟩]
  · rw [if_neg hid, if_neg fun hc => hid hc.1]

theorem PollOk.showState {p : World.Poll} (h : PollOk p) (env : Env) {task : ℕ} (t : Task)
    (ha : p.world.active.lookup id = some task) : PollOk (World.showState env p id task t) := by
  have htasks := h.world.tasks.modify task (f := fun t => { t with changed := false })
    (fun _ => rfl) fun _ hl => hl
  unfold World.showState
  split
  · dsimp only
    cases hv : p.world.current.lookup id with
    | none => exact ⟨⟨h.world.views, htasks⟩, h.published⟩
    | some view =>
        have hmem : id ∈ p.world.active := Map.mem_iff.2 ⟨task, ha⟩
        refine ⟨⟨?_, htasks⟩, fun hc => by simp at hc⟩
        exact h.world.views.update _ (lookup_insert_of_mem (Map.mem_iff.2 ⟨view, hv⟩))
          (fun _ _ => Iff.rfl) (fun hact => h.world.views.configured id hact) (.inl hmem)
  · exact h

theorem PollOk.pollOne {p : World.Poll} (h : PollOk p) (env : Env) (id : TunnelId) :
    PollOk (World.pollOne env p id) := by
  unfold World.pollOne
  cases ha : p.world.active.lookup id with
  | none => exact h
  | some task =>
      dsimp only
      cases ht : p.world.tasks[task]? with
      | none => exact h
      | some t =>
          have hs := h.showState env t ha
          dsimp only
          split
          · exact ⟨hs.world, hs.published⟩
          · exact hs

theorem PollOk.finishOne {p : World.Poll} (h : PollOk p) (id : TunnelId) :
    PollOk (World.finishOne p id) := by
  unfold World.finishOne
  cases ha : p.world.active.lookup id with
  | none => exact h
  | some task =>
      have htasks := h.world.tasks.await ha true
        (f := fun t => { t with exit := t.exit.or (some (.returned none)) }) (fun _ => rfl)
        fun t => by cases t.exit <;> simp [Task.Live]
      have hother (id' : TunnelId) (hne : id' ≠ id) :
          id' ∈ p.world.active.erase id ↔ id' ∈ p.world.active :=
        AList.mem_erase.trans (and_iff_right hne)
      have hgone : id ∉ p.world.active.erase id := fun hmem => (AList.mem_erase.1 hmem).1 rfl
      -- An active tunnel has a view, so the other branch is never taken.
      have hmem : id ∈ p.world.current :=
        (h.world.views.keys id).2 (h.world.views.configured id (Map.mem_iff.2 ⟨task, ha⟩))
      obtain ⟨view, hv⟩ := Map.mem_iff.1 hmem
      dsimp only [World.endTask, World.finishTask]
      rw [hv]
      refine ⟨⟨?_, htasks⟩, fun hc => by simp at hc⟩
      exact h.world.views.update _ (lookup_insert_of_mem hmem) hother
        (fun hact => absurd hact hgone) (.inr ⟨.inr ⟨_, rfl⟩, rfl⟩)

theorem prunePrompts (h : Bookkeeping w) : Bookkeeping w.prunePrompts := by
  obtain ⟨kept, views, heq⟩ := w.prunePrompts_cases
  rw [heq]
  exact ⟨⟨h.views, h.tasks⟩, h.published⟩

theorem refresh (h : Bookkeeping w) (env : Env) : Bookkeeping (w.refresh env) := by
  have hstart : PollOk { world := w.prunePrompts } :=
    ⟨h.prunePrompts.toConsistent, fun _ => h.prunePrompts.published⟩
  obtain ⟨p, l, lv, hp, heq⟩ := World.refresh_cases env w hstart (fun _ id hp => hp.pollOne env id)
    fun _ id hp => hp.finishOne id
  rw [heq]
  split
  · exact ⟨⟨hp.world.views, hp.world.tasks⟩, rfl⟩
  · rename_i hc
    exact ⟨⟨hp.world.views, hp.world.tasks⟩, hp.published (by simpa using hc)⟩

/-! ### A new configuration -/

theorem stopEach (h : Bookkeeping w) (env : Env) (ids : List TunnelId) :
    Bookkeeping (w.stopEach env ids) :=
  List.foldlRecOn _ _ h fun _ hw id _ => hw.stop env id

theorem startEach (h : Bookkeeping w) (env : Env) (ids : List TunnelId) :
    Bookkeeping (w.startEach env ids) :=
  List.foldlRecOn _ _ h fun _ hw id _ => hw.start env id

/-- Exchanging the configuration, where every active tunnel is in the
new one. -/
theorem install (h : Bookkeeping w) (config : DomainConfig)
    (hactive : ∀ id, id ∈ w.active → id ∈ Map.ofValues TunnelConfig.id config.tunnels) :
    Bookkeeping (w.install config (Map.ofValues TunnelConfig.id config.tunnels)).publish where
  views := h.views.exchange config.tunnels hactive
  tasks := h.tasks
  published := rfl

/-- A tunnel that is still active was not to be restarted, so it is in
the new configuration. -/
theorem exchange (h : Bookkeeping w) (env : Env) (config : DomainConfig) :
    Bookkeeping (w.exchange env config) := by
  have h0 : Bookkeeping { w with configViews := config } := ⟨⟨h.views, h.tasks⟩, h.published⟩
  refine (h0.stopEach env (w.toRestart env config)).install config fun id hid => ?_
  obtain ⟨k, hk⟩ := Map.mem_iff.1 hid
  have hkeep := (World.exchange_active env config w hk).2
  obtain ⟨-, new, -, hnew, -⟩ := World.needsRestart_false hkeep
  exact Map.mem_iff.2 ⟨new, hnew⟩

theorem replaceConfig (h : Bookkeeping w) (env : Env) (config : DomainConfig) :
    Bookkeeping (w.replaceConfig env config) := by
  rw [World.replaceConfig_eq]
  exact (h.exchange env config).startEach env _

/-! ### The other inputs -/

/-- An update of one task that leaves its tunnel alone and does not
bring it back to life. -/
theorem modifyTask (h : Bookkeeping w) (k : ℕ) {f : Task → Task} (hid : ∀ t, (f t).id = t.id)
    (hlive : ∀ t, (f t).Live → t.Live) :
    Bookkeeping { w with tasks := w.tasks.modify k f } :=
  ⟨⟨h.views, h.tasks.modify k hid hlive⟩, h.published⟩

theorem notify (h : Bookkeeping w) (k : ℕ) : Bookkeeping (w.notify k) :=
  h.modifyTask k (fun _ => rfl) fun _ hl => hl

theorem networkRecovered (h : Bookkeeping w) (env : Env) : Bookkeeping (w.networkRecovered env) :=
  World.networkRecovered_keeps h fun _ task hv => hv.notify task

theorem retry (h : Bookkeeping w) (env : Env) (id : TunnelId) : Bookkeeping (w.retry env id) :=
  World.retry_keeps h h.notify (h.start env id)

theorem saveConfig (h : Bookkeeping w) (home : Option PathBuf) (codec : Codec) (env : Env)
    (directory : PathBuf) (config : DomainConfig) (secret : Option SecretUpdate) :
    Bookkeeping (w.saveConfig home codec env directory config secret).2 := by
  obtain ⟨stores, hsave⟩ := World.saveConfig_cases home codec env directory config secret w
  have hstores : Bookkeeping { w with stores } := ⟨⟨h.views, h.tasks⟩, h.published⟩
  rcases hsave with ⟨-, heq⟩ | ⟨-, heq⟩
  · rw [heq]; exact hstores.replaceConfig env config
  · rw [heq]; exact hstores

theorem queueHostKey (h : Bookkeeping w) (prompt : HostKeyPrompt) :
    Bookkeeping (w.queueHostKey prompt) := by
  unfold World.queueHostKey
  split
  · exact ⟨⟨h.views, h.tasks⟩, h.published⟩
  · exact ⟨⟨h.views, h.tasks⟩, h.published⟩

theorem resolveHostKey (h : Bookkeeping w) (k : ℕ) (decision : HostKeyDecision) :
    Bookkeeping (w.resolveHostKey k decision) := by
  unfold World.resolveHostKey
  split
  · exact h
  · exact ⟨⟨h.views, h.tasks⟩, h.published⟩

theorem handle (h : Bookkeeping w) (home : Option PathBuf) (codec : Codec) (env : Env)
    (command : CoreCommand) : Bookkeeping (w.handle home codec env command).2 := by
  cases command with
  | startAll => exact h.startEach env _
  | stopAll => exact h.stopEach env _
  | startGroup group => exact h.startEach env _
  | stopGroup group => exact h.stopEach env _
  | startTunnel id => exact h.start env id
  | stopTunnel id => exact h.stop env id
  | restartTunnel id => exact (h.stop env id).start env id
  | retryTunnel id => exact h.retry env id
  | networkRecovered => exact h.networkRecovered env
  | saveConfig directory config secret => exact h.saveConfig home codec env directory config secret
  | importConfig path => exact ⟨⟨h.views, h.tasks⟩, h.published⟩
  | previewSshConfig path => exact h
  | exportConfig path config => exact ⟨⟨h.views, h.tasks⟩, h.published⟩
  | resolveHostKey k decision => exact h.resolveHostKey k decision

/-- The loop is over once the tasks are drained. -/
theorem drain_running (env : Env) (w : World) : (w.drain env).running = false := by
  unfold World.drain
  exact List.foldlRecOn (motive := fun v : World => v.running = false) _ _ rfl fun v hv e _ => hv

/-- **One input keeps the books right**, as long as the loop runs. -/
theorem step (h : w.running = true → Bookkeeping w) (home : Option PathBuf) (codec : Codec)
    (input : Input) (hrun : (w.step home codec input).2.running = true) :
    Bookkeeping (w.step home codec input).2 := by
  unfold World.step at hrun ⊢
  split at hrun
  · simp_all
  · rename_i hw
    rw [if_neg hw]
    have hb : Bookkeeping w := h (by simpa using hw)
    cases input with
    | command command env => exact hb.handle home codec env command
    | prompt prompt => exact hb.queueHostKey prompt
    | tick env =>
        dsimp only
        split
        · exact hb
        · exact hb.refresh env
    | report task state =>
        refine hb.modifyTask task (fun t => ?_) fun t hl => ?_
        · split <;> rfl
        · split at hl <;> assumption
    | exit task result =>
        refine hb.modifyTask task (fun t => ?_) fun t hl => ?_
        · split <;> rfl
        · split at hl
          · simp [Task.Live] at hl
          · exact hl
    | giveUp reply => exact ⟨⟨hb.views, hb.tasks⟩, hb.published⟩
    | shutdown env => simp [drain_running] at hrun

end Bookkeeping

/-! ## From the beginning on -/

/-- The maps `new` builds: a stopped view for each tunnel. -/
structure Defined (tunnels : Map TunnelId TunnelConfig) (current : ManagerSnapshot) : Prop where
  keys : ∀ id, id ∈ current ↔ id ∈ tunnels
  ids : ∀ id tunnel, tunnels.lookup id = some tunnel → tunnel.id = id
  stopped : ∀ id view, current.lookup id = some view → view = ⟨.stopped, none⟩

theorem define_defined (configs : List TunnelConfig) {acc acc' : Map TunnelId TunnelConfig ×
    ManagerSnapshot × List TunnelId} (h : Defined acc.1 acc.2.1) (heq : define configs acc = .ok acc') :
    Defined acc'.1 acc'.2.1 := by
  induction configs generalizing acc with
  | nil =>
      obtain rfl := Except.ok.inj heq
      exact h
  | cons tunnel rest ih =>
      obtain ⟨tunnels, current, autoStart⟩ := acc
      unfold define at heq
      split at heq
      · simp at heq
      · refine ih { keys := fun id => ?_, ids := fun id t ht => ?_, stopped := fun id view hv => ?_ } heq
        · rw [AList.mem_insert, AList.mem_insert, h.keys]
        · rw [Map.lookup_insert_eq] at ht
          split at ht
          · obtain rfl := Option.some.inj ht
            exact Eq.symm ‹_›
          · exact h.ids id t ht
        · rw [Map.lookup_insert_eq] at hv
          split at hv
          · exact (Option.some.inj hv).symm
          · exact h.stopped id view hv

theorem bookkeeping_new {order : ℕ} {hosts : List SshHost} {groups : List TunnelGroup}
    {configs : List TunnelConfig} {w : World} (h : new order hosts groups configs = .ok w) :
    Bookkeeping w := by
  unfold new at h
  split at h
  · simp at h
  · split at h
    · simp at h
    · rename_i definitions current autoStart hdef
      obtain rfl := Except.ok.inj h
      have hempty : Defined (∅ : Map TunnelId TunnelConfig) (∅ : ManagerSnapshot) :=
        ⟨fun id => by simp [AList.mem_keys], fun id t ht => by simp at ht, fun id v hv => by simp at hv⟩
      have hd : Defined definitions current := define_defined configs hempty hdef
      refine { views := ?_, tasks := ?_, published := rfl }
      · refine { keys := hd.keys, ids := hd.ids, configured := fun id hid => ?_, idle := ?_ }
        · simp [AList.mem_keys] at hid
        · intro id view hview _
          obtain rfl := hd.stopped id view hview
          exact ⟨.inl rfl, rfl⟩
      · refine { owned := ?_, live := ?_, recorded := ?_, ended := ?_, inTurn := ?_ }
        · intro id k hk; simp at hk
        · intro k t ht; simp at ht
        · intro k t ht; simp at ht
        · intro k id hk; simp at hk
        · intro pre k id post heq; simp at heq

theorem bookkeeping_booted {w : World} (h : Booted w) : Bookkeeping w := by
  obtain ⟨order, hosts, groups, configs, app, stores, env, w₀, hnew, rfl⟩ := h
  have h0 := bookkeeping_new hnew
  exact Bookkeeping.startEach (w := { (w₀.withAppSettings app) with stores, autoStart := [] })
    ⟨⟨h0.views, h0.tasks⟩, h0.published⟩ env w₀.autoStart

/-- **The maps, the published snapshot and the tasks are in step.** -/
structure InStep (w : World) : Prop where
  /-- A tunnel has a view exactly where it is configured. -/
  keys : ∀ id, id ∈ w.current ↔ id ∈ w.tunnels
  /-- What is active is configured. -/
  configured : ∀ id, id ∈ w.active → id ∈ w.tunnels
  /-- What is not active is shown stopped or blocked, without an
  address. -/
  idle : ∀ id view, w.current.lookup id = some view → id ∉ w.active →
    (view.state = .stopped ∨ ∃ reason, view.state = .blocked reason) ∧ view.localAddr = none
  /-- What is published is what the manager holds. -/
  published : w.snapshots = w.current
  /-- Two live tasks of one tunnel are the same task. -/
  oneLive : ∀ (j k : ℕ) (t u : Task), w.tasks[j]? = some t → w.tasks[k]? = some u → t.Live → u.Live →
    t.id = u.id → j = k
  /-- A live task is the one its tunnel is active with. -/
  held : ∀ (k : ℕ) (t : Task), w.tasks[k]? = some t → t.Live → w.active.lookup t.id = some k
  /-- A tunnel is active with a task that was spawned for it. -/
  owned : ∀ id k, w.active.lookup id = some k → ∃ t, w.tasks[k]? = some t ∧ t.id = id
  /-- Every task is in the history, and each was spawned after the ones
  before it, for the same tunnel, were awaited. -/
  recorded : ∀ (k : ℕ) (t : Task), w.tasks[k]? = some t → .spawned k t.id ∈ w.history
  inTurn : SpawnedInTurn w.history

theorem Bookkeeping.inStep {w : World} (h : Bookkeeping w) : InStep w where
  keys := h.views.keys
  configured := h.views.configured
  idle := h.views.idle
  published := h.published
  oneLive := by
    intro j k t u hj hk ht hu hid
    have h1 := h.tasks.live j t hj ht
    have h2 := h.tasks.live k u hk hu
    rw [hid, h2] at h1
    exact (Option.some.inj h1).symm
  held := h.tasks.live
  owned := h.tasks.owned
  recorded := h.tasks.recorded
  inTurn := h.tasks.inTurn

/-- The books are right along every run. -/
theorem bookkeeping_reached {home : Option PathBuf} {codec : Codec} {w : World} (hw : Booted w)
    (inputs : List Input) (hrun : (runState (World.step home codec) w inputs).running = true) :
    Bookkeeping (runState (World.step home codec) w inputs) :=
  runState_invariant (I := fun w : World => w.running = true → Bookkeeping w)
    (fun _ input h => Bookkeeping.step h home codec input) (fun _ => bookkeeping_booted hw) inputs
    hrun

/-- **The manager's books are right between any two iterations of its
loop**, whatever commands, reports, exits and polls came before. -/
theorem inStep_run (home : Option PathBuf) (codec : Codec) {w : World} (hw : Booted w)
    (inputs : List Input) (hrun : (runState (World.step home codec) w inputs).running = true) :
    InStep (runState (World.step home codec) w inputs) :=
  (bookkeeping_reached hw inputs hrun).inStep

/-! ## A manager with one tunnel -/

def labHost : SshHost where
  id := ⟨"lab"⟩
  name := "Lab"
  hostname := "example.test"
  port := 22
  username := "operator"
  auth := .agent none
  hostKeyPolicy := .strict
  connectTimeout := .fromSecs 10
  keepaliveInterval := .fromSecs 30
  keepaliveMax := 3
  notes := ""

/-- A SOCKS tunnel that is marked to be started. -/
def socksTunnel : TunnelConfig where
  id := ⟨"socks"⟩
  name := "SOCKS"
  groupId := none
  mode := .dynamic
  jumpChain := [⟨"lab"⟩]
  localEnd := ⟨"127.0.0.1", 1080⟩
  remote := none
  autoStart := true
  reconnect := {}
  description := ""

/-- Nothing fails. -/
def calm : Env where
  order _ := 0
  bind _ :=
    let address : SocketAddr := ⟨.v4 127 0 0 1, 1080, 0⟩
    .bound ⟨address⟩ (.ok address) (.ok address)
  now := 0
  inTime _ := true
  sees _ := true
  verdicts _ _ := .ok 0

/-- The manager of that tunnel, as `new` leaves it. -/
def labNew : World where
  hosts := [labHost]
  groups := []
  tunnels := (∅ : Map TunnelId TunnelConfig).insert ⟨"socks"⟩ socksTunnel
  current := (∅ : ManagerSnapshot).insert ⟨"socks"⟩ ⟨.stopped, none⟩
  autoStart := [⟨"socks"⟩]
  snapshots := (∅ : ManagerSnapshot).insert ⟨"socks"⟩ ⟨.stopped, none⟩
  configViews := { hosts := [labHost], tunnels := [socksTunnel] }

/-- The manager of that tunnel when its loop begins. -/
def labWorld : World := { (labNew.withAppSettings {}) with stores := {} }.launch calm

theorem booted_labWorld : Booted labWorld :=
  ⟨0, [labHost], [], [socksTunnel], {}, {}, calm, labNew, rfl, rfl⟩

/-- The books while the tunnel runs, is restarted and its second task
ends. -/
theorem inStep_run_labWorld :
    let inputs : List Input :=
      [.command (.restartTunnel ⟨"socks"⟩) calm, .exit 1 (.returned none), .tick calm]
    labWorld.active.keys = [⟨"socks"⟩] ∧
      InStep (runState (World.step none defaultCodec) labWorld inputs) :=
  ⟨by decide +kernel, inStep_run none defaultCodec booted_labWorld _ (by decide +kernel)⟩

end Manager

end TunnelWarden
