import TunnelWarden.Manager.Bookkeeping
import TunnelWarden.Manager.Desk

/-!
# Every task is awaited once

What the manager does to its tasks in one step is a sequence of spawns of
tunnels that are not active, awaits of tasks that are, and updates of
tasks that bring none back to life. So each is spawned once and awaited
once at most, and none is left when the loop has ended.
-/

namespace TunnelWarden

namespace Manager

/-- What the manager holds of its tasks, and what it did with them. -/
structure Books where
  active : Map TunnelId ℕ
  tasks : List Task
  history : List TaskEvent

/-- The part of the manager that is about its tasks. -/
def World.books (w : World) : Books := ⟨w.active, w.tasks, w.history⟩

/-- **What is done to the tasks**, one thing after another. -/
inductive Handled (b : Books) : Books → Prop
  | nothing : Handled b b
  | spawned {c : Books} {id : TunnelId} (h : Handled b c) (hid : id ∉ c.active)
      (tunnel : TunnelConfig) (hosts : List SshHost) :
      Handled b ⟨c.active.insert id c.tasks.length,
        c.tasks ++ [{ id := id, tunnel := tunnel, hosts := hosts }],
        c.history ++ [.spawned c.tasks.length id]⟩
  | awaited {c : Books} {id : TunnelId} {k : ℕ} (h : Handled b c)
      (hk : c.active.lookup id = some k) (inTime : Bool) :
      Handled b ⟨c.active.erase id,
        c.tasks.modify k fun t => { t with exit := t.exit.or (some (.returned none)) },
        c.history ++ [if inTime then .joined k else .aborted k]⟩
  | touched {c : Books} (h : Handled b c) (k : ℕ) {f : Task → Task} (hid : ∀ t, (f t).id = t.id)
      (hlive : ∀ t, (f t).Live → t.Live) : Handled b ⟨c.active, c.tasks.modify k f, c.history⟩

variable {b c d : Books} {w : World} {env : Env} {id : TunnelId} {k : ℕ}

/-- What is done after what was done. -/
theorem Handled.trans (h : Handled b c) (h' : Handled c d) : Handled b d := by
  induction h' with
  | nothing => exact h
  | spawned _ hid tunnel hosts ih => exact ih.spawned hid tunnel hosts
  | awaited _ hk inTime ih => exact ih.awaited hk inTime
  | touched _ k hid hlive ih => exact ih.touched k hid hlive

/-! ## Each operation -/

namespace World

/-- Showing a state touches no task. -/
theorem setState_books (w : World) (id : TunnelId) (state : SupervisorState)
    (localAddr : Option SocketAddr) : (w.setState id state localAddr).books = w.books := by
  rw [books, setState_active, setState_tasks, setState_history, books]

/-- A start spawns one task, or none. -/
theorem start_handled (env : Env) (id : TunnelId) (w : World) :
    Handled w.books (w.start env id).books := by
  rcases start_cases env id w with ⟨-, heq⟩ | ⟨-, -, reason, heq⟩ |
    ⟨hid, tunnel, hosts, localAddr, -, -, -, -, heq⟩
  · rw [heq]
    exact .nothing
  · rw [heq, setState_books]
    exact .nothing
  · have hspawned := Handled.nothing.spawned (b := w.books) hid tunnel hosts
    rw [heq]
    simp only [books, setState_tasks, setState_history]
    exact hspawned

/-- A stop awaits the handle of the task, if there is one. -/
theorem stop_handled (env : Env) (id : TunnelId) (w : World) :
    Handled w.books (w.stop env id).books := by
  rcases stop_cases env id w with ⟨-, heq⟩ | ⟨task, hk, heq⟩
  · rw [heq, setState_books]
    exact .nothing
  · rw [heq, setState_books]
    exact Handled.nothing.awaited (b := w.books) hk (env.inTime id)

theorem startEach_handled (env : Env) (ids : List TunnelId) (w : World) :
    Handled w.books (w.startEach env ids).books :=
  List.foldlRecOn (motive := fun v : World => Handled w.books v.books) ids _ .nothing
    fun v hv id _ => hv.trans (start_handled env id v)

theorem stopEach_handled (env : Env) (ids : List TunnelId) (w : World) :
    Handled w.books (w.stopEach env ids).books :=
  List.foldlRecOn (motive := fun v : World => Handled w.books v.books) ids _ .nothing
    fun v hv id _ => hv.trans (stop_handled env id v)

/-- A state that was shown is marked as seen. -/
theorem showState_handled (env : Env) (p : Poll) (id : TunnelId) (task : ℕ) (t : Task) :
    Handled p.world.books (showState env p id task t).world.books := by
  have hseen := Handled.nothing.touched (b := p.world.books) task
    (f := fun t => { t with changed := false }) (fun _ => rfl) fun _ hl => hl
  unfold showState
  split
  · dsimp only
    cases p.world.current.lookup id with
    | none => exact hseen
    | some view => exact hseen
  · exact .nothing

theorem pollOne_handled (env : Env) (p : Poll) (id : TunnelId) :
    Handled p.world.books (pollOne env p id).world.books := by
  unfold pollOne
  cases p.world.active.lookup id with
  | none => exact .nothing
  | some task =>
      dsimp only
      cases p.world.tasks[task]? with
      | none => exact .nothing
      | some t =>
          have hshown := showState_handled env p id task t
          dsimp only
          split
          · exact hshown
          · exact hshown

/-- A finished task is awaited, which takes no time. -/
theorem finishOne_handled (p : Poll) (id : TunnelId) :
    Handled p.world.books (finishOne p id).world.books := by
  unfold finishOne
  cases hk : p.world.active.lookup id with
  | none => exact .nothing
  | some task =>
      have hawaited := Handled.nothing.awaited (b := p.world.books) hk true
      dsimp only
      cases (endTask task true { p.world with active := p.world.active.erase id }).current.lookup
        id with
      | none => exact hawaited
      | some _ => exact hawaited

theorem refresh_handled (env : Env) (w : World) : Handled w.books (w.refresh env).books := by
  have hprune : w.prunePrompts.books = w.books := by
    obtain ⟨kept, views, heq⟩ := w.prunePrompts_cases
    rw [heq]
    rfl
  have hstart : Handled w.books ({ world := w.prunePrompts } : Poll).world.books := by
    rw [hprune]
    exact .nothing
  obtain ⟨p, l, lv, hp, heq⟩ := refresh_cases (I := fun p => Handled w.books p.world.books) env w
    hstart (fun p id hp => hp.trans (pollOne_handled env p id))
    fun p id hp => hp.trans (finishOne_handled p id)
  rw [heq]
  split
  · exact hp
  · exact hp

/-- **A new configuration** stops tasks and spawns others. -/
theorem replaceConfig_handled (env : Env) (config : DomainConfig) (w : World) :
    Handled w.books (w.replaceConfig env config).books := by
  rw [replaceConfig_eq]
  have hstopped := stopEach_handled env (w.toRestart env config) { w with configViews := config }
  have hexchanged : Handled w.books (w.exchange env config).books := hstopped
  exact hexchanged.trans (startEach_handled env _ _)

theorem notify_handled (w : World) (task : ℕ) : Handled w.books (w.notify task).books :=
  Handled.nothing.touched (b := w.books) task (fun _ => rfl) fun _ hl => hl

/-- **One command**, whichever it is. -/
theorem handle_handled (home : Option PathBuf) (codec : Codec) (env : Env) (command : CoreCommand)
    (w : World) : Handled w.books (w.handle home codec env command).2.books := by
  cases command with
  | startAll => exact startEach_handled env _ w
  | stopAll => exact stopEach_handled env _ w
  | startGroup group => exact startEach_handled env _ w
  | stopGroup group => exact stopEach_handled env _ w
  | startTunnel id => exact start_handled env id w
  | stopTunnel id => exact stop_handled env id w
  | restartTunnel id => exact (stop_handled env id w).trans (start_handled env id _)
  | retryTunnel id =>
      exact retry_keeps (I := fun v => Handled w.books v.books) .nothing (notify_handled w)
        (start_handled env id w)
  | networkRecovered =>
      exact networkRecovered_keeps (I := fun v => Handled w.books v.books) .nothing
        fun v task hv => hv.trans (notify_handled v task)
  | saveConfig directory config secret =>
      obtain ⟨stores, hsave⟩ := saveConfig_cases home codec env directory config secret w
      rcases hsave with ⟨-, heq⟩ | ⟨-, heq⟩
      · have hreplaced := replaceConfig_handled env config { w with stores }
        rw [handle, heq]
        exact hreplaced
      · rw [handle, heq]
        exact .nothing
  | importConfig path => exact .nothing
  | previewSshConfig path => exact .nothing
  | exportConfig path config => exact .nothing
  | resolveHostKey id decision =>
      unfold handle resolveHostKey
      dsimp only
      split
      · exact .nothing
      · exact .nothing

/-- The drain awaits the entries one by one; those to come are still
held. -/
theorem drain_loop (env : Env) (entries : List (Sigma fun _ : TunnelId => ℕ)) (w : World)
    (hkeys : (entries.map Sigma.fst).Nodup)
    (hheld : ∀ e ∈ entries, w.active.lookup e.1 = some e.2) :
    let v := entries.foldl (fun (w : World) e =>
      { w with active := w.active.erase e.1 }.endTask e.2 (env.inTime e.1)) w
    Handled w.books v.books ∧
      ∀ id, v.active.lookup id =
        if id ∈ entries.map Sigma.fst then none else w.active.lookup id := by
  induction entries generalizing w with
  | nil => exact ⟨.nothing, fun id => rfl⟩
  | cons e rest ih =>
      let next : World := { w with active := w.active.erase e.1 }.endTask e.2 (env.inTime e.1)
      obtain ⟨hfresh, hrest⟩ := List.nodup_cons.1 hkeys
      have hone : Handled w.books next.books :=
        Handled.nothing.awaited (b := w.books) (hheld e List.mem_cons_self) (env.inTime e.1)
      have hnext : ∀ e' ∈ rest, next.active.lookup e'.1 = some e'.2 := by
        intro e' he'
        have hne : e'.1 ≠ e.1 := fun h => hfresh (h ▸ List.mem_map_of_mem he')
        exact (AList.lookup_erase_ne hne).trans (hheld e' (List.mem_cons_of_mem _ he'))
      obtain ⟨hhandled, hactive⟩ := ih next hrest hnext
      refine ⟨hone.trans hhandled, fun id => ?_⟩
      have herase : next.active.lookup id = if id = e.1 then none else w.active.lookup id :=
        Map.lookup_erase_eq id
      refine (hactive id).trans ?_
      rw [herase, List.map_cons]
      by_cases hid : id = e.1
      · rw [if_pos hid, ite_self, if_pos (hid ▸ List.mem_cons_self)]
      · simp only [List.mem_cons, hid, false_or, if_false]

/-- **The end of the loop** awaits every handle that is held. -/
theorem drain_handled (env : Env) (w : World) :
    Handled w.books (w.drain env).books ∧ ∀ id, id ∉ (w.drain env).active := by
  have hperm : (arrange (env.order 0) w.active.entries).Perm w.active.entries := arrange_perm _ _
  have hkeys : ((arrange (env.order 0) w.active.entries).map Sigma.fst).Nodup :=
    (hperm.map Sigma.fst).nodup_iff.2 w.active.nodupKeys
  have hheld : ∀ e ∈ arrange (env.order 0) w.active.entries, w.active.lookup e.1 = some e.2 :=
    fun e he => Map.mem_lookup_iff_entries.2 (hperm.mem_iff.1 he)
  obtain ⟨hhandled, hactive⟩ := drain_loop env _
    { w with pendingHostKeys := [], running := false } hkeys hheld
  refine ⟨hhandled, fun id => ?_⟩
  rw [← Map.lookup_eq_none_iff]
  refine (hactive id).trans ?_
  split
  · rfl
  · rename_i hnot
    refine Map.lookup_eq_none_iff.2 fun hmem => hnot ?_
    exact (hperm.map Sigma.fst).mem_iff.2 hmem

/-- **One input** does no more to the tasks. -/
theorem step_handled (home : Option PathBuf) (codec : Codec) (w : World) (input : Input) :
    Handled w.books (w.step home codec input).2.books := by
  unfold step
  split
  · exact .nothing
  · cases input with
    | command command env => exact handle_handled home codec env command w
    | prompt prompt =>
        unfold queueHostKey
        dsimp only
        split
        · exact .nothing
        · exact .nothing
    | tick env =>
        dsimp only
        split
        · exact .nothing
        · exact refresh_handled env w
    | report task state =>
        refine Handled.nothing.touched (b := w.books) task (fun t => ?_) fun t hl => ?_
        · split <;> rfl
        · split at hl <;> assumption
    | exit task result =>
        refine Handled.nothing.touched (b := w.books) task (fun t => ?_) fun t hl => ?_
        · split <;> rfl
        · split at hl
          · simp [Task.Live] at hl
          · exact hl
    | giveUp reply => exact .nothing
    | shutdown env => exact (drain_handled env w).1

/-- The loop ends by a drain, which leaves nothing active. -/
theorem step_ended (home : Option PathBuf) (codec : Codec) (w : World) (input : Input)
    (h : w.running = false → ∀ id, id ∉ w.active)
    (hended : (w.step home codec input).2.running = false) :
    ∀ id, id ∉ (w.step home codec input).2.active := by
  by_cases hrun : w.running = true
  · have hmove := step_move home codec w input
    have hrunning : (w.step home codec input).2.desk.running ≠ w.desk.running := by
      intro heq
      have hfalse : (false : Bool) = true := hended.symm.trans (heq.trans hrun)
      cases hfalse
    generalize (w.step home codec input).2.desk = d at hmove hrunning
    cases hmove with
    | shut env =>
        have hstep : w.step home codec (.shutdown env) = (none, w.drain env) := by
          unfold step
          rw [if_neg (by simp [hrun])]
        rw [hstep]
        exact (drain_handled env w).2
    | _ => exact absurd rfl hrunning
  · have hrun : w.running = false := by simpa using hrun
    have hstep : w.step home codec input = (none, w) := by
      unfold step
      rw [if_pos (by simp [hrun])]
    rw [hstep]
    exact h hrun

end World

/-! ## Once each -/

/-- The tasks that were spawned, in the order of the history. -/
def begun (history : List TaskEvent) : List ℕ :=
  history.filterMap fun e => match e with
    | .spawned task _ => some task
    | _ => none

/-- The task that is over for the manager. -/
def TaskEvent.over : TaskEvent → Option ℕ
  | .spawned .. => none
  | .joined task | .aborted task => some task

/-- The tasks whose handles were awaited, in the order of the history. -/
def awaited (history : List TaskEvent) : List ℕ := history.filterMap TaskEvent.over

variable {history more : List TaskEvent} {e : TaskEvent}

theorem begun_append : begun (history ++ more) = begun history ++ begun more :=
  List.filterMap_append

theorem awaited_append : awaited (history ++ more) = awaited history ++ awaited more :=
  List.filterMap_append

/-- A handle was awaited where its task has ended for the manager. -/
theorem mem_awaited : k ∈ awaited history ↔ Ended history k := by
  rw [awaited, List.mem_filterMap, Ended]
  constructor
  · rintro ⟨e, he, hover⟩
    cases e with
    | spawned task id => cases hover
    | joined task =>
        obtain rfl := Option.some.inj hover
        exact .inl he
    | aborted task =>
        obtain rfl := Option.some.inj hover
        exact .inr he
  · rintro (he | he)
    · exact ⟨_, he, rfl⟩
    · exact ⟨_, he, rfl⟩

/-- A handle is awaited after its task was spawned. -/
def SpawnedFirst (history : List TaskEvent) : Prop :=
  ∀ pre e post, history = pre ++ e :: post → ∀ task, e.over = some task → task ∈ begun pre

theorem SpawnedFirst.concat (h : SpawnedFirst history)
    (he : ∀ task, e.over = some task → task ∈ begun history) : SpawnedFirst (history ++ [e]) := by
  intro pre e' post heq task hover
  rcases concat_eq_append_cons heq with ⟨rfl, rfl⟩ | ⟨post', hpre⟩
  · exact he task hover
  · exact h pre e' post' hpre task hover

/-- Each task is spawned once, under the next number, and awaited once at
most, and not while its tunnel is active with it. -/
structure OnceEach (b : Books) : Prop where
  begun : begun b.history = List.range b.tasks.length
  once : (awaited b.history).Nodup
  first : SpawnedFirst b.history
  held : ∀ id k, b.active.lookup id = some k → k < b.tasks.length ∧ k ∉ awaited b.history
  apart : ∀ id id' k, b.active.lookup id = some k → b.active.lookup id' = some k → id = id'

theorem OnceEach.mem_begun (h : OnceEach b) : k ∈ Manager.begun b.history ↔ k < b.tasks.length := by
  rw [h.begun, List.mem_range]

/-- Only what was spawned is awaited. -/
theorem OnceEach.lt (h : OnceEach b) (hk : k ∈ awaited b.history) : k < b.tasks.length := by
  rw [awaited, List.mem_filterMap] at hk
  obtain ⟨e, he, hover⟩ := hk
  obtain ⟨pre, post, heq⟩ := List.append_of_mem he
  have hpre : k ∈ Manager.begun pre := h.first pre e post heq k hover
  rw [← h.mem_begun, heq, begun_append]
  exact List.mem_append_left _ hpre

/-- A task gets the next number, under which there is none. -/
theorem OnceEach.spawned (h : OnceEach b) (hid : id ∉ b.active) (tunnel : TunnelConfig)
    (hosts : List SshHost) :
    OnceEach ⟨b.active.insert id b.tasks.length,
      b.tasks ++ [{ id := id, tunnel := tunnel, hosts := hosts }],
      b.history ++ [.spawned b.tasks.length id]⟩ where
  begun := by
    rw [begun_append, h.begun, List.length_append, List.length_singleton, List.range_succ]
    rfl
  once := by
    have hmore : Manager.awaited [.spawned b.tasks.length id] = [] := rfl
    rw [awaited_append, hmore, List.append_nil]
    exact h.once
  first := h.first.concat fun task hover => by cases hover
  held := by
    intro id' k hk
    rw [Map.lookup_insert_eq] at hk
    have hmore : Manager.awaited [.spawned b.tasks.length id] = [] := rfl
    rw [awaited_append, hmore, List.append_nil, List.length_append, List.length_singleton]
    split at hk
    · obtain rfl := Option.some.inj hk
      exact ⟨Nat.lt_succ_self _, fun hover => Nat.lt_irrefl _ (h.lt hover)⟩
    · obtain ⟨hlt, hnot⟩ := h.held id' k hk
      exact ⟨by omega, hnot⟩
  apart := by
    intro id₁ id₂ k h₁ h₂
    rw [Map.lookup_insert_eq] at h₁ h₂
    split at h₁
    · obtain rfl := Option.some.inj h₁
      split at h₂
      · subst_vars
        rfl
      · have hlt := (h.held id₂ _ h₂).1
        omega
    · split at h₂
      · obtain rfl := Option.some.inj h₂
        have hlt := (h.held id₁ _ h₁).1
        omega
      · exact h.apart id₁ id₂ k h₁ h₂

/-- A handle that is held was not awaited, and is not held after. -/
theorem OnceEach.awaited (h : OnceEach b) (hk : b.active.lookup id = some k) (inTime : Bool)
    (f : Task → Task) :
    OnceEach ⟨b.active.erase id, b.tasks.modify k f,
      b.history ++ [if inTime then .joined k else .aborted k]⟩ where
  begun := by
    rw [begun_append, h.begun, List.length_modify]
    cases inTime
    · exact List.append_nil _
    · exact List.append_nil _
  once := by
    have hover : Manager.awaited [if inTime then .joined k else .aborted k] = [k] := by
      cases inTime <;> rfl
    rw [awaited_append, hover]
    have hnot := (h.held id k hk).2
    exact List.nodup_append'.2 ⟨h.once, List.nodup_singleton k, by simpa using hnot⟩
  first := h.first.concat fun task hover => by
    have htask : task = k := by
      cases inTime
      · exact (Option.some.inj hover).symm
      · exact (Option.some.inj hover).symm
    rw [htask, h.mem_begun]
    exact (h.held id k hk).1
  held := by
    intro id' k' hk'
    rw [Map.lookup_erase_eq] at hk'
    split at hk'
    · cases hk'
    · rename_i hne
      obtain ⟨hlt, hnot⟩ := h.held id' k' hk'
      have hover : Manager.awaited [if inTime then .joined k else .aborted k] = [k] := by
        cases inTime <;> rfl
      refine ⟨by rw [List.length_modify]; exact hlt, ?_⟩
      rw [awaited_append, hover, List.mem_append, List.mem_singleton]
      rintro (hold | rfl)
      · exact hnot hold
      · exact hne (h.apart id' id k' hk' hk)
  apart := by
    intro id₁ id₂ k' h₁ h₂
    rw [Map.lookup_erase_eq] at h₁ h₂
    split at h₁
    · cases h₁
    · split at h₂
      · cases h₂
      · exact h.apart id₁ id₂ k' h₁ h₂

theorem OnceEach.touched (h : OnceEach b) (k : ℕ) (f : Task → Task) :
    OnceEach ⟨b.active, b.tasks.modify k f, b.history⟩ where
  begun := by rw [List.length_modify]; exact h.begun
  once := h.once
  first := h.first
  held := by
    intro id k' hk'
    rw [List.length_modify]
    exact h.held id k' hk'
  apart := h.apart

/-- **Whatever is done**, each task keeps its one handle. -/
theorem Handled.onceEach (h : Handled b c) (hb : OnceEach b) : OnceEach c := by
  induction h with
  | nothing => exact hb
  | spawned _ hid tunnel hosts ih => exact ih.spawned hid tunnel hosts
  | awaited _ hk inTime ih => exact ih.awaited hk inTime _
  | touched _ k hid hlive ih => exact ih.touched k _

theorem Handled.tasksOk (h : Handled b c) (hb : TasksOk b.active b.tasks b.history) :
    TasksOk c.active c.tasks c.history := by
  induction h with
  | nothing => exact hb
  | spawned _ hid tunnel hosts ih => exact ih.spawn hid tunnel hosts
  | awaited _ hk inTime ih =>
      exact ih.await hk inTime (fun _ => rfl) fun t => by cases t.exit <;> simp [Task.Live]
  | touched _ k hid hlive ih => exact ih.modify k hid hlive

/-! ## The whole life of a manager -/

/-- The tasks of a manager, also after its loop has ended. -/
structure Kept (w : World) : Prop where
  tasks : TasksOk w.active w.tasks w.history
  once : OnceEach w.books
  ended : w.running = false → ∀ id, id ∉ w.active

/-- **One input**, whichever it is. -/
theorem Kept.step (h : Kept w) (home : Option PathBuf) (codec : Codec) (input : Input) :
    Kept (w.step home codec input).2 := by
  have hhandled := World.step_handled home codec w input
  exact ⟨hhandled.tasksOk h.tasks, hhandled.onceEach h.once, fun hended =>
    World.step_ended home codec w input h.ended hended⟩

/-- **A new manager has no tasks.** -/
theorem new_books {order : ℕ} {hosts : List SshHost} {groups : List TunnelGroup}
    {tunnels : List TunnelConfig} (h : new order hosts groups tunnels = .ok w) :
    w.books = ⟨∅, [], []⟩ ∧ w.running = true := by
  unfold new at h
  split at h
  · cases h
  · split at h
    · cases h
    · obtain rfl := Except.ok.inj h
      exact ⟨rfl, rfl⟩

/-- The starts of the boot are the first things done. -/
theorem kept_booted (h : Booted w) : Kept w := by
  have hbook := bookkeeping_booted h
  obtain ⟨order, hosts, groups, tunnels, app, stores, env, w₀, hnew, rfl⟩ := h
  obtain ⟨hbooks, hrunning⟩ := new_books hnew
  have hempty : OnceEach ⟨∅, [], []⟩ := by
    refine ⟨rfl, List.nodup_nil, ?_, fun id k hk => ?_, fun id id' k hk => ?_⟩
    · intro pre e post heq
      simp at heq
    · simp at hk
    · simp at hk
  let w₁ : World := { (w₀.withAppSettings app) with stores, autoStart := [] }
  have hstarted : Handled ⟨∅, [], []⟩ (w₁.startEach env w₀.autoStart).books := by
    rw [← hbooks]
    exact World.startEach_handled env w₀.autoStart w₁
  have hrun : (w₁.startEach env w₀.autoStart).running = true := by
    have hf : World.Beside World.running := fun _ _ _ _ _ _ _ _ _ => rfl
    exact (hf.startEach env w₀.autoStart w₁).trans hrunning
  refine ⟨hbook.tasks, hstarted.onceEach hempty, fun hended => ?_⟩
  exact absurd (hrun.symm.trans hended) (by simp)

/-- **Every task is awaited once.** Whatever happens to a manager from its
beginning on: its tasks are spawned under the next number each, a handle
is awaited once at most and after its task was spawned, and a task that
was not awaited is the one its tunnel is active with. When the loop has
ended nothing is active, no task lives, and every handle was awaited. -/
theorem awaited_once (home : Option PathBuf) (codec : Codec) (hw : Booted w) (inputs : List Input) :
    let s := runState (World.step home codec) w inputs
    begun s.history = List.range s.tasks.length ∧ (awaited s.history).Nodup ∧
      SpawnedFirst s.history ∧
      (∀ k t, s.tasks[k]? = some t → k ∈ awaited s.history ∨ s.active.lookup t.id = some k) ∧
      (s.running = false → (awaited s.history).Perm (begun s.history) ∧ (∀ id, id ∉ s.active) ∧
        ∀ t ∈ s.tasks, ¬ t.Live) := by
  intro s
  have hkept : Kept s :=
    runState_invariant (fun _ input h => h.step home codec input) (kept_booted hw) inputs
  have hsettled : ∀ k t, s.tasks[k]? = some t → k ∈ awaited s.history ∨
      s.active.lookup t.id = some k := by
    intro k t ht
    rw [mem_awaited]
    exact (hkept.tasks.ended k t.id (hkept.tasks.recorded k t ht)).symm
  refine ⟨hkept.once.begun, hkept.once.once, hkept.once.first, hsettled, fun hended => ?_⟩
  have hnone : ∀ id k, s.active.lookup id ≠ some k := fun id k hk =>
    hkept.ended hended id (Map.mem_iff.2 ⟨k, hk⟩)
  refine ⟨?_, hkept.ended hended, fun t ht hlive => ?_⟩
  · have hbegun : (begun s.history).Nodup := hkept.once.begun ▸ List.nodup_range
    refine (List.perm_ext_iff_of_nodup hkept.once.once hbegun).2 fun k => ?_
    refine ⟨fun hk => hkept.once.mem_begun.2 (hkept.once.lt hk), fun hk => ?_⟩
    have hlt : k < s.tasks.length := hkept.once.mem_begun.1 hk
    exact (hsettled k _ (List.getElem?_eq_getElem hlt)).resolve_right (hnone _ k)
  · obtain ⟨k, hk⟩ := List.mem_iff_getElem?.1 ht
    exact hnone t.id k (hkept.tasks.live k t hk hlive)

/-- A restart, the end of the second task, and the end of the loop. -/
theorem awaited_once_labWorld :
    let s := runState (World.step none (Codec.only {} "")) labWorld
      [.command (.restartTunnel ⟨"socks"⟩) calm, .exit 1 (.failed "panicked"), .tick calm,
        .command (.startTunnel ⟨"socks"⟩) calm, .shutdown calm]
    s.running = false ∧ awaited s.history = [0, 1, 2] ∧ (awaited s.history).Perm (begun s.history) := by
  intro s
  have hended : s.running = false := by decide +kernel
  refine ⟨hended, by decide +kernel, ?_⟩
  exact ((awaited_once none (Codec.only {} "") booted_labWorld _).2.2.2.2 hended).1

end Manager

end TunnelWarden
