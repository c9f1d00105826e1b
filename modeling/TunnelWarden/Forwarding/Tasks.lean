import TunnelWarden.Forwarding.Channels
import TunnelWarden.Forwarding.Relay

/-!
# The tasks of a Remote tunnel and its counters

The relays that run are those the tasks are at, each with one task. So
the counter of active connections is at any time the number of the tasks
that relay, and nothing is left of it when the last of them is joined,
also where they are aborted.
-/

namespace TunnelWarden

open Ssh Relay

/-! ## The relays that run -/

namespace Relay

namespace Traffic

variable {t : Traffic} {j k : ℕ} {c c' : Connection}

/-- The relay of this number runs. -/
def Runs (t : Traffic) (k : ℕ) : Prop :=
  ∃ c, t.connections[k]? = some c ∧ c.control = .running

theorem lt_of_runs (h : t.Runs k) : k < t.connections.length := by
  obtain ⟨c, hc, -⟩ := h
  exact (List.getElem?_eq_some_iff.1 hc).1

theorem runs_start (localInput remoteInput : List UInt8) :
    (t.step (.start localInput remoteInput)).2.Runs k ↔
      t.Runs k ∨ k = t.connections.length := by
  unfold Runs
  simp only [step]
  rcases Nat.lt_trichotomy k t.connections.length with hlt | rfl | hlt
  · rw [List.getElem?_append_left hlt]
    have hne : k ≠ t.connections.length := by omega
    simp only [hne, or_false]
  · simp
  · have hnone : t.connections[k]? = none := List.getElem?_eq_none (by omega)
    have hne : k ≠ t.connections.length := by omega
    have hpast : ∀ c : Connection, (t.connections ++ [c])[k]? = none := fun c =>
      List.getElem?_eq_none (by rw [List.length_append, List.length_singleton]; omega)
    rw [hnone, hpast]
    simp [hne]

theorem runs_replace (h : t.connections[k]? = some c) :
    (t.replace k c c').Runs j ↔ if j = k then c'.control = .running else t.Runs j := by
  have hlt := (List.getElem?_eq_some_iff.1 h).1
  unfold Runs replace
  dsimp only
  rw [List.getElem?_set]
  by_cases hjk : j = k
  · subst hjk
    simp [hlt]
  · have hkj : ¬ k = j := fun heq => hjk heq.symm
    simp [hjk, hkj]

theorem runs_cancel : (t.step (.cancel j)).2.Runs k ↔ t.Runs k := by
  simp only [step]
  cases h : t.connections[j]? with
  | none => exact Iff.rfl
  | some c =>
      show (t.replace j c _).Runs k ↔ _
      rw [runs_replace h]
      split
      · rename_i heq
        subst heq
        constructor
        · intro hrun
          exact ⟨c, h, hrun⟩
        · rintro ⟨c', hc', hrun⟩
          rw [h] at hc'
          obtain rfl := Option.some.inj hc'
          exact hrun
      · exact Iff.rfl

/-- A cancellation ends no relay by itself. -/
theorem runs_cancels (t : Traffic) (relays : List ℕ) :
    (runState step t (relays.map .cancel)).Runs k ↔ t.Runs k := by
  induction relays generalizing t with
  | nil => exact Iff.rfl
  | cons relay relays ih =>
      rw [List.map_cons, runState_cons, ih]
      exact runs_cancel

theorem runs_drop : (t.step (.drop j)).2.Runs k ↔ t.Runs k ∧ k ≠ j := by
  simp only [step]
  cases h : t.connections[j]? with
  | none =>
      constructor
      · intro hrun
        refine ⟨hrun, ?_⟩
        rintro rfl
        obtain ⟨c, hc, -⟩ := hrun
        rw [h] at hc
        cases hc
      · exact And.left
  | some c =>
      dsimp only
      split
      · rw [runs_replace h]
        split
        · rename_i heq
          simp [heq]
        · rename_i hne
          simp [hne]
      · rename_i hover
        constructor
        · intro hrun
          refine ⟨hrun, ?_⟩
          rintro rfl
          obtain ⟨c', hc', hrun⟩ := hrun
          rw [h] at hc'
          obtain rfl := Option.some.inj hc'
          exact hover hrun
        · exact And.left

/-- A relay that runs goes on running or returns. -/
theorem control_step (h : c.control = .running) (side : Side) (event : CopyEvent) :
    (c.step side event).2.control = .running ∨
      ∃ result, (c.step side event).2.control = .returned result := by
  have hjoin : ∀ up down, tryJoin up down = .running ∨ ∃ result, tryJoin up down = .returned result := by
    intro up down
    unfold tryJoin
    split
    · exact .inr ⟨_, rfl⟩
    · exact .inr ⟨_, rfl⟩
    · exact .inr ⟨_, rfl⟩
    · exact .inl rfl
  unfold Connection.step
  rw [if_neg (fun hne => hne h)]
  cases side with
  | up => exact hjoin _ _
  | down => exact hjoin _ _

theorem copy_eq_replace (h : t.connections[k]? = some c) (side : Side) (event : CopyEvent) :
    (t.step (.copy k side event)).2.connections =
      t.connections.set k (c.step side event).2 := by
  simp only [step, h]
  cases side with
  | up => rfl
  | down => rfl

theorem runs_copy (h : t.connections[k]? = some c) (side : Side) (event : CopyEvent) :
    (t.step (.copy k side event)).2.Runs j ↔
      if j = k then (c.step side event).2.control = .running else t.Runs j := by
  have hreplace : (t.replace k c (c.step side event).2).Runs j ↔
      if j = k then (c.step side event).2.control = .running else t.Runs j := runs_replace h
  unfold Runs at hreplace ⊢
  rw [copy_eq_replace h]
  exact hreplace

end Traffic

end Relay

/-! ## The relays of the tasks -/

namespace RemoteForwardWorker

variable {s s' : RemoteForwardWorker} {events record : List RemoteWorkerEvent}
variable {inputs : List RemoteInput} {place : ℕ} {task : RelayTask}

/-- The relays the tasks are at. -/
def relays (s : RemoteForwardWorker) : List ℕ := s.connections.filterMap RelayTask.relay

/-- **The tasks and the counters go together.** -/
structure Relays (s : RemoteForwardWorker) : Prop where
  counted : Traffic.Counted s.counters
  apart : s.relays.Nodup
  running : ∀ k, s.counters.Runs k ↔ k ∈ s.relays

theorem Relays.kept (h : Relays s) (hconnections : s'.connections = s.connections)
    (hcounters : s'.counters = s.counters) : Relays s' where
  counted := by rw [hcounters]; exact h.counted
  apart := by rw [relays, hconnections]; exact h.apart
  running k := by rw [hcounters, relays, hconnections]; exact h.running k

/-- A place among the tasks, with what is before and behind it. -/
theorem exists_split (hplace : s.connections[place]? = some task) :
    ∃ before behind, s.connections = before ++ task :: behind ∧
      (∀ next, s.connections.set place next = before ++ next :: behind) ∧
      s.connections.eraseIdx place = before ++ behind := by
  obtain ⟨hlt, hget⟩ := List.getElem?_eq_some_iff.1 hplace
  refine ⟨s.connections.take place, s.connections.drop (place + 1), ?_, fun next => ?_, ?_⟩
  · rw [← hget, List.getElem_cons_drop, List.take_append_drop]
  · exact List.set_eq_take_append_cons_drop .. |>.trans (if_pos hlt)
  · exact List.eraseIdx_eq_take_drop_succ ..

theorem filterMap_cons_relay (task : RelayTask) (behind : List RelayTask) :
    (task :: behind).filterMap RelayTask.relay =
      task.relay.toList ++ behind.filterMap RelayTask.relay := by
  cases h : task.relay with
  | none => rw [List.filterMap_cons_none h]; rfl
  | some relay => rw [List.filterMap_cons_some h]; rfl

/-- A task that is at no relay leaves. -/
theorem Relays.joined (h : Relays s) (hplace : s.connections[place]? = some task)
    (hrelay : task.relay = none) (hconnections : s'.connections = s.connections.eraseIdx place)
    (hcounters : s'.counters = s.counters) : Relays s' := by
  obtain ⟨before, behind, hsplit, -, herase⟩ := exists_split hplace
  have hrelays : s'.relays = s.relays := by
    unfold relays
    rw [hconnections, herase, hsplit, List.filterMap_append, List.filterMap_append,
      List.filterMap_cons_none hrelay]
  exact ⟨by rw [hcounters]; exact h.counted, by rw [hrelays]; exact h.apart,
    fun k => by rw [hcounters, hrelays]; exact h.running k⟩

/-- A task is aborted. -/
theorem Relays.aborted (h : Relays s) {relay : ℕ} (hplace : s.connections[place]? = some task)
    (hrelay : task.relay = some relay)
    (hconnections : s'.connections = s.connections.eraseIdx place)
    (hcounters : s'.counters = (s.counters.step (.drop relay)).2) : Relays s' := by
  obtain ⟨before, behind, hsplit, -, herase⟩ := exists_split hplace
  have hbefore : s.relays = before.filterMap RelayTask.relay ++
      relay :: behind.filterMap RelayTask.relay := by
    unfold relays
    rw [hsplit, List.filterMap_append, List.filterMap_cons_some hrelay]
  have hafter : s'.relays = before.filterMap RelayTask.relay ++
      behind.filterMap RelayTask.relay := by
    unfold relays
    rw [hconnections, herase, List.filterMap_append]
  have hapart := h.apart
  rw [hbefore, List.nodup_middle, List.nodup_cons] at hapart
  refine ⟨by rw [hcounters]; exact Traffic.counted_step _ _ h.counted, ?_, fun k => ?_⟩
  · rw [hafter]
    exact hapart.2
  · rw [hcounters, Traffic.runs_drop, h.running, hbefore, hafter]
    simp only [List.mem_append, List.mem_cons]
    constructor
    · rintro ⟨hmem, hne⟩
      tauto
    · intro hmem
      refine ⟨by tauto, ?_⟩
      rintro rfl
      exact hapart.1 (List.mem_append.2 hmem)

/-- **What a task does** to the relays. -/
inductive TaskMove (s : RemoteForwardWorker) (task : RelayTask) (next : RelayTask × Traffic) :
    Prop where
  | same (hrelay : next.1.relay = task.relay) (hcounters : next.2 = s.counters)
  | begins (localInput remoteInput : List UInt8) (hnone : task.relay = none)
      (hrelay : next.1.relay = some s.counters.connections.length)
      (hcounters : next.2 = (s.counters.step (.start localInput remoteInput)).2)
  | copies (relay : ℕ) (side : Side) (event : CopyEvent) (hbefore : task.relay = some relay)
      (hcounters : next.2 = (s.counters.step (.copy relay side event)).2)
      (hrelay : next.1.relay = some relay ∧
          (∀ result, next.2.connections[relay]?.map Connection.control ≠ some (.returned result)) ∨
        next.1.relay = none ∧
          ∃ result, next.2.connections[relay]?.map Connection.control = some (.returned result))

theorem taskMove_advance (task : RelayTask) (event : RelayTaskEvent) :
    TaskMove s task (s.advance task event) := by
  obtain ⟨channel, stage⟩ := task
  unfold advance
  cases stage with
  | connecting =>
      dsimp only
      split
      · exact .same rfl rfl
      · split
        · exact .same rfl rfl
        · exact .begins _ _ rfl rfl rfl
        · exact .same rfl rfl
        · exact .same rfl rfl
  | relaying relay =>
      dsimp only
      split
      · rename_i side event
        split
        · rename_i result hreturned
          exact .copies relay side event rfl rfl (.inr ⟨rfl, result, hreturned⟩)
        · rename_i hruns
          exact .copies relay side event rfl rfl (.inl ⟨rfl, hruns⟩)
      · exact .same rfl rfl
  | returned result => exact .same rfl rfl

theorem Relays.advanced (h : Relays s) {event : RelayTaskEvent}
    (hplace : s.connections[place]? = some task)
    (hconnections : s'.connections = s.connections.set place (s.advance task event).1)
    (hcounters : s'.counters = (s.advance task event).2) : Relays s' := by
  obtain ⟨before, behind, hsplit, hset, -⟩ := exists_split hplace
  have hbefore : s.relays = before.filterMap RelayTask.relay ++
      (task.relay.toList ++ behind.filterMap RelayTask.relay) := by
    unfold relays
    rw [hsplit, List.filterMap_append, filterMap_cons_relay]
  have hafter : s'.relays = before.filterMap RelayTask.relay ++
      ((s.advance task event).1.relay.toList ++ behind.filterMap RelayTask.relay) := by
    unfold relays
    rw [hconnections, hset, List.filterMap_append, filterMap_cons_relay]
  have hapart := h.apart
  cases taskMove_advance (s := s) task event with
  | same hrelay hsame =>
      rw [hrelay, ← hbefore] at hafter
      rw [hsame] at hcounters
      exact ⟨by rw [hcounters]; exact h.counted, by rw [hafter]; exact h.apart,
        fun k => by rw [hcounters, hafter]; exact h.running k⟩
  | begins localInput remoteInput hnone hrelay hstart =>
      rw [hrelay, Option.toList_some, List.singleton_append] at hafter
      rw [hnone, Option.toList_none, List.nil_append] at hbefore
      rw [hstart] at hcounters
      -- the number of the new relay is nobody else's
      have hfresh : s.counters.connections.length ∉ s.relays := fun hmem =>
        Nat.lt_irrefl _ (Traffic.lt_of_runs ((h.running _).2 hmem))
      rw [hbefore] at hapart hfresh
      refine ⟨by rw [hcounters]; exact Traffic.counted_step _ _ h.counted, ?_, fun k => ?_⟩
      · rw [hafter, List.nodup_middle, List.nodup_cons]
        exact ⟨hfresh, hapart⟩
      · rw [hcounters, Traffic.runs_start, h.running, hbefore, hafter]
        simp only [List.mem_append, List.mem_cons]
        tauto
  | copies relay side copy hrelay hcopy hnext =>
      rw [hrelay, Option.toList_some, List.singleton_append] at hbefore
      obtain ⟨c, hc, hrun⟩ : s.counters.Runs relay := by
        rw [h.running, hbefore]
        simp
      have hcontrol : (s.advance task event).2.connections[relay]?.map Connection.control =
          some (c.step side copy).2.control := by
        have hlt := (List.getElem?_eq_some_iff.1 hc).1
        rw [hcopy, Traffic.copy_eq_replace hc, List.getElem?_set_self hlt, Option.map_some]
      have hruns : ∀ k, s'.counters.Runs k ↔
          if k = relay then (c.step side copy).2.control = .running else s.counters.Runs k := by
        intro k
        rw [hcounters, hcopy]
        exact Traffic.runs_copy hc side copy
      have hcounted : Traffic.Counted s'.counters := by
        rw [hcounters, hcopy]
        exact Traffic.counted_step _ _ h.counted
      rcases hnext with ⟨hnext, hgoes⟩ | ⟨hnext, result, hreturned⟩
      · rw [hnext, Option.toList_some, List.singleton_append, ← hbefore] at hafter
        refine ⟨hcounted, by rw [hafter]; exact h.apart, fun k => ?_⟩
        rw [hruns, hafter, ← h.running]
        split
        · rename_i heq
          subst heq
          rcases Traffic.control_step hrun side copy with hstill | ⟨result, hover⟩
          · exact iff_of_true hstill ⟨c, hc, hrun⟩
          · rw [hover] at hcontrol
            exact absurd hcontrol (hgoes result)
        · exact Iff.rfl
      · rw [hnext, Option.toList_none, List.nil_append] at hafter
        rw [hbefore, List.nodup_middle, List.nodup_cons] at hapart
        refine ⟨hcounted, by rw [hafter]; exact hapart.2, fun k => ?_⟩
        have hover : (c.step side copy).2.control = .returned result :=
          Option.some.inj (hcontrol.symm.trans hreturned)
        rw [hruns, hafter, hover, h.running, hbefore]
        split
        · rename_i heq
          subst heq
          exact iff_of_false nofun hapart.1
        · rename_i hne
          simp only [List.mem_append, List.mem_cons]
          tauto

/-- **Every step keeps the tasks and the counters together.** -/
theorem Relays.step (h : Relays s) (input : RemoteWorkerInput) : Relays (s.step input).2 := by
  obtain ⟨inputs, -, hchange⟩ := changes_step (s := s) input
  generalize (s.step input).1 = events at hchange ⊢
  generalize (s.step input).2 = s' at hchange ⊢
  cases hchange with
  | aside _ hkept hcounters _ => exact h.kept hkept.connections hcounters
  | cancelled _ hkept hcounters _ =>
      refine ⟨?_, by rw [relays, hkept.connections]; exact h.apart, fun k => ?_⟩
      · rw [hcounters]
        exact runState_invariant Traffic.counted_step h.counted _
      · rw [hcounters, relays, hkept.connections]
        exact (Traffic.runs_cancels _ _).trans (h.running k)
  | declined _ hkept hcounters _ => exact h.kept hkept.connections hcounters
  | handedOn _ _ _ hconnections hcounters _ _ _ => exact h.kept hconnections hcounters
  | spawned channel queue _ _ _ _ hconnections hcounters _ _ _ =>
      have hrelays : s'.relays = s.relays := by
        unfold relays
        rw [hconnections, List.filterMap_append]
        exact List.append_nil _
      exact ⟨by rw [hcounters]; exact h.counted, by rw [hrelays]; exact h.apart,
        fun k => by rw [hcounters, hrelays]; exact h.running k⟩
  | advanced place task event hplace _ _ hconnections hcounters =>
      exact h.advanced hplace hconnections hcounters
  | joined place task hplace hrelay _ _ hconnections hcounters =>
      exact h.joined hplace hrelay hconnections hcounters
  | aborted place task relay hplace hrelay _ _ hconnections hcounters =>
      exact h.aborted hplace hrelay hconnections hcounters

theorem relays_before (localTarget : LocalEndpoint) (remote : Option RemoteEndpoint) :
    Relays (before localTarget remote) where
  counted := Traffic.counted_new
  apart := List.nodup_nil
  running k := iff_of_false (fun ⟨_, hc, _⟩ => by cases hc) List.not_mem_nil

/-- **The counter of active connections** is the number of the tasks that
relay. -/
theorem Relays.active (h : Relays s) (hfew : s.connections.length ≤ maxActiveConnections) :
    s.counters.activeConnections = s.relays.length := by
  have hprogress : s.counters.inProgress = s.relays.length :=
    tally_eq_length h.apart fun k => (h.running k).symm
  have hlength : s.relays.length ≤ s.connections.length := List.length_filterMap_le _ _
  have hmax : maxActiveConnections = 64 := rfl
  rw [h.counted.active, hprogress]
  exact Nat.mod_eq_of_lt (by omega)

end RemoteForwardWorker

end TunnelWarden
