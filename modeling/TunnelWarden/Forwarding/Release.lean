import TunnelWarden.Forwarding.Model.Release
import TunnelWarden.Forwarding.Requests
import TunnelWarden.Supervisor.Local

/-!
# The end of a worker, in order

Whoever owns a worker cancels the connections, joins every task it has
spawned, and only then disconnects the chain and hands the listener back
(`release_in_order`). Past the release no client is served any more. And
the release ends by what the owner does itself, whatever the connections
and the token of the tunnel do in between (`release_ends`).
-/

namespace TunnelWarden

open Lifecycle Ssh

/-! ## What may follow a release -/

/-- What may still be seen once the release began. -/
def LocalOwnerEvent.Ends : LocalOwnerEvent → Prop
  | .worker (.received ..) | .joined _ | .abortAll | .disconnecting | .released => True
  | _ => False

/-- The events of a worker alone, and those of its tasks. -/
def LocalOwnerEvent.Plain : LocalOwnerEvent → Prop
  | .worker _ | .spawned _ | .joined _ => True
  | _ => False

/-- How far the owner is. -/
def LocalOwnerControl.phase : LocalOwnerControl → ℕ
  | .running => 0
  | .draining => 1
  | .aborting => 2
  | .disconnecting => 3
  | .released _ => 4

namespace LocalForwardOwner

variable {s s' : LocalForwardOwner} {listener : ListenerRuntime}
variable {record events past rest : List LocalOwnerEvent}

/-- The tasks that were spawned. -/
def spawned (record : List LocalOwnerEvent) : List ℕ :=
  record.filterMap fun
    | .spawned number => some number
    | _ => none

/-- The tasks that were joined. -/
def joined (record : List LocalOwnerEvent) : List ℕ :=
  record.filterMap fun
    | .joined number => some number
    | _ => none

theorem spawned_append : spawned (record ++ events) = spawned record ++ spawned events :=
  List.filterMap_append

theorem joined_append : joined (record ++ events) = joined record ++ joined events :=
  List.filterMap_append

/-- **The order of a release.** It begins once, and from then on no
connection is accepted and no request is made or answered. The tasks are
aborted within it, at most once. The session is disconnected when every
task has been joined, each once, and the listener is handed back last. -/
structure ReleaseOrder (record : List LocalOwnerEvent) : Prop where
  releasing : ∀ past rest, record = past ++ .releasing :: rest → ∀ e ∈ rest, e.Ends
  aborting : ∀ past rest, record = past ++ .abortAll :: rest →
    .releasing ∈ past ∧ .abortAll ∉ rest
  disconnecting : ∀ past rest, record = past ++ .disconnecting :: rest →
    .releasing ∈ past ∧ (joined past).Perm (spawned past) ∧ ∀ e ∈ rest, e = .released
  released : ∀ past rest, record = past ++ .released :: rest → .disconnecting ∈ past ∧ rest = []

/-- The order is kept where an event is allowed. -/
theorem ReleaseOrder.concat (h : ReleaseOrder record) {e : LocalOwnerEvent}
    (hends : .releasing ∈ record → e.Ends)
    (hover : .disconnecting ∈ record → e = .released) (hlast : .released ∉ record)
    (haborting : e = .abortAll → .releasing ∈ record ∧ .abortAll ∉ record)
    (hdisconnecting : e = .disconnecting →
      .releasing ∈ record ∧ (joined record).Perm (spawned record))
    (hreleased : e = .released → .disconnecting ∈ record) : ReleaseOrder (record ++ [e]) where
  releasing past rest heq := by
    rcases concat_split heq with ⟨-, -, rfl⟩ | ⟨rest', hrecord, rfl⟩
    · exact fun _ hmem => (List.not_mem_nil hmem).elim
    · intro x hx
      rcases List.mem_append.1 hx with hx | hx
      · exact h.releasing past rest' hrecord x hx
      · rw [List.mem_singleton.1 hx]
        exact hends (by rw [hrecord]; simp)
  aborting past rest heq := by
    rcases concat_split heq with ⟨rfl, rfl, rfl⟩ | ⟨rest', hrecord, rfl⟩
    · exact ⟨(haborting rfl).1, List.not_mem_nil⟩
    · obtain ⟨hbegan, honce⟩ := h.aborting past rest' hrecord
      refine ⟨hbegan, fun hmem => ?_⟩
      rcases List.mem_append.1 hmem with hmem | hmem
      · exact honce hmem
      · refine (haborting (List.mem_singleton.1 hmem).symm).2 ?_
        rw [hrecord]
        simp
  disconnecting past rest heq := by
    rcases concat_split heq with ⟨rfl, rfl, rfl⟩ | ⟨rest', hrecord, rfl⟩
    · obtain ⟨hbegan, hjoins⟩ := hdisconnecting rfl
      exact ⟨hbegan, hjoins, fun _ hmem => (List.not_mem_nil hmem).elim⟩
    · obtain ⟨hbegan, hjoins, hrest⟩ := h.disconnecting past rest' hrecord
      refine ⟨hbegan, hjoins, fun x hx => ?_⟩
      rcases List.mem_append.1 hx with hx | hx
      · exact hrest x hx
      · rw [List.mem_singleton.1 hx]
        exact hover (by rw [hrecord]; simp)
  released past rest heq := by
    rcases concat_split heq with ⟨rfl, rfl, rfl⟩ | ⟨rest', hrecord, -⟩
    · exact ⟨hreleased rfl, rfl⟩
    · exact (hlast (by rw [hrecord]; simp)).elim

/-- What is plain is allowed until the session is disconnected, and what
is seen of the worker alone until the release. -/
theorem ReleaseOrder.plain (h : ReleaseOrder record) (hplain : ∀ e ∈ events, e.Plain)
    (hends : .releasing ∈ record → ∀ e ∈ events, e.Ends)
    (hover : events ≠ [] → .disconnecting ∉ record) : ReleaseOrder (record ++ events) := by
  induction events generalizing record with
  | nil => rwa [List.append_nil]
  | cons e events ih =>
      have hgoing : .disconnecting ∉ record := hover (by simp)
      have hlast : .released ∉ record := by
        intro hmem
        obtain ⟨past, rest, hrecord⟩ := List.append_of_mem hmem
        refine hgoing ?_
        rw [hrecord]
        exact List.mem_append_left _ (h.released past rest hrecord).1
      have he := hplain e List.mem_cons_self
      have hconcat : ReleaseOrder (record ++ [e]) := by
        refine h.concat (fun hmem => hends hmem e List.mem_cons_self)
          (fun hmem => (hgoing hmem).elim) hlast ?_ ?_ ?_
        · rintro rfl
          exact he.elim
        · rintro rfl
          exact he.elim
        · rintro rfl
          exact he.elim
      have hsame : ∀ mark : LocalOwnerEvent, ¬ mark.Plain →
          (mark ∈ record ++ [e] ↔ mark ∈ record) := by
        intro mark hmark
        have hne : mark ≠ e := fun heq => hmark (heq ▸ he)
        rw [List.mem_append, List.mem_singleton, or_iff_left hne]
      rw [← List.singleton_append, ← List.append_assoc]
      refine ih hconcat (fun x hx => hplain x (List.mem_cons_of_mem _ hx)) (fun hmem x hx => ?_)
        fun _ => ?_
      · exact hends ((hsame _ id).1 hmem) x (List.mem_cons_of_mem _ hx)
      · rw [hsame _ id]
        exact hgoing

/-! ## The tasks of a worker -/

/-- What a step of a worker does to the number of those it accepted, and
to those of its tasks. -/
inductive Census (s s' : LocalForwardWorker) : List LocalOwnerEvent → Prop where
  | same : s'.numbers = s.numbers → s'.accepted = s.accepted → Census s s' []
  | spawn : s'.numbers = s.numbers ++ [s.accepted] → s'.accepted = s.accepted + 1 →
      Census s s' [.spawned s.accepted]
  | leave (number : ℕ) : (number :: s'.numbers).Perm s.numbers → s'.accepted = s.accepted →
      Census s s' [.joined number]

theorem Census.plain {w w' : LocalForwardWorker} (h : Census w w' events) :
    ∀ e ∈ events, e.Plain := by
  intro e he
  cases h with
  | same => exact (List.not_mem_nil he).elim
  | spawn => rw [List.mem_singleton.1 he]; trivial
  | leave => rw [List.mem_singleton.1 he]; trivial

end LocalForwardOwner

namespace LocalForwardWorker

open LocalForwardOwner

variable {w : LocalForwardWorker}

/-- A task that leaves has been one of the tasks. -/
theorem perm_numbers_eraseP {task : ConnectionTask} {number : ℕ}
    (hfound : w.connections.find? (·.number = number) = some task) :
    (number :: (w.connections.eraseP (·.number = number)).map ConnectionTask.number).Perm
      w.numbers := by
  have hmem := List.mem_of_find?_eq_some hfound
  have hnumber : task.number = number := by simpa using List.find?_some hfound
  obtain ⟨leaving, before, after, -, hleaving, heq, herased⟩ :=
    List.exists_of_eraseP hmem (p := (·.number = number)) (by simpa using hnumber)
  have hleaves : leaving.number = number := by simpa using hleaving
  unfold numbers
  rw [herased, heq, List.map_append, List.map_append, List.map_cons, hleaves]
  exact List.perm_middle.symm

theorem same_finish (result : Except LocalForwardError Unit) :
    (w.finish result).numbers = w.numbers ∧ (w.finish result).accepted = w.accepted :=
  ⟨numbers_setReply, rfl⟩

theorem same_callOff : w.callOff.numbers = w.numbers ∧ w.callOff.accepted = w.accepted := by
  unfold callOff
  split
  · exact ⟨numbers_setReply, rfl⟩
  · exact ⟨rfl, rfl⟩

/-- Nobody takes from the queue of a worker that is called off, and
nothing is left in it. -/
theorem idle_callOff (h : w.running = false → w.pending = []) :
    w.callOff.running = false ∧ w.callOff.pending = [] := by
  unfold callOff
  split
  · exact ⟨rfl, rfl⟩
  · rename_i hstopped
    have hidle : w.running = false := Bool.eq_false_iff.2 hstopped
    exact ⟨hidle, h hidle⟩

theorem same_task (number : ℕ) (event : ConnectionEvent) :
    (w.task number event).2.numbers = w.numbers ∧
      (w.task number event).2.accepted = w.accepted := by
  unfold LocalForwardWorker.task
  split
  · exact ⟨rfl, rfl⟩
  · rename_i task hfound
    split
    · exact ⟨rfl, rfl⟩
    · rename_i event' hdelivered
      rcases advance_cases w task event' with
        ⟨host, port, -, heq⟩ | ⟨-, ⟨result, -, heq⟩ | ⟨-, heq⟩⟩
      · rw [heq]
        exact ⟨numbers_replace, rfl⟩
      · rw [heq]
        exact ⟨numbers_replace, rfl⟩
      · rw [heq]
        exact ⟨numbers_replace, rfl⟩

/-- **A connection of a worker that does not run** asks for nothing; it
may have an answer that was sent before. -/
theorem task_of_idle (hidle : w.running = false) (number : ℕ) (event : ConnectionEvent) :
    (w.task number event).2.running = false ∧ (w.task number event).2.pending = w.pending ∧
      ∀ e ∈ (w.task number event).1, ∃ result, e = .received number result := by
  have hsame : w.running = false ∧ w.pending = w.pending ∧
      ∀ e ∈ ([] : List LocalForwardEvent), ∃ result, e = .received number result :=
    ⟨hidle, rfl, fun _ hmem => (List.not_mem_nil hmem).elim⟩
  unfold LocalForwardWorker.task
  split
  · exact hsame
  · rename_i task hfound
    obtain rfl : task.number = number := by simpa using List.find?_some hfound
    split
    · exact hsame
    · rename_i event' hdelivered
      rcases advance_cases w task event' with
        ⟨host, port, hrequests, -⟩ | ⟨-, ⟨result, -, heq⟩ | ⟨-, heq⟩⟩
      · have hqueued := (Handler.control_of_requests hrequests).2.1
        have hrunning := (delivered_of_eq_some hdelivered).taken hqueued
        rw [hidle] at hrunning
        cases hrunning
      · rw [heq]
        exact ⟨hidle, rfl, fun e he => ⟨result, List.mem_singleton.1 he⟩⟩
      · rw [heq]
        exact hsame

theorem census_of_same {input : LocalForwardInput} {w' : LocalForwardWorker}
    (hconnections : w'.connections.length = w.connections.length)
    (haccepted : w'.accepted = w.accepted) : w.census w' input = [] := by
  unfold LocalForwardWorker.census
  split
  · rw [if_pos haccepted]
  · rw [if_pos hconnections]
  · rfl

/-- The tasks stay. -/
theorem census_same {input : LocalForwardInput} {w' : LocalForwardWorker}
    (h : w'.numbers = w.numbers ∧ w'.accepted = w.accepted) :
    Census w w' (w.census w' input) := by
  have hlength := congrArg List.length h.1
  unfold numbers at hlength
  rw [List.length_map, List.length_map] at hlength
  rw [census_of_same hlength h.2]
  exact .same h.1 h.2

theorem census_join (w : LocalForwardWorker) (number : ℕ) :
    Census w (w.join number) (w.census (w.join number) (.join number)) := by
  unfold LocalForwardWorker.join
  split
  · exact census_same ⟨rfl, rfl⟩
  · rename_i task hfound
    split
    · have hleft := perm_numbers_eraseP hfound
      have hlength := hleft.length_eq
      unfold numbers at hlength
      rw [List.length_cons, List.length_map, List.length_map] at hlength
      unfold LocalForwardWorker.census
      dsimp only
      rw [if_neg (by omega)]
      exact .leave number hleft rfl
    · exact census_same ⟨rfl, rfl⟩

theorem census_accept (w : LocalForwardWorker)
    (result : Except IoError (SocketAddr × List UInt8)) :
    Census w (w.accept result) (w.census (w.accept result) (.accept result)) := by
  cases result with
  | error error => exact census_same (same_finish _)
  | ok client =>
      have hspawned : w.census (w.accept (.ok client)) (.accept (.ok client)) =
          [.spawned w.accepted] := if_neg (Nat.succ_ne_self _)
      rw [hspawned]
      exact .spawn List.map_append rfl

/-- **The census of a step** says what became of the tasks. -/
theorem census_step (w : LocalForwardWorker) (input : LocalForwardInput) :
    Census w (w.step input).2 (w.census (w.step input).2 input) := by
  unfold LocalForwardWorker.step
  split
  · exact census_same ⟨rfl, rfl⟩
  · exact census_same (same_task _ _)
  · unfold LocalForwardWorker.poll
    split
    · exact census_same (same_finish _)
    · exact census_same ⟨rfl, rfl⟩
  · unfold LocalForwardWorker.sessionTick
    split
    · exact census_same (same_finish _)
    · exact census_same ⟨rfl, rfl⟩
  · exact census_same ⟨rfl, rfl⟩
  · unfold LocalForwardWorker.pinged
    split
    · exact census_same ⟨rfl, rfl⟩
    · exact census_same (same_finish _)
  · exact census_join w _
  · unfold LocalForwardWorker.receive
    split
    · exact census_same ⟨rfl, rfl⟩
    · exact census_same ⟨rfl, rfl⟩
  · split
    · exact census_same ⟨numbers_setReply, rfl⟩
    · exact census_same ⟨rfl, rfl⟩
  · split
    · exact census_accept w _
    · exact census_same ⟨rfl, rfl⟩
  · exact census_same ⟨rfl, rfl⟩

end LocalForwardWorker

namespace LocalForwardOwner

variable {s s' : LocalForwardOwner} {listener : ListenerRuntime}
variable {record events : List LocalOwnerEvent}

/-! ## The record of an owner -/

/-- The phase that an event marks the beginning of. -/
def mark : LocalOwnerEvent → ℕ
  | .releasing => 1
  | .abortAll => 2
  | .disconnecting => 3
  | .released => 4
  | _ => 0

theorem mark_le (e : LocalOwnerEvent) : mark e ≤ 4 := by
  unfold mark
  split <;> omega

/-- Where the owner is shows in the record. -/
structure Marked (record : List LocalOwnerEvent) (phase : ℕ) : Prop where
  releasing : .releasing ∈ record ↔ 1 ≤ phase
  aborting : .abortAll ∈ record → 2 ≤ phase
  disconnecting : .disconnecting ∈ record ↔ 3 ≤ phase
  released : .released ∈ record ↔ 4 ≤ phase

/-- What is plain leaves no mark. -/
theorem Marked.plain {phase : ℕ} (h : Marked record phase) (hplain : ∀ e ∈ events, e.Plain) :
    Marked (record ++ events) phase := by
  have hsame : ∀ e : LocalOwnerEvent, ¬ e.Plain → (e ∈ record ++ events ↔ e ∈ record) := by
    intro e he
    have hnot : e ∉ events := fun hmem => he (hplain e hmem)
    rw [List.mem_append, or_iff_left hnot]
  exact ⟨(hsame _ id).trans h.releasing, fun hmem => h.aborting ((hsame _ id).1 hmem),
    (hsame _ id).trans h.disconnecting, (hsame _ id).trans h.released⟩

/-- The owner goes on to the phase an event marks. The sessions are
disconnected also where nothing was aborted. -/
theorem Marked.concat {phase : ℕ} (h : Marked record phase) {e : LocalOwnerEvent}
    (hlt : phase < mark e) (hbegan : mark e = 1 ∨ 1 ≤ phase) (hlast : mark e = 4 → phase = 3) :
    Marked (record ++ [e]) (mark e) := by
  have hreleasing := h.releasing
  have haborting := h.aborting
  have hdisconnecting := h.disconnecting
  have hreleased := h.released
  have hmem : ∀ a : LocalOwnerEvent, a ∈ record ++ [e] ↔ a ∈ record ∨ a = e := by
    intro a
    rw [List.mem_append, List.mem_singleton]
  constructor
  · rw [hmem]
    cases e <;> grind [mark]
  · rw [hmem]
    cases e <;> grind [mark]
  · rw [hmem]
    cases e <;> grind [mark]
  · rw [hmem]
    cases e <;> grind [mark]

/-- **What the record says of an owner.** The tasks are those that were
spawned and not yet joined. Where the owner is shows in the record; from
the release on no request is left. The listener is the given one until
it is handed back, and then unless it was to be stopped. -/
structure Recorded (listener : ListenerRuntime) (s : LocalForwardOwner)
    (record : List LocalOwnerEvent) : Prop where
  order : ReleaseOrder record
  numbered : spawned record = List.range s.worker.accepted
  tasks : (joined record ++ s.worker.numbers).Perm (spawned record)
  marked : Marked record s.control.phase
  idle : 1 ≤ s.control.phase → s.worker.running = false ∧ s.worker.pending = []
  emptied : 3 ≤ s.control.phase → s.worker.connections = []
  kept : s.control.phase ≤ 3 → s.listener = listener
  handed : ∀ result, s.control = .released result →
    if s.stopping then
      s.listener = (ListenerRuntime.stop.run listener).2 ∧
        result = (ListenerRuntime.stop.run listener).1.mapError .shutdown
    else s.listener = listener ∧ result = .ok ()

/-- **The owner stays where it is**, and what is seen is of the worker
and its tasks. -/
theorem Recorded.plain (h : Recorded listener s record) (hplain : ∀ e ∈ events, e.Plain)
    (hends : 1 ≤ s.control.phase → ∀ e ∈ events, e.Ends)
    (hover : 3 ≤ s.control.phase → events = [])
    (hcontrol : s'.control = s.control) (hlistener : s'.listener = s.listener)
    (hstopping : s'.stopping = s.stopping)
    (hnumbered : spawned (record ++ events) = List.range s'.worker.accepted)
    (htasks : (joined (record ++ events) ++ s'.worker.numbers).Perm (spawned (record ++ events)))
    (hidle : 1 ≤ s.control.phase → s'.worker.running = false ∧ s'.worker.pending = [])
    (hconnections : 3 ≤ s.control.phase → s'.worker.connections = []) :
    Recorded listener s' (record ++ events) where
  order := by
    refine h.order.plain hplain (fun hmem => hends (h.marked.releasing.1 hmem)) fun hne hmem => ?_
    exact hne (hover (h.marked.disconnecting.1 hmem))
  numbered := hnumbered
  tasks := htasks
  marked := by rw [hcontrol]; exact h.marked.plain hplain
  idle := by rw [hcontrol]; exact hidle
  emptied := by rw [hcontrol]; exact hconnections
  kept := by rw [hcontrol, hlistener]; exact h.kept
  handed := by rw [hcontrol, hlistener, hstopping]; exact h.handed

theorem spawned_worker (events : List LocalForwardEvent) :
    spawned (events.map LocalOwnerEvent.worker) = [] := by
  rw [spawned, List.filterMap_map]
  exact List.filterMap_eq_nil_iff.2 fun _ _ => rfl

theorem joined_worker (events : List LocalForwardEvent) :
    joined (events.map LocalOwnerEvent.worker) = [] := by
  rw [joined, List.filterMap_map]
  exact List.filterMap_eq_nil_iff.2 fun _ _ => rfl

/-- The tasks are still those spawned and not joined. -/
theorem Census.recorded {w w' : LocalForwardWorker} (h : Census w w' events)
    (hnumbered : spawned record = List.range w.accepted)
    (htasks : (joined record ++ w.numbers).Perm (spawned record)) :
    spawned (record ++ events) = List.range w'.accepted ∧
      (joined (record ++ events) ++ w'.numbers).Perm (spawned (record ++ events)) := by
  rw [spawned_append, joined_append]
  cases h with
  | same hnumbers haccepted =>
      rw [hnumbers, haccepted]
      have hnone : spawned [] = [] ∧ joined [] = [] := ⟨rfl, rfl⟩
      rw [hnone.1, hnone.2, List.append_nil, List.append_nil]
      exact ⟨hnumbered, htasks⟩
  | spawn hnumbers haccepted =>
      have hone : spawned [.spawned w.accepted] = [w.accepted] ∧
          joined [.spawned w.accepted] = [] := ⟨rfl, rfl⟩
      rw [hone.1, hone.2, List.append_nil, hnumbers, haccepted, List.range_succ, ← hnumbered,
        ← List.append_assoc]
      exact ⟨rfl, htasks.append_right _⟩
  | leave number hleft haccepted =>
      have hone : spawned [.joined number] = [] ∧ joined [.joined number] = [number] := ⟨rfl, rfl⟩
      rw [hone.1, hone.2, List.append_nil, haccepted, List.append_assoc, List.singleton_append]
      exact ⟨hnumbered, (hleft.append_left _).trans htasks⟩

/-- The worker runs. -/
theorem Recorded.serve (h : Recorded listener s record) (hcontrol : s.control = .running)
    (input : LocalForwardInput) :
    Recorded listener (s.serve input).2 (record ++ (s.serve input).1) := by
  have hphase : s.control.phase = 0 := by rw [hcontrol]; rfl
  have hcensus := LocalForwardWorker.census_step s.worker input
  have hworker : ∀ e ∈ (s.worker.step input).1.map LocalOwnerEvent.worker, e.Plain := by
    intro e he
    obtain ⟨event, -, rfl⟩ := List.mem_map.1 he
    trivial
  have hplain : ∀ e ∈ (s.serve input).1, e.Plain := by
    intro e he
    rcases List.mem_append.1 he with he | he
    · exact hworker e he
    · exact hcensus.plain e he
  have hbefore : spawned (record ++ (s.worker.step input).1.map .worker) =
      List.range s.worker.accepted ∧
      (joined (record ++ (s.worker.step input).1.map .worker) ++ s.worker.numbers).Perm
        (spawned (record ++ (s.worker.step input).1.map .worker)) := by
    rw [spawned_append, joined_append, spawned_worker, joined_worker, List.append_nil,
      List.append_nil]
    exact ⟨h.numbered, h.tasks⟩
  obtain ⟨hnumbered, htasks⟩ := hcensus.recorded hbefore.1 hbefore.2
  rw [List.append_assoc] at hnumbered htasks
  exact h.plain hplain (by omega) (by omega) rfl rfl rfl hnumbered htasks (by omega) (by omega)

/-- A connection goes on, and the owner with it. -/
theorem Recorded.task (h : Recorded listener s record) (hended : 1 ≤ s.control.phase)
    (number : ℕ) (event : ConnectionEvent) :
    Recorded listener (s.task number event).2 (record ++ (s.task number event).1) := by
  obtain ⟨hidle, hpending⟩ := h.idle hended
  obtain ⟨hidle', hpending', hreceived⟩ := LocalForwardWorker.task_of_idle hidle number event
  obtain ⟨hnumbers, haccepted⟩ := LocalForwardWorker.same_task (w := s.worker) number event
  have hevents : ∀ e ∈ (s.task number event).1,
      ∃ result, e = .worker (.received number result) := by
    intro e he
    obtain ⟨worker, hworker, rfl⟩ := List.mem_map.1 he
    obtain ⟨result, rfl⟩ := hreceived worker hworker
    exact ⟨result, rfl⟩
  have hover : 3 ≤ s.control.phase → s.worker.task number event = ([], s.worker) := by
    intro hlate
    unfold LocalForwardWorker.task
    rw [h.emptied hlate]
    rfl
  have hsame : spawned (s.task number event).1 = [] ∧ joined (s.task number event).1 = [] :=
    ⟨spawned_worker _, joined_worker _⟩
  refine h.plain (fun e he => ?_) (fun _ e he => ?_) (fun hlate => ?_) rfl rfl rfl ?_ ?_
    (fun _ => ⟨hidle', hpending'.trans hpending⟩) fun hlate => ?_
  · obtain ⟨result, rfl⟩ := hevents e he
    trivial
  · obtain ⟨result, rfl⟩ := hevents e he
    trivial
  · show (s.worker.task number event).1.map _ = []
    rw [hover hlate]
    rfl
  · rw [spawned_append, hsame.1, List.append_nil, h.numbered]
    exact congrArg List.range haccepted.symm
  · rw [spawned_append, joined_append, hsame.1, hsame.2, List.append_nil, List.append_nil]
    show (_ ++ (s.worker.task number event).2.numbers).Perm _
    rw [hnumbers]
    exact h.tasks
  · show (s.worker.task number event).2.connections = []
    rw [hover hlate]
    exact h.emptied hlate

/-- An event that marks a phase is none of a task. -/
theorem tasks_of_mark {e : LocalOwnerEvent} (hmark : 0 < mark e) :
    spawned (record ++ [e]) = spawned record ∧ joined (record ++ [e]) = joined record := by
  have hnone : spawned [e] = [] ∧ joined [e] = [] := by
    cases e with
    | worker event => exact ⟨rfl, rfl⟩
    | spawned number => exact absurd hmark (Nat.lt_irrefl 0)
    | joined number => exact absurd hmark (Nat.lt_irrefl 0)
    | _ => exact ⟨rfl, rfl⟩
  rw [spawned_append, joined_append, hnone.1, hnone.2, List.append_nil, List.append_nil]
  exact ⟨rfl, rfl⟩

/-- A phase begins where the order allows it. -/
theorem Recorded.order_mark (h : Recorded listener s record) {e : LocalOwnerEvent}
    (hlt : s.control.phase < mark e) (hbegan : mark e = 1 ∨ 1 ≤ s.control.phase)
    (hlast : mark e = 4 → s.control.phase = 3)
    (hdrained : mark e = 3 → s.worker.connections = []) : ReleaseOrder (record ++ [e]) := by
  have hreleasing := h.marked.releasing
  have haborting := h.marked.aborting
  have hdisconnecting := h.marked.disconnecting
  have hreleased := h.marked.released
  refine h.order.concat (fun hmem => ?_) (fun hmem => ?_) (fun hmem => ?_) ?_ ?_ ?_
  · have hphase := hreleasing.1 hmem
    cases e with
    | worker event => exact absurd hlt (Nat.not_lt_zero _)
    | spawned number => exact absurd hlt (Nat.not_lt_zero _)
    | releasing => exact absurd (Nat.lt_of_le_of_lt hphase hlt) (Nat.lt_irrefl 1)
    | _ => trivial
  · have hphase := hdisconnecting.1 hmem
    cases e with
    | released => rfl
    | worker event => exact absurd hlt (Nat.not_lt_zero _)
    | spawned number => exact absurd hlt (Nat.not_lt_zero _)
    | joined number => exact absurd hlt (Nat.not_lt_zero _)
    | releasing => exact absurd (Nat.lt_of_le_of_lt hphase hlt) (by decide)
    | abortAll => exact absurd (Nat.lt_of_le_of_lt hphase hlt) (by decide)
    | disconnecting => exact absurd (Nat.lt_of_le_of_lt hphase hlt) (by decide)
  · have hphase := hreleased.1 hmem
    have hle := mark_le e
    omega
  · rintro rfl
    have hmark : mark .abortAll = 2 := rfl
    refine ⟨hreleasing.2 (by omega), fun hmem => ?_⟩
    have hphase := haborting hmem
    omega
  · rintro rfl
    have hmark : mark .disconnecting = 3 := rfl
    have htasks := h.tasks
    unfold LocalForwardWorker.numbers at htasks
    rw [hdrained rfl, List.map_nil, List.append_nil] at htasks
    exact ⟨hreleasing.2 (by omega), htasks⟩
  · rintro rfl
    have hphase := hlast rfl
    exact hdisconnecting.2 (by omega)

/-- **The owner goes on to the next phase**, with the same tasks. -/
theorem Recorded.turn (h : Recorded listener s record) {e : LocalOwnerEvent}
    (hmark : s'.control.phase = mark e) (hlt : s.control.phase < mark e)
    (hbegan : mark e = 1 ∨ 1 ≤ s.control.phase) (hlast : mark e = 4 → s.control.phase = 3)
    (hnumbers : s'.worker.numbers = s.worker.numbers)
    (haccepted : s'.worker.accepted = s.worker.accepted)
    (hidle : s'.worker.running = false ∧ s'.worker.pending = [])
    (hdrained : 3 ≤ mark e → s.worker.connections = [])
    (hlistener : mark e ≤ 3 → s'.listener = s.listener)
    (hhanded : ∀ result, s'.control = .released result →
      if s'.stopping then
        s'.listener = (ListenerRuntime.stop.run listener).2 ∧
          result = (ListenerRuntime.stop.run listener).1.mapError .shutdown
      else s'.listener = listener ∧ result = .ok ()) : Recorded listener s' (record ++ [e]) := by
  obtain ⟨hspawned, hjoined⟩ : spawned (record ++ [e]) = spawned record ∧
      joined (record ++ [e]) = joined record := tasks_of_mark (Nat.zero_lt_of_lt hlt)
  constructor
  case order => exact h.order_mark hlt hbegan hlast fun heq => hdrained (by omega)
  case numbered => rw [hspawned, haccepted, h.numbered]
  case tasks =>
    rw [hspawned, hjoined, hnumbers]
    exact h.tasks
  case marked =>
    rw [hmark]
    exact h.marked.concat hlt hbegan hlast
  case idle => exact fun _ => hidle
  case emptied =>
    intro hlate
    rw [hmark] at hlate
    have hnone := hnumbers
    unfold LocalForwardWorker.numbers at hnone
    rw [hdrained hlate, List.map_nil, List.map_eq_nil_iff] at hnone
    exact hnone
  case kept =>
    intro hearly
    rw [hmark] at hearly
    exact (hlistener hearly).trans (h.kept (by omega))
  case handed => exact hhanded

/-- **The release.** -/
theorem Recorded.release (h : Recorded listener s record) (hcontrol : s.control = .running)
    (hclosed : s.worker.running = false → s.worker.pending = []) (stop : Bool) :
    Recorded listener (s.release stop).2 (record ++ (s.release stop).1) := by
  have hphase : s.control.phase = 0 := by rw [hcontrol]; rfl
  obtain ⟨hnumbers, haccepted⟩ := LocalForwardWorker.same_callOff (w := s.worker)
  have hmark : mark .releasing = 1 := rfl
  refine h.turn (e := .releasing) rfl (by omega) (.inl rfl) (by omega) hnumbers haccepted
    (LocalForwardWorker.idle_callOff hclosed) (by omega) (fun _ => rfl) ?_
  intro result heq
  cases heq

/-- The tasks that are left are aborted. -/
theorem Recorded.abort (h : Recorded listener s record) (hcontrol : s.control = .draining) :
    Recorded listener { s with control := .aborting } (record ++ [.abortAll]) := by
  have hphase : s.control.phase = 1 := by rw [hcontrol]; rfl
  have hmark : mark .abortAll = 2 := rfl
  refine h.turn (e := .abortAll) rfl (by omega) (by omega) (by omega) rfl rfl (h.idle (by omega))
    (by omega) (fun _ => rfl) ?_
  intro result heq
  cases heq

/-- Nobody is left to join. -/
theorem Recorded.drained (h : Recorded listener s record) (hbegan : 1 ≤ s.control.phase)
    (hearly : s.control.phase ≤ 2) :
    Recorded listener s.drained.2 (record ++ s.drained.1) := by
  unfold LocalForwardOwner.drained
  split
  · rename_i hempty
    have hmark : mark .disconnecting = 3 := rfl
    refine h.turn (e := .disconnecting) rfl (by omega) (.inr hbegan) (by omega) rfl rfl
      (h.idle hbegan) (fun _ => List.isEmpty_iff.1 hempty) (fun _ => rfl) ?_
    intro result heq
    cases heq
  · rwa [List.append_nil]

theorem finish_of_stopping (h : s.stopping = true) :
    s.finish = ([.released], { s with
      listener := (ListenerRuntime.stop.run s.listener).2
      control := .released ((ListenerRuntime.stop.run s.listener).1.mapError .shutdown) }) := by
  unfold LocalForwardOwner.finish
  rw [if_pos h]
  rfl

theorem finish_of_keeping (h : s.stopping = false) :
    s.finish = ([.released], { s with control := .released (.ok ()) }) := by
  unfold LocalForwardOwner.finish
  rw [if_neg (Bool.eq_false_iff.1 h)]

/-- **The listener goes back.** -/
theorem Recorded.finish (h : Recorded listener s record) (hcontrol : s.control = .disconnecting) :
    Recorded listener s.finish.2 (record ++ s.finish.1) := by
  have hphase : s.control.phase = 3 := by rw [hcontrol]; rfl
  have hlistener := h.kept (by omega)
  have hover := h.emptied (by omega)
  have hmark : mark .released = 4 := rfl
  cases hstopping : s.stopping with
  | true =>
      rw [finish_of_stopping hstopping, hlistener]
      refine h.turn (e := .released) rfl (by omega) (by omega) (fun _ => hphase) rfl rfl
        (h.idle (by omega)) (fun _ => hover) (by omega) fun result heq => ?_
      obtain rfl := LocalOwnerControl.released.inj heq
      exact (if_pos hstopping).mpr ⟨rfl, rfl⟩
  | false =>
      rw [finish_of_keeping hstopping]
      refine h.turn (e := .released) rfl (by omega) (by omega) (fun _ => hphase) rfl rfl
        (h.idle (by omega)) (fun _ => hover) (by omega) fun result heq => ?_
      obtain rfl := LocalOwnerControl.released.inj heq
      exact (if_neg (Bool.eq_false_iff.1 hstopping)).mpr ⟨hlistener, rfl⟩

/-- **A task is joined.** -/
theorem Recorded.remove (h : Recorded listener s record) (hbegan : 1 ≤ s.control.phase)
    (hearly : s.control.phase ≤ 2) {number : ℕ} {task : ConnectionTask}
    (hfound : s.worker.connections.find? (·.number = number) = some task) :
    Recorded listener (s.remove number).2 (record ++ (s.remove number).1) := by
  have hcensus : Census s.worker (s.remove number).2.worker [.joined number] :=
    .leave number (LocalForwardWorker.perm_numbers_eraseP hfound) rfl
  obtain ⟨hnumbered, htasks⟩ := hcensus.recorded h.numbered h.tasks
  refine h.plain hcensus.plain (fun _ e he => ?_) (by omega) rfl rfl rfl hnumbered htasks
    h.idle (by omega)
  rw [List.mem_singleton.1 he]
  trivial

/-! ## The run -/

/-- The record, and the worker's own while it runs. -/
def Kept (listener : ListenerRuntime) (s : LocalForwardOwner) (record : List LocalOwnerEvent) :
    Prop :=
  Recorded listener s record ∧
    (s.control = .running → ∃ past, LocalForwardWorker.Inv s.worker past)

theorem kept_start (mode : ForwardMode) (listener : ListenerRuntime) :
    Kept listener (start mode listener) [] := by
  have hnone : ∀ {mark : LocalOwnerEvent} {P : List LocalOwnerEvent → List LocalOwnerEvent → Prop}
      (past rest : List LocalOwnerEvent), [] = past ++ mark :: rest → P past rest := by
    intro mark P past rest heq
    exact absurd heq.symm (List.append_ne_nil_of_right_ne_nil _ (List.cons_ne_nil _ _))
  refine ⟨⟨⟨hnone, hnone, hnone, hnone⟩, rfl, List.Perm.refl _, ⟨?_, ?_, ?_, ?_⟩, ?_, ?_,
    fun _ => rfl, ?_⟩, fun _ => ⟨[], LocalForwardWorker.inv_start mode⟩⟩
  · simp [start, LocalOwnerControl.phase]
  · intro hmem
    exact (List.not_mem_nil hmem).elim
  · simp [start, LocalOwnerControl.phase]
  · simp [start, LocalOwnerControl.phase]
  · intro hbegan
    exact absurd hbegan (Nat.not_succ_le_zero 0)
  · intro hlate
    exact absurd hlate (Nat.not_succ_le_zero 2)
  · intro result heq
    cases heq

/-- Where the owner is past the release, only the record is kept. -/
theorem Recorded.keeps (h : Recorded listener s record) (hbegan : 1 ≤ s.control.phase) :
    Kept listener s record := by
  refine ⟨h, fun hcontrol => ?_⟩
  rw [hcontrol] at hbegan
  exact absurd hbegan (by decide)

/-- What a step may be once the release began. -/
inductive Onward (s : LocalForwardOwner) : List LocalOwnerEvent × LocalForwardOwner → Prop where
  | stays : Onward s ([], s)
  | cancels : Onward s ([], { s with worker := { s.worker with cancelled := true } })
  | goes (number : ℕ) (event : ConnectionEvent) : Onward s (s.task number event)
  | removes (number : ℕ) (task : ConnectionTask) : s.control.phase ≤ 2 →
      s.worker.connections.find? (·.number = number) = some task → Onward s (s.remove number)
  | aborts : s.control = .draining → Onward s ([.abortAll], { s with control := .aborting })
  | drained : s.control.phase ≤ 2 → Onward s s.drained
  | finishes : s.control = .disconnecting → Onward s s.finish

theorem onward_step (hbegan : 1 ≤ s.control.phase) (input : LocalOwnerInput) :
    Onward s (s.step input) := by
  have hphase : ∀ {control}, s.control = control → s.control.phase = control.phase :=
    fun heq => congrArg _ heq
  have hstarted : s.control ≠ .running := by
    intro hcontrol
    rw [hcontrol] at hbegan
    exact absurd hbegan (by decide)
  unfold LocalForwardOwner.step
  split
  · rename_i hcontrol
    exact (hstarted hcontrol).elim
  · rename_i hcontrol
    exact (hstarted hcontrol).elim
  · exact .cancels
  · exact .goes _ _
  · rename_i number hcontrol
    unfold joinReturned
    split
    · exact .stays
    · rename_i task hfound
      split
      · exact .removes number task ((hphase hcontrol).trans_le (by decide)) hfound
      · exact .stays
  · rename_i hcontrol
    split
    · exact .stays
    · exact .aborts hcontrol
  · rename_i number hcontrol
    unfold joinAborted
    split
    · exact .stays
    · rename_i task hfound
      exact .removes number task ((hphase hcontrol).trans_le (by decide)) hfound
  · rename_i hcontrol
    exact .drained ((hphase hcontrol).trans_le (by decide))
  · rename_i hcontrol
    exact .drained ((hphase hcontrol).trans_le (by decide))
  · rename_i hcontrol
    exact .finishes hcontrol
  · exact .stays

theorem Recorded.onward (h : Recorded listener s record) (hbegan : 1 ≤ s.control.phase)
    {next : List LocalOwnerEvent × LocalForwardOwner} (hnext : Onward s next) :
    Recorded listener next.2 (record ++ next.1) := by
  cases hnext with
  | stays => rwa [List.append_nil]
  | cancels =>
      rw [List.append_nil]
      exact ⟨h.order, h.numbered, h.tasks, h.marked, h.idle, h.emptied, h.kept, h.handed⟩
  | goes number event => exact h.task hbegan number event
  | removes number task hearly hfound => exact h.remove hbegan hearly hfound
  | aborts hcontrol => exact h.abort hcontrol
  | drained hearly => exact h.drained hbegan hearly
  | finishes hcontrol => exact h.finish hcontrol

/-- There is no way back. -/
theorem Onward.phase_le {next : List LocalOwnerEvent × LocalForwardOwner} (h : Onward s next) :
    s.control.phase ≤ next.2.control.phase := by
  cases h with
  | aborts hcontrol =>
      rw [hcontrol]
      exact Nat.le_succ 1
  | drained hearly =>
      unfold LocalForwardOwner.drained
      split
      · exact Nat.le_succ_of_le hearly
      · exact Nat.le_refl _
  | finishes hcontrol =>
      rw [hcontrol]
      unfold LocalForwardOwner.finish
      split <;> exact Nat.le_succ 3
  | _ => exact Nat.le_refl _

/-- Nobody new has to be joined. -/
theorem Onward.sublist {next : List LocalOwnerEvent × LocalForwardOwner} (h : Onward s next) :
    next.2.worker.numbers.Sublist s.worker.numbers := by
  cases h with
  | goes number event =>
      show (s.worker.task number event).2.numbers.Sublist _
      rw [(LocalForwardWorker.same_task number event).1]
  | removes number task =>
      exact (List.eraseP_sublist (l := s.worker.connections)).map _
  | drained =>
      unfold LocalForwardOwner.drained
      split <;> exact List.Sublist.refl _
  | finishes =>
      unfold LocalForwardOwner.finish
      split <;> exact List.Sublist.refl _
  | _ => exact List.Sublist.refl _

/-- **Every step keeps the record.** -/
theorem Kept.step (h : Kept listener s record) (input : LocalOwnerInput) :
    Kept listener (s.step input).2 (record ++ (s.step input).1) := by
  obtain ⟨hr, hworker⟩ := h
  rcases Nat.eq_zero_or_pos s.control.phase with hphase | hbegan
  · have hcontrol : s.control = .running := by
      cases hcontrol : s.control with
      | running => rfl
      | _ => rw [hcontrol] at hphase; cases hphase
    obtain ⟨past, hinv⟩ := hworker hcontrol
    have hstays : Kept listener s (record ++ []) := by
      rw [List.append_nil]
      exact ⟨hr, hworker⟩
    cases input with
    | worker input =>
        have heq : s.step (.worker input) = s.serve input := by
          unfold LocalForwardOwner.step
          rw [hcontrol]
        rw [heq]
        exact ⟨hr.serve hcontrol input, fun _ => ⟨_, hinv.step input⟩⟩
    | release stop =>
        have heq : s.step (.release stop) = s.release stop := by
          unfold LocalForwardOwner.step
          rw [hcontrol]
        obtain ⟨-, gone, howned⟩ := hinv
        rw [heq]
        exact (hr.release hcontrol howned.closed stop).keeps (Nat.le_refl 1)
    | _ =>
        unfold LocalForwardOwner.step
        rw [hcontrol]
        exact hstays
  · have hnext := onward_step hbegan input
    exact (hr.onward hbegan hnext).keeps (Nat.le_trans hbegan hnext.phase_le)

theorem kept_run (mode : ForwardMode) (listener : ListenerRuntime)
    (inputs : List LocalOwnerInput) :
    Kept listener (runState step (start mode listener) inputs)
      (answers step (start mode listener) inputs) :=
  answers_invariant (kept_start mode listener) (fun _ _ input h => h.step input) inputs

/-- **A worker ends in order.** However its polls, its connections, the
token and the owner follow each other, a release begins once, and from
then on nobody is accepted and no request is made or answered. Every task
that was spawned is joined, each once, before the chain is disconnected;
the listener is the one that was given until then, and stopped after it
only if it was to be. -/
theorem release_in_order (mode : ForwardMode) (listener : ListenerRuntime)
    (inputs : List LocalOwnerInput) :
    Recorded listener (runState step (start mode listener) inputs)
      (answers step (start mode listener) inputs) :=
  (kept_run mode listener inputs).1

/-! ## The end of a release -/

/-- What the owner waits for, at the latest: the deadline, the tasks it
then aborts, and the disconnect. -/
def deadline (numbers : List ℕ) : List LocalOwnerInput :=
  .elapsed :: numbers.map .join ++ [.poll, .disconnected]

/-- Once the release began, and the tasks are among these. Past the
tasks nobody is left to join. -/
structure Closing (numbers : List ℕ) (s : LocalForwardOwner) : Prop where
  began : 1 ≤ s.control.phase
  nodup : s.worker.numbers.Nodup
  subset : s.worker.numbers ⊆ numbers
  emptied : 3 ≤ s.control.phase → s.worker.numbers = []

/-- **What is still due.** After the deadline there is nobody whose end
is waited for without abort; after the joins, nobody at all. -/
inductive Due (s : LocalForwardOwner) : List LocalOwnerInput → Prop where
  | deadline {numbers : List ℕ} : Closing numbers s → Due s (deadline numbers)
  | joins {numbers : List ℕ} : Closing numbers s →
      (s.control = .draining → s.worker.numbers = []) →
      Due s (numbers.map .join ++ [.poll, .disconnected])
  | disconnected : 3 ≤ s.control.phase → Due s [.disconnected]
  | nothing : 4 ≤ s.control.phase → Due s []

/-- Nobody is left once the session is being disconnected. -/
theorem Onward.emptied {next : List LocalOwnerEvent × LocalForwardOwner} (h : Onward s next)
    (hover : 3 ≤ s.control.phase → s.worker.numbers = [])
    (hlate : 3 ≤ next.2.control.phase) : next.2.worker.numbers = [] := by
  have hsublist := h.sublist
  have hbefore : 3 ≤ s.control.phase → next.2.worker.numbers = [] := by
    intro hphase
    rw [hover hphase] at hsublist
    exact List.sublist_nil.1 hsublist
  cases h with
  | aborts => exact absurd hlate (Nat.not_succ_le_self 2)
  | drained =>
      unfold LocalForwardOwner.drained at hlate hbefore ⊢
      split at hlate
      · rename_i hempty
        rw [if_pos hempty]
        show s.worker.connections.map _ = []
        rw [List.isEmpty_iff.1 hempty]
        rfl
      · exact hbefore hlate
  | finishes hcontrol =>
      refine hbefore ?_
      rw [hcontrol]
      exact Nat.le_refl 3
  | _ => exact hbefore hlate

theorem Closing.step {numbers : List ℕ} (h : Closing numbers s) (input : LocalOwnerInput) :
    Closing numbers (s.step input).2 := by
  have hnext := onward_step h.began input
  have hsublist := hnext.sublist
  exact ⟨Nat.le_trans h.began hnext.phase_le, h.nodup.sublist hsublist,
    fun number hnumber => h.subset (hsublist.subset hnumber), hnext.emptied h.emptied⟩

theorem draining_of_phase (hbegan : 1 ≤ s.control.phase) (hearly : s.control.phase ≤ 1) :
    s.control = .draining := by
  cases hcontrol : s.control with
  | draining => rfl
  | _ =>
      rw [hcontrol] at hbegan hearly
      simp [LocalOwnerControl.phase] at hbegan hearly

/-- Nothing makes more of it due. -/
theorem Due.step {due : List LocalOwnerInput} (h : Due s due) (input : LocalOwnerInput) :
    Due (s.step input).2 due := by
  cases h with
  | deadline h => exact .deadline (h.step input)
  | joins h hdraining =>
      have hnext := onward_step h.began input
      refine .joins (h.step input) fun hcontrol => ?_
      have hphase := hnext.phase_le
      rw [hcontrol] at hphase
      have hsublist := hnext.sublist
      rw [hdraining (draining_of_phase h.began hphase)] at hsublist
      exact List.sublist_nil.1 hsublist
  | disconnected h =>
      have hnext := onward_step (Nat.le_trans (by decide) h) input
      exact .disconnected (Nat.le_trans h hnext.phase_le)
  | nothing h =>
      have hnext := onward_step (Nat.le_trans (by decide) h) input
      exact .nothing (Nat.le_trans h hnext.phase_le)

/-- After the deadline the tasks are aborted. -/
theorem Closing.elapsed {numbers : List ℕ} (h : Closing numbers s)
    (hcontrol : (s.step .elapsed).2.control = .draining) :
    (s.step .elapsed).2.worker.numbers = [] := by
  have hphase := (onward_step h.began .elapsed).phase_le
  rw [hcontrol] at hphase
  have hdraining := draining_of_phase h.began hphase
  unfold LocalForwardOwner.step at hcontrol ⊢
  rw [hdraining] at hcontrol ⊢
  dsimp only at hcontrol ⊢
  split at hcontrol
  · rename_i hempty
    rw [if_pos hempty]
    show s.worker.connections.map _ = []
    rw [List.isEmpty_iff.1 hempty]
    rfl
  · cases hcontrol

/-- A task whose join is due is joined. -/
theorem Closing.join {number : ℕ} {numbers : List ℕ} (h : Closing (number :: numbers) s)
    (hdraining : s.control = .draining → s.worker.numbers = []) :
    Closing numbers (s.step (.join number)).2 := by
  have hclosing := h.step (.join number)
  refine ⟨hclosing.began, hclosing.nodup, fun other hother => ?_, hclosing.emptied⟩
  have hsublist := (onward_step h.began (.join number)).sublist
  rcases List.mem_cons.1 (hclosing.subset hother) with rfl | hmem
  · -- the one that was joined is not left
    exfalso
    have hbefore := hsublist.subset hother
    cases hcontrol : s.control with
    | running =>
        have hbegan := h.began
        rw [hcontrol] at hbegan
        exact absurd hbegan (by decide)
    | draining =>
        rw [hdraining hcontrol] at hbefore
        exact List.not_mem_nil hbefore
    | aborting =>
        have heq : s.step (.join other) = s.joinAborted other := by
          unfold LocalForwardOwner.step
          rw [hcontrol]
        rw [heq] at hother
        unfold joinAborted at hother
        split at hother
        · rename_i hnone
          obtain ⟨task, htask, hnumber⟩ := List.mem_map.1 hbefore
          exact List.find?_eq_none.1 hnone task htask (by simpa using hnumber)
        · rename_i task hfound
          have hperm := LocalForwardWorker.perm_numbers_eraseP hfound
          have hnodup := hperm.nodup_iff.2 h.nodup
          exact (List.nodup_cons.1 hnodup).1 hother
    | disconnecting =>
        rw [h.emptied (by rw [hcontrol]; decide)] at hbefore
        exact List.not_mem_nil hbefore
    | released result =>
        rw [h.emptied (by rw [hcontrol]; exact Nat.le_succ 3)] at hbefore
        exact List.not_mem_nil hbefore
  · exact hmem

/-- With nobody left to join, a poll goes on to the disconnect. -/
theorem Closing.poll (h : Closing [] s) : 3 ≤ (s.step .poll).2.control.phase := by
  have hempty : s.worker.connections.isEmpty = true := by
    have hnone := List.eq_nil_of_subset_nil h.subset
    unfold LocalForwardWorker.numbers at hnone
    rw [List.map_eq_nil_iff] at hnone
    rw [hnone]
    rfl
  have hdrained : 3 ≤ s.drained.2.control.phase := by
    unfold LocalForwardOwner.drained
    rw [if_pos hempty]
    exact Nat.le_refl 3
  have hbegan := h.began
  unfold LocalForwardOwner.step
  cases hcontrol : s.control with
  | running =>
      rw [hcontrol] at hbegan
      exact absurd hbegan (by decide)
  | draining => exact hdrained
  | aborting => exact hdrained
  | disconnecting =>
      show 3 ≤ s.control.phase
      rw [hcontrol]
      exact Nat.le_refl 3
  | released result =>
      show 3 ≤ s.control.phase
      rw [hcontrol]
      exact Nat.le_succ 3

theorem phase_disconnected (h : 3 ≤ s.control.phase) :
    4 ≤ (s.step .disconnected).2.control.phase := by
  unfold LocalForwardOwner.step
  cases hcontrol : s.control with
  | disconnecting =>
      dsimp only
      unfold LocalForwardOwner.finish
      split <;> exact Nat.le_refl 4
  | released result =>
      show 4 ≤ s.control.phase
      rw [hcontrol]
      exact Nat.le_refl 4
  | running => rw [hcontrol] at h; exact absurd h (by decide)
  | draining => rw [hcontrol] at h; exact absurd h (by decide)
  | aborting => rw [hcontrol] at h; exact absurd h (by decide)

/-- **What is waited for settles its part.** -/
theorem Due.settle {i : LocalOwnerInput} {due : List LocalOwnerInput} (h : Due s (i :: due)) :
    Due (s.step i).2 due := by
  generalize htodo : i :: due = todo at h
  cases h with
  | deadline h =>
      obtain ⟨rfl, rfl⟩ := List.cons.inj htodo
      exact .joins (h.step .elapsed) h.elapsed
  | @joins numbers h hdraining =>
      cases numbers with
      | nil =>
          obtain ⟨rfl, rfl⟩ := List.cons.inj htodo
          exact .disconnected h.poll
      | cons number numbers =>
          obtain ⟨rfl, rfl⟩ := List.cons.inj htodo
          have hnext := onward_step h.began (.join number)
          refine .joins (h.join hdraining) fun hcontrol => ?_
          have hphase := hnext.phase_le
          rw [hcontrol] at hphase
          have hsublist := hnext.sublist
          rw [hdraining (draining_of_phase h.began hphase)] at hsublist
          exact List.sublist_nil.1 hsublist
  | disconnected h =>
      obtain ⟨rfl, rfl⟩ := List.cons.inj htodo
      exact .nothing (phase_disconnected h)
  | nothing => cases htodo

/-- With nothing due the listener is back. -/
theorem Due.released (h : Due s []) : ∃ result, s.control = .released result := by
  generalize htodo : ([] : List LocalOwnerInput) = todo at h
  cases h with
  | deadline => cases htodo
  | joins => exact absurd htodo.symm (List.append_ne_nil_of_right_ne_nil _ (List.cons_ne_nil _ _))
  | disconnected => cases htodo
  | nothing hlate =>
      cases hcontrol : s.control with
      | released result => exact ⟨result, rfl⟩
      | _ => rw [hcontrol] at hlate; exact absurd hlate (by decide)

/-- **A release ends.** Whatever the connections do, whoever cancels the
tunnel and whenever tasks return: once the deadline is over, the owner
needs nothing but the end of the tasks it has aborted and that of the
disconnect to hand the listener back. -/
theorem release_ends (mode : ForwardMode) (listener : ListenerRuntime)
    (before : List LocalOwnerInput) {inputs : List LocalOwnerInput}
    (hbegan : (runState step (start mode listener) before).control ≠ .running)
    (hdeadline : (deadline
      (runState step (start mode listener) before).worker.numbers).Sublist inputs) :
    ∃ result, (runState step (runState step (start mode listener) before) inputs).control =
      .released result := by
  have hrecorded := release_in_order mode listener before
  generalize runState step (start mode listener) before = s at hbegan hdeadline hrecorded ⊢
  have hphase : 1 ≤ s.control.phase := by
    cases hcontrol : s.control with
    | running => exact (hbegan hcontrol).elim
    | _ => exact Nat.succ_le_succ (Nat.zero_le _)
  have hnodup : s.worker.numbers.Nodup := by
    have htasks := hrecorded.tasks
    rw [hrecorded.numbered] at htasks
    exact (List.nodup_append.1 (htasks.nodup_iff.2 List.nodup_range)).2.1
  have hclosing : Closing s.worker.numbers s := by
    refine ⟨hphase, hnodup, List.Subset.refl _, fun hlate => ?_⟩
    unfold LocalForwardWorker.numbers
    rw [hrecorded.emptied hlate]
    rfl
  have hdue := runState_schedule (P := fun due s => Due s due) (fun _ _ input h => h.step input)
    (fun _ _ _ h => h.settle) hdeadline (.deadline hclosing)
  exact hdue.released

/-- A client is accepted, and has sent nothing yet when the worker is
stopped. -/
def idleClient : List LocalOwnerInput :=
  List.replicate 5 (.worker .poll) ++
    [.worker (.accept (.ok (⟨.v4 127 0 0 1, 50000, 0⟩, []))), .release true]

/-- It is aborted after the deadline, and the session takes a while. -/
def afterDeadline : List LocalOwnerInput :=
  [.poll, .join 0, .elapsed, .worker .cancel, .join 0, .join 0, .poll, .poll, .disconnected]

theorem release_ends_idleClient : ∃ result,
    (runState step (runState step (start .dynamic LocalForwardSupervisor.boundListener) idleClient)
      afterDeadline).control = .released result := by
  refine release_ends .dynamic LocalForwardSupervisor.boundListener idleClient ?_ ?_
  · have hdraining : (runState step (start .dynamic LocalForwardSupervisor.boundListener)
        idleClient).control = .draining := rfl
    rw [hdraining]
    decide
  · have hnumbers : (runState step (start .dynamic LocalForwardSupervisor.boundListener)
        idleClient).worker.numbers = [0] := rfl
    rw [hnumbers]
    show [.elapsed, .join 0, .poll, .disconnected].Sublist afterDeadline
    exact .cons _ (.cons _ (.cons_cons _ (.cons _ (.cons_cons _ (.cons _ (.cons_cons _
      (.cons _ (.cons_cons _ .slnil))))))))

end LocalForwardOwner

end TunnelWarden
