import TunnelWarden.Lifecycle.Listening
import TunnelWarden.Lifecycle.Model.ListenerRuntime
import TunnelWarden.Lifecycle.Stop

/-!
# The socket and what is recorded of it

`ListenerRuntime` keeps its socket in one field and the machine's account
of it in another, and moves the two in several steps with `?` between
them. `Synced` says that they agree. No call can leave them apart,
because none of the transitions after the first one is ever refused:
`Acquiring` is what the machine is while the port is being bound, and
every outcome of the bind has its branch there.
-/

namespace TunnelWarden

namespace Lifecycle

namespace ListenerRuntime

open StateMachine

variable {r r' : ListenerRuntime} {m c : StateMachine} {e : Event} {eff : Option TransitionEffect}
variable {α β : Type}

/-! ## Methods -/

/-- The first part of a method succeeds. -/
theorem bind_of_ok {x : Method α} {f : α → Method β} {a : α} (h : x r = (.ok a, r')) :
    (x >>= f) r = f a r' := by
  change ExceptT.bindCont f (x r).1 (x r).2 = f a r'
  rw [h]
  rfl

/-- The first part of a method fails, and with it the method. -/
theorem bind_of_error {x : Method α} {f : α → Method β} {error : ListenerRuntimeError}
    (h : x r = (.error error, r')) : (x >>= f) r = (.error error, r') := by
  change ExceptT.bindCont f (x r).1 (x r).2 = (.error error, r')
  rw [h]
  rfl

/-- **An event the machine applies**, as a step of a method. -/
theorem exists_transition (h : Applies r.machine e eff c) (hi : Inv r.machine) :
    ∃ m, transition e r = (.ok (.applied eff), { r with machine := m }) ∧ Inv m ∧
      m.state = c.state ∧ m.restartAfterShutdown = c.restartAfterShutdown ∧
      m.listenerRequired = r.machine.listenerRequired := by
  refine ⟨c.record r.machine.phase e.cause, ?_, (hi.applies h).record _ _, rfl, rfl,
    h.listenerRequired⟩
  unfold transition
  rw [h.transition_eq]

theorem transition_of_refused {error : MachineError}
    (h : r.machine.transition e = (.error error, r.machine)) :
    transition e r = (.error (.state error), r) := by
  unfold transition
  rw [h]

/-! ## The machine of a runtime -/

/-- **The port is being bound** under the given generation. -/
structure Acquiring (m : StateMachine) (generation : ℕ) : Prop where
  inv : Inv m
  required : m.listenerRequired = true
  running : m.Running
  runtime : m.state.runtime = .starting .acquiringListener
  unbound : m.state.listener = .unbound
  generation_eq : m.state.generation = generation

/-- **The socket is owned exactly where the listener is recorded as
bound**, and no shutdown is under way between two calls. -/
structure Synced (r : ListenerRuntime) : Prop where
  inv : Inv r.machine
  required : r.machine.listenerRequired = true
  settled : r.machine.phase ≠ .stopping
  owned : r.listener.isSome ↔ r.machine.IsBound

theorem synced_new : Synced new :=
  ⟨inv_new true, rfl, by simp [new, StateMachine.phase, StateMachine.new], by
    simp [new, IsBound, StateMachine.new, idleListener]⟩

/-- A stopped runtime owns no socket. -/
theorem Synced.listener_none (h : Synced r) (hp : r.machine.phase = .stopped) :
    r.listener = none := by
  have hidle := (h.inv.of_stopped hp).2.2.1
  rw [h.required] at hidle
  have hnot : ¬ r.listener.isSome := by
    rw [h.owned]
    rintro ⟨a, ha⟩
    rw [hidle] at ha
    cases ha
  simpa using hnot

/-! ## Starting -/

/-- What `start_listener` does with the outcome of the bind. -/
def afterBind (generation : ℕ) (address : SocketAddr) (bind : BindOutcome) (now : Instant) :
    Method ℕ :=
  match bind with
  | .bound listener (.ok boundAddress) _ => do
    let _ ← transition (.listenerBound generation boundAddress)
    modify fun runtime => { runtime with listener := some listener }
    let _ ← transition (.phase generation .buildingJumpChain)
    return generation
  | .bound _ (.error source) _ | .refused source => do
    recordBindFailure generation address source now
    throw (.bind address source)

/-- Only a stopped runtime is started. -/
theorem transition_start_refused (hp : r.machine.phase ≠ .stopped) :
    transition .start r =
      (.error (.state (.invalidTransition "start" r.machine.phase)), r) := by
  refine transition_of_refused ?_
  simp [StateMachine.transition, Event.generation, hp, invalid, Event.cause]

/-- And only while there is a generation left. -/
theorem transition_start_exhausted (hp : r.machine.phase = .stopped)
    (hg : ¬ r.machine.state.generation < generationMax) :
    transition .start r = (.error (.state .generationExhausted), r) := by
  refine transition_of_refused ?_
  simp [StateMachine.transition, Event.generation, hp, withNextGeneration_eq, hg]

/-- **A start gets as far as the bind.** What is left is the same for a
start that is dropped there and for one that goes on. -/
theorem exists_acquiring (h : Synced r) (hp : r.machine.phase = .stopped)
    (hg : r.machine.state.generation < generationMax) :
    ∃ m, Acquiring m (r.machine.state.generation + 1) ∧
      startDropped r = (.ok (), { r with machine := m }) ∧
      ∀ address bind now, startListener address bind now r =
        afterBind (r.machine.state.generation + 1) address bind now { r with machine := m } := by
  obtain ⟨m₁, hstart, hinv₁, hstate₁, -, hreq₁⟩ := exists_transition (.start hp hg) h.inv
  have hgen₁ : m₁.state.generation = r.machine.state.generation + 1 := by rw [hstate₁]; rfl
  have hlist₁ : m₁.state.listener = .unbound := by
    rw [hstate₁]
    simp [begin, bump, h.required, idleListener]
  have hphase₁ : m₁.phase = .starting := by rw [StateMachine.phase, hstate₁]; rfl
  have hrun₁ : m₁.Running := ⟨by rw [hstate₁]; rfl, by simp [hphase₁]⟩
  obtain ⟨m₂, hphase, hinv₂, hstate₂, -, hreq₂⟩ :=
    exists_transition (r := { r with machine := m₁ }) (.phase (p := .acquiringListener) hrun₁ hphase₁)
      hinv₁
  rw [hgen₁] at hphase
  have hphase₂ : m₂.phase = .starting := by rw [StateMachine.phase, hstate₂]; rfl
  refine ⟨m₂, ⟨hinv₂, ?_, ⟨?_, by simp [hphase₂]⟩, by rw [hstate₂], ?_, ?_⟩, ?_, ?_⟩
  · rw [hreq₂, hreq₁]
    exact h.required
  · rw [hstate₂]
    exact hrun₁.1
  · rw [hstate₂]
    exact hlist₁
  · rw [hstate₂]
    exact hgen₁
  · unfold startDropped
    rw [bind_of_ok hstart]
    dsimp only
    rw [bind_of_ok hphase]
    rfl
  · intro address bind now
    unfold startListener
    rw [bind_of_ok hstart]
    dsimp only
    rw [bind_of_ok hphase]
    rfl

/-- **The bind succeeds**: the socket is taken and recorded, and the
start answers its generation. -/
theorem afterBind_bound {g : ℕ} (h : Acquiring r.machine g) (address : SocketAddr)
    (listener : TcpListener) (boundAddress : SocketAddr) (later : Except IoError SocketAddr)
    (now : Instant) :
    ∃ m, afterBind g address (.bound listener (.ok boundAddress) later) now r =
        (.ok g, ⟨m, some listener⟩) ∧ Synced ⟨m, some listener⟩ ∧
        m.state.listener = .bound boundAddress := by
  obtain ⟨m₁, hbound, hinv₁, hstate₁, -, hreq₁⟩ := exists_transition
    (.listenerBound (a := boundAddress) h.running h.runtime h.required h.unbound) h.inv
  rw [h.generation_eq] at hbound
  have hphase₁ : m₁.phase = .starting := by rw [StateMachine.phase, hstate₁, h.runtime]; rfl
  have hrun₁ : m₁.Running := ⟨by rw [hstate₁]; exact h.running.1, by simp [hphase₁]⟩
  have hgen₁ : m₁.state.generation = g := by rw [hstate₁]; exact h.generation_eq
  obtain ⟨m₂, hphase, hinv₂, hstate₂, -, hreq₂⟩ :=
    exists_transition (r := ⟨m₁, some listener⟩) (.phase (p := .buildingJumpChain) hrun₁ hphase₁)
      hinv₁
  rw [hgen₁] at hphase
  have hlist : m₂.state.listener = .bound boundAddress := by rw [hstate₂, hstate₁]
  refine ⟨m₂, ?_, ⟨hinv₂, ?_, ?_, ?_⟩, hlist⟩
  · unfold afterBind
    dsimp only
    rw [bind_of_ok hbound]
    change ((transition (.phase g .buildingJumpChain) >>= fun _ => (pure g : Method ℕ))
      ⟨m₁, some listener⟩) = _
    rw [bind_of_ok hphase]
    rfl
  · rw [hreq₂, hreq₁]
    exact h.required
  · rw [StateMachine.phase, hstate₂]
    simp
  · exact iff_of_true rfl ⟨_, hlist⟩

/-- **The bind fails**, or the socket cannot tell its address: the error
is the answer, and nothing is owned. -/
theorem recordBindFailure_step {g : ℕ} (h : Acquiring r.machine g) (hnone : r.listener = none)
    (address : SocketAddr) (source : IoError) (now : Instant) :
    ∃ m, recordBindFailure g address source now r = (.ok (), { r with machine := m }) ∧
      Synced { r with machine := m } := by
  have hnot : ∀ {l : ListenerState}, l = .unbound ∨ (∃ a b, l = .conflict a b) →
      ¬ ∃ a, l = ListenerState.bound a := by
    rintro l (rfl | ⟨a, b, rfl⟩) ⟨a', h'⟩ <;> cases h'
  have hsynced : ∀ {m : StateMachine}, Inv m → m.listenerRequired = r.machine.listenerRequired →
      m.phase ≠ .stopping →
      (m.state.listener = .unbound ∨ ∃ a b, m.state.listener = .conflict a b) →
      Synced { r with machine := m } := by
    intro m hinv hreq hphase hl
    refine ⟨hinv, hreq.trans h.required, hphase, ?_⟩
    rw [hnone]
    exact iff_of_false (by simp) (hnot hl)
  unfold recordBindFailure
  split
  · obtain ⟨m, hstep, hinv, hstate, -, hreq⟩ := exists_transition
      (.listenerConflict (a := address) h.running h.runtime h.required h.unbound) h.inv
    rw [h.generation_eq] at hstep
    refine ⟨m, ?_, hsynced hinv hreq ?_ (.inr ⟨_, _, by rw [hstate]⟩)⟩
    · rw [bind_of_ok hstep]
      rfl
    · rw [StateMachine.phase, hstate]
      simp
  · cases hk : (bindError source).retryability with
    | transient =>
        obtain ⟨m, hstep, hinv, hstate, -, hreq⟩ := exists_transition
          (@Applies.disconnectedTransient r.machine (bindError source) 0 now h.running hk) h.inv
        rw [h.generation_eq] at hstep
        refine ⟨m, ?_, hsynced hinv hreq ?_ (.inl (by rw [hstate]; exact h.unbound))⟩
        · rw [bind_of_ok hstep]
          rfl
        · rw [StateMachine.phase, hstate]
          simp
    | blocked =>
        obtain ⟨m, hstep, hinv, hstate, -, hreq⟩ := exists_transition
          (@Applies.disconnectedBlocked r.machine (bindError source) 0 now h.running hk) h.inv
        rw [h.generation_eq] at hstep
        refine ⟨m, ?_, hsynced hinv hreq ?_ (.inl (by rw [hstate]; exact h.unbound))⟩
        · rw [bind_of_ok hstep]
          rfl
        · rw [StateMachine.phase, hstate]
          simp

theorem synced_afterBind {g : ℕ} (h : Acquiring r.machine g) (hnone : r.listener = none)
    (address : SocketAddr) (bind : BindOutcome) (now : Instant) :
    Synced (afterBind g address bind now r).2 := by
  have hfails : ∀ source : IoError, Synced ((do
      recordBindFailure g address source now
      throw (ListenerRuntimeError.bind address source) : Method ℕ) r).2 := by
    intro source
    obtain ⟨m, heq, hs⟩ := recordBindFailure_step h hnone address source now
    rw [bind_of_ok heq]
    exact hs
  rcases bind with source | ⟨listener, source | boundAddress, later⟩
  · exact hfails source
  · exact hfails source
  · obtain ⟨m, heq, hs, -⟩ := afterBind_bound h address listener boundAddress later now
    rw [heq]
    exact hs

/-! ## Stopping -/

/-- What a `stop` that is accepted leaves. -/
structure Released (r : ListenerRuntime) : Prop where
  runtime : r.machine.state.runtime = .stopped
  desired : r.machine.state.desired = .stopped
  listener : r.machine.state.listener = .unbound
  socket : r.listener = none

theorem Synced.released (h : Synced r) (hp : r.machine.phase = .stopped) : Released r := by
  obtain ⟨hdesired, -, hlist, -⟩ := h.inv.of_stopped hp
  refine ⟨?_, hdesired, by rw [hlist, h.required]; rfl, h.listener_none hp⟩
  unfold StateMachine.phase at hp
  cases hr : r.machine.state.runtime <;> simp_all

/-- A stopped runtime has nothing to do. -/
theorem stop_stopped (hp : r.machine.phase = .stopped) : stop r = (.ok (), r) := by
  have hstop : transition .stop r = (.ok .noChange, r) := by
    unfold transition
    rw [transition_stop, if_pos (.inl hp)]
  unfold stop
  rw [bind_of_ok hstop]
  rfl

theorem stop_exhausted (h : Synced r) (hp : r.machine.phase ≠ .stopped)
    (hg : ¬ r.machine.state.generation < generationMax) :
    stop r = (.error (.state .generationExhausted), r) := by
  have hstop : transition .stop r = (.error (.state .generationExhausted), r) := by
    refine transition_of_refused ?_
    rw [transition_stop, if_neg (by simp [hp, h.settled]), if_neg hg]
  exact bind_of_error hstop

/-- **Any other runtime drops its socket and is stopped.** -/
theorem exists_stop (h : Synced r) (hp : r.machine.phase ≠ .stopped)
    (hg : r.machine.state.generation < generationMax) :
    ∃ m, stop r = (.ok (), ⟨m, none⟩) ∧ Synced ⟨m, none⟩ ∧ m.phase = .stopped := by
  obtain ⟨m₁, hstop, hinv₁, hstate₁, hrestart₁, hreq₁⟩ :=
    exists_transition (.stop hp h.settled hg) h.inv
  have hphase₁ : m₁.phase = .stopping := by rw [StateMachine.phase, hstate₁]; rfl
  have hrestart : m₁.restartAfterShutdown = false := hrestart₁
  obtain ⟨m₂, hdone, hinv₂, hstate₂, -, hreq₂⟩ :=
    exists_transition (r := ⟨m₁, none⟩) (.shutdownStopped hphase₁ hrestart) hinv₁
  have hphase₂ : m₂.phase = .stopped := by rw [StateMachine.phase, hstate₂]; rfl
  have hreq : m₂.listenerRequired = true := by
    rw [hreq₂, hreq₁]
    exact h.required
  refine ⟨m₂, ?_, ⟨hinv₂, hreq, by simp [hphase₂], ?_⟩, hphase₂⟩
  · unfold stop
    rw [bind_of_ok hstop]
    change ((transition (.shutdownComplete m₁.state.generation) >>= fun _ => (pure () : Method Unit))
      ⟨m₁, none⟩) = _
    rw [bind_of_ok hdone]
    rfl
  · refine iff_of_false (by simp) ?_
    rintro ⟨a, ha⟩
    rw [(hinv₂.of_stopped hphase₂).2.2.1, hreq] at ha
    cases ha

theorem synced_stop (h : Synced r) : Synced (stop r).2 := by
  by_cases hp : r.machine.phase = .stopped
  · rw [stop_stopped hp]
    exact h
  · by_cases hg : r.machine.state.generation < generationMax
    · obtain ⟨m, heq, hs, -⟩ := exists_stop h hp hg
      rw [heq]
      exact hs
    · rw [stop_exhausted h hp hg]
      exact h

/-- A stop that is accepted has released the port, and left a runtime
that can be started. -/
theorem stop_ok (h : Synced r) (hok : stop r = (.ok (), r')) :
    Synced r' ∧ r'.machine.phase = .stopped := by
  by_cases hp : r.machine.phase = .stopped
  · rw [stop_stopped hp] at hok
    obtain rfl := (Prod.mk.inj hok).2
    exact ⟨h, hp⟩
  · by_cases hg : r.machine.state.generation < generationMax
    · obtain ⟨m, heq, hs, hphase⟩ := exists_stop h hp hg
      rw [heq] at hok
      obtain rfl := (Prod.mk.inj hok).2
      exact ⟨hs, hphase⟩
    · rw [stop_exhausted h hp hg] at hok
      cases (Prod.mk.inj hok).1

/-! ## Every sequence of calls -/

/-- A start that is refused, or has no generation left, does nothing. -/
theorem start_of_refused {error : ListenerRuntimeError} (h : transition .start r = (.error error, r)) :
    (∀ address bind now, startListener address bind now r = (.error error, r)) ∧
      startDropped r = (.error error, r) :=
  ⟨fun _ _ _ => bind_of_error h, bind_of_error h⟩

/-- **A start keeps the two in step**, wherever it ends. -/
theorem synced_startListener (h : Synced r) (address : SocketAddr) (bind : BindOutcome)
    (now : Instant) : Synced (startListener address bind now r).2 := by
  by_cases hp : r.machine.phase = .stopped
  · by_cases hg : r.machine.state.generation < generationMax
    · obtain ⟨m, hm, -, hstart⟩ := exists_acquiring h hp hg
      rw [hstart]
      exact synced_afterBind (r := { r with machine := m }) hm (h.listener_none hp) address bind now
    · rw [(start_of_refused (transition_start_exhausted hp hg)).1]
      exact h
  · rw [(start_of_refused (transition_start_refused hp)).1]
    exact h

/-- And so does one that is dropped while it binds. -/
theorem synced_startDropped (h : Synced r) : Synced (startDropped r).2 := by
  by_cases hp : r.machine.phase = .stopped
  · by_cases hg : r.machine.state.generation < generationMax
    · obtain ⟨m, hm, hdropped, -⟩ := exists_acquiring h hp hg
      rw [hdropped]
      refine ⟨hm.inv, hm.required, ?_, ?_⟩
      · rw [StateMachine.phase, hm.runtime]
        simp
      · rw [h.listener_none hp]
        refine iff_of_false (by simp) ?_
        rintro ⟨a, ha⟩
        rw [hm.unbound] at ha
        cases ha
    · rw [(start_of_refused (transition_start_exhausted hp hg)).2]
      exact h
  · rw [(start_of_refused (transition_start_refused hp)).2]
    exact h

theorem synced_call (r : ListenerRuntime) (c : Call) (h : Synced r) : Synced (r.call c).2 := by
  cases c with
  | startListener address bind now => exact synced_startListener h address bind now
  | startDropped => exact synced_startDropped h
  | stop => exact synced_stop h

/-- The socket is accounted for, now and by the next call. -/
structure Accounted (r : ListenerRuntime) : Prop where
  owned : r.listener.isSome ↔ ∃ a, r.machine.state.listener = .bound a
  stopped : r.machine.state.runtime = .stopped → r.listener = none
  refused : r.machine.state.runtime ≠ .stopped →
    (∀ address bind now, ∃ error, startListener address bind now r = (.error error, r)) ∧
      ∃ error, startDropped r = (.error error, r)
  released : ∀ r', stop r = (.ok (), r') → Released r' ∧
    (r'.machine.state.generation < generationMax →
      ∀ address listener boundAddress later now, ∃ g r'',
        startListener address (.bound listener (.ok boundAddress) later) now r' = (.ok g, r'') ∧
          r''.listener = some listener ∧ r''.machine.state.listener = .bound boundAddress)

theorem phase_stopped_iff : m.phase = .stopped ↔ m.state.runtime = .stopped := by
  unfold StateMachine.phase
  cases m.state.runtime <;> simp

theorem Synced.accounted (h : Synced r) : Accounted r where
  owned := h.owned
  stopped hp := h.listener_none (phase_stopped_iff.2 hp)
  refused hp := by
    obtain ⟨hstart, hdropped⟩ :=
      start_of_refused (transition_start_refused fun hs => hp (phase_stopped_iff.1 hs))
    exact ⟨fun address bind now => ⟨_, hstart address bind now⟩, _, hdropped⟩
  released r' hok := by
    obtain ⟨hs, hp⟩ := stop_ok h hok
    refine ⟨hs.released hp, fun hg address listener boundAddress later now => ?_⟩
    obtain ⟨m, hm, -, hstart⟩ := exists_acquiring hs hp hg
    obtain ⟨m', heq, -, hbound⟩ := afterBind_bound (r := { r' with machine := m }) hm address
      listener boundAddress later now
    exact ⟨_, _, by rw [hstart, heq], rfl, hbound⟩

/-- **The socket and its record never diverge**, over every sequence of
starts, starts dropped while they bind, and stops, whatever the binds
come to. -/
theorem accounted_run (calls : List Call) : Accounted (runState call new calls) :=
  Synced.accounted (runState_invariant synced_call synced_new calls)

end ListenerRuntime

end Lifecycle

end TunnelWarden
