import TunnelWarden.Supervisor.Hint

/-!
# Does a blocked tunnel wait to be asked?

A supervisor that publishes `Blocked` is to wait for a `RetryTunnel`.
The hint it waits at is the one of its other wait too, and keeps a
permit. A signal stored before, or one `NetworkRecovered` has decided on
while the tunnel still showed `Reconnecting`, wakes it unasked. These
are the only two ways: a publication that finds the hint without a
permit and the manager not about to signal for `NetworkRecovered` is
followed by no attempt that was not asked for.
-/

namespace TunnelWarden

namespace Supervisor

variable {s : Supervisor}

theorem view_state (s : Supervisor) : s.view.state = s.state := by cases s <;> rfl

theorem view_hint (s : Supervisor) : s.view.hint = s.retryHint := by cases s <;> rfl

theorem view_cancelled (s : Supervisor) : s.view.cancelled = s.cancelled := by cases s <;> rfl

/-- The supervisor is fit for another attempt, if it is not to stop: a
Local one holds its listener. -/
def Runs : Supervisor → Prop
  | .local s => s.Going ∨ s.view.cancelled = true ∨ s.view.phase = .finished
  | .remote _ => True

theorem Runs.step (h : s.Runs) {event : SupervisorEvent} : (s.step event).2.Runs := by
  cases s with
  | remote r => trivial
  | «local» l =>
      by_cases hevent : event = .notify
      · subst hevent
        rcases h with hgo | hcancel | hfin
        · exact .inl (hgo.step nofun fun hfails => by simpa using hfails.1.2)
        · exact .inr (.inl hcancel)
        · exact .inr (.inr hfin)
      · have hmove := hintMove_step (.local l) hevent
        rcases h with hgo | hcancel | hfin
        · by_cases hcancel : event = .cancel
          · subst hcancel
            exact .inr (.inl rfl)
          -- an accept that fails ends the supervisor; anything else keeps it going
          · by_cases hfails : l.AcceptFails event
            · obtain ⟨result, hresult⟩ := hfails.finished
              refine .inr (.inr ?_)
              rw [LocalForwardSupervisor.view, LocalForwardSupervisor.phase, hresult]
            · exact .inl (hgo.step hcancel hfails)
        · exact .inr (.inl (hmove.cancelled hcancel))
        · exact .inr (.inr (hmove.of_finished hfin).2)

/-- **A hint that is ready leads to an attempt.** -/
theorem Runs.connects (h : s.Runs) (hphase : s.view.phase = .blocked)
    (hlive : s.view.cancelled = false) (hready : s.view.hint.Ready) :
    .connect ∈ (s.step .poll).1 := by
  cases s with
  | «local» l =>
      refine LocalForwardSupervisor.Going.connects ?_ hphase hready
      rcases h with hgo | hcancel | hfin
      · exact hgo
      · exact absurd (hcancel.symm.trans hlive) (by simp)
      · exact absurd (hfin.symm.trans hphase) (by simp)
  | remote r => exact RemoteForwardSupervisor.connects hphase hlive hready

end Supervisor

namespace RetrySystem

variable {s : RetrySystem} {input : RetryInput} {x : Step RetrySystem RetryInput (List Effect)}

/-- The step publishes `Blocked`. -/
def PublishesBlocked (x : Step RetrySystem RetryInput (List Effect)) : Prop :=
  ∃ reason, .publish (.blocked reason) ∈ x.output

/-- The manager processes a `RetryTunnel` in this step: it takes it, or
gives the signal for it. -/
def Retries (x : Step RetrySystem RetryInput (List Effect)) : Prop :=
  x.input = .check .retryTunnel ∧ x.before.pending = none ∨
    x.input = .notify ∧ x.before.pending = some .retryTunnel

/-- **Nothing is tried unasked from here on**: as long as no
`RetryTunnel` is processed, the connector is not called, in whatever
order the manager and the supervisor run. -/
def WaitsToBeAsked (s : RetrySystem) : Prop :=
  ∀ inputs, (∀ x ∈ trace step s inputs, ¬ Retries x) →
    ∀ x ∈ trace step s inputs, .connect ∉ x.output

/-- No signal is stored, and `NetworkRecovered` is not about to give
one. -/
def NoStraySignal (s : RetrySystem) : Prop :=
  s.supervisor.retryHint.permit = false ∧ s.pending ≠ some .networkRecovered

/-- The supervisor has ended, or will without another attempt, or waits
with nothing to wake it but a `RetryTunnel`. -/
def Waiting (s : RetrySystem) : Prop :=
  s.supervisor.view.phase = .finished ∨
    s.supervisor.view.phase = .blocked ∧ (s.supervisor.view.cancelled = true ∨
      s.supervisor.view.hint.Quiet ∧ (∃ reason, s.supervisor.view.state = .blocked reason) ∧
        s.pending ≠ some .networkRecovered)

theorem step_task {event : SupervisorEvent} (h : event ≠ .notify) :
    s.step (.task event) =
      ((s.supervisor.step event).1, { s with supervisor := (s.supervisor.step event).2 }) := by
  cases event with
  | notify => exact absurd rfl h
  | _ => rfl

/-! ## Waiting goes on -/

/-- The supervisor runs. -/
theorem Waiting.task (h : s.Waiting) {event : SupervisorEvent} (hevent : event ≠ .notify) :
    .connect ∉ (s.supervisor.step event).1 ∧
      Waiting { s with supervisor := (s.supervisor.step event).2 } := by
  have hmove := s.supervisor.hintMove_step hevent
  rcases h with hfin | ⟨hblocked, hcancel | ⟨hquiet, ⟨reason, hstate⟩, hpending⟩⟩
  · obtain ⟨hout, hfin'⟩ := hmove.of_finished hfin
    exact ⟨hout, .inl hfin'⟩
  · obtain ⟨hout, hfin' | ⟨hblocked', hcancel'⟩⟩ := hmove.of_blocked_cancelled hblocked hcancel
    · exact ⟨hout, .inl hfin'⟩
    · exact ⟨hout, .inr ⟨hblocked', .inl hcancel'⟩⟩
  · obtain ⟨hout, hfin' | ⟨hblocked', hquiet', hstate'⟩⟩ := hmove.of_blocked hblocked hquiet
    · exact ⟨hout, .inl hfin'⟩
    · exact ⟨hout, .inr ⟨hblocked', .inr ⟨hquiet', ⟨reason, hstate'.trans hstate⟩, hpending⟩⟩⟩

/-- **One input that is no `RetryTunnel`** keeps the supervisor waiting.
`NetworkRecovered` reads the state, and that shows `Blocked`. -/
theorem Waiting.step (h : s.Waiting)
    (hretry : ¬ Retries ⟨s, input, (s.step input).1, (s.step input).2⟩) :
    .connect ∉ (s.step input).1 ∧ Waiting (s.step input).2 := by
  cases input with
  | task event =>
      by_cases hevent : event = .notify
      · subst hevent
        exact ⟨by simp [RetrySystem.step], h⟩
      · rw [step_task hevent]
        exact h.task hevent
  | check signal =>
      unfold RetrySystem.step
      cases hp : s.pending with
      | some p => exact ⟨by simp, h⟩
      | none =>
          refine ⟨by simp, ?_⟩
          cases signal with
          | retryTunnel => exact absurd (.inl ⟨rfl, hp⟩) hretry
          | networkRecovered =>
              rcases h with hfin | ⟨hblocked, hcancel | ⟨hquiet, ⟨reason, hstate⟩, hpending⟩⟩
              · exact .inl hfin
              · exact .inr ⟨hblocked, .inl hcancel⟩
              · refine .inr ⟨hblocked, .inr ⟨hquiet, ⟨reason, hstate⟩, ?_⟩⟩
                rw [Supervisor.view_state] at hstate
                simp [hstate, Signal.notifies]
  | notify =>
      unfold RetrySystem.step
      cases hp : s.pending with
      | none => exact ⟨by simp, h⟩
      | some signal =>
          refine ⟨by simp, ?_⟩
          cases signal with
          | retryTunnel => exact absurd (.inr ⟨rfl, hp⟩) hretry
          | networkRecovered =>
              rcases h with hfin | ⟨hblocked, hcancel | ⟨-, -, hpending⟩⟩
              · exact .inl (by rw [Supervisor.view_notify]; exact hfin)
              · exact .inr (by rw [Supervisor.view_notify]; exact ⟨hblocked, .inl hcancel⟩)
              · exact absurd hp hpending

/-- **Whoever waits, waits to be asked.** -/
theorem Waiting.waitsToBeAsked (h : s.Waiting) : s.WaitsToBeAsked := by
  intro inputs
  induction inputs generalizing s with
  | nil => intro _ x hx; simp at hx
  | cons input inputs ih =>
      intro hretry
      simp only [trace, List.forall_mem_cons] at hretry ⊢
      obtain ⟨hout, hnext⟩ := h.step hretry.1
      exact ⟨hout, ih hnext hretry.2⟩

/-! ## A signal too many -/

/-- What every run keeps: outside its waits the supervisor has no future
at the hint, and it is fit to go on. -/
structure Kept (s : RetrySystem) : Prop where
  idle : s.supervisor.view.phase = .working → s.supervisor.view.hint.waiter = .idle
  runs : s.supervisor.Runs

theorem Kept.signal (h : s.Kept) :
    Kept { supervisor := (s.supervisor.step .notify).2, pending := none } := by
  refine ⟨fun hphase => ?_, h.runs.step⟩
  rw [Supervisor.view_notify] at hphase ⊢
  have hidle := h.idle hphase
  simp [Notify.notifyOne, hidle]

theorem Kept.step (h : s.Kept) (input : RetryInput) : Kept (s.step input).2 := by
  cases input with
  | task event =>
      by_cases hevent : event = .notify
      · subst hevent
        exact h
      · rw [step_task hevent]
        exact ⟨(s.supervisor.hintMove_step hevent).idle h.idle, h.runs.step⟩
  | check signal =>
      unfold RetrySystem.step
      cases s.pending with
      | some p => exact h
      | none => exact ⟨h.idle, h.runs⟩
  | notify =>
      unfold RetrySystem.step
      cases s.pending with
      | some p => exact h.signal
      | none => exact h

theorem kept_of_fresh (hs : s.supervisor.Fresh) : s.Kept := by
  cases s with
  | mk supervisor pending =>
      cases supervisor with
      | «local» l =>
          obtain ⟨listener, mode, retry, hnew⟩ := hs
          refine ⟨fun _ => ?_, .inl (LocalForwardSupervisor.going_new hnew)⟩
          rw [Supervisor.view_hint, Supervisor.retryHint, LocalForwardSupervisor.retryHint_new hnew]
      | remote r =>
          obtain ⟨target, retry, rfl⟩ := hs
          exact ⟨fun _ => rfl, trivial⟩

/-- **What publishes `Blocked`** is the supervisor, which then waits at
the hint as it is. -/
theorem PublishesBlocked.after (h : PublishesBlocked ⟨s, input, (s.step input).1, (s.step input).2⟩) :
    s.supervisor.view.phase = .working ∧ (s.step input).2.pending = s.pending ∧
      ∃ reason, (s.step input).2.supervisor.view =
        { s.supervisor.view with phase := .blocked, state := .blocked reason } := by
  obtain ⟨reason, hout⟩ := h
  cases input with
  | task event =>
      by_cases hevent : event = .notify
      · subst hevent
        simp [RetrySystem.step] at hout
      · rw [step_task hevent] at hout ⊢
        obtain ⟨hphase, hview⟩ := (s.supervisor.hintMove_step hevent).of_publish_blocked hout
        exact ⟨hphase, rfl, reason, hview⟩
  | check signal =>
      unfold RetrySystem.step at hout
      cases hp : s.pending <;> simp [hp] at hout
  | notify =>
      unfold RetrySystem.step at hout
      cases hp : s.pending <;> simp [hp] at hout

/-- A signal that is stored wakes a blocked supervisor unasked. -/
theorem not_waitsToBeAsked_of_ready (hruns : s.supervisor.Runs)
    (hphase : s.supervisor.view.phase = .blocked) (hlive : s.supervisor.view.cancelled = false)
    (hready : s.supervisor.view.hint.Ready) : ¬ s.WaitsToBeAsked := by
  intro h
  have hconnect := h [.task .poll] (by simp [trace, Retries]) _ (List.mem_singleton_self _)
  exact hconnect (hruns.connects hphase hlive hready)

/-- So does a signal that is still to be given. -/
theorem not_waitsToBeAsked_of_pending (hruns : s.supervisor.Runs)
    (hphase : s.supervisor.view.phase = .blocked) (hlive : s.supervisor.view.cancelled = false)
    (hidle : s.supervisor.view.hint.waiter = .idle) (hpending : s.pending = some .networkRecovered) :
    ¬ s.WaitsToBeAsked := by
  have hstep : s.step .notify =
      ([], { supervisor := (s.supervisor.step .notify).2, pending := none }) := by
    simp [RetrySystem.step, hpending]
  intro h
  -- giving the signal is no `RetryTunnel`, so the promise would still hold after it
  have hnext : (s.step .notify).2.WaitsToBeAsked := by
    intro inputs hretry x hx
    refine h (.notify :: inputs) ?_ x (List.mem_cons_of_mem _ hx)
    simp only [trace, List.forall_mem_cons]
    exact ⟨by simp [Retries, hpending], hretry⟩
  rw [hstep] at hnext
  refine not_waitsToBeAsked_of_ready hruns.step ?_ ?_ ?_ hnext <;> rw [Supervisor.view_notify]
  · exact hphase
  · exact hlive
  · exact Notify.notifyOne_ready_of_idle hidle

/-- **When a blocked tunnel waits to be asked.** In every run of a
supervisor and its manager, whatever the order of their steps, a
publication of `Blocked` is followed by no attempt before a
`RetryTunnel` is processed exactly where no signal was stored and
`NetworkRecovered` was not about to give one, or the tunnel was told to
stop. -/
theorem waitsToBeAsked_iff (hs : s.supervisor.Fresh) (inputs : List RetryInput) :
    ∀ x ∈ trace step s inputs, PublishesBlocked x →
      (WaitsToBeAsked x.after ↔ x.before.supervisor.cancelled = true ∨ NoStraySignal x.before) := by
  refine trace_forall (I := Kept) (A := fun _ => True) (fun s input _ h => ⟨h.step input, fun hx => ?_⟩)
    (kept_of_fresh hs) fun _ _ => trivial
  obtain ⟨hphase, hpending, reason, hview⟩ := hx.after
  have hidle := h.idle hphase
  have hkept := h.step input
  rw [← Supervisor.view_cancelled, NoStraySignal, ← Supervisor.view_hint]
  constructor
  · intro hwait
    by_contra hstray
    obtain ⟨hcancel, hstray⟩ := not_or.1 hstray
    have hlive : s.supervisor.view.cancelled = false := by simpa using hcancel
    -- one of the two stray signals is there, and each wakes the supervisor unasked
    by_cases hpermit : s.supervisor.view.hint.permit = true
    · refine not_waitsToBeAsked_of_ready hkept.runs ?_ ?_ ?_ hwait <;> rw [hview]
      · exact hlive
      · exact Notify.ready_of_permit hidle hpermit
    · have hrecovers : s.pending = some .networkRecovered := by
        by_contra hno
        exact hstray ⟨by simpa using hpermit, hno⟩
      refine not_waitsToBeAsked_of_pending hkept.runs ?_ ?_ ?_ (hpending.trans hrecovers) hwait <;>
        rw [hview]
      · exact hlive
      · exact hidle
  · intro hcalm
    refine Waiting.waitsToBeAsked (.inr ?_)
    rw [hview]
    refine ⟨rfl, ?_⟩
    rcases hcalm with hcancel | ⟨hpermit, hno⟩
    · exact .inl hcancel
    · exact .inr ⟨⟨hpermit, by simp [hidle]⟩, ⟨reason, rfl⟩, by rwa [hpending]⟩

/-! ## Two clicks on "retry" -/

/-- The supervisor of a SOCKS tunnel, with its manager. -/
def socksSystem : RetrySystem where
  supervisor := .local LocalForwardSupervisor.socksSupervisor

/-- During the wait after a failure the manager takes two `RetryTunnel`s
before the supervisor runs: the first wakes it, the second is stored.
The attempt it then makes is one that cannot be retried. -/
def twoClicks : List RetryInput :=
  [.task .poll, .task (.connected (.error (.hop 1 (.timeout "TCP connect"))) 0), .task .poll,
    .check .retryTunnel, .notify, .check .retryTunnel, .notify, .task .poll]

/-- The credentials are refused. -/
def refused : RetryInput := .task (.connected (.error (.hop 1 .authenticationRejected)) 0)

/-- The criterion for this run. -/
theorem waitsToBeAsked_iff_twoClicks :
    socksSystem.supervisor.Fresh ∧
      ∀ x ∈ trace step socksSystem (twoClicks ++ [refused]), PublishesBlocked x →
        (WaitsToBeAsked x.after ↔
          x.before.supervisor.cancelled = true ∨ NoStraySignal x.before) :=
  have hfresh : socksSystem.supervisor.Fresh :=
    ⟨LocalForwardSupervisor.boundListener, .dynamic, {}, rfl⟩
  ⟨hfresh, waitsToBeAsked_iff hfresh (twoClicks ++ [refused])⟩

/-- **The blocked tunnel tries again unasked.** -/
theorem twoClicks_retries :
    socksSystem.supervisor.Fresh ∧
      ∃ x ∈ trace step socksSystem (twoClicks ++ [refused]), PublishesBlocked x ∧
        ¬ WaitsToBeAsked x.after := by
  refine ⟨⟨LocalForwardSupervisor.boundListener, .dynamic, {}, rfl⟩, ?_⟩
  rw [trace_concat]
  refine ⟨_, List.mem_append_right _ (List.mem_singleton_self _),
    ⟨"SSH hop 1 failed: SSH credentials were rejected", ?_⟩, fun h => ?_⟩
  · decide +kernel
  · refine h [.task .poll] (by simp [trace, Retries]) _ (List.mem_singleton_self _) ?_
    decide +kernel

end RetrySystem

end TunnelWarden
