import TunnelWarden.Lifecycle.Steps

/-!
# Generations and the work they bracket

What the reducer is for, seen from the owner of the resources: work is
begun under a generation, cancelled and joined under the same one, and
begun again only under a later one. `Move` states this as an automaton
over three stages and a counter, and `applies_move` says that every
applied event is one of its moves. The bracketing law is proved of the
automaton (`Brackets.move`) and read back to the reducer by induction
over the run; that an event of a closed generation is stale, and that a
shutdown is completed before the next begin, are read off the counter
and the stage.
-/

namespace TunnelWarden

namespace Lifecycle

/-! ## The automaton -/

/-- Is there work, and is it being taken down? -/
inductive Stage where
  | idle
  | working
  | closing
  deriving DecidableEq, Repr

/-- **The moves of a generation counter that brackets work.** -/
inductive Move : Stage × ℕ → Option TransitionEffect → Stage × ℕ → Prop
  | begin {g : ℕ} : Move (.idle, g) (some (.beginGeneration (g + 1))) (.working, g + 1)
  | skip {g : ℕ} : Move (.idle, g) none (.idle, g + 1)
  | work {g : ℕ} : Move (.working, g) none (.working, g)
  | cancel {g : ℕ} : Move (.working, g) (some (.cancelAndJoin g)) (.closing, g + 1)
  | finish {g : ℕ} : Move (.closing, g) none (.idle, g)
  | resume {g : ℕ} : Move (.closing, g) (some (.beginGeneration g)) (.working, g)

/-- Work begun and taken down again under one generation. -/
def bracket (g : ℕ) : List TransitionEffect := [.beginGeneration g, .cancelAndJoin g]

/-- The effects handed out so far, as the stage and the counter tell
them: closed brackets of increasing generations, and at work one more
that is open, under the current generation. -/
def Brackets (effs : List TransitionEffect) : Stage × ℕ → Prop
  | (.working, g) =>
      ∃ gs : List ℕ, (gs ++ [g]).Pairwise (· < ·) ∧ effs = gs.flatMap bracket ++ [.beginGeneration g]
  | (_, g) => ∃ gs : List ℕ, gs.Pairwise (· < ·) ∧ (∀ x ∈ gs, x < g) ∧ effs = gs.flatMap bracket

/-- A generation above every closed one opens a bracket. -/
theorem pairwise_concat {gs : List ℕ} {g : ℕ} (h : gs.Pairwise (· < ·)) (hg : ∀ x ∈ gs, x < g) :
    (gs ++ [g]).Pairwise (· < ·) := by
  refine List.pairwise_append.2 ⟨h, List.pairwise_singleton _ _, fun x hx y hy => ?_⟩
  rw [List.mem_singleton.1 hy]
  exact hg x hx

/-- **A move keeps the effects bracketed.** -/
theorem Brackets.move {effs : List TransitionEffect} {s t : Stage × ℕ}
    {eff : Option TransitionEffect} (h : Brackets effs s) (hm : Move s eff t) :
    Brackets (effs ++ eff.toList) t := by
  cases hm with
  | begin =>
      obtain ⟨gs, hgs, hlt, rfl⟩ := h
      exact ⟨gs, pairwise_concat hgs fun x hx => Nat.lt_succ_of_lt (hlt x hx), rfl⟩
  | skip =>
      obtain ⟨gs, hgs, hlt, rfl⟩ := h
      exact ⟨gs, hgs, fun x hx => Nat.lt_succ_of_lt (hlt x hx), by simp⟩
  | work =>
      obtain ⟨gs, hgs, rfl⟩ := h
      exact ⟨gs, hgs, by simp⟩
  | @cancel g =>
      obtain ⟨gs, hgs, rfl⟩ := h
      refine ⟨gs ++ [g], hgs, fun x hx => ?_, by simp [bracket]⟩
      -- the generation that is closed is above all closed before, and now behind the counter
      have hlast := List.pairwise_append.1 hgs
      rcases List.mem_append.1 hx with hx | hx
      · exact Nat.lt_succ_of_lt (hlast.2.2 x hx g (by simp))
      · rw [List.mem_singleton.1 hx]; exact Nat.lt_succ_self g
  | finish =>
      obtain ⟨gs, hgs, hlt, rfl⟩ := h
      exact ⟨gs, hgs, hlt, by simp⟩
  | resume =>
      obtain ⟨gs, hgs, hlt, rfl⟩ := h
      exact ⟨gs, pairwise_concat hgs hlt, rfl⟩

/-- The counter never goes back. -/
theorem Move.le {s t : Stage × ℕ} {eff : Option TransitionEffect} (h : Move s eff t) :
    s.2 ≤ t.2 := by
  cases h <;> simp

/-- And it has moved past a generation that is cancelled. -/
theorem Move.lt_of_cancel {s t : Stage × ℕ} {g : ℕ} (h : Move s (some (.cancelAndJoin g)) t) :
    g < t.2 ∧ t.1 = .closing := by
  cases h
  exact ⟨Nat.lt_succ_self g, rfl⟩

/-! ## The reducer refines it -/

namespace StateMachine

variable {m c : StateMachine} {e : Event} {eff : Option TransitionEffect}

/-- The stage of a phase. -/
def Stage.of : RuntimePhase → Stage
  | .stopped => .idle
  | .stopping => .closing
  | _ => .working

/-- The machine as the automaton sees it. -/
def slot (m : StateMachine) : Stage × ℕ := (Stage.of m.phase, m.state.generation)

theorem slot_stopped (h : m.phase = .stopped) : m.slot = (.idle, m.state.generation) := by
  rw [slot, h]; rfl

theorem slot_stopping (h : m.phase = .stopping) : m.slot = (.closing, m.state.generation) := by
  rw [slot, h]; rfl

theorem slot_working (h₁ : m.phase ≠ .stopped) (h₂ : m.phase ≠ .stopping) :
    m.slot = (.working, m.state.generation) := by
  rw [slot]
  cases hph : m.phase <;> simp_all [Stage.of]

theorem slot_running (h : m.Running) : m.slot = (.working, m.state.generation) :=
  slot_working (fun hp => h.2 (by simp [hp])) (fun hp => h.2 (by simp [hp]))

/-- A report of progress is a move within the work of a generation. -/
theorem move_work (hr : m.Running) (hc : c.slot = (.working, m.state.generation)) :
    Move m.slot none c.slot := by
  rw [slot_running hr, hc]
  exact .work

/-- **Every applied event is a move of the automaton.** -/
theorem applies_move (h : Applies m e eff c) : Move m.slot eff c.slot := by
  cases h with
  | start hp hg | restartStopped hp hg => rw [slot_stopped hp]; exact .begin
  | stop hp hp' hg | restartRunning hp hp' hg | configRunning hp hp' hg =>
      rw [slot_working hp hp']; exact .cancel
  | configStopped hp hg =>
      rw [slot_stopped hp, slot_stopped (m := m.bump) hp]
      exact .skip
  | shutdownRestart hp hr => rw [slot_stopping hp]; exact .resume
  | shutdownStopped hp hr => rw [slot_stopping hp]; exact .finish
  | phase hr | listenerConflict hr | connecting hr | authenticating hr | authenticated hr
  | hopAuthenticated hr | forwardReady hr | pingFailedReconnect hr | disconnectedTransient hr
  | disconnectedBlocked hr => exact move_work hr rfl
  | listenerBound hr hp hl hu => exact move_work hr (slot_running (m := m) hr)
  | pingSucceeded hr hp hv =>
      refine move_work hr ?_
      rw [slot, StateMachine.phase, of_keep (p := .healthy) rfl]
      rfl
  | pingFailedDegrade hr hp hv hf =>
      refine move_work hr ?_
      rw [slot, StateMachine.phase, of_keep (p := .degraded) rfl]
      rfl

/-- **One event, as the automaton sees it**: a move, or nothing. -/
theorem transition_move (m : StateMachine) (e : Event) :
    Move m.slot (effectOf (m.transition e).1) (m.transition e).2.slot ∨
      (effectOf (m.transition e).1 = none ∧ (m.transition e).2 = m) := by
  rcases transition_cases m e with ⟨eff, c, happ, ha, hm⟩ | ⟨hna, hm⟩
  · left
    rw [ha, hm]
    change Move m.slot eff c.slot
    exact applies_move happ
  · exact Or.inr ⟨effectOf_eq_none hna, hm⟩

/-- The counter never goes back, whatever the event. -/
theorem generation_le (m : StateMachine) (e : Event) :
    m.state.generation ≤ (m.transition e).2.state.generation := by
  rcases transition_move m e with h | ⟨-, h⟩
  · exact h.le
  · exact Nat.le_of_eq (by rw [h])

/-- Nor does it leave the range of a `u64`. -/
theorem generation_le_max (e : Event) (h : m.state.generation ≤ generationMax) :
    (m.transition e).2.state.generation ≤ generationMax := by
  rcases transition_cases m e with ⟨eff, c, happ, -, hm⟩ | ⟨-, hm⟩
  · rw [hm, record_state]
    cases happ <;> simp only [begin, enterStopping, bump] <;> omega
  · rw [hm]; exact h

/-- An event of another generation is stale. -/
theorem transition_stale {g : ℕ} (he : e.generation = some g) (hg : g ≠ m.state.generation) :
    m.transition e = (.ok .ignoredStale, m) := by
  simp [transition, he, hg]

/-- A shutdown in flight is left by its completion, under the current
generation, and by nothing else. -/
theorem closing_cases (hp : m.phase = .stopping) (e : Event) :
    (e = .shutdownComplete m.state.generation ∧ IsApplied (m.transition e).1) ∨
      (effectOf (m.transition e).1 = none ∧ (m.transition e).2.phase = .stopping) := by
  rcases transition_cases m e with ⟨eff, c, happ, ha, -⟩ | hna
  · left
    refine ⟨?_, eff, ha⟩
    have hr : ¬ m.Running := fun hr => hr.2 (by simp [hp])
    cases happ <;> first | rfl | exact absurd ‹m.Running› hr | simp_all
  · exact Or.inr ⟨effectOf_eq_none hna.1, by rw [hna.2]; exact hp⟩

/-! ## The run -/

/-- **The effects of a run are bracketed**, as the machine it reached
tells them. -/
theorem brackets_run (listenerRequired : Bool) (events : List Event) :
    Brackets (effects (new listenerRequired) events)
      (runState transition (new listenerRequired) events).slot := by
  have h0 : Brackets [] (new listenerRequired).slot := ⟨[], List.Pairwise.nil, by simp, rfl⟩
  refine trace_invariant
    (I := fun (m : StateMachine) tr => Brackets (tr.filterMap fun x => effectOf x.output) m.slot)
    h0 (fun is e ih => ?_) events
  rw [List.filterMap_append]
  rcases transition_move (runState transition (new listenerRequired) is) e with hmove | ⟨heff, hm⟩
  · have hb := ih.move hmove
    cases heff : effectOf (transition (runState transition (new listenerRequired) is) e).1 with
    | none => simpa [heff] using hb
    | some eff => simpa [heff] using hb
  · simpa [heff, hm] using ih

/-- Along a run the counter is at least what it was at the start. -/
theorem generation_le_of_mem_trace {events : List Event} {x : Step StateMachine Event Answer}
    (hx : x ∈ trace transition m events) : m.state.generation ≤ x.before.state.generation := by
  refine trace_forall (I := fun s : StateMachine => m.state.generation ≤ s.state.generation)
    (P := fun x => m.state.generation ≤ x.before.state.generation) (A := fun _ => True)
    (fun s e _ hs => ⟨Nat.le_trans hs (generation_le s e), hs⟩) (Nat.le_refl _) (fun _ _ => trivial) x hx

/-- **A shutdown is completed before anything begins.** From a machine
that is stopping, the first begin of a run comes with or after an applied
completion of the then current generation. -/
theorem exists_shutdown_of_begin {events : List Event} {mid post : List (Step StateMachine Event Answer)}
    {y : Step StateMachine Event Answer} {g : ℕ} (hp : m.phase = .stopping)
    (htr : trace transition m events = mid ++ y :: post)
    (hy : effectOf y.output = some (.beginGeneration g)) :
    ∃ z ∈ mid ++ [y], z.input = .shutdownComplete z.before.state.generation ∧
      IsApplied z.output := by
  induction events generalizing m mid with
  | nil => simp at htr
  | cons e events ih =>
      rcases closing_cases hp e with ⟨he, ha⟩ | ⟨heff, hp'⟩
      · -- the first step of the run is the completion, whether or not it is `y`
        refine ⟨⟨m, e, (m.transition e).1, (m.transition e).2⟩, ?_, he, ha⟩
        cases mid with
        | nil => rw [(List.cons.inj htr).1]; simp
        | cons z mid => rw [(List.cons.inj htr).1]; simp
      · cases mid with
        | nil =>
            obtain ⟨rfl, -⟩ := List.cons.inj htr
            rw [heff] at hy
            cases hy
        | cons z mid =>
            obtain ⟨z, hz, hzs⟩ := ih hp' (List.cons.inj htr).2
            exact ⟨z, List.mem_cons_of_mem _ hz, hzs⟩

/-- A run whose generations bracket its work. -/
structure WellBracketed (tr : List (Step StateMachine Event Answer)) : Prop where
  /-- The effects are `begin`, `cancel`, `begin`, `cancel` and so on, two
  of each generation but perhaps the last, and the generations increase. -/
  alternate : ∃ gs : List ℕ, gs.Pairwise (· < ·) ∧
    ((tr.filterMap fun x => effectOf x.output) = gs.flatMap bracket ∨
      ∃ closed g, gs = closed ++ [g] ∧
        (tr.filterMap fun x => effectOf x.output) = closed.flatMap bracket ++ [.beginGeneration g])
  /-- From a cancel to the next begin a shutdown of the then current
  generation is completed; the completion may itself begin. -/
  shutdown_between : ∀ pre x mid y post g g', tr = pre ++ x :: (mid ++ y :: post) →
    effectOf x.output = some (.cancelAndJoin g) → effectOf y.output = some (.beginGeneration g') →
    ∃ z ∈ mid ++ [y], z.input = .shutdownComplete z.before.state.generation ∧ IsApplied z.output
  generation_mono : ∀ x ∈ tr, x.before.state.generation ≤ x.after.state.generation ∧
    x.after.state.generation ≤ generationMax
  /-- What a cancelled generation still reports is ignored. -/
  stale : ∀ pre x mid y post g, tr = pre ++ x :: (mid ++ y :: post) →
    effectOf x.output = some (.cancelAndJoin g) → y.input.generation = some g →
    y.output = .ok .ignoredStale

/-- A cancelled generation is behind the counter, and its shutdown is in
flight. -/
theorem after_cancel {g : ℕ} (h : effectOf (m.transition e).1 = some (.cancelAndJoin g)) :
    g < (m.transition e).2.state.generation ∧ (m.transition e).2.phase = .stopping := by
  rcases transition_move m e with hmove | ⟨hnone, -⟩
  · rw [h] at hmove
    obtain ⟨hlt, hst⟩ := hmove.lt_of_cancel
    refine ⟨hlt, ?_⟩
    simp only [slot] at hst
    cases hp : (m.transition e).2.phase <;> simp_all [Stage.of]
  · rw [hnone] at h
    cases h

/-- **Every run from a new machine is well bracketed.** -/
theorem wellBracketed_run (listenerRequired : Bool) (events : List Event) :
    WellBracketed (trace transition (new listenerRequired) events) where
  alternate := by
    have hb := brackets_run listenerRequired events
    rcases hs : (runState transition (new listenerRequired) events).slot with ⟨stage, g⟩
    rw [hs] at hb
    cases stage with
    | idle | closing =>
        obtain ⟨gs, hgs, -, heff⟩ := hb
        exact ⟨gs, hgs, Or.inl heff⟩
    | working =>
        obtain ⟨gs, hgs, heff⟩ := hb
        exact ⟨gs ++ [g], hgs, Or.inr ⟨gs, g, rfl, heff⟩⟩
  shutdown_between := by
    intro pre x mid y post g g' htr hx hy
    obtain ⟨-, js, -, -, hjs⟩ := trace_eq_append_cons htr
    obtain ⟨hout, hafter⟩ := mem_trace (x := x) (by rw [htr]; simp)
    rw [hout] at hx
    refine exists_shutdown_of_begin ?_ hjs.symm hy
    rw [hafter]
    exact (after_cancel hx).2
  generation_mono := by
    refine trace_forall (I := fun m : StateMachine => m.state.generation ≤ generationMax)
      (A := fun _ => True) (fun m e _ hm => ?_) (Nat.zero_le _) (fun _ _ => trivial)
    exact ⟨generation_le_max e hm, generation_le m e, generation_le_max e hm⟩
  stale := by
    intro pre x mid y post g htr hx hy
    obtain ⟨-, js, -, -, hjs⟩ := trace_eq_append_cons htr
    obtain ⟨hout, hafter⟩ := mem_trace (x := x) (by rw [htr]; simp)
    obtain ⟨houty, -⟩ := mem_trace (x := y) (by rw [htr]; simp)
    have hmem : y ∈ trace transition x.after js := by rw [← hjs]; simp
    -- the counter only grows after the cancel, so the event names an older generation
    have hle := generation_le_of_mem_trace hmem
    rw [hout] at hx
    have hlt := (after_cancel hx).1
    rw [← hafter] at hlt
    rw [houty, transition_stale hy (by omega)]

end StateMachine

end Lifecycle

end TunnelWarden
