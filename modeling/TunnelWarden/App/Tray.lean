import TunnelWarden.App.Model.Tray
import TunnelWarden.Manager.Bookkeeping

/-!
# Restarting a tunnel from the tray and from the window

For a tunnel that is shown stopped or blocked the tray sends
`StartTunnel`, and the window `StartTunnel` or `RetryTunnel`. Where no
supervisor runs, both are a start, which spawns one or shows why not
(`start_attempts`). A supervisor that waits in `Blocked` is signalled by
the window's command and not touched by the tray's.
-/

namespace TunnelWarden

namespace App

open Manager

variable {w : World} {env : Env} {id : TunnelId} {view : TunnelView}

/-- Why a start of a tunnel without a supervisor is given up. -/
inductive StartRefused (env : Env) (id : TunnelId) (w : World) : String → Prop where
  | invalid {tunnel : TunnelConfig} {error : TunnelValidationError} (hidle : id ∉ w.active)
      (htunnel : w.tunnels.lookup id = some tunnel)
      (herror : tunnel.validate w.hosts w.groups = .error error) :
      StartRefused env id w error.display
  | unknownHost {tunnel : TunnelConfig} (hidle : id ∉ w.active)
      (htunnel : w.tunnels.lookup id = some tunnel)
      (hvalid : tunnel.validate w.hosts w.groups = .ok ())
      (hhosts : tunnel.jumpChain.mapM (findHost w.hosts) = none) :
      StartRefused env id w "Unknown jump host"
  | unavailable {tunnel : TunnelConfig} {hosts : List SshHost} {reason : String}
      (hidle : id ∉ w.active) (htunnel : w.tunnels.lookup id = some tunnel)
      (hvalid : tunnel.validate w.hosts w.groups = .ok ())
      (hhosts : tunnel.jumpChain.mapM (findHost w.hosts) = some hosts)
      (herror : World.acquire env tunnel = .error reason) :
      StartRefused env id w reason

/-- A command led to a new connection attempt, or to a blocked view with
the error of the start it made. -/
inductive Attempt (env : Env) (id : TunnelId) (w w' : World) : Prop where
  | spawned (h : w'.history = w.history ++ [.spawned w.tasks.length id])
  | hinted {task : ℕ} {t : Task} (hactive : w.active.lookup id = some task)
      (htask : w.tasks[task]? = some t) (h : w'.tasks[task]? = some { t with hints := t.hints + 1 })
  | refused {reason : String} (hreason : StartRefused env id w reason)
      (h : w'.current.lookup id = some ⟨.blocked reason, none⟩)

theorem StartRefused.idle {reason : String} (h : StartRefused env id w reason) : id ∉ w.active := by
  cases h with
  | invalid hidle _ _ => exact hidle
  | unknownHost hidle _ _ _ => exact hidle
  | unavailable hidle _ _ _ _ => exact hidle

/-- Doing nothing is no attempt where a supervisor runs. -/
theorem not_attempt_self (h : id ∈ w.active) : ¬ Attempt env id w w := by
  intro hattempt
  cases hattempt with
  | spawned hhistory => simp at hhistory
  | hinted _ htask hsame =>
      have heq := Option.some.inj (htask.symm.trans hsame)
      have hhints := congrArg Task.hints heq
      dsimp only at hhints
      omega
  | refused hreason _ => exact hreason.idle h

/-- **A start where no supervisor runs** is an attempt. -/
theorem start_attempts (htunnel : id ∈ w.tunnels) (hview : id ∈ w.current)
    (hidle : id ∉ w.active) : Attempt env id w (w.start env id) := by
  obtain ⟨tunnel, ht⟩ := Map.mem_iff.1 htunnel
  have hblocked (reason : String) :
      (w.setState id (.blocked reason) none).current.lookup id = some ⟨.blocked reason, none⟩ := by
    rw [World.setState_lookup, if_pos ⟨rfl, hview⟩]
  unfold World.start
  rw [if_neg hidle, ht]
  dsimp only
  cases hvalid : tunnel.validate w.hosts w.groups with
  | error error => exact .refused (.invalid hidle ht hvalid) (hblocked _)
  | ok u =>
      dsimp only
      cases hhosts : tunnel.jumpChain.mapM (findHost w.hosts) with
      | none => exact .refused (.unknownHost hidle ht hvalid hhosts) (hblocked _)
      | some hosts =>
          dsimp only
          cases hacquire : World.acquire env tunnel with
          | error reason =>
              exact .refused (.unavailable hidle ht hvalid hhosts hacquire) (hblocked _)
          | ok localAddr =>
              refine .spawned ?_
              dsimp only
              rw [World.setState_history]
              rfl

/-! ## The commands -/

/-- The tray starts a tunnel that is shown stopped or blocked. -/
theorem toggleCommand_of_idle {snapshot : ManagerSnapshot} (hview : snapshot.lookup id = some view)
    (hidle : view.state.Idle) : toggleCommand snapshot id = .startTunnel id := by
  unfold toggleCommand
  rw [hview]
  rcases hidle with hstate | ⟨reason, hstate⟩
  · simp only [Option.any_some, hstate]; rfl
  · simp only [Option.any_some, hstate]; rfl

/-- Where no supervisor runs, the button of the window starts it too. -/
theorem actionCommand_of_idle (home : Option PathBuf) (codec : Codec)
    (hview : w.snapshots.lookup id = some view) (hidle : view.state.Idle)
    (hactive : id ∉ w.active) :
    w.handle home codec env (actionCommand w.snapshots id) = (none, w.start env id) := by
  unfold actionCommand
  rw [hview, Option.map_some, Option.getD_some]
  rcases hidle with hstate | ⟨reason, hstate⟩
  · rw [hstate]; rfl
  · rw [hstate]
    simp only [World.handle, World.retry, Map.lookup_eq_none_iff.2 hactive]

/-- **When the tray restarts a tunnel as the window does.** Let a tunnel
be shown stopped or blocked. The command of the tray does what that of
the window does, and both make an attempt, exactly where no supervisor
runs for the tunnel. -/
theorem toggle_restarts_iff (home : Option PathBuf) (codec : Codec) {w₀ : World} (hw : Booted w₀)
    (inputs : List Input) (w : World) (hreach : w = runState (World.step home codec) w₀ inputs)
    (hrun : w.running = true) (env : Env) (id : TunnelId)
    (hview : ∃ view, w.snapshots.lookup id = some view ∧ view.state.Idle) :
    (w.handle home codec env (toggleCommand w.snapshots id) =
        w.handle home codec env (actionCommand w.snapshots id) ∧
      Attempt env id w (w.handle home codec env (toggleCommand w.snapshots id)).2 ∧
      Attempt env id w (w.handle home codec env (actionCommand w.snapshots id)).2) ↔
      id ∉ w.active := by
  obtain ⟨view, hview, hidle⟩ := hview
  have htoggle := toggleCommand_of_idle hview hidle
  constructor
  · rintro ⟨-, hattempt, -⟩ hactive
    rw [htoggle] at hattempt
    simp only [World.handle, World.start, if_pos hactive] at hattempt
    exact not_attempt_self hactive hattempt
  · intro hactive
    have hb : Bookkeeping w := by
      rw [hreach] at hrun ⊢
      exact bookkeeping_reached hw inputs hrun
    have hcurrent : id ∈ w.current := by
      rw [← hb.published]
      exact Map.mem_iff.2 ⟨view, hview⟩
    have hattempt : Attempt env id w (w.start env id) :=
      start_attempts ((hb.views.keys id).1 hcurrent) hcurrent hactive
    rw [htoggle, actionCommand_of_idle home codec hview hidle hactive]
    exact ⟨rfl, hattempt, hattempt⟩

/-- A tunnel that was stopped. -/
theorem toggle_restarts_iff_labWorld :
    let w := runState (World.step none defaultCodec) labWorld
      [.command (.stopTunnel ⟨"socks"⟩) calm]
    (w.handle none defaultCodec calm (toggleCommand w.snapshots ⟨"socks"⟩) =
        w.handle none defaultCodec calm (actionCommand w.snapshots ⟨"socks"⟩) ∧
      Attempt calm ⟨"socks"⟩ w
        (w.handle none defaultCodec calm (toggleCommand w.snapshots ⟨"socks"⟩)).2 ∧
      Attempt calm ⟨"socks"⟩ w
        (w.handle none defaultCodec calm (actionCommand w.snapshots ⟨"socks"⟩)).2) ↔
      (⟨"socks"⟩ : TunnelId) ∉ w.active :=
  toggle_restarts_iff none defaultCodec booted_labWorld
    [.command (.stopTunnel ⟨"socks"⟩) calm] _ rfl (by decide +kernel) calm ⟨"socks"⟩
    ⟨⟨.stopped, none⟩, by decide +kernel, .inl rfl⟩

/-- A supervisor waits for a hint, with its state and the view blocked:
the window's command gives it one and the tray's does not. -/
theorem toggle_ignores_blocked :
    ¬ ∀ (home : Option PathBuf) (codec : Codec) (w₀ : World), Booted w₀ →
      ∀ (inputs : List Input) (w : World), w = runState (World.step home codec) w₀ inputs →
        w.running = true → ∀ (env : Env) (id : TunnelId),
          (∃ view, w.snapshots.lookup id = some view ∧ view.state.Idle) →
          (∀ task state, w.active.lookup id = some task → w.stateOf task = some state →
            state.Idle) →
          w.handle home codec env (toggleCommand w.snapshots id) =
            w.handle home codec env (actionCommand w.snapshots id) := by
  intro h
  let inputs : List Input := [.report 0 (.blocked "unknown host key"), .tick calm]
  let w := runState (World.step none defaultCodec) labWorld inputs
  have hstate : ∀ task state, w.active.lookup ⟨"socks"⟩ = some task →
      w.stateOf task = some state → state.Idle := by
    intro task state htask htaskState
    have hactive : w.active.lookup ⟨"socks"⟩ = some 0 := by decide +kernel
    have hblocked : w.stateOf 0 = some (.blocked "unknown host key") := by decide +kernel
    obtain rfl := Option.some.inj (hactive.symm.trans htask)
    exact .inr ⟨_, (Option.some.inj (hblocked.symm.trans htaskState)).symm⟩
  have heq := h none defaultCodec labWorld booted_labWorld inputs w rfl (by decide +kernel) calm
    ⟨"socks"⟩ ⟨⟨.blocked "unknown host key", some ⟨.v4 127 0 0 1, 1080, 0⟩⟩, by decide +kernel,
      .inr ⟨_, rfl⟩⟩ hstate
  have hhints := congrArg (fun r => r.2.tasks.map Task.hints) heq
  exact absurd hhints (by decide +kernel)

end App

end TunnelWarden
