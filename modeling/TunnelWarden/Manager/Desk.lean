import TunnelWarden.Manager.Beside
import TunnelWarden.Manager.Model.Approval

/-!
# What the manager does with host keys

Of everything the manager keeps, the prompts concern five fields: its
`Desk`. Only four inputs change it, and `Desk.Move` says how. That every
step of the manager is such a move (`step_move`) is the one place where
its operations are looked into for this.
-/

namespace TunnelWarden

namespace Manager

/-- The part of the manager that the prompts go through. -/
structure Desk where
  pending : List PendingHostKey
  next : ℕ
  views : List HostKeyPromptView
  decisions : List (ℕ × HostKeyDecision)
  running : Bool

/-- The desk of a manager. -/
def World.desk (w : World) : Desk :=
  ⟨w.pendingHostKeys, w.nextHostKeyId, w.hostKeyViews, w.decisions, w.running⟩

namespace Desk

/-- A desk with these prompts, which are published. -/
def withPrompts (d : Desk) (pending : List PendingHostKey) : Desk :=
  { d with pending, views := pending.map PendingHostKey.view }

/-- The prompt under the id it is given. -/
def filed (d : Desk) (prompt : HostKeyPrompt) : PendingHostKey :=
  ⟨⟨d.next, prompt.host, prompt.port, prompt.algorithm, prompt.fingerprint⟩, prompt.reply⟩

/-- **What an input can do to the desk.** -/
inductive Move : Input → Desk → Desk → Prop where
  | stay {input : Input} (d : Desk) : Move input d d
  /-- There is no room for another prompt. -/
  | refuse {d : Desk} (prompt : HostKeyPrompt) (hrun : d.running = true)
      (hfull : maxHostKeyPrompts ≤ d.pending.length) :
      Move (.prompt prompt) d { d with decisions := d.decisions ++ [(prompt.reply, .cancel)] }
  | queue {d : Desk} (prompt : HostKeyPrompt) (hrun : d.running = true)
      (hroom : d.pending.length < maxHostKeyPrompts) :
      Move (.prompt prompt) d
        { d.withPrompts (d.pending ++ [d.filed prompt]) with next := max ((d.next + 1) % 2 ^ 64) 1 }
  /-- The user answers a prompt that is shown. -/
  | resolve {d : Desk} {pre post : List PendingHostKey} {p : PendingHostKey}
      (decision : HostKeyDecision) (env : Env) (hrun : d.running = true)
      (hpending : d.pending = pre ++ p :: post) :
      Move (.command (.resolveHostKey p.view.id decision) env) d
        { d.withPrompts (pre ++ post) with decisions := d.decisions ++ [(p.reply, decision)] }
  /-- Prompts nobody waits for any more are dropped. -/
  | prune {d : Desk} {kept : List PendingHostKey} (env : Env)
      (hkept : kept.Sublist d.pending) : Move (.tick env) d (d.withPrompts kept)
  | shut {d : Desk} (env : Env) : Move (.shutdown env) d { d with pending := [], running := false }

end Desk

namespace World

variable {w : World}

/-! ## Operations the desk is no part of -/

theorem desk_beside : Beside desk := fun _ _ _ _ _ _ _ _ _ => rfl

/-! ## The operations on prompts -/

/-- The poll drops prompts and publishes the rest, or leaves the desk
alone. -/
theorem refresh_desk (env : Env) (w : World) :
    ∃ kept, kept.Sublist w.pendingHostKeys ∧
      ((w.refresh env).desk = w.desk ∨ (w.refresh env).desk = w.desk.withPrompts kept) := by
  have hprune : ∃ kept, kept.Sublist w.pendingHostKeys ∧
      (w.prunePrompts.desk = w.desk ∨ w.prunePrompts.desk = w.desk.withPrompts kept) := by
    unfold prunePrompts
    dsimp only
    split
    · exact ⟨_, List.filter_sublist, .inr rfl⟩
    · exact ⟨_, List.Sublist.refl _, .inl rfl⟩
  rw [desk_beside.refresh]
  exact hprune

theorem queueHostKey_move (prompt : HostKeyPrompt) (hrun : w.running = true) :
    Desk.Move (.prompt prompt) w.desk (w.queueHostKey prompt).desk := by
  unfold queueHostKey
  split
  · rename_i hfull
    exact .refuse prompt hrun hfull
  · rename_i hroom
    exact .queue prompt hrun (Nat.lt_of_not_le hroom)

theorem resolveHostKey_move (id : ℕ) (decision : HostKeyDecision) (env : Env)
    (hrun : w.running = true) :
    Desk.Move (.command (.resolveHostKey id decision) env) w.desk
      (w.resolveHostKey id decision).desk := by
  unfold resolveHostKey
  cases hfind : w.pendingHostKeys.find? fun prompt => prompt.view.id = id with
  | none => exact .stay _
  | some p =>
      -- the prompt found is the one that is removed, and the first with its id
      obtain ⟨hp, pre, post, hpending, hpre⟩ := List.find?_eq_some_iff_append.1 hfind
      have hid : p.view.id = id := by simpa using hp
      have herase : (w.pendingHostKeys.eraseP fun prompt => prompt.view.id = id) = pre ++ post := by
        rw [hpending, List.eraseP_append_right _ fun x hx => by simpa using hpre x hx,
          List.eraseP_cons_of_pos (by simpa using hid)]
      subst hid
      have hmove := Desk.Move.resolve (d := w.desk) decision env hrun hpending
      dsimp only
      rw [herase]
      exact hmove

/-- **Every step of the manager is a move of its desk.** -/
theorem step_move (home : Option PathBuf) (codec : Codec) (w : World) (input : Input) :
    Desk.Move input w.desk (w.step home codec input).2.desk := by
  unfold step
  split
  · exact .stay _
  · rename_i hrun
    have hrun : w.running = true := by simpa using hrun
    -- an operation that leaves the desk alone is no move
    have hstay {input : Input} {v : World} (h : v.desk = w.desk) : Desk.Move input w.desk v.desk := by
      rw [h]; exact .stay _
    cases input with
    | command command env =>
        cases command with
        | saveConfig directory config secret =>
            exact hstay (desk_beside.saveConfig (fun _ _ _ _ _ => rfl) home codec env directory
              config secret w)
        | resolveHostKey id decision => exact resolveHostKey_move id decision env hrun
        | _ => exact hstay (desk_beside.handle home codec env _ w (by simp) (by simp))
    | prompt prompt => exact queueHostKey_move prompt hrun
    | tick env =>
        dsimp only
        split
        · exact .stay _
        · obtain ⟨kept, hkept, heq | heq⟩ := refresh_desk env w
          · exact hstay heq
          · rw [heq]; exact .prune env hkept
    | report task state => exact hstay rfl
    | exit task result => exact hstay rfl
    | giveUp reply => exact hstay rfl
    | shutdown env =>
        dsimp only
        rw [desk_beside.drain]
        exact .shut env

/-- A handshake that gives up leaves its prompt where it is, up to the
next poll. -/
theorem giveUp_desk (home : Option PathBuf) (codec : Codec) (w : World) (reply : ℕ) :
    (w.step home codec (.giveUp reply)).2.desk = w.desk := by
  unfold step
  split
  · rfl
  · rfl

/-- The desk of a manager whose loop begins. -/
theorem booted_desk (h : Booted w) : w.desk = ⟨[], 1, [], [], true⟩ := by
  obtain ⟨order, hosts, groups, tunnels, app, stores, env, w₀, hnew, rfl⟩ := h
  have hw₀ : w₀.desk = ⟨[], 1, [], [], true⟩ := by
    unfold new at hnew
    split at hnew
    · simp at hnew
    · split at hnew
      · simp at hnew
      · injection hnew with hnew
        rw [← hnew]; rfl
  rw [← hw₀]
  exact desk_beside.startEach env w₀.autoStart
    { { w₀.withAppSettings app with stores } with autoStart := [] }

end World

end Manager

end TunnelWarden
