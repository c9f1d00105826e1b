import TunnelWarden.Common.Run
import TunnelWarden.Manager.Desk
import TunnelWarden.Manager.Bookkeeping

/-!
# Prompts nobody waits for

A prompt whose handshake gave up is dropped by the poll, and the poll is
armed while a tunnel is active only. So a prompt is shown for good where
it is given up, or queued, after the last tunnel is gone, or where the
last tunnel goes before the next poll. `Attended` is what an input must
not do, and a run never shows such a prompt for good exactly where its
inputs do not (`waiting_iff_attended`).
-/

namespace TunnelWarden

namespace Manager

/-! ## The property and the condition -/

/-- A further tick of the poll changes nothing, whatever it meets. -/
def Settled (home : Option PathBuf) (codec : Codec) (w : World) : Prop :=
  ∀ env, (w.step home codec (.tick env)).2 = w

/-- Every prompt that is published is pending, and its handshake waits. -/
def Waiting (w : World) : Prop :=
  List.Forall₂ (fun view (p : PendingHostKey) => view = p.view ∧ p.reply ∉ w.closedReplies)
    w.hostKeyViews w.pendingHostKeys

/-- A pending prompt nobody waits for. -/
def Stale (w : World) : Prop := ∃ p ∈ w.pendingHostKeys, p.reply ∈ w.closedReplies

/-- The poll is armed. -/
def Busy (w : World) : Prop := ∃ id, id ∈ w.active

/-- A start of the tunnel spawns a task. -/
def Starts (env : Env) (hosts : List SshHost) (groups : List TunnelGroup)
    (tunnels : Map TunnelId TunnelConfig) (id : TunnelId) : Prop :=
  ∃ tunnel, tunnels.lookup id = some tunnel ∧ tunnel.validate hosts groups = .ok () ∧
    (∃ used, tunnel.jumpChain.mapM (findHost hosts) = some used) ∧
    ∃ localAddr, World.acquire env tunnel = .ok localAddr

/-- Where a tunnel is active, one still is after the command. -/
def Spares (home : Option PathBuf) (codec : Codec) (env : Env) (w : World) : CoreCommand → Prop
  | .stopAll => False
  | .stopGroup group => ∃ id ∈ w.active,
      ¬ ∃ tunnel, w.tunnels.lookup id = some tunnel ∧ tunnel.groupId = some group
  | .stopTunnel id => ∃ other ∈ w.active, other ≠ id
  | .restartTunnel id =>
      (∃ other ∈ w.active, other ≠ id) ∨ Starts env w.hosts w.groups w.tunnels id
  | .saveConfig directory config secret =>
      (persistConfig home codec directory config secret w.configViews.app.runAtStartup
        env.verdicts (0, w.stores)).1 = .value () →
      (∃ id ∈ w.active,
        w.needsRestart config.hosts (Map.ofValues TunnelConfig.id config.tunnels) id = false) ∨
      ∃ id tunnel, (Map.ofValues TunnelConfig.id config.tunnels).lookup id = some tunnel ∧
        (tunnel.autoStart = true ∨ id ∈ w.active) ∧
        Starts env config.hosts config.groups (Map.ofValues TunnelConfig.id config.tunnels) id
  | _ => True

/-- **What an input must not do.** A prompt is given up, or queued after
that, only while a tunnel is active; the last tunnel does not go with a
prompt nobody waits for; and the loop does not end with prompts
published. -/
def Attended (home : Option PathBuf) (codec : Codec) (w : World) : Input → Prop
  | .giveUp reply => Busy w ∨ ∀ p ∈ w.pendingHostKeys, p.reply ≠ reply
  | .prompt prompt => Busy w ∨ maxHostKeyPrompts ≤ w.pendingHostKeys.length ∨
      prompt.reply ∉ w.closedReplies
  | .command command env => Stale w → Spares home codec env w command
  | .shutdown _ => w.hostKeyViews = []
  | .tick _ => True
  | .report _ _ => True
  | .exit _ _ => True

namespace World

variable {w : World} {env : Env} {id other : TunnelId}

/-! ## What is active -/

theorem mem_start_active :
    other ∈ (w.start env id).active ↔
      other ∈ w.active ∨ other = id ∧ Starts env w.hosts w.groups w.tunnels id := by
  unfold start
  split
  · rename_i hactive
    refine ⟨.inl, ?_⟩
    rintro (hmem | ⟨rfl, -⟩)
    · exact hmem
    · exact hactive
  · split
    · rename_i hlookup
      refine ⟨.inl, ?_⟩
      rintro (hmem | ⟨-, tunnel, htunnel, -⟩)
      · exact hmem
      · simp [hlookup] at htunnel
    · rename_i tunnel hlookup
      have hstarts : Starts env w.hosts w.groups w.tunnels id ↔
          tunnel.validate w.hosts w.groups = .ok () ∧
          (∃ used, tunnel.jumpChain.mapM (findHost w.hosts) = some used) ∧
          ∃ localAddr, World.acquire env tunnel = .ok localAddr := by
        simp [Starts, hlookup]
      rw [hstarts]
      cases tunnel.validate w.hosts w.groups with
      | error error => simp
      | ok u =>
          dsimp only
          cases tunnel.jumpChain.mapM (findHost w.hosts) with
          | none => simp
          | some used =>
              dsimp only
              cases acquire env tunnel with
              | error reason => simp
              | ok localAddr =>
                  simp only [setState_active, AList.mem_insert]
                  have hspawn : (w.spawn id tunnel used).active = w.active := rfl
                  rw [hspawn]
                  simp [or_comm]

theorem mem_startEach_active (ids : List TunnelId) (w : World) :
    other ∈ (w.startEach env ids).active ↔
      other ∈ w.active ∨ other ∈ ids ∧ Starts env w.hosts w.groups w.tunnels other := by
  induction ids generalizing w with
  | nil => simp [startEach]
  | cons id ids ih =>
      have hrec := ih (w.start env id)
      rw [start_hosts, start_groups, start_tunnels, mem_start_active] at hrec
      refine hrec.trans ?_
      rw [List.mem_cons]
      constructor
      · rintro ((hmem | ⟨rfl, hstarts⟩) | ⟨hmem, hstarts⟩)
        · exact .inl hmem
        · exact .inr ⟨.inl rfl, hstarts⟩
        · exact .inr ⟨.inr hmem, hstarts⟩
      · rintro (hmem | ⟨rfl | hmem, hstarts⟩)
        · exact .inl (.inl hmem)
        · exact .inl (.inr ⟨rfl, hstarts⟩)
        · exact .inr ⟨hmem, hstarts⟩

theorem mem_stopEach_active (ids : List TunnelId) (w : World) :
    other ∈ (w.stopEach env ids).active ↔ other ∈ w.active ∧ other ∉ ids := by
  rw [← AList.lookup_isSome, stopEach_lookup_active, ← AList.lookup_isSome]
  by_cases hmem : other ∈ ids
  · simp [hmem]
  · simp [hmem]

theorem mem_stop_active : other ∈ (w.stop env id).active ↔ other ∈ w.active ∧ other ≠ id := by
  rw [show w.stop env id = w.stopEach env [id] from rfl, mem_stopEach_active, List.mem_singleton]

theorem mem_replaceConfig_active (config : DomainConfig) :
    other ∈ (w.replaceConfig env config).active ↔
      (other ∈ w.active ∧ w.needsRestart config.hosts
        (Map.ofValues TunnelConfig.id config.tunnels) other = false) ∨
      (∃ tunnel, (Map.ofValues TunnelConfig.id config.tunnels).lookup other = some tunnel ∧
        (tunnel.autoStart = true ∨ other ∈ w.active)) ∧
        Starts env config.hosts config.groups
          (Map.ofValues TunnelConfig.id config.tunnels) other := by
  have hexchange : other ∈ (w.exchange env config).active ↔
      other ∈ w.active ∧ other ∉ w.toRestart env config :=
    mem_stopEach_active (w.toRestart env config) { w with configViews := config }
  rw [replaceConfig_eq, mem_startEach_active, hexchange, mem_toRestart, mem_toStart]
  refine or_congr ?_ Iff.rfl
  constructor
  · rintro ⟨hmem, hnot⟩
    exact ⟨hmem, Bool.eq_false_iff.2 fun hneeds => hnot ⟨hmem, hneeds⟩⟩
  · rintro ⟨hmem, hnot⟩
    exact ⟨hmem, fun hneeds => by simp [hnot] at hneeds⟩

/-- The fields that say which prompts are pending, and for whom. -/
def prompts (w : World) : Desk × List ℕ := (w.desk, w.closedReplies)

theorem prompts_beside : Beside prompts := fun _ _ _ _ _ _ _ _ _ => rfl

theorem stale_of_prompts {v : World} (h : v.prompts = w.prompts) : Stale v ↔ Stale w := by
  have hpending : v.pendingHostKeys = w.pendingHostKeys := congrArg (fun d => d.1.pending) h
  have hclosed : v.closedReplies = w.closedReplies := congrArg Prod.snd h
  unfold Stale
  rw [hpending, hclosed]

/-- What the poll leaves pending. -/
theorem refresh_pending (env : Env) (w : World) : (w.refresh env).pendingHostKeys =
    w.pendingHostKeys.filter fun prompt => prompt.reply ∉ w.closedReplies := by
  have hdesk : (w.refresh env).pendingHostKeys = w.prunePrompts.pendingHostKeys :=
    congrArg Desk.pending (desk_beside.refresh env w)
  rw [hdesk]
  unfold prunePrompts
  dsimp only
  split
  · rfl
  · rename_i hlength
    exact (List.filter_sublist.eq_of_length (not_not.1 hlength)).symm

theorem refresh_closedReplies (env : Env) (w : World) :
    (w.refresh env).closedReplies = w.closedReplies := by
  have hbeside : Beside closedReplies := fun _ _ _ _ _ _ _ _ _ => rfl
  rw [hbeside.refresh]
  obtain ⟨kept, views, heq⟩ := prunePrompts_cases w
  rw [heq]

/-- **The poll leaves nothing stale.** -/
theorem not_stale_refresh (env : Env) (w : World) : ¬ Stale (w.refresh env) := by
  rintro ⟨p, hp, hclosed⟩
  rw [refresh_pending, List.mem_filter, decide_eq_true_eq] at hp
  rw [refresh_closedReplies] at hclosed
  exact hp.2 hclosed

/-! ## Commands -/

theorem busy_startEach (ids : List TunnelId) (h : Busy w) : Busy (w.startEach env ids) := by
  obtain ⟨id, hid⟩ := h
  exact ⟨id, (mem_startEach_active ids w).2 (.inl hid)⟩

/-- **Which commands leave a tunnel active.** -/
theorem spares_iff (home : Option PathBuf) (codec : Codec) (command : CoreCommand) (h : Busy w) :
    Busy (w.handle home codec env command).2 ↔ Spares home codec env w command := by
  cases command with
  | startAll => exact iff_of_true (busy_startEach _ h) trivial
  | startGroup group => exact iff_of_true (busy_startEach _ h) trivial
  | startTunnel id => exact iff_of_true (busy_startEach [id] h) trivial
  | retryTunnel id =>
      exact iff_of_true (retry_keeps (I := Busy) h (fun _ => h) (busy_startEach [id] h)) trivial
  | networkRecovered =>
      exact iff_of_true (networkRecovered_keeps (I := Busy) h fun _ _ hv => hv) trivial
  | importConfig path => exact iff_of_true h trivial
  | previewSshConfig path => exact iff_of_true h trivial
  | exportConfig path config => exact iff_of_true h trivial
  | resolveHostKey id decision =>
      refine iff_of_true ?_ trivial
      dsimp only [handle, resolveHostKey]
      split
      · exact h
      · exact h
  | stopAll =>
      refine iff_of_false ?_ id
      rintro ⟨id, hid⟩
      obtain ⟨hmem, hnot⟩ := (mem_stopEach_active _ w).1 hid
      rw [mem_arrange] at hnot
      exact hnot hmem
  | stopGroup group =>
      refine exists_congr fun id => ?_
      rw [← mem_inGroup]
      exact mem_stopEach_active _ w
  | stopTunnel id => exact exists_congr fun other => mem_stop_active
  | restartTunnel id =>
      have hmem (other : TunnelId) : other ∈ ((w.stop env id).start env id).active ↔
          (other ∈ w.active ∧ other ≠ id) ∨ other = id ∧ Starts env w.hosts w.groups w.tunnels id := by
        rw [mem_start_active, mem_stop_active, stop_hosts, stop_groups, stop_tunnels]
      refine (exists_congr hmem).trans ?_
      rw [exists_or]
      exact or_congr Iff.rfl exists_eq_left
  | saveConfig directory config secret =>
      dsimp only [handle]
      obtain ⟨stores, ⟨hvalue, heq⟩ | ⟨hvalue, heq⟩⟩ :=
        saveConfig_cases home codec env directory config secret w
      · rw [saveConfig_fst] at hvalue
        rw [heq]
        refine Iff.trans ?_ (forall_prop_of_true hvalue).symm
        refine (exists_congr fun id => mem_replaceConfig_active config).trans ?_
        rw [exists_or]
        refine or_congr Iff.rfl (exists_congr fun id => ?_)
        constructor
        · rintro ⟨⟨tunnel, hlookup, hwhy⟩, hstarts⟩
          exact ⟨tunnel, hlookup, hwhy, hstarts⟩
        · rintro ⟨tunnel, hlookup, hwhy, hstarts⟩
          exact ⟨⟨tunnel, hlookup, hwhy⟩, hstarts⟩
      · rw [saveConfig_fst] at hvalue
        rw [heq]
        exact iff_of_true h fun hstored => absurd hstored hvalue

/-- A command that resolves no prompt leaves them all. -/
theorem handle_prompts (home : Option PathBuf) (codec : Codec) (env : Env) (command : CoreCommand)
    (w : World) :
    (∃ id decision, command = .resolveHostKey id decision) ∨
      (w.handle home codec env command).2.prompts = w.prompts := by
  by_cases hresolve : ∃ id decision, command = .resolveHostKey id decision
  · exact .inl hresolve
  · right
    by_cases hsave : ∃ directory config secret, command = .saveConfig directory config secret
    · obtain ⟨directory, config, secret, rfl⟩ := hsave
      exact prompts_beside.saveConfig (fun _ _ _ _ _ => rfl) home codec env directory config secret w
    · exact prompts_beside.handle home codec env command w
        (fun directory config secret heq => hsave ⟨directory, config, secret, heq⟩)
        fun id decision heq => hresolve ⟨id, decision, heq⟩

/-- An answer takes one prompt off. -/
theorem resolveHostKey_stale (k : ℕ) (decision : HostKeyDecision) (w : World) :
    (w.resolveHostKey k decision).running = w.running ∧
      (Busy (w.resolveHostKey k decision) ↔ Busy w) ∧
      (Stale (w.resolveHostKey k decision) → Stale w) := by
  unfold resolveHostKey
  split
  · exact ⟨rfl, Iff.rfl, id⟩
  · refine ⟨rfl, Iff.rfl, ?_⟩
    rintro ⟨p, hp, hclosed⟩
    exact ⟨p, List.mem_of_mem_eraseP hp, hclosed⟩

/-- A prompt that is queued may be stale itself. -/
theorem queueHostKey_stale (prompt : HostKeyPrompt) (w : World) :
    (w.queueHostKey prompt).running = w.running ∧
      (Busy (w.queueHostKey prompt) ↔ Busy w) ∧
      (Stale (w.queueHostKey prompt) ↔ Stale w ∨
        w.pendingHostKeys.length < maxHostKeyPrompts ∧ prompt.reply ∈ w.closedReplies) := by
  unfold queueHostKey
  split
  · rename_i hfull
    refine ⟨rfl, Iff.rfl, .inl, ?_⟩
    rintro (hstale | ⟨hroom, -⟩)
    · exact hstale
    · omega
  · rename_i hroom
    have hroom : w.pendingHostKeys.length < maxHostKeyPrompts := by omega
    refine ⟨rfl, Iff.rfl, ?_⟩
    simp only [Stale, publishHostKeys, pushLog, List.mem_append, List.mem_singleton,
      or_and_right, exists_or, exists_eq_left, hroom, true_and]

end World

/-! ## One input -/

/-- What is pending is published, up to the end of the loop. -/
structure Filed (d : Desk) : Prop where
  views : d.running = true → d.views = d.pending.map PendingHostKey.view
  ended : d.running = false → d.pending = []

theorem Desk.Move.filed {input : Input} {d d' : Desk} (hmove : Desk.Move input d d')
    (h : Filed d) : Filed d' := by
  have hends (hrun : d.running = true) (pending : List PendingHostKey) :
      d.running = false → pending = [] := fun hend => by simp [hrun] at hend
  cases hmove with
  | stay => exact h
  | refuse prompt hrun hfull => exact ⟨h.views, h.ended⟩
  | queue prompt hrun hroom => exact ⟨fun _ => rfl, hends hrun _⟩
  | resolve decision env hrun hpending => exact ⟨fun _ => rfl, hends hrun _⟩
  | prune env hkept =>
      refine ⟨fun _ => rfl, fun hend => List.sublist_nil.1 ?_⟩
      rw [← h.ended hend]
      exact hkept
  | shut env => exact ⟨nofun, fun _ => rfl⟩

/-- No prompt is shown for good that nobody waits for. -/
structure Tidy (w : World) : Prop where
  busy : w.running = true → Stale w → Busy w
  ended : w.running = false → w.hostKeyViews = []

variable {home : Option PathBuf} {codec : Codec} {w : World}

theorem forall₂_view_iff {R : PendingHostKey → Prop} {views : List HostKeyPromptView}
    {pending : List PendingHostKey} :
    List.Forall₂ (fun view p => view = p.view ∧ R p) views pending ↔
      views = pending.map PendingHostKey.view ∧ ∀ p ∈ pending, R p := by
  induction pending generalizing views with
  | nil => simp
  | cons p rest ih =>
      cases views with
      | nil => simp
      | cons view views =>
          rw [List.forall₂_cons, ih, List.map_cons, List.cons.injEq, List.forall_mem_cons]
          exact and_and_and_comm

theorem waiting_iff (w : World) :
    Waiting w ↔ w.hostKeyViews = w.pendingHostKeys.map PendingHostKey.view ∧ ¬ Stale w := by
  unfold Waiting Stale
  rw [forall₂_view_iff]
  push Not
  rfl

/-- **A settled state shows no prompt nobody waits for** exactly where it
is tidy: a poll that is armed would drop the prompt, and one that is not
changes nothing. -/
theorem settled_waiting_iff (home : Option PathBuf) (codec : Codec) (h : Filed w.desk) :
    (Settled home codec w → Waiting w) ↔ Tidy w := by
  have htick (env : Env) : (w.step home codec (.tick env)).2 =
      if w.running = true ∧ w.active.keys ≠ [] then w.refresh env else w := by
    unfold World.step
    cases w.running with
    | false => simp
    | true => by_cases hkeys : w.active.keys = [] <;> simp [hkeys]
  cases hrun : w.running with
  | false =>
      have hpending : w.pendingHostKeys = [] := h.ended hrun
      have hstale : ¬ Stale w := by
        rintro ⟨p, hp, -⟩
        simp [hpending] at hp
      have hsettled : Settled home codec w := fun env => by
        rw [htick, if_neg fun hand => by simp [hrun] at hand]
      rw [waiting_iff, hpending, List.map_nil]
      constructor
      · intro hwaiting
        exact ⟨fun hrun' => by simp [hrun] at hrun', fun _ => (hwaiting hsettled).1⟩
      · intro htidy _
        exact ⟨htidy.ended hrun, hstale⟩
  | true =>
      have hviews : w.hostKeyViews = w.pendingHostKeys.map PendingHostKey.view := h.views hrun
      rw [waiting_iff]
      constructor
      · intro hwaiting
        refine ⟨fun _ hstale => ?_, fun hend => by simp [hrun] at hend⟩
        by_contra hidle
        refine (hwaiting fun env => ?_).2 hstale
        rw [htick, if_neg]
        rintro ⟨-, hkeys⟩
        obtain ⟨id, hid⟩ := List.exists_mem_of_ne_nil _ hkeys
        exact hidle ⟨id, AList.mem_keys.2 hid⟩
      · intro htidy hsettled
        refine ⟨hviews, fun hstale => ?_⟩
        obtain ⟨id, hid⟩ := htidy.busy hrun hstale
        have hsame := hsettled calm
        rw [htick, if_pos ⟨hrun, List.ne_nil_of_mem (AList.mem_keys.1 hid)⟩] at hsame
        exact World.not_stale_refresh calm w (hsame.symm ▸ hstale)

/-- **One input** leaves the manager tidy exactly where it is attended. -/
theorem step_tidy_iff (home : Option PathBuf) (codec : Codec) (h : Tidy w) (input : Input) :
    Tidy (w.step home codec input).2 ↔ (w.running = true → Attended home codec w input) := by
  by_cases hrun : w.running = true
  case neg =>
    have hstay : (w.step home codec input).2 = w := by
      unfold World.step
      rw [if_pos (by simpa using hrun)]
    rw [hstay]
    exact iff_of_true h fun hrun' => absurd hrun' hrun
  rw [forall_prop_of_true hrun]
  -- while the loop goes on, only what is stale matters
  have hgoes {v : World} (hv : v.running = w.running) : Tidy v ↔ (Stale v → Busy v) := by
    rw [hrun] at hv
    exact ⟨fun htidy => htidy.busy hv, fun hbusy => ⟨fun _ => hbusy, fun hend => by simp [hv] at hend⟩⟩
  have hbusy := h.busy hrun
  unfold World.step
  rw [if_neg (by simp [hrun])]
  cases input with
  | command command env =>
      dsimp only [Attended]
      rcases World.handle_prompts home codec env command w with ⟨k, decision, rfl⟩ | hprompts
      · obtain ⟨hrunning, hactive, hstale⟩ := World.resolveHostKey_stale k decision w
        refine iff_of_true ((hgoes hrunning).2 fun hv => hactive.2 (hbusy (hstale hv))) ?_
        exact fun _ => trivial
      · rw [hgoes (congrArg (fun d => d.1.running) hprompts), World.stale_of_prompts hprompts]
        exact forall_congr' fun hstale => World.spares_iff home codec command (hbusy hstale)
  | prompt prompt =>
      obtain ⟨hrunning, hactive, hstale⟩ := World.queueHostKey_stale prompt w
      dsimp only [Attended]
      rw [hgoes hrunning, hactive, hstale]
      constructor
      · intro hnext
        by_cases hroom : w.pendingHostKeys.length < maxHostKeyPrompts
        · by_cases hclosed : prompt.reply ∈ w.closedReplies
          · exact .inl (hnext (.inr ⟨hroom, hclosed⟩))
          · exact .inr (.inr hclosed)
        · exact .inr (.inl (Nat.le_of_not_lt hroom))
      · rintro hattended (hold | ⟨hroom, hclosed⟩)
        · exact hbusy hold
        · rcases hattended with hactive | hfull | hopen
          · exact hactive
          · omega
          · exact absurd hclosed hopen
  | tick env =>
      refine iff_of_true ?_ trivial
      dsimp only
      split
      · exact h
      · have hrunning : (w.refresh env).running = w.running := by
          have hdesk := congrArg Desk.running (World.desk_beside.refresh env w)
          obtain ⟨kept, views, heq⟩ := World.prunePrompts_cases w
          rw [heq] at hdesk
          exact hdesk
        exact (hgoes hrunning).2 fun hstale => absurd hstale (World.not_stale_refresh env w)
  | report task state => exact iff_of_true ⟨h.busy, h.ended⟩ trivial
  | exit task result => exact iff_of_true ⟨h.busy, h.ended⟩ trivial
  | giveUp reply =>
      dsimp only [Attended]
      have hgiven : ({ w with closedReplies := reply :: w.closedReplies } : World).running =
          w.running := rfl
      rw [hgoes hgiven]
      constructor
      · intro hnext
        by_cases hactive : Busy w
        · exact .inl hactive
        · exact .inr fun p hp heq => hactive (hnext ⟨p, hp, heq ▸ List.mem_cons_self⟩)
      · rintro hattended ⟨p, hp, hclosed⟩
        rcases hattended with hactive | hother
        · exact hactive
        · rcases List.mem_cons.1 hclosed with heq | hclosed
          · exact absurd heq (hother p hp)
          · exact hbusy ⟨p, hp, hclosed⟩
  | shutdown env =>
      have hdesk := World.desk_beside.drain env w
      have hend : (w.drain env).running = false := congrArg Desk.running hdesk
      have hviews : (w.drain env).hostKeyViews = w.hostKeyViews := congrArg Desk.views hdesk
      dsimp only [Attended]
      rw [← hviews]
      exact ⟨fun htidy => htidy.ended hend,
        fun hnone => ⟨fun hrun' => by simp [hend] at hrun', fun _ => hnone⟩⟩

/-! ## Runs -/

/-- **When no prompt outlives its handshake**: in every settled state of
a run, every published prompt is waited for, exactly where no input
leaves a stale prompt behind without a tunnel. -/
theorem waiting_iff_attended (home : Option PathBuf) (codec : Codec) (hw : Booted w)
    (is : List Input) :
    (∀ v ∈ visited (World.step home codec) w is, Settled home codec v → Waiting v) ↔
      ∀ x ∈ trace (World.step home codec) w is,
        x.before.running = true → Attended home codec x.before x.input := by
  have hdesk := World.booted_desk hw
  have hpending : w.pendingHostKeys = [] := congrArg Desk.pending hdesk
  have hrun : w.running = true := congrArg Desk.running hdesk
  have hfiled : Filed w.desk := by
    rw [hdesk]
    exact ⟨fun _ => rfl, fun _ => rfl⟩
  have htidy : Tidy w := by
    refine ⟨?_, fun hend => by simp [hrun] at hend⟩
    rintro - ⟨p, hp, -⟩
    simp [hpending] at hp
  refine (visited_forall_iff (I := fun v => Filed v.desk ∧ Tidy v)
    (P := fun v => Settled home codec v → Waiting v) (A := fun _ _ => True)
    (B := fun v input => ¬ (v.running = true → Attended home codec v input))
    (fun v hv => (settled_waiting_iff home codec hv.1).2 hv.2) ?_ ?_ ⟨hfiled, htidy⟩
    fun _ _ => trivial).trans ?_
  · intro v input _ hgood hv
    exact ⟨(World.step_move home codec v input).filed hv.1,
      (step_tidy_iff home codec hv.2 input).2 (not_not.1 hgood)⟩
  · intro v input _ hbad hv hwaiting
    have hnext := (World.step_move home codec v input).filed hv.1
    have htidy := (settled_waiting_iff home codec hnext).1 hwaiting
    exact hbad ((step_tidy_iff home codec hv.2 input).1 htidy)
  · simp only [not_not]

/-! ## A prompt that stays -/

/-- The host of the tunnel asks about its key. -/
def labPrompt : HostKeyPrompt := ⟨"example.test", 22, "ssh-ed25519", "SHA256:lab", 7⟩

/-- The handshake gives up, and the poll drops its prompt before the
tunnel is stopped. -/
def attendedInputs : List Input :=
  [.prompt labPrompt, .giveUp 7, .tick calm, .command (.stopTunnel ⟨"socks"⟩) calm]

/-- The tunnel is stopped first, which ends its handshake. -/
def stoppedInputs : List Input :=
  [.prompt labPrompt, .command (.stopTunnel ⟨"socks"⟩) calm, .giveUp 7]

/-- The criterion along a run in which the poll comes first. -/
theorem waiting_iff_attended_labWorld :
    (∀ v ∈ visited (World.step none defaultCodec) labWorld attendedInputs,
      Settled none defaultCodec v → Waiting v) ↔
    ∀ x ∈ trace (World.step none defaultCodec) labWorld attendedInputs,
      x.before.running = true → Attended none defaultCodec x.before x.input :=
  waiting_iff_attended none defaultCodec booted_labWorld attendedInputs

/-- **A prompt outlives its handshake**: the tunnel is stopped, its
handshake is gone, a tick changes nothing, and the prompt is shown. -/
theorem stoppedInputs_not_waiting :
    let stopped := runState (World.step none defaultCodec) labWorld stoppedInputs
    Settled none defaultCodec stopped ∧
      stopped.hostKeyViews = [⟨1, "example.test", 22, "ssh-ed25519", "SHA256:lab"⟩] ∧
      stopped.pendingHostKeys.map PendingHostKey.reply = [7] ∧ 7 ∈ stopped.closedReplies ∧
      ¬ Waiting stopped := by
  have hidle : (runState (World.step none defaultCodec) labWorld stoppedInputs).active.keys = [] := by
    decide +kernel
  have hpending : (runState (World.step none defaultCodec) labWorld stoppedInputs).pendingHostKeys =
      [⟨⟨1, "example.test", 22, "ssh-ed25519", "SHA256:lab"⟩, 7⟩] := by
    decide +kernel
  have hclosed : 7 ∈ (runState (World.step none defaultCodec) labWorld stoppedInputs).closedReplies := by
    decide +kernel
  refine ⟨fun env => ?_, by decide +kernel, by rw [hpending]; rfl, hclosed, fun hwaiting => ?_⟩
  · dsimp only [World.step]
    rw [if_pos hidle]
    split
    · rfl
    · rfl
  · have hstale : Stale (runState (World.step none defaultCodec) labWorld stoppedInputs) :=
      ⟨⟨⟨1, "example.test", 22, "ssh-ed25519", "SHA256:lab"⟩, 7⟩, by simp [hpending], hclosed⟩
    exact ((waiting_iff _).1 hwaiting).2 hstale

end Manager

end TunnelWarden
