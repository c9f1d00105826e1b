import Mathlib.Data.List.Chain
import TunnelWarden.Manager.Shown

/-!
# What the log says of a tunnel

A change of what a tunnel is shown as is logged when it is shown, so the
last entry of a tunnel says what its view says. The one exception is a
tunnel that was taken out of the configuration while it was blocked: put
back, it is shown as stopped and nothing is logged. The log keeps the
last entries only, and the poll writes its entries when all views are
set, so the argument is about the entries written and due.
-/

namespace TunnelWarden

namespace Manager

variable {id id' : TunnelId} {state state' : SupervisorState} {line : LogEvent}
variable {active : Map TunnelId ℕ} {w : World} {env : Env}

/-- What `log_state` writes. -/
def lineOf (id : TunnelId) (state : SupervisorState) : LogEvent :=
  let (level, message) : LogLevel × String :=
    match state with
    | .stopped => (.info, "Stopped")
    | .connecting _ => (.info, "Connecting to SSH host")
    | .healthy .. => (.info, "SSH connection healthy")
    | .degraded .. => (.warning, "SSH connection degraded")
    | .reconnecting .. => (.warning, "Reconnecting")
    | .blocked _ => (.error, "Tunnel blocked; inspect status for details")
  ⟨level, .tunnel, id.val, "Lifecycle", message⟩

/-- The entry is about the tunnel. -/
def LogEvent.about (id : TunnelId) (line : LogEvent) : Bool :=
  line.source = .tunnel && line.subject = id.val

/-- The entries about a tunnel. -/
def entriesOf (id : TunnelId) (logs : List LogEvent) : List LogEvent :=
  logs.filter (LogEvent.about id)

theorem about_lineOf : (lineOf id' state).about id = decide (id' = id) := by
  have hsame : id'.val = id.val ↔ id' = id :=
    ⟨fun h => by cases id; cases id'; cases h; rfl, fun h => h ▸ rfl⟩
  simp [LogEvent.about, lineOf, hsame]

/-- An entry says of which kind the state is. -/
theorem lineOf_eq_iff : lineOf id state = lineOf id state' ↔
    state.discriminant = state'.discriminant := by
  cases state <;> cases state' <;> simp [lineOf, SupervisorState.discriminant]

theorem logState_eq (id : TunnelId) (state : SupervisorState) (w : World) :
    ∃ kept, kept <:+ w.logs ∧ (w.logState id state).logs = kept ++ [lineOf id state] := by
  unfold World.logState World.pushLog
  cases state
  all_goals
    refine ⟨_, ?_, rfl⟩
    split
    · exact List.drop_suffix 1 _
    · exact List.suffix_rfl

/-! ## The book of a tunnel -/

/-- An entry tells what the tunnel is shown as, or that it was blocked
where it was taken out and put back. -/
def Tells (id : TunnelId) (line : LogEvent) (state : SupervisorState) (running : Prop) : Prop :=
  line = lineOf id state ∨
    state = .stopped ∧ ¬ running ∧ ∃ reason, line = lineOf id (.blocked reason)

/-- An entry that follows another is news, or is about being blocked. -/
def News (id : TunnelId) (line line' : LogEvent) : Prop :=
  line ≠ line' ∨ ∃ reason, line' = lineOf id (.blocked reason)

/-- **The entries about each tunnel are true.** -/
structure Truthful (book : TunnelId → List LogEvent) (shown : TunnelId → SupervisorState)
    (active : Map TunnelId ℕ) : Prop where
  last : ∀ id line, (book id).getLast? = some line → Tells id line (shown id) (id ∈ active)
  news : ∀ id, (book id).IsChain (News id)

section Truthful

variable {book book' : TunnelId → List LogEvent} {shown shown' : TunnelId → SupervisorState}

/-- The oldest entries may go. -/
theorem Truthful.suffix (h : Truthful book shown active) (hs : ∀ id, book' id <:+ book id) :
    Truthful book' shown active where
  last id line hline := by
    obtain ⟨older, holder⟩ := hs id
    refine h.last id line ?_
    rw [← holder, List.getLast?_append, hline]
    rfl
  news id := (h.news id).suffix (hs id)

/-- Tunnels that are no longer active, and views that stay. -/
theorem Truthful.fewer (h : Truthful book shown active) (active' : Map TunnelId ℕ)
    (hs : ∀ id, id ∈ active' → id ∈ active) : Truthful book shown active' where
  last id line hline := by
    rcases h.last id line hline with htells | ⟨hstopped, hidle, hblocked⟩
    · exact .inl htells
    · exact .inr ⟨hstopped, fun hmem => hidle (hs id hmem), hblocked⟩
  news := h.news

/-- An entry that fits what the tunnel is now shown as. -/
theorem Truthful.write (h : Truthful book shown active) (book' : TunnelId → List LogEvent)
    (hshown : ∀ id', shown' id' = if id' = id then state else shown id')
    (hbook : ∀ id', book' id' = if id' = id then book id ++ [lineOf id state] else book id')
    (hnews : (shown id).discriminant ≠ state.discriminant ∨ ∃ reason, state = .blocked reason) :
    Truthful book' shown' active where
  last id' line hline := by
    rw [hshown]
    rw [hbook] at hline
    by_cases hid : id' = id
    · rw [if_pos hid, List.getLast?_concat] at hline
      rw [if_pos hid, hid]
      exact .inl (Option.some.inj hline).symm
    · rw [if_neg hid] at hline ⊢
      exact h.last id' line hline
  news id' := by
    rw [hbook]
    by_cases hid : id' = id
    · rw [if_pos hid, hid, List.isChain_append]
      refine ⟨h.news id, List.isChain_singleton _, fun line hline line' hline' => ?_⟩
      obtain rfl : lineOf id state = line' := by simpa using hline'
      rcases hnews with hkind | ⟨reason, rfl⟩
      · -- the entry before says what the tunnel was shown as, or that it was blocked
        rcases h.last id line hline with rfl | ⟨hstopped, -, reason, rfl⟩
        · exact .inl fun heq => hkind (lineOf_eq_iff.1 heq)
        · cases state with
          | blocked reason' => exact .inr ⟨reason', rfl⟩
          | _ => exact .inl fun heq => by simpa [SupervisorState.discriminant] using lineOf_eq_iff.1 heq
      · exact .inr ⟨reason, rfl⟩
    · rw [if_neg hid]
      exact h.news id'

/-- No entry for a state of the same kind. -/
theorem Truthful.same (h : Truthful book shown active)
    (hshown : ∀ id', shown' id' = if id' = id then state else shown id')
    (hkind : (shown id).discriminant = state.discriminant) : Truthful book shown' active where
  last id' line hline := by
    rw [hshown]
    by_cases hid : id' = id
    · subst hid
      rw [if_pos rfl]
      rcases h.last id' line hline with htells | ⟨hstopped, hidle, hblocked⟩
      · exact .inl (htells.trans (lineOf_eq_iff.2 hkind))
      · refine .inr ⟨?_, hidle, hblocked⟩
        rw [hstopped] at hkind
        cases state with
        | stopped => rfl
        | _ => simp [SupervisorState.discriminant] at hkind
    · rw [if_neg hid]
      exact h.last id' line hline
  news := h.news

/-- A tunnel that is not shown as stopped may become active. -/
theorem Truthful.begins (h : Truthful book shown active) (hshown : shown id ≠ .stopped) (k : ℕ) :
    Truthful book shown (active.insert id k) where
  last id' line hline := by
    rcases h.last id' line hline with htells | ⟨hstopped, hidle, hblocked⟩
    · exact .inl htells
    · refine .inr ⟨hstopped, fun hmem => ?_, hblocked⟩
      rcases (AList.mem_insert _).1 hmem with rfl | hmem
      · exact hshown hstopped
      · exact hidle hmem
  news := h.news

end Truthful

/-! ## The log of a world -/

theorem entriesOf_append (id : TunnelId) (logs more : List LogEvent) :
    entriesOf id (logs ++ more) = entriesOf id logs ++ entriesOf id more := List.filter_append ..

theorem entriesOf_lineOf : entriesOf id [lineOf id' state] =
    if id' = id then [lineOf id' state] else [] := by
  rw [entriesOf, List.filter_singleton, about_lineOf]
  by_cases hid : id' = id
  · simp [hid]
  · simp [hid]

theorem entriesOf_suffix (id : TunnelId) {logs more : List LogEvent} (h : logs <:+ more) :
    entriesOf id logs <:+ entriesOf id more := h.filter _

namespace World

/-- What a tunnel is shown as; one that is not in the configuration is not
running. -/
def shown (w : World) (id : TunnelId) : SupervisorState :=
  ((w.current.lookup id).map TunnelView.state).getD .stopped

/-- The log of a world is true, and it is what is published of it. -/
structure Logs (w : World) : Prop where
  truthful : Truthful (fun id => entriesOf id w.logs) w.shown w.active
  published : w.logViews = w.logs
  few : w.logs.length ≤ maxLogEvents

/-- What is left of the log has room for one entry. -/
theorem pushLog_few (level : LogLevel) (source : LogSource) (subject stage message : String)
    (h : w.logs.length ≤ maxLogEvents) :
    (w.pushLog level source subject stage message).logs.length ≤ maxLogEvents := by
  have hroom : 0 < maxLogEvents := by decide
  unfold pushLog
  dsimp only
  rw [List.length_append, List.length_singleton]
  split
  · rename_i hfull
    rw [List.length_drop]
    omega
  · rename_i hfull
    omega

theorem logState_few (id : TunnelId) (state : SupervisorState)
    (h : w.logs.length ≤ maxLogEvents) : (w.logState id state).logs.length ≤ maxLogEvents := by
  unfold logState
  exact pushLog_few _ _ _ _ _ h

/-- An entry about one tunnel is the last of its entries; of the others'
the oldest may go. -/
theorem entriesOf_logState (id id' : TunnelId) (state : SupervisorState) (w : World) :
    entriesOf id' (w.logState id state).logs <:+
      entriesOf id' w.logs ++ if id = id' then [lineOf id state] else [] := by
  obtain ⟨kept, hkept, hlogs⟩ := logState_eq id state w
  obtain ⟨older, holder⟩ := entriesOf_suffix id' hkept
  refine ⟨older, ?_⟩
  rw [hlogs, entriesOf_append, entriesOf_lineOf, ← List.append_assoc, holder]

/-! ## Showing a state -/

theorem shown_setState (hid : id ∈ w.current) (localAddr : Option SocketAddr) (id' : TunnelId) :
    (w.setState id state localAddr).shown id' = if id' = id then state else w.shown id' := by
  rw [shown, setState_lookup]
  by_cases hsame : id' = id
  · rw [if_pos ⟨hsame, hid⟩, if_pos hsame]
    rfl
  · rw [if_neg fun h => hsame h.1, if_neg hsame, shown]

/-- A state of another kind is logged. -/
theorem setState_logged {view : TunnelView} (hview : w.current.lookup id = some view)
    (state : SupervisorState) (localAddr : Option SocketAddr) :
    w.setState id state localAddr =
      let v : World := { w with current := w.current.insert id ⟨state, localAddr⟩ }
      (if view.state.discriminant ≠ state.discriminant then v.logState id state else v).publish := by
  unfold World.setState
  rw [hview]

theorem Logs.setState (h : w.Logs) (id : TunnelId) (state : SupervisorState)
    (localAddr : Option SocketAddr) : (w.setState id state localAddr).Logs := by
  cases hview : w.current.lookup id with
  | none =>
      have hsame : w.setState id state localAddr = w := by rw [World.setState, hview]
      rw [hsame]
      exact h
  | some view =>
      have hid : id ∈ w.current := Map.mem_iff.2 ⟨view, hview⟩
      have hshown (id' : TunnelId) : (w.setState id state localAddr).shown id' =
          if id' = id then state else w.shown id' := shown_setState hid localAddr id'
      have hbefore : w.shown id = view.state := by rw [shown, hview]; rfl
      have hactive : (w.setState id state localAddr).active = w.active := setState_active ..
      let v : World := { w with current := w.current.insert id ⟨state, localAddr⟩ }
      by_cases hkind : view.state.discriminant = state.discriminant
      · have heq : w.setState id state localAddr = v.publish := by
          rw [setState_logged hview]
          dsimp only
          rw [if_neg (not_not_intro hkind)]
        have htruthful : Truthful (fun id => entriesOf id w.logs)
            (w.setState id state localAddr).shown w.active :=
          h.truthful.same hshown (by rw [hbefore]; exact hkind)
        refine ⟨?_, ?_, ?_⟩
        · rw [hactive]
          rw [heq] at htruthful ⊢
          exact htruthful
        · rw [heq]
          exact h.published
        · rw [heq]
          exact h.few
      · have heq : w.setState id state localAddr = (v.logState id state).publish := by
          rw [setState_logged hview]
          dsimp only
          rw [if_pos hkind]
        have htruthful : Truthful (fun id' => if id' = id then
              entriesOf id w.logs ++ [lineOf id state] else entriesOf id' w.logs)
            (w.setState id state localAddr).shown w.active :=
          h.truthful.write _ hshown (fun _ => rfl) (.inl (by rw [hbefore]; exact hkind))
        refine ⟨?_, ?_, ?_⟩
        · rw [hactive]
          refine htruthful.suffix fun id' => ?_
          rw [heq]
          have hsuffix := entriesOf_logState id id' state v
          by_cases hid : id' = id
          · subst hid
            rw [if_pos rfl] at hsuffix
            rw [if_pos rfl]
            exact hsuffix
          · rw [if_neg fun hc => hid hc.symm, List.append_nil] at hsuffix
            rw [if_neg hid]
            exact hsuffix
        · rw [heq]
          rfl
        · rw [heq]
          exact logState_few (w := v) id state h.few

/-! ## Starting and stopping -/

theorem Logs.start (h : w.Logs) (hviews : ∀ id, id ∈ w.tunnels → id ∈ w.current) (env : Env)
    (id : TunnelId) : (w.start env id).Logs := by
  rcases start_cases env id w with ⟨-, heq⟩ | ⟨-, -, reason, heq⟩ |
    ⟨-, tunnel, hosts, localAddr, ht, -, -, -, heq⟩
  · rw [heq]
    exact h
  · rw [heq]
    exact h.setState id _ none
  · have hspawned : (w.spawn id tunnel hosts).Logs := ⟨h.truthful, h.published, h.few⟩
    have hset := hspawned.setState id (.connecting 1) localAddr
    have hmem : id ∈ (w.spawn id tunnel hosts).current := hviews id (Map.mem_iff.2 ⟨tunnel, ht⟩)
    have hshown : ((w.spawn id tunnel hosts).setState id (.connecting 1) localAddr).shown id ≠
        .stopped := by
      rw [shown_setState hmem, if_pos rfl]
      nofun
    have htruthful := hset.truthful.begins hshown w.tasks.length
    rw [setState_active] at htruthful
    rw [heq]
    exact ⟨htruthful, hset.published, hset.few⟩

theorem Logs.stop (h : w.Logs) (env : Env) (id : TunnelId) : (w.stop env id).Logs := by
  rcases stop_cases env id w with ⟨-, heq⟩ | ⟨task, -, heq⟩
  · rw [heq]
    exact h.setState id _ none
  · have hfewer := h.truthful.fewer (w.active.erase id)
      fun id' hmem => (AList.mem_erase.1 hmem).2
    have hended : ({ w with active := w.active.erase id }.endTask task (env.inTime id)).Logs :=
      ⟨hfewer, h.published, h.few⟩
    rw [heq]
    exact hended.setState id _ none

theorem Logs.stopEach (h : w.Logs) (env : Env) (ids : List TunnelId) : (w.stopEach env ids).Logs :=
  List.foldlRecOn (motive := Logs) ids _ h fun _ hv id _ => hv.stop env id

theorem Logs.startEach (h : w.Logs) (hviews : ∀ id, id ∈ w.tunnels → id ∈ w.current) (env : Env)
    (ids : List TunnelId) : (w.startEach env ids).Logs := by
  have hboth := List.foldlRecOn
    (motive := fun v : World => v.Logs ∧ ∀ id, id ∈ v.tunnels → id ∈ v.current) ids
    (fun v id => v.start env id) ⟨h, hviews⟩ fun v hv id _ => by
      refine ⟨hv.1.start hv.2 env id, fun id' => ?_⟩
      rw [start_tunnels, mem_start_current]
      exact hv.2 id'
  exact hboth.1

/-! ## The poll -/

/-- The entries the poll has yet to write. -/
def due (transitions : List (TunnelId × SupervisorState)) (id : TunnelId) : List LogEvent :=
  (transitions.filter fun t => t.1 = id).map fun t => lineOf t.1 t.2

theorem due_concat (transitions : List (TunnelId × SupervisorState)) (id' : TunnelId) :
    due (transitions ++ [(id, state)]) id' =
      if id' = id then due transitions id ++ [lineOf id state] else due transitions id' := by
  unfold due
  rw [List.filter_append, List.map_append, List.filter_singleton]
  by_cases hid : id' = id
  · subst hid
    simp
  · simp [hid, Ne.symm hid]

/-- The log and the entries due are true of the views. -/
structure Due (p : Poll) : Prop where
  truthful : Truthful (fun id => entriesOf id p.world.logs ++ due p.transitions id) p.world.shown
    p.world.active
  published : p.world.logViews = p.world.logs
  few : p.world.logs.length ≤ maxLogEvents

theorem shown_insert (w : World) (id : TunnelId) (view : TunnelView) (id' : TunnelId) :
    ({ w with current := w.current.insert id view } : World).shown id' =
      if id' = id then view.state else w.shown id' := by
  rw [shown, Map.lookup_insert_eq]
  by_cases hid : id' = id
  · rw [if_pos hid, if_pos hid]
    rfl
  · rw [if_neg hid, if_neg hid, shown]

theorem Due.showState {p : Poll} (h : Due p) (env : Env) (id : TunnelId) (task : ℕ) (t : Task) :
    Due (showState env p id task t) := by
  unfold World.showState
  split
  · dsimp only
    cases hview : p.world.current.lookup id with
    | none => exact ⟨h.truthful, h.published, h.few⟩
    | some view =>
        have hbefore : p.world.shown id = view.state := by rw [shown, hview]; rfl
        have hshown := shown_insert p.world id { view with state := t.state }
        by_cases hkind : view.state.discriminant = t.state.discriminant
        · have hsame := h.truthful.same hshown (by rw [hbefore]; exact hkind)
          dsimp only
          rw [if_neg (not_not_intro hkind), List.append_nil]
          exact ⟨hsame, h.published, h.few⟩
        · have hwritten := h.truthful.write
            (fun id' => entriesOf id' p.world.logs ++
              due (p.transitions ++ [(id, t.state)]) id') hshown (fun id' => ?_)
            (.inl (by rw [hbefore]; exact hkind))
          · dsimp only
            rw [if_pos hkind]
            exact ⟨hwritten, h.published, h.few⟩
          · rw [due_concat]
            by_cases hid : id' = id
            · rw [if_pos hid, if_pos hid, hid, List.append_assoc]
            · rw [if_neg hid, if_neg hid]
  · exact h

theorem Due.pollOne {p : Poll} (h : Due p) (env : Env) (id : TunnelId) :
    Due (pollOne env p id) := by
  unfold World.pollOne
  cases p.world.active.lookup id with
  | none => exact h
  | some task =>
      dsimp only
      cases p.world.tasks[task]? with
      | none => exact h
      | some t =>
          have hshown := h.showState env id task t
          dsimp only
          split
          · exact ⟨hshown.truthful, hshown.published, hshown.few⟩
          · exact hshown

theorem Due.finishOne {p : Poll} (h : Due p) (id : TunnelId) : Due (finishOne p id) := by
  unfold World.finishOne
  cases p.world.active.lookup id with
  | none => exact h
  | some task =>
      have hfewer := h.truthful.fewer (p.world.active.erase id)
        fun id' hmem => (AList.mem_erase.1 hmem).2
      dsimp only
      split
      · exact ⟨hfewer, h.published, h.few⟩
      · let reason : String := exitReason (p.world.tasks[task]?.bind Task.exit)
        have hwritten := hfewer.write
          (fun id' => entriesOf id' p.world.logs ++
            due (p.transitions ++ [(id, .blocked reason)]) id')
          (shown_insert p.world id ⟨.blocked reason, none⟩) (fun id' => ?_) (.inr ⟨reason, rfl⟩)
        · exact ⟨hwritten, h.published, h.few⟩
        · rw [due_concat]
          by_cases hid : id' = id
          · rw [if_pos hid, if_pos hid, hid, List.append_assoc]
          · rw [if_neg hid, if_neg hid]

/-- The entries due are written one after another. -/
theorem logStates (transitions : List (TunnelId × SupervisorState)) (w : World)
    (hpublished : w.logViews = w.logs) (hfew : w.logs.length ≤ maxLogEvents) :
    let v := transitions.foldl (fun w t => w.logState t.1 t.2) w
    (∀ id, entriesOf id v.logs <:+ entriesOf id w.logs ++ due transitions id) ∧
      v.logViews = v.logs ∧ v.logs.length ≤ maxLogEvents ∧ v.current = w.current ∧
      v.active = w.active := by
  induction transitions using List.reverseRecOn with
  | nil => exact ⟨fun id => by simp [due], hpublished, hfew, rfl, rfl⟩
  | append_singleton transitions t ih =>
      obtain ⟨hentries, -, hlength, hcurrent, hactive⟩ := ih
      rw [List.foldl_append]
      refine ⟨fun id => ?_, rfl, logState_few t.1 t.2 hlength, hcurrent, hactive⟩
      refine (entriesOf_logState t.1 id t.2 _).trans ?_
      obtain ⟨older, holder⟩ := hentries id
      refine ⟨older, ?_⟩
      rw [← List.append_assoc, holder, due_concat]
      by_cases hid : id = t.1
      · rw [if_pos hid.symm, if_pos hid, hid, List.append_assoc]
      · rw [if_neg fun hc => hid hc.symm, if_neg hid, List.append_nil]

theorem Logs.refresh (h : w.Logs) (env : Env) : (w.refresh env).Logs := by
  obtain ⟨kept, views, hprune⟩ := w.prunePrompts_cases
  let ids : List TunnelId := arrange (env.order 0) w.prunePrompts.active.keys
  let polled : Poll := ids.foldl (pollOne env) { world := w.prunePrompts }
  let p : Poll := polled.finished.foldl World.finishOne polled
  have hfirst : Due { world := w.prunePrompts } := by
    rw [hprune]
    refine ⟨?_, h.published, h.few⟩
    have hnone : ∀ id, due [] id = [] := fun _ => rfl
    simp only [hnone, List.append_nil]
    exact h.truthful
  have hpolled : Due polled :=
    List.foldlRecOn (motive := Due) ids _ hfirst fun _ hq id _ => hq.pollOne env id
  have hp : Due p :=
    List.foldlRecOn (motive := Due) polled.finished _ hpolled fun _ hq id _ => hq.finishOne id
  obtain ⟨hentries, hpublished, hfew, hcurrent, hactive⟩ :=
    logStates p.transitions p.world hp.published hp.few
  have htruthful := hp.truthful.suffix hentries
  have hshown : (p.transitions.foldl (fun w t => w.logState t.1 t.2) p.world).shown =
      p.world.shown := by
    funext id
    rw [shown, hcurrent, shown]
  have hlogs : (p.transitions.foldl (fun w t => w.logState t.1 t.2) p.world).Logs := by
    refine ⟨?_, hpublished, hfew⟩
    rw [hshown, hactive]
    exact htruthful
  unfold World.refresh
  dsimp only
  split
  · exact ⟨hlogs.truthful, hlogs.published, hlogs.few⟩
  · exact hlogs

/-! ## The other inputs -/

/-- A tunnel of the new configuration is shown as it was. -/
theorem shown_exchange {config : DomainConfig}
    (hid : id ∈ Map.ofValues TunnelConfig.id config.tunnels) (env : Env) (w : World) :
    (w.exchange env config).shown id =
      (({ w with configViews := config } : World).stopEach env (w.toRestart env config)).shown
        id := by
  rw [shown, exchange_lookup_current, if_pos hid, shown]
  cases (({ w with configViews := config } : World).stopEach env
    (w.toRestart env config)).current.lookup id <;> rfl

/-- What is taken out of the configuration is not running, so its last
entry says that it is stopped or blocked. -/
theorem Logs.exchange (h : w.Logs) (hbook : Bookkeeping w) (env : Env) (config : DomainConfig) :
    (w.exchange env config).Logs := by
  let stopped : World := { w with configViews := config }.stopEach env (w.toRestart env config)
  have hfirst : ({ w with configViews := config } : World).Logs := ⟨h.truthful, h.published, h.few⟩
  have hstopped : stopped.Logs := hfirst.stopEach env _
  have hbooks : Bookkeeping stopped := by
    have hfirst : Bookkeeping { w with configViews := config } :=
      ⟨⟨hbook.views, hbook.tasks⟩, hbook.published⟩
    exact hfirst.stopEach env _
  refine ⟨⟨fun id line hline => ?_, hstopped.truthful.news⟩, hstopped.published, hstopped.few⟩
  have hlast : Tells id line (stopped.shown id) (id ∈ stopped.active) :=
    hstopped.truthful.last id line hline
  by_cases hmem : id ∈ Map.ofValues TunnelConfig.id config.tunnels
  · rw [shown_exchange hmem]
    exact hlast
  · have hshown : (w.exchange env config).shown id = .stopped := by
      rw [shown, exchange_lookup_current, if_neg hmem]
      rfl
    have hidle : id ∉ (w.exchange env config).active := fun hactive => by
      obtain ⟨k, hk⟩ := Map.mem_iff.1 hactive
      obtain ⟨-, new, -, hnew, -⟩ := needsRestart_false (exchange_active env config w hk).2
      exact hmem (Map.mem_iff.2 ⟨new, hnew⟩)
    have hbefore : (stopped.shown id).Idle := by
      rw [shown]
      cases hview : stopped.current.lookup id with
      | none => exact .inl rfl
      | some view => exact (hbooks.views.idle id view hview hidle).1
    rw [hshown]
    rcases hlast with htells | ⟨-, -, hblocked⟩
    · rcases hbefore with hstop | ⟨reason, hblock⟩
      · rw [hstop] at htells
        exact .inl htells
      · rw [hblock] at htells
        exact .inr ⟨rfl, hidle, reason, htells⟩
    · exact .inr ⟨rfl, hidle, hblocked⟩

theorem Logs.replaceConfig (h : w.Logs) (hbook : Bookkeeping w) (env : Env)
    (config : DomainConfig) : (w.replaceConfig env config).Logs := by
  rw [replaceConfig_eq]
  refine (h.exchange hbook env config).startEach (fun id => ?_) env _
  exact ((hbook.exchange env config).views.keys id).2

theorem Logs.handle (h : w.Logs) (hbook : Bookkeeping w) (home : Option PathBuf) (codec : Codec)
    (env : Env) (command : CoreCommand) : (w.handle home codec env command).2.Logs := by
  have hviews : ∀ id, id ∈ w.tunnels → id ∈ w.current := fun id => (hbook.views.keys id).2
  cases command with
  | startAll => exact h.startEach hviews env _
  | stopAll => exact h.stopEach env _
  | startGroup group => exact h.startEach hviews env _
  | stopGroup group => exact h.stopEach env _
  | startTunnel id => exact h.start hviews env id
  | stopTunnel id => exact h.stop env id
  | restartTunnel id =>
      exact (h.stop env id).start (fun id' => ((hbook.stop env id).views.keys id').2) env id
  | retryTunnel id =>
      exact retry_keeps h (fun _ => ⟨h.truthful, h.published, h.few⟩) (h.start hviews env id)
  | networkRecovered =>
      exact networkRecovered_keeps h fun _ _ hv => ⟨hv.truthful, hv.published, hv.few⟩
  | saveConfig directory config secret =>
      obtain ⟨stores, hsave⟩ := saveConfig_cases home codec env directory config secret w
      have hstored : ({ w with stores } : World).Logs := ⟨h.truthful, h.published, h.few⟩
      rcases hsave with ⟨-, heq⟩ | ⟨-, heq⟩
      · rw [World.handle, heq]
        exact hstored.replaceConfig ⟨⟨hbook.views, hbook.tasks⟩, hbook.published⟩ env config
      · rw [World.handle, heq]
        exact hstored
  | importConfig path => exact ⟨h.truthful, h.published, h.few⟩
  | previewSshConfig path => exact h
  | exportConfig path config => exact ⟨h.truthful, h.published, h.few⟩
  | resolveHostKey id decision =>
      unfold World.handle resolveHostKey
      dsimp only
      split
      · exact h
      · exact ⟨h.truthful, h.published, h.few⟩

/-- A prompt is logged, about no tunnel. -/
theorem Logs.queueHostKey (h : w.Logs) (prompt : HostKeyPrompt) : (w.queueHostKey prompt).Logs := by
  unfold World.queueHostKey
  split
  · exact ⟨h.truthful, h.published, h.few⟩
  · refine ⟨h.truthful.suffix fun id => ?_, rfl, pushLog_few _ _ _ _ _ h.few⟩
    have hother : entriesOf id [⟨.warning, .host, prompt.host, "Host key", "Confirmation required"⟩] =
        [] := rfl
    change entriesOf id (_ ++ _) <:+ _
    rw [entriesOf_append, hother, List.append_nil]
    split
    · exact entriesOf_suffix _ (List.drop_suffix 1 _)
    · exact List.suffix_rfl

/-- **One input** keeps the log true. -/
theorem Logs.step (h : w.Logs) (hbook : w.running = true → Bookkeeping w) (home : Option PathBuf)
    (codec : Codec) (input : Input) : (w.step home codec input).2.Logs := by
  unfold World.step
  split
  · exact h
  · rename_i hrun
    have hbook := hbook (by simpa using hrun)
    cases input with
    | command command env => exact h.handle hbook home codec env command
    | prompt prompt => exact h.queueHostKey prompt
    | tick env =>
        dsimp only
        split
        · exact h
        · exact h.refresh env
    | report task state => exact ⟨h.truthful, h.published, h.few⟩
    | exit task result => exact ⟨h.truthful, h.published, h.few⟩
    | giveUp reply => exact ⟨h.truthful, h.published, h.few⟩
    | shutdown env =>
        have hfield {α : Type} (field : World → α)
            (hf : ∀ (v : World) active tasks history pending running,
              field { v with
                active := active, tasks := tasks, history := history,
                pendingHostKeys := pending, running := running } = field v) :
            field (w.drain env) = field w :=
          List.foldlRecOn (motive := fun v : World => field v = field w) _ _
            (hf w w.active w.tasks w.history [] false) fun v hv _ _ =>
              (hf v _ _ _ v.pendingHostKeys v.running).trans hv
        have hlogs := hfield World.logs fun _ _ _ _ _ _ => rfl
        have hcurrent := hfield World.current fun _ _ _ _ _ _ => rfl
        have hshown : (w.drain env).shown = w.shown := by
          funext id
          rw [shown, hcurrent, shown]
        have hfewer := h.truthful.fewer (w.drain env).active
          fun id hmem => absurd hmem ((drain_handled env w).2 id)
        refine ⟨?_, ?_, ?_⟩
        · rw [hlogs, hshown]
          exact hfewer
        · rw [hlogs, hfield World.logViews fun _ _ _ _ _ _ => rfl]
          exact h.published
        · rw [hlogs]
          exact h.few

end World

/-! ## Along every run -/

theorem logs_booted (h : Booted w) : w.Logs := by
  obtain ⟨order, hosts, groups, tunnels, app, stores, env, w₀, hnew, rfl⟩ := h
  have hbook := bookkeeping_new hnew
  let w₁ : World := { (w₀.withAppSettings app) with stores, autoStart := [] }
  have hempty : w₁.logs = [] ∧ w₁.logViews = [] := by
    unfold new at hnew
    split at hnew
    · cases hnew
    · split at hnew
      · cases hnew
      · obtain rfl := Except.ok.inj hnew
        exact ⟨rfl, rfl⟩
  have hlogs : w₁.Logs := by
    refine ⟨⟨fun id line hline => ?_, fun id => ?_⟩, hempty.2.trans hempty.1.symm, ?_⟩
    · rw [hempty.1] at hline
      cases hline
    · rw [hempty.1]
      exact List.isChain_nil
    · rw [hempty.1]
      exact Nat.zero_le _
  exact hlogs.startEach (fun id => (hbook.views.keys id).2) env w₀.autoStart

end Manager

end TunnelWarden
