import Mathlib.Data.List.DropRight
import TunnelWarden.Manager.Logbook

/-!
# What a step adds to the log

A tunnel whose view changes to a state of another kind is written about,
and the last of the entries about it is of the new state (`Recounts`).
Each operation that shows states has this property, and two that follow
each other have it together; the poll writes its entries when all views
are set. A new configuration is the exception, as a tunnel that it takes
out is not written about: a whole step recounts what changed of the
tunnels that are in the configuration after it.
-/

namespace TunnelWarden

/-- The last of the last are the last. -/
theorem rtake_rtake_append {α : Type} (n : ℕ) (l more : List α) :
    (l.rtake n ++ more).rtake n = (l ++ more).rtake n := by
  unfold List.rtake
  rw [← List.drop_append_of_le_length (Nat.sub_le _ _), List.drop_drop, List.length_drop,
    List.length_append]
  congr 1
  omega

namespace Manager

variable {id id' : TunnelId} {state : SupervisorState} {u v w : World} {env : Env}

/-- **The entries recount the change**: the last is of the state the
tunnel is now shown as, and where there are none its kind is what it
was. -/
def Recounts (id : TunnelId) (before : SupervisorState) (entries : List LogEvent)
    (after : SupervisorState) : Prop :=
  entries.getLast? = some (lineOf id after) ∨
    entries = [] ∧ before.discriminant = after.discriminant

theorem recounts_nil (id : TunnelId) (state : SupervisorState) : Recounts id state [] state :=
  .inr ⟨rfl, rfl⟩

theorem Recounts.append {before after : SupervisorState} {entries more : List LogEvent}
    (h : Recounts id before entries state) (h' : Recounts id state more after) :
    Recounts id before (entries ++ more) after := by
  rcases h' with hlast | ⟨rfl, hkind⟩
  · refine .inl ?_
    rw [List.getLast?_append, hlast]
    rfl
  · rw [List.append_nil]
    rcases h with hlast | ⟨hnone, hbefore⟩
    · exact .inl (hlast.trans (congrArg some (lineOf_eq_iff.2 hkind)))
    · exact .inr ⟨hnone, hbefore.trans hkind⟩

section Recounted

variable {first shown shown' : TunnelId → SupervisorState} {book book' : TunnelId → List LogEvent}

/-- **What was written recounts what was shown**, of every tunnel. -/
def Recounted (first : TunnelId → SupervisorState) (book : TunnelId → List LogEvent)
    (shown : TunnelId → SupervisorState) : Prop :=
  ∀ id, Recounts id (first id) (book id) (shown id)

/-- No entry for a state of the same kind. -/
theorem Recounted.same (h : Recounted first book shown)
    (hshown : ∀ id', shown' id' = if id' = id then state else shown id')
    (hkind : (shown id).discriminant = state.discriminant) : Recounted first book shown' := by
  intro id'
  rw [hshown]
  by_cases hid : id' = id
  · subst hid
    rw [if_pos rfl]
    have hboth := (h id').append (.inr ⟨rfl, hkind⟩)
    rwa [List.append_nil] at hboth
  · rw [if_neg hid]
    exact h id'

/-- An entry for a state. -/
theorem Recounted.write (h : Recounted first book shown) (book' : TunnelId → List LogEvent)
    (hshown : ∀ id', shown' id' = if id' = id then state else shown id')
    (hbook : ∀ id', book' id' = if id' = id then book id ++ [lineOf id state] else book id') :
    Recounted first book' shown' := by
  intro id'
  rw [hshown, hbook]
  by_cases hid : id' = id
  · rw [if_pos hid, if_pos hid, hid]
    exact .inl List.getLast?_concat
  · rw [if_neg hid, if_neg hid]
    exact h id'

end Recounted

namespace World

/-- The log after is the end of the one before and of what was written
since, and this recounts what has changed. -/
def Wrote (w v : World) : Prop :=
  ∃ written, v.logs = (w.logs ++ written).rtake maxLogEvents ∧
    Recounted w.shown (fun id => entriesOf id written) v.shown

theorem Wrote.few (h : w.Wrote v) : v.logs.length ≤ maxLogEvents := by
  obtain ⟨written, hlogs, -⟩ := h
  rw [hlogs, List.rtake, List.length_drop]
  omega

theorem rtake_of_few (hfew : w.logs.length ≤ maxLogEvents) :
    w.logs.rtake maxLogEvents = w.logs := by
  rw [List.rtake, Nat.sub_eq_zero_of_le hfew, List.drop_zero]

/-- Nothing is written, and nothing shown changes. -/
theorem wrote_nothing (hfew : w.logs.length ≤ maxLogEvents) (hlogs : v.logs = w.logs)
    (hshown : v.shown = w.shown) : w.Wrote v := by
  refine ⟨[], ?_, fun id => ?_⟩
  · rw [List.append_nil, rtake_of_few hfew, hlogs]
  · rw [hshown]
    exact recounts_nil id _

theorem Wrote.trans (h : w.Wrote v) (h' : v.Wrote u) : w.Wrote u := by
  obtain ⟨written, hlogs, hrecounts⟩ := h
  obtain ⟨written', hlogs', hrecounts'⟩ := h'
  refine ⟨written ++ written', ?_, fun id => ?_⟩
  · rw [hlogs', hlogs, rtake_rtake_append, List.append_assoc]
  · dsimp only
    rw [entriesOf_append]
    exact (hrecounts id).append (hrecounts' id)

theorem pushLog_rtake (hfew : w.logs.length ≤ maxLogEvents) (level : LogLevel) (source : LogSource)
    (subject stage message : String) :
    (w.pushLog level source subject stage message).logs =
      (w.logs ++ [LogEvent.mk level source subject stage message]).rtake maxLogEvents := by
  have hroom : 0 < maxLogEvents := by decide
  unfold pushLog List.rtake
  dsimp only
  rw [List.length_append, List.length_singleton]
  split
  · rename_i hfull
    rw [show w.logs.length + 1 - maxLogEvents = 1 by omega,
      List.drop_append_of_le_length (by omega)]
  · rw [show w.logs.length + 1 - maxLogEvents = 0 by omega, List.drop_zero]

theorem logState_rtake (hfew : w.logs.length ≤ maxLogEvents) (id : TunnelId)
    (state : SupervisorState) :
    (w.logState id state).logs = (w.logs ++ [lineOf id state]).rtake maxLogEvents := by
  unfold logState
  cases state
  all_goals exact pushLog_rtake hfew _ _ _ _ _

/-! ## Showing a state -/

theorem wrote_setState (hfew : w.logs.length ≤ maxLogEvents) (id : TunnelId)
    (state : SupervisorState) (localAddr : Option SocketAddr) :
    w.Wrote (w.setState id state localAddr) := by
  cases hview : w.current.lookup id with
  | none =>
      have hsame : w.setState id state localAddr = w := by rw [World.setState, hview]
      rw [hsame]
      exact wrote_nothing hfew rfl rfl
  | some view =>
      have hid : id ∈ w.current := Map.mem_iff.2 ⟨view, hview⟩
      have hshown (id' : TunnelId) : (w.setState id state localAddr).shown id' =
          if id' = id then state else w.shown id' := shown_setState hid localAddr id'
      have hbefore : w.shown id = view.state := by rw [shown, hview]; rfl
      have hnothing : Recounted w.shown (fun id => entriesOf id []) w.shown :=
        fun id => recounts_nil id _
      have heq := setState_logged hview state localAddr
      dsimp only at heq
      by_cases hkind : view.state.discriminant = state.discriminant
      · rw [if_neg (not_not_intro hkind)] at heq
        refine ⟨[], ?_, hnothing.same hshown (by rw [hbefore]; exact hkind)⟩
        rw [List.append_nil, rtake_of_few hfew, heq]
        rfl
      · rw [if_pos hkind] at heq
        refine ⟨[lineOf id state], ?_, hnothing.write _ hshown fun id' => ?_⟩
        · rw [heq]
          exact logState_rtake hfew id state
        · rw [entriesOf_lineOf]
          by_cases hsame : id' = id
          · rw [if_pos hsame.symm, if_pos hsame]
            rfl
          · rw [if_neg fun hc => hsame hc.symm, if_neg hsame]
            rfl

theorem wrote_start (hfew : w.logs.length ≤ maxLogEvents) (env : Env) (id : TunnelId) :
    w.Wrote (w.start env id) := by
  rcases start_cases env id w with ⟨-, heq⟩ | ⟨-, -, reason, heq⟩ |
    ⟨-, tunnel, hosts, localAddr, -, -, -, -, heq⟩
  · rw [heq]
    exact wrote_nothing hfew rfl rfl
  · rw [heq]
    exact wrote_setState hfew id _ none
  · rw [heq]
    exact wrote_setState (w := w.spawn id tunnel hosts) hfew id (.connecting 1) localAddr

theorem wrote_stop (hfew : w.logs.length ≤ maxLogEvents) (env : Env) (id : TunnelId) :
    w.Wrote (w.stop env id) := by
  rcases stop_cases env id w with ⟨-, heq⟩ | ⟨task, -, heq⟩
  · rw [heq]
    exact wrote_setState hfew id _ none
  · rw [heq]
    exact wrote_setState
      (w := { w with active := w.active.erase id }.endTask task (env.inTime id)) hfew id _ none

theorem wrote_startEach (hfew : w.logs.length ≤ maxLogEvents) (env : Env) (ids : List TunnelId) :
    w.Wrote (w.startEach env ids) :=
  List.foldlRecOn ids _ (wrote_nothing hfew rfl rfl)
    fun _ hv id _ => hv.trans (wrote_start hv.few env id)

theorem wrote_stopEach (hfew : w.logs.length ≤ maxLogEvents) (env : Env) (ids : List TunnelId) :
    w.Wrote (w.stopEach env ids) :=
  List.foldlRecOn ids _ (wrote_nothing hfew rfl rfl)
    fun _ hv id _ => hv.trans (wrote_stop hv.few env id)

/-! ## The poll -/

/-- What the poll has shown, it has yet to write. -/
structure Owes (w : World) (p : Poll) : Prop where
  logs : p.world.logs = w.logs
  recounted : Recounted w.shown (due p.transitions) p.world.shown

theorem Owes.showState {p : Poll} (h : Owes w p) (env : Env) (id : TunnelId) (task : ℕ) (t : Task) :
    Owes w (showState env p id task t) := by
  unfold World.showState
  split
  · dsimp only
    cases hview : p.world.current.lookup id with
    | none => exact ⟨h.logs, h.recounted⟩
    | some view =>
        have hbefore : p.world.shown id = view.state := by rw [shown, hview]; rfl
        have hshown := shown_insert p.world id { view with state := t.state }
        dsimp only
        by_cases hkind : view.state.discriminant = t.state.discriminant
        · rw [if_neg (not_not_intro hkind), List.append_nil]
          exact ⟨h.logs, h.recounted.same hshown (by rw [hbefore]; exact hkind)⟩
        · rw [if_pos hkind]
          exact ⟨h.logs, h.recounted.write _ hshown (due_concat p.transitions)⟩
  · exact h

theorem Owes.pollOne {p : Poll} (h : Owes w p) (env : Env) (id : TunnelId) :
    Owes w (pollOne env p id) := by
  unfold World.pollOne
  cases p.world.active.lookup id with
  | none => exact h
  | some task =>
      dsimp only
      cases p.world.tasks[task]? with
      | none => exact h
      | some t =>
          have hshown := h.showState env id task t
          dsimp only
          split
          · exact ⟨hshown.logs, hshown.recounted⟩
          · exact hshown

theorem Owes.finishOne {p : Poll} (h : Owes w p) (id : TunnelId) : Owes w (finishOne p id) := by
  unfold World.finishOne
  cases p.world.active.lookup id with
  | none => exact h
  | some task =>
      dsimp only
      split
      · exact ⟨h.logs, h.recounted⟩
      · let reason : String := exitReason (p.world.tasks[task]?.bind Task.exit)
        have hshown := shown_insert p.world id ⟨.blocked reason, none⟩
        exact ⟨h.logs, h.recounted.write _ hshown (due_concat p.transitions)⟩

/-- The entries due, one after another. -/
theorem logStates_rtake (transitions : List (TunnelId × SupervisorState))
    (hfew : w.logs.length ≤ maxLogEvents) :
    (transitions.foldl (fun w t => w.logState t.1 t.2) w).logs =
      (w.logs ++ transitions.map fun t => lineOf t.1 t.2).rtake maxLogEvents := by
  induction transitions using List.reverseRecOn with
  | nil => rw [List.map_nil, List.append_nil, rtake_of_few hfew]; rfl
  | append_singleton transitions t ih =>
      have hfew' : (transitions.foldl (fun w t => w.logState t.1 t.2) w).logs.length ≤
          maxLogEvents := by
        rw [ih, List.rtake, List.length_drop]
        omega
      rw [List.foldl_append, List.map_append]
      refine (logState_rtake hfew' t.1 t.2).trans ?_
      rw [ih, rtake_rtake_append, List.append_assoc]
      rfl

theorem logStates_shown (transitions : List (TunnelId × SupervisorState)) (w : World) :
    (transitions.foldl (fun w t => w.logState t.1 t.2) w).shown = w.shown :=
  List.foldlRecOn (motive := fun v : World => v.shown = w.shown) transitions _ rfl
    fun _ hv _ _ => hv

theorem entriesOf_due (transitions : List (TunnelId × SupervisorState)) (id : TunnelId) :
    entriesOf id (transitions.map fun t => lineOf t.1 t.2) = due transitions id := by
  rw [entriesOf, due, List.filter_map]
  congr 2
  funext t
  exact about_lineOf

theorem wrote_refresh (h : w.Logs) (env : Env) : w.Wrote (w.refresh env) := by
  obtain ⟨kept, views, hprune⟩ := w.prunePrompts_cases
  let ids : List TunnelId := arrange (env.order 0) w.prunePrompts.active.keys
  let polled : Poll := ids.foldl (pollOne env) { world := w.prunePrompts }
  let p : Poll := polled.finished.foldl World.finishOne polled
  have hfirst : Owes w { world := w.prunePrompts } := by
    rw [hprune]
    exact ⟨rfl, fun id => recounts_nil id _⟩
  have hpolled : Owes w polled :=
    List.foldlRecOn (motive := Owes w) ids _ hfirst fun _ hq id _ => hq.pollOne env id
  have hp : Owes w p :=
    List.foldlRecOn (motive := Owes w) polled.finished _ hpolled fun _ hq id _ => hq.finishOne id
  have hfew : p.world.logs.length ≤ maxLogEvents := by rw [hp.logs]; exact h.few
  have hwrote : w.Wrote (p.transitions.foldl (fun w t => w.logState t.1 t.2) p.world) := by
    refine ⟨p.transitions.map fun t => lineOf t.1 t.2, ?_, fun id => ?_⟩
    · rw [logStates_rtake p.transitions hfew, hp.logs]
    · dsimp only
      rw [entriesOf_due, logStates_shown]
      exact hp.recounted id
  unfold World.refresh
  dsimp only
  split
  · exact hwrote
  · exact hwrote

/-! ## A step -/

/-- The log after a step, and what it recounts of the tunnels that are in
the configuration then. -/
def Recorded (w v : World) : Prop :=
  ∃ written, v.logs = (w.logs ++ written).rtake maxLogEvents ∧
    ∀ id ∈ v.current, Recounts id (w.shown id) (entriesOf id written) (v.shown id)

theorem Wrote.recorded (h : w.Wrote v) : w.Recorded v := by
  obtain ⟨written, hlogs, hrecounts⟩ := h
  exact ⟨written, hlogs, fun id _ => hrecounts id⟩

/-- A tunnel that stays in the configuration is written about while it is
stopped and while it is started. -/
theorem recorded_replaceConfig (hfew : w.logs.length ≤ maxLogEvents) (hbook : Bookkeeping w)
    (env : Env) (config : DomainConfig) : w.Recorded (w.replaceConfig env config) := by
  have hkeys : ∀ id ∈ (w.replaceConfig env config).current,
      id ∈ Map.ofValues TunnelConfig.id config.tunnels := by
    intro id hid
    obtain ⟨-, -, htunnels, -⟩ := replaceConfig_installs env config w
    rw [← htunnels]
    exact ((hbook.replaceConfig env config).views.keys id).1 hid
  obtain ⟨stopped, hstopped, hbefore⟩ :=
    wrote_stopEach (w := { w with configViews := config }) hfew env (w.toRestart env config)
  have hexchanged : (w.exchange env config).logs =
      (w.logs ++ stopped).rtake maxLogEvents := hstopped
  have hfew' : (w.exchange env config).logs.length ≤ maxLogEvents := by
    rw [hexchanged, List.rtake, List.length_drop]
    omega
  obtain ⟨started, hstarted, hafter⟩ := wrote_startEach hfew' env (w.toStart env config)
  refine ⟨stopped ++ started, ?_, fun id hid => ?_⟩
  · rw [replaceConfig_eq, hstarted, hexchanged, rtake_rtake_append, List.append_assoc]
  · have hfirst := hbefore id
    rw [← shown_exchange (hkeys id hid)] at hfirst
    rw [entriesOf_append]
    exact hfirst.append (hafter id)

theorem recorded_handle (hfew : w.logs.length ≤ maxLogEvents) (hbook : Bookkeeping w)
    (home : Option PathBuf) (codec : Codec) (env : Env) (command : CoreCommand) :
    w.Recorded (w.handle home codec env command).2 := by
  have hnothing : w.Wrote w := wrote_nothing hfew rfl rfl
  cases command with
  | startAll => exact (wrote_startEach hfew env _).recorded
  | stopAll => exact (wrote_stopEach hfew env _).recorded
  | startGroup group => exact (wrote_startEach hfew env _).recorded
  | stopGroup group => exact (wrote_stopEach hfew env _).recorded
  | startTunnel id => exact (wrote_start hfew env id).recorded
  | stopTunnel id => exact (wrote_stop hfew env id).recorded
  | restartTunnel id =>
      have hstop := wrote_stop hfew env id
      exact (hstop.trans (wrote_start hstop.few env id)).recorded
  | retryTunnel id =>
      have hretry : w.Wrote (w.retry env id) :=
        retry_keeps hnothing (fun _ => wrote_nothing hfew rfl rfl) (wrote_start hfew env id)
      exact hretry.recorded
  | networkRecovered =>
      have hhints : w.Wrote (w.networkRecovered env) :=
        networkRecovered_keeps hnothing fun _ _ hv => hv.trans (wrote_nothing hv.few rfl rfl)
      exact hhints.recorded
  | saveConfig directory config secret =>
      obtain ⟨stores, hsave⟩ := saveConfig_cases home codec env directory config secret w
      rcases hsave with ⟨-, heq⟩ | ⟨-, heq⟩
      · rw [World.handle, heq]
        exact recorded_replaceConfig (w := { w with stores }) hfew
          ⟨⟨hbook.views, hbook.tasks⟩, hbook.published⟩ env config
      · rw [World.handle, heq]
        exact (wrote_nothing (v := { w with stores }) hfew rfl rfl).recorded
  | importConfig path => exact (wrote_nothing hfew rfl rfl).recorded
  | previewSshConfig path => exact hnothing.recorded
  | exportConfig path config => exact (wrote_nothing hfew rfl rfl).recorded
  | resolveHostKey id decision =>
      unfold World.handle resolveHostKey
      dsimp only
      split
      · exact hnothing.recorded
      · exact (wrote_nothing hfew rfl rfl).recorded

/-- A prompt is written about, and that entry is about no tunnel. -/
theorem wrote_queueHostKey (hfew : w.logs.length ≤ maxLogEvents) (prompt : HostKeyPrompt) :
    w.Wrote (w.queueHostKey prompt) := by
  unfold World.queueHostKey
  split
  · exact wrote_nothing hfew rfl rfl
  · refine ⟨[⟨.warning, .host, prompt.host, "Host key", "Confirmation required"⟩], ?_,
      fun id => recounts_nil id _⟩
    exact pushLog_rtake (w := { w with }) hfew .warning .host prompt.host "Host key"
      "Confirmation required"

/-- **One input** is recorded, unless it ends the loop. -/
theorem recorded_step (hlogs : w.Logs) (hbook : w.running = true → Bookkeeping w)
    (home : Option PathBuf) (codec : Codec) (input : Input)
    (hrun : (w.step home codec input).2.running = true) :
    w.Recorded (w.step home codec input).2 := by
  have hbefore : w.running = true := step_running hrun
  have hnothing : w.Wrote w := wrote_nothing hlogs.few rfl rfl
  unfold World.step at hrun ⊢
  rw [if_neg (by simp [hbefore])] at hrun ⊢
  cases input with
  | command command env => exact recorded_handle hlogs.few (hbook hbefore) home codec env command
  | prompt prompt => exact (wrote_queueHostKey hlogs.few prompt).recorded
  | tick env =>
      dsimp only
      split
      · exact hnothing.recorded
      · exact (wrote_refresh hlogs env).recorded
  | report task state => exact (wrote_nothing hlogs.few rfl rfl).recorded
  | exit task result => exact (wrote_nothing hlogs.few rfl rfl).recorded
  | giveUp reply => exact (wrote_nothing hlogs.few rfl rfl).recorded
  | shutdown env => simp [Bookkeeping.drain_running] at hrun

end World

/-! ## Along every run -/

/-- **The log is true of what is shown.** Along every run the published
log has at most so many entries, and the last one about a tunnel says what
kind of state its published view is in; or the tunnel is idle, shown as
stopped, and the entry says that it was blocked. Two entries about a tunnel
that follow each other differ, unless both say that it is blocked. And
every step adds entries at the end, which recount how the views it
publishes differ from those before. -/
theorem log_tells (home : Option PathBuf) (codec : Codec) (hw : Booted w) (inputs : List Input)
    (hrun : (runState (World.step home codec) w inputs).running = true) :
    let s := runState (World.step home codec) w inputs
    s.logViews.length ≤ maxLogEvents ∧
      (∀ id view line, s.snapshots.lookup id = some view →
        (entriesOf id s.logViews).getLast? = some line →
        Tells id line view.state (id ∈ s.active)) ∧
      (∀ id, (entriesOf id s.logViews).IsChain (News id)) ∧
      ∀ input, let next := (s.step home codec input).2
        next.running = true →
          ∃ written, next.logViews = (s.logViews ++ written).rtake maxLogEvents ∧
            ∀ id view, next.snapshots.lookup id = some view →
              Recounts id (((s.snapshots.lookup id).map TunnelView.state).getD .stopped)
                (entriesOf id written) view.state := by
  intro s
  have hstep : ∀ v input, (v.Logs ∧ (v.running = true → Bookkeeping v)) →
      (v.step home codec input).2.Logs ∧
        ((v.step home codec input).2.running = true →
          Bookkeeping (v.step home codec input).2) := fun v input hv =>
    ⟨hv.1.step hv.2 home codec input, Bookkeeping.step hv.2 home codec input⟩
  have hboth : s.Logs ∧ (s.running = true → Bookkeeping s) :=
    runState_invariant (I := fun w : World => w.Logs ∧ (w.running = true → Bookkeeping w))
      hstep ⟨logs_booted hw, fun _ => bookkeeping_booted hw⟩ inputs
  obtain ⟨hlogs, hbooks⟩ := hboth
  have hshown {v : World} (hbook : Bookkeeping v) (id : TunnelId) :
      v.shown id = ((v.snapshots.lookup id).map TunnelView.state).getD .stopped := by
    rw [World.shown, hbook.published]
  rw [hlogs.published]
  refine ⟨hlogs.few, fun id view line hview hline => ?_, hlogs.truthful.news,
    fun input => ?_⟩
  · have hview' : s.shown id = view.state := by
      rw [hshown (hbooks hrun), hview]
      rfl
    rw [← hview']
    exact hlogs.truthful.last id line hline
  · intro next hnext
    obtain ⟨hlogs', hbooks'⟩ := hstep s input ⟨hlogs, hbooks⟩
    have hbook' : Bookkeeping next := hbooks' hnext
    obtain ⟨written, hwritten, hrecounts⟩ :=
      World.recorded_step hlogs hbooks home codec input hnext
    refine ⟨written, hlogs'.published.trans hwritten, fun id view hview => ?_⟩
    have hview' : next.shown id = view.state := by
      rw [hshown hbook', hview]
      rfl
    have hid : id ∈ next.current := by
      rw [← hbook'.published]
      exact Map.mem_iff.2 ⟨view, hview⟩
    rw [← hshown (hbooks hrun), ← hview']
    exact hrecounts id hid

/-- The log of a tunnel that loses its connection and is stopped, and what
its stop writes. -/
theorem log_tells_labWorld :
    let inputs : List Input := [.report 0 (.healthy [] none), .tick calm,
      .report 0 (.reconnecting 1 0 "lost"), .tick calm]
    let s := runState (World.step none defaultCodec) labWorld inputs
    let next := (s.step none defaultCodec (.command (.stopTunnel ⟨"socks"⟩) calm)).2
    (entriesOf ⟨"socks"⟩ next.logViews).map LogEvent.message =
        ["Connecting to SSH host", "SSH connection healthy", "Reconnecting", "Stopped"] ∧
      (∀ id, (entriesOf id s.logViews).IsChain (News id)) ∧
      ∃ written, next.logViews = (s.logViews ++ written).rtake maxLogEvents ∧
        Recounts ⟨"socks"⟩ (.reconnecting 1 0 "lost") (entriesOf ⟨"socks"⟩ written) .stopped := by
  intro inputs s next
  have hrun : s.running = true := by decide +kernel
  obtain ⟨-, -, hnews, hadds⟩ := log_tells none defaultCodec booted_labWorld inputs hrun
  obtain ⟨written, hwritten, hrecounts⟩ :=
    hadds (.command (.stopTunnel ⟨"socks"⟩) calm) (by decide +kernel)
  refine ⟨by decide +kernel, hnews, written, hwritten, ?_⟩
  have hbefore : ((s.snapshots.lookup ⟨"socks"⟩).map TunnelView.state).getD .stopped =
      .reconnecting 1 0 "lost" := by decide +kernel
  rw [← hbefore]
  exact hrecounts ⟨"socks"⟩ ⟨.stopped, none⟩ (by decide +kernel)

end Manager

end TunnelWarden
