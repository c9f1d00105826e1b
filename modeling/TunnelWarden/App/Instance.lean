import TunnelWarden.App.Model.Instance

/-!
# One primary, and the wakes it gets

The mutex is made by one process at a time, so there is one primary at
most. A wake that is signalled while the thread of the primary is at work
stays signalled until that thread takes it: nobody else waits, and the
event lives as long as the primary has its handle. The application sees
the wake, if it does not quit before.
-/

namespace TunnelWarden

namespace Instance

/-! ## The calls -/

/-- A call that only moves the process on. -/
inductive Control.Next : Control → Control → Prop
  | mutexFails : Next .starting (.ended .failed)
  | opens (there : Bool) : Next (.named there) (.opened there)
  | wakeFails (there : Bool) : Next (.named there) (.closingMutex .failed)
  | arms : Next (.opened false) .armed
  | shutdownFails : Next (.opened false) (.closingWake .failed)
  | threadFails : Next .armed (.closingWake .failed)
  | closesWake (ending : Ending) : Next (.closingWake ending) (.closingMutex ending)
  | closesMutex (ending : Ending) : Next (.closingMutex ending) (.ended ending)

/-- **What a call can change**: the process, the wake event, and what is
told of it. -/
inductive Change (s : System) (p : ℕ) (a : Process) : Process → Bool → List Event → Prop
  | begins (h : a.control = .starting) :
      Change s p a { a with control := .named s.mutexExists } s.signalled []
  | next {control : Control} (h : a.control.Next control) :
      Change s p a { a with control } s.signalled []
  | signals (h : a.control = .opened true) :
      Change s p a { a with control := .closingWake .existing } true [.signalled p]
  | spawns (h : a.control = .armed) :
      Change s p a { a with control := .primary, watcher := .waiting } s.signalled []
  | quits (h : a.control = .primary) :
      Change s p a { a with control := .leaving, shutdown := true, opens := none } s.signalled
        [.quit p]
  | joins (h : a.control = .leaving) (hexited : a.watcher = .exited) :
      Change s p a { a with control := .closingWake .dropped } s.signalled []
  | waitFails (h : a.watcher = .waiting) :
      Change s p a { a with watcher := .exited } s.signalled [.waitFailed p]
  | wakes (h : a.watcher = .waiting) (hsignal : s.signalled = true) :
      Change s p a { a with watcher := .woken } false []
  | exits (h : a.watcher = .waiting) (hsignal : s.signalled = false) :
      Change s p a { a with watcher := .exited } s.signalled []
  | sends (h : a.watcher = .woken) :
      Change s p a { a with
        watcher := .waiting
        opens := a.opens.map fun count => if count < maxOpens then count + 1 else count }
        s.signalled []
  | receives {count : ℕ} (h : a.opens = some (count + 1)) :
      Change s p a { a with opens := some count } s.signalled [.received p]
  | hangsUp : Change s p a { a with opens := none } s.signalled [.hungUp p]
  | dies : Change s p a { a with control := .ended .killed, watcher := .absent, opens := none }
      s.signalled [.killed p]

namespace System

variable {s : System} {p : ℕ} {a : Process} {input : Input}

/-- A step does nothing, or is such a change of one process. -/
def Steps (s : System) (p : ℕ) (a : Process) (r : List Event × System) : Prop :=
  r = ([], s) ∨ ∃ b signalled events, Change s p a b signalled events ∧
    r = (events, { s with signalled }.put p b)

theorem Change.steps {b : Process} {signalled : Bool} {events : List Event}
    (h : Change s p a b signalled events) :
    Steps s p a (events, { s with signalled }.put p b) := .inr ⟨b, signalled, events, h, rfl⟩

theorem call_steps (s : System) (p : ℕ) (a : Process) (input : Input) :
    Steps s p a (s.call p a input) := by
  unfold call
  dsimp only
  split
  · rename_i fails hcontrol
    cases fails
    · exact Change.steps (.begins hcontrol)
    · exact Change.steps (.next (hcontrol ▸ .mutexFails))
  · rename_i there _ fails hcontrol
    cases fails
    · exact Change.steps (.next (hcontrol ▸ .opens there))
    · exact Change.steps (.next (hcontrol ▸ .wakeFails there))
  · rename_i hcontrol
    exact Change.steps (.signals hcontrol)
  · rename_i fails hcontrol
    cases fails
    · exact Change.steps (.next (hcontrol ▸ .arms))
    · exact Change.steps (.next (hcontrol ▸ .shutdownFails))
  · rename_i fails hcontrol
    cases fails
    · exact Change.steps (.spawns hcontrol)
    · exact Change.steps (.next (hcontrol ▸ .threadFails))
  · rename_i hcontrol
    exact Change.steps (.quits hcontrol)
  · rename_i hcontrol
    split
    · rename_i hexited
      exact Change.steps (.joins hcontrol hexited)
    · exact .inl rfl
  · rename_i ending _ hcontrol
    exact Change.steps (.next (hcontrol ▸ .closesWake ending))
  · rename_i ending _ hcontrol
    exact Change.steps (.next (hcontrol ▸ .closesMutex ending))
  · exact .inl rfl

theorem watch_steps (s : System) (p : ℕ) (a : Process) (input : Input) :
    Steps s p a (s.watch p a input) := by
  unfold watch
  split
  · rename_i hwatcher
    split
    · exact Change.steps (.waitFails hwatcher)
    · split
      · rename_i hsignal
        exact Change.steps (.wakes hwatcher hsignal)
      · rename_i hsignal
        split
        · exact Change.steps (.exits hwatcher (by simpa using hsignal))
        · exact .inl rfl
  · rename_i hwatcher
    exact Change.steps (.sends hwatcher)
  · exact .inl rfl

theorem outside_steps (s : System) (p : ℕ) (a : Process) (input : Input) :
    Steps s p a (s.outside p a input) := by
  unfold outside
  split
  · exact .inl rfl
  · rename_i hopens _
    exact Change.steps (.receives hopens)
  · exact Change.steps .hangsUp
  · exact Change.steps .dies
  · exact .inl rfl

/-- **Every step is a change of the process that makes the call.** -/
theorem step_steps (s : System) (input : Input) :
    s.step input = ([], s) ∨ ∃ a, s.processes[input.process]? = some a ∧
      Steps s input.process a (s.step input) := by
  unfold step
  cases ha : s.processes[input.process]? with
  | none => exact .inl rfl
  | some a =>
      refine .inr ⟨a, rfl, ?_⟩
      dsimp only
      split
      · exact watch_steps ..
      · exact watch_steps ..
      · exact outside_steps ..
      · exact outside_steps ..
      · exact outside_steps ..
      · exact call_steps ..

end System

/-! ## One primary -/

/-- The process made the mutex, and still has it. -/
def Control.owns : Control → Bool
  | .named false | .opened false | .armed | .primary | .leaving | .closingWake .failed
  | .closingWake .dropped => true
  | _ => false

theorem Control.hasMutex_of_owns {c : Control} (h : c.owns = true) : c.hasMutex = true := by
  cases c with
  | starting => cases h
  | ended ending => cases h
  | _ => rfl

/-- Nothing but the mutex makes an owner. -/
theorem Control.Next.owns {c c' : Control} (h : c.Next c') (howns : c'.owns = true) :
    c.owns = true := by
  cases h with
  | opens there => cases there <;> first | rfl | cases howns
  | arms => rfl
  | shutdownFails => rfl
  | threadFails => rfl
  | _ => cases howns

/-- The thread is at work while its process is primary, or joins it. -/
def Process.Manned (a : Process) : Prop :=
  a.watcher = .waiting ∨ a.watcher = .woken → a.control = .primary ∨ a.control = .leaving

/-- One process at most owns the mutex, and threads are manned. -/
structure Safe (s : System) : Prop where
  one : ∀ (i j : ℕ) (a b : Process), s.processes[i]? = some a → s.processes[j]? = some b →
    a.control.owns = true → b.control.owns = true → i = j
  manned : ∀ (p : ℕ) (a : Process), s.processes[p]? = some a → a.Manned

variable {s : System} {p : ℕ} {a b : Process} {signalled : Bool} {events : List Event}

theorem Control.Next.not_manned {c c' : Control} (h : c.Next c') : c ≠ .primary ∧ c ≠ .leaving := by
  cases h <;> exact ⟨nofun, nofun⟩

/-- A change leaves threads manned. -/
theorem Change.manned (h : Change s p a b signalled events) (ha : a.Manned) : b.Manned := by
  have hidle (hcontrol : a.control ≠ .primary ∧ a.control ≠ .leaving) :
      ¬ (a.watcher = .waiting ∨ a.watcher = .woken) := fun hwork =>
    (ha hwork).elim hcontrol.1 hcontrol.2
  cases h with
  | begins hcontrol =>
      exact fun hwork => absurd hwork (hidle (by rw [hcontrol]; exact ⟨nofun, nofun⟩))
  | next hnext => exact fun hwork => absurd hwork (hidle hnext.not_manned)
  | signals hcontrol =>
      exact fun hwork => absurd hwork (hidle (by rw [hcontrol]; exact ⟨nofun, nofun⟩))
  | spawns => exact fun _ => .inl rfl
  | quits => exact fun _ => .inr rfl
  | joins hcontrol hexited =>
      intro hwork
      dsimp only at hwork
      rw [hexited] at hwork
      rcases hwork with hwork | hwork <;> cases hwork
  | waitFails | exits | dies =>
      intro hwork
      rcases hwork with hwork | hwork <;> cases hwork
  | wakes hwatcher => exact fun _ => ha (.inl hwatcher)
  | sends hwatcher => exact fun _ => ha (.inr hwatcher)
  | receives | hangsUp => exact ha

/-- An owner was one before, or finds no mutex. -/
theorem Change.owns (h : Change s p a b signalled events) (howns : b.control.owns = true) :
    a.control.owns = true ∨ s.mutexExists = false := by
  cases h with
  | begins hcontrol =>
      right
      cases hmutex : s.mutexExists with
      | false => rfl
      | true => rw [hmutex] at howns; cases howns
  | next hnext => exact .inl (hnext.owns howns)
  | signals hcontrol => cases howns
  | spawns hcontrol | quits hcontrol => exact .inl (by rw [hcontrol]; rfl)
  | joins hcontrol => exact .inl (by rw [hcontrol]; rfl)
  | dies => cases howns
  | waitFails | exits | wakes | sends | receives | hangsUp => exact .inl howns

theorem no_owner (h : s.mutexExists = false) (ha : s.processes[p]? = some a) :
    a.control.owns = false := by
  cases howns : a.control.owns with
  | false => rfl
  | true =>
      have hmutex : s.mutexExists = true :=
        List.any_eq_true.2 ⟨a, List.mem_of_getElem? ha, Control.hasMutex_of_owns howns⟩
      rw [h] at hmutex
      cases hmutex

/-- The processes after a change. -/
theorem put_processes (hp : s.processes[p]? = some a) (q : ℕ) (b : Process) :
    (s.put p b).processes[q]? = if q = p then some b else s.processes[q]? := by
  have hlt : p < s.processes.length := (List.getElem?_eq_some_iff.1 hp).1
  change (s.processes.set p b)[q]? = _
  rw [List.getElem?_set]
  by_cases hq : q = p
  · rw [if_pos hq.symm, if_pos hq, if_pos hlt]
  · rw [if_neg fun h => hq h.symm, if_neg hq]

theorem Safe.change (h : Safe s) (ha : s.processes[p]? = some a)
    (hchange : Change s p a b signalled events) : Safe ({ s with signalled }.put p b) := by
  have hput := put_processes (s := { s with signalled }) ha
  -- who owns the mutex afterwards owned it before, unless it did not exist
  have hbefore : ∀ (q : ℕ) (c : Process), ({ s with signalled }.put p b).processes[q]? = some c →
      c.control.owns = true → s.mutexExists = false ∧ q = p ∨
        ∃ d, s.processes[q]? = some d ∧ d.control.owns = true := by
    intro q c hc howns
    rw [hput] at hc
    by_cases hq : q = p
    · rw [if_pos hq] at hc
      obtain rfl := Option.some.inj hc
      rcases hchange.owns howns with hold | hnone
      · exact .inr ⟨a, hq ▸ ha, hold⟩
      · exact .inl ⟨hnone, hq⟩
    · rw [if_neg hq] at hc
      exact .inr ⟨c, hc, howns⟩
  constructor
  · intro i j c d hc hd hci hdj
    rcases hbefore i c hc hci with ⟨hnone, rfl⟩ | ⟨c', hc', hown⟩
    · rcases hbefore j d hd hdj with ⟨-, hj⟩ | ⟨d', hd', hown'⟩
      · exact hj.symm
      · have hfalse := no_owner hnone hd'
        rw [hown'] at hfalse
        cases hfalse
    · rcases hbefore j d hd hdj with ⟨hnone, rfl⟩ | ⟨d', hd', hown'⟩
      · have hfalse := no_owner hnone hc'
        rw [hown] at hfalse
        cases hfalse
      · exact h.one i j c' d' hc' hd' hown hown'
  · intro q c hc
    rw [hput] at hc
    by_cases hq : q = p
    · rw [if_pos hq] at hc
      obtain rfl := Option.some.inj hc
      exact hchange.manned (h.manned p a ha)
    · rw [if_neg hq] at hc
      exact h.manned q c hc

theorem Safe.step (h : Safe s) (input : Input) : Safe (s.step input).2 := by
  rcases System.step_steps s input with heq | ⟨a, ha, heq | ⟨b, signalled, events, hchange, heq⟩⟩
  · rw [heq]
    exact h
  · rw [heq]
    exact h
  · rw [heq]
    exact h.change ha hchange

theorem safe_fresh (count : ℕ) : Safe (System.fresh count) := by
  have hstarting : ∀ (q : ℕ) c, (System.fresh count).processes[q]? = some c → c = {} := by
    intro q c hc
    exact List.eq_of_mem_replicate (List.mem_of_getElem? hc)
  constructor
  · intro i j c d hc hd howns
    obtain rfl := hstarting i c hc
    cases howns
  · intro q c hc
    obtain rfl := hstarting q c hc
    intro hwork
    rcases hwork with hwork | hwork <;> cases hwork

/-! ## What comes of a wake -/

/-- The application of a primary will be asked to open its window, or has
been and has yet to see it. -/
def Pending (s : System) (p : ℕ) : Prop :=
  ∃ a, s.processes[p]? = some a ∧ a.control = .primary ∧ a.opens ≠ none ∧
    (a.watcher = .waiting ∧ s.signalled = true ∨ a.watcher = .woken ∨
      ∃ count, a.opens = some (count + 1))

/-- The application sees a wake, or nobody will. -/
def Event.Settles (p : ℕ) (e : Event) : Prop :=
  e = .received p ∨ e = .hungUp p ∨ e = .quit p ∨ e = .killed p ∨ e = .waitFailed p

/-- The wake event lives while a manned thread waits for it. -/
theorem wakeExists_of_waiting (h : Safe s) (ha : s.processes[p]? = some a)
    (hwork : a.watcher = .waiting ∨ a.watcher = .woken) : s.wakeExists = true := by
  refine List.any_eq_true.2 ⟨a, List.mem_of_getElem? ha, ?_⟩
  rcases h.manned p a ha hwork with hcontrol | hcontrol
  · rw [hcontrol]
    rfl
  · rw [hcontrol]
    rfl

theorem owns_of_working (h : Safe s) (ha : s.processes[p]? = some a)
    (hwork : a.watcher = .waiting ∨ a.watcher = .woken) : a.control.owns = true := by
  rcases h.manned p a ha hwork with hcontrol | hcontrol
  · rw [hcontrol]
    rfl
  · rw [hcontrol]
    rfl

/-- A change of another process. -/
theorem Pending.other {q : ℕ} (hsafe : Safe s) (h : Pending s p) (hne : p ≠ q)
    (ha : s.processes[q]? = some a) (hchange : Change s q a b signalled events) :
    Pending ({ s with signalled }.put q b) p := by
  obtain ⟨c, hc, hprimary, hopens, hwhy⟩ := h
  have hput := put_processes (s := { s with signalled }) ha p b
  rw [if_neg hne] at hput
  have hlook : ({ s with signalled }.put q b).processes[p]? = some c := hput.trans hc
  refine ⟨c, hlook, hprimary, hopens, ?_⟩
  rcases hwhy with ⟨hwaiting, hsignal⟩ | hwoken | hcount
  · refine .inl ⟨hwaiting, ?_⟩
    have hexists : ({ s with signalled }.put q b).wakeExists = true :=
      wakeExists_of_waiting (hsafe.change ha hchange) hlook (.inl hwaiting)
    have hkept : signalled = true := by
      cases hchange with
      | signals => rfl
      | wakes hother =>
          -- another thread at work would be one of another owner
          have hown := owns_of_working hsafe hc (.inl hwaiting)
          have hown' := owns_of_working hsafe ha (.inl hother)
          exact absurd (hsafe.one p q c a hc ha hown hown') hne
      | _ => exact hsignal
    change (signalled && _) = true
    rw [hkept]
    exact hexists
  · exact .inr (.inl hwoken)
  · exact .inr (.inr hcount)

/-- A change of the process itself. -/
theorem Pending.own (h : Pending s p) (ha : s.processes[p]? = some a)
    (hchange : Change s p a b signalled events) :
    Pending ({ s with signalled }.put p b) p ∨ ∃ e ∈ events, e.Settles p := by
  obtain ⟨c, hc, hprimary, hopens, hwhy⟩ := h
  obtain rfl := Option.some.inj (ha.symm.trans hc)
  have hput := put_processes (s := { s with signalled }) ha p b
  rw [if_pos rfl] at hput
  -- the other calls are not those of a primary
  have hother {control : Control} (hcontrol : a.control = control) (hne : control ≠ .primary) :
      Pending ({ s with signalled }.put p b) p ∨ ∃ e ∈ events, e.Settles p :=
    absurd (hcontrol.symm.trans hprimary) hne
  cases hchange with
  | begins hcontrol => exact hother hcontrol nofun
  | next hnext => exact absurd hprimary hnext.not_manned.1
  | signals hcontrol => exact hother hcontrol nofun
  | spawns hcontrol => exact hother hcontrol nofun
  | joins hcontrol hexited => exact hother hcontrol nofun
  | quits hcontrol => exact .inr ⟨_, List.mem_singleton_self _, .inr (.inr (.inl rfl))⟩
  | waitFails hwatcher =>
      exact .inr ⟨_, List.mem_singleton_self _, .inr (.inr (.inr (.inr rfl)))⟩
  | wakes hwatcher hsignal => exact .inl ⟨_, hput, hprimary, hopens, .inr (.inl rfl)⟩
  | exits hwatcher hsignal =>
      refine .inl ⟨_, hput, hprimary, hopens, .inr (.inr ?_)⟩
      rcases hwhy with ⟨-, hset⟩ | hwoken | hcount
      · rw [hsignal] at hset
        cases hset
      · rw [hwatcher] at hwoken
        cases hwoken
      · exact hcount
  | sends hwatcher =>
      obtain ⟨count, hcount⟩ := Option.ne_none_iff_exists'.1 hopens
      refine .inl ⟨_, hput, hprimary, ?_, .inr (.inr ?_)⟩
      · rw [hcount]
        nofun
      · dsimp only
        rw [hcount, Option.map_some]
        split
        · exact ⟨count, rfl⟩
        · rename_i hfull
          have hpos : 0 < count := by
            have hroom : 0 < maxOpens := by decide
            omega
          exact ⟨count - 1, congrArg some (by omega)⟩
  | receives hcount => exact .inr ⟨_, List.mem_singleton_self _, .inl rfl⟩
  | hangsUp => exact .inr ⟨_, List.mem_singleton_self _, .inr (.inl rfl)⟩
  | dies => exact .inr ⟨_, List.mem_singleton_self _, .inr (.inr (.inr (.inl rfl)))⟩

/-- **One step** keeps a wake, or the application sees it. -/
theorem Pending.step (hsafe : Safe s) (h : Pending s p) (input : Input) :
    Pending (s.step input).2 p ∨ ∃ e ∈ (s.step input).1, e.Settles p := by
  rcases System.step_steps s input with heq | ⟨a, ha, heq | ⟨b, signalled, events, hchange, heq⟩⟩
  · rw [heq]
    exact .inl h
  · rw [heq]
    exact .inl h
  · rw [heq]
    by_cases hp : p = input.process
    · rw [← hp] at ha hchange ⊢
      exact h.own ha hchange
    · exact .inl (h.other hsafe hp ha hchange)

/-- The thread of a primary is at work, and its application listens. -/
def Listens (s : System) (p : ℕ) : Prop :=
  ∃ a, s.processes[p]? = some a ∧ a.control = .primary ∧ a.opens ≠ none ∧
    (a.watcher = .waiting ∨ a.watcher = .woken)

/-- A signal is pending where a thread is at work. -/
theorem pending_of_signal (hsafe : Safe s) (h : Listens s p) {q : ℕ}
    (hsignal : .signalled q ∈ (s.step (.signal q)).1) : Pending (s.step (.signal q)).2 p := by
  obtain ⟨a, ha, hprimary, hopens, hwork⟩ := h
  have hcontrol : ∃ c, s.processes[q]? = some c ∧ c.control = .opened true ∧
      (s.step (.signal q)).2 = { s with signalled := true }.put q { c with
        control := .closingWake .existing } := by
    unfold System.step at hsignal ⊢
    cases hc : s.processes[q]? with
    | none => simp [Input.process, hc] at hsignal
    | some c =>
        simp only [Input.process, hc] at hsignal ⊢
        unfold System.call at hsignal ⊢
        cases hcontrol : c.control with
        | opened there =>
            cases there with
            | true => exact ⟨c, rfl, hcontrol, rfl⟩
            | false => simp [hcontrol] at hsignal
        | _ => simp [hcontrol] at hsignal
  obtain ⟨c, hc, hopened, heq⟩ := hcontrol
  have hchange : Change s q c { c with control := .closingWake .existing } true [.signalled q] :=
    .signals hopened
  have hne : p ≠ q := by
    rintro rfl
    obtain rfl := Option.some.inj (ha.symm.trans hc)
    rw [hprimary] at hopened
    cases hopened
  have hlook := put_processes (s := { s with signalled := true }) hc p
    { c with control := .closingWake .existing }
  rw [if_neg hne] at hlook
  rw [heq]
  refine ⟨a, hlook.trans ha, hprimary, hopens, ?_⟩
  rcases hwork with hwaiting | hwoken
  · have hexists := wakeExists_of_waiting (hsafe.change hc hchange) (hlook.trans ha) (.inl hwaiting)
    exact .inl ⟨hwaiting, hexists⟩
  · exact .inr (.inl hwoken)

/-- A wake is kept, or the record tells what came of it. -/
def Kept (p : ℕ) (s : System) (record : List Event) : Prop :=
  Safe s ∧ (Pending s p ∨ ∃ e ∈ record, e.Settles p)

theorem Kept.step {record : List Event} (h : Kept p s record) (input : Input) :
    Kept p (s.step input).2 (record ++ (s.step input).1) := by
  refine ⟨h.1.step input, ?_⟩
  rcases h.2 with hpending | ⟨e, he, hsettles⟩
  · rcases hpending.step h.1 input with hstill | ⟨e, he, hsettles⟩
    · exact .inl hstill
    · exact .inr ⟨e, List.mem_append_right _ he, hsettles⟩
  · exact .inr ⟨e, List.mem_append_left _ he, hsettles⟩

/-- **One primary, and the wakes it gets**, for any number of processes and
any order of their calls. Two primaries are one; and after a process has
signalled the wake event while the thread of a primary was at work and its
application listened, this is primary still and about to be asked to open
its window, or has been asked since, unless it stopped listening, quit,
was killed, or its thread could not wait. -/
theorem wake_kept (count : ℕ) (past : List Input) :
    let s := runState System.step (System.fresh count) past
    (∀ (i j : ℕ) (a b : Process), s.processes[i]? = some a → s.processes[j]? = some b →
        a.control = .primary → b.control = .primary → i = j) ∧
      ∀ (p q : ℕ) (more : List Input), Listens s p → .signalled q ∈ (s.step (.signal q)).1 →
        Pending (runState System.step (s.step (.signal q)).2 more) p ∨
          ∃ e ∈ answers System.step (s.step (.signal q)).2 more, e.Settles p := by
  intro s
  have hsafe : Safe s := runState_invariant (fun _ input h => h.step input) (safe_fresh count) past
  refine ⟨fun i j a b ha hb hpa hpb => ?_, fun p q more hlistens hsignal => ?_⟩
  · exact hsafe.one i j a b ha hb (by rw [hpa]; rfl) (by rw [hpb]; rfl)
  · have hkept : Kept p (s.step (.signal q)).2 [] :=
      ⟨hsafe.step _, .inl (pending_of_signal hsafe hlistens hsignal)⟩
    exact (answers_invariant hkept (fun _ _ input h => h.step input) more).2

/-- Two processes: the first is primary, the second finds the mutex. -/
def secondLaunch : List Input :=
  [.createMutex 0 false, .createWake 0 false, .createShutdown 0 false, .spawnThread 0 false,
    .createMutex 1 false, .createWake 1 false]

/-- A second launch signals the first, whose thread then takes the wake. -/
theorem wake_kept_secondLaunch :
    let s := runState System.step (System.fresh 2) secondLaunch
    let rest := [Input.close 1, .wait 0 false, .close 1, .send 0]
    Pending (runState System.step (s.step (.signal 1)).2 rest) 0 ∨
      ∃ e ∈ answers System.step (s.step (.signal 1)).2 rest, e.Settles 0 :=
  (wake_kept 2 secondLaunch).2 0 1 [.close 1, .wait 0 false, .close 1, .send 0]
    ⟨{ control := .primary, watcher := .waiting }, by decide +kernel, rfl, nofun, .inl rfl⟩
    (by decide +kernel)

end Instance

end TunnelWarden
