import Mathlib.Data.List.Induction

/-!
# Runs of a transition function

A component that reacts to one input at a time is a function
`step : σ → ι → ο × σ`: the answer it gives and the state it moves to.
A run is what a list of inputs makes of a state: the state reached
(`runState`), the states passed through (`visited`) and the steps taken,
with their answers (`trace`). An invariant of the step is an invariant
of the run (`runState_invariant`), and what the run has answered so far
can be carried along with it (`trace_invariant`). Steps that change
nothing can be left out of a run (`trace_keptInputs`), and a schedule that
settles what is due does so whatever comes in between
(`runState_schedule`). The answers of a run are a record that only grows,
and an invariant may speak of it (`answers_invariant`); two components
that answer each item of a script alike answer the script alike
(`answers_lockstep`).
-/

namespace TunnelWarden

variable {σ ι ο : Type*}

/-- One step of a run, with what it started from and what it answered. -/
structure Step (σ ι ο : Type*) where
  before : σ
  input : ι
  output : ο
  after : σ

variable (step : σ → ι → ο × σ)

/-- The state a list of inputs leads to. -/
def runState (s : σ) : List ι → σ
  | [] => s
  | i :: is => runState (step s i).2 is

/-- The states a run passes through, the first and the last included. -/
def visited (s : σ) : List ι → List σ
  | [] => [s]
  | i :: is => s :: visited (step s i).2 is

/-- The steps of a run, in order. -/
def trace (s : σ) : List ι → List (Step σ ι ο)
  | [] => []
  | i :: is => ⟨s, i, (step s i).1, (step s i).2⟩ :: trace (step s i).2 is

variable {step} {s t : σ} {is js : List ι} {i : ι}

@[simp] theorem runState_nil : runState step s [] = s := rfl

@[simp] theorem runState_cons : runState step s (i :: is) = runState step (step s i).2 is := rfl

theorem runState_append : runState step s (is ++ js) = runState step (runState step s is) js := by
  induction is generalizing s with
  | nil => rfl
  | cons i is ih => exact ih

theorem runState_concat : runState step s (is ++ [i]) = (step (runState step s is) i).2 := by
  rw [runState_append]; rfl

@[simp] theorem trace_nil : trace step s [] = [] := rfl

theorem trace_append :
    trace step s (is ++ js) = trace step s is ++ trace step (runState step s is) js := by
  induction is generalizing s with
  | nil => rfl
  | cons i is ih => simp only [List.cons_append, trace, runState_cons, ih]

theorem trace_concat :
    trace step s (is ++ [i]) = trace step s is ++
      [⟨runState step s is, i, (step (runState step s is) i).1, (step (runState step s is) i).2⟩] := by
  rw [trace_append]; rfl

/-- A step of a run is a step of the function. -/
theorem mem_trace {x : Step σ ι ο} (hx : x ∈ trace step s is) :
    x.output = (step x.before x.input).1 ∧ x.after = (step x.before x.input).2 := by
  induction is generalizing s with
  | nil => simp at hx
  | cons i is ih =>
      rcases List.mem_cons.1 hx with rfl | hx
      · exact ⟨rfl, rfl⟩
      · exact ih hx

/-- The inputs of the steps are the inputs of the run. -/
theorem mem_inputs_of_mem_trace {x : Step σ ι ο} (hx : x ∈ trace step s is) : x.input ∈ is := by
  induction is generalizing s with
  | nil => simp at hx
  | cons i is ih =>
      rcases List.mem_cons.1 hx with rfl | hx
      · exact List.mem_cons_self
      · exact List.mem_cons_of_mem _ (ih hx)

/-- **A run split at one of its steps**: the steps before it are a run to
the state it starts from, and those after it a run from the state it
leaves. -/
theorem trace_eq_append_cons {pre rest : List (Step σ ι ο)} {x : Step σ ι ο}
    (h : trace step s is = pre ++ x :: rest) :
    ∃ js ks, pre = trace step s js ∧ x.before = runState step s js ∧
      rest = trace step x.after ks := by
  induction is generalizing s pre with
  | nil => simp at h
  | cons i is ih =>
      cases pre with
      | nil =>
          obtain ⟨rfl, hrest⟩ := List.cons.inj h
          exact ⟨[], is, rfl, rfl, hrest.symm⟩
      | cons y pre =>
          obtain ⟨rfl, htail⟩ := List.cons.inj h
          obtain ⟨js, ks, rfl, hbefore, hrest⟩ := ih htail
          exact ⟨i :: js, ks, rfl, hbefore, hrest⟩

/-- **What every step keeps, every run keeps.** -/
theorem runState_invariant {I : σ → Prop} (hstep : ∀ s i, I s → I (step s i).2)
    (hs : I s) (is : List ι) : I (runState step s is) := by
  induction is generalizing s with
  | nil => exact hs
  | cons i is ih => exact ih (hstep s i hs)

/-- **The schedule rule.** `P` says what is still due, and nothing makes
more of it due. Where each input of a schedule settles its part, a run
that takes them in their order settles all, whatever comes in
between. -/
theorem runState_schedule {P : List ι → σ → Prop} (hkeeps : ∀ due s i, P due s → P due (step s i).2)
    (hdue : ∀ i due s, P (i :: due) s → P due (step s i).2) {due is : List ι}
    (hsub : due.Sublist is) (h : P due s) : P [] (runState step s is) := by
  induction hsub generalizing s with
  | slnil => exact h
  | cons i _ ih => exact ih (hkeeps _ _ i h)
  | cons_cons i _ ih => exact ih (hdue i _ _ h)

/-- The same at every state passed through. The inputs the invariant
tolerates are those satisfying `A`. -/
theorem visited_invariant {I : σ → Prop} {A : ι → Prop}
    (hstep : ∀ s i, A i → I s → I (step s i).2) (hs : I s) (hok : ∀ i ∈ is, A i) :
    ∀ t ∈ visited step s is, I t := by
  induction is generalizing s with
  | nil => intro t ht; rw [List.mem_singleton.1 ht]; exact hs
  | cons i is ih =>
      intro t ht
      rcases List.mem_cons.1 ht with rfl | ht
      · exact hs
      · exact ih (hstep s i (hok i (by simp)) hs) (fun j hj => hok j (by simp [hj])) t ht

/-- The same again where what is tolerated depends on the state the
input meets. -/
theorem visited_invariant_of_trace {I : σ → Prop} {A : σ → ι → Prop}
    (hstep : ∀ s i, A s i → I s → I (step s i).2) (hs : I s)
    (hok : ∀ x ∈ trace step s is, A x.before x.input) : ∀ t ∈ visited step s is, I t := by
  induction is generalizing s with
  | nil => intro t ht; rw [List.mem_singleton.1 ht]; exact hs
  | cons i is ih =>
      intro t ht
      have hi : A s i := hok _ List.mem_cons_self
      rcases List.mem_cons.1 ht with rfl | ht
      · exact hs
      · exact ih (hstep s i hi hs) (fun x hx => hok x (List.mem_cons_of_mem _ hx)) t ht

/-- And at both ends of every step. -/
theorem trace_ends {I : σ → Prop} {A : σ → ι → Prop}
    (hstep : ∀ s i, A s i → I s → I (step s i).2) (hs : I s)
    (hok : ∀ x ∈ trace step s is, A x.before x.input) :
    ∀ x ∈ trace step s is, I x.before ∧ I x.after := by
  induction is generalizing s with
  | nil => intro x hx; simp at hx
  | cons i is ih =>
      intro x hx
      have hi : A s i := hok _ List.mem_cons_self
      have hnext := hstep s i hi hs
      rcases List.mem_cons.1 hx with rfl | hx
      · exact ⟨hs, hnext⟩
      · exact ih hnext (fun x hx => hok x (List.mem_cons_of_mem _ hx)) x hx

theorem mem_visited_self : s ∈ visited step s is := by
  cases is with
  | nil => exact List.mem_singleton_self s
  | cons i is => exact List.mem_cons_self

/-- A state passed through is one a part of the inputs leads to. -/
theorem exists_of_mem_visited (ht : t ∈ visited step s is) :
    ∃ js ks, is = js ++ ks ∧ t = runState step s js := by
  induction is generalizing s with
  | nil => exact ⟨[], [], rfl, List.mem_singleton.1 ht⟩
  | cons i is ih =>
      rcases List.mem_cons.1 ht with rfl | ht
      · exact ⟨[], i :: is, rfl, rfl⟩
      · obtain ⟨js, ks, rfl, rfl⟩ := ih ht
        exact ⟨i :: js, ks, rfl, rfl⟩

/-- **When a property lasts.** Every allowed step but the bad ones keeps
an invariant `I`, under which `P` holds, and a bad step ends `P`. Then
`P` holds along a run of allowed steps exactly where none is bad. -/
theorem visited_forall_iff {I P : σ → Prop} {A B : σ → ι → Prop} (hP : ∀ s, I s → P s)
    (hkeep : ∀ s i, A s i → ¬ B s i → I s → I (step s i).2)
    (hbad : ∀ s i, A s i → B s i → I s → ¬ P (step s i).2) (hs : I s)
    (hok : ∀ x ∈ trace step s is, A x.before x.input) :
    (∀ t ∈ visited step s is, P t) ↔ ∀ x ∈ trace step s is, ¬ B x.before x.input := by
  induction is generalizing s with
  | nil => simpa [visited] using hP s hs
  | cons i is ih =>
      have hA : A s i := hok _ List.mem_cons_self
      have hrest : ∀ x ∈ trace step (step s i).2 is, A x.before x.input :=
        fun x hx => hok x (List.mem_cons_of_mem _ hx)
      by_cases hB : B s i
      · refine iff_of_false (fun h => ?_) fun h => h _ List.mem_cons_self hB
        exact hbad s i hA hB hs (h _ (List.mem_cons_of_mem _ mem_visited_self))
      · have hnext := ih (hkeep s i hA hB hs) hrest
        simp only [visited, trace, List.forall_mem_cons]
        exact ⟨fun h => ⟨hB, hnext.1 h.2⟩, fun h => ⟨hP s hs, hnext.2 h.2⟩⟩

/-- **An invariant over the state and the steps taken to it.** -/
theorem trace_invariant {I : σ → List (Step σ ι ο) → Prop} (h0 : I s [])
    (hstep : ∀ is i, I (runState step s is) (trace step s is) →
      I (step (runState step s is) i).2 (trace step s is ++
        [⟨runState step s is, i, (step (runState step s is) i).1, (step (runState step s is) i).2⟩]))
    (is : List ι) : I (runState step s is) (trace step s is) := by
  induction is using List.reverseRecOn with
  | nil => exact h0
  | append_singleton is i ih =>
      rw [runState_concat, trace_concat]
      exact hstep is i ih

/-- What holds of every single step from a state of the invariant holds
of every step of the run. -/
theorem trace_forall {I : σ → Prop} {P : Step σ ι ο → Prop} {A : ι → Prop}
    (hstep : ∀ s i, A i → I s → I (step s i).2 ∧ P ⟨s, i, (step s i).1, (step s i).2⟩)
    (hs : I s) (hok : ∀ i ∈ is, A i) : ∀ x ∈ trace step s is, P x := by
  induction is generalizing s with
  | nil => intro x hx; simp at hx
  | cons i is ih =>
      intro x hx
      obtain ⟨hI, hP⟩ := hstep s i (hok i (by simp)) hs
      rcases List.mem_cons.1 hx with rfl | hx
      · exact hP
      · exact ih hI (fun j hj => hok j (by simp [hj])) x hx

/-! ## Steps that change nothing -/

section Filter

variable {keep : Step σ ι ο → Bool}

/-- The inputs of the steps that are kept. -/
def keptInputs (step : σ → ι → ο × σ) (keep : Step σ ι ο → Bool) (s : σ) (is : List ι) : List ι :=
  ((trace step s is).filter keep).map Step.input

theorem keptInputs_cons :
    keptInputs step keep s (i :: is) =
      if keep ⟨s, i, (step s i).1, (step s i).2⟩ then i :: keptInputs step keep (step s i).2 is
      else keptInputs step keep (step s i).2 is := by
  unfold keptInputs
  rw [trace, List.filter_cons]
  split
  · rfl
  · rfl

/-- **A run without its idle steps.** Where every step that is not kept
leaves the state alone, the kept inputs make the kept steps, in the same
states and with the same answers. -/
theorem trace_keptInputs
    (hidle : ∀ s i, ¬ keep ⟨s, i, (step s i).1, (step s i).2⟩ → (step s i).2 = s) :
    trace step s (keptInputs step keep s is) = (trace step s is).filter keep := by
  induction is generalizing s with
  | nil => rfl
  | cons i is ih =>
      rw [keptInputs_cons, trace, List.filter_cons]
      split
      · rw [trace, ih]
      · rename_i hk
        rw [hidle s i hk]
        exact ih

/-- And they lead to the same state. -/
theorem runState_keptInputs
    (hidle : ∀ s i, ¬ keep ⟨s, i, (step s i).1, (step s i).2⟩ → (step s i).2 = s) :
    runState step s (keptInputs step keep s is) = runState step s is := by
  induction is generalizing s with
  | nil => rfl
  | cons i is ih =>
      rw [keptInputs_cons, runState_cons]
      split
      · exact ih
      · rename_i hk
        rw [hidle s i hk]
        exact ih

end Filter

/-! ## What a run records -/

section Record

variable {ε : Type*} {record past rest : List ε} {e a : ε}

/-- An entry of a longer record is the one at the end, or an entry of the
record before. -/
theorem concat_eq_append_cons (h : record ++ [e] = past ++ a :: rest) :
    (record = past ∧ e = a) ∨ ∃ rest', record = past ++ a :: rest' := by
  rcases List.eq_nil_or_concat rest with rfl | ⟨rest', last, rfl⟩
  · obtain ⟨hpast, hlast⟩ := List.append_inj' h rfl
    exact .inl ⟨hpast, List.singleton_inj.1 hlast⟩
  · rw [List.concat_eq_append, ← List.cons_append, ← List.append_assoc] at h
    exact .inr ⟨rest', (List.append_inj' h rfl).1⟩

/-- The entry at the end, or one before, and then what came after it is
followed by the last. -/
theorem concat_split (h : record ++ [e] = past ++ a :: rest) :
    (record = past ∧ e = a ∧ rest = []) ∨
      ∃ rest', record = past ++ a :: rest' ∧ rest = rest' ++ [e] := by
  rcases List.eq_nil_or_concat rest with rfl | ⟨rest', last, rfl⟩
  · obtain ⟨hpast, hlast⟩ := List.append_inj' h rfl
    exact .inl ⟨hpast, List.singleton_inj.1 hlast, rfl⟩
  · rw [List.concat_eq_append, ← List.cons_append, ← List.append_assoc] at h
    obtain ⟨hrecord, hlast⟩ := List.append_inj' h rfl
    rw [List.singleton_inj.1 hlast, List.concat_eq_append]
    exact .inr ⟨rest', hrecord, rfl⟩

/-- What a run answers, where the answer to each input is a list. -/
def answers (step : σ → ι → List ε × σ) (s : σ) (is : List ι) : List ε :=
  (trace step s is).flatMap Step.output

theorem answers_append {step : σ → ι → List ε × σ} :
    answers step s (is ++ js) = answers step s is ++ answers step (runState step s is) js := by
  rw [answers, trace_append, List.flatMap_append]
  rfl

theorem answers_cons {step : σ → ι → List ε × σ} :
    answers step s (i :: is) = (step s i).1 ++ answers step (step s i).2 is := rfl

theorem answers_concat {step : σ → ι → List ε × σ} :
    answers step s (is ++ [i]) = answers step s is ++ (step (runState step s is) i).1 := by
  rw [answers_append, answers_cons]
  exact congrArg _ (List.append_nil _)

/-- **An invariant over the state and the record of the run to it.** -/
theorem answers_invariant {step : σ → ι → List ε × σ} {I : σ → List ε → Prop} (h0 : I s [])
    (hstep : ∀ t es i, I t es → I (step t i).2 (es ++ (step t i).1)) (is : List ι) :
    I (runState step s is) (answers step s is) := by
  induction is using List.reverseRecOn with
  | nil => exact h0
  | append_singleton is i ih =>
      rw [runState_concat, answers_concat]
      exact hstep _ _ i ih

end Record

/-! ## Two components in lockstep -/

section Lockstep

variable {τ κ ε δ α : Type*} {left : σ → ι → List ε × σ} {right : τ → κ → List ε × τ}

/-- **The lockstep rule.** A script is played to two components, each of
its items as the inputs that it is to either. If every item is answered
alike and keeps the components related, every script is answered
alike. -/
theorem answers_lockstep {R : σ → τ → Prop} {f : α → List ι} {g : α → List κ} {view : ε → δ}
    (hstep : ∀ s t x, R s t →
      (answers left s (f x)).map view = (answers right t (g x)).map view ∧
        R (runState left s (f x)) (runState right t (g x)))
    {s : σ} {t : τ} (h : R s t) (xs : List α) :
    (answers left s (xs.flatMap f)).map view = (answers right t (xs.flatMap g)).map view := by
  induction xs generalizing s t with
  | nil => rfl
  | cons x xs ih =>
      obtain ⟨hout, hnext⟩ := hstep s t x h
      have hrest := ih hnext
      simp only [List.flatMap_cons, answers_append, List.map_append, hout, hrest]

end Lockstep

end TunnelWarden
