import Mathlib.Order.Basic

/-!
# Programs whose operations can fail

A program over an outside store performs operations one after another,
and the surroundings decide about each of them: it works, it fails with
an error, or the process is cut off there. `Prog` is such a program as a
function of these verdicts, so that "for every possible failure" is a
quantifier over the verdicts. A `guarded` body runs its clean-up when it
ends, with a value or an error, and never when it is cut off: the drop of
a Rust value. What a run does not come to cannot be told by cutting it
off there (`Avoids`).

`Triple` is the rule format: from a store with `P` the program ends with
a value and `V`, with an error and `X`, or cut off and `C`. The rules
follow the shape of a program; `Keeps` is the triple of an invariant.
-/

namespace TunnelWarden

/-- What the surroundings make of one operation. `reading` is what a
working operation reads from outside, `done` how much of its effect an
operation that does not complete has had. -/
inductive Verdict (E : Type) where
  | ok (reading : ℕ)
  | fail (error : E) (done : ℕ)
  | crash (done : ℕ)

/-- How a program ends. -/
inductive Exit (ε α : Type) where
  | value (a : α)
  | error (e : ε)
  | cut
  deriving DecidableEq

/-- The verdict on each operation, by how many came before it. -/
abbrev Verdicts (Op E : Type) := ℕ → Op → Verdict E

/-- A program with operations `Op`, which fail with an `E`, over the
store `σ`. The number beside the store counts the operations. -/
def Prog (Op E σ ε α : Type) := Verdicts Op E → ℕ × σ → Exit ε α × (ℕ × σ)

/-! A pure computation that succeeds, step by step. -/

theorem bind_eq_ok {ε α β : Type} {x : Except ε α} {f : α → Except ε β} {b : β} :
    (x >>= f) = .ok b ↔ ∃ a, x = .ok a ∧ f a = .ok b := by
  cases x with
  | error e => simp [bind, Except.bind]
  | ok a => simp [bind, Except.bind]

theorem throw_bind {ε α β : Type} {e : ε} {f : α → Except ε β} :
    ((throw e : Except ε α) >>= f) = .error e := rfl

theorem ite_error_eq_ok {ε α : Type} {p : Prop} [Decidable p] {e : ε} {x : Except ε α} {a : α} :
    (if p then .error e else x) = .ok a ↔ ¬ p ∧ x = .ok a := by
  by_cases hp : p <;> simp [hp]

theorem mapError_eq_ok {ε ε' α : Type} {x : Except ε α} {f : ε → ε'} {a : α} :
    x.mapError f = .ok a ↔ x = .ok a := by
  cases x <;> simp [Except.mapError]

namespace Prog

variable {Op E σ ε ε' α β : Type}

instance : Monad (Prog Op E σ ε) where
  pure a := fun _ s => (.value a, s)
  bind x f := fun env s =>
    match x env s with
    | (.value a, s) => f a env s
    | (.error e, s) => (.error e, s)
    | (.cut, s) => (.cut, s)

/-- End with an error. -/
def throw (e : ε) : Prog Op E σ ε α := fun _ s => (.error e, s)

/-- A pure computation that may fail. -/
def liftExcept : Except ε α → Prog Op E σ ε α
  | .ok a => pure a
  | .error e => throw e

/-- The program with its errors renamed. -/
def mapError (f : ε → ε') (x : Prog Op E σ ε α) : Prog Op E σ ε' α := fun env s =>
  match x env s with
  | (.value a, s) => (.value a, s)
  | (.error e, s) => (.error (f e), s)
  | (.cut, s) => (.cut, s)

/-- The error, where there is one, as a value. -/
def attempt (x : Prog Op E σ ε α) : Prog Op E σ ε' (Except ε α) := fun env s =>
  match x env s with
  | (.value a, s) => (.value (.ok a), s)
  | (.error e, s) => (.value (.error e), s)
  | (.cut, s) => (.cut, s)

/-- One operation: what it does where it works, and how far an operation
that is not completed can have got. -/
def op (o : Op) (run : ℕ → σ → Except E α × σ) (part : ℕ → σ → σ) : Prog Op E σ E α :=
  fun env s =>
    match env s.1 o with
    | .ok reading =>
      match run reading s.2 with
      | (.ok a, t) => (.value a, (s.1 + 1, t))
      | (.error e, t) => (.error e, (s.1 + 1, t))
    | .fail e done => (.error e, (s.1 + 1, part done s.2))
    | .crash done => (.cut, (s.1 + 1, part done s.2))

/-- The body, and then its clean-up unless it is cut off. Whether the
clean-up works is not looked at. -/
def guarded (cleanup : Prog Op E σ ε' Unit) (body : Prog Op E σ ε α) : Prog Op E σ ε α :=
  fun env s =>
    match body env s with
    | (.cut, s) => (.cut, s)
    | (r, s) =>
      match cleanup env s with
      | (.cut, s) => (.cut, s)
      | (_, s) => (r, s)

/-- A program over a part of the store. -/
def zoom {Op' τ : Type} (embed : Op' → Op) (get : σ → τ) (set : τ → σ → σ)
    (x : Prog Op' E τ ε α) : Prog Op E σ ε α :=
  fun env s =>
    match x (fun n o => env n (embed o)) (s.1, get s.2) with
    | (r, (n, t)) => (r, (n, set t s.2))

/-! ## The operations of a run -/

open Classical in
/-- The process is cut off where it comes to one of these operations. -/
noncomputable def cutAt (env : Verdicts Op E) (bad : ℕ → Op → Prop) : Verdicts Op E :=
  fun k o => if bad k o then .crash 0 else env k o

/-- **The run makes none of these operations**: with the process cut off
at them it is the same run. -/
def Avoids (env : Verdicts Op E) (bad : ℕ → Op → Prop) (s : ℕ × σ) (x : Prog Op E σ ε α) : Prop :=
  x (cutAt env bad) s = x env s

theorem avoids_of_none {env : Verdicts Op E} {bad : ℕ → Op → Prop} (h : ∀ k o, ¬ bad k o)
    (s : ℕ × σ) (x : Prog Op E σ ε α) : x.Avoids env bad s := by
  have hsame : cutAt env bad = env := by
    funext k o
    exact if_neg (h k o)
  rw [Avoids, hsame]

/-! ## Triples -/

/-- What the three kinds of exit promise of the store. -/
def Exit.Sat (V : α → σ → Prop) (X C : σ → Prop) : Exit ε α → σ → Prop
  | .value a => V a
  | .error _ => X
  | .cut => C

/-- From a store with `P`, after any number of operations, the program
ends with a value and `V`, with an error and `X`, or cut off and `C`. -/
def Triple (env : Verdicts Op E) (P : σ → Prop) (x : Prog Op E σ ε α) (V : α → σ → Prop)
    (X C : σ → Prop) : Prop :=
  ∀ n s, P s → Exit.Sat V X C (x env (n, s)).1 (x env (n, s)).2.2

/-- The program keeps `I`, however it ends. -/
def Keeps (env : Verdicts Op E) (I : σ → Prop) (x : Prog Op E σ ε α) : Prop :=
  Triple env I x (fun _ => I) I I

variable {env : Verdicts Op E} {P I X C : σ → Prop} {V : α → σ → Prop} {W : β → σ → Prop}
variable {x : Prog Op E σ ε α} {f : α → Prog Op E σ ε β}

theorem bind_apply (s : ℕ × σ) : (x >>= f) env s =
    match x env s with
    | (.value a, s) => f a env s
    | (.error e, s) => (.error e, s)
    | (.cut, s) => (.cut, s) := rfl

/-! A run is followed step by step through its sequencing. -/

theorem bind_of_value {s t : ℕ × σ} {a : α} (h : x env s = (.value a, t)) :
    (x >>= f) env s = f a env t := by
  rw [bind_apply, h]

theorem bind_of_error {s t : ℕ × σ} {e : ε} (h : x env s = (.error e, t)) :
    (x >>= f) env s = (.error e, t) := by
  rw [bind_apply, h]

theorem bind_of_cut {s t : ℕ × σ} (h : x env s = (.cut, t)) : (x >>= f) env s = (.cut, t) := by
  rw [bind_apply, h]

/-! The rules, one for each way of building a program. -/

theorem Triple.mono {P' : σ → Prop} {V' : α → σ → Prop} {X' C' : σ → Prop}
    (h : Triple env P x V X C) (hP : ∀ s, P' s → P s) (hV : ∀ a s, V a s → V' a s)
    (hX : ∀ s, X s → X' s) (hC : ∀ s, C s → C' s) : Triple env P' x V' X' C' := by
  intro n s hs
  have hx := h n s (hP s hs)
  cases hr : (x env (n, s)).1 with
  | value a => rw [hr] at hx; exact hV a _ hx
  | error e => rw [hr] at hx; exact hX _ hx
  | cut => rw [hr] at hx; exact hC _ hx

/-- The rule of consequence, where the ends other than a value stay. -/
theorem Triple.consequence {P' : σ → Prop} {V' : α → σ → Prop} (h : Triple env P x V X C)
    (hP : ∀ s, P' s → P s) (hV : ∀ a s, V a s → V' a s) : Triple env P' x V' X C :=
  h.mono hP hV (fun _ hs => hs) fun _ hs => hs

/-- A stronger precondition. -/
theorem Triple.pre {P' : σ → Prop} (h : Triple env P x V X C) (hP : ∀ s, P' s → P s) :
    Triple env P' x V X C :=
  h.consequence hP fun _ _ hs => hs

/-- What every exit promises is there at the end. -/
theorem Triple.holds {Q : σ → Prop} (h : Triple env P x (fun _ => Q) Q Q) {n : ℕ} {s : σ}
    (hs : P s) : Q (x env (n, s)).2.2 := by
  have hx := h n s hs
  cases hr : (x env (n, s)).1 with
  | value a => rwa [hr] at hx
  | error e => rwa [hr] at hx
  | cut => rwa [hr] at hx

/-- Two promises of one program. -/
theorem Triple.and {P' : σ → Prop} {V' : α → σ → Prop} {X' C' : σ → Prop}
    (h : Triple env P x V X C) (h' : Triple env P' x V' X' C') :
    Triple env (fun s => P s ∧ P' s) x (fun a s => V a s ∧ V' a s) (fun s => X s ∧ X' s)
      (fun s => C s ∧ C' s) := by
  rintro n s ⟨hs, hs'⟩
  have hx := h n s hs
  have hx' := h' n s hs'
  cases hr : (x env (n, s)).1 with
  | value a => rw [hr] at hx hx'; exact ⟨hx, hx'⟩
  | error e => rw [hr] at hx hx'; exact ⟨hx, hx'⟩
  | cut => rw [hr] at hx hx'; exact ⟨hx, hx'⟩

/-- What is known beforehand and has nothing to do with the store. -/
theorem Triple.of_and {p : Prop} (h : p → Triple env P x V X C) :
    Triple env (fun s => P s ∧ p) x V X C :=
  fun n s hs => h hs.2 n s hs.1

theorem Triple.pure {a : α} (h : ∀ s, P s → V a s) :
    Triple env P (Pure.pure a : Prog Op E σ ε α) V X C :=
  fun _ s hs => h s hs

theorem Triple.throw {e : ε} (h : ∀ s, P s → X s) :
    Triple env P (Prog.throw e : Prog Op E σ ε α) V X C :=
  fun _ s hs => h s hs

/-- **Sequencing.** What the first program leaves with a value is where
the second starts; its other exits are exits of the whole. -/
theorem Triple.bind (hx : Triple env P x V X C) (hf : ∀ a, Triple env (V a) (f a) W X C) :
    Triple env P (x >>= f) W X C := by
  intro n s hs
  have h := hx n s hs
  rw [bind_apply]
  rcases hr : x env (n, s) with ⟨r, m, t⟩
  rw [hr] at h
  cases r with
  | value a => exact hf a m t h
  | error e => exact h
  | cut => exact h

theorem Triple.mapError {g : ε → ε'} (hx : Triple env P x V X C) :
    Triple env P (x.mapError g) V X C := by
  intro n s hs
  have h := hx n s hs
  unfold Prog.mapError
  rcases hr : x env (n, s) with ⟨r, m, t⟩
  rw [hr] at h
  cases r <;> exact h

/-- An error that is looked at is a value. -/
theorem Triple.attempt {X' : σ → Prop} (hx : Triple env P x V X C) :
    Triple env P (x.attempt : Prog Op E σ ε' (Except ε α))
      (fun r s => match r with | .ok a => V a s | .error _ => X s) X' C := by
  intro n s hs
  have h := hx n s hs
  unfold Prog.attempt
  rcases hr : x env (n, s) with ⟨r, m, t⟩
  rw [hr] at h
  cases r <;> exact h

/-- **One operation.** Its verdict decides which of the cases it is. -/
theorem Triple.op {o : Op} {run : ℕ → σ → Except E α × σ} {part : ℕ → σ → σ}
    (hval : ∀ reading s a t, P s → run reading s = (.ok a, t) → V a t)
    (herr : ∀ reading s e t, P s → run reading s = (.error e, t) → X t)
    (hfail : ∀ done s, P s → X (part done s)) (hcrash : ∀ done s, P s → C (part done s)) :
    Triple env P (Prog.op o run part) V X C := by
  intro n s hs
  unfold Prog.op
  dsimp only
  cases env n o with
  | ok reading =>
      dsimp only
      rcases hr : run reading s with ⟨e | a, t⟩
      · exact herr reading s e t hs hr
      · exact hval reading s a t hs hr
  | fail e done => exact hfail done s hs
  | crash done => exact hcrash done s hs

/-- An operation the surroundings let through. -/
theorem Triple.op_ok {o : Op} {run : ℕ → σ → Except E α × σ} {part : ℕ → σ → σ}
    (hok : ∀ n, ∃ reading, env n o = .ok reading)
    (hval : ∀ n reading s a t, env n o = .ok reading → P s → run reading s = (.ok a, t) → V a t)
    (herr : ∀ reading s e t, P s → run reading s = (.error e, t) → X t) :
    Triple env P (Prog.op o run part) V X C := by
  intro n s hs
  obtain ⟨reading, h⟩ := hok n
  unfold Prog.op
  dsimp only
  rw [h]
  dsimp only
  rcases hr : run reading s with ⟨e | a, t⟩
  · exact herr reading s e t hs hr
  · exact hval n reading s a t h hs hr

/-- An operation that is let through and works. -/
theorem Triple.op_works {o : Op} {run : ℕ → σ → Except E α × σ} {part : ℕ → σ → σ}
    (hok : ∀ n, ∃ reading, env n o = .ok reading)
    (h : ∀ n reading s, env n o = .ok reading → P s → ∃ a t, run reading s = (.ok a, t) ∧ V a t) :
    Triple env P (Prog.op o run part) V X C := by
  intro n s hs
  obtain ⟨reading, hreading⟩ := hok n
  obtain ⟨a, t, hrun, ht⟩ := h n reading s hreading hs
  unfold Prog.op
  dsimp only
  rw [hreading]
  dsimp only
  rw [hrun]
  exact ht

/-- A body with a clean-up that keeps what the body's exit promises. -/
theorem Triple.guarded {c : Prog Op E σ ε' Unit} (hx : Triple env P x V X C)
    (hV : ∀ a, Triple env (V a) c (fun _ => V a) (V a) C)
    (hX : Triple env X c (fun _ => X) X C) : Triple env P (Prog.guarded c x) V X C := by
  intro n s hs
  have h := hx n s hs
  unfold Prog.guarded
  rcases hr : x env (n, s) with ⟨r, m, t⟩
  rw [hr] at h
  cases r with
  | cut => exact h
  | value a =>
      have h' := hV a m t h
      dsimp only
      rcases hr' : c env (m, t) with ⟨r', m', t'⟩
      rw [hr'] at h'
      cases r' <;> exact h'
  | error e =>
      have h' := hX m t h
      dsimp only
      rcases hr' : c env (m, t) with ⟨r', m', t'⟩
      rw [hr'] at h'
      cases r' <;> exact h'

/-- A program over a part of the store does not touch the rest. -/
theorem Triple.zoom {Op' τ : Type} {embed : Op' → Op} {get : σ → τ} {set : τ → σ → σ}
    {y : Prog Op' E τ ε α} {P X C : τ → Prop} {V : α → τ → Prop} {F : σ → Prop}
    (hget : ∀ t s, get (set t s) = t) (hF : ∀ t s, F s → F (set t s))
    (hy : Triple (fun n o => env n (embed o)) P y V X C) :
    Triple env (fun s => P (get s) ∧ F s) (Prog.zoom embed get set y)
      (fun a s => V a (get s) ∧ F s) (fun s => X (get s) ∧ F s) (fun s => C (get s) ∧ F s) := by
  rintro n s ⟨hP, hs⟩
  have h := hy n (get s) hP
  unfold Prog.zoom
  rcases hr : y (fun n o => env n (embed o)) (n, get s) with ⟨r, m, t⟩
  rw [hr] at h
  cases r <;> exact ⟨by rw [hget]; exact h, hF t s hs⟩

/-- What does not depend on the store. -/
theorem Triple.const (p : Prop) :
    Triple env (fun _ => p) x (fun _ _ => p) (fun _ => True) (fun _ => True) := by
  intro n s hp
  cases (x env (n, s)).1 with
  | value a => exact hp
  | error e => trivial
  | cut => trivial

theorem Triple.liftExcept {r : Except ε α} (h : ∀ a s, r = .ok a → P s → V a s)
    (hX : ∀ s, P s → X s) : Triple env P (Prog.liftExcept r : Prog Op E σ ε α) V X C := by
  cases r with
  | ok a => exact Triple.pure fun s hs => h a s rfl hs
  | error e => exact Triple.throw hX

/-! ## Invariants -/

theorem Keeps.pure {a : α} : Keeps env I (Pure.pure a : Prog Op E σ ε α) :=
  Triple.pure fun _ h => h

theorem Keeps.throw {e : ε} : Keeps env I (Prog.throw e : Prog Op E σ ε α) :=
  Triple.throw fun _ h => h

theorem Keeps.bind (hx : Keeps env I x) (hf : ∀ a, Keeps env I (f a)) : Keeps env I (x >>= f) :=
  Triple.bind hx hf

theorem Keeps.mapError {g : ε → ε'} (hx : Keeps env I x) : Keeps env I (x.mapError g) :=
  Triple.mapError hx

theorem Keeps.attempt (hx : Keeps env I x) :
    Keeps env I (x.attempt : Prog Op E σ ε' (Except ε α)) :=
  (Triple.attempt hx).mono (fun _ h => h) (fun r _ h => by cases r <;> exact h) (fun _ h => h)
    fun _ h => h

theorem Keeps.op {o : Op} {run : ℕ → σ → Except E α × σ} {part : ℕ → σ → σ}
    (hrun : ∀ reading s, I s → I (run reading s).2) (hpart : ∀ done s, I s → I (part done s)) :
    Keeps env I (Prog.op o run part) :=
  Triple.op (fun reading s _ _ hs hr => by have := hrun reading s hs; rwa [hr] at this)
    (fun reading s _ _ hs hr => by have := hrun reading s hs; rwa [hr] at this)
    hpart hpart

theorem Keeps.guarded {c : Prog Op E σ ε' Unit} (hx : Keeps env I x) (hc : Keeps env I c) :
    Keeps env I (Prog.guarded c x) :=
  Triple.guarded hx (fun _ => hc) hc

theorem Keeps.of_holds (h : ∀ n s, I s → I (x env (n, s)).2.2) : Keeps env I x := by
  intro n s hs
  have hx := h n s hs
  cases (x env (n, s)).1 with
  | value a => exact hx
  | error e => exact hx
  | cut => exact hx

/-- A program that ends with a value, and what it keeps on the way. -/
theorem Triple.and_keeps (h : Triple env P x V (fun _ => False) fun _ => False)
    (hI : Keeps env I x) :
    Triple env (fun s => P s ∧ I s) x (fun a s => V a s ∧ I s) (fun _ => False) fun _ => False :=
  (Triple.and h hI).mono (fun _ hs => hs) (fun _ _ hs => hs) (fun _ hs => hs.1) fun _ hs => hs.1

/-- An invariant, where the other exits promise less. -/
theorem Keeps.triple (h : Keeps env I x) (hX : ∀ s, I s → X s) (hC : ∀ s, I s → C s) :
    Triple env I x (fun _ => I) X C :=
  Triple.mono h (fun _ h => h) (fun _ _ h => h) hX hC

/-- An invariant, where only a value matters. -/
theorem Keeps.value (h : Keeps env I x) :
    Triple env I x (fun _ => I) (fun _ => True) fun _ => True :=
  h.triple (fun _ _ => trivial) fun _ _ => trivial

/-- What a value promises, and what is kept on the way to it. -/
theorem Triple.and_value (h : Triple env P x V (fun _ => True) fun _ => True)
    (hI : Keeps env I x) :
    Triple env (fun s => P s ∧ I s) x (fun a s => V a s ∧ I s) (fun _ => True) fun _ => True :=
  (Triple.and h hI).mono (fun _ hs => hs) (fun _ _ hs => hs) (fun _ _ => trivial)
    fun _ _ => trivial

end Prog

end TunnelWarden
