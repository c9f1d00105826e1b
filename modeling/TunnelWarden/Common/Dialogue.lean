import Mathlib.Data.List.Basic

/-!
# Programs that talk to the outside

A program asks the outside one question after another, goes on with the
answer, and ends with a value or an error. `Dialogue` is the tree of its
questions with what the program makes of each answer that is possible,
and `play` a run against surroundings that answer as they like and
remember what was said. What is said is recorded.

`Meets G V X` is the rule format: every question is one `G` permits
after what was said before it, and at the end the record satisfies `V`
where there is a value and `X` where there is an error. The rules follow
the shape of a program, and `play_spec` turns them into facts about every
run. As the demand `G` is made at each question, it holds of a run that
breaks off as well.
-/

namespace TunnelWarden

/-- A question with the answer it got. -/
structure Exchange (Q : Type) (A : Q → Type) where
  question : Q
  answer : A question

/-- A program with questions `Q`, answered by values of `A`. -/
inductive Dialogue (Q : Type) (A : Q → Type) (ε α : Type) where
  | done (a : α)
  | fail (e : ε)
  | ask (q : Q) (next : A q → Dialogue Q A ε α)

/-- The surroundings: what they answer after what was said. -/
abbrev Surroundings (Q : Type) (A : Q → Type) := List (Exchange Q A) → (q : Q) → A q

namespace Dialogue

variable {Q : Type} {A : Q → Type} {ε ε' α β : Type}

/-- One program after another. -/
def bind (d : Dialogue Q A ε α) (f : α → Dialogue Q A ε β) : Dialogue Q A ε β :=
  match d with
  | .done a => f a
  | .fail e => .fail e
  | .ask q next => .ask q fun a => (next a).bind f

instance : Monad (Dialogue Q A ε) where
  pure := .done
  bind := .bind

/-- One question. -/
def inquire (q : Q) : Dialogue Q A ε (A q) := .ask q .done

/-- A pure computation that may fail. -/
def ofExcept : Except ε α → Dialogue Q A ε α
  | .ok a => .done a
  | .error e => .fail e

/-- The program with its errors renamed. -/
def mapError (f : ε → ε') : Dialogue Q A ε α → Dialogue Q A ε' α
  | .done a => .done a
  | .fail e => .fail (f e)
  | .ask q next => .ask q fun a => (next a).mapError f

/-- The program, and a clean-up where it fails. -/
def onError (d : Dialogue Q A ε α) (cleanup : Dialogue Q A ε Unit) : Dialogue Q A ε α :=
  match d with
  | .done a => .done a
  | .fail e => cleanup.bind fun _ => .fail e
  | .ask q next => .ask q fun a => (next a).onError cleanup

/-- The program, whatever comes of it. -/
def ignore : Dialogue Q A ε α → Dialogue Q A ε' Unit
  | .done _ => .done ()
  | .fail _ => .done ()
  | .ask q next => .ask q fun a => (next a).ignore

/-- A run, from what was said before on: how the program ends, and what
was said then. -/
def play (env : Surroundings Q A) :
    Dialogue Q A ε α → List (Exchange Q A) → Except ε α × List (Exchange Q A)
  | .done a, past => (.ok a, past)
  | .fail e, past => (.error e, past)
  | .ask q next, past => play env (next (env past q)) (past ++ [⟨q, env past q⟩])

/-! ## Rules -/

/-- Every question is permitted, and the record at the end is as
demanded. -/
def Meets (G : List (Exchange Q A) → Q → Prop) (V : α → List (Exchange Q A) → Prop)
    (X : ε → List (Exchange Q A) → Prop) : Dialogue Q A ε α → List (Exchange Q A) → Prop
  | .done a, past => V a past
  | .fail e, past => X e past
  | .ask q next, past => G past q ∧ ∀ a, Meets G V X (next a) (past ++ [⟨q, a⟩])

variable {G G' : List (Exchange Q A) → Q → Prop} {V V' : α → List (Exchange Q A) → Prop}
variable {W : β → List (Exchange Q A) → Prop} {X X' : ε → List (Exchange Q A) → Prop}
variable {d : Dialogue Q A ε α} {f : α → Dialogue Q A ε β} {past : List (Exchange Q A)}

theorem Meets.pure {a : α} (h : V a past) :
    Meets G V X (Pure.pure a : Dialogue Q A ε α) past := h

/-- **Sequencing.** What the first program leaves with a value is where
the second starts; its errors are errors of the whole. -/
theorem Meets.bind (h : Meets G (fun a => Meets G W X (f a)) X d past) :
    Meets G W X (d >>= f) past := by
  induction d generalizing past with
  | done a => exact h
  | fail e => exact h
  | ask q next ih => exact ⟨h.1, fun a => ih a (h.2 a)⟩

theorem Meets.inquire {q : Q} {V : A q → List (Exchange Q A) → Prop} (hq : G past q)
    (h : ∀ a, V a (past ++ [⟨q, a⟩])) :
    Meets G V X (Dialogue.inquire q : Dialogue Q A ε (A q)) past :=
  ⟨hq, h⟩

theorem Meets.ofExcept {r : Except ε α} (hV : ∀ a, r = .ok a → V a past)
    (hX : ∀ e, r = .error e → X e past) :
    Meets G V X (Dialogue.ofExcept r : Dialogue Q A ε α) past := by
  cases r with
  | ok a => exact hV a rfl
  | error e => exact hX e rfl

/-- A question, and then the rest. -/
theorem Meets.asked {q : Q} {f : A q → Dialogue Q A ε β} (hq : G past q)
    (h : ∀ a, Meets G W X (f a) (past ++ [⟨q, a⟩])) :
    Meets G W X (Dialogue.inquire q >>= f) past :=
  ⟨hq, h⟩

/-- A computation, and then the rest. -/
theorem Meets.checked {r : Except ε α} (hV : ∀ a, r = .ok a → Meets G W X (f a) past)
    (hX : ∀ e, r = .error e → X e past) :
    Meets G W X (Dialogue.ofExcept r >>= f) past :=
  Meets.bind (Meets.ofExcept hV hX)

/-- The rule of consequence. What was said before stays in the record,
so it may be used of the record at the end. -/
theorem Meets.mono (h : Meets G V X d past) (hG : ∀ more q, G (past ++ more) q → G' (past ++ more) q)
    (hV : ∀ a more, V a (past ++ more) → V' a (past ++ more))
    (hX : ∀ e more, X e (past ++ more) → X' e (past ++ more)) : Meets G' V' X' d past := by
  induction d generalizing past with
  | done a =>
      have hend := hV a []
      rw [List.append_nil] at hend
      exact hend h
  | fail e =>
      have hend := hX e []
      rw [List.append_nil] at hend
      exact hend h
  | ask q next ih =>
      have hquestion := hG [] q
      rw [List.append_nil] at hquestion
      refine ⟨hquestion h.1, fun a => ih a (h.2 a) ?_ ?_ ?_⟩
      · intro more q' hq'
        rw [List.append_assoc] at hq' ⊢
        exact hG _ q' hq'
      · intro b more hb
        rw [List.append_assoc] at hb ⊢
        exact hV b _ hb
      · intro e more he
        rw [List.append_assoc] at he ⊢
        exact hX e _ he

/-- **Sequencing, with what stays.** The second program is followed from a
record that begins with the one before. -/
theorem Meets.seq {X' : ε → List (Exchange Q A) → Prop} (h : Meets G V X' d past)
    (hX : ∀ e more, X' e (past ++ more) → X e (past ++ more))
    (hf : ∀ a more, V a (past ++ more) → Meets G W X (f a) (past ++ more)) :
    Meets G W X (d >>= f) past :=
  Meets.bind (h.mono (fun _ _ hq => hq) hf hX)

theorem Meets.mapError {g : ε → ε'} {X : ε' → List (Exchange Q A) → Prop}
    (h : Meets G V (fun e => X (g e)) d past) : Meets G V X (d.mapError g) past := by
  induction d generalizing past with
  | done a => exact h
  | fail e => exact h
  | ask q next ih => exact ⟨h.1, fun a => ih a (h.2 a)⟩

/-- A clean-up starts where the program fails. -/
theorem Meets.onError {c : Dialogue Q A ε Unit}
    (h : Meets G V (fun e => Meets G (fun _ => X e) X c) d past) :
    Meets G V X (d.onError c) past := by
  induction d generalizing past with
  | done a => exact h
  | fail e => exact Meets.bind (f := fun _ => .fail e) h
  | ask q next ih => exact ⟨h.1, fun a => ih a (h.2 a)⟩

/-- And goes on from what the program left. -/
theorem Meets.guarded {c : Dialogue Q A ε Unit} (h : Meets G V X' d past)
    (hc : ∀ e more, X' e (past ++ more) → Meets G (fun _ => X e) X c (past ++ more)) :
    Meets G V X (d.onError c) past :=
  Meets.onError (h.mono (fun _ _ hq => hq) (fun _ _ hv => hv) hc)

theorem Meets.ignore {V : Unit → List (Exchange Q A) → Prop} {X : ε' → List (Exchange Q A) → Prop}
    (h : Meets G (fun _ => V ()) (fun _ => V ()) d past) : Meets G V X d.ignore past := by
  induction d generalizing past with
  | done a => exact h
  | fail e => exact h
  | ask q next ih => exact ⟨h.1, fun a => ih a (h.2 a)⟩

/-! ## Runs -/

variable (env : Surroundings Q A)

/-- What was said before a run is at the front of its record. -/
theorem play_extends (d : Dialogue Q A ε α) (past : List (Exchange Q A)) :
    past <+: (d.play env past).2 := by
  induction d generalizing past with
  | done a => exact List.prefix_rfl
  | fail e => exact List.prefix_rfl
  | ask q next ih => exact (List.prefix_append _ _).trans (ih _ _)

/-- **Every run of a program that meets its demands**: it ends as
demanded, and each question it asked was permitted when it was asked. -/
theorem play_spec (h : Meets G V X d past) :
    (∀ a, (d.play env past).1 = .ok a → V a (d.play env past).2) ∧
      (∀ e, (d.play env past).1 = .error e → X e (d.play env past).2) ∧
      ∀ pre q a post, (d.play env past).2 = pre ++ ⟨q, a⟩ :: post →
        past.length ≤ pre.length → G pre q := by
  induction d generalizing past with
  | done a =>
      refine ⟨fun b hb => ?_, fun e he => (by cases he), fun pre q b post hlog hlen => ?_⟩
      · obtain rfl := Except.ok.inj hb
        exact h
      · have hlength := congrArg List.length hlog
        simp only [play, List.length_append, List.length_cons] at hlength
        omega
  | fail e =>
      refine ⟨fun b hb => (by cases hb), fun e' he => ?_, fun pre q b post hlog hlen => ?_⟩
      · obtain rfl := Except.error.inj he
        exact h
      · have hlength := congrArg List.length hlog
        simp only [play, List.length_append, List.length_cons] at hlength
        omega
  | ask q next ih =>
      obtain ⟨hvalue, herror, hasked⟩ := ih _ (h.2 (env past q))
      refine ⟨hvalue, herror, fun pre q' b post hlog hlen => ?_⟩
      rcases Nat.lt_or_ge past.length pre.length with hlt | hge
      · refine hasked pre q' b post hlog ?_
        rw [List.length_append]
        exact hlt
      · -- the first question of the run
        obtain ⟨more, hmore⟩ := play_extends env (next (env past q)) (past ++ [⟨q, env past q⟩])
        have heq : past ++ [⟨q, env past q⟩] ++ more = pre ++ ⟨q', b⟩ :: post := hmore.trans hlog
        rw [List.append_assoc] at heq
        obtain ⟨rfl, hrest⟩ := List.append_inj heq (Nat.le_antisymm hlen hge)
        obtain ⟨hexchange, -⟩ := List.cons.inj hrest
        have hquestion : q = q' := congrArg Exchange.question hexchange
        rw [← hquestion]
        exact h.1

end Dialogue

end TunnelWarden
