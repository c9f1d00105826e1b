import Mathlib.Data.List.Basic

/-!
# Reading and answering a byte stream

One side of a connection: the bytes it has not read yet, up to the end
of the stream, and the bytes it has written. A `Wire` program reads,
writes and may fail; what it read and wrote before stays. `eq_ok` says
of each way of building a program when it succeeds, from where to where;
`Answers` bounds what it can have written, however it ends.
-/

namespace TunnelWarden

/-- A connection as one side has it. -/
structure Stream where
  input : List UInt8
  output : List UInt8 := []
  deriving DecidableEq, Repr

/-- A program over a stream. -/
def Wire (ε α : Type) := Stream → Except ε α × Stream

namespace Wire

variable {ε α β : Type}

instance : Monad (Wire ε) where
  pure a := fun s => (.ok a, s)
  bind x f := fun s =>
    match x s with
    | (.ok a, s) => f a s
    | (.error e, s) => (.error e, s)

/-- End with an error. -/
def fail (e : ε) : Wire ε α := fun s => (.error e, s)

/-- `read_exact`. A stream that ends early is read to its end. -/
def readExact (eof : ε) (n : ℕ) : Wire ε (List UInt8) := fun s =>
  if n ≤ s.input.length then (.ok (s.input.take n), { s with input := s.input.drop n })
  else (.error eof, { s with input := [] })

/-- `write_all`. -/
def writeAll (bytes : List UInt8) : Wire ε Unit := fun s =>
  (.ok (), { s with output := s.output ++ bytes })

/-! ## Success -/

variable {x : Wire ε α} {f : α → Wire ε β} {s t : Stream}

theorem bind_apply : (x >>= f) s =
    match x s with
    | (.ok a, s) => f a s
    | (.error e, s) => (.error e, s) := rfl

/-- Two programs succeed one after the other, over the same stream. -/
theorem run_bind_eq_ok {b : β} :
    (x >>= f) s = (.ok b, t) ↔ ∃ a u, x s = (.ok a, u) ∧ f a u = (.ok b, t) := by
  rw [bind_apply]
  rcases x s with ⟨e | a, u⟩ <;> simp

theorem pure_eq_ok {a b : α} : (pure a : Wire ε α) s = (.ok b, t) ↔ b = a ∧ t = s := by
  change (Except.ok a, s) = (Except.ok b, t) ↔ _
  simp only [Prod.mk.injEq, Except.ok.injEq]
  exact and_congr eq_comm eq_comm

theorem fail_ne_ok {e : ε} {b : α} : (fail e : Wire ε α) s ≠ (.ok b, t) := by
  simp [fail]

/-- **What is read is the next part of the input.** -/
theorem readExact_eq_ok {eof : ε} {n : ℕ} {bytes : List UInt8} :
    readExact eof n s = (.ok bytes, t) ↔
      bytes.length = n ∧ s.input = bytes ++ t.input ∧ t.output = s.output := by
  obtain ⟨input, output⟩ := t
  unfold readExact
  split
  · rename_i hlen
    simp only [Prod.mk.injEq, Except.ok.injEq, Stream.mk.injEq]
    constructor
    · rintro ⟨rfl, rfl, rfl⟩
      exact ⟨List.length_take_of_le hlen, (List.take_append_drop n _).symm, rfl⟩
    · rintro ⟨hbytes, hinput, rfl⟩
      rw [hinput]
      exact ⟨List.take_left' hbytes, List.drop_left' hbytes, rfl⟩
  · rename_i hlen
    refine iff_of_false (by simp) ?_
    rintro ⟨hbytes, hinput, -⟩
    rw [hinput, List.length_append] at hlen
    omega

/-- **What is written** comes after what was. -/
theorem writeAll_eq_ok {bytes : List UInt8} {u : Unit} :
    (writeAll bytes : Wire ε Unit) s = (.ok u, t) ↔ t = { s with output := s.output ++ bytes } := by
  change (Except.ok (), { s with output := s.output ++ bytes }) = (Except.ok u, t) ↔ _
  rw [Prod.mk.injEq]
  constructor
  · rintro ⟨-, rfl⟩
    rfl
  · rintro rfl
    exact ⟨rfl, rfl⟩

/-! ## What is written -/

/-- Where `P` was written before, the program ends well with `V` written
or fails with `X` written. -/
def Answers (P : List UInt8 → Prop) (x : Wire ε α) (V : α → List UInt8 → Prop)
    (X : List UInt8 → Prop) : Prop :=
  ∀ s, P s.output → match x s with
    | (.ok a, t) => V a t.output
    | (.error _, t) => X t.output

variable {P X : List UInt8 → Prop} {V : α → List UInt8 → Prop} {W : β → List UInt8 → Prop}

/-- What the first wrote is what the second finds written. -/
theorem Answers.bind (hx : Answers P x V X) (hf : ∀ a, Answers (V a) (f a) W X) :
    Answers P (x >>= f) W X := by
  intro s hs
  have h := hx s hs
  rw [bind_apply]
  rcases hr : x s with ⟨e | a, u⟩
  · rw [hr] at h
    exact h
  · rw [hr] at h
    exact hf a u h

theorem Answers.pure {a : α} (h : ∀ out, P out → V a out) :
    Answers P (Pure.pure a : Wire ε α) V X :=
  fun s hs => h s.output hs

theorem Answers.fail {e : ε} (h : ∀ out, P out → X out) : Answers P (fail e : Wire ε α) V X :=
  fun s hs => h s.output hs

/-- Reading writes nothing. -/
theorem Answers.readExact {eof : ε} {n : ℕ} (h : ∀ out, P out → X out) :
    Answers P (readExact eof n) (fun _ => P) X := by
  intro s hs
  unfold Wire.readExact
  by_cases hlen : n ≤ s.input.length
  · rw [if_pos hlen]
    exact hs
  · rw [if_neg hlen]
    exact h s.output hs

/-- A write cannot fail. -/
theorem Answers.writeAll {bytes : List UInt8} {V : Unit → List UInt8 → Prop}
    (h : ∀ out, P out → V () (out ++ bytes)) :
    Answers P (Wire.writeAll bytes : Wire ε Unit) V X :=
  fun s hs => h s.output hs

end Wire

end TunnelWarden
