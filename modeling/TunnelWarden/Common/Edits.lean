import Mathlib.Data.List.Basic

/-!
# Edits of a shared value

A value is made of items, and an edit is made on a copy: what the copy
was (`base`) and what it became (`result`). Writing the result back
keeps the edits before it where the copy was the value at that time.
`Serial` says so for a list of edits, and then no edit is lost
(`Serial.keeps`): the value has each of them, up to those made later to
the same item. Requests answered in order are paired with their answers
by `List.zip`.
-/

namespace TunnelWarden

variable {σ ι ν : Type*}

structure Edited (σ : Type*) where
  base : σ
  result : σ
  deriving DecidableEq

namespace Edited

/-- The edit changes the item. -/
def Changes (get : σ → ι → ν) (e : Edited σ) (i : ι) : Prop := get e.result i ≠ get e.base i

instance [DecidableEq ν] (get : σ → ι → ν) (e : Edited σ) (i : ι) : Decidable (e.Changes get i) :=
  inferInstanceAs (Decidable (_ ≠ _))

/-- **No edit is lost**: the value has what an edit made of an item,
unless a later edit changed that item. -/
def Keeps (get : σ → ι → ν) (edits : List (Edited σ)) (value : σ) : Prop :=
  ∀ pre e post, edits = pre ++ e :: post → ∀ i, e.Changes get i →
    (∀ later ∈ post, ¬ later.Changes get i) → get value i = get e.result i

/-- Each edit was made on what the one before it left. -/
def Serial (first : σ) : List (Edited σ) → σ → Prop
  | [], last => last = first
  | e :: rest, last => e.base = first ∧ Serial e.result rest last

variable {get : σ → ι → ν} {first last : σ} {edits : List (Edited σ)} {e : Edited σ}

theorem Serial.concat (h : Serial first edits last) (he : e.base = last) :
    Serial first (edits ++ [e]) e.result := by
  induction edits generalizing first with
  | nil => exact ⟨he.trans h, rfl⟩
  | cons d rest ih => exact ⟨h.1, ih h.2⟩

/-- An item no edit changes stays. -/
theorem Serial.get_eq (h : Serial first edits last) {i : ι}
    (hsame : ∀ d ∈ edits, ¬ d.Changes get i) : get last i = get first i := by
  induction edits generalizing first with
  | nil => rw [h]
  | cons d rest ih =>
      have hd : get d.result i = get d.base i :=
        not_not.1 (hsame d List.mem_cons_self)
      rw [ih h.2 fun x hx => hsame x (List.mem_cons_of_mem _ hx), hd, h.1]

/-- **Edits made one on another are all kept.** -/
theorem Serial.keeps (h : Serial first edits last) : Keeps get edits last := by
  intro pre e post heq i _ hpost
  induction edits generalizing first pre with
  | nil => simp at heq
  | cons d rest ih =>
      cases pre with
      | nil =>
          obtain ⟨rfl, rfl⟩ := List.cons.inj heq
          exact h.2.get_eq hpost
      | cons d' pre => exact ih h.2 pre (List.cons.inj heq).2

end Edited

/-! ## Requests and their answers, in order -/

variable {α β : Type*} {requests : List α} {answers : List β} {a : α} {b : β}

/-- A request that has just been made has no answer yet. -/
theorem zip_request (h : answers.length ≤ requests.length) :
    (requests ++ [a]).zip answers = requests.zip answers := by
  induction requests generalizing answers with
  | nil =>
      obtain rfl := List.length_eq_zero_iff.1 (Nat.le_zero.1 h)
      simp
  | cons r rest ih =>
      cases answers with
      | nil => simp
      | cons b answers => simpa using ih (by simpa using h)

/-- The next answer is for the first request without one. -/
theorem zip_answer {rest : List α} (h : requests.drop answers.length = a :: rest) :
    requests.zip (answers ++ [b]) = requests.zip answers ++ [(a, b)] := by
  induction answers generalizing requests with
  | nil =>
      rw [List.length_nil, List.drop_zero] at h
      simp [h]
  | cons c answers ih =>
      cases requests with
      | nil => simp at h
      | cons r requests => simpa using ih (by simpa using h)

end TunnelWarden
