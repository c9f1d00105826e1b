import Mathlib.Data.List.Basic
import Mathlib.Data.List.Induction
import Mathlib.Data.List.Nodup
import Mathlib.Data.List.Perm.Subperm

/-!
# Totals over a list

The total of a measure over a list, where one entry is replaced or one
is added at the end, and over a part of a list.
-/

namespace TunnelWarden

variable {α : Type*} {f : α → ℕ} {l : List α} {a b : α} {k : ℕ}

/-- The total of `f` over a list. -/
def tally (f : α → ℕ) : List α → ℕ
  | [] => 0
  | a :: l => f a + tally f l

theorem tally_concat (f : α → ℕ) (l : List α) (a : α) : tally f (l ++ [a]) = tally f l + f a := by
  induction l with
  | nil =>
      show f a + 0 = 0 + f a
      omega
  | cons x l ih =>
      show f x + tally f (l ++ [a]) = f x + tally f l + f a
      omega

theorem tally_perm (f : α → ℕ) {l l' : List α} (h : l.Perm l') : tally f l = tally f l' := by
  induction h with
  | nil => rfl
  | cons x _ ih =>
      show f x + _ = f x + _
      rw [ih]
  | swap x y l =>
      show f y + (f x + tally f l) = f x + (f y + tally f l)
      omega
  | trans _ _ ih ih' => exact ih.trans ih'

/-- **A part of a list** has no more than the list. -/
theorem tally_subperm (f : α → ℕ) {l l' : List α} (h : l.Subperm l') : tally f l ≤ tally f l' := by
  obtain ⟨part, hperm, hsub⟩ := h
  rw [← tally_perm f hperm]
  clear hperm
  induction hsub with
  | slnil => exact Nat.le_refl _
  | cons x _ ih =>
      show _ ≤ f x + _
      omega
  | cons_cons x _ ih =>
      show f x + _ ≤ f x + _
      omega

/-- **One entry is replaced**: the total changes by its difference. -/
theorem tally_set (f : α → ℕ) (h : l[k]? = some a) (b : α) :
    tally f (l.set k b) + f a = tally f l + f b := by
  induction l generalizing k with
  | nil => simp at h
  | cons x l ih =>
      cases k with
      | zero =>
          obtain rfl : x = a := by simpa using h
          simp only [tally, List.set_cons_zero]
          omega
      | succ k =>
          have hk : l[k]? = some a := by simpa using h
          have hset := ih hk
          simp only [tally, List.set_cons_succ]
          omega

/-- **Counted by their places**: where a list has each place of an entry
with the property once, there are as many of them. -/
theorem tally_eq_length {P : α → Prop} [DecidablePred P] {places : List ℕ} (hnodup : places.Nodup)
    (hplaces : ∀ k, k ∈ places ↔ ∃ a, l[k]? = some a ∧ P a) :
    tally (fun a => if P a then 1 else 0) l = places.length := by
  induction l using List.reverseRecOn generalizing places with
  | nil =>
      have hnil : places = [] := List.eq_nil_iff_forall_not_mem.2 fun k hk => by
        obtain ⟨a, ha, -⟩ := (hplaces k).1 hk
        simp at ha
      rw [hnil]
      rfl
  | append_singleton l a ih =>
      have hlast : l.length ∈ places ↔ P a := by simp [hplaces]
      have hbefore : ∀ k, k ∈ places.erase l.length ↔ ∃ b, l[k]? = some b ∧ P b := fun k => by
        rw [hnodup.mem_erase_iff, hplaces]
        constructor
        · rintro ⟨hne, b, hb, hP⟩
          refine ⟨b, ?_, hP⟩
          rcases Nat.lt_or_ge k l.length with hlt | hge
          · rwa [List.getElem?_append_left hlt] at hb
          · have hlt := (List.getElem?_eq_some_iff.1 hb).1
            rw [List.length_append, List.length_singleton] at hlt
            omega
        · rintro ⟨b, hb, hP⟩
          have hlt := (List.getElem?_eq_some_iff.1 hb).1
          refine ⟨by omega, b, ?_, hP⟩
          rwa [List.getElem?_append_left hlt]
      rw [tally_concat, ih (hnodup.erase _) hbefore, List.length_erase]
      by_cases hP : P a
      · have hmem := hlast.2 hP
        have hpos := List.length_pos_of_mem hmem
        rw [if_pos hP, if_pos hmem]
        omega
      · rw [if_neg hP, if_neg fun hmem => hP (hlast.1 hmem)]
        rfl

/-- What holds of every entry, and of the one that is put there. -/
theorem forall_mem_set {P : α → Prop} (hl : ∀ x ∈ l, P x) (hb : P b) : ∀ x ∈ l.set k b, P x := by
  intro x hx
  rcases List.mem_or_eq_of_mem_set hx with hx | rfl
  · exact hl x hx
  · exact hb

end TunnelWarden
