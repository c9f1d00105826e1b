import Mathlib.Data.List.Sort
import Mathlib.Data.List.Perm.Subperm

/-!
# The greatest elements of a list

Elements come one by one, and the least of those that are held goes where
there would be more than `n`. What is held is then always the `n`
greatest (`Greatest`), so an element is held exactly where fewer than `n`
are greater (`Greatest.mem_iff`).
-/

namespace TunnelWarden

variable {α : Type*} [LinearOrder α] {n : ℕ} {l kept : List α} {a x : α}

/-- The `n` greatest elements of a list, or all of them. -/
structure Greatest (n : ℕ) (l kept : List α) : Prop where
  nodup : kept.Nodup
  subset : kept ⊆ l
  length : kept.length ≤ n
  below : ∀ a ∈ l, a ∉ kept → kept.length = n ∧ ∀ b ∈ kept, a < b

omit [LinearOrder α] in
/-- The last element is the one that is dropped. -/
theorem mem_dropLast_iff {l : List α} (hl : l.Nodup) (hne : l ≠ []) :
    a ∈ l.dropLast ↔ a ∈ l ∧ a ≠ l.getLast hne := by
  have hsplit := List.dropLast_append_getLast hne
  generalize l.getLast hne = last at hsplit ⊢
  rw [← hsplit, List.nodup_append] at hl
  have hmem : a ∈ l ↔ a ∈ l.dropLast ∨ a = last := by
    rw [← List.mem_singleton, ← List.mem_append, hsplit]
  rw [hmem]
  constructor
  · intro hkept
    exact ⟨.inl hkept, hl.2.2 a hkept last (List.mem_singleton_self last)⟩
  · rintro ⟨hkept | heq, hother⟩
    · exact hkept
    · exact absurd heq hother

namespace Greatest

theorem nil : Greatest n ([] : List α) [] where
  nodup := List.nodup_nil
  subset := List.Subset.refl []
  length := Nat.zero_le n
  below := by simp

/-- The order of the list does not matter. -/
theorem congr {l' : List α} (h : Greatest n l kept) (hmem : ∀ a, a ∈ l ↔ a ∈ l') :
    Greatest n l' kept where
  nodup := h.nodup
  subset := fun a ha => (hmem a).1 (h.subset ha)
  length := h.length
  below := fun a ha hout => h.below a ((hmem a).2 ha) hout

theorem nodup_sorted {sorted : List α} (h : Greatest n l kept) (hx : x ∉ l)
    (hperm : sorted.Perm (kept ++ [x])) : sorted.Nodup := by
  rw [hperm.nodup_iff, List.nodup_append_comm, List.singleton_append, List.nodup_cons]
  exact ⟨fun hmem => hx (h.subset hmem), h.nodup⟩

/-- There is room for one more. -/
theorem push {sorted : List α} (h : Greatest n l kept) (hx : x ∉ l)
    (hperm : sorted.Perm (kept ++ [x])) (hlen : sorted.length ≤ n) :
    Greatest n (l ++ [x]) sorted where
  nodup := h.nodup_sorted hx hperm
  subset := fun b hb => by
    rcases List.mem_append.1 (hperm.mem_iff.1 hb) with hb | hb
    · exact List.mem_append_left _ (h.subset hb)
    · exact List.mem_append_right _ hb
  length := hlen
  below := by
    intro b hb hnot
    have hlength : sorted.length = kept.length + 1 := by simpa using hperm.length_eq
    rw [hperm.mem_iff, List.mem_append, not_or] at hnot
    rcases List.mem_append.1 hb with hb | hb
    -- all that was there is still held, since there was room
    · have hfull := (h.below b hb hnot.1).1
      omega
    · exact absurd hb hnot.2

/-- The least goes. -/
theorem replace {sorted : List α} (h : Greatest n l kept) (hx : x ∉ l)
    (hperm : sorted.Perm (kept ++ [x])) (hsorted : sorted.Pairwise fun a b => b ≤ a)
    (hlen : n < sorted.length) : Greatest n (l ++ [x]) sorted.dropLast := by
  have hlength : sorted.length = kept.length + 1 := by simpa using hperm.length_eq
  have hle := h.length
  have hne : sorted ≠ [] := by
    rintro rfl
    simp at hlen
  have hnodup := h.nodup_sorted hx hperm
  have hsplit := List.dropLast_append_getLast hne
  generalize sorted.getLast hne = least at hsplit
  rw [← hsplit, List.nodup_append] at hnodup
  rw [← hsplit, List.pairwise_append] at hsorted
  have hleast (b : α) (hb : b ∈ sorted.dropLast) : least < b :=
    lt_of_le_of_ne (hsorted.2.2 b hb least (by simp)) (hnodup.2.2 b hb least (by simp)).symm
  have hmem (b : α) : b ∈ sorted.dropLast ∨ b = least ↔ b ∈ kept ∨ b = x := by
    have hboth := hperm.mem_iff (a := b)
    rw [← hsplit] at hboth
    simpa using hboth
  refine ⟨hnodup.1, fun b hb => ?_, ?_, fun b hb hnot => ⟨?_, fun c hc => ?_⟩⟩
  · rcases (hmem b).1 (.inl hb) with hb | rfl
    · exact List.mem_append_left _ (h.subset hb)
    · simp
  · rw [List.length_dropLast]
    omega
  · rw [List.length_dropLast]
    omega
  · -- what is not held is the one that goes, or is below all that were held
    by_cases hout : b ∈ kept ∨ b = x
    · rcases (hmem b).2 hout with hheld | rfl
      · exact absurd hheld hnot
      · exact hleast c hc
    · have hb : b ∈ l := by
        rcases List.mem_append.1 hb with hb | hb
        · exact hb
        · exact absurd (.inr (List.mem_singleton.1 hb)) hout
      have hbelow := (h.below b hb fun hkept => hout (.inl hkept)).2
      rcases (hmem c).1 (.inl hc) with hc' | rfl
      · exact hbelow c hc'
      · -- the new element is held, so the one that goes was held before
        rcases (hmem least).1 (.inr rfl) with hleast' | hleast'
        · exact (hbelow least hleast').trans (hleast c hc)
        · exact absurd (hleast c hc) (by simp [hleast'])

/-- **An element is held exactly where fewer than `n` are greater.** -/
theorem mem_iff (h : Greatest n l kept) (hl : l.Nodup) (ha : a ∈ l) :
    a ∈ kept ↔ l.countP (a < ·) < n := by
  rw [List.countP_eq_length_filter]
  constructor
  · intro hkept
    have hsub : l.filter (a < ·) ⊆ kept.erase a := by
      intro b hb
      obtain ⟨hbl, hlt⟩ := List.mem_filter.1 hb
      have hlt : a < b := by simpa using hlt
      by_contra hnot
      have hout : b ∉ kept := fun hmem => hnot ((List.mem_erase_of_ne hlt.ne').2 hmem)
      exact absurd ((h.below b hbl hout).2 a hkept) hlt.asymm
    have hlength := ((hl.filter _).subperm hsub).length_le
    have hpos := List.length_pos_of_mem hkept
    have hle := h.length
    rw [List.length_erase_of_mem hkept] at hlength
    omega
  · intro hfew
    by_contra hout
    obtain ⟨hfull, hbelow⟩ := h.below a ha hout
    have hsub : kept ⊆ l.filter (a < ·) := fun b hb =>
      List.mem_filter.2 ⟨h.subset hb, by simpa using hbelow b hb⟩
    have hlength := (h.nodup.subperm hsub).length_le
    omega

end Greatest

end TunnelWarden
