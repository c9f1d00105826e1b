import Mathlib.Data.List.AList
import Mathlib.Data.List.Induction

/-!
# Finite maps, as `std::collections::HashMap` is used

`retain`, `entry(..).or_insert(..)` and `collect` over Mathlib's
association lists, with the lookups that describe them. Nothing here
depends on the order of the entries.
-/

namespace TunnelWarden

/-- A map with values in one type. -/
abbrev Map (κ α : Type) := AList fun _ : κ => α

namespace Map

variable {κ α : Type} [DecidableEq κ]

/-- `HashMap::retain`, by key. -/
def retain (p : κ → Bool) (m : Map κ α) : Map κ α :=
  ⟨m.entries.filter fun e => p e.1, m.nodupKeys.sublist List.filter_sublist⟩

/-- `entry(key).or_insert(default)`, for each key of a list. -/
def orInsertAll (default : α) (keys : List κ) (m : Map κ α) : Map κ α :=
  keys.foldl (fun m k => if k ∈ m then m else m.insert k default) m

/-- `collect` into a map by a key of the values: a later value with the
same key replaces an earlier one. -/
def ofValues (key : α → κ) (values : List α) : Map κ α :=
  values.foldl (fun m a => m.insert (key a) a) ∅

/-- `HashMap::values`, in the order of the entries. -/
def values (m : Map κ α) : List α := m.entries.map Sigma.snd

variable {m : Map κ α} {k : κ} {a : α}

theorem mem_iff : k ∈ m ↔ ∃ a, m.lookup k = some a := by
  rw [← AList.lookup_isSome, Option.isSome_iff_exists]

theorem lookup_eq_none_iff : m.lookup k = none ↔ k ∉ m := AList.lookup_eq_none

theorem lookup_insert_eq (k' : κ) :
    (m.insert k a).lookup k' = if k' = k then some a else m.lookup k' := by
  split
  · subst_vars; exact AList.lookup_insert m
  · rename_i h; exact AList.lookup_insert_ne h

theorem lookup_erase_eq (k' : κ) : (m.erase k).lookup k' = if k' = k then none else m.lookup k' := by
  split
  · subst_vars; exact AList.lookup_erase _ m
  · rename_i h; exact AList.lookup_erase_ne h

theorem mem_lookup_iff_entries : m.lookup k = some a ↔ (⟨k, a⟩ : Sigma fun _ : κ => α) ∈ m.entries :=
  AList.mem_lookup_iff

theorem lookup_retain (p : κ → Bool) (k : κ) :
    (retain p m).lookup k = if p k then m.lookup k else none := by
  have key (a : α) : (retain p m).lookup k = some a ↔ m.lookup k = some a ∧ p k := by
    rw [mem_lookup_iff_entries, mem_lookup_iff_entries]
    exact List.mem_filter
  by_cases hp : p k
  · rw [if_pos hp]
    exact Option.ext fun a => by simp only [key, hp, and_true]
  · rw [if_neg hp]
    exact Option.ext fun a => by simp only [key, hp]; simp

theorem lookup_orInsertAll (default : α) (keys : List κ) (k : κ) :
    (orInsertAll default keys m).lookup k =
      if k ∈ m then m.lookup k else if k ∈ keys then some default else none := by
  induction keys generalizing m with
  | nil =>
      by_cases hk : k ∈ m
      · simp [orInsertAll, hk]
      · simpa [orInsertAll, hk] using lookup_eq_none_iff.2 hk
  | cons k' keys ih =>
      rw [orInsertAll, List.foldl_cons, ← orInsertAll]
      by_cases hk' : k' ∈ m
      · rw [if_pos hk', ih]
        by_cases hk : k ∈ m
        · simp [hk]
        · have hne : k ≠ k' := fun h => hk (h ▸ hk')
          simp [hk, hne]
      · rw [if_neg hk', ih, lookup_insert_eq]
        by_cases hkk : k = k'
        · subst hkk; simp [hk']
        · simp [hkk, AList.mem_insert]

@[simp] theorem mem_orInsertAll {default : α} {keys : List κ} :
    k ∈ orInsertAll default keys m ↔ k ∈ m ∨ k ∈ keys := by
  rw [← AList.lookup_isSome, lookup_orInsertAll]
  by_cases hk : k ∈ m
  · simp [hk, AList.lookup_isSome.2 hk]
  · by_cases hk' : k ∈ keys <;> simp [hk, hk']

theorem mem_values : a ∈ m.values ↔ ∃ k, m.lookup k = some a := by
  unfold values
  simp only [List.mem_map, Sigma.exists, mem_lookup_iff_entries]
  constructor
  · rintro ⟨k, a', h, rfl⟩; exact ⟨k, h⟩
  · rintro ⟨k, h⟩; exact ⟨k, a, h, rfl⟩

/-- What a map collected from values holds under a key: the last value
with that key. -/
theorem lookup_ofValues (key : α → κ) (values : List α) (k : κ) :
    (ofValues key values).lookup k = values.reverse.find? fun a => key a = k := by
  unfold ofValues
  induction values using List.reverseRecOn with
  | nil => rfl
  | append_singleton values a ih =>
      rw [List.foldl_append, List.foldl_cons, List.foldl_nil, lookup_insert_eq, ih,
        List.reverse_append, List.reverse_singleton, List.singleton_append, List.find?_cons]
      by_cases h : key a = k
      · simp [h]
      · simp [h, Ne.symm h]

/-- A value is under its own key. -/
theorem key_ofValues {key : α → κ} {values : List α} (h : (ofValues key values).lookup k = some a) :
    key a = k := by
  rw [lookup_ofValues] at h
  simpa using List.find?_some h

end Map

end TunnelWarden
