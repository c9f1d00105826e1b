import Mathlib.Data.List.GetD
import Mathlib.Data.List.Permutation

/-!
# Errors of the operating system, and orders nobody promises

An `io::Error` is its kind and its text. `arrange` is an enumeration of
the orders of a list: what iterates a hash map or a directory sees one
of them, and which one is a number the surroundings choose.
-/

namespace TunnelWarden

/-- The kinds of `io::ErrorKind` the program tells apart. -/
inductive ErrorKind where
  | notFound
  | permissionDenied
  | alreadyExists
  | isADirectory
  | notADirectory
  | addrInUse
  | addrNotAvailable
  | invalidInput
  | invalidData
  | other
  deriving DecidableEq, Repr

/-- `io::Error`: its kind, and the text the system gives with it. -/
structure IoError where
  kind : ErrorKind
  text : String
  deriving DecidableEq, Repr

/-- The order of a list that the number `n` stands for. -/
def arrange {α : Type*} (n : ℕ) (l : List α) : List α :=
  l.permutations'.getD (n % l.permutations'.length) l

theorem arrange_perm {α : Type*} (n : ℕ) (l : List α) : (arrange n l).Perm l := by
  have hpos : 0 < l.permutations'.length :=
    List.length_pos_of_mem (List.mem_permutations'.2 (List.Perm.refl l))
  have hlt := Nat.mod_lt n hpos
  unfold arrange
  rw [List.getD_eq_getElem _ _ hlt]
  exact List.mem_permutations'.1 (List.getElem_mem hlt)

@[simp] theorem mem_arrange {α : Type*} {n : ℕ} {l : List α} {a : α} : a ∈ arrange n l ↔ a ∈ l :=
  (arrange_perm n l).mem_iff

/-- **Every order has its number.** -/
theorem exists_arrange {α : Type*} {l l' : List α} (h : l'.Perm l) : ∃ n, arrange n l = l' := by
  obtain ⟨n, hn, rfl⟩ := List.getElem_of_mem (List.mem_permutations'.2 h)
  refine ⟨n, ?_⟩
  unfold arrange
  rw [Nat.mod_eq_of_lt hn, List.getD_eq_getElem _ _ hn]

end TunnelWarden
