import Mathlib.Data.List.Infix

/-!
# File paths

Rust compares two paths by their components, so a path is modelled as
the components it has: repeated separators and inner `.` are gone, and
equality here is equality there.
-/

namespace TunnelWarden

/-- `std::path::Component`. -/
inductive Component where
  | windowsPrefix (text : String)
  | rootDir
  | curDir
  | parentDir
  | normal (name : String)
  deriving DecidableEq, Repr

/-- `std::path::PathBuf`, up to the equality of paths. -/
structure PathBuf where
  components : List Component
  deriving DecidableEq, Repr

namespace PathBuf

/-- The path of one ordinary name. -/
def ofName (name : String) : PathBuf := ⟨[.normal name]⟩

/-- Does joining this path replace what is on its left? -/
def replaces (p : PathBuf) : Bool :=
  match p.components with
  | .rootDir :: _ => true
  | .windowsPrefix _ :: _ => true
  | _ => false

/-- `Path::join`. A leading `.` of the right path is an inner one of the
joined path, and inner ones are no components. -/
def join (p q : PathBuf) : PathBuf :=
  if q.replaces then q
  else if p.components = [] then q
  else match q.components with
    | .curDir :: rest => ⟨p.components ++ rest⟩
    | rest => ⟨p.components ++ rest⟩

/-- `Path::parent`. -/
def parent (p : PathBuf) : Option PathBuf :=
  match p.components.getLast? with
  | some (.windowsPrefix _) | some .rootDir | none => none
  | some _ => some ⟨p.components.dropLast⟩

/-- `Path::strip_prefix`. -/
def stripPrefix (p base : PathBuf) : Option PathBuf :=
  if base.components <+: p.components then some ⟨p.components.drop base.components.length⟩
  else none

/-- The ordinary components as text, with separators between them. -/
def displayNames (cs : List Component) : String :=
  "\\".intercalate (cs.map fun
    | .windowsPrefix text => text
    | .rootDir => ""
    | .curDir => "."
    | .parentDir => ".."
    | .normal name => name)

/-- `Path::display`, with the separators of the platform. -/
def display (p : PathBuf) : String :=
  match p.components with
  | .windowsPrefix text :: .rootDir :: rest => text ++ "\\" ++ displayNames rest
  | .windowsPrefix text :: rest => text ++ displayNames rest
  | .rootDir :: rest => "\\" ++ displayNames rest
  | rest => displayNames rest

/-- The path and the paths above it, from the outermost on. -/
def ancestors (p : PathBuf) : List PathBuf := (p.components.inits.drop 1).map PathBuf.mk

/-- The name under which a path stands directly in the directory `p`. -/
def childName (p q : PathBuf) : Option String :=
  match q.components.getLast? with
  | some (.normal name) => if q.components.dropLast = p.components then some name else none
  | _ => none

variable {p q : PathBuf} {a b : String}

theorem join_ofName : p.join (.ofName a) = ⟨p.components ++ [.normal a]⟩ := by
  unfold join
  by_cases hp : p.components = [] <;> simp [ofName, replaces, hp]

theorem join_ofName_inj : p.join (.ofName a) = q.join (.ofName b) ↔ p = q ∧ a = b := by
  rw [join_ofName, join_ofName]
  obtain ⟨cs⟩ := p
  obtain ⟨ds⟩ := q
  simp

/-- A path is not above the directory it stands in. -/
theorem join_ofName_notMem_ancestors : p.join (.ofName a) ∉ p.ancestors := by
  intro h
  rw [join_ofName] at h
  obtain ⟨cs, hcs, heq⟩ := List.mem_map.1 h
  have hpre := (List.mem_inits _ _).1 (List.mem_of_mem_drop hcs)
  obtain rfl := PathBuf.mk.inj heq
  have hlen := hpre.length_le
  rw [List.length_append, List.length_singleton] at hlen
  omega

/-- Nor is it above what stands beside it. -/
theorem join_ofName_notMem_ancestors_join (h : a ≠ b) :
    p.join (.ofName a) ∉ (p.join (.ofName b)).ancestors := by
  intro hmem
  rw [join_ofName, join_ofName] at hmem
  obtain ⟨cs, hcs, heq⟩ := List.mem_map.1 hmem
  have hpre := (List.mem_inits _ _).1 (List.mem_of_mem_drop hcs)
  obtain rfl := PathBuf.mk.inj heq
  have heq := hpre.eq_of_length (by simp)
  simp only [List.append_cancel_left_eq, List.cons.injEq, Component.normal.injEq, and_true] at heq
  exact h heq

/-- Nor is anything in one directory also in a directory beside it. -/
theorem join_ofName_ne_join_join {c : String} :
    p.join (.ofName a) ≠ (p.join (.ofName b)).join (.ofName c) := by
  intro h
  have hdir := (join_ofName_inj.1 h).1
  rw [join_ofName] at hdir
  have hlen := congrArg (fun q => q.components.length) hdir
  simp at hlen

/-- What is above a directory is above what stands in it. -/
theorem ancestors_subset_join : p.ancestors ⊆ (p.join (.ofName a)).ancestors := by
  intro q hq
  obtain ⟨cs, hcs, rfl⟩ := List.mem_map.1 hq
  refine List.mem_map.2 ⟨cs, ?_, rfl⟩
  rw [join_ofName, List.inits_append]
  rw [List.drop_append_of_le_length (by simp)]
  exact List.mem_append_left _ hcs

theorem join_ofName_mem_ancestors : p.join (.ofName a) ∈ (p.join (.ofName a)).ancestors := by
  rw [join_ofName]
  refine List.mem_map.2 ⟨_, ?_, rfl⟩
  rw [List.inits_append, List.drop_append_of_le_length (by simp)]
  exact List.mem_append_right _ (by simp)

theorem childName_eq_some : p.childName q = some a ↔ q = p.join (.ofName a) := by
  rw [join_ofName]
  obtain ⟨cs⟩ := q
  rcases List.eq_nil_or_concat cs with rfl | ⟨front, last, rfl⟩
  · simp [childName]
  · cases last <;> simp [childName]

end PathBuf

end TunnelWarden
