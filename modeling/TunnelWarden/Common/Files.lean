import Mathlib.Data.List.AList
import TunnelWarden.Common.Fault
import TunnelWarden.Common.Io
import TunnelWarden.Common.Path

/-!
# A file system

A disk is a finite map from paths to files and directories. Each
operation of `std::fs` the program uses is one operation of `Prog`:
what it does where it works, and how far it can have got where it does
not. A rename is atomic, a `create_new` is exclusive, and only a write
or a copy can be left half done. The rules at the end say which paths
an operation can change.
-/

namespace TunnelWarden

inductive Node where
  | file (content : ByteArray)
  | dir

instance : DecidableEq Node
  | .file a, .file b => decidable_of_iff (a.data = b.data) (by cases a; cases b; simp)
  | .dir, .dir => .isTrue rfl
  | .file _, .dir => .isFalse nofun
  | .dir, .file _ => .isFalse nofun

/-- The files and directories, by path. -/
abbrev Disk := AList fun _ : PathBuf => Node

/-- The operations on a disk; `now` reads the system clock. -/
inductive FileOp where
  | createDirAll (path : PathBuf)
  | exists (path : PathBuf)
  | metadata (path : PathBuf)
  | createNew (path : PathBuf)
  | write (path : PathBuf)
  | sync (path : PathBuf)
  | open (path : PathBuf)
  | read (path : PathBuf)
  | copy (source target : PathBuf)
  | rename (source target : PathBuf)
  | remove (path : PathBuf)
  | readDir (path : PathBuf)
  | readEntry (path : PathBuf) (index : ℕ)
  | now
  deriving DecidableEq

namespace Disk

/-- The content of the file at a path. -/
def read (d : Disk) (p : PathBuf) : Option ByteArray :=
  match d.lookup p with
  | some (.file content) => some content
  | _ => none

/-- Make a directory where there is nothing. -/
def mkdir (d : Disk) (p : PathBuf) : Disk := if p ∈ d then d else d.insert p .dir

/-- The names directly in a directory. -/
def children (d : Disk) (p : PathBuf) : List String := d.keys.filterMap p.childName

end Disk

/-- A program of file operations. -/
abbrev FileProg (ε α : Type) := Prog FileOp IoError Disk ε α

namespace FileProg

variable {ε : Type}

/-- An operation that does nothing to the disk unless it works. -/
def step {α : Type} (o : FileOp) (run : ℕ → Disk → Except IoError α × Disk) : FileProg IoError α :=
  Prog.op o run fun _ d => d

/-- `fs::create_dir_all`. A file in the way is an error. -/
def createDirAll (p : PathBuf) : FileProg IoError Unit :=
  step (.createDirAll p) fun _ d =>
    if p.ancestors.any (fun q => (d.read q).isSome) then
      (.error ⟨.alreadyExists, "a file is in the way"⟩, d)
    else (.ok (), p.ancestors.foldl Disk.mkdir d)

/-- `Path::exists`: an error reads as `false`. -/
def pathExists (p : PathBuf) : FileProg ε Bool := do
  match ← (step (.exists p) fun _ d => (.ok (decide (p ∈ d)), d)).attempt with
  | .ok found => return found
  | .error _ => return false

/-- `fs::metadata(..).len()`. -/
def metadataLen (p : PathBuf) : FileProg IoError ℕ :=
  step (.metadata p) fun _ d =>
    match d.lookup p with
    | some (.file content) => (.ok content.size, d)
    | some .dir => (.ok 0, d)
    | none => (.error ⟨.notFound, "entity not found"⟩, d)

/-- `OpenOptions::new().write(true).create_new(true).open(..)`. -/
def createNew (p : PathBuf) : FileProg IoError Unit :=
  step (.createNew p) fun _ d =>
    if p ∈ d then (.error ⟨.alreadyExists, "entity already exists"⟩, d)
    else (.ok (), d.insert p (.file .empty))

/-- `write_all` to the file just created at `p`. What is not completed
has written some first part. -/
def writeAll (p : PathBuf) (content : ByteArray) : FileProg IoError Unit :=
  Prog.op (.write p) (fun _ d => (.ok (), d.insert p (.file content)))
    fun done d => d.insert p (.file (content.extract 0 done))

/-- `sync_all`. -/
def syncAll (p : PathBuf) : FileProg IoError Unit :=
  step (.sync p) fun _ d => (.ok (), d)

/-- `File::open`; a directory cannot be opened as a file. -/
def openFile (p : PathBuf) : FileProg IoError Unit :=
  step (.open p) fun _ d =>
    match d.lookup p with
    | some (.file _) => (.ok (), d)
    | some .dir => (.error ⟨.permissionDenied, "permission denied"⟩, d)
    | none => (.error ⟨.notFound, "entity not found"⟩, d)

/-- `take(limit)` of the open file, as text. -/
def readToString (p : PathBuf) (limit : ℕ) : FileProg IoError String :=
  step (.read p) fun _ d =>
    match d.read p with
    | none => (.error ⟨.other, "file is gone"⟩, d)
    | some content =>
      match String.fromUTF8? (content.extract 0 limit) with
      | some text => (.ok text, d)
      | none => (.error ⟨.invalidData, "stream did not contain valid UTF-8"⟩, d)

/-- `io::copy` from the open file `p` to the file just created at `q`. -/
def copy (p q : PathBuf) : FileProg IoError Unit :=
  Prog.op (.copy p q)
    (fun _ d =>
      match d.read p with
      | some content => (.ok (), d.insert q (.file content))
      | none => (.error ⟨.other, "source is gone"⟩, d))
    fun done d =>
      match d.read p with
      | some content => d.insert q (.file (content.extract 0 done))
      | none => d

/-- `fs::rename`: the target is replaced in one step. -/
def rename (p q : PathBuf) : FileProg IoError Unit :=
  step (.rename p q) fun _ d =>
    match d.lookup p with
    | none => (.error ⟨.notFound, "entity not found"⟩, d)
    | some node =>
      if d.lookup q = some .dir then (.error ⟨.isADirectory, "is a directory"⟩, d)
      else (.ok (), (d.erase p).insert q node)

/-- `fs::remove_file`. -/
def removeFile (p : PathBuf) : FileProg IoError Unit :=
  step (.remove p) fun _ d =>
    match d.lookup p with
    | none => (.error ⟨.notFound, "entity not found"⟩, d)
    | some .dir => (.error ⟨.isADirectory, "is a directory"⟩, d)
    | some (.file _) => (.ok (), d.erase p)

/-- `fs::read_dir`: the names in the directory, in some order. -/
def readDir (p : PathBuf) : FileProg IoError (List String) :=
  step (.readDir p) fun reading d =>
    if d.lookup p = some .dir then (.ok (arrange reading (d.children p)), d)
    else (.error ⟨.notFound, "entity not found"⟩, d)

/-- The next entry of a directory being read. -/
def readEntry (p : PathBuf) (index : ℕ) : FileProg IoError Unit :=
  step (.readEntry p index) fun _ d => (.ok (), d)

/-- `SystemTime::now()`, in milliseconds since the epoch. -/
def now : FileProg IoError ℕ :=
  step .now fun reading d => (.ok reading, d)

end FileProg

/-- The surroundings let every operation through. -/
def Works (fenv : Verdicts FileOp IoError) : Prop := ∀ n op, ∃ reading, fenv n op = .ok reading

/-- Every file operation works. -/
def working : Verdicts FileOp IoError := fun _ _ => .ok 0

theorem works_working : Works working := fun _ _ => ⟨0, rfl⟩

/-! ## What an operation can change -/

namespace Disk

variable {d : Disk} {p q : PathBuf}

theorem read_eq (h : d.lookup p = some (.file c)) : d.read p = some c := by
  simp [read, h]

theorem read_eq_some : d.read p = some c ↔ d.lookup p = some (.file c) := by
  refine ⟨fun h => ?_, read_eq⟩
  unfold read at h
  split at h
  · rename_i hlook
    rw [hlook, Option.some.inj h]
  · simp at h

theorem mem_children {name : String} : name ∈ d.children p ↔ p.join (.ofName name) ∈ d := by
  rw [children, List.mem_filterMap]
  constructor
  · rintro ⟨q, hq, hname⟩
    rw [← PathBuf.childName_eq_some.1 hname]
    exact AList.mem_keys.1 hq
  · intro hmem
    exact ⟨_, AList.mem_keys.2 hmem, PathBuf.childName_eq_some.2 rfl⟩

theorem nodup_children : (d.children p).Nodup := by
  refine d.keys_nodup.filterMap fun q q' name hq hq' => ?_
  rw [PathBuf.childName_eq_some.1 hq, PathBuf.childName_eq_some.1 hq']

/-- Making directories leaves alone what is there already. -/
theorem lookup_mkdirs {ps : List PathBuf} (h : q ∈ d ∨ q ∉ ps) :
    (ps.foldl mkdir d).lookup q = d.lookup q := by
  induction ps generalizing d with
  | nil => rfl
  | cons p ps ih =>
      have hstep : (d.mkdir p).lookup q = d.lookup q := by
        unfold mkdir
        split
        · rfl
        · rename_i hp
          refine AList.lookup_insert_ne ?_
          rintro rfl
          rcases h with h | h
          · exact hp h
          · exact h (by simp)
      rw [List.foldl_cons, ih, hstep]
      rcases h with h | h
      · refine .inl ?_
        rw [← AList.lookup_isSome] at h ⊢
        rwa [hstep]
      · exact .inr fun hq => h (by simp [hq])

/-- Making directories makes them, and removes nothing. -/
theorem mem_mkdirs {ps : List PathBuf} (h : q ∈ d ∨ q ∈ ps) : q ∈ ps.foldl mkdir d := by
  have hmkdir (d : Disk) (p : PathBuf) : p ∈ d.mkdir p ∧ (q ∈ d → q ∈ d.mkdir p) := by
    unfold mkdir
    split
    · rename_i hp
      exact ⟨hp, fun hq => hq⟩
    · exact ⟨by simp, fun hq => by simp [hq]⟩
  induction ps generalizing d with
  | nil => exact h.resolve_right (by simp)
  | cons p ps ih =>
      refine ih ?_
      rcases h with hq | hq
      · exact .inl ((hmkdir d p).2 hq)
      · rcases List.mem_cons.1 hq with rfl | hq
        · exact .inl (hmkdir d q).1
        · exact .inr hq

end Disk

namespace FileProg

variable {ε : Type} {env : Verdicts FileOp IoError} {I : Disk → Prop} {p q : PathBuf}

/-- The rule for an operation that only looks. -/
theorem keeps_step {α : Type} {o : FileOp} {run : ℕ → Disk → Except IoError α × Disk}
    (h : ∀ r d, (run r d).2 = d) : (step o run).Keeps env I :=
  Prog.Keeps.op (fun r d hd => by rwa [h]) fun _ _ hd => hd

theorem keeps_pathExists : (pathExists p : FileProg ε Bool).Keeps env I := by
  refine Prog.Keeps.bind (Prog.Keeps.attempt (keeps_step fun _ _ => rfl)) fun r => ?_
  cases r <;> exact Prog.Keeps.pure

/-- **What the query tells.** A `false` may stand for an error. -/
theorem pathExists_triple :
    (pathExists p : FileProg ε Bool).Triple env I
      (fun found d => I d ∧ (found = true → p ∈ d) ∧
        (found = false → p ∉ d ∨ ∃ k error done, env k (.exists p) = .fail error done)) I I := by
  intro n d hd
  simp only [pathExists, Prog.bind_apply, Prog.attempt, step, Prog.op]
  cases hv : env n (.exists p) with
  | ok reading =>
      exact ⟨hd, fun h => of_decide_eq_true h, fun h => .inl (of_decide_eq_false h)⟩
  | fail error done => exact ⟨hd, by simp, fun _ => .inr ⟨n, error, done, hv⟩⟩
  | crash done => exact hd

theorem keeps_metadataLen : (metadataLen p).Keeps env I := by
  refine keeps_step fun _ d => ?_
  split <;> rfl

theorem keeps_syncAll : (syncAll p).Keeps env I := keeps_step fun _ _ => rfl

theorem keeps_openFile : (openFile p).Keeps env I := by
  refine keeps_step fun _ d => ?_
  split <;> rfl

theorem keeps_readDir : (readDir p).Keeps env I := by
  refine keeps_step fun _ d => ?_
  split <;> rfl

theorem keeps_readEntry {k : ℕ} : (readEntry p k).Keeps env I := keeps_step fun _ _ => rfl

theorem keeps_now : now.Keeps env I := keeps_step fun _ _ => rfl

section Lookup

variable {node : Option Node}

theorem keeps_createDirAll (h : node.isSome ∨ q ∉ p.ancestors) :
    (createDirAll p).Keeps env fun d => d.lookup q = node := by
  refine Prog.Keeps.op (fun _ d hd => ?_) fun _ _ hd => hd
  split
  · exact hd
  · rw [Disk.lookup_mkdirs ?_, hd]
    rcases h with h | h
    · exact .inl (by rwa [← AList.lookup_isSome, hd])
    · exact .inr h

theorem keeps_createNew (h : q ≠ p) : (createNew p).Keeps env fun d => d.lookup q = node := by
  refine Prog.Keeps.op (fun _ d hd => ?_) fun _ _ hd => hd
  split
  · exact hd
  · rw [AList.lookup_insert_ne h, hd]

theorem keeps_copy {source : PathBuf} (h : q ≠ p) :
    (copy source p).Keeps env fun d => d.lookup q = node := by
  refine Prog.Keeps.op (fun _ d hd => ?_) fun _ d hd => ?_
  · split
    · rw [AList.lookup_insert_ne h, hd]
    · exact hd
  · split
    · rw [AList.lookup_insert_ne h, hd]
    · exact hd

theorem keeps_rename {source : PathBuf} (hs : q ≠ source) (h : q ≠ p) :
    (rename source p).Keeps env fun d => d.lookup q = node := by
  refine Prog.Keeps.op (fun _ d hd => ?_) fun _ _ hd => hd
  split
  · exact hd
  · split
    · exact hd
    · rw [AList.lookup_insert_ne h, AList.lookup_erase_ne hs, hd]

theorem keeps_removeFile (h : q ≠ p) : (removeFile p).Keeps env fun d => d.lookup q = node := by
  refine Prog.Keeps.op (fun _ d hd => ?_) fun _ _ hd => hd
  split
  · exact hd
  · exact hd
  · rw [AList.lookup_erase_ne h, hd]

theorem keeps_writeAll {c : ByteArray} (h : q ≠ p) :
    (writeAll p c).Keeps env fun d => d.lookup q = node := by
  refine Prog.Keeps.op (fun _ d hd => ?_) fun _ d hd => ?_
  · rw [AList.lookup_insert_ne h, hd]
  · rw [AList.lookup_insert_ne h, hd]

end Lookup

/-- **The frame rule.** A program that leaves every path alone but the
touched ones keeps whatever does not depend on these. -/
theorem keeps_of_frame {α : Type} {x : FileProg ε α} (touched : PathBuf → Prop)
    (h : ∀ q, ¬ touched q → ∀ node, x.Keeps env fun d => d.lookup q = node)
    (hI : ∀ d d' : Disk, (∀ q, ¬ touched q → d'.lookup q = d.lookup q) → I d → I d') :
    x.Keeps env I := by
  refine Prog.Keeps.of_holds fun n d hd => hI d _ (fun q hq => ?_) hd
  exact Prog.Triple.holds (h q hq (d.lookup q)) rfl

theorem keeps_mem {α : Type} {x : FileProg ε α}
    (h : ∀ node, x.Keeps env fun d => d.lookup q = node) : x.Keeps env fun d => q ∈ d := by
  refine Prog.Keeps.of_holds fun n d hd => ?_
  have hsame := Prog.Triple.holds (h (d.lookup q)) (n := n) rfl
  rw [← AList.lookup_isSome] at hd ⊢
  rwa [hsame]

theorem keeps_notMem {α : Type} {x : FileProg ε α}
    (h : ∀ node, x.Keeps env fun d => d.lookup q = node) : x.Keeps env fun d => q ∉ d := by
  refine Prog.Keeps.of_holds fun n d hd => ?_
  rw [← AList.lookup_eq_none] at hd ⊢
  exact Prog.Triple.holds (h none) hd

/-! ## Operations that work -/

section Works

variable {X C : Disk → Prop} (henv : Works env)

include henv

/-- A query that is answered. -/
theorem pathExists_works :
    (pathExists p : FileProg ε Bool).Triple env I (fun found d => I d ∧ (found = true ↔ p ∈ d)) X C := by
  intro n d hd
  obtain ⟨reading, hreading⟩ := henv n (.exists p)
  simp only [pathExists, Prog.bind_apply, Prog.attempt, step, Prog.op, hreading]
  exact ⟨hd, decide_eq_true_iff⟩

end Works

end FileProg

end TunnelWarden
