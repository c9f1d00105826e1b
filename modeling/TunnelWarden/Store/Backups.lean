import Mathlib.Data.String.Basic
import TunnelWarden.Common.Greatest
import TunnelWarden.Common.Run
import TunnelWarden.Store.Crash

/-!
# Which backups are kept

`prune_backups` keeps the five backups whose names come last
(`pruneBackups_greatest`), and a name is made of what the clock showed
and of a suffix that is used again once it is free. So the copy a save
has just made is among those that go where five of the others are named
after it: the clock went back, or one millisecond had all its suffixes.
-/

namespace TunnelWarden

namespace ConfigStore

open FileProg Prog

variable {env : Verdicts FileOp IoError} {directory : PathBuf} {d d₀ d₁ : Disk}

/-! ## The property and the condition -/

/-- The backups on a disk. -/
def backupNames (directory : PathBuf) (d : Disk) : List String :=
  (d.children (backupsPath directory)).filter isBackupName

/-- A save that replaced a configuration left at most five backups, and
one of them is that configuration. -/
def KeepsReplaced (directory : PathBuf) (before after : Disk) : Prop :=
  ∀ node, before.lookup (configPath directory) = some node →
    (backupNames directory after).length ≤ maxBackups ∧
    ∃ name ∈ backupNames directory after, after.lookup (backupPath directory name) = some node

/-- The first name a copy can take. -/
def freeName (directory : PathBuf) (stamp : ℕ) (d : Disk) : Option String :=
  ((List.range 10).map (backupName stamp)).find? fun name =>
    backupPath directory name ∉ d ∧ backupPath directory (name ++ ".tmp") ∉ d

/-- The copy takes a name that fewer than five backups come after, or
the same content is in a backup that stays. -/
def Outlasts (directory : PathBuf) (stamp : ℕ) (d : Disk) : Prop :=
  configPath directory ∈ d → ∀ fresh, freeName directory stamp d = some fresh →
    (backupNames directory d).countP (fresh < ·) < maxBackups ∨
    ∃ name ∈ backupNames directory d,
      d.lookup (backupPath directory name) = d.lookup (configPath directory) ∧
      (fresh :: backupNames directory d).countP (name < ·) < maxBackups

/-- What is asked of the disk is answered: a query does not fail, and a
file that cannot be created because it exists does exist. -/
structure Answered (env : Verdicts FileOp IoError) : Prop where
  queried : ∀ k p error done, env k (.exists p) ≠ .fail error done
  created : ∀ k p error done, env k (.createNew p) = .fail error done → error.kind ≠ .alreadyExists

/-- A call of `save`: what is saved, what the clock shows (0 where it is
before the epoch), and what the surroundings make of everything else. -/
structure SaveCall where
  home : Option PathBuf
  codec : Codec
  document : ConfigDocument
  clock : ℕ
  faults : Verdicts FileOp IoError

def SaveCall.verdicts (call : SaveCall) : Verdicts FileOp IoError := fun k op =>
  if op = .now then .ok call.clock else call.faults k op

/-- One call on the directory. -/
def SaveCall.run (directory : PathBuf) (d : Disk) (call : SaveCall) :
    Exit ConfigStoreError Unit × Disk :=
  let (result, (_, after)) :=
    save call.home call.codec directory call.document call.verdicts (0, d)
  (result, after)

/-! ## Names -/

theorem isBackupName_backupName (stamp suffix : ℕ) : isBackupName (backupName stamp suffix) = true := by
  have hprefix : "config-".toList <+: (backupName stamp suffix).toList := by
    simp only [backupName, String.toList_append, List.append_assoc]
    exact List.prefix_append _ _
  have hsuffix : ".toml".toList <:+ (backupName stamp suffix).toList := by
    simp only [backupName, String.toList_append]
    exact List.suffix_append _ _
  rw [isBackupName, List.isPrefixOf_iff_prefix.2 hprefix, List.isSuffixOf_iff_suffix.2 hsuffix]
  rfl

/-- A backup is not staged under its own name. -/
theorem name_ne_staged {name : String} : name ≠ name ++ ".tmp" := by
  intro heq
  have hlength := congrArg String.length heq
  simp at hlength

/-- What is not above the backups is not their directory. -/
theorem ne_backupsPath {q : PathBuf} (h : q ∉ (backupsPath directory).ancestors) :
    backupsPath directory ≠ q := by
  rintro rfl
  exact h PathBuf.join_ofName_mem_ancestors

theorem mem_backupNames {name : String} :
    name ∈ backupNames directory d ↔ isBackupName name = true ∧ backupPath directory name ∈ d := by
  rw [backupNames, List.mem_filter, Disk.mem_children, and_comm]
  rfl

theorem nodup_backupNames : (backupNames directory d).Nodup := Disk.nodup_children.filter _

theorem freeName_spec {stamp : ℕ} {fresh : String} (h : freeName directory stamp d = some fresh) :
    isBackupName fresh = true ∧ backupPath directory fresh ∉ d := by
  obtain ⟨suffix, -, rfl⟩ := List.mem_map.1 (List.mem_of_find?_eq_some h)
  have hfree := List.find?_some h
  rw [decide_eq_true_eq] at hfree
  exact ⟨isBackupName_backupName stamp suffix, hfree.1⟩

/-! ## The copy -/

/-- The configuration is in place, and of the files in `backups/` only
those named here may be different. -/
structure SameBut (directory : PathBuf) (changed : String → Prop) (d₀ d : Disk) : Prop where
  config : d.lookup (configPath directory) = d₀.lookup (configPath directory)
  backups : ∀ name, ¬ changed name →
    d.lookup (backupPath directory name) = d₀.lookup (backupPath directory name)

variable {changed : String → Prop}

theorem SameBut.refl : SameBut directory (fun _ => False) d d := ⟨rfl, fun _ _ => rfl⟩

theorem SameBut.mem_iff {name : String} (h : SameBut directory changed d₀ d)
    (hname : ¬ changed name) : backupPath directory name ∈ d ↔ backupPath directory name ∈ d₀ := by
  rw [← AList.lookup_isSome, ← AList.lookup_isSome, h.backups name hname]

theorem SameBut.frame {d' : Disk} (h : SameBut directory changed d₀ d)
    (hconfig : d'.lookup (configPath directory) = d.lookup (configPath directory))
    (hsame : ∀ name, ¬ changed name →
      d'.lookup (backupPath directory name) = d.lookup (backupPath directory name)) :
    SameBut directory changed d₀ d' :=
  ⟨hconfig.trans h.config, fun name hname => (hsame name hname).trans (h.backups name hname)⟩

/-- A file is created in `backups/`. -/
theorem SameBut.stage {name : String} {node : Node}
    (h : SameBut directory (fun _ => False) d₀ d) :
    SameBut directory (· = name) d₀ (d.insert (backupPath directory name) node) := by
  refine ⟨?_, fun other hother => ?_⟩
  · rw [AList.lookup_insert_ne configPath_ne_backupPath, h.config]
  · rw [AList.lookup_insert_ne fun heq => hother (backupPath_inj.1 heq)]
    exact h.backups other id

/-- A program that touches neither the configuration nor another
backup. -/
theorem keeps_sameBut {ε α : Type} {x : FileProg ε α} (touched : PathBuf → Prop)
    (h : ∀ q, ¬ touched q → ∀ node, x.Keeps env fun d => d.lookup q = node)
    (hconfig : ¬ touched (configPath directory))
    (hbackup : ∀ name, ¬ changed name → ¬ touched (backupPath directory name)) :
    x.Keeps env (SameBut directory changed d₀) :=
  keeps_of_frame touched h fun _ _ hsame hd =>
    hd.frame (hsame _ hconfig) fun name hname => hsame _ (hbackup name hname)

/-- A copy of the configuration is in the backups, and nothing else is
new there but what it was staged in. -/
structure Copied (directory : PathBuf) (fresh : String) (d₀ d : Disk) : Prop
    extends SameBut directory (fun name => name = fresh ∨ name = fresh ++ ".tmp") d₀ d where
  copied : d.lookup (backupPath directory fresh) = d₀.lookup (configPath directory)

/-- **Creating a file**, where the answer can be relied on. -/
theorem createNew_answered {ε : Type} {I : Disk → Prop} {p : PathBuf} (h : Answered env) :
    ((createNew p).attempt : FileProg ε (Except IoError Unit)).Triple env I
      (fun made d => (∀ u, made = .ok u →
          ∃ d', I d' ∧ p ∉ d' ∧ d = d'.insert p (.file .empty)) ∧
        ∀ e, made = .error e → I d ∧ (e.kind = .alreadyExists → p ∈ d)) (fun _ => True)
      fun _ => True := by
  intro n d hd
  simp only [Prog.attempt, createNew, step, Prog.op]
  cases hv : env n (.createNew p) with
  | ok reading =>
      by_cases hmem : p ∈ d
      · simp only [hmem, if_true]
        exact ⟨fun _ hmade => (by cases hmade), fun e he => ⟨hd, fun _ => hmem⟩⟩
      · simp only [hmem, if_false]
        exact ⟨fun _ _ => ⟨d, hd, hmem, rfl⟩, fun _ hfailed => (by cases hfailed)⟩
  | fail error done =>
      refine ⟨fun _ hmade => (by cases hmade), fun e he => ⟨hd, fun hkind => ?_⟩⟩
      obtain rfl := Except.error.inj he
      exact absurd hkind (h.created n p error done hv)
  | crash done => trivial

theorem pathExists_answered {ε : Type} {I : Disk → Prop} {p : PathBuf} (h : Answered env) :
    (pathExists p : FileProg ε Bool).Triple env I
      (fun found d => I d ∧ (found = true ↔ p ∈ d)) (fun _ => True) fun _ => True := by
  refine pathExists_triple.mono (fun _ hd => hd) (fun found d hd => ⟨hd.1, hd.2.1, fun hmem => ?_⟩)
    (fun _ _ => trivial) fun _ _ => trivial
  by_contra hfound
  rcases hd.2.2 (by simpa using hfound) with hnot | ⟨k, error, done, hfail⟩
  · exact hnot hmem
  · exact h.queried k p error done hfail

/-- The copy, from the file it is staged in to the backup. -/
theorem copied_copies {name : String} :
    (Prog.guarded (removeFile (backupPath directory (name ++ ".tmp"))) do
      ioAt (backupPath directory (name ++ ".tmp"))
        (copy (configPath directory) (backupPath directory (name ++ ".tmp")))
      ioAt (backupPath directory (name ++ ".tmp")) (syncAll (backupPath directory (name ++ ".tmp")))
      ioAt (backupPath directory name)
        (rename (backupPath directory (name ++ ".tmp")) (backupPath directory name))).Triple env
      (SameBut directory (· = name ++ ".tmp") d₀) (fun _ => Copied directory name d₀)
      (fun _ => True) fun _ => True := by
  -- removing the staging file is nobody's loss
  have hclean : (removeFile (backupPath directory (name ++ ".tmp"))).Keeps env
      (Copied directory name d₀) := by
    refine keeps_of_frame (· = backupPath directory (name ++ ".tmp"))
      (fun _ hq _ => keeps_removeFile hq) fun d d' hsame hd => ⟨hd.toSameBut.frame ?_ ?_, ?_⟩
    · exact hsame _ configPath_ne_backupPath
    · intro other hother
      exact hsame _ fun heq => hother (.inr (backupPath_inj.1 heq))
    · rw [hsame _ fun heq => name_ne_staged (backupPath_inj.1 heq)]
      exact hd.copied
  refine Triple.guarded ?_ (fun _ => hclean.triple (fun _ hd => hd) fun _ _ => trivial)
    ((Triple.const True).mono (fun _ _ => trivial) (fun _ _ hd => hd) (fun _ hd => hd) fun _ hd => hd)
  refine Triple.bind (V := fun _ d => SameBut directory (· = name ++ ".tmp") d₀ d ∧
    d.lookup (backupPath directory (name ++ ".tmp")) = d₀.lookup (configPath directory))
    (Triple.mapError (Triple.op (fun _ d _ t hd hrun => ?_) (fun _ _ _ _ _ _ => trivial)
      (fun _ _ _ => trivial) fun _ _ _ => trivial)) fun _ => ?_
  · split at hrun
    · rename_i content hread
      obtain ⟨-, rfl⟩ := Prod.mk.inj hrun
      refine ⟨hd.frame ?_ fun other hother => ?_, ?_⟩
      · exact AList.lookup_insert_ne configPath_ne_backupPath
      · exact AList.lookup_insert_ne fun heq => hother (backupPath_inj.1 heq)
      · rw [AList.lookup_insert, ← hd.config]
        exact (Disk.read_eq_some.1 hread).symm
    · simp at hrun
  refine Triple.bind (Keeps.mapError keeps_syncAll).value fun _ => ?_
  refine Triple.mapError (Triple.op (fun _ d _ t hd hrun => ?_) (fun _ _ _ _ _ _ => trivial)
    (fun _ _ _ => trivial) fun _ _ _ => trivial)
  rcases hcopy : d.lookup (backupPath directory (name ++ ".tmp")) with _ | node
  · simp [hcopy] at hrun
  rw [hcopy] at hrun
  dsimp only at hrun
  split at hrun
  · simp at hrun
  obtain ⟨-, rfl⟩ := Prod.mk.inj hrun
  refine ⟨⟨?_, fun other hother => ?_⟩, ?_⟩
  · rw [AList.lookup_insert_ne configPath_ne_backupPath,
      AList.lookup_erase_ne configPath_ne_backupPath, hd.1.config]
  · rw [not_or] at hother
    rw [AList.lookup_insert_ne fun heq => hother.1 (backupPath_inj.1 heq),
      AList.lookup_erase_ne fun heq => hother.2 (backupPath_inj.1 heq)]
    exact hd.1.backups other hother.2
  · rw [AList.lookup_insert, ← hd.2, hcopy]

/-- The directory of the backups is made. -/
theorem createDirAll_makes :
    (createDirAll (backupsPath directory)).Triple env (SameBut directory (fun _ => False) d₀)
      (fun _ d => SameBut directory (fun _ => False) d₀ d ∧ backupsPath directory ∈ d)
      (fun _ => True) fun _ => True := by
  have hsame : (createDirAll (backupsPath directory)).Keeps env
      (SameBut directory (fun _ => False) d₀) :=
    keeps_sameBut (· ∈ (backupsPath directory).ancestors)
      (fun _ hq _ => keeps_createDirAll (.inr hq)) elsewhere_configPath.1
      fun _ _ hmem => backupPath_notMem_ancestors hmem
  have hmade : (createDirAll (backupsPath directory)).Triple env (fun _ => True)
      (fun _ d => backupsPath directory ∈ d) (fun _ => True) fun _ => True := by
    refine Triple.op (fun _ d _ t _ hrun => ?_) (fun _ _ _ _ _ _ => trivial)
      (fun _ _ _ => trivial) fun _ _ _ => trivial
    split at hrun
    · simp at hrun
    · obtain ⟨-, rfl⟩ := Prod.mk.inj hrun
      exact Disk.mem_mkdirs (.inr PathBuf.join_ofName_mem_ancestors)
  exact (Triple.and_value hmade hsame).consequence (fun _ hd => ⟨trivial, hd⟩)
    fun _ _ hd => ⟨hd.2, hd.1⟩

/-- A backup leaves its directory in place. -/
theorem backupKeeps_mem : BackupKeeps env directory (configPath directory)
    fun d => backupsPath directory ∈ d where
  createDirAll := by
    refine Keeps.op (fun _ d hd => ?_) fun _ _ hd => hd
    split
    · exact hd
    · exact Disk.mem_mkdirs (.inl hd)
  createNew name := keeps_mem fun _ => keeps_createNew (ne_backupsPath backupPath_notMem_ancestors)
  copy name := keeps_mem fun _ => keeps_copy (ne_backupsPath backupPath_notMem_ancestors)
  rename staged name :=
    keeps_mem fun _ => keeps_rename (ne_backupsPath backupPath_notMem_ancestors)
      (ne_backupsPath backupPath_notMem_ancestors)
  removeFile name := keeps_mem fun _ => keeps_removeFile (ne_backupsPath backupPath_notMem_ancestors)

/-- What a save leaves for the pruning: the configuration it replaced is
in the backups. -/
structure Backed (directory : PathBuf) (fresh : String) (d₀ d : Disk) : Prop where
  copied : d.lookup (backupPath directory fresh) = d₀.lookup (configPath directory)
  others : ∀ name, name ≠ fresh → name ≠ fresh ++ ".tmp" →
    d.lookup (backupPath directory name) = d₀.lookup (backupPath directory name)
  made : backupsPath directory ∈ d

/-- The temporary file and the configuration are no part of it. -/
theorem keeps_exists_backed {ε α : Type} {x : FileProg ε α} {p : String → Prop}
    (h : ∀ q, q ≠ tempPath directory ∧ q ≠ configPath directory →
      ∀ node, x.Keeps env fun d => d.lookup q = node) :
    x.Keeps env fun d => ∃ fresh, p fresh ∧ Backed directory fresh d₀ d := by
  refine keeps_of_frame (fun q => ¬ (q ≠ tempPath directory ∧ q ≠ configPath directory))
    (fun q hq => h q (not_not.1 hq)) fun d d' hsame hd => ?_
  have hbackup (name : String) :
      d'.lookup (backupPath directory name) = d.lookup (backupPath directory name) :=
    hsame _ (not_not.2 ⟨tempPath_ne_backupPath.symm, configPath_ne_backupPath.symm⟩)
  have hbackups : d'.lookup (backupsPath directory) = d.lookup (backupsPath directory) := by
    exact hsame _ (not_not.2 ⟨ne_backupsPath elsewhere_tempPath.1, ne_backupsPath elsewhere_configPath.1⟩)
  obtain ⟨fresh, hfresh, hbacked⟩ := hd
  refine ⟨fresh, hfresh, (hbackup fresh).trans hbacked.copied, fun name hname hstaged => ?_, ?_⟩
  · exact (hbackup name).trans (hbacked.others name hname hstaged)
  · rw [← AList.lookup_isSome, hbackups, AList.lookup_isSome]
    exact hbacked.made

section Save

variable (h : Answered env)

include h

/-- **The loop takes the first free name.** -/
theorem backupLoop_takes (stamp : ℕ) (suffixes : List ℕ) :
    (backupLoop directory (configPath directory) stamp suffixes).Triple env
      (SameBut directory (fun _ => False) d₀)
      (fun _ d => ∃ fresh, ((suffixes.map (backupName stamp)).find? fun name =>
          backupPath directory name ∉ d₀ ∧ backupPath directory (name ++ ".tmp") ∉ d₀) = some fresh ∧
        Copied directory fresh d₀ d) (fun _ => True) fun _ => True := by
  induction suffixes with
  | nil => exact Triple.throw fun _ _ => trivial
  | cons suffix rest ih =>
      -- what is passed over is not free
      have hpass (htaken : ¬ (backupPath directory (backupName stamp suffix) ∉ d₀ ∧
          backupPath directory (backupName stamp suffix ++ ".tmp") ∉ d₀)) :
          (backupLoop directory (configPath directory) stamp rest).Triple env
            (SameBut directory (fun _ => False) d₀)
            (fun _ d => ∃ fresh, (((suffix :: rest).map (backupName stamp)).find? fun name =>
                backupPath directory name ∉ d₀ ∧
                  backupPath directory (name ++ ".tmp") ∉ d₀) = some fresh ∧
              Copied directory fresh d₀ d) (fun _ => True) fun _ => True := by
        rw [List.map_cons, List.find?_cons_of_neg (by simpa using htaken)]
        exact ih
      refine Triple.bind (pathExists_answered h) fun found => ?_
      cases found with
      | true =>
          intro n d hd
          have hmem := (hd.1.mem_iff id).1 (hd.2.1 rfl)
          exact hpass (fun hfree => hfree.1 hmem) n d hd.1
      | false =>
          refine Triple.mono (P := fun d => SameBut directory (fun _ => False) d₀ d ∧
            backupPath directory (backupName stamp suffix) ∉ d₀) (Triple.of_and fun hname => ?_)
            (fun d hd => ⟨hd.1, fun hmem => by simpa using hd.2.2 ((hd.1.mem_iff id).2 hmem)⟩)
            (fun _ _ hd => hd) (fun _ hd => hd) fun _ hd => hd
          refine Triple.bind (Keeps.mapError keeps_openFile).value fun _ => ?_
          refine Triple.bind (createNew_answered h) fun made => ?_
          cases made with
          | error e =>
              dsimp only
              split
              · rename_i hkind
                intro n d hd
                obtain ⟨hsame, hexists⟩ := hd.2 e rfl
                have hmem := (hsame.mem_iff id).1 (hexists hkind)
                exact hpass (fun hfree => hfree.2 hmem) n d hsame
              · exact Triple.throw fun _ _ => trivial
          | ok u =>
              -- the name and its staging file are free, so this is the one
              refine Triple.pre (P := fun d => SameBut directory
                (· = backupName stamp suffix ++ ".tmp") d₀ d ∧
                backupPath directory (backupName stamp suffix ++ ".tmp") ∉ d₀)
                (Triple.of_and fun hstaged => ?_) fun d hd => ?_
              · refine copied_copies.consequence (fun _ hd => hd) fun _ d hd => ⟨_, ?_, hd⟩
                rw [List.map_cons, List.find?_cons_of_pos (by simp [hname, hstaged])]
              · obtain ⟨d', hsame, hnot, rfl⟩ := hd.1 u rfl
                exact ⟨hsame.stage, fun hmem => hnot ((hsame.mem_iff id).2 hmem)⟩

/-- **The backup** takes the first free name, at the time the clock
shows. -/
theorem backupCurrent_takes {stamp : ℕ} (hclock : ∀ k, env k .now = .ok stamp) :
    (backupCurrent directory (configPath directory)).Triple env
      (SameBut directory (fun _ => False) d₀)
      (fun _ d => (∃ fresh, freeName directory stamp d₀ = some fresh ∧
        Copied directory fresh d₀ d) ∧ backupsPath directory ∈ d) (fun _ => True) fun _ => True := by
  refine Triple.bind (Keeps.mapError keeps_metadataLen).value fun size => ?_
  split
  · exact Triple.throw fun _ _ => trivial
  refine Triple.bind (V := fun _ d => SameBut directory (fun _ => False) d₀ d ∧
    backupsPath directory ∈ d) (Triple.mapError createDirAll_makes) fun _ => ?_
  refine Triple.bind (V := fun r d => (SameBut directory (fun _ => False) d₀ d ∧
    backupsPath directory ∈ d) ∧ r = .ok stamp) ?_ fun r => Triple.of_and ?_
  · intro n d hd
    simp only [Prog.attempt, now, step, Prog.op, hclock n]
    exact ⟨hd, rfl⟩
  rintro rfl
  exact Triple.and_value (backupLoop_takes h stamp (List.range 10))
    (backupKeeps_mem.backupLoop stamp (List.range 10))

/-- **What is replaced is in the backups.** -/
theorem replaceFile_backs {stamp : ℕ} (hclock : ∀ k, env k .now = .ok stamp)
    (hconfig : configPath directory ∈ d₀) (text : String) :
    (replaceFile directory text).Triple env (SameBut directory (fun _ => False) d₀)
      (fun _ d => ∃ fresh, freeName directory stamp d₀ = some fresh ∧ Backed directory fresh d₀ d)
      (fun _ => True) fun _ => True := by
  have hold {ε α : Type} {x : FileProg ε α}
      (hx : ∀ q, q ≠ tempPath directory → ∀ node, x.Keeps env fun d => d.lookup q = node) :
      x.Keeps env (SameBut directory (fun _ => False) d₀) :=
    keeps_sameBut (· = tempPath directory) hx configPath_ne_tempPath
      fun _ _ heq => tempPath_ne_backupPath heq.symm
  have hdir : (createDirAll directory).Keeps env (SameBut directory (fun _ => False) d₀) := by
    refine keeps_sameBut (· ∈ directory.ancestors) (fun _ hq _ => keeps_createDirAll (.inr hq))
      (fun hmem => ?_) fun _ _ hmem => ?_
    · exact elsewhere_configPath.1 (PathBuf.ancestors_subset_join hmem)
    · exact backupPath_notMem_ancestors (PathBuf.ancestors_subset_join hmem)
  refine Triple.bind (Keeps.mapError hdir).value fun _ => ?_
  refine Triple.bind (Keeps.mapError (hold fun _ hq _ => keeps_createNew hq)).value fun _ => ?_
  refine Triple.guarded ?_ (fun _ => (keeps_exists_backed fun _ hq _ => keeps_removeFile hq.1).triple
    (fun _ hd => hd) fun _ _ => trivial)
    ((Triple.const True).mono (fun _ _ => trivial) (fun _ _ hd => hd) (fun _ hd => hd) fun _ hd => hd)
  refine Triple.bind (Keeps.mapError (Keeps.bind
    (hold fun _ hq _ => keeps_writeAll hq) fun _ => keeps_syncAll)).value fun _ => ?_
  refine Triple.bind (pathExists_answered h) fun found => ?_
  cases found with
  | true =>
      refine Triple.bind ((backupCurrent_takes h hclock).pre fun d hd => hd.1) fun _ => ?_
      refine (Keeps.value (Keeps.mapError (keeps_exists_backed fun _ hq _ =>
        keeps_rename hq.1 hq.2))).pre fun d hd => ?_
      obtain ⟨⟨fresh, hfresh, hcopied⟩, hmade⟩ := hd
      exact ⟨fresh, hfresh, hcopied.copied, fun name hname hstaged =>
        hcopied.backups name (not_or.2 ⟨hname, hstaged⟩), hmade⟩
  | false =>
      -- the configuration is there, and the query says so
      intro n d hd
      have hmem : configPath directory ∈ d := by
        rw [← AList.lookup_isSome, hd.1.config, AList.lookup_isSome]
        exact hconfig
      exact absurd (hd.2.2 hmem) (by simp)

end Save

/-! ## The pruning -/

/-- Of the backups of `d₁` those with these names are left. -/
structure Left (directory : PathBuf) (d₁ : Disk) (left : String → Prop) (d : Disk) : Prop where
  kept : ∀ name, isBackupName name = true → left name →
    d.lookup (backupPath directory name) = d₁.lookup (backupPath directory name)
  gone : ∀ name, isBackupName name = true → ¬ left name →
    d.lookup (backupPath directory name) = none

variable {left left' : String → Prop}

theorem Left.congr (h : Left directory d₁ left d)
    (hiff : ∀ name, isBackupName name = true → (left' name ↔ left name)) :
    Left directory d₁ left' d where
  kept name hname hleft := h.kept name hname ((hiff name hname).1 hleft)
  gone name hname hleft := h.gone name hname fun hmem => hleft ((hiff name hname).2 hmem)

/-- One more of them goes. -/
theorem Left.erase {oldest : String} (h : Left directory d₁ left d)
    (hiff : ∀ name, isBackupName name = true → (left' name ↔ left name ∧ name ≠ oldest)) :
    Left directory d₁ left' (d.erase (backupPath directory oldest)) where
  kept name hname hleft := by
    obtain ⟨hmem, hne⟩ := (hiff name hname).1 hleft
    rw [AList.lookup_erase_ne fun heq => hne (backupPath_inj.1 heq)]
    exact h.kept name hname hmem
  gone name hname hleft := by
    by_cases heq : name = oldest
    · rw [heq, AList.lookup_erase]
    · rw [AList.lookup_erase_ne fun hpath => heq (backupPath_inj.1 hpath)]
      exact h.gone name hname fun hmem => hleft ((hiff name hname).2 ⟨hmem, heq⟩)

theorem removeFile_left {oldest : String} (h : ∀ name, isBackupName name = true →
    (left' name ↔ left name ∧ name ≠ oldest)) :
    (removeFile (backupPath directory oldest)).Triple env (Left directory d₁ left)
      (fun _ => Left directory d₁ left') (fun _ => True) fun _ => True := by
  refine Triple.op (fun _ d _ t hd hrun => ?_) (fun _ _ _ _ _ _ => trivial)
    (fun _ _ _ => trivial) fun _ _ _ => trivial
  split at hrun
  · simp at hrun
  · simp at hrun
  · obtain ⟨-, rfl⟩ := Prod.mk.inj hrun
    exact hd.erase h

/-- **The loop keeps the greatest names**: of the names seen so far, and
of those that are still to come. -/
theorem pruneLoop_greatest (index : ℕ) (seen newest names : List String)
    (h : Greatest maxBackups seen newest)
    (hnodup : (seen ++ names.filter isBackupName).Nodup) :
    (pruneLoop (backupsPath directory) index newest names).Triple env
      (Left directory d₁ fun name => name ∈ newest ∨ name ∈ names)
      (fun _ d => ∃ kept, Greatest maxBackups (seen ++ names.filter isBackupName) kept ∧
        Left directory d₁ (· ∈ kept) d) (fun _ => True) fun _ => True := by
  induction names generalizing index seen newest with
  | nil =>
      refine Triple.pure fun d hd => ⟨newest, ?_, hd.congr fun name _ => by simp⟩
      rw [List.filter_nil, List.append_nil]
      exact h
  | cons name rest ih =>
      refine Triple.bind (Keeps.mapError keeps_readEntry).value fun _ => ?_
      dsimp only
      split
      · rename_i hname
        have hname : isBackupName name = false := by simpa using hname
        have hfilter : (name :: rest).filter isBackupName = rest.filter isBackupName :=
          List.filter_cons_of_neg (by simp [hname])
        rw [hfilter] at hnodup ⊢
        refine (ih _ seen newest h hnodup).pre fun d hd => hd.congr fun other hother => ?_
        have hne : other ≠ name := by
          rintro rfl
          simp [hname] at hother
        simp [hne]
      · rename_i hname
        have hname : isBackupName name = true := by simpa using hname
        have hfilter : seen ++ (name :: rest).filter isBackupName =
            seen ++ [name] ++ rest.filter isBackupName := by
          rw [List.filter_cons_of_pos hname, List.append_cons]
        rw [hfilter] at hnodup ⊢
        have hnew : name ∉ seen := by
          intro hmem
          have hdisjoint := (List.nodup_append.1 (List.nodup_append.1 hnodup).1).2.2
          exact hdisjoint name hmem name (List.mem_singleton_self name) rfl
        have hperm := List.perm_insertionSort (fun a b : String => b ≤ a) (newest ++ [name])
        have hsorted := List.pairwise_insertionSort (fun a b : String => b ≤ a) (newest ++ [name])
        generalize (newest ++ [name]).insertionSort (fun a b : String => b ≤ a) = sorted
          at hperm hsorted ⊢
        have hmem (other : String) : other ∈ sorted ↔ other ∈ newest ∨ other = name := by
          rw [hperm.mem_iff, List.mem_append, List.mem_singleton]
        split
        · rename_i hlong
          have hreplaced := h.replace hnew hperm hsorted hlong
          have hne : sorted ≠ [] := by
            rintro rfl
            simp at hlong
          -- the oldest name is one of those seen, so it does not come again
          have hpast : sorted.getLast hne ∈ seen ++ [name] := by
            rcases (hmem _).1 (List.getLast_mem hne) with hold | heq
            · exact List.mem_append_left _ (h.subset hold)
            · simp [heq]
          rw [List.getLast?_eq_some_getLast hne, Option.getD_some]
          refine Triple.bind (V := fun _ => Left directory d₁ fun other =>
            other ∈ sorted.dropLast ∨ other ∈ rest) (Triple.mapError (removeFile_left
              fun other hother => ?_)) fun _ => ih _ (seen ++ [name]) sorted.dropLast hreplaced hnodup
          have hcases : (other ∈ newest ∨ other ∈ name :: rest) ↔ (other ∈ sorted ∨ other ∈ rest) := by
            rw [hmem, List.mem_cons, or_assoc]
          rw [hcases, mem_dropLast_iff (h.nodup_sorted hnew hperm) hne, or_and_right]
          refine or_congr Iff.rfl (iff_self_and.2 fun hrest heq => ?_)
          have hlater : other ∈ rest.filter isBackupName := List.mem_filter.2 ⟨hrest, hother⟩
          exact (List.nodup_append.1 hnodup).2.2 _ hpast other hlater heq.symm
        · rename_i hshort
          have hpushed := h.push hnew hperm (Nat.le_of_not_lt hshort)
          refine (ih _ (seen ++ [name]) sorted hpushed hnodup).pre fun d hd => hd.congr fun other _ => ?_
          rw [hmem, List.mem_cons]
          exact or_assoc

/-- **What is pruned**: all but the five backups whose names come
last. -/
theorem pruneBackups_greatest (h : Answered env) :
    (pruneBackups directory).Triple env (fun d => d = d₁ ∧ backupsPath directory ∈ d₁)
      (fun _ d => ∃ kept, Greatest maxBackups (backupNames directory d₁) kept ∧
        Left directory d₁ (· ∈ kept) d) (fun _ => True) fun _ => True := by
  refine Triple.bind (pathExists_answered h) fun found => ?_
  cases found with
  | false =>
      rintro n d ⟨⟨rfl, hmade⟩, hfound⟩
      exact absurd (hfound.2 hmade) (by simp)
  | true =>
      have hread : (ioAt (backupsPath directory) (readDir (backupsPath directory))).Triple env
          (fun d => d = d₁)
          (fun entries d => d = d₁ ∧ entries.Perm (d₁.children (backupsPath directory)))
          (fun _ => True) fun _ => True := by
        refine Triple.mapError (Triple.op (fun reading d entries t hd hrun => ?_)
          (fun _ _ _ _ _ _ => trivial) (fun _ _ _ => trivial) fun _ _ _ => trivial)
        subst hd
        split at hrun
        · obtain ⟨hentries, rfl⟩ := Prod.mk.inj hrun
          exact ⟨rfl, Except.ok.inj hentries ▸ arrange_perm _ _⟩
        · simp at hrun
      refine Triple.bind (hread.pre fun d hd => hd.1.1) fun entries => Triple.of_and fun hperm => ?_
      have hnames : (entries.filter isBackupName).Perm (backupNames directory d₁) := hperm.filter _
      have hloop : Triple env (Left directory d₁ fun name => name ∈ [] ∨ name ∈ entries) _ _ _ _ :=
        pruneLoop_greatest 0 [] [] entries Greatest.nil (hnames.nodup_iff.2 nodup_backupNames)
      refine hloop.consequence (fun d hd => ?_) fun _ d hd => ?_
      · rw [hd]
        refine ⟨fun _ _ _ => rfl, fun name _ hout => AList.lookup_eq_none.2 fun hmem => hout (.inr ?_)⟩
        exact hperm.mem_iff.2 (Disk.mem_children.2 hmem)
      · obtain ⟨kept, hkept, hleft⟩ := hd
        exact ⟨kept, hkept.congr fun name => hnames.mem_iff, hleft⟩

/-! ## One save -/

theorem Backed.lookup_other {fresh name : String} (h : Backed directory fresh d₀ d₁)
    (hname : isBackupName name = true) (hne : name ≠ fresh) :
    d₁.lookup (backupPath directory name) = d₀.lookup (backupPath directory name) := by
  refine h.others name hne ?_
  rintro rfl
  simp [isBackupName_staged] at hname

/-- The copy is one backup more. -/
theorem Backed.names_perm {stamp : ℕ} {fresh : String} (h : Backed directory fresh d₀ d₁)
    (hfree : freeName directory stamp d₀ = some fresh) (hconfig : configPath directory ∈ d₀) :
    (backupNames directory d₁).Perm (fresh :: backupNames directory d₀) := by
  obtain ⟨hbackup, hnot⟩ := freeName_spec hfree
  refine (List.perm_ext_iff_of_nodup nodup_backupNames ?_).2 fun name => ?_
  · exact List.nodup_cons.2 ⟨fun hmem => hnot (mem_backupNames.1 hmem).2, nodup_backupNames⟩
  · rw [List.mem_cons, mem_backupNames, mem_backupNames]
    by_cases hne : name = fresh
    · subst hne
      refine iff_of_true ⟨hbackup, ?_⟩ (.inl rfl)
      rw [← AList.lookup_isSome, h.copied, AList.lookup_isSome]
      exact hconfig
    · rw [or_iff_right hne]
      refine and_congr_right fun hname => ?_
      rw [← AList.lookup_isSome, h.lookup_other hname hne, AList.lookup_isSome]

/-- The backups after the pruning. -/
theorem Left.mem_backupNames_iff {kept : List String} {name : String}
    (h : Left directory d₁ (· ∈ kept) d) (hkept : kept ⊆ backupNames directory d₁) :
    name ∈ backupNames directory d ↔ name ∈ kept := by
  rw [mem_backupNames]
  constructor
  · rintro ⟨hname, hmem⟩
    by_contra hout
    rw [← AList.lookup_isSome, h.gone name hname hout] at hmem
    simp at hmem
  · intro hmem
    obtain ⟨hname, hthere⟩ := mem_backupNames.1 (hkept hmem)
    rw [← AList.lookup_isSome, h.kept name hname hmem, AList.lookup_isSome]
    exact ⟨hname, hthere⟩

/-- **Where the copy stays**: with its own name, or in another backup. -/
theorem Backed.keepsReplaced_iff {stamp : ℕ} {fresh : String} {kept : List String}
    (h : Backed directory fresh d₀ d₁) (hfree : freeName directory stamp d₀ = some fresh)
    (hconfig : configPath directory ∈ d₀)
    (hkept : Greatest maxBackups (backupNames directory d₁) kept)
    (hleft : Left directory d₁ (· ∈ kept) d) :
    KeepsReplaced directory d₀ d ↔ Outlasts directory stamp d₀ := by
  obtain ⟨node, hnode⟩ := Option.isSome_iff_exists.1 (AList.lookup_isSome.2 hconfig)
  have hnames := h.names_perm hfree hconfig
  have hleftNames (name : String) : name ∈ backupNames directory d ↔ name ∈ kept :=
    hleft.mem_backupNames_iff hkept.subset
  have hlength : (backupNames directory d).length ≤ maxBackups := by
    have hsub : backupNames directory d ⊆ kept := fun name hmem => (hleftNames name).1 hmem
    exact (nodup_backupNames.subperm hsub).length_le.trans hkept.length
  have hstays {name : String} (hthere : name ∈ fresh :: backupNames directory d₀) :
      name ∈ kept ↔ (fresh :: backupNames directory d₀).countP (name < ·) < maxBackups := by
    rw [← hnames.countP_eq]
    exact hkept.mem_iff nodup_backupNames (hnames.mem_iff.2 hthere)
  have hself : (fresh :: backupNames directory d₀).countP (fresh < ·) =
      (backupNames directory d₀).countP (fresh < ·) := List.countP_cons_of_neg (by simp)
  -- a backup that stays has the content it had, and the copy that of the configuration
  have hcontent {name : String} (hmem : name ∈ kept) :
      d.lookup (backupPath directory name) = some node ↔ name = fresh ∨
        name ∈ backupNames directory d₀ ∧
          d₀.lookup (backupPath directory name) = d₀.lookup (configPath directory) := by
    have hthere := hnames.mem_iff.1 (hkept.subset hmem)
    rw [hleft.kept name (mem_backupNames.1 (hkept.subset hmem)).1 hmem]
    by_cases hne : name = fresh
    · subst hne
      exact iff_of_true (h.copied.trans hnode) (.inl rfl)
    · have hold := (List.mem_cons.1 hthere).resolve_left hne
      rw [h.lookup_other (mem_backupNames.1 hold).1 hne, or_iff_right hne, and_iff_right hold, hnode]
  constructor
  · intro hkeeps _ fresh' hfree'
    obtain rfl := Option.some.inj (hfree.symm.trans hfree')
    obtain ⟨name, hname, hsame⟩ := (hkeeps node hnode).2
    rw [hleftNames] at hname
    have hfew := (hstays (hnames.mem_iff.1 (hkept.subset hname))).1 hname
    rcases (hcontent hname).1 hsame with rfl | ⟨hold, hequal⟩
    · exact .inl (hself ▸ hfew)
    · exact .inr ⟨name, hold, hequal, hfew⟩
  · intro houtlasts node' hnode'
    obtain rfl := Option.some.inj (hnode.symm.trans hnode')
    refine ⟨hlength, ?_⟩
    rcases houtlasts hconfig fresh hfree with hfew | ⟨name, hold, hequal, hfew⟩
    · have hmem := (hstays List.mem_cons_self).2 (hself.symm ▸ hfew)
      exact ⟨fresh, (hleftNames fresh).2 hmem, (hcontent hmem).2 (.inl rfl)⟩
    · have hmem := (hstays (List.mem_cons_of_mem _ hold)).2 hfew
      exact ⟨name, (hleftNames name).2 hmem, (hcontent hmem).2 (.inr ⟨hold, hequal⟩)⟩

/-- **Whether a save keeps what it replaces.** -/
theorem save_keepsReplaced_iff {home : Option PathBuf} {codec : Codec} {document : ConfigDocument}
    {stamp : ℕ} (h : Answered env) (hclock : ∀ k, env k .now = .ok stamp)
    {n : ℕ} (hok : (save home codec directory document env (n, d₀)).1 = .value ()) :
    KeepsReplaced directory d₀ (save home codec directory document env (n, d₀)).2.2 ↔
      Outlasts directory stamp d₀ := by
  by_cases hconfig : configPath directory ∈ d₀
  case neg =>
    refine iff_of_true (fun node hnode => ?_) fun hmem => absurd hmem hconfig
    rw [AList.lookup_eq_none.2 hconfig] at hnode
    simp at hnode
  have hsave : (save home codec directory document).Triple env
      (SameBut directory (fun _ => False) d₀)
      (fun _ d => KeepsReplaced directory d₀ d ↔ Outlasts directory stamp d₀)
      (fun _ => True) fun _ => True := by
    refine Triple.bind (V := fun _ => SameBut directory (fun _ => False) d₀)
      (Triple.liftExcept (fun _ _ _ hd => hd) fun _ _ => trivial) fun text => ?_
    refine Triple.bind (replaceFile_backs h hclock hconfig text) fun _ => ?_
    rintro m d₁ ⟨fresh, hfree, hbacked⟩
    refine (pruneBackups_greatest h).mono (fun _ hd => hd) (fun _ d hd => ?_) (fun _ hd => hd)
      (fun _ hd => hd) m d₁ ⟨rfl, hbacked.made⟩
    obtain ⟨kept, hkept, hleft⟩ := hd
    exact hbacked.keepsReplaced_iff hfree hconfig hkept hleft
  have hend := hsave n d₀ SameBut.refl
  rw [hok] at hend
  exact hend

/-! ## Runs -/

/-- **When every replaced configuration is kept.** In a run of saves that
all end well, each keeps what it replaces exactly where its copy outlasts
the pruning. -/
theorem keepsReplaced_run_iff (directory : PathBuf) (d : Disk) (calls : List SaveCall)
    (hok : ∀ x ∈ trace (SaveCall.run directory) d calls, x.output = .value ())
    (hanswered : ∀ call ∈ calls, Answered call.verdicts) :
    (∀ x ∈ trace (SaveCall.run directory) d calls, KeepsReplaced directory x.before x.after) ↔
      ∀ x ∈ trace (SaveCall.run directory) d calls,
        Outlasts directory x.input.clock x.before := by
  refine forall₂_congr fun x hx => ?_
  obtain ⟨houtput, hafter⟩ := mem_trace hx
  have hvalue := houtput.symm.trans (hok x hx)
  rw [hafter]
  exact save_keepsReplaced_iff (hanswered _ (mem_inputs_of_mem_trace hx)) (fun _ => if_pos rfl) hvalue

/-! ## The clock goes back -/

/-- A save of the default configuration where nothing fails. -/
def savedAt (clock : ℕ) : SaveCall := ⟨none, defaultCodec, {}, clock, working⟩

theorem answered_savedAt (clock : ℕ) : Answered (savedAt clock).verdicts := by
  refine ⟨fun k p error done hfail => ?_, fun k p error done hfail => ?_⟩
  · simp [SaveCall.verdicts, savedAt, working] at hfail
  · simp [SaveCall.verdicts, savedAt, working] at hfail

/-- The criterion for three saves, the last two in one millisecond. -/
theorem keepsReplaced_run_iff_savedAt :
    (∀ x ∈ trace (SaveCall.run appDirectory) ∅ [savedAt 1000, savedAt 2000, savedAt 2000],
      KeepsReplaced appDirectory x.before x.after) ↔
    ∀ x ∈ trace (SaveCall.run appDirectory) ∅ [savedAt 1000, savedAt 2000, savedAt 2000],
      Outlasts appDirectory x.input.clock x.before := by
  refine keepsReplaced_run_iff appDirectory ∅ _ (by decide +kernel) fun call hcall => ?_
  simp only [List.mem_cons, List.not_mem_nil, or_false] at hcall
  rcases hcall with rfl | rfl | rfl
  · exact answered_savedAt 1000
  · exact answered_savedAt 2000
  · exact answered_savedAt 2000

/-- A configuration, and five backups with another content that were made
when the clock showed 2000. -/
def laterBackups : Disk :=
  (List.range 5).foldl (fun d suffix =>
      d.insert (backupPath appDirectory (backupName 2000 suffix)) (.file defaultText.toUTF8))
    (((∅ : Disk).insert (backupsPath appDirectory) .dir).insert (configPath appDirectory)
      (.file "schema_version = 1\n".toUTF8))

/-- **The clock goes back, and the copy is lost**: a save that ends well
removes the copy it has just made. -/
theorem savedAt_not_keepsReplaced :
    (SaveCall.run appDirectory laterBackups (savedAt 1000)).1 = .value () ∧
    ¬ KeepsReplaced appDirectory laterBackups
      (SaveCall.run appDirectory laterBackups (savedAt 1000)).2 := by
  refine ⟨by decide +kernel, fun hkeeps => ?_⟩
  have hnode : laterBackups.lookup (configPath appDirectory) =
      some (.file "schema_version = 1\n".toUTF8) := by decide +kernel
  obtain ⟨name, hname, hcontent⟩ := (hkeeps _ hnode).2
  have hlost : ∀ name ∈ backupNames appDirectory
      (SaveCall.run appDirectory laterBackups (savedAt 1000)).2,
      (SaveCall.run appDirectory laterBackups (savedAt 1000)).2.lookup
        (backupPath appDirectory name) ≠ some (.file "schema_version = 1\n".toUTF8) := by
    decide +kernel
  exact hlost name hname hcontent

end ConfigStore

end TunnelWarden
