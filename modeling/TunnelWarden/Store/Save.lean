import TunnelWarden.Store.Model.Save

/-!
# What saving does to `config.toml`

Nothing but the rename touches the file. `replaceFile` leaves the new
text when it ends well and the old file when it ends with an error;
where the process is cut off, it is one of the two. `prune_backups`, the
only thing that follows the rename, leaves the file alone.
-/

namespace TunnelWarden

namespace ConfigStore

open FileProg Prog

variable {env : Verdicts FileOp IoError} {I : Disk → Prop} {directory : PathBuf} {node : Option Node}

theorem configPath_ne_tempPath : configPath directory ≠ tempPath directory := by
  intro h
  have := (PathBuf.join_ofName_inj.1 h).2
  revert this
  decide

theorem configPath_ne_backup {name : String} :
    configPath directory ≠ (backupsPath directory).join (.ofName name) :=
  PathBuf.join_ofName_ne_join_join

theorem tempPath_ne_backup {name : String} :
    tempPath directory ≠ (backupsPath directory).join (.ofName name) :=
  PathBuf.join_ofName_ne_join_join

/-! ## Backups leave the other files alone -/

/-- A path that is no backup and no staging file. -/
def Elsewhere (directory q : PathBuf) : Prop :=
  q ∉ (backupsPath directory).ancestors ∧ ∀ name, q ≠ (backupsPath directory).join (.ofName name)

theorem elsewhere_configPath : Elsewhere directory (configPath directory) :=
  ⟨PathBuf.join_ofName_notMem_ancestors_join (by decide), fun _ => configPath_ne_backup⟩

theorem elsewhere_tempPath : Elsewhere directory (tempPath directory) :=
  ⟨PathBuf.join_ofName_notMem_ancestors_join (by decide), fun _ => tempPath_ne_backup⟩

variable {q path : PathBuf}

/-- Every operation of a backup keeps `I`. -/
structure BackupKeeps (env : Verdicts FileOp IoError) (directory path : PathBuf)
    (I : Disk → Prop) : Prop where
  createDirAll : (createDirAll (backupsPath directory)).Keeps env I
  createNew : ∀ name, (createNew ((backupsPath directory).join (.ofName name))).Keeps env I
  copy : ∀ name, (copy path ((backupsPath directory).join (.ofName name))).Keeps env I
  rename : ∀ staged name, (rename ((backupsPath directory).join (.ofName staged))
    ((backupsPath directory).join (.ofName name))).Keeps env I
  removeFile : ∀ name, (removeFile ((backupsPath directory).join (.ofName name))).Keeps env I

theorem BackupKeeps.backupLoop (h : BackupKeeps env directory path I) (stamp : ℕ)
    (suffixes : List ℕ) : (backupLoop directory path stamp suffixes).Keeps env I := by
  induction suffixes with
  | nil => exact Keeps.throw
  | cons suffix rest ih =>
      refine Keeps.bind keeps_pathExists fun found => ?_
      cases found with
      | true => exact ih
      | false =>
          refine Keeps.bind (Keeps.mapError keeps_openFile) fun _ => ?_
          refine Keeps.bind (Keeps.attempt (h.createNew _)) fun made => ?_
          cases made with
          | error e =>
              dsimp only
              split
              · exact ih
              · exact Keeps.throw
          | ok _ =>
              refine Keeps.guarded ?_ (h.removeFile _)
              refine Keeps.bind (Keeps.mapError (h.copy _)) fun _ => ?_
              refine Keeps.bind (Keeps.mapError keeps_syncAll) fun _ => ?_
              exact Keeps.mapError (h.rename _ _)

theorem BackupKeeps.backupCurrent (h : BackupKeeps env directory path I) :
    (backupCurrent directory path).Keeps env I := by
  refine Keeps.bind (Keeps.mapError keeps_metadataLen) fun size => ?_
  split
  · exact Keeps.throw
  · refine Keeps.bind (Keeps.mapError h.createDirAll) fun _ => ?_
    exact Keeps.bind (Keeps.attempt keeps_now) fun _ => h.backupLoop _ _

/-- Pruning keeps what the removal of a backup keeps. -/
theorem keeps_pruneLoop
    (h : ∀ name, (removeFile ((backupsPath directory).join (.ofName name))).Keeps env I)
    (index : ℕ) (newest names : List String) :
    (pruneLoop (backupsPath directory) index newest names).Keeps env I := by
  induction names generalizing index newest with
  | nil => exact Keeps.pure
  | cons name rest ih =>
      refine Keeps.bind (Keeps.mapError keeps_readEntry) fun _ => ?_
      dsimp only
      split
      · exact ih _ _
      · split
        · refine Keeps.bind (Keeps.mapError (h _)) fun _ => ih _ _
        · exact ih _ _

theorem keeps_pruneBackups_of
    (h : ∀ name, (removeFile ((backupsPath directory).join (.ofName name))).Keeps env I) :
    (pruneBackups directory).Keeps env I := by
  refine Keeps.bind keeps_pathExists fun found => ?_
  cases found with
  | true =>
      exact Keeps.bind (Keeps.mapError keeps_readDir) fun _ => keeps_pruneLoop h _ _ _
  | false => exact Keeps.pure

theorem Elsewhere.backupKeeps (hq : Elsewhere directory q) :
    BackupKeeps env directory path fun d => d.lookup q = node where
  createDirAll := keeps_createDirAll (.inr hq.1)
  createNew name := keeps_createNew (hq.2 name)
  copy name := keeps_copy (hq.2 name)
  rename staged name := keeps_rename (hq.2 staged) (hq.2 name)
  removeFile name := keeps_removeFile (hq.2 name)

theorem keeps_pruneBackups (hq : Elsewhere directory q) :
    (pruneBackups directory).Keeps env fun d => d.lookup q = node :=
  keeps_pruneBackups_of fun name => keeps_removeFile (hq.2 name)

/-! ## The replacement -/

variable {text : String}

/-- The old file is still there and the new text is in the temporary
one. -/
def Written (directory : PathBuf) (text : String) (node : Option Node) (d : Disk) : Prop :=
  d.lookup (configPath directory) = node ∧
    d.lookup (tempPath directory) = some (.file text.toUTF8)

theorem Written.keeps {ε α : Type} {x : FileProg ε α}
    (h : ∀ q node, Elsewhere directory q → x.Keeps env fun d => d.lookup q = node) :
    x.Keeps env (Written directory text node) := by
  intro n d hd
  have h1 := h _ _ elsewhere_configPath n d hd.1
  have h2 := h _ _ elsewhere_tempPath n d hd.2
  cases hr : (x env (n, d)).1 <;> rw [hr] at h1 h2 <;> exact ⟨h1, h2⟩

/-- The file at `config.toml`. -/
abbrev Has (directory : PathBuf) (node : Option Node) (d : Disk) : Prop :=
  d.lookup (configPath directory) = node

/-- The old file or the new one. -/
def OldOrNew (directory : PathBuf) (text : String) (node : Option Node) (d : Disk) : Prop :=
  Has directory node d ∨ Has directory (some (.file text.toUTF8)) d

/-- The write puts the text into the temporary file. -/
theorem writeAll_written :
    (writeAll (tempPath directory) text.toUTF8).Triple env (Has directory node)
      (fun _ => Written directory text node) (Has directory node) (OldOrNew directory text node) := by
  -- However far the write got, the other file is as it was.
  have hother (d : Disk) (c : ByteArray) (hd : Has directory node d) :
      Has directory node (d.insert (tempPath directory) (.file c)) := by
    rw [Has, AList.lookup_insert_ne configPath_ne_tempPath, hd]
  refine Triple.op (fun _ d _ t hd hrun => ?_) (fun _ d _ t hd hrun => ?_)
    (fun _ d hd => hother d _ hd) fun _ d hd => .inl (hother d _ hd)
  · obtain ⟨-, rfl⟩ := Prod.mk.inj hrun
    exact ⟨hother d _ hd, AList.lookup_insert _⟩
  · simp at hrun

/-- The rename makes the new text visible, and a failed one changes
nothing. -/
theorem rename_replaces :
    (rename (tempPath directory) (configPath directory)).Triple env (Written directory text node)
      (fun _ => Has directory (some (.file text.toUTF8))) (Has directory node)
      (OldOrNew directory text node) := by
  refine Triple.op (fun _ d _ t hd hrun => ?_) (fun _ d _ t hd hrun => ?_) (fun _ d hd => hd.1)
    fun _ d hd => .inl hd.1
  · rw [hd.2] at hrun
    dsimp only at hrun
    split at hrun
    · simp at hrun
    · obtain ⟨-, rfl⟩ := Prod.mk.inj hrun
      exact AList.lookup_insert _
  · rw [hd.2] at hrun
    dsimp only at hrun
    split at hrun
    · obtain ⟨-, rfl⟩ := Prod.mk.inj hrun
      exact hd.1
    · simp at hrun

/-- **The replacement is all or nothing**, whichever operation fails:
the new text where it ends well, the old file where it ends with an
error, and one of the two where the process is cut off. -/
theorem replaceFile_replaces (env : Verdicts FileOp IoError) (directory : PathBuf) (text : String)
    (node : Option Node) :
    (replaceFile directory text).Triple env (Has directory node)
      (fun _ => Has directory (some (.file text.toUTF8))) (Has directory node)
      (OldOrNew directory text node) := by
  have hold {ε α : Type} {x : FileProg ε α} (h : x.Keeps env (Has directory node)) :=
    h.triple (fun _ hd => hd) (C := OldOrNew directory text node) fun _ hd => .inl hd
  have hwritten {ε α : Type} {x : FileProg ε α} (h : x.Keeps env (Written directory text node)) :=
    h.triple (X := Has directory node) (fun _ hd => hd.1)
      (C := OldOrNew directory text node) fun _ hd => .inl hd.1
  refine Triple.bind (hold (Keeps.mapError (keeps_createDirAll
    (.inr PathBuf.join_ofName_notMem_ancestors)))) fun _ => ?_
  refine Triple.bind (hold (Keeps.mapError (keeps_createNew configPath_ne_tempPath))) fun _ => ?_
  refine Triple.guarded ?_ (fun _ => (keeps_removeFile configPath_ne_tempPath).triple
    (fun _ hd => hd) fun _ hd => .inr hd) (hold (keeps_removeFile configPath_ne_tempPath))
  refine Triple.bind (Triple.mapError (Triple.bind writeAll_written fun _ =>
    hwritten keeps_syncAll)) fun _ => ?_
  refine Triple.bind (hwritten keeps_pathExists) fun found => ?_
  cases found with
  | true =>
      refine Triple.bind (hwritten (Written.keeps fun q node hq => hq.backupKeeps.backupCurrent))
        fun _ => ?_
      exact Triple.mapError rename_replaces
  | false => exact Triple.mapError rename_replaces

end ConfigStore

end TunnelWarden
