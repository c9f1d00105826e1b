import TunnelWarden.Store.Persist

/-!
# What a save leaves behind, wherever it ends

`config.toml` is the old file or the new text, and the backups are those
there were, less the ones that are pruned, and copies of the old file.
One thing can go wrong: the query whether the name of a backup is taken
reads an error as "no", and the rename that follows replaces what is
there. Where the save makes no such query that fails for a name that is
taken, no backup is overwritten.
-/

namespace TunnelWarden

namespace ConfigStore

open FileProg Prog

variable {env : Verdicts FileOp IoError} {directory : PathBuf} {d d₀ : Disk}

/-- The path of a name in `backups/`. -/
def backupPath (directory : PathBuf) (name : String) : PathBuf :=
  (backupsPath directory).join (.ofName name)

/-- Every file in `backups/` was there before, or has the name of a
backup only if it is a copy of the old configuration. -/
def Archive (directory : PathBuf) (d₀ d : Disk) : Prop :=
  ∀ name node, d.lookup (backupPath directory name) = some node →
    if backupPath directory name ∈ d₀ then d₀.lookup (backupPath directory name) = some node
    else isBackupName name = true → d₀.lookup (configPath directory) = some node

/-- So far nothing is lost: the old configuration is in place, and so is
every backup. -/
structure Untouched (directory : PathBuf) (d₀ d : Disk) : Prop where
  config : d.lookup (configPath directory) = d₀.lookup (configPath directory)
  kept : ∀ name, backupPath directory name ∈ d₀ →
    d.lookup (backupPath directory name) = d₀.lookup (backupPath directory name)
  archive : Archive directory d₀ d

/-- The name can take a copy of the configuration without a loss. -/
def Spare (directory : PathBuf) (d₀ : Disk) (name : String) : Prop :=
  backupPath directory name ∈ d₀ →
    d₀.lookup (backupPath directory name) = d₀.lookup (configPath directory)

/-- The query fails, for the name of a backup that is there and is not the
configuration itself. -/
def Hides (env : Verdicts FileOp IoError) (directory : PathBuf) (d₀ : Disk) (k : ℕ)
    (op : FileOp) : Prop :=
  ∃ name, op = .exists (backupPath directory name) ∧ ¬ Spare directory d₀ name ∧
    ∃ error done, env k op = .fail error done

/-- No query hides a backup. -/
def Answers (env : Verdicts FileOp IoError) (directory : PathBuf) (d₀ : Disk) : Prop :=
  ∀ k name, ¬ Spare directory d₀ name →
    ∀ error done, env k (.exists (backupPath directory name)) ≠ .fail error done

/-! ## Paths -/

theorem backupPath_inj {a b : String} : backupPath directory a = backupPath directory b ↔ a = b := by
  unfold backupPath
  rw [PathBuf.join_ofName_inj]
  exact and_iff_right rfl

theorem configPath_ne_backupPath {name : String} :
    configPath directory ≠ backupPath directory name := configPath_ne_backup

theorem tempPath_ne_backupPath {name : String} : tempPath directory ≠ backupPath directory name :=
  tempPath_ne_backup

theorem backupPath_notMem_ancestors {name : String} :
    backupPath directory name ∉ (backupsPath directory).ancestors :=
  PathBuf.join_ofName_notMem_ancestors

/-- A staging file does not have the name of a backup. -/
theorem isBackupName_staged (name : String) : isBackupName (name ++ ".tmp") = false := by
  have hsuffix : ¬ ".toml".toList <:+ (name ++ ".tmp").toList := by
    rintro ⟨front, hfront⟩
    have hlast := congrArg List.getLast? hfront
    simp [String.toList_append] at hlast
  have hno : ".toml".toList.isSuffixOf (name ++ ".tmp").toList = false := by
    rw [← Bool.not_eq_true, List.isSuffixOf_iff_suffix]
    exact hsuffix
  rw [isBackupName, hno, Bool.and_false]

/-! ## Outside the backups -/

theorem Archive.frame {d' : Disk} (h : Archive directory d₀ d)
    (hsame : ∀ name, d'.lookup (backupPath directory name) = d.lookup (backupPath directory name)) :
    Archive directory d₀ d' := by
  intro name node hnode
  rw [hsame] at hnode
  exact h name node hnode

theorem Untouched.frame {d' : Disk} (h : Untouched directory d₀ d)
    (hconfig : d'.lookup (configPath directory) = d.lookup (configPath directory))
    (hsame : ∀ name, d'.lookup (backupPath directory name) = d.lookup (backupPath directory name)) :
    Untouched directory d₀ d' :=
  ⟨hconfig.trans h.config, fun name hname => (hsame name).trans (h.kept name hname),
    h.archive.frame hsame⟩

/-- A file that was not there and is no backup is nobody's loss. -/
theorem Untouched.frame_staged {d' : Disk} {name : String} (h : Untouched directory d₀ d)
    (hfree : backupPath directory name ∉ d₀) (hname : isBackupName name = false)
    (hsame : ∀ q, q ≠ backupPath directory name → d'.lookup q = d.lookup q) :
    Untouched directory d₀ d' := by
  refine ⟨(hsame _ configPath_ne_backupPath).trans h.config, fun other hother => ?_, ?_⟩
  · rw [hsame, h.kept other hother]
    rintro heq
    exact hfree (heq ▸ hother)
  · intro other node hnode
    by_cases heq : other = name
    · subst heq
      rw [if_neg hfree]
      simp [hname]
    · rw [hsame _ fun hpath => heq (backupPath_inj.1 hpath)] at hnode
      exact h.archive other node hnode

theorem keeps_untouched_of_staged {ε α : Type} {x : FileProg ε α} {name : String}
    (hfree : backupPath directory name ∉ d₀) (hname : isBackupName name = false)
    (h : ∀ q, q ≠ backupPath directory name → ∀ node, x.Keeps env fun d => d.lookup q = node) :
    x.Keeps env (Untouched directory d₀) :=
  keeps_of_frame (· = backupPath directory name) h fun _ _ hsame hd =>
    hd.frame_staged hfree hname hsame

/-! ## One backup -/

/-- A file that can be created was not there when the save began. -/
theorem createNew_staged {name : String} (hname : isBackupName name = false) :
    (createNew (backupPath directory name)).Triple env (Untouched directory d₀)
      (fun _ d => Untouched directory d₀ d ∧ backupPath directory name ∉ d₀)
      (Untouched directory d₀) (Untouched directory d₀) := by
  refine Triple.op (fun _ d _ t hd hrun => ?_) (fun _ d _ t hd hrun => ?_) (fun _ _ hd => hd)
    fun _ _ hd => hd
  · split at hrun
    · simp at hrun
    · rename_i hnot
      obtain ⟨-, rfl⟩ := Prod.mk.inj hrun
      have hfree : backupPath directory name ∉ d₀ := by
        intro hmem
        have hsame := hd.kept name hmem
        rw [← AList.lookup_isSome] at hmem hnot
        exact hnot (hsame ▸ hmem)
      exact ⟨hd.frame_staged hfree hname fun q hq => AList.lookup_insert_ne hq, hfree⟩
  · split at hrun
    · obtain ⟨-, rfl⟩ := Prod.mk.inj hrun
      exact hd
    · simp at hrun

/-- The copy is complete where it works. -/
theorem copy_staged {name : String} (hname : isBackupName name = false)
    (hfree : backupPath directory name ∉ d₀) :
    (copy (configPath directory) (backupPath directory name)).Triple env (Untouched directory d₀)
      (fun _ d => Untouched directory d₀ d ∧
        d.lookup (backupPath directory name) = d₀.lookup (configPath directory))
      (Untouched directory d₀) (Untouched directory d₀) := by
  have hinsert (d : Disk) (c : ByteArray) (hd : Untouched directory d₀ d) :
      Untouched directory d₀ (d.insert (backupPath directory name) (.file c)) :=
    hd.frame_staged hfree hname fun q hq => AList.lookup_insert_ne hq
  refine Triple.op (fun _ d _ t hd hrun => ?_) (fun _ d _ t hd hrun => ?_) (fun _ d hd => ?_)
    fun _ d hd => ?_
  · split at hrun
    · rename_i content hread
      obtain ⟨-, rfl⟩ := Prod.mk.inj hrun
      refine ⟨hinsert d _ hd, ?_⟩
      rw [AList.lookup_insert, ← hd.config]
      exact (Disk.read_eq_some.1 hread).symm
    · simp at hrun
  · split at hrun
    · simp at hrun
    · obtain ⟨-, rfl⟩ := Prod.mk.inj hrun
      exact hd
  · -- a copy that was cut off is a part of the file
    split
    · exact hinsert d _ hd
    · exact hd
  · split
    · exact hinsert d _ hd
    · exact hd

/-- **The rename makes the copy a backup.** -/
theorem rename_staged {name staged : String} (hstaged : isBackupName staged = false)
    (hfree : backupPath directory staged ∉ d₀) (hspare : Spare directory d₀ name) :
    (rename (backupPath directory staged) (backupPath directory name)).Triple env
      (fun d => Untouched directory d₀ d ∧
        d.lookup (backupPath directory staged) = d₀.lookup (configPath directory))
      (fun _ => Untouched directory d₀) (Untouched directory d₀) (Untouched directory d₀) := by
  refine Triple.op (fun _ d _ t hd hrun => ?_) (fun _ d _ t hd hrun => ?_) (fun _ _ hd => hd.1)
    fun _ _ hd => hd.1
  · rcases hcopy : d.lookup (backupPath directory staged) with _ | node
    · simp [hcopy] at hrun
    rw [hcopy] at hrun
    dsimp only at hrun
    split at hrun
    · simp at hrun
    obtain ⟨-, rfl⟩ := Prod.mk.inj hrun
    have hnode : d₀.lookup (configPath directory) = some node := hd.2.symm.trans hcopy
    -- Without the staging file the disk is still as good.
    have herase : Untouched directory d₀ (d.erase (backupPath directory staged)) :=
      hd.1.frame_staged hfree hstaged fun q hq => AList.lookup_erase_ne hq
    refine ⟨?_, fun other hother => ?_, fun other node' hnode' => ?_⟩
    · rw [AList.lookup_insert_ne configPath_ne_backupPath, herase.config]
    · by_cases heq : other = name
      · subst heq
        rw [AList.lookup_insert, hspare hother, hnode]
      · rw [AList.lookup_insert_ne fun hpath => heq (backupPath_inj.1 hpath), herase.kept other hother]
    · by_cases heq : other = name
      · subst heq
        rw [AList.lookup_insert] at hnode'
        split
        · rename_i hmem
          rw [hspare hmem, hnode, hnode']
        · rw [hnode, hnode']
          exact fun _ => rfl
      · rw [AList.lookup_insert_ne fun hpath => heq (backupPath_inj.1 hpath)] at hnode'
        exact herase.archive other node' hnode'
  · split at hrun
    · obtain ⟨-, rfl⟩ := Prod.mk.inj hrun
      exact hd.1
    · split at hrun
      · obtain ⟨-, rfl⟩ := Prod.mk.inj hrun
        exact hd.1
      · simp at hrun

/-- A name that is free on the disk, or about which a query fails, is
spare. -/
theorem Untouched.spare {name : String} (hanswers : Answers env directory d₀)
    (h : Untouched directory d₀ d)
    (hfree : backupPath directory name ∉ d ∨
      ∃ k error done, env k (.exists (backupPath directory name)) = .fail error done) :
    Spare directory d₀ name := by
  rcases hfree with hfree | ⟨k, error, done, hfail⟩
  · intro hmem
    have hsame := h.kept name hmem
    rw [← AList.lookup_isSome] at hmem hfree
    exact absurd (hsame ▸ hmem) hfree
  · by_contra hspare
    exact hanswers k name hspare error done hfail

/-- One copy, from the file that is staged to the backup it becomes. -/
theorem copied_untouched {name staged : String} (hstaged : isBackupName staged = false)
    (hspare : Spare directory d₀ name) (hfree : backupPath directory staged ∉ d₀) :
    (Prog.guarded (removeFile (backupPath directory staged)) do
      ioAt (backupPath directory staged)
        (copy (configPath directory) (backupPath directory staged))
      ioAt (backupPath directory staged) (syncAll (backupPath directory staged))
      ioAt (backupPath directory name)
        (rename (backupPath directory staged) (backupPath directory name))).Keeps env
      (Untouched directory d₀) := by
  refine Keeps.guarded ?_ (keeps_untouched_of_staged hfree hstaged fun _ hq _ => keeps_removeFile hq)
  refine Triple.bind (Triple.mapError (copy_staged hstaged hfree)) fun _ => ?_
  refine Triple.bind (Triple.mapError (Keeps.triple keeps_syncAll (fun _ hd => hd.1)
    fun _ hd => hd.1)) fun _ => ?_
  exact Triple.mapError (rename_staged hstaged hfree hspare)

/-- **The loop over the suffixes loses nothing.** -/
theorem backupLoop_untouched (hanswers : Answers env directory d₀) (stamp : ℕ) (suffixes : List ℕ) :
    (backupLoop directory (configPath directory) stamp suffixes).Keeps env
      (Untouched directory d₀) := by
  induction suffixes with
  | nil => exact Keeps.throw
  | cons suffix rest ih =>
      have hstaged := isBackupName_staged (backupName stamp suffix)
      refine Triple.bind pathExists_triple fun found => ?_
      cases found with
      | true => exact ih.pre fun _ h => h.1
      | false =>
          -- Whatever the query saw, the name can take the copy.
          refine Triple.mono (P := fun d => Untouched directory d₀ d ∧
            Spare directory d₀ (backupName stamp suffix)) (Triple.of_and fun hspare => ?_)
            (fun d hd => ⟨hd.1, hd.1.spare hanswers (hd.2.2 rfl)⟩) (fun _ _ h => h) (fun _ h => h)
            fun _ h => h
          refine Keeps.bind (Keeps.mapError keeps_openFile) fun _ => ?_
          refine Triple.bind (Triple.attempt (createNew_staged hstaged)) fun made => ?_
          cases made with
          | error e =>
              dsimp only
              split
              · exact ih
              · exact Keeps.throw
          | ok _ => exact Triple.of_and fun hfree => copied_untouched hstaged hspare hfree

/-! ## The save -/

/-- A program that touches neither the configuration nor a backup. -/
theorem keeps_untouched {ε α : Type} {x : FileProg ε α} (touched : PathBuf → Prop)
    (h : ∀ q, ¬ touched q → ∀ node, x.Keeps env fun d => d.lookup q = node)
    (hconfig : ¬ touched (configPath directory))
    (hbackup : ∀ name, ¬ touched (backupPath directory name)) :
    x.Keeps env (Untouched directory d₀) :=
  keeps_of_frame touched h fun _ _ hsame hd =>
    hd.frame (hsame _ hconfig) fun name => hsame _ (hbackup name)

theorem createDirAll_untouched {p : PathBuf} (hp : p.ancestors ⊆ (backupsPath directory).ancestors) :
    (createDirAll p).Keeps env (Untouched directory d₀) :=
  keeps_untouched (· ∈ p.ancestors) (fun _ hq _ => keeps_createDirAll (.inr hq))
    (fun hmem => elsewhere_configPath.1 (hp hmem)) fun _ hmem => backupPath_notMem_ancestors (hp hmem)

/-- A program that touches the temporary file only. -/
theorem keeps_untouched_of_temp {ε α : Type} {x : FileProg ε α}
    (h : ∀ q, q ≠ tempPath directory → ∀ node, x.Keeps env fun d => d.lookup q = node) :
    x.Keeps env (Untouched directory d₀) :=
  keeps_untouched (· = tempPath directory) h configPath_ne_tempPath
    fun _ heq => tempPath_ne_backupPath heq.symm

theorem backupCurrent_untouched (hanswers : Answers env directory d₀) :
    (backupCurrent directory (configPath directory)).Keeps env (Untouched directory d₀) := by
  refine Keeps.bind (Keeps.mapError keeps_metadataLen) fun size => ?_
  split
  · exact Keeps.throw
  · refine Keeps.bind (Keeps.mapError (createDirAll_untouched (List.Subset.refl _))) fun _ => ?_
    exact Keeps.bind (Keeps.attempt keeps_now) fun _ => backupLoop_untouched hanswers _ _

/-- The new configuration takes the place of the old one, and no backup
changes. -/
theorem rename_archive :
    (rename (tempPath directory) (configPath directory)).Triple env (Untouched directory d₀)
      (fun _ => Archive directory d₀) (Archive directory d₀) (Archive directory d₀) := by
  refine Triple.mono (P := Archive directory d₀) ?_ (fun _ hd => hd.archive) (fun _ _ h => h)
    (fun _ h => h) fun _ h => h
  refine keeps_of_frame (fun q => q = tempPath directory ∨ q = configPath directory)
    (fun q hq _ => keeps_rename (fun h => hq (.inl h)) fun h => hq (.inr h)) fun _ _ hsame hd => ?_
  refine hd.frame fun name => hsame _ ?_
  rintro (h | h)
  · exact tempPath_ne_backupPath h.symm
  · exact configPath_ne_backupPath h.symm

/-- What is removed is no longer there to be a wrong copy. -/
theorem removeFile_archive {p : PathBuf} : (removeFile p).Keeps env (Archive directory d₀) := by
  refine Keeps.op (fun _ d hd => ?_) fun _ _ hd => hd
  split
  · exact hd
  · exact hd
  · intro name node hnode
    have hne : backupPath directory name ≠ p := by
      rintro rfl
      simp at hnode
    rw [AList.lookup_erase_ne hne] at hnode
    exact hd name node hnode

theorem replaceFile_archive (hanswers : Answers env directory d₀) (text : String) :
    (replaceFile directory text).Triple env (Untouched directory d₀)
      (fun _ => Archive directory d₀) (Archive directory d₀) (Archive directory d₀) := by
  have hold {ε α : Type} {x : FileProg ε α} (h : x.Keeps env (Untouched directory d₀)) :=
    h.triple (X := Archive directory d₀) (C := Archive directory d₀) (fun _ hd => hd.archive)
      fun _ hd => hd.archive
  refine Triple.bind (hold (Keeps.mapError
    (createDirAll_untouched PathBuf.ancestors_subset_join))) fun _ => ?_
  refine Triple.bind (hold (Keeps.mapError
    (keeps_untouched_of_temp fun _ hq _ => keeps_createNew hq))) fun _ => ?_
  refine Triple.guarded ?_ (fun _ => removeFile_archive) removeFile_archive
  refine Triple.bind (hold (Keeps.mapError (Keeps.bind
    (keeps_untouched_of_temp fun _ hq _ => keeps_writeAll hq) fun _ => keeps_syncAll))) fun _ => ?_
  refine Triple.bind (hold keeps_pathExists) fun found => ?_
  cases found with
  | true =>
      refine Triple.bind (hold (backupCurrent_untouched hanswers)) fun _ => ?_
      exact Triple.mapError rename_archive
  | false => exact Triple.mapError rename_archive

theorem save_archive {home : Option PathBuf} {codec : Codec} {document : ConfigDocument}
    (hanswers : Answers env directory d₀) :
    (save home codec directory document).Triple env (Untouched directory d₀)
      (fun _ => Archive directory d₀) (Archive directory d₀) (Archive directory d₀) := by
  refine Triple.bind (V := fun _ => Untouched directory d₀)
    (Triple.liftExcept (fun _ _ _ hd => hd) fun _ hd => hd.archive) fun text => ?_
  exact Triple.bind (replaceFile_archive hanswers text) fun _ =>
    keeps_pruneBackups_of fun _ => removeFile_archive

variable {home : Option PathBuf} {codec : Codec} {document : ConfigDocument}

/-- The file at `config.toml` is the old one, or the whole text of the
document. -/
def Whole (codec : Codec) (directory : PathBuf) (document : ConfigDocument) (node : Option Node)
    (d : Disk) : Prop :=
  Has directory node d ∨
    ∃ text, codec.toStringPretty document = .ok text ∧ Has directory (some (.file text.toUTF8)) d

theorem save_whole {node : Option Node} :
    (save home codec directory document).Triple env (Has directory node)
      (fun _ => Whole codec directory document node) (Whole codec directory document node)
      (Whole codec directory document node) := by
  refine Triple.bind (V := fun text d => Has directory node d ∧
    codec.toStringPretty document = .ok text) (Triple.liftExcept
      (fun _ _ hser hd => ⟨hd, (serialized_cases hser).1⟩) fun _ hd => .inl hd) fun text => ?_
  refine Triple.of_and fun htext => ?_
  have hnew (d : Disk) (hd : Has directory (some (.file text.toUTF8)) d) :
      Whole codec directory document node d := .inr ⟨text, htext, hd⟩
  refine Triple.bind ((replaceFile_replaces env directory text node).mono (fun _ hd => hd)
    (fun _ _ hd => hd) (fun _ hd => .inl hd) fun d hd => hd.elim .inl (hnew d)) fun _ => ?_
  exact (keeps_pruneBackups elsewhere_configPath).mono (fun _ hd => hd) (fun _ => hnew) hnew hnew

/-- **What a save promises of every disk it can leave**, from the disk
`d₀` it began with. -/
structure CrashAtomic (codec : Codec) (directory : PathBuf) (document : ConfigDocument)
    (d₀ d : Disk) : Prop where
  config : Whole codec directory document (d₀.lookup (configPath directory)) d
  added : ∀ name node, isBackupName name = true → backupPath directory name ∉ d₀ →
    d.lookup (backupPath directory name) = some node →
      d₀.lookup (configPath directory) = some node
  kept : ∀ name node, backupPath directory name ∈ d₀ →
    d.lookup (backupPath directory name) = some node →
      d₀.lookup (backupPath directory name) = some node

theorem Archive.crashAtomic (h : Archive directory d₀ d)
    (hconfig : Whole codec directory document (d₀.lookup (configPath directory)) d) :
    CrashAtomic codec directory document d₀ d := by
  refine ⟨hconfig, fun name node hname hfree hnode => ?_, fun name node hmem hnode => ?_⟩
  · have hcopy := h name node hnode
    rw [if_neg hfree] at hcopy
    exact hcopy hname
  · have hsame := h name node hnode
    rwa [if_pos hmem] at hsame

theorem crashAtomic_of_answers (n : ℕ) (hanswers : Answers env directory d₀) :
    CrashAtomic codec directory document d₀
      (save home codec directory document env (n, d₀)).2.2 := by
  have hstart : Untouched directory d₀ d₀ := by
    refine ⟨rfl, fun _ _ => rfl, fun name node hnode => ?_⟩
    rw [if_pos (AList.lookup_isSome.1 (by rw [hnode]; rfl))]
    exact hnode
  exact Archive.crashAtomic (Triple.holds (save_archive hanswers) hstart) (Triple.holds save_whole rfl)

/-- **A save is crash-atomic where it makes no query that hides a
backup**: wherever it is cut off and whatever fails, the configuration is
the old one or the new one, what it adds to the backups are copies of the
old one, and no backup that was there has another content. -/
theorem save_crashAtomic (home : Option PathBuf) (codec : Codec) (directory : PathBuf)
    (document : ConfigDocument) (env : Verdicts FileOp IoError) (n : ℕ) (d₀ : Disk)
    (havoids : (save home codec directory document).Avoids env (Hides env directory d₀) (n, d₀)) :
    CrashAtomic codec directory document d₀
      (save home codec directory document env (n, d₀)).2.2 := by
  -- cut off at such a query, the save is the same
  have hanswers : Answers (cutAt env (Hides env directory d₀)) directory d₀ := by
    intro k name hspare error done hfail
    unfold cutAt at hfail
    split_ifs at hfail with hhides
    exact hhides ⟨name, rfl, hspare, error, done, hfail⟩
  rw [← havoids]
  exact crashAtomic_of_answers n hanswers

/-! ## A backup that is lost -/

/-- A configuration, and a backup with another content. -/
def backedUp : Disk :=
  ((∅ : Disk).insert (configPath appDirectory) (.file "schema_version = 1\n".toUTF8)).insert
    (backupPath appDirectory (backupName 0 0)) (.file defaultText.toUTF8)

/-- Everything works but the query for that backup. -/
def unseen : Verdicts FileOp IoError := fun _ op =>
  if op = .exists (backupPath appDirectory (backupName 0 0)) then
    .fail ⟨.permissionDenied, "Access is denied. (os error 5)"⟩ 0
  else .ok 0

/-- The promise at that directory, with a save cut off in the middle of
its copy. -/
theorem save_crashAtomic_cut :
    let env : Verdicts FileOp IoError := fun k _ => if k = 12 then .crash 3 else .ok 0
    (save none defaultCodec appDirectory {}).Avoids env (Hides env appDirectory backedUp)
        (0, backedUp) ∧
      CrashAtomic defaultCodec appDirectory {} backedUp
        (save none defaultCodec appDirectory {} env (0, backedUp)).2.2 := by
  intro env
  have havoids : (save none defaultCodec appDirectory {}).Avoids env
      (Hides env appDirectory backedUp) (0, backedUp) := by
    refine avoids_of_none ?_ _ _
    rintro k op ⟨name, -, -, error, done, hfail⟩
    simp only [env] at hfail
    split at hfail <;> simp at hfail
  exact ⟨havoids, save_crashAtomic none defaultCodec appDirectory {} env 0 backedUp havoids⟩

/-- **An error that reads as "no such backup" loses a backup.** -/
theorem save_unseen_not_crashAtomic :
    ¬ CrashAtomic defaultCodec appDirectory {} backedUp
      (save none defaultCodec appDirectory {} unseen (0, backedUp)).2.2 := by
  intro h
  have hlost : (save none defaultCodec appDirectory {} unseen (0, backedUp)).2.2.lookup
      (backupPath appDirectory (backupName 0 0)) =
        some (.file "schema_version = 1\n".toUTF8) := by
    decide +kernel
  have hmem : backupPath appDirectory (backupName 0 0) ∈ backedUp := by decide +kernel
  have hkept := h.kept _ _ hmem hlost
  revert hkept
  decide +kernel

end ConfigStore

end TunnelWarden
