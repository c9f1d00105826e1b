import TunnelWarden.Store.Crash
import TunnelWarden.Store.Reload

/-!
# Saving again after a crash

Every save leaves a directory the next one can work in, with one
exception: a process that ends between the creation of
`config.toml.tmp` and its rename leaves that file behind, and `save`
insists on creating it. From then on no save ends well. A staging file
in `backups/` is no such obstacle, since its name is tried and passed
over.
-/

namespace TunnelWarden

namespace ConfigStore

open FileProg Prog

variable {env fenv : Verdicts FileOp IoError} {directory : PathBuf} {d : Disk}
variable {home : Option PathBuf} {codec : Codec} {document : ConfigDocument} {text : String}

/-- Nothing is below the directory, and no file is above it. -/
structure Empty (directory : PathBuf) (d : Disk) : Prop where
  above : ∀ q ∈ directory.ancestors, d.read q = none
  below : ∀ names : List Component, names ≠ [] →
    (⟨directory.components ++ names⟩ : PathBuf) ∉ d

/-- The directories that saves make of an empty one, each save with any
document and any verdict on each of its operations. -/
inductive Reached (directory : PathBuf) : Disk → Prop
  | empty {d : Disk} (h : Empty directory d) : Reached directory d
  | save {d : Disk} (h : Reached directory d) (home : Option PathBuf) (codec : Codec)
      (document : ConfigDocument) (env : Verdicts FileOp IoError) (n : ℕ) :
      Reached directory (save home codec directory document env (n, d)).2.2

/-- What every save leaves: no file where a directory has to be, a
configuration that is not too large, and no directory among the
backups. -/
structure Tidy (directory : PathBuf) (d : Disk) : Prop where
  above : ∀ q ∈ (backupsPath directory).ancestors, d.read q = none
  config : ∀ node, d.lookup (configPath directory) = some node →
    ∃ c, node = .file c ∧ c.size ≤ maxConfigBytes
  backups : ∀ name, d.lookup (backupPath directory name) ≠ some .dir

/-! ## Every save leaves a tidy directory -/

theorem Empty.tidy (h : Empty directory d) : Tidy directory d := by
  have hnot {names : List Component} (hne : names ≠ []) :
      d.lookup (⟨directory.components ++ names⟩ : PathBuf) = none :=
    AList.lookup_eq_none.2 (h.below names hne)
  refine ⟨fun q hq => ?_, fun node hnode => ?_, fun name hname => ?_⟩
  · obtain ⟨cs, hcs, rfl⟩ := List.mem_map.1 hq
    rw [backupsPath, PathBuf.join_ofName, List.inits_append] at hcs
    rw [List.drop_append_of_le_length (by simp)] at hcs
    rcases List.mem_append.1 hcs with hcs | hcs
    · exact h.above _ (List.mem_map.2 ⟨cs, hcs, rfl⟩)
    · have hcs : cs = directory.components ++ [.normal "backups"] := by simpa using hcs
      rw [hcs, Disk.read, hnot (by simp)]
  · rw [configPath, PathBuf.join_ofName, hnot (by simp)] at hnode
    simp at hnode
  · rw [backupPath, PathBuf.join_ofName, backupsPath, PathBuf.join_ofName, List.append_assoc,
      hnot (by simp)] at hname
    simp at hname

theorem Tidy.erase (h : Tidy directory d) (p : PathBuf) : Tidy directory (d.erase p) := by
  have hcases (q : PathBuf) :
      (d.erase p).lookup q = none ∨ (d.erase p).lookup q = d.lookup q := by
    by_cases hq : q = p
    · exact .inl (by rw [hq, AList.lookup_erase])
    · exact .inr (AList.lookup_erase_ne hq)
  refine ⟨fun q hq => ?_, fun node hnode => ?_, fun name hname => ?_⟩
  · rw [Disk.read]
    rcases hcases q with hnone | hsame
    · rw [hnone]
    · rw [hsame]
      exact h.above q hq
  · rcases hcases (configPath directory) with hnone | hsame
    · simp [hnone] at hnode
    · exact h.config node (hsame ▸ hnode)
  · rcases hcases (backupPath directory name) with hnone | hsame
    · simp [hnone] at hname
    · exact h.backups name (hsame ▸ hname)

/-- What is put at a path has to be right for that path. -/
theorem Tidy.insert (h : Tidy directory d) {p : PathBuf} {node : Node}
    (habove : p ∈ (backupsPath directory).ancestors → node = .dir)
    (hconfig : p = configPath directory → ∃ c, node = .file c ∧ c.size ≤ maxConfigBytes)
    (hbackup : ∀ name, p = backupPath directory name → node ≠ .dir) :
    Tidy directory (d.insert p node) := by
  refine ⟨fun q hq => ?_, fun other hother => ?_, fun name hname => ?_⟩
  · by_cases hqp : q = p
    · rw [Disk.read, hqp, AList.lookup_insert, habove (hqp ▸ hq)]
    · rw [Disk.read, AList.lookup_insert_ne hqp]
      exact h.above q hq
  · by_cases hp : configPath directory = p
    · rw [hp, AList.lookup_insert] at hother
      exact Option.some.inj hother ▸ hconfig hp.symm
    · rw [AList.lookup_insert_ne hp] at hother
      exact h.config other hother
  · by_cases hp : backupPath directory name = p
    · rw [hp, AList.lookup_insert] at hname
      exact hbackup name hp.symm (Option.some.inj hname)
    · rw [AList.lookup_insert_ne hp] at hname
      exact h.backups name hname

/-- A path a file can be put at. -/
def Writable (directory p : PathBuf) : Prop :=
  p ∉ (backupsPath directory).ancestors ∧ p ≠ configPath directory

theorem writable_tempPath : Writable directory (tempPath directory) :=
  ⟨elsewhere_tempPath.1, configPath_ne_tempPath.symm⟩

theorem writable_backupPath {name : String} : Writable directory (backupPath directory name) :=
  ⟨backupPath_notMem_ancestors, configPath_ne_backupPath.symm⟩

theorem Tidy.insert_file {p : PathBuf} (h : Tidy directory d) (hp : Writable directory p)
    (c : ByteArray) : Tidy directory (d.insert p (.file c)) :=
  h.insert (fun hmem => absurd hmem hp.1) (fun heq => absurd heq hp.2) fun _ _ => by simp

theorem Tidy.mkdirs (h : Tidy directory d) {ps : List PathBuf}
    (hps : ps ⊆ (backupsPath directory).ancestors) : Tidy directory (ps.foldl Disk.mkdir d) := by
  induction ps generalizing d with
  | nil => exact h
  | cons p ps ih =>
      have hp : p ∈ (backupsPath directory).ancestors := hps (by simp)
      refine ih ?_ fun q hq => hps (by simp [hq])
      unfold Disk.mkdir
      split
      · exact h
      · refine h.insert (fun _ => rfl) (fun heq => ?_) fun name heq => ?_
        · exact absurd (heq ▸ hp) elsewhere_configPath.1
        · exact absurd (heq ▸ hp) backupPath_notMem_ancestors

theorem createDirAll_tidy {p : PathBuf} (hp : p.ancestors ⊆ (backupsPath directory).ancestors) :
    (createDirAll p).Keeps env (Tidy directory) := by
  refine Keeps.op (fun _ d hd => ?_) fun _ _ hd => hd
  split
  · exact hd
  · exact hd.mkdirs hp

theorem createNew_tidy {p : PathBuf} (hp : Writable directory p) :
    (createNew p).Keeps env (Tidy directory) := by
  refine Keeps.op (fun _ d hd => ?_) fun _ _ hd => hd
  split
  · exact hd
  · exact hd.insert_file hp _

theorem copy_tidy {source p : PathBuf} (hp : Writable directory p) :
    (copy source p).Keeps env (Tidy directory) := by
  refine Keeps.op (fun _ d hd => ?_) fun _ d hd => ?_
  · split
    · exact hd.insert_file hp _
    · exact hd
  · split
    · exact hd.insert_file hp _
    · exact hd

theorem removeFile_tidy {p : PathBuf} : (removeFile p).Keeps env (Tidy directory) := by
  refine Keeps.op (fun _ d hd => ?_) fun _ _ hd => hd
  split
  · exact hd
  · exact hd
  · exact hd.erase _

/-- What is renamed inside `backups/` is a file. -/
theorem rename_backup_tidy {name staged : String} :
    (rename (backupPath directory staged) (backupPath directory name)).Keeps env
      (Tidy directory) := by
  refine Keeps.op (fun _ d hd => ?_) fun _ _ hd => hd
  split
  · exact hd
  · rename_i node hnode
    split
    · exact hd
    · cases node with
      | file c => exact (hd.erase _).insert_file writable_backupPath c
      | dir => exact absurd hnode (hd.backups staged)

theorem backupKeeps_tidy : BackupKeeps env directory (configPath directory) (Tidy directory) where
  createDirAll := createDirAll_tidy (List.Subset.refl _)
  createNew _ := createNew_tidy writable_backupPath
  copy _ := copy_tidy writable_backupPath
  rename _ _ := rename_backup_tidy
  removeFile _ := removeFile_tidy

/-- The temporary file holds the text. -/
def Staged (directory : PathBuf) (text : String) (d : Disk) : Prop :=
  Tidy directory d ∧ d.lookup (tempPath directory) = some (.file text.toUTF8)

theorem writeAll_staged :
    (writeAll (tempPath directory) text.toUTF8).Triple env (Tidy directory)
      (fun _ => Staged directory text) (Tidy directory) (Tidy directory) := by
  refine Triple.op (fun _ d _ t hd hrun => ?_) (fun _ d _ t hd hrun => ?_)
    (fun _ _ hd => hd.insert_file writable_tempPath _) fun _ _ hd =>
      hd.insert_file writable_tempPath _
  · obtain ⟨-, rfl⟩ := Prod.mk.inj hrun
    exact ⟨hd.insert_file writable_tempPath _, AList.lookup_insert _⟩
  · simp at hrun

theorem rename_config_tidy (hlen : byteLen text ≤ maxConfigBytes) :
    (rename (tempPath directory) (configPath directory)).Triple env (Staged directory text)
      (fun _ => Tidy directory) (Tidy directory) (Tidy directory) := by
  refine Triple.op (fun _ d _ t hd hrun => ?_) (fun _ d _ t hd hrun => ?_) (fun _ _ hd => hd.1)
    fun _ _ hd => hd.1
  · rw [hd.2] at hrun
    dsimp only at hrun
    split at hrun
    · simp at hrun
    · obtain ⟨-, rfl⟩ := Prod.mk.inj hrun
      refine (hd.1.erase _).insert (fun hmem => absurd hmem elsewhere_configPath.1)
        (fun _ => ⟨_, rfl, ?_⟩) fun _ _ => by simp
      exact hlen
  · rw [hd.2] at hrun
    dsimp only at hrun
    split at hrun
    · obtain ⟨-, rfl⟩ := Prod.mk.inj hrun
      exact hd.1
    · simp at hrun

theorem replaceFile_tidy (hlen : byteLen text ≤ maxConfigBytes) :
    (replaceFile directory text).Keeps env (Tidy directory) := by
  have hstaged {ε α : Type} {x : FileProg ε α} (h : x.Keeps env (Staged directory text)) :=
    h.triple (X := Tidy directory) (C := Tidy directory) (fun _ hd => hd.1) fun _ hd => hd.1
  refine Keeps.bind (Keeps.mapError (createDirAll_tidy PathBuf.ancestors_subset_join)) fun _ => ?_
  refine Keeps.bind (Keeps.mapError (createNew_tidy writable_tempPath)) fun _ => ?_
  refine Keeps.guarded ?_ removeFile_tidy
  refine Triple.bind (Triple.mapError (Triple.bind writeAll_staged fun _ =>
    hstaged keeps_syncAll)) fun _ => ?_
  refine Triple.bind (hstaged keeps_pathExists) fun found => ?_
  cases found with
  | true =>
      refine Triple.bind (hstaged (Triple.and backupKeeps_tidy.backupCurrent
        elsewhere_tempPath.backupKeeps.backupCurrent)) fun _ => ?_
      exact Triple.mapError (rename_config_tidy hlen)
  | false => exact Triple.mapError (rename_config_tidy hlen)

theorem save_tidy : (save home codec directory document).Keeps env (Tidy directory) := by
  refine Triple.bind (V := fun text d => Tidy directory d ∧ byteLen text ≤ maxConfigBytes)
    (Triple.liftExcept (fun _ _ hser hd => ⟨hd, (serialized_cases hser).2.2⟩) fun _ hd => hd)
    fun text => ?_
  refine Triple.of_and fun hlen => ?_
  exact Keeps.bind (replaceFile_tidy hlen) fun _ => keeps_pruneBackups_of fun _ => removeFile_tidy

/-- **Every save leaves a tidy directory**, wherever it ends. -/
theorem tidy_of_reached (h : Reached directory d) : Tidy directory d := by
  induction h with
  | empty h => exact h.tidy
  | save _ home codec document env n ih => exact Triple.holds save_tidy ih

/-! ## A save with nothing in its way -/

theorem Tidy.exists_config (h : Tidy directory d) (hmem : configPath directory ∈ d) :
    ∃ c, d.lookup (configPath directory) = some (.file c) ∧ c.size ≤ maxConfigBytes := by
  obtain ⟨node, hnode⟩ := Option.isSome_iff_exists.1 (AList.lookup_isSome.2 hmem)
  obtain ⟨c, rfl, hc⟩ := h.config node hnode
  exact ⟨c, hnode, hc⟩

/-- No backup and no staging file has the stamp the clock shows. -/
def FreshStamp (env : Verdicts FileOp IoError) (directory : PathBuf) (d : Disk) : Prop :=
  ∀ k stamp, env k .now = .ok stamp → ∀ suffix,
    backupPath directory (backupName stamp suffix) ∉ d ∧
    backupPath directory (backupName stamp suffix ++ ".tmp") ∉ d

/-- A program that touches no backup. -/
theorem keeps_freshStamp {ε α : Type} {x : FileProg ε α} (touched : PathBuf → Prop)
    (h : ∀ q, ¬ touched q → ∀ node, x.Keeps env fun d => d.lookup q = node)
    (hbackup : ∀ name, ¬ touched (backupPath directory name)) :
    x.Keeps env (FreshStamp env directory) := by
  refine keeps_of_frame touched h fun d d' hsame hd k stamp hstamp suffix => ?_
  have hfree (name : String) (hname : backupPath directory name ∉ d) :
      backupPath directory name ∉ d' := by
    rw [← AList.lookup_eq_none] at hname ⊢
    rw [hsame _ (hbackup name), hname]
  exact ⟨hfree _ (hd k stamp hstamp suffix).1, hfree _ (hd k stamp hstamp suffix).2⟩

/-- The next save can run through. -/
structure Ready (env : Verdicts FileOp IoError) (directory : PathBuf) (d : Disk) : Prop where
  tidy : Tidy directory d
  fresh : FreshStamp env directory d

/-- Files under `backups/`, each named once. -/
def Prunable (directory : PathBuf) (names : List String) (d : Disk) : Prop :=
  names.Nodup ∧ ∀ name ∈ names, ∃ c, d.lookup (backupPath directory name) = some (.file c)

theorem Prunable.subperm {names names' : List String} (h : Prunable directory names d)
    (hsub : names'.Subperm names) : Prunable directory names' d := by
  obtain ⟨_, hperm, hsublist⟩ := hsub
  refine ⟨hperm.nodup_iff.1 (h.1.sublist hsublist), fun name hname => h.2 name ?_⟩
  exact hsublist.subset (hperm.mem_iff.2 hname)

/-- One of them is removed, and not asked for again. -/
theorem Prunable.erase {name : String} {names : List String}
    (h : Prunable directory (name :: names) d) :
    Prunable directory names (d.erase (backupPath directory name)) := by
  obtain ⟨hnot, hnodup⟩ := List.nodup_cons.1 h.1
  refine ⟨hnodup, fun other hother => ?_⟩
  have hne : backupPath directory other ≠ backupPath directory name := by
    intro heq
    exact hnot (backupPath_inj.1 heq ▸ hother)
  rw [AList.lookup_erase_ne hne]
  exact h.2 other (List.mem_cons_of_mem _ hother)

section Works

variable (henv : Works env)

include henv

theorem createDirAll_works {p : PathBuf} (hp : p.ancestors ⊆ (backupsPath directory).ancestors) :
    (createDirAll p).Triple env (Ready env directory) (fun _ => Ready env directory)
      (fun _ => False) fun _ => False := by
  have htidy : (createDirAll p).Triple env (Tidy directory) (fun _ => Tidy directory)
      (fun _ => False) fun _ => False := by
    refine Triple.op_works (fun n => henv n _) fun _ _ d _ hd => ?_
    have hfree : ¬ p.ancestors.any (fun q => (d.read q).isSome) = true := by
      rw [List.any_eq_true]
      rintro ⟨q, hq, hsome⟩
      rw [hd.above q (hp hq)] at hsome
      simp at hsome
    exact ⟨_, _, if_neg hfree, hd.mkdirs hp⟩
  refine (Triple.and_keeps htidy (keeps_freshStamp (· ∈ p.ancestors)
    (fun _ hq _ => keeps_createDirAll (.inr hq)) fun _ hmem =>
      backupPath_notMem_ancestors (hp hmem))).consequence (fun _ hd => ⟨hd.1, hd.2⟩)
    fun _ _ hd => ⟨hd.1, hd.2⟩

/-- A clean-up that works or does not, but is not cut off. -/
theorem removeFile_uncut {p : PathBuf} :
    (removeFile p).Triple env (fun _ => True) (fun _ _ => True) (fun _ => True) fun _ => False :=
  Triple.op_ok (fun n => henv n _) (fun _ _ _ _ _ _ _ _ => trivial) fun _ _ _ _ _ _ => trivial

/-- The copy, with the configuration and the staging file in place. -/
theorem copied_works {name staged : String} :
    (Prog.guarded (removeFile (backupPath directory staged)) do
      ioAt (backupPath directory staged)
        (copy (configPath directory) (backupPath directory staged))
      ioAt (backupPath directory staged) (syncAll (backupPath directory staged))
      ioAt (backupPath directory name)
        (rename (backupPath directory staged) (backupPath directory name))).Triple env
      (fun d => Tidy directory d ∧ configPath directory ∈ d) (fun _ _ => True)
      (fun _ => False) fun _ => False := by
  refine Triple.guarded ?_ (fun _ => removeFile_uncut henv) fun _ _ h => h.elim
  refine Triple.bind (V := fun _ d => Tidy directory d ∧ backupPath directory staged ∈ d)
    (Triple.mapError (Triple.op_works (fun n => henv n _) fun _ _ d _ hd => ?_)) fun _ => ?_
  · obtain ⟨c, hc, -⟩ := hd.1.exists_config hd.2
    rw [Disk.read_eq hc]
    exact ⟨_, _, rfl, hd.1.insert_file writable_backupPath c, by simp⟩
  refine Triple.bind (V := fun _ d => Tidy directory d ∧ backupPath directory staged ∈ d)
    (Triple.mapError (Triple.op_works (fun n => henv n _) fun _ _ d _ hd => ⟨_, _, rfl, hd⟩))
    fun _ => ?_
  refine Triple.mapError (Triple.op_works (fun n => henv n _) fun _ _ d _ hd => ?_)
  obtain ⟨node, hnode⟩ := Option.isSome_iff_exists.1 (AList.lookup_isSome.2 hd.2)
  rw [hnode]
  exact ⟨_, _, if_neg (hd.1.backups name), trivial⟩

/-- **The first suffix does it**: its name and its staging file are
free. -/
theorem backupLoop_works {stamp : ℕ} (hnow : ∃ k, env k .now = .ok stamp) (suffixes : List ℕ) :
    (backupLoop directory (configPath directory) stamp (0 :: suffixes)).Triple env
      (fun d => Ready env directory d ∧ configPath directory ∈ d) (fun _ _ => True)
      (fun _ => False) fun _ => False := by
  obtain ⟨k, hk⟩ := hnow
  refine Triple.bind (pathExists_works henv) fun found => ?_
  cases found with
  -- the stamp is fresh, so its name is not taken
  | true =>
      intro n d hd
      exact absurd (hd.2.1 rfl) (hd.1.1.fresh k stamp hk 0).1
  | false =>
      refine Triple.bind (V := fun _ d => Ready env directory d ∧ configPath directory ∈ d)
        (Triple.mapError (Triple.op_works (fun n => henv n _) fun _ _ d _ hd => ?_)) fun _ => ?_
      · obtain ⟨c, hc, -⟩ := hd.1.1.tidy.exists_config hd.1.2
        rw [hc]
        exact ⟨_, _, rfl, hd.1⟩
      -- nor is that of the staging file; from here on only tidiness is needed
      refine Triple.bind (Triple.attempt (Triple.op_works (X := fun _ => False)
        (V := fun _ d => Tidy directory d ∧ configPath directory ∈ d) (fun n => henv n _)
        fun _ _ d _ hd => ?_)) fun made => ?_
      · refine ⟨_, _, if_neg (hd.1.fresh k stamp hk 0).2,
          hd.1.tidy.insert_file writable_backupPath _, ?_⟩
        rw [AList.mem_insert]
        exact .inr hd.2
      cases made with
      | error e => exact fun _ _ h => h.elim
      | ok _ => exact copied_works henv

theorem backupCurrent_works :
    (backupCurrent directory (configPath directory)).Triple env
      (fun d => Ready env directory d ∧ configPath directory ∈ d) (fun _ _ => True)
      (fun _ => False) fun _ => False := by
  refine Triple.bind (V := fun size d => (Ready env directory d ∧ configPath directory ∈ d) ∧
    size ≤ maxConfigBytes) (Triple.mapError (Triple.op_works (fun n => henv n _)
      fun _ _ d _ hd => ?_)) fun size => ?_
  · obtain ⟨c, hc, hsize⟩ := hd.1.tidy.exists_config hd.2
    rw [hc]
    exact ⟨_, _, rfl, hd, hsize⟩
  refine Triple.of_and fun hsize => ?_
  rw [if_neg (by omega)]
  have hconfig : (createDirAll (backupsPath directory)).Keeps env
      fun d => configPath directory ∈ d :=
    keeps_mem fun _ => keeps_createDirAll (.inr elsewhere_configPath.1)
  refine Triple.bind (Triple.mapError (Triple.and_keeps
    (createDirAll_works henv (List.Subset.refl _)) hconfig)) fun _ => ?_
  refine Triple.bind (Triple.attempt (Triple.op_works (X := fun _ => False)
    (V := fun stamp d => (Ready env directory d ∧ configPath directory ∈ d) ∧
      ∃ k, env k .now = .ok stamp) (fun n => henv n _)
    fun n _ d hreading hd => ⟨_, _, rfl, hd, n, hreading⟩)) fun stamp => ?_
  cases stamp with
  | error e => exact fun _ _ h => h.elim
  | ok stamp => exact Triple.of_and fun hnow => backupLoop_works henv hnow _

/-- **Pruning works where its names are files**: each is removed once at
most. -/
theorem pruneLoop_works (index : ℕ) (newest names : List String) :
    (pruneLoop (backupsPath directory) index newest names).Triple env
      (Prunable directory (newest ++ names)) (fun _ _ => True) (fun _ => False)
      fun _ => False := by
  induction names generalizing index newest with
  | nil => exact Triple.pure fun _ _ => trivial
  | cons name rest ih =>
      refine Triple.bind (V := fun _ => Prunable directory (newest ++ name :: rest))
        (Triple.mapError (Triple.op_works (fun n => henv n _) fun _ _ d _ hd => ⟨_, _, rfl, hd⟩))
        fun _ => ?_
      dsimp only
      split
      · -- Not the name of a backup: it is passed over.
        refine (ih _ _).pre fun d hd => ?_
        exact hd.subperm (List.Sublist.subperm (by simp))
      · have hperm := List.perm_insertionSort (fun a b : String => b ≤ a) (newest ++ [name])
        have hall : ((newest ++ [name]).insertionSort (fun a b => b ≤ a) ++ rest).Perm
            (newest ++ name :: rest) := by
          simpa using hperm.append_right rest
        -- the order of the names does not matter, that they are the same ones does
        revert hall
        generalize (newest ++ [name]).insertionSort (fun a b : String => b ≤ a) = sorted
        intro hall
        split
        · rename_i hlong
          have hne : sorted ≠ [] := by
            rintro rfl
            simp at hlong
          have hsplit := List.dropLast_append_getLast hne
          refine Triple.bind (V := fun _ => Prunable directory (sorted.dropLast ++ rest))
            (Triple.mapError (Triple.op_works (fun n => henv n _) fun _ _ d _ hd => ?_)) fun _ =>
              ih _ _
          -- the oldest name is removed, and is not among those that are left
          have hd' : Prunable directory (sorted.getLast hne :: (sorted.dropLast ++ rest)) d := by
            refine hd.subperm (List.Perm.subperm ?_)
            refine List.Perm.trans ?_ hall
            nth_rewrite 3 [← hsplit]
            rw [List.append_assoc]
            exact List.perm_middle.symm
          obtain ⟨c, hc⟩ := hd'.2 _ (List.mem_cons_self)
          unfold backupPath at hc
          rw [List.getLast?_eq_some_getLast hne, Option.getD_some, hc]
          exact ⟨_, _, rfl, hd'.erase⟩
        · refine (ih _ _).pre fun d hd => ?_
          exact hd.subperm hall.subperm

theorem pruneBackups_works :
    (pruneBackups directory).Triple env (Tidy directory) (fun _ _ => True) (fun _ => False)
      fun _ => False := by
  refine Triple.bind (pathExists_works henv) fun found => ?_
  cases found with
  | false => exact Triple.pure fun _ _ => trivial
  | true =>
      refine Triple.bind (V := fun entries => Prunable directory entries) (Triple.mapError
        (Triple.op_works (fun n => henv n _) fun _ reading d _ hd => ?_)) fun entries =>
          pruneLoop_works henv 0 [] entries
      have hdir : d.lookup (backupsPath directory) = some .dir := by
        obtain ⟨node, hnode⟩ := Option.isSome_iff_exists.1 (AList.lookup_isSome.2 (hd.2.1 rfl))
        cases node with
        | dir => exact hnode
        | file c =>
            have hread := hd.1.above (backupsPath directory) PathBuf.join_ofName_mem_ancestors
            rw [Disk.read_eq hnode] at hread
            simp at hread
      refine ⟨_, _, if_pos hdir, (arrange_perm _ _).nodup_iff.2 Disk.nodup_children,
        fun name hname => ?_⟩
      have hmem := Disk.mem_children.1 (mem_arrange.1 hname)
      obtain ⟨node, hnode⟩ := Option.isSome_iff_exists.1 (AList.lookup_isSome.2 hmem)
      cases node with
      | file c => exact ⟨c, hnode⟩
      | dir => exact absurd hnode (hd.1.backups name)

omit henv in
theorem keeps_freshStamp_of_temp {ε α : Type} {x : FileProg ε α}
    (h : ∀ q, q ≠ tempPath directory → ∀ node, x.Keeps env fun d => d.lookup q = node) :
    x.Keeps env (FreshStamp env directory) :=
  keeps_freshStamp (· = tempPath directory) h fun _ heq => tempPath_ne_backupPath heq.symm

/-- The temporary file is created and written. -/
theorem createNew_works :
    (createNew (tempPath directory)).Triple env
      (fun d => Ready env directory d ∧ tempPath directory ∉ d) (fun _ => Ready env directory)
      (fun _ => False) fun _ => False := by
  have htidy : (createNew (tempPath directory)).Triple env
      (fun d => Tidy directory d ∧ tempPath directory ∉ d) (fun _ => Tidy directory)
      (fun _ => False) fun _ => False :=
    Triple.op_works (fun n => henv n _) fun _ _ d _ hd =>
      ⟨_, _, if_neg hd.2, hd.1.insert_file writable_tempPath _⟩
  refine (Triple.and_keeps htidy (keeps_freshStamp_of_temp fun _ hq _ => keeps_createNew hq)).consequence
    (fun _ hd => ⟨⟨hd.1.tidy, hd.2⟩, hd.1.fresh⟩) fun _ _ hd => ⟨hd.1, hd.2⟩

theorem writeAll_works :
    (writeAll (tempPath directory) text.toUTF8).Triple env (Ready env directory)
      (fun _ d => Ready env directory d ∧ Staged directory text d) (fun _ => False)
      fun _ => False := by
  have hstaged : (writeAll (tempPath directory) text.toUTF8).Triple env (Tidy directory)
      (fun _ => Staged directory text) (fun _ => False) fun _ => False :=
    Triple.op_works (fun n => henv n _) fun _ _ d _ hd =>
      ⟨_, _, rfl, hd.insert_file writable_tempPath _, AList.lookup_insert _⟩
  refine (Triple.and_keeps hstaged (keeps_freshStamp_of_temp fun _ hq _ => keeps_writeAll hq)).consequence
    (fun _ hd => ⟨hd.tidy, hd.fresh⟩) fun _ _ hd => ⟨⟨hd.1.1, hd.2⟩, hd.1⟩

theorem rename_works :
    (rename (tempPath directory) (configPath directory)).Triple env (Staged directory text)
      (fun _ _ => True) (fun _ => False) fun _ => False := by
  refine Triple.op_works (fun n => henv n _) fun _ _ d _ hd => ?_
  have hdir : d.lookup (configPath directory) ≠ some .dir := by
    intro hconfig
    obtain ⟨c, hc, -⟩ := hd.1.config .dir hconfig
    simp at hc
  rw [hd.2]
  exact ⟨_, _, if_neg hdir, trivial⟩

theorem replaceFile_works :
    (replaceFile directory text).Triple env
      (fun d => Ready env directory d ∧ tempPath directory ∉ d) (fun _ _ => True)
      (fun _ => False) fun _ => False := by
  have hfree : (createDirAll directory).Keeps env fun d => tempPath directory ∉ d :=
    keeps_notMem fun _ => keeps_createDirAll (.inr PathBuf.join_ofName_notMem_ancestors)
  refine Triple.bind (Triple.mapError (Triple.and_keeps
    (createDirAll_works henv PathBuf.ancestors_subset_join) hfree)) fun _ => ?_
  refine Triple.bind (Triple.mapError (createNew_works henv)) fun _ => ?_
  refine Triple.guarded ?_ (fun _ => removeFile_uncut henv) fun _ _ h => h.elim
  refine Triple.bind (V := fun _ d => Ready env directory d ∧ Staged directory text d)
    (Triple.mapError (Triple.bind (writeAll_works henv) fun _ =>
      Triple.op_works (fun n => henv n _) fun _ _ d _ hd => ⟨_, _, rfl, hd⟩)) fun _ => ?_
  refine Triple.bind (pathExists_works henv) fun found => ?_
  cases found with
  | true =>
      -- the backup leaves the temporary file as it was written
      have hkeep : (backupCurrent directory (configPath directory)).Keeps env
        (Staged directory text) := Triple.and backupKeeps_tidy.backupCurrent
          elsewhere_tempPath.backupKeeps.backupCurrent
      refine Triple.bind ((Triple.and_keeps (backupCurrent_works henv) hkeep).consequence
        (fun d hd => ⟨⟨hd.1.1, hd.2.1 rfl⟩, hd.1.2⟩) fun _ _ hd => hd.2) fun _ => ?_
      exact Triple.mapError (rename_works henv)
  | false =>
      exact (Triple.mapError (rename_works henv)).pre fun _ hd => hd.1.2

/-- **A save with nothing in its way ends well.** -/
theorem save_works (hser : serialized home codec document = .ok text) :
    (save home codec directory document).Triple env
      (fun d => Ready env directory d ∧ tempPath directory ∉ d) (fun _ _ => True)
      (fun _ => False) fun _ => False := by
  have hlen := (serialized_cases hser).2.2
  rw [save_of_ok hser]
  refine Triple.bind ((Triple.and_keeps (replaceFile_works henv) (replaceFile_tidy hlen)).consequence
    (fun _ hd => ⟨hd, hd.1.tidy⟩) fun _ _ hd => hd.2) fun _ => ?_
  exact pruneBackups_works henv

end Works

/-- **A leftover of the temporary file stops every save.** -/
theorem save_blocked :
    (save home codec directory document).Triple env (fun d => tempPath directory ∈ d)
      (fun _ _ => False) (fun _ => True) fun _ => True := by
  refine Triple.bind (V := fun _ d => tempPath directory ∈ d)
    (Triple.liftExcept (fun _ _ _ hd => hd) fun _ _ => trivial) fun text => ?_
  refine Triple.bind (V := fun _ _ => False) ?_ fun _ _ _ h => h.elim
  have hkeep : (createDirAll directory).Keeps env fun d => tempPath directory ∈ d :=
    keeps_mem fun _ => keeps_createDirAll (.inr PathBuf.join_ofName_notMem_ancestors)
  refine Triple.bind (Triple.mapError (hkeep.triple (fun _ _ => trivial) fun _ _ => trivial))
    fun _ => ?_
  refine Triple.bind (V := fun _ _ => False) (Triple.mapError (Triple.op
    (fun _ d _ t hd hrun => ?_) (fun _ _ _ _ _ _ => trivial) (fun _ _ _ => trivial)
    fun _ _ _ => trivial)) fun _ _ _ h => h.elim
  rw [if_pos hd] at hrun
  simp at hrun

/-- **A later save recovers exactly where no temporary file is left.**
The directory is any that saves can make, the clock shows a fresh time,
and nothing fails in this save and in the load that follows. -/
theorem save_recovers_iff (hreached : Reached directory d) {c : DomainConfig}
    (hdoc : document.intoDomain home = .ok c) (htext : codec.toStringPretty document = .ok text)
    (hlen : byteLen text ≤ maxConfigBytes) (hcodec : codec.fromStr text = .ok document)
    (henv : Works env) (hfresh : FreshStamp env directory d) (hfenv : Works fenv) (n : ℕ) :
    ((save home codec directory document env (n, d)).1 = .value () ∧
      (load home codec directory fenv (save home codec directory document env (n, d)).2).1 =
        .value c) ↔ tempPath directory ∉ d := by
  have hser : serialized home codec document = .ok text := by
    unfold serialized
    rw [htext, hdoc]
    exact if_neg (by omega)
  constructor
  · rintro ⟨hsave, -⟩ hleft
    -- a save with the leftover in its way has no value to return
    have hblocked : (save home codec directory document).Triple env _ _ _ _ := save_blocked
    have hend := hblocked n d hleft
    rw [hsave] at hend
    exact hend
  · intro hfree
    have hworks := save_works henv hser n d ⟨⟨tidy_of_reached hreached, hfresh⟩, hfree⟩
    have hstores : (save home codec directory document).Triple env _ _ _ _ := save_stores env
    have hstored := hstores n d trivial
    rcases hr : save home codec directory document env (n, d) with ⟨r, m, d'⟩
    rw [hr] at hworks hstored
    cases r with
    | error e => exact hworks.elim
    | cut => exact hworks.elim
    | value u =>
        -- what the save stored is the text of this document, and loads as it
        obtain ⟨text', htext', hfile⟩ := hstored
        obtain rfl := Except.ok.inj (hser.symm.trans htext')
        obtain ⟨c', hc', hload⟩ := load_of_serialized hfenv m hser hcodec hfile
        obtain rfl := Except.ok.inj (hdoc.symm.trans hc')
        exact ⟨rfl, hload⟩

/-! ## A process that ends too early -/

/-- The process ends as it begins to write. -/
def endsWriting : Verdicts FileOp IoError := fun k _ => if k = 2 then .crash 0 else .ok 0

/-- The directory a first save makes. -/
def savedOnce : Disk := (save none defaultCodec appDirectory {} working (0, ∅)).2.2

/-- The directory a first save leaves that is cut off. -/
def leftover : Disk := (save none defaultCodec appDirectory {} endsWriting (0, ∅)).2.2

theorem empty_appDirectory : Empty appDirectory ∅ :=
  ⟨fun _ _ => rfl, fun _ _ => AList.notMem_empty _⟩

theorem reached_savedOnce : Reached appDirectory savedOnce :=
  (Reached.empty empty_appDirectory).save none defaultCodec {} working 0

theorem reached_leftover : Reached appDirectory leftover :=
  (Reached.empty empty_appDirectory).save none defaultCodec {} endsWriting 0

/-- Where nothing is in `backups/`, every stamp is fresh. -/
theorem freshStamp_of_keys (h : ∀ q ∈ d.keys, q.components.length ≤ 4) :
    FreshStamp env appDirectory d := by
  have hfree (name : String) : backupPath appDirectory name ∉ d := by
    intro hmem
    have hlen := h _ (AList.mem_keys.1 hmem)
    simp [backupPath, backupsPath, PathBuf.join_ofName, appDirectory] at hlen
  exact fun _ _ _ _ => ⟨hfree _, hfree _⟩

/-- The criterion for a second save. -/
theorem save_recovers_iff_savedOnce :
    ((save none defaultCodec appDirectory {} working (0, savedOnce)).1 = .value () ∧
      (load none defaultCodec appDirectory working
        (save none defaultCodec appDirectory {} working (0, savedOnce)).2).1 = .value {}) ↔
      tempPath appDirectory ∉ savedOnce :=
  save_recovers_iff reached_savedOnce rfl
    (show defaultCodec.toStringPretty {} = .ok defaultText by decide +kernel) (by decide +kernel)
    (by decide +kernel) works_working (freshStamp_of_keys (by decide +kernel)) works_working 0

/-- **No save after a crash**: the temporary file of the first save is in
the way of the second. -/
theorem leftover_not_recovered :
    Reached appDirectory leftover ∧ Works working ∧ FreshStamp working appDirectory leftover ∧
    (({} : ConfigDocument).intoDomain none).isOk = true ∧
    defaultCodec.toStringPretty {} = .ok defaultText ∧ byteLen defaultText ≤ maxConfigBytes ∧
    (save none defaultCodec appDirectory {} working (0, leftover)).1 =
      .error (.io (tempPath appDirectory) ⟨.alreadyExists, "entity already exists"⟩) :=
  ⟨reached_leftover, works_working, freshStamp_of_keys (by decide +kernel), by decide +kernel,
    by decide +kernel, by decide +kernel, by decide +kernel⟩

end ConfigStore

end TunnelWarden
