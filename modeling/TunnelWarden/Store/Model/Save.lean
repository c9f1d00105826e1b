import Mathlib.Data.List.Sort
import TunnelWarden.Common.Files
import TunnelWarden.Store.Model.Schema

/-!
# The configuration directory

`ConfigStore` of the `config-store` crate: `config.toml` is replaced
through a synced temporary file, the file it replaces is kept under
`backups/`, and the oldest backups go. The TOML text is the work of a
`Codec`, which stands for the `toml` crate.
-/

namespace TunnelWarden

/-- `toml::to_string_pretty` and `toml::from_str`, with the texts of
their errors. -/
structure Codec where
  toStringPretty : ConfigDocument → Except String String
  fromStr : String → Except String ConfigDocument

def maxConfigBytes : ℕ := 4 * 1024 * 1024
def maxBackups : ℕ := 5

inductive ConfigStoreError where
  | tooLarge
  | io (path : PathBuf) (source : IoError)
  | parse (text : String)
  | serialize (text : String)
  | validation (error : ConfigValidationError)
  | backupNameConflict
  deriving DecidableEq

/-- The text of a store error. -/
def ConfigStoreError.display : ConfigStoreError → String
  | tooLarge => "configuration file exceeds 4 MiB"
  | io path source => "configuration I/O at " ++ path.display ++ ": " ++ source.text
  | parse text => "invalid TOML configuration: " ++ text
  | serialize text => "cannot serialize configuration: " ++ text
  | validation error => error.display
  | backupNameConflict => "too many backup names share the current timestamp"

namespace ConfigStore

open FileProg

/-- The file the configuration is in. -/
def configPath (directory : PathBuf) : PathBuf := directory.join (.ofName "config.toml")

/-- The file a new configuration is written to first. -/
def tempPath (directory : PathBuf) : PathBuf := directory.join (.ofName "config.toml.tmp")

/-- Where the replaced configurations are kept. -/
def backupsPath (directory : PathBuf) : PathBuf := directory.join (.ofName "backups")

/-- `io_error`, for the error of an operation at `path`. -/
def ioAt {α : Type} (path : PathBuf) (x : FileProg IoError α) : FileProg ConfigStoreError α :=
  x.mapError (.io path)

/-! ## Loading -/

/-- `ConfigStore::read_file`, of a file that is open. -/
def readFile (home : Option PathBuf) (codec : Codec) (path : PathBuf) :
    FileProg ConfigStoreError DomainConfig := do
  let bytes ← ioAt path (readToString path (maxConfigBytes + 1))
  if maxConfigBytes < byteLen bytes then Prog.throw .tooLarge
  else
    let document ← Prog.liftExcept ((codec.fromStr bytes).mapError .parse)
    Prog.liftExcept ((document.intoDomain home).mapError .validation)

/-- `ConfigStore::load`: a missing file is the default configuration. -/
def load (home : Option PathBuf) (codec : Codec) (directory : PathBuf) :
    FileProg ConfigStoreError DomainConfig := do
  let path := configPath directory
  match ← (openFile path).attempt with
  | .ok () => readFile home codec path
  | .error source =>
    if source.kind = .notFound then
      Prog.liftExcept ((({} : ConfigDocument).intoDomain home).mapError .validation)
    else Prog.throw (.io path source)

/-- `ConfigStore::import_file`. -/
def importFile (home : Option PathBuf) (codec : Codec) (path : PathBuf) :
    FileProg ConfigStoreError DomainConfig := do
  ioAt path (openFile path)
  readFile home codec path

/-! ## Backups -/

/-- The name of a backup with the given stamp and suffix. -/
def backupName (stamp suffix : ℕ) : String :=
  "config-" ++ digits 10 stamp ++ "-" ++ digits 10 suffix ++ ".toml"

/-- The loop over the suffixes: the first name that is free, and whose
staging file is free, takes the copy. -/
def backupLoop (directory path : PathBuf) (stamp : ℕ) :
    List ℕ → FileProg ConfigStoreError Unit
  | [] => Prog.throw .backupNameConflict
  | suffix :: rest => do
    let backup := (backupsPath directory).join (.ofName (backupName stamp suffix))
    if ← pathExists backup then backupLoop directory path stamp rest
    else
      let staged := (backupsPath directory).join (.ofName (backupName stamp suffix ++ ".tmp"))
      ioAt path (openFile path)
      match ← (createNew staged).attempt with
      | .error error =>
        if error.kind = .alreadyExists then backupLoop directory path stamp rest
        else Prog.throw (.io staged error)
      | .ok () =>
        Prog.guarded (removeFile staged) do
          ioAt staged (copy path staged)
          ioAt staged (syncAll staged)
          ioAt backup (rename staged backup)

/-- `ConfigStore::backup_current`. A clock before the epoch reads as 0. -/
def backupCurrent (directory path : PathBuf) : FileProg ConfigStoreError Unit := do
  let size ← ioAt path (metadataLen path)
  if maxConfigBytes < size then Prog.throw .tooLarge
  else
    ioAt (backupsPath directory) (createDirAll (backupsPath directory))
    let stamp ← now.attempt
    backupLoop directory path (stamp.toOption.getD 0) (List.range 10)

/-- Is this the name of a backup? -/
def isBackupName (name : String) : Bool :=
  "config-".toList.isPrefixOf name.toList && ".toml".toList.isSuffixOf name.toList

/-- The loop over the entries of the directory. `newest` holds the
newest names so far, the newest first. -/
def pruneLoop (backups : PathBuf) : ℕ → List String → List String → FileProg ConfigStoreError Unit
  | _, _, [] => pure ()
  | index, newest, name :: rest => do
    ioAt backups (readEntry backups index)
    if !isBackupName name then pruneLoop backups (index + 1) newest rest
    else
      let newest := (newest ++ [name]).insertionSort fun a b => b ≤ a
      if maxBackups < newest.length then
        let oldest := backups.join (.ofName (newest.getLast?.getD ""))
        ioAt oldest (removeFile oldest)
        pruneLoop backups (index + 1) newest.dropLast rest
      else pruneLoop backups (index + 1) newest rest

/-- `ConfigStore::prune_backups`. -/
def pruneBackups (directory : PathBuf) : FileProg ConfigStoreError Unit := do
  let backups := backupsPath directory
  if ← pathExists backups then
    let entries ← ioAt backups (readDir backups)
    pruneLoop backups 0 [] entries

/-! ## Saving -/

/-- The checks that come before any file is touched. -/
def serialized (home : Option PathBuf) (codec : Codec) (document : ConfigDocument) :
    Except ConfigStoreError String := do
  let text ← (codec.toStringPretty document).mapError .serialize
  let _ ← (document.intoDomain home).mapError .validation
  if maxConfigBytes < byteLen text then .error .tooLarge else .ok text

/-- The replacement of the file: written beside it, synced, and renamed
over it once the old content is backed up. -/
def replaceFile (directory : PathBuf) (text : String) : FileProg ConfigStoreError Unit := do
  ioAt directory (createDirAll directory)
  let path := configPath directory
  let temp := tempPath directory
  ioAt temp (createNew temp)
  Prog.guarded (removeFile temp) do
    ioAt temp (writeAll temp text.toUTF8 >>= fun _ => syncAll temp)
    if ← pathExists path then backupCurrent directory path
    ioAt path (rename temp path)

/-- `ConfigStore::save`. -/
def save (home : Option PathBuf) (codec : Codec) (directory : PathBuf)
    (document : ConfigDocument) : FileProg ConfigStoreError Unit := do
  let text ← Prog.liftExcept (serialized home codec document)
  replaceFile directory text
  pruneBackups directory

/-- The text an export writes, and the checks before it. -/
def exported (home : Option PathBuf) (codec : Codec) (config : DomainConfig) :
    Except ConfigStoreError String := do
  let document ← (ConfigDocument.tryFrom config).mapError .validation
  let _ ← (document.intoDomain home).mapError .validation
  let text ← (codec.toStringPretty document).mapError .serialize
  if maxConfigBytes < byteLen text then .error .tooLarge else .ok text

/-- `ConfigStore::export_file`. A file that cannot be written is removed
again. -/
def exportFile (home : Option PathBuf) (codec : Codec) (path : PathBuf) (config : DomainConfig) :
    FileProg ConfigStoreError Unit := do
  let text ← Prog.liftExcept (exported home codec config)
  ioAt path (createNew path)
  match ← (writeAll path text.toUTF8 >>= fun _ => syncAll path).attempt with
  | .ok () => pure ()
  | .error source =>
    let _ ← (removeFile path).attempt
    Prog.throw (.io path source)

end ConfigStore

end TunnelWarden
