import Mathlib.Algebra.Group.Nat.Defs
import TunnelWarden.Store.Model.Save

/-!
# The three stores a saved configuration goes to

The configuration file, the keyring of the operating system and the
login-startup entry of the user, with `SecretStore` and
`set_run_at_login` of the `config-store` crate (the Windows build) and
the manager's `persist_config`, which writes all three and takes back
what it did where a later one fails.
-/

namespace TunnelWarden

/-- Everything a save writes to. -/
structure Stores where
  disk : Disk := ∅
  /-- The secrets under the program's service name. -/
  keyring : AList fun _ : SecretRef => String := ∅
  /-- Does the user's Run key hold the program? -/
  login : Bool := false

/-- The operations on the stores. -/
inductive StoreOp where
  | file (op : FileOp)
  | keyringSet (reference : SecretRef)
  | keyringDelete (reference : SecretRef)
  | currentExe (enabled : Bool)
  | registryRun (enabled : Bool)
  deriving DecidableEq

/-- A program over the stores. -/
abbrev StoreProg (ε α : Type) := Prog StoreOp IoError Stores ε α

namespace StoreProg

/-- An operation that does nothing unless it works. -/
def step {α : Type} (o : StoreOp) (run : ℕ → Stores → Except IoError α × Stores) :
    StoreProg IoError α :=
  Prog.op o run fun _ w => w

/-- A program of file operations, over all the stores. -/
def onDisk {ε α : Type} (x : FileProg ε α) : StoreProg ε α :=
  x.zoom .file Stores.disk fun d w => { w with disk := d }

end StoreProg

/-! ## The keyring -/

namespace SecretStore

def maxSecretBytes : ℕ := 16 * 1024

inductive Error where
  | invalidReference
  | tooLarge
  | keyring (source : IoError)
  deriving DecidableEq

/-- The text of a keyring error. -/
def Error.display : Error → String
  | invalidReference => "invalid credential reference"
  | tooLarge => "credential exceeds 16 KiB"
  | keyring source => "Windows Credential Manager or system keyring failed: " ++ source.text

/-- The references `entry` accepts. -/
def validReference (r : SecretRef) : Bool :=
  r.val != "" && byteLen r.val ≤ 128 &&
    r.val.toList.all fun c => c.isAlphanum || c == '-' || c == '_'

/-- `SecretStore::save`. -/
def save (r : SecretRef) (secret : String) : StoreProg Error Unit :=
  if maxSecretBytes < byteLen secret then Prog.throw .tooLarge
  else if !validReference r then Prog.throw .invalidReference
  else (StoreProg.step (.keyringSet r) fun _ w =>
    (.ok (), { w with keyring := w.keyring.insert r secret })).mapError .keyring

/-- `SecretStore::delete`. -/
def delete (r : SecretRef) : StoreProg Error Unit :=
  if !validReference r then Prog.throw .invalidReference
  else (StoreProg.step (.keyringDelete r) fun _ w =>
    if r ∈ w.keyring then (.ok (), { w with keyring := w.keyring.erase r })
    else (.error ⟨.notFound, "No matching entry found in secure storage"⟩, w)).mapError .keyring

end SecretStore

/-! ## Starting at login -/

inductive StartupError where
  | executable (source : IoError)
  | registry (source : IoError)
  | tooLong
  deriving DecidableEq

/-- The text of a login-startup error. -/
def StartupError.display : StartupError → String
  | executable source => "could not determine TunnelWarden executable: " ++ source.text
  | registry source => "Windows login startup registry operation failed: " ++ source.text
  | tooLong => "login startup command is too long"

/-- The length of `login_command` in UTF-16 units: the path in quotes,
and the flag. -/
def loginCommandLen (executable : ℕ) : ℕ := 1 + executable + "\" --background\x00".length

/-- `set_run_at_login`. `current_exe` reads the length of the path; the
registry says that it worked, also of a value that was not there to
delete. -/
def setRunAtLogin (enabled : Bool) : StoreProg StartupError Unit := do
  let executable ← (StoreProg.step (.currentExe enabled) fun reading w =>
    (.ok reading, w)).mapError .executable
  if enabled ∧ 2 ^ 32 ≤ loginCommandLen executable * 2 then Prog.throw .tooLong
  else (StoreProg.step (.registryRun enabled) fun _ w =>
    (.ok (), { w with login := enabled })).mapError .registry

/-! ## Saving to all three -/

/-- A secret to store under a new reference. -/
structure SecretUpdate where
  reference : SecretRef
  value : String
  deriving DecidableEq

/-- Take a stored secret back. Whether that works is not looked at. -/
def forgetSecret {ε : Type} : Option SecretUpdate → StoreProg ε Unit
  | none => pure ()
  | some secret => do
    let _ ← (SecretStore.delete secret.reference).attempt
    pure ()

/-- Store the secret, where there is one. -/
def keepSecret : Option SecretUpdate → StoreProg String Unit
  | none => pure ()
  | some secret => (SecretStore.save secret.reference secret.value).mapError SecretStore.Error.display

/-- Set login startup where the flag changes, and take the secret back
where that fails. -/
def changeLogin (secret : Option SecretUpdate) (new old : Bool) : StoreProg String Unit :=
  if new ≠ old then do
    match ← (setRunAtLogin new).attempt with
    | .ok () => pure ()
    | .error error =>
      forgetSecret secret
      Prog.throw error.display
  else pure ()

/-- What comes before the file: the secret, then login startup. -/
def prepare (secret : Option SecretUpdate) (new old : Bool) : StoreProg String Unit := do
  keepSecret secret
  changeLogin secret new old

/-- What follows a failed save: the secret and the flag are put back. -/
def rollBack (secret : Option SecretUpdate) (new old : Bool) (error : ConfigStoreError) :
    StoreProg String Unit := do
  forgetSecret secret
  if new ≠ old then
    match ← (setRunAtLogin old).attempt with
    | .ok () => Prog.throw error.display
    | .error rollback =>
      Prog.throw (error.display ++ "; could not restore login startup setting: " ++ rollback.display)
  else Prog.throw error.display

/-- The file, and the way back where it cannot be saved. -/
def saveOrRollBack (home : Option PathBuf) (codec : Codec) (directory : PathBuf)
    (secret : Option SecretUpdate) (new old : Bool) (document : ConfigDocument) :
    StoreProg String Unit := do
  match ← (StoreProg.onDisk (ConfigStore.save home codec directory document)).attempt with
  | .ok () => pure ()
  | .error error => rollBack secret new old error

/-- `TunnelManager::persist_config`. -/
def persistConfig (home : Option PathBuf) (codec : Codec) (directory : PathBuf)
    (config : DomainConfig) (secret : Option SecretUpdate) (oldRunAtLogin : Bool) :
    StoreProg String Unit := do
  let runAtLogin := config.app.runAtStartup
  let document ← Prog.liftExcept
    ((ConfigDocument.tryFrom config).mapError ConfigValidationError.display)
  prepare secret runAtLogin oldRunAtLogin
  saveOrRollBack home codec directory secret runAtLogin oldRunAtLogin document

end TunnelWarden
