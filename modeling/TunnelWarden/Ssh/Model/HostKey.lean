import TunnelWarden.Supervisor.Model.Errors

/-!
# What the files say about a host key

The part of `HostKeyVerifier::check_server_key` that looks at one
`known_hosts` file. A file is the list of its lines. What `russh` reads
from the lines, and the line it writes for a key, are given from
outside, as is what the file system answers about a file that is there.
-/

namespace TunnelWarden

namespace Ssh

/-- `russh::keys::PublicKey`: its algorithm, its fingerprint and its
encoding. -/
structure PublicKey where
  algorithm : String
  fingerprint : String
  encoded : String
  deriving DecidableEq, Repr

/-- What a server shows: a key, or a certificate for one. -/
inductive PublicKeyOrCertificate where
  | publicKey (key : PublicKey)
  | certificate (key : PublicKey)
  deriving DecidableEq, Repr

def PublicKeyOrCertificate.key : PublicKeyOrCertificate → PublicKey
  | .publicKey key => key
  | .certificate key => key

/-- What `check_known_hosts_path` returns: whether the key is there,
`KeyChanged`, or another error. -/
inductive KnownHostsReport where
  | known (matched : Bool)
  | changed (line : ℕ)
  | invalid (text : String)
  deriving DecidableEq, Repr

/-- `russh::keys::known_hosts`: what the lines of a file say about a key
of a host and port, what is said of a file that cannot be opened or read,
by the text of the error, and the line `learn_known_hosts_path`
appends. -/
structure KnownHosts where
  check : String → ℕ → PublicKey → List String → KnownHostsReport
  unreadable : String → ℕ → PublicKey → String → KnownHostsReport
  entry : String → ℕ → PublicKey → String

/-- An error of the file system that is not `NotFound`. -/
structure Refusal where
  error : IoError
  other : error.kind ≠ .notFound

structure Metadata where
  isFile : Bool
  len : ℕ

/-- How the file system answers a look at a file that is there: its
metadata, and the error with which opening, reading or writing it
ends. -/
structure Look where
  metadata : Except Refusal Metadata := .ok ⟨true, 0⟩
  access : Option String := none

/-- `fs::metadata` of a path. -/
def Look.metadataOf (look : Look) (file : Option (List String)) : Except IoError Metadata :=
  match look.metadata, file with
  | .error refusal, _ => .error refusal.error
  | .ok metadata, some _ => .ok metadata
  | .ok _, none => .error ⟨.notFound, "entity not found"⟩

/-- Where the keys trusted by the user are saved. The channel and the
lock that go with it are those of the manager. -/
structure HostKeyApproval where
  savePath : PathBuf
  deriving DecidableEq, Repr

structure HostKeyVerifier where
  host : String
  port : ℕ
  paths : List PathBuf
  policy : HostKeyPolicy
  approval : Option HostKeyApproval
  deriving DecidableEq, Repr

/-- A `known_hosts` path, with what is found there when it is looked at. -/
structure KnownHostsFile where
  path : PathBuf
  file : Option (List String)
  look : Look

/-- Where a check of a server's key stands before the user is heard. -/
inductive KeyVerdict where
  | accepted
  | prompted (host : String) (port : ℕ) (algorithm fingerprint : String)
  | failed (error : HostKeyError)
  deriving DecidableEq

namespace HostKeyVerifier

variable (known : KnownHosts)

/-- `check_known_hosts_path` on a file that was found. -/
def report (v : HostKeyVerifier) (key : PublicKey) (file : Option (List String)) (look : Look) :
    KnownHostsReport :=
  match look.access with
  | some text => known.unreadable v.host v.port key text
  | none => known.check v.host v.port key (file.getD [])

/-- One round of a loop over the files. `regular` is whether the file
must be a regular one. A file that is not there knows no key. -/
def checkFile (regular : Bool) (v : HostKeyVerifier) (key : PublicKey) (path : PathBuf)
    (file : Option (List String)) (look : Look) : Except HostKeyError Bool :=
  match look.metadataOf file with
  | .error source =>
    if source.kind = .notFound then .ok false else .error (.knownHostsIo path source)
  | .ok metadata =>
    if regular && !metadata.isFile then
      .error (.knownHostsIo path ⟨.invalidData, "expected a regular file"⟩)
    else if maxKnownHostsBytes < metadata.len then .error (.knownHostsTooLarge path)
    else match v.report known key file look with
      | .known matched => .ok matched
      | .changed line => .error (.changed v.host v.port path line)
      | .invalid source => .error (.invalidKnownHosts path source)

/-- The round of the first loop. -/
def checkPath : HostKeyVerifier → PublicKey → PathBuf → Option (List String) → Look →
    Except HostKeyError Bool := checkFile known true

/-- The round of the loop before a key is saved. It takes any kind of
file. -/
def recheckPath : HostKeyVerifier → PublicKey → PathBuf → Option (List String) → Look →
    Except HostKeyError Bool := checkFile known false

/-- The first loop: a fault or a changed key ends it, a match does not. -/
def firstLoop (v : HostKeyVerifier) (key : PublicKey) (found : Bool) :
    List KnownHostsFile → Except HostKeyError Bool
  | [] => .ok found
  | f :: rest =>
    match v.checkPath known key f.path f.file f.look with
    | .error error => .error error
    | .ok matched => firstLoop v key (found || matched) rest

/-- No file knows the key: the user is asked, where there is a channel
for it with room. -/
def askUser (v : HostKeyVerifier) (key : PublicKey) (room : Bool) : KeyVerdict :=
  match v.approval with
  | none => .failed (.unknown v.host v.port key.fingerprint)
  | some _ =>
    if room then .prompted v.host v.port key.algorithm key.fingerprint
    else .failed (.approvalUnavailable v.host v.port)

/-- `check_server_key`, up to the answer of the user. The files are those
of `paths`, in order; `room` is whether the prompt can be sent. -/
def checkServerKey (v : HostKeyVerifier) (serverKey : PublicKeyOrCertificate)
    (files : List KnownHostsFile) (room : Bool) : KeyVerdict :=
  if v.policy = .bypass then .accepted
  else match serverKey with
    | .certificate _ => .failed (.unsupportedCertificate v.host v.port)
    | .publicKey key =>
      match v.firstLoop known key false files with
      | .error error => .failed error
      | .ok true => .accepted
      | .ok false => v.askUser key room

end HostKeyVerifier

end Ssh

end TunnelWarden
