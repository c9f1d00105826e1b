import TunnelWarden.Manager.Model.Step
import TunnelWarden.Ssh.Model.HostKey

/-!
# Handshakes, their prompts and the manager

`check_server_key` beside the manager's loop. Any number of handshakes
look at the `known_hosts` files, ask the user through the channel of the
manager and save what is trusted under one lock. A handshake is known by
its number in the order in which they began, and its place is the await
it has reached: everything between two awaits, and each look at a file,
is one step. Others may add lines to the files at any time.
-/

namespace TunnelWarden

namespace Manager

open Ssh

/-- Where a call of `check_server_key` is. -/
inductive Control where
  /-- In the first loop, with the files still to be read. -/
  | checking (rest : List PathBuf) (found : Bool)
  /-- The prompt is sent. -/
  | waiting (approval : HostKeyApproval)
  /-- The answer is there. -/
  | answered (approval : HostKeyApproval) (decision : HostKeyDecision)
  /-- In the blocking task, with the files still to be read again. The
  task goes on where the future that waits for it is dropped. -/
  | rechecking (savePath : PathBuf) (rest : List PathBuf) (attached : Bool)
  /-- The blocking task has ended, the lock is still held. -/
  | saved (result : Except HostKeyError Unit)
  | done (result : Except HostKeyError Bool)
  /-- The future was dropped. -/
  | dropped
  deriving DecidableEq

/-- A call of `check_server_key`. -/
structure Handshake where
  verifier : HostKeyVerifier
  serverKey : PublicKeyOrCertificate
  control : Control
  deriving DecidableEq

def Handshake.key (h : Handshake) : PublicKey := h.serverKey.key

/-- The prompt of the handshake with number `k`. -/
def Handshake.prompt (h : Handshake) (k : ℕ) : HostKeyPrompt :=
  ⟨h.verifier.host, h.verifier.port, h.key.algorithm, h.key.fingerprint, k⟩

structure System where
  /-- The `known_hosts` files that are there. -/
  files : Map PathBuf (List String) := ∅
  /-- Who holds `host_key_save_lock`. -/
  saveLock : Option ℕ := none
  handshakes : List Handshake := []
  /-- The prompts in the channel to the manager. -/
  prompts : List HostKeyPrompt := []
  /-- The receiving end of the channel is there. -/
  channelOpen : Bool := true
  manager : World

namespace System

inductive Input where
  /-- A handshake reaches the server's key. -/
  | connect (verifier : HostKeyVerifier) (serverKey : PublicKeyOrCertificate)
  /-- A handshake goes on to its next await or file. -/
  | advance (k : ℕ) (look : Look)
  /-- The future of a handshake is dropped. -/
  | drop (k : ℕ)
  /-- The manager's loop takes a prompt from the channel. -/
  | receive
  /-- Anything else that reaches the manager. -/
  | manage (input : Manager.Input)
  /-- `run` has returned, and the manager is gone. -/
  | close
  /-- Somebody else adds a line to a file. -/
  | append (path : PathBuf) (line : String)

/-- What is seen of a step. -/
inductive Event where
  | asked (k : ℕ)
  | heard (k : ℕ) (decision : HostKeyDecision)
  | ended (k : ℕ) (result : Except HostKeyError Bool)
  deriving DecidableEq

def setControl (k : ℕ) (control : Control) (s : System) : System :=
  { s with handshakes := s.handshakes.modify k fun h => { h with control } }

/-- The handshake returns. -/
def finish (k : ℕ) (result : Except HostKeyError Bool) (s : System) : Option Event × System :=
  (some (.ended k result), s.setControl k (.done result))

/-- A line is added to a file, which is made where there is none. -/
def appendLine (path : PathBuf) (line : String) (s : System) : System :=
  { s with files := s.files.insert path ((s.files.lookup path).getD [] ++ [line]) }

/-- The guard of the lock is dropped. -/
def unlock (s : System) : System := { s with saveLock := none }

/-- The beginning of `check_server_key`. -/
def connect (verifier : HostKeyVerifier) (serverKey : PublicKeyOrCertificate) (s : System) :
    Option Event × System :=
  let begin (control : Control) : System :=
    { s with handshakes := s.handshakes ++ [⟨verifier, serverKey, control⟩] }
  let ended (result : Except HostKeyError Bool) : Option Event × System :=
    (some (.ended s.handshakes.length result), begin (.done result))
  if verifier.policy = .bypass then ended (.ok true)
  else match serverKey with
    | .certificate _ => ended (.error (.unsupportedCertificate verifier.host verifier.port))
    | .publicKey _ => (none, begin (.checking verifier.paths false))

/-- `try_send` of the prompt. -/
def ask (k : ℕ) (h : Handshake) (approval : HostKeyApproval) (s : System) :
    Option Event × System :=
  if !s.channelOpen || maxHostKeyPrompts ≤ s.prompts.length then
    s.finish k (.error (.approvalUnavailable h.verifier.host h.verifier.port))
  else
    (some (.asked k),
      { s with prompts := s.prompts ++ [h.prompt k] }.setControl k (.waiting approval))

/-- The sender of the reply to `k` is still there. -/
def holdsReply (k : ℕ) (s : System) : Bool :=
  k ∈ s.prompts.map HostKeyPrompt.reply || k ∈ s.manager.pendingHostKeys.map PendingHostKey.reply

/-- A look at the answer. A reply that is dropped is a `Cancel`. -/
def hear (k : ℕ) (approval : HostKeyApproval) (s : System) : Option Event × System :=
  match s.manager.decisions.find? fun d => d.1 = k with
  | some (_, decision) => (some (.heard k decision), s.setControl k (.answered approval decision))
  | none =>
    if s.holdsReply k then (none, s)
    else (some (.heard k .cancel), s.setControl k (.answered approval .cancel))

/-- The blocking task ends. Where nobody waits for it any more, its
result is lost. -/
def settle (k : ℕ) (attached : Bool) (result : Except HostKeyError Unit) (s : System) :
    Option Event × System :=
  (none, s.setControl k (if attached then .saved result else .dropped))

variable (known : KnownHosts)

/-- A handshake goes on. -/
def advance (k : ℕ) (look : Look) (s : System) : Option Event × System :=
  match s.handshakes[k]? with
  | none => (none, s)
  | some h =>
    match h.control with
    | .checking (path :: rest) found =>
      match h.verifier.checkPath known h.key path (s.files.lookup path) look with
      | .error error => s.finish k (.error error)
      | .ok matched => (none, s.setControl k (.checking rest (found || matched)))
    | .checking [] true => s.finish k (.ok true)
    | .checking [] false =>
      match h.verifier.approval with
      | none =>
        s.finish k (.error (.unknown h.verifier.host h.verifier.port h.key.fingerprint))
      | some approval => s.ask k h approval
    | .waiting approval => s.hear k approval
    -- the files are not read again
    | .answered _ .trustOnce => s.finish k (.ok true)
    | .answered approval .trustAndSave =>
      -- `save_lock.lock().await`
      if s.saveLock.isSome then (none, s)
      else
        (none, { s with saveLock := some k }.setControl k
          (.rechecking approval.savePath h.verifier.paths true))
    | .answered _ .cancel =>
      s.finish k (.error (.declined h.verifier.host h.verifier.port))
    | .rechecking savePath (path :: rest) attached =>
      match h.verifier.recheckPath known h.key path (s.files.lookup path) look with
      | .error error => s.settle k attached (.error error)
      -- a match ends the loop, with the rest of the files unread
      | .ok true => s.settle k attached (.ok ())
      | .ok false => (none, s.setControl k (.rechecking savePath rest attached))
    | .rechecking savePath [] attached =>
      match look.access with
      | some text => s.settle k attached (.error (.invalidKnownHosts savePath text))
      | none =>
        (s.appendLine savePath (known.entry h.verifier.host h.verifier.port h.key)).settle k
          attached (.ok ())
    | .saved result => s.unlock.finish k (result.map fun _ => true)
    | .done _ | .dropped => (none, s)

/-- The future of a handshake is dropped, with what it owns: the end of
the reply it waits for, or the guard of the lock. -/
def drop (home : Option PathBuf) (codec : Codec) (k : ℕ) (s : System) : System :=
  match s.handshakes[k]? with
  | none => s
  | some h =>
    match h.control with
    | .checking .. | .answered .. => s.setControl k .dropped
    | .waiting _ =>
      { s with manager := (s.manager.step home codec (.giveUp k)).2 }.setControl k .dropped
    | .rechecking savePath rest true => s.unlock.setControl k (.rechecking savePath rest false)
    | .saved _ => s.unlock.setControl k .dropped
    | .rechecking _ _ false | .done _ | .dropped => s

/-- One input. Prompts reach the manager through the channel alone, and
what is in the channel when the manager goes is dropped with it. -/
def step (home : Option PathBuf) (codec : Codec) (s : System) (input : Input) :
    Option Event × System :=
  match input with
  | .connect verifier serverKey => s.connect verifier serverKey
  | .advance k look => s.advance known k look
  | .drop k => (none, s.drop home codec k)
  | .receive =>
    match s.prompts with
    | [] => (none, s)
    | prompt :: rest =>
      if s.manager.running then
        (none, { s with
          prompts := rest, manager := (s.manager.step home codec (.prompt prompt)).2 })
      else (none, s)
  | .manage (.prompt _) | .manage (.giveUp _) => (none, s)
  | .manage input => (none, { s with manager := (s.manager.step home codec input).2 })
  | .close =>
    if s.manager.running then (none, s) else (none, { s with prompts := [], channelOpen := false })
  | .append path line => (none, s.appendLine path line)

/-- The manager's loop begins, with these files. -/
def launch (files : Map PathBuf (List String)) (manager : World) : System := { files, manager }

end System

end Manager

end TunnelWarden
