import TunnelWarden.Import.Model.Preview
import TunnelWarden.Manager.Model.Step

/-!
# The window and its copy of the configuration

A `Workspace` edits a copy of the configuration. It is taken from what
the manager publishes when the window opens, a save sends the whole of
it with one change, and a save that succeeds makes the saved one the new
copy. Windows are numbered in the order in which they open. The forms
are left out: an edit begins with what was entered.
-/

namespace TunnelWarden

namespace App

open Manager

/-! ## Edits -/

/-- `str::eq_ignore_ascii_case`. -/
def eqIgnoreAsciiCase (a b : String) : Bool :=
  a.toList.map Char.toLower = b.toList.map Char.toLower

/-- A host offered by the import of an OpenSSH configuration. -/
structure SshEntry where
  «alias» : String
  host : SshHost
  selected : Bool
  deriving DecidableEq, Repr

/-- What the user can do to the configuration. -/
inductive Edit where
  | host (host : SshHost) (secret : Option SecretUpdate)
  | tunnel (tunnel : TunnelConfig)
  | group (id : GroupId) (name : String)
  | deleteGroup (id : GroupId)
  | moveGroup (id : GroupId) (direction : ℤ)
  | runAtLogin
  | closeMode
  | importConfig (config : DomainConfig)
  | importSsh (entries : List SshEntry)

/-- Why the window does not send an edit, with the text it shows, if
any. -/
abbrev Refusal := Option String

/-- Replace the item with the same key, or add it. -/
def upsert {α κ : Type} [DecidableEq κ] (key : α → κ) (items : List α) (item : α) : List α :=
  match items.findIdx? fun old => key old = key item with
  | some index => items.set index item
  | none => items ++ [item]

/-- The check of a configuration before it is sent. -/
def checked (home : Option PathBuf) (config : DomainConfig) : Except Refusal DomainConfig :=
  match (ConfigDocument.tryFrom config).bind (ConfigDocument.intoDomain home) with
  | .error error => .error (some error.display)
  | .ok _ => .ok config

/-- `Workspace::save_group`, with the name as it was entered. -/
def saveGroup (id : GroupId) (entered : String) (current : DomainConfig) :
    Except Refusal DomainConfig :=
  let name := trim entered
  if name = "" then .error (some "Group name is required")
  else if current.groups.any fun group => group.id ≠ id && eqIgnoreAsciiCase group.name name then
    .error (some "A group with this name already exists")
  else match current.groups.findIdx? fun group => group.id = id with
    | some index =>
      .ok { current with groups := current.groups.modify index fun group => { group with name } }
    | none =>
      let order := min ((current.groups.map TunnelGroup.sortOrder).max?.getD 0 + 1) (2 ^ 32 - 1)
      .ok { current with groups := current.groups ++ [⟨id, name, order⟩] }

/-- `Workspace::delete_group`. -/
def deleteGroup (id : GroupId) (current : DomainConfig) : DomainConfig :=
  { current with
    groups := current.groups.filter fun group => group.id ≠ id
    tunnels := current.tunnels.map fun tunnel =>
      if tunnel.groupId = some id then { tunnel with groupId := none } else tunnel }

/-- `slice::swap`. -/
def swap {α : Type} (items : List α) (i j : ℕ) : List α :=
  match items[i]?, items[j]? with
  | some a, some b => (items.set i b).set j a
  | _, _ => items

/-- `Workspace::move_group`. -/
def moveGroup (id : GroupId) (direction : ℤ) (current : DomainConfig) :
    Except Refusal DomainConfig :=
  let groups := current.groups.insertionSort fun a b => a.sortOrder ≤ b.sortOrder
  match groups.findIdx? fun group => group.id = id with
  | none => .error none
  | some index =>
    let target := (index : ℤ) + direction
    if target < 0 ∨ (groups.length : ℤ) ≤ target then .error none
    else .ok { current with
      groups := (swap groups index target.toNat).mapIdx fun order group =>
        { group with sortOrder := order } }

/-- The first free id and name of an imported host, from a suffix on. -/
def freeName (hosts : List SshHost) (host : SshHost) : ℕ → ℕ → Option (HostId × String)
  | _, 0 => none
  | suffix, fuel + 1 =>
    let id : HostId := ⟨host.id.val ++ "-" ++ digits 10 suffix⟩
    let name := host.name ++ " (" ++ digits 10 suffix ++ ")"
    if hosts.all fun existing => existing.id ≠ id && !eqIgnoreAsciiCase existing.name name then
      some (id, name)
    else freeName hosts host (suffix + 1) fuel

/-- The loop of `Workspace::confirm_ssh_import`. The suffixes are
`2..=1024`. -/
def addEntries : List SshEntry → List SshHost → Except Refusal (List SshHost)
  | [], hosts => .ok hosts
  | entry :: rest, hosts =>
    if !entry.selected then addEntries rest hosts
    else if entry.host.username = "" then .error (some ("Missing user for " ++ entry.«alias»))
    else if hosts.any fun existing =>
        existing.id = entry.host.id || eqIgnoreAsciiCase existing.name entry.host.name then
      match freeName hosts entry.host 2 1023 with
      | none => .error (some ("Could not find a unique name for " ++ entry.«alias»))
      | some (id, name) => addEntries rest (hosts ++ [{ entry.host with id, name }])
    else addEntries rest (hosts ++ [entry.host])

/-- The entries of a preview, as far as there are marks. -/
def offered (preview : Import.SshImportPreview) (selected : List Bool) : List SshEntry :=
  List.zipWith (fun entry selected => ⟨entry.«alias», entry.host, selected⟩) preview.entries selected

/-- What an edit makes of the window's copy. -/
def applyEdit (home : Option PathBuf) (current : DomainConfig) : Edit → Except Refusal DomainConfig
  | .host entered _ =>
    checked home { current with hosts := upsert SshHost.id current.hosts entered }
  | .tunnel entered =>
    checked home { current with tunnels := upsert TunnelConfig.id current.tunnels entered }
  | .group id name => saveGroup id name current
  | .deleteGroup id => .ok (deleteGroup id current)
  | .moveGroup id direction => moveGroup id direction current
  | .runAtLogin =>
    .ok { current with app := { current.app with runAtStartup := !current.app.runAtStartup } }
  | .closeMode =>
    .ok { current with app := { current.app with minimizeToTray := !current.app.minimizeToTray } }
  | .importConfig config => .ok config
  | .importSsh entries => do
    let hosts ← addEntries entries current.hosts
    checked home { current with hosts }

/-- The secret that goes with an edit. -/
def Edit.secret : Edit → Option SecretUpdate
  | .host _ secret => secret
  | _ => none

/-! ## Windows and the manager -/

structure Workspace where
  number : ℕ
  /-- The copy of the configuration. -/
  startup : DomainConfig
  saving : Bool := false
  commandError : Option String := none

/-- A `SaveConfig` in the command channel, with the window that waits for
its reply. -/
structure SaveRequest where
  window : ℕ
  config : DomainConfig
  secret : Option SecretUpdate

/-- A reply on its way. -/
structure SaveReply where
  window : ℕ
  config : DomainConfig
  result : Except String Unit

/-- The application: the manager, the window that is open, and what is
between them. -/
structure Desktop where
  manager : World
  directory : PathBuf
  window : Option Workspace := none
  /-- How many windows were opened. -/
  opened : ℕ := 0
  commands : List SaveRequest := []
  replies : List SaveReply := []

namespace Desktop

inductive Input where
  /-- `show_main_window`. -/
  | «open»
  /-- The user edits. The error is that of `try_send`, if it fails. -/
  | edit (edit : Edit) (unsent : Option String)
  /-- The manager takes the next `SaveConfig`. -/
  | save (env : Env)
  /-- A reply arrives. -/
  | deliver
  /-- The window is closed. -/
  | close
  /-- Anything else that reaches the manager. -/
  | manage (input : Manager.Input)

/-- What is seen of a step: a window sends its copy with a change, and a
save ends. -/
inductive Event where
  | sent (window : ℕ) (base config : DomainConfig)
  | saved (window : ℕ) (ok : Bool)
  deriving DecidableEq

/-- `show_main_window`: a window that is open is only activated. -/
def openWindow (d : Desktop) : Desktop :=
  match d.window with
  | some _ => d
  | none =>
    { d with
      window := some { number := d.opened, startup := d.manager.configViews }
      opened := d.opened + 1 }

/-- `Workspace::persist_config`. -/
def persistConfig (w : Workspace) (config : DomainConfig) (secret : Option SecretUpdate)
    (unsent : Option String) (d : Desktop) : Option Event × Desktop :=
  match unsent with
  | some error => (none, { d with window := some { w with commandError := some error } })
  | none =>
    (some (.sent w.number w.startup config), { d with
      commands := d.commands ++ [⟨w.number, config, secret⟩]
      window := some { w with saving := true, commandError := none } })

/-- An edit in the open window. The controls are off while it saves. -/
def editConfig (home : Option PathBuf) (edit : Edit) (unsent : Option String) (d : Desktop) :
    Option Event × Desktop :=
  match d.window with
  | none => (none, d)
  | some w =>
    if w.saving then (none, d)
    else match applyEdit home w.startup edit with
      | .error refusal =>
        (none, { d with window := some { w with commandError := refusal.or w.commandError } })
      | .ok config => d.persistConfig w config edit.secret unsent

/-- `Workspace::confirm_ssh_import`, with the preview it has and the marks
the user made. -/
def confirmSshImport (home : Option PathBuf) (preview : Import.SshImportPreview)
    (selected : List Bool) (unsent : Option String) (d : Desktop) : Option Event × Desktop :=
  d.editConfig home (.importSsh (offered preview selected)) unsent

/-- The manager takes the next `SaveConfig`, or is gone and drops it. -/
def saveNext (home : Option PathBuf) (codec : Codec) (env : Env) (d : Desktop) :
    Option Event × Desktop :=
  match d.commands with
  | [] => (none, d)
  | request :: rest =>
    let d := { d with commands := rest }
    let answer (result : Except String Unit) : List SaveReply :=
      d.replies ++ [⟨request.window, request.config, result⟩]
    if !d.manager.running then
      (some (.saved request.window false),
        { d with replies := answer (.error "Configuration manager stopped") })
    else
      match d.manager.saveConfig home codec env d.directory request.config request.secret with
      | (.value _, manager) =>
        (some (.saved request.window true), { d with manager, replies := answer (.ok ()) })
      | (.error error, manager) =>
        (some (.saved request.window false), { d with manager, replies := answer (.error error) })
      -- the process ended within the save, so nobody is answered
      | (.cut, manager) => (some (.saved request.window false), { d with manager })

/-- The task that waits for the reply goes with its window. -/
def deliverNext (d : Desktop) : Desktop :=
  match d.replies with
  | [] => d
  | reply :: rest =>
    let d := { d with replies := rest }
    match d.window with
    | none => d
    | some w =>
      if w.number = reply.window then
        match reply.result with
        | .ok _ =>
          { d with window := some { w with
              saving := false, startup := reply.config, commandError := none } }
        | .error error =>
          { d with window := some { w with saving := false, commandError := some error } }
      else d

/-- The window goes where the program is to stay in the tray; else the
program ends, and nothing happens any more. -/
def closeWindow (d : Desktop) : Desktop :=
  if d.manager.configViews.app.minimizeToTray then { d with window := none } else d

/-- One input. Only windows send `SaveConfig`. -/
def step (home : Option PathBuf) (codec : Codec) (d : Desktop) (input : Input) :
    Option Event × Desktop :=
  match input with
  | .open => (none, d.openWindow)
  | .edit edit unsent => d.editConfig home edit unsent
  | .save env => d.saveNext home codec env
  | .deliver => (none, d.deliverNext)
  | .close => (none, d.closeWindow)
  | .manage (.command (.saveConfig ..) _) => (none, d)
  | .manage input => (none, { d with manager := (d.manager.step home codec input).2 })

end Desktop

end App

end TunnelWarden
