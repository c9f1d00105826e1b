import TunnelWarden.Common.Map
import TunnelWarden.Import.Model.SshImport

/-!
# The preview of an OpenSSH configuration

`preview_ssh_config`: the lines form blocks, each with the patterns of
the hosts it is for; the hosts named without a wildcard are previewed,
and of each setting a host has the value that comes first in the blocks
that match it.
-/

namespace TunnelWarden

namespace Import

structure SshImportEntry where
  host : SshHost
  «alias» : String
  proxyJump : Option String
  warnings : List String
  deriving DecidableEq, Repr

structure SshImportPreview where
  entries : List SshImportEntry
  warnings : List String
  deriving DecidableEq, Repr

structure Block where
  patterns : List String := []
  values : List (String × String) := []
  deriving DecidableEq, Repr

/-! ## The blocks -/

/-- `blocks.last_mut()`, with a directive pushed to it. -/
def pushValue (directive : String × String) : List Block → List Block
  | [] => []
  | [block] => [{ block with values := block.values ++ [directive] }]
  | block :: next :: rest => block :: pushValue directive (next :: rest)

/-- What the loop over the lines has collected. -/
structure Parsed where
  blocks : List Block
  aliases : List String := []
  limits : Limits
  deriving DecidableEq, Repr

def Parsed.warn (s : Parsed) (message : String) : Parsed :=
  { s with limits := s.limits.warn message }

/-- A pattern names a host where it neither excludes nor has a
wildcard. -/
def isExplicit (pattern : String) : Bool :=
  pattern.toList.head? != some '!' && !pattern.toList.any fun c => c == '*' || c == '?'

/-- A host is added once, and up to `MAX_ENTRIES` of them. -/
def addAlias (aliases : List String) (pattern : String) : List String :=
  if isExplicit pattern ∧ aliases.length < maxEntries ∧ pattern ∉ aliases then
    aliases ++ [pattern]
  else aliases

/-- The loop's body, for the words of line `number`. -/
def parseWords (s : Parsed) (number : ℕ) : List String → Parsed
  | [] => s
  | first :: arguments =>
    let key := toAsciiLowercase first
    if key = "host" then
      if arguments = [] then s.warn ("Line " ++ digits 10 number ++ ": empty Host directive")
      else { s with
        aliases := arguments.foldl addAlias s.aliases
        blocks := s.blocks ++ [{ patterns := arguments }] }
    else if key = "match" then
      let s := s.warn ("Line " ++ digits 10 number ++ ": Match blocks are unsupported")
      { s with blocks := s.blocks ++ [{}] }
    else
      match arguments with
      | [] => s
      | value :: _ => { s with blocks := pushValue (key, value) s.blocks }

/-- The loop over the lines, which are numbered from `number + 1` on. -/
def parseLines (number : ℕ) : List String → Parsed → Parsed
  | [], s => s
  | line :: rest, s => parseLines (number + 1) rest (parseWords s (number + 1) (splitWords line))

/-- The blocks and the hosts of the lines. The first block is for every
host. -/
def parse (lines : List String) (limits : Limits) : Parsed :=
  let s := parseLines 0 lines { blocks := [{ patterns := ["*"] }], limits }
  if s.aliases.length = maxEntries then s.warn "Only the first 512 explicit hosts are previewed"
  else s

/-! ## The settings of a host -/

/-- The loop of `matches_alias`. -/
def matchesFrom (env : Surroundings) («alias» : String) (positive : Bool) : List String → Bool
  | [] => positive
  | pattern :: rest =>
    let excluded := pattern.toList.head? = some '!'
    let plain := if excluded then String.ofList pattern.toList.tail else pattern
    if env.patternMatches plain «alias» then
      if excluded then false else matchesFrom env «alias» true rest
    else matchesFrom env «alias» positive rest

/-- `matches_alias`. -/
def matchesAlias (env : Surroundings) (patterns : List String) («alias» : String) : Bool :=
  matchesFrom env «alias» false patterns

/-- The settings the preview reads. -/
def settings : List String :=
  ["hostname", "user", "port", "identityfile", "identitiesonly", "proxyjump", "connecttimeout",
    "serveraliveinterval", "serveralivecountmax", "hostkeyalias", "userknownhostsfile"]

/-- The values of a host and its warnings. -/
structure Resolved where
  values : Map String String := ∅
  warnings : List String := []

/-- One directive: the first value of a setting stays. -/
def resolveDirective (s : Resolved) (directive : String × String) : Resolved :=
  if directive.1 ∈ settings then
    if directive.1 ∈ s.values then s
    else { s with values := s.values.insert directive.1 directive.2 }
  else if s.warnings.length < 16 then
    { s with warnings := s.warnings ++ ["Unsupported: " ++ directive.1] }
  else s

/-- One block, where it is for the host. -/
def resolveBlock (env : Surroundings) («alias» : String) (s : Resolved) (block : Block) :
    Resolved :=
  if matchesAlias env block.patterns «alias» then block.values.foldl resolveDirective s else s

/-- The loop over the blocks. -/
def resolve (env : Surroundings) (blocks : List Block) («alias» : String) : Resolved :=
  blocks.foldl (resolveBlock env «alias») {}

/-- `str::parse`, for an unsigned type with values below `bound`. -/
def parseUnsigned (bound : ℕ) (text : String) : Option ℕ :=
  let cs := if text.toList.head? = some '+' then text.toList.tail else text.toList
  match readDigits 10 0 0 cs with
  | (value, count, []) => if count ≠ 0 ∧ value < bound then some value else none
  | _ => none

/-- `str::replace("%h", name)`. -/
def replaceName (name : String) : List Char → List Char
  | '%' :: 'h' :: rest => name.toList ++ replaceName name rest
  | c :: rest => c :: replaceName name rest
  | [] => []

/-- A setting in whole seconds. -/
def seconds (values : Map String String) (key : String) (default : ℕ) : ℕ :=
  ((values.lookup key).bind (parseUnsigned (2 ^ 64))).getD default

/-- The key file a text names. -/
def keyPath (env : Surroundings) (path : String) : PathBuf :=
  match path.toList with
  | '~' :: '/' :: rest => env.homeDir.join (env.pathFrom (String.ofList rest))
  | _ => env.pathFrom path

/-- The port of a host. -/
def port (values : Map String String) : ℕ :=
  (((values.lookup "port").bind (parseUnsigned (2 ^ 16))).filter (0 < ·)).getD 22

/-- The host that is previewed for an alias. -/
def previewHost (env : Surroundings) («alias» : String) (values : Map String String) :
    SshHost where
  id := ⟨"ssh-" ++ «alias»⟩
  name := «alias»
  hostname := String.ofList (replaceName «alias» ((values.lookup "hostname").getD «alias»).toList)
  port := port values
  username := (values.lookup "user").getD env.defaultUser
  auth :=
    match values.lookup "identityfile" with
    | some path => .privateKey (keyPath env path) none
    | none => .agent none
  hostKeyPolicy := .strict
  connectTimeout := Duration.fromSecs (max (seconds values "connecttimeout" 10) 1)
  keepaliveInterval := Duration.fromSecs (max (seconds values "serveraliveinterval" 30) 1)
  keepaliveMax := min (max (seconds values "serveralivecountmax" 3) 1) (2 ^ 32 - 1)
  notes := ""

/-- What the preview says about the values of a host. -/
def valueWarnings (host : SshHost) (values : Map String String) : List String :=
  (if "port" ∈ values ∧ host.port = 22 ∧ values.lookup "port" ≠ some "22" then
    ["Invalid port; using 22"] else []) ++
  (if "proxyjump" ∈ values then
    ["ProxyJump requires a tunnel Jump Chain; not applied to this jumper"] else []) ++
  (["hostkeyalias", "userknownhostsfile"].filter (· ∈ values)).map
    (· ++ " is not mapped; verify host key settings before use") ++
  (if values.lookup "identitiesonly" = some "yes" ∧ "identityfile" ∉ values then
    ["IdentitiesOnly yes has no IdentityFile"] else []) ++
  (if host.username = "" then ["User is empty; choose a username before importing"] else [])

/-- The preview of one host. -/
def previewEntry (env : Surroundings) (blocks : List Block) («alias» : String) :
    SshImportEntry :=
  let resolved := resolve env blocks «alias»
  let host := previewHost env «alias» resolved.values
  { host
    «alias»
    proxyJump := resolved.values.lookup "proxyjump"
    warnings := resolved.warnings ++ valueWarnings host resolved.values }

/-- `preview_ssh_config`, from the lines on. -/
def previewLines (env : Surroundings) (lines : List String) (limits : Limits) :
    SshImportPreview :=
  let s := parse lines limits
  { entries := s.aliases.map (previewEntry env s.blocks), warnings := s.limits.warnings }

/-- `preview_ssh_config`, with files nested up to `fuel`. -/
def previewSshConfig (env : Surroundings) (fuel : ℕ) (path : PathBuf) :
    Option (Except SshImportError SshImportPreview) :=
  (readLines env fuel path {}).map fun
    | (.error error, _) => .error error
    | (.ok (), s) => .ok (previewLines env s.lines s.limits)

end Import

end TunnelWarden
