import TunnelWarden.Common.Io
import TunnelWarden.Common.Net
import TunnelWarden.Domain.Model

/-!
# The import of an OpenSSH configuration

`config-store/ssh_import.rs`: the words of a line, the lines of a file
with those of the files it includes, the blocks they form, and the
preview of each host that is named. The file system, the patterns of
the `glob` crate and the platform's reading of a path are given from
outside. The files are read in one recursion, whose depth is bounded by
`fuel`.
-/

namespace TunnelWarden

namespace Import

def maxBytes : ℕ := 2 * 1024 * 1024
def maxFiles : ℕ := 32
def maxEntries : ℕ := 512
def maxWarnings : ℕ := 64

inductive SshImportError where
  | io (error : IoError)
  | tooLarge
  | utf8
  deriving DecidableEq, Repr

/-- The text of an error. -/
def SshImportError.display : SshImportError → String
  | io error => "SSH config read failed: " ++ error.text
  | tooLarge => "SSH config exceeds import limits"
  | utf8 => "SSH config is not valid UTF-8"

/-- What an import reads of the system it runs on. `metadata` and `read`
are two looks at a file, and need not agree. -/
structure Surroundings where
  /-- `Path::canonicalize`. -/
  canonicalize : PathBuf → Except IoError PathBuf
  /-- `fs::metadata(..).len()`. -/
  metadata : PathBuf → Except IoError ℕ
  /-- `fs::read`. -/
  read : PathBuf → Except IoError ByteArray
  /-- `glob::glob`: an error of the pattern, or what it matches; an error
  is its text. -/
  glob : String → Except String (List (Except String PathBuf))
  /-- `glob::Pattern::new(pattern).is_ok_and(|pattern| pattern.matches(text))`. -/
  patternMatches : String → String → Bool
  /-- `PathBuf::from`, of a text. -/
  pathFrom : String → PathBuf
  /-- `Path::is_absolute`. -/
  isAbsolute : PathBuf → Bool
  /-- `home_dir`. -/
  homeDir : PathBuf
  /-- The variable `USER`, or else `USERNAME`. -/
  defaultUser : String

/-! ## The words of a line -/

/-- A single or a double quote. -/
def isQuote (c : Char) : Bool := c.toNat == 39 || c.toNat == 34

/-- The words so far, with the one that ends here. -/
def endWord (words : List String) (word : List Char) : List String :=
  if word = [] then words else words ++ [String.ofList word]

/-- The loop of `split_words`. -/
def scanWords (words : List String) (word : List Char) (quote : Option Char) :
    List Char → List String
  | [] => endWord words word
  | ch :: rest =>
    if quote = none ∧ ch = '#' then endWord words word
    else if isQuote ch then
      if quote = some ch then scanWords words word none rest
      else if quote = none then scanWords words word (some ch) rest
      else scanWords words (word ++ [ch]) quote rest
    else if isWhitespace ch ∧ quote = none then scanWords (endWord words word) [] quote rest
    else scanWords words (word ++ [ch]) quote rest

/-- An `=` behind the first word, or within it, parts the keyword from
its value. -/
def splitKeyword : List String → List String
  | [] => []
  | first :: rest =>
    match splitOnce '=' first.toList with
    | some (key, value) => String.ofList key :: String.ofList value :: rest
    | none => if rest.head? = some "=" then first :: rest.tail else first :: rest

/-- `split_words`. -/
def splitWords (line : String) : List String := splitKeyword (scanWords [] [] none line.toList)

/-! ## The lines of the files -/

/-- `Limits`. -/
structure Limits where
  bytes : ℕ := 0
  files : ℕ := 0
  visited : List PathBuf := []
  warnings : List String := []
  deriving DecidableEq, Repr

/-- `Limits::warn`. -/
def Limits.warn (l : Limits) (message : String) : Limits :=
  if l.warnings.length < maxWarnings then { l with warnings := l.warnings ++ [message] } else l

/-- What `read_lines` writes: the limits and the lines. `reads` and
`contents` are the record of the calls of `fs::read` and of the texts
whose lines were gone through; nothing reads them. -/
structure Reading where
  limits : Limits := {}
  lines : List String := []
  reads : List PathBuf := []
  contents : List String := []
  deriving DecidableEq, Repr

def Reading.warn (s : Reading) (message : String) : Reading :=
  { s with limits := s.limits.warn message }

/-- `read_lines` up to the content: the path is counted, its size looked
at, and its bytes read and decoded. -/
def readContent (env : Surroundings) (path : PathBuf) (s : Reading) :
    Except SshImportError String × Reading :=
  let s := { s with limits := { s.limits with
    visited := s.limits.visited ++ [path], files := s.limits.files + 1 } }
  if maxFiles < s.limits.files then (.error .tooLarge, s)
  else match env.metadata path with
    | .error error => (.error (.io error), s)
    | .ok len =>
      let remaining := maxBytes - s.limits.bytes
      if remaining < len then (.error .tooLarge, s)
      else
        let s := { s with reads := s.reads ++ [path] }
        match env.read path with
        | .error error => (.error (.io error), s)
        | .ok bytes =>
          if remaining < bytes.size then (.error .tooLarge, s)
          else
            let s := { s with limits := { s.limits with bytes := s.limits.bytes + bytes.size } }
            match String.fromUTF8? bytes with
            | none => (.error .utf8, s)
            | some content => (.ok content, { s with contents := s.contents ++ [content] })

/-- The pattern an `Include` stands for, in the file at `path`. -/
def includePattern (env : Surroundings) (path : PathBuf) (word : String) : String :=
  match word.toList with
  | '~' :: '/' :: rest => (env.homeDir.join (env.pathFrom (String.ofList rest))).display
  | _ =>
    let included := env.pathFrom word
    if env.isAbsolute included then included.display
    else ((path.parent.getD ⟨[.curDir]⟩).join included).display

/-- How `read_lines` is called for one file. -/
abbrev Reader := PathBuf → Reading → Option (Except SshImportError Unit × Reading)

/-- The loop over the paths a pattern matches. An error of one of them
is a warning. -/
def readMatches (child : Reader) : List (Except String PathBuf) → Reading → Option Reading
  | [], s => some s
  | result :: rest, s =>
    if maxFiles ≤ s.limits.files then some (s.warn "Include file limit reached")
    else match result with
      | .error error => readMatches child rest (s.warn ("Include: " ++ error))
      | .ok path =>
        match child path s with
        | none => none
        | some (.ok (), s) => readMatches child rest s
        | some (.error error, s) =>
          readMatches child rest (s.warn ("Include " ++ path.display ++ ": " ++ error.display))

/-- One word behind `Include`. -/
def readInclude (env : Surroundings) (child : Reader) (path : PathBuf) (s : Reading)
    (word : String) : Option Reading :=
  let pattern := includePattern env path word
  match env.glob pattern with
  | .ok paths => readMatches child (paths.take (maxFiles + 1)) s
  | .error error => some (s.warn ("Include " ++ pattern ++ ": " ++ error))

/-- Is this line an `Include`? -/
def isInclude (line : String) : Bool :=
  (splitWords line).head?.any fun word => toAsciiLowercase word == "include"

/-- One line of the file at `path`. -/
def readLine (env : Surroundings) (child : Reader) (path : PathBuf) (s : Reading)
    (line : String) : Option Reading :=
  if isInclude line then ((splitWords line).drop 1).foldlM (readInclude env child path) s
  else some { s with lines := s.lines ++ [line] }

/-- `read_lines`; nothing where the files are nested deeper than
`fuel`. -/
def readLines (env : Surroundings) : ℕ → Reader
  | 0, _, _ => none
  | fuel + 1, path, s =>
    match env.canonicalize path with
    | .error error => some (.error (.io error), s)
    | .ok path =>
      if path ∈ s.limits.visited then some (.ok (), s)
      else match readContent env path s with
        | (.error error, s) => some (.error error, s)
        | (.ok content, s) =>
          ((strLines content).foldlM (readLine env (readLines env fuel) path) s).map
            fun s => (.ok (), s)

end Import

end TunnelWarden
