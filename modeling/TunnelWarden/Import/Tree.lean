import TunnelWarden.Import.Preview

/-!
# A tree of files and what is read of it

A file is unfolded into its directives and, for each `Include`, those of
the files it stands for, each in its brackets (`tokens`); the files are
acyclic where some depth suffices. `Scope` reads the sequence as OpenSSH
does: a file starts in the block its `Include` stands in, its `Host`
blocks narrow that down, and the block goes on after the file. The import
reads a file once, and only where it is UTF-8 (`skim`), and makes one
list of what it reads, in which a block goes on until the next.
-/

namespace TunnelWarden

namespace Import

/-! ## The sequence -/

/-- A file is entered, with whether it is UTF-8, and left. -/
inductive Token where
  | enter (path : PathBuf) (utf8 : Bool)
  | directive (directive : Directive)
  | leave
  deriving DecidableEq, Repr

/-- The text the import reads of a file. -/
def contentOf (env : Surroundings) (path : PathBuf) : Option String :=
  match env.read path with
  | .error _ => none
  | .ok bytes => String.fromUTF8? bytes

/-- A byte OpenSSH reads: one that is not ASCII is part of a word. -/
def byteChar (b : UInt8) : Char :=
  if b < 128 then Char.ofNat b.toNat else Char.ofNat 0xFFFD

/-- The text OpenSSH reads of a file, which need not be UTF-8. -/
def textOf (bytes : ByteArray) : String :=
  (String.fromUTF8? bytes).getD (String.ofList (bytes.toList.map byteChar))

/-- The sequences of several parts, one after the other. -/
def joinTokens {α : Type} (part : α → Option (List Token)) : List α → Option (List Token)
  | [] => some []
  | a :: as =>
    match part a, joinTokens part as with
    | some first, some rest => some (first ++ rest)
    | _, _ => none

def matchTokens (child : PathBuf → Option (List Token)) :
    Except String PathBuf → Option (List Token)
  | .error _ => some []
  | .ok path => child path

def includeTokens (env : Surroundings) (child : PathBuf → Option (List Token)) (path : PathBuf)
    (word : String) : Option (List Token) :=
  match env.glob (includePattern env path word) with
  | .error _ => some []
  | .ok paths => joinTokens (matchTokens child) paths

def lineTokens (env : Surroundings) (child : PathBuf → Option (List Token)) (path : PathBuf)
    (line : String) : Option (List Token) :=
  if isInclude line then joinTokens (includeTokens env child path) ((splitWords line).drop 1)
  else some [.directive (lineDirective line)]

/-- **The tree of files**, in the order it is read in, each `Include` as
the files it stands for. A file that cannot be read has nothing in it;
nothing where the files are nested deeper than `depth`. -/
def tokens (env : Surroundings) : ℕ → PathBuf → Option (List Token)
  | 0, _ => none
  | depth + 1, path =>
    match env.canonicalize path with
    | .error _ => some []
    | .ok path =>
      match env.read path with
      | .error _ => some [.enter path true, .leave]
      | .ok bytes =>
        (joinTokens (lineTokens env (tokens env depth) path) (strLines (textOf bytes))).map
          fun body => .enter path (String.fromUTF8? bytes).isSome :: body ++ [.leave]

/-! ## The reading of OpenSSH -/

/-- Whether the block applies to the host, and whether those did that
the open files were included from. -/
structure Scope where
  active : Bool := true
  enclosing : List Bool := []
  deriving DecidableEq, Repr

/-- The block around the file. -/
def Scope.outer (s : Scope) : Bool := s.enclosing.head?.getD true

def Scope.step (env : Surroundings) (name : String) (s : Scope) :
    Token → List (String × String) × Scope
  | .enter _ _ => ([], { s with enclosing := s.active :: s.enclosing })
  | .leave => ([], { active := s.outer, enclosing := s.enclosing.tail })
  | .directive .other => ([], s)
  | .directive (.host patterns) =>
    ([], { s with active := s.outer && matchesAlias env patterns name })
  | .directive .matchBlock => ([], { s with active := false })
  | .directive (.setting key value) => (if s.active then [(key, value)] else [], s)

/-- The settings of a host, as OpenSSH reads them. -/
def nestedSettings (env : Surroundings) (name : String) (ts : List Token) :
    List (String × String) :=
  answers (Scope.step env name) {} ts

/-! ## The reading of the import -/

/-- The files that were seen, and how many are open of which nothing is
read. -/
structure Skim where
  seen : List PathBuf := []
  skipped : ℕ := 0
  deriving DecidableEq, Repr

def Skim.enter (k : Skim) (path : PathBuf) (utf8 : Bool) : Skim :=
  if k.skipped = 0 ∧ path ∉ k.seen then
    { seen := k.seen ++ [path], skipped := if utf8 then 0 else 1 }
  else { k with skipped := k.skipped + 1 }

def Skim.step (k : Skim) : Token → List Directive × Skim
  | .enter path utf8 => ([], k.enter path utf8)
  | .leave => ([], { k with skipped := k.skipped - 1 })
  | .directive d => (if k.skipped = 0 then [d] else [], k)

/-- **The directives the import reads**: a file that was seen is skipped,
and so is one that is not UTF-8. -/
def skim (ts : List Token) : List Directive := answers Skim.step {} ts

/-! ## Files -/

def Token.entered : Token → Option PathBuf
  | .enter path _ => some path
  | _ => none

/-- The files of a tree, each as often as it is included. -/
def files (ts : List Token) : List PathBuf := ts.filterMap Token.entered

variable {ts part body : List Token} {path : PathBuf} {utf8 : Bool}

theorem files_append : files (ts ++ part) = files ts ++ files part := List.filterMap_append

theorem files_file : files (.enter path utf8 :: body ++ [.leave]) = path :: files body := by
  simp [files, Token.entered]

end Import

end TunnelWarden
