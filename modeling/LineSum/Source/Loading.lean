import LineSum.Diagnostic
import LineSum.Files.Find
import LineSum.Text.Basic
import LineSum.Text.Units

/-!
# Sources of expressions

Expressions come from the arguments of a command line and from the lines of files, which are found
by patterns.
-/

namespace LineSum

/-! ## Where expressions come from

Expressions are given as arguments or stand in files, one on a line. In a file, blank lines and
lines whose first character that is not blank is `#` hold no expression. All other lines are kept as
they are, but for one carriage return at their end.
-/

namespace Expression

/-- Each argument is one expression, in a file named after its place. -/
def ofArguments (arguments : List String) : List Expression :=
  arguments.zipIdx.map fun (text, i) => ⟨text, s!"<arg:{i + 1}>", 1⟩

end Expression

/-- The lines of a text: what stands between its newlines. There is always at least one. -/
def splitLines (cs : List Char) : List (List Char) :=
  match cs with
  | [] => [[]]
  | c :: rest =>
    if c = '\n' then
      [] :: splitLines rest
    else
      match splitLines rest with
      | [] => [[c]]
      | line :: lines => (c :: line) :: lines

/-- Removes one carriage return from the end of a line. -/
def dropReturn (line : List Char) : List Char :=
  if line.getLast? = some '\r' then line.dropLast else line

/-- Whether a line holds no expression. -/
def isSkipped (line : List Char) : Bool :=
  match line.dropWhile isBlank with
  | [] => true
  | c :: _ => c = '#'

namespace Expression

/-- The expressions of the given lines, the first of which has the number `first`. -/
def ofLines (file : String) (first : Nat) : List (List Char) → List Expression
  | [] => []
  | line :: lines =>
    let text := dropReturn line
    if isSkipped text then
      ofLines file (first + 1) lines
    else
      ⟨String.ofList text, file, first⟩ :: ofLines file (first + 1) lines

/-- The expressions of a file's content. -/
def ofFile (content : String) (file : String) : List Expression :=
  ofLines file 1 (splitLines (dropMark content.toList))

end Expression

/-! ## Loading expressions from files

Patterns are searched for one after the other, and the files that each of them finds are read in the
order of their paths. No file is read twice. A pattern without files is worth a warning, a file that
cannot be read is an error, and neither ends the loading. The expressions of a file are taken over
all at once, and a file that has too many of them for this is reported as one that cannot be read.
-/

/-- A file system, as far as it is used: whether something stands at a path, what reading it gives,
which files a pattern stands for when some patterns are ignored, and how many expressions of one
file can be taken over at once. -/
structure FileSystem where
  has : Path → Bool
  read : Path → Except ReadError String
  find : List String → String → Except PatternError (List Path)
  capacity : Nat

/-- How many values can usually be handed over at once: as many as there is room for on a stack of
the usual size. -/
def usualCapacity : Nat := 125000

/-- The file system of a tree, seen from a directory. -/
def FileTree.system (tree : FileTree) (directory : Path) : FileSystem :=
  ⟨tree.has, tree.read, tree.find directory, usualCapacity⟩

/-- The expressions of the file at a path, which is shown under a name. -/
def FileSystem.expressions (files : FileSystem) (path : Path) (name : String) :
    Except ReadError (List Expression) :=
  match files.read path with
  | .error e => .error e
  | .ok text =>
    let expressions := Expression.ofFile text name
    if expressions.length ≤ files.capacity then .ok expressions else .error .tooLong

/-- Paths in the order of their texts. -/
def sortPaths (paths : List Path) : List Path :=
  paths.mergeSort fun a b => unitsLe a.text b.text

/-- One thing to be done when expressions are loaded. -/
inductive LoadStep where
  /-- Report that a pattern has no files. -/
  | unmatched (pattern : String)
  /-- Read a file. -/
  | load (path : Path)
  deriving DecidableEq, Repr

/-- What is to be done for patterns when some files have been read already. -/
def loadSteps (find : String → Except PatternError (List Path)) (seen : List Path) :
    List String → Except PatternError (List LoadStep)
  | [] => .ok []
  | pattern :: patterns =>
    match find pattern with
    | .error e => .error e
    | .ok [] => (loadSteps find seen patterns).map (.unmatched pattern :: ·)
    | .ok (path :: paths) =>
      let fresh := ((sortPaths (path :: paths)).eraseDups).filter (!seen.contains ·)
      (loadSteps find (seen ++ fresh) patterns).map (fresh.map .load ++ ·)

/-- What came of loading expressions. -/
structure LoadedExpressions where
  expressions : List Expression
  diagnostics : List Diagnostic
  deriving DecidableEq, Repr

namespace LoadedExpressions

/-- Nothing. -/
def empty : LoadedExpressions := ⟨[], []⟩

/-- One result after the other. -/
def append (a b : LoadedExpressions) : LoadedExpressions :=
  ⟨a.expressions ++ b.expressions, a.diagnostics ++ b.diagnostics⟩

end LoadedExpressions

/-- The warning that a pattern has no files. -/
def unmatchedPattern (pattern : String) : Diagnostic where
  code := .noExpressions
  message := s!"No files matched \"{pattern}\""
  severity := .warning
  file := pattern
  range := none
  source := none

/-- The error that a file cannot be read. -/
def unreadableFile (file : String) (error : ReadError) : Diagnostic where
  code := .fileReadError
  message := s!"Failed to read {file}: {error.message}"
  severity := .error
  file := file
  range := none
  source := none

/-- Does one thing. -/
def LoadStep.perform (files : FileSystem) (directory : Path) : LoadStep → LoadedExpressions
  | unmatched pattern => ⟨[], [unmatchedPattern pattern]⟩
  | load path =>
    let file := path.relativeTo directory
    match files.expressions path file with
    | .ok expressions => ⟨expressions, []⟩
    | .error e => ⟨[], [unreadableFile file e]⟩

/-- The expressions of the files that patterns stand for. -/
def loadExpressions (files : FileSystem) (directory : Path) (ignore patterns : List String) :
    Except PatternError LoadedExpressions :=
  (loadSteps (files.find ignore) [] patterns).map fun steps =>
    (steps.map (LoadStep.perform files directory)).foldr .append .empty

end LineSum
