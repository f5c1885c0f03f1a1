/-!
# Paths and file trees

Paths, the ways between them, and what stands at a path.
-/

namespace LineSum

/-! ## Paths

A path leads from the root of the file system down. Texts are resolved against a directory, and
paths are shown relative to one.
-/

/-- An absolute path: the names from the root down, none of which is `.` or `..`. -/
structure Path where
  names : List String
  deriving DecidableEq, Repr, Inhabited

/-- What stands between the slashes of a text. There is always at least one name. -/
def splitSlashes : List Char → List (List Char)
  | [] => [[]]
  | c :: rest =>
    if c = '/' then [] :: splitSlashes rest
    else
      match splitSlashes rest with
      | [] => [[c]]
      | name :: names => (c :: name) :: names

namespace Path

/-- Goes to a name in a directory. Two points lead back, one point and nothing stay. -/
def enter (path : Path) (name : String) : Path :=
  if name = "" || name = "." then path
  else if name = ".." then ⟨path.names.dropLast⟩
  else ⟨path.names ++ [name]⟩

/-- The path that a text means in a directory. -/
def resolve (directory : Path) (text : String) : Path :=
  let start := if text.toList.head? = some '/' then ⟨[]⟩ else directory
  ((splitSlashes text.toList).map String.ofList).foldl enter start

/-- The number of names that two lists begin with in common. -/
def commonLength : List String → List String → Nat
  | a :: as, b :: bs => if a = b then commonLength as bs + 1 else 0
  | _, _ => 0

/-- How a path is written in a directory. The directory itself is the empty text. -/
def relativeTo (path directory : Path) : String :=
  let common := commonLength directory.names path.names
  "/".intercalate
    (List.replicate (directory.names.length - common) ".." ++ path.names.drop common)

/-- The whole path as a text. -/
def text (path : Path) : String :=
  "/" ++ "/".intercalate path.names

/-- The names that lead from a directory down to a path, if it lies below. -/
def below? (path directory : Path) : Option (List String) :=
  if directory.names.isPrefixOf path.names && path != directory then
    some (path.names.drop directory.names.length)
  else none

end Path

/-! ## File trees

A file tree says which files and directories there are and what reading them gives. The directories
on the way to what is there are there as well.
-/

/-- What stands at a path. -/
inductive FileNode where
  | directory
  | file (text : String)
  deriving DecidableEq, Repr

/-- Why a file cannot be read. -/
inductive ReadError where
  | isDirectory
  | missing
  /-- The file says more than can be taken over at once. -/
  | tooLong
  | other (message : String)
  deriving DecidableEq, Repr

/-- The sentence that reports why a file cannot be read. -/
def ReadError.message : ReadError → String
  | isDirectory => "EISDIR: illegal operation on a directory, read"
  | missing => "ENOENT: no such file or directory"
  | tooLong => "Maximum call stack size exceeded"
  | other message => message

/-- A file tree. `failures` are the paths that cannot be read, each with the reason. -/
structure FileTree where
  nodes : List (Path × FileNode)
  failures : List (Path × String)
  deriving Repr

namespace FileTree

/-- Whether something stands at a path. -/
def has (tree : FileTree) (path : Path) : Bool :=
  tree.nodes.any fun node => path.names.isPrefixOf node.1.names

/-- What stands at a path by itself, and not only as a directory on the way to something else. -/
def node? (tree : FileTree) (path : Path) : Option FileNode :=
  (tree.nodes.find? (·.1 = path)).map (·.2)

/-- Whether a file stands at a path. -/
def isFile (tree : FileTree) (path : Path) : Bool :=
  match tree.node? path with
  | some (.file _) => true
  | _ => false

/-- The paths of all files. -/
def files (tree : FileTree) : List Path :=
  (tree.nodes.map (·.1)).filter tree.isFile

/-- What reading a path gives. -/
def read (tree : FileTree) (path : Path) : Except ReadError String :=
  match tree.failures.find? (·.1 = path) with
  | some failure => .error (.other failure.2)
  | none =>
    match tree.node? path with
    | some (.file text) => .ok text
    | _ => .error (if tree.has path then .isDirectory else .missing)

end FileTree

end LineSum
