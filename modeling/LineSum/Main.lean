import LineSum.Run
import LineSum.Text.Utf8
import Std.Time.DateTime.Timestamp

/-!
# The program

The program looks at the files that a run may need, then does the run on what it has seen, prints
the result and ends with the exit code.
-/

namespace LineSum

/-- The deepest directory below a start that is looked into. -/
def greatestDepth : Nat := 64

/-- The name of the directories that no search looks into. -/
def closedDirectory : String := "node_modules"

/-- The current time in milliseconds. -/
def currentTime : IO Int := do
  return (← Std.Time.Timestamp.now).toMillisecondsSinceUnixEpoch.val

/-- What stands at a path. -/
def look (path : Path) : IO FileTree := do
  let place ← IO.FS.realPath path.text
  if ← place.isDir then
    return ⟨[(path, .directory)], []⟩
  else if ← place.pathExists then
    match ← (IO.FS.readBinFile place).toBaseIO with
    | .ok bytes => return ⟨[(path, .file (decodeUtf8 (bytes.toList.map UInt8.toNat)))], []⟩
    | .error e => return ⟨[(path, .file "")], [(path, toString e)]⟩
  else
    return ⟨[], []⟩

/-- The files below a directory. -/
def listFiles (depth : Nat) (directory : Path) : IO (List Path) := do
  match depth with
  | 0 => return []
  | depth + 1 =>
    let place ← IO.FS.realPath directory.text
    if !(← place.isDir) then
      return []
    let mut found : List Path := []
    for entry in ← place.readDir do
      let path := directory.enter entry.fileName
      if !(← entry.path.isDir) then
        found := path :: found
      else if entry.fileName != closedDirectory then
        found := (← listFiles depth path) ++ found
    return found

/-- Two trees in one. -/
def FileTree.join (a b : FileTree) : FileTree :=
  ⟨a.nodes ++ b.nodes, a.failures ++ b.failures⟩

/-- What stands at several paths. -/
def lookAll (paths : List Path) : IO FileTree := do
  let mut tree : FileTree := ⟨[], []⟩
  for path in paths do
    tree := tree.join (← look path)
  return tree

/-- The files that a search finds, with their contents. -/
def gather (search : Search) : IO FileTree := do
  let mut files : List Path := []
  for directory in search.directories do
    files := files ++ (← listFiles greatestDepth directory)
  let names : FileTree := ⟨files.map fun path => (path, .file ""), []⟩
  let found := search.run names
  lookAll (found ++ found.map Path.slashed ++ search.paths)

/-- The files that a command line needs: its configuration file, and what the patterns of its
settings find. -/
def filesFor (directory : Path) : CommandLine → IO FileTree
  | .evaluate options _ => do
    let config ← look (directory.resolve (options.config.getD defaultConfigFile))
    match Session.configure (config.system directory) directory options with
    | .error _ => return config
    | .ok (settings, _) =>
      let mut tree := config
      for pattern in settings.files do
        match Search.ofTexts directory pattern settings.ignore with
        | .ok search => tree := tree.join (← gather search)
        | .error _ => pure ()
      return tree
  | _ => return ⟨[], []⟩

end LineSum

open LineSum in
/-- Runs the program. -/
def main (arguments : List String) : IO UInt32 := do
  let started ← currentTime
  let directory := Path.resolve ⟨[]⟩ (← IO.currentDir).toString
  let tree ← filesFor directory (.ofArguments arguments)
  let output ← IO.getStdout
  let terminal : Terminal :=
    ⟨(← IO.getEnv "NO_COLOR").isSome, (← IO.getEnv "FORCE_COLOR").isSome, ← output.isTty⟩
  let clock : Clock := ⟨[started, started, ← currentTime]⟩
  match run ⟨tree.system directory, directory, terminal, clock, programVersion⟩ arguments with
  | .ok result =>
    output.putStr result.output
    (← IO.getStderr).putStr result.errors
    return result.exitCode.toUInt32
  | .error e =>
    (← IO.getStderr).putStr (e.message ++ "\n")
    return 1
