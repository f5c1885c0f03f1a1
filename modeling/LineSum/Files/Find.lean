import LineSum.Files.Tree
import LineSum.Glob.Pattern
import LineSum.Text.Basic

/-!
# Finding files by patterns

A pattern that leaves nothing open names one file. Any other one is searched for below the directory
that it names, and hidden directories and files are passed over unless the pattern names them.
Ignore patterns leave out files, also hidden ones, and keep the search out of directories.
-/

namespace LineSum

open Glob (Pattern)

namespace Glob

/-- Whether a text leaves out instead of finding. -/
def isNegative (text : List Char) : Bool :=
  text.head? = some '!' && text[1]? != some '('

/-- What a text leaves out, without the sign that it does. -/
def withoutNegation (text : List Char) : List Char :=
  if isNegative text then text.drop 1 else text

/-- The texts that several texts with braces stand for. -/
def expandAll (texts : List String) : Except PatternError (List (List Char)) :=
  (texts.mapM fun text => expandBraces text.toList).map List.flatten

/-- A path without a step to the same directory at the beginning. -/
def shownPath (path : List Char) : List Char :=
  if path.head? = some '.' && (path[1]? = some '/' || path[1]? = some '\\') then path.drop 2
  else path

end Glob

/-- Directories that are never searched. -/
def alwaysIgnored : String := "**/node_modules/**"

/-- Patterns that are searched for together, and the path of the directory in which that begins. -/
structure SearchTask where
  base : List Char
  patterns : List Pattern
  deriving DecidableEq, Repr

namespace SearchTask

/-- Adds a pattern to the task with its directory. -/
def add (tasks : List SearchTask) (p : Pattern) : List SearchTask :=
  if tasks.any (·.base = p.base) then
    tasks.map fun task =>
      if task.base = p.base then { task with patterns := task.patterns ++ [p] } else task
  else tasks ++ [⟨p.base, [p]⟩]

/-- The tasks for patterns. All that do not leave the directory upwards are searched for from the
directory itself if one of them is. No directory may have a reserved name. -/
def ofPatterns (patterns : List Pattern) : Except PatternError (List SearchTask) :=
  let outside := (patterns.filter (·.leavesUpwards)).foldl add []
  let patternsInside := patterns.filter (!·.leavesUpwards)
  let inside := patternsInside.foldl add []
  if (outside ++ inside).any fun task => reservedNames.contains (String.ofList task.base) then
    .error .unsearchableDirectory
  else if inside.any (·.base = ['.']) then .ok (outside ++ [⟨['.'], patternsInside⟩])
  else .ok (outside ++ inside)

/-- A path in the directory of a task, as the search comes to it. -/
def pathTo (task : SearchTask) (names : List String) : List Char :=
  let below := ['/'].intercalate (names.map String.toList)
  if task.base = ['.'] then below
  else if task.base.getLast? = some '/' then task.base ++ below
  else task.base ++ '/' :: below

end SearchTask

/-- A search: where it starts, what it looks for and what it leaves out. -/
structure Search where
  directory : Path
  /-- Tasks for patterns that leave nothing open. -/
  named : List SearchTask
  /-- Tasks for all other patterns. -/
  opened : List SearchTask
  ignored : List Pattern

namespace Search

/-- The search for a text with braces in a directory. -/
def ofTexts (directory : Path) (pattern : String) (ignore : List String) :
    Except PatternError Search := do
  let texts ← Glob.expandAll [pattern]
  let ignored ← Glob.expandAll (alwaysIgnored :: ignore)
  let patterns := (texts.filter (!Glob.isNegative ·)).map Pattern.ofText
  let left := (texts.filter Glob.isNegative ++ ignored).map Glob.withoutNegation
  let named ← SearchTask.ofPatterns (patterns.filter (!·.isOpen))
  let opened ← SearchTask.ofPatterns (patterns.filter (·.isOpen))
  if !(named ++ opened).isEmpty && left.contains [] then throw .emptyExclusion
  return ⟨directory, named, opened, left.map Pattern.ofText⟩

/-- The path that a text means in the directory of the search. -/
def resolve (s : Search) (path : List Char) : Path :=
  s.directory.resolve (String.ofList path)

/-- Whether a path, as the search comes to it, is left out. -/
def leavesOut (s : Search) (path : List Char) : Bool :=
  s.ignored.any fun p =>
    if p.isAbsolute then p.describesHidden (s.resolve path).text.toList else p.describesHidden path

/-- Whether a task finds the file at a path, as the search comes to it. -/
def accepts (s : Search) (task : SearchTask) (path : List Char) : Bool :=
  let path := Glob.shownPath path
  task.patterns.any (·.describes path) && !s.leavesOut path

/-- Whether a task looks into the directory at a path, as the search comes to it. -/
def visits (s : Search) (task : SearchTask) (path : List Char) : Bool :=
  let path := Glob.shownPath path
  task.patterns.any (·.leadsInto path) &&
    !s.ignored.any fun p => p.closesDirectories && p.describes path

/-- The files that the patterns of a task name. -/
def runNamed (s : Search) (tree : FileTree) (task : SearchTask) : List Path :=
  let texts := (task.patterns.map (·.text)).filter fun text =>
    tree.isFile (s.resolve text) && s.accepts task text
  texts.map s.resolve

/-- Whether a task comes to what lies so many names below its directory. -/
def reaches (s : Search) (task : SearchTask) (below : List String) : Bool :=
  (List.range below.length).all fun n => n = 0 || s.visits task (task.pathTo (below.take n))

/-- The files that a task finds below its directory. -/
def runOpened (s : Search) (tree : FileTree) (task : SearchTask) : List Path :=
  let origin := s.resolve task.base
  tree.files.filter fun path =>
    (path.below? origin).any fun below =>
      s.accepts task (task.pathTo below) && s.reaches task below

/-- The files that are found. -/
def run (s : Search) (tree : FileTree) : List Path :=
  s.named.flatMap (s.runNamed tree) ++ s.opened.flatMap (s.runOpened tree)

/-- The directories below which the search looks for files. -/
def directories (s : Search) : List Path :=
  (s.opened.map fun task => s.resolve task.base).eraseDups

/-- The paths at which the search looks for a file. -/
def paths (s : Search) : List Path :=
  s.named.flatMap fun task => task.patterns.map fun p => s.resolve p.text

end Search

/-- The path that a found path is reported as: a backslash in a name parts it like a slash. -/
def Path.slashed (path : Path) : Path :=
  (⟨[]⟩ : Path).resolve (String.ofList (path.text.toList.map fun c => if c = '\\' then '/' else c))

/-- The files of a tree that a pattern stands for, in no particular order. -/
def FileTree.find (tree : FileTree) (directory : Path) (ignore : List String) (pattern : String) :
    Except PatternError (List Path) := do
  if pattern.isEmpty then throw .empty
  let search ← Search.ofTexts directory pattern ignore
  return (search.run tree).map Path.slashed

end LineSum
