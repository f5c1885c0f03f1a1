import LineSum.CommandLine.Option
import LineSum.Json.Tree
import LineSum.Text.Basic

/-!
# Version and help

What the program says about itself: its version, and how it is called.
-/

namespace LineSum

/-! ## The version

The version is the text that the manifest of the program has under `version`.
-/

/-- The version of this program. -/
def programVersion : String := "1.0.0"

/-- The version of a program whose manifest does not tell it. -/
def unknownVersion : String := "0.0.0"

/-- The version that a manifest tells. -/
def versionOf (manifest : JsonTree) : String :=
  ((manifest.get? "version").bind JsonTree.string?).getD unknownVersion

/-! ## Help

The help lists the argument and the options, each with a description that is broken into lines.
-/

/-- The name of the program. -/
def programName : String := "linecalc"

/-- The width of the column of names. -/
def helpNameWidth : Nat := 17

/-- The width of the column of descriptions. -/
def helpTextWidth : Nat := 58

/-- Fills lines with words; a line ends where the next word would not fit. -/
def fillLines (width : Nat) (line : String) : List String → List String
  | [] => [line]
  | word :: words =>
    if line.length + 1 + word.length ≤ width then fillLines width (line ++ " " ++ word) words
    else line :: fillLines width word words

/-- Breaks a text into lines between its words. -/
def wrapText (width : Nat) (text : String) : List String :=
  match text.splitOn " " with
  | [] => []
  | word :: words => fillLines width word words

/-- The rows for a name and its description. -/
def helpRows (name description : String) : List String :=
  let margin := String.ofList (List.replicate (helpNameWidth + 4) ' ')
  let padding := String.ofList (List.replicate (helpNameWidth - name.length) ' ')
  match wrapText helpTextWidth description with
  | [] => []
  | first :: rest => s!"  {name}{padding}  {first}" :: rest.map (margin ++ ·)

/-- The words that an option takes, as the help lists them. -/
def choiceList (flag : Flag) : String :=
  "(choices: " ++ ", ".intercalate ((flag.choices?.getD []).map fun word => s!"\"{word}\"") ++ ")"

/-- What an option does. -/
def Flag.description : Flag → String
  | version => "output the version number"
  | file =>
    "Read expressions from files, one per line (can be used multiple times) (default: [])"
  | ignore =>
    "Ignore files matching the given glob patterns (can be used multiple times) (default: [])"
  | format => s!"Output format (default: {Settings.default.format.text}) " ++ choiceList format
  | color => s!"Color output (default: {Settings.default.color.text}) " ++ choiceList color
  | trace => "Print the token sequence of every expression"
  | failFast => "Stop at the first expression that fails"
  | config =>
    s!"Path to a config file (defaults to {defaultConfigFile} in the working directory)"
  | profile => "Use a specific profile from the config file"

/-- The lines of the help. -/
def helpLines : List String :=
  [s!"Usage: {programName} [options] [expressions...]", "",
    "Evaluates integer +/- expressions, left to right", "", "Arguments:"] ++
  helpRows "expressions" ("Expressions to evaluate, e.g. \"10 + 3 - 2\". " ++
    "Use -- before expressions that look like options") ++
  ["", "Options:"] ++
  Flag.all.flatMap (fun flag => helpRows flag.usage flag.description) ++
  helpRows "-h, --help" "display help for command"

/-- The help as it is printed. -/
def helpText : String :=
  String.join (helpLines.map (· ++ "\n"))

end LineSum
