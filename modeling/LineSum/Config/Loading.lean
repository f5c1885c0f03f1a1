import LineSum.Config.Settings
import LineSum.Source.Loading
import LineSum.Text.Basic
import LineSum.Yaml.Document
import LineSum.Yaml.Node.Meaning

/-!
# Loading a configuration

The text of a configuration is read as YAML and checked; the file may be missing or unreadable.
-/

namespace LineSum

/-! ## Reading a configuration

The text of a configuration file is either a configuration, perhaps with warnings about fields that
were left out, or it breaks the rules of YAML and there is none. A document that stands for
nothing is found out last and ends the reading.
-/

/-- What came of reading a configuration. -/
structure LoadedConfig where
  config : Option Config
  diagnostics : List Diagnostic
  deriving Repr

/-- The characters of a configuration file that are read: a byte order mark is not among them. -/
def configChars (text : String) : List Char :=
  dropMark text.toList

/-- Reads the text of a configuration file. -/
def readConfig (text file : String) : Except Yaml.NodeError LoadedConfig :=
  let chars := configChars text
  let document := Yaml.Document.ofText chars
  if document.reports.isEmpty then
    match document.value with
    | .error e => .error e
    | .ok value =>
      let (fields, findings) := checkMap configSchema "" document.root value
      .ok ⟨some (.ofRecord fields), findings.map (·.diagnostic file document.starts)⟩
  else
    .ok ⟨none, document.diagnostics chars file⟩

/-! ## Loading the configuration file

The file that is named has to be there; the default one may be missing. A file that cannot be read
is reported, and then there is no configuration.
-/

/-- The error that a named file is not there. -/
def missingConfig (file : String) : Diagnostic where
  code := .fileReadError
  message := s!"Config file not found: {file}"
  severity := .error
  file := file
  range := none
  source := none

/-- The error that a configuration file cannot be read. -/
def unreadableConfig (file : String) (error : ReadError) : Diagnostic where
  code := .fileReadError
  message := s!"Failed to read config file {file}: {error.message}"
  severity := .error
  file := file
  range := none
  source := none

/-- Loads the configuration file that is named, or else the default one of a directory. -/
def loadConfig (files : FileSystem) (directory : Path) (name : Option String) :
    Except Yaml.NodeError LoadedConfig :=
  let path := directory.resolve (name.getD defaultConfigFile)
  let file := path.relativeTo directory
  if files.has path then
    match files.read path with
    | .ok text => readConfig text file
    | .error e => .ok ⟨none, [unreadableConfig file e]⟩
  else .ok ⟨none, if name.isSome then [missingConfig file] else []⟩

end LineSum
