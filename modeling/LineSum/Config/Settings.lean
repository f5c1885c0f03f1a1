import LineSum.Config.Schema

/-!
# Settings

The settings of a run come in layers: the defaults, the configuration file, the chosen profile of
that file, and the flags. A later layer replaces the single values of an earlier one and appends to
its lists.
-/

namespace LineSum

/-- How results are printed. -/
inductive Format where
  | pretty
  | plain
  | json
  | compact
  deriving DecidableEq, Repr

namespace Format

/-- All formats, in the order in which they are listed. -/
def all : List Format := [pretty, plain, json, compact]

/-- The word for a format. -/
def text : Format → String
  | pretty => "pretty"
  | plain => "plain"
  | json => "json"
  | compact => "compact"

/-- The format that a word stands for. -/
def ofText? (word : String) : Option Format :=
  all.find? (·.text = word)

end Format

/-- When output is coloured. -/
inductive ColorMode where
  | auto
  | always
  | never
  deriving DecidableEq, Repr

namespace ColorMode

/-- All modes, in the order in which they are listed. -/
def all : List ColorMode := [auto, always, never]

/-- The word for a mode. -/
def text : ColorMode → String
  | auto => "auto"
  | always => "always"
  | never => "never"

/-- The mode that a word stands for. -/
def ofText? (word : String) : Option ColorMode :=
  all.find? (·.text = word)

end ColorMode

/-- One layer of settings: whatever is missing is left to the other layers. -/
structure Fields where
  format : Option Format
  color : Option ColorMode
  trace : Option Bool
  failFast : Option Bool
  files : Option (List String)
  ignore : Option (List String)
  deriving DecidableEq, Repr

namespace Fields

/-- The layer that says nothing. -/
def empty : Fields := ⟨none, none, none, none, none, none⟩

/-- The strings of a list. -/
def stringList? (value : Value) : Option (List String) :=
  value.list?.map fun items => items.filterMap Value.string?

/-- The layer that a checked map holds. -/
def ofRecord (record : Record Value) : Fields where
  format := (record.get? "format").bind Value.string? |>.bind Format.ofText?
  color := (record.get? "color").bind Value.string? |>.bind ColorMode.ofText?
  trace := (record.get? "trace").bind Value.bool?
  failFast := (record.get? "failFast").bind Value.bool?
  files := (record.get? "files").bind stringList?
  ignore := (record.get? "ignore").bind stringList?

end Fields

/-- What a configuration file says: a layer of settings and more layers by name. -/
structure Config where
  fields : Fields
  profiles : Record Fields
  deriving Repr

/-- The fields of a layer. -/
def profileSchema : Schema :=
  [ ("format", .mk .string (some (Format.all.map Format.text)) none none),
    ("color", .mk .string (some (ColorMode.all.map ColorMode.text)) none none),
    ("trace", .plain .boolean),
    ("failFast", .plain .boolean),
    ("files", .mk .list none (some (.plain .string)) none),
    ("ignore", .mk .list none (some (.plain .string)) none) ]

/-- The fields of a configuration file: those of a layer, and the profiles. -/
def configSchema : Schema :=
  profileSchema ++ [("profiles", .mk .map none none (some profileSchema))]

namespace Config

/-- The configuration that a checked map holds. -/
def ofRecord (record : Record Value) : Config where
  fields := .ofRecord record
  profiles :=
    match (record.get? "profiles").bind Value.map? with
    | some entries =>
      .ofPairs (entries.filterMap fun (name, value) =>
        value.map?.map fun profile => (name, Fields.ofRecord profile))
    | none => []

end Config

/-- All settings of a run. -/
structure Settings where
  format : Format
  color : ColorMode
  trace : Bool
  failFast : Bool
  files : List String
  ignore : List String
  deriving DecidableEq, Repr

namespace Settings

/-- What holds if no layer says otherwise. -/
def default : Settings := ⟨.pretty, .auto, false, false, [], []⟩

/-- Adds a layer. -/
def apply (settings : Settings) (layer : Fields) : Settings where
  format := layer.format.getD settings.format
  color := layer.color.getD settings.color
  trace := layer.trace.getD settings.trace
  failFast := layer.failFast.getD settings.failFast
  files := settings.files ++ layer.files.getD []
  ignore := settings.ignore ++ layer.ignore.getD []

end Settings

/-- The file that is read if no other one is named. -/
def defaultConfigFile : String := ".linecalc.yml"

/-- The layer that a configuration has under a name. -/
def Config.profile? (config : Option Config) (name : String) : Option Fields :=
  config.bind fun c => Record.get? c.profiles name

/-- The report that a profile does not exist. -/
def unknownProfile (name configFile : String) : Diagnostic where
  code := .configUnknownProfile
  message := s!"Profile \"{name}\" is not defined"
  severity := .error
  file := configFile
  range := none
  source := none

/-- Puts the layers over the defaults. A profile that is not defined adds
nothing and is reported. -/
def resolveSettings (config : Option Config) (profile : Option String) (overrides : Fields)
    (configFile : String) : Settings × List Diagnostic :=
  let base := Settings.default.apply ((config.map Config.fields).getD .empty)
  match profile with
  | none => (base.apply overrides, [])
  | some name =>
    match Config.profile? config name with
    | some layer => ((base.apply layer).apply overrides, [])
    | none => (base.apply overrides, [unknownProfile name configFile])

end LineSum
