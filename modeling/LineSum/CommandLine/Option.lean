import LineSum.Config.Settings
import LineSum.Diagnostic

/-!
# The options of the command line

Some options take a value, two of those only certain words. Options that may be repeated collect
their values; of the others the last one counts.
-/

namespace LineSum

/-- An option. -/
inductive Flag where
  | version
  | file
  | ignore
  | format
  | color
  | trace
  | failFast
  | config
  | profile
  deriving DecidableEq, Repr

namespace Flag

/-- All options, in the order in which the help lists them. -/
def all : List Flag := [version, file, ignore, format, color, trace, failFast, config, profile]

/-- The long name of an option. -/
def long : Flag → String
  | version => "--version"
  | file => "--file"
  | ignore => "--ignore"
  | format => "--format"
  | color => "--color"
  | trace => "--trace"
  | failFast => "--fail-fast"
  | config => "--config"
  | profile => "--profile"

/-- The short name of an option, if it has one. -/
def short? : Flag → Option String
  | version => some "-V"
  | file => some "-f"
  | _ => none

/-- What the value of an option is called, if it takes one. -/
def valueName? : Flag → Option String
  | file => some "glob"
  | ignore => some "glob"
  | format => some "format"
  | color => some "mode"
  | config => some "path"
  | profile => some "name"
  | version => none
  | trace => none
  | failFast => none

/-- Whether an option takes a value. -/
def takesValue (flag : Flag) : Bool := flag.valueName?.isSome

/-- An option with its names and its value, as the help and the error messages show it. -/
def usage (flag : Flag) : String :=
  (flag.short?.map (· ++ ", ")).getD "" ++ flag.long ++
    (flag.valueName?.map fun name => s!" <{name}>").getD ""

/-- The option of a name. -/
def ofName? (name : String) : Option Flag :=
  all.find? fun flag => flag.long = name || flag.short? = some name

/-- The words that an option takes, if they are limited. -/
def choices? : Flag → Option (List String)
  | format => some (Format.all.map Format.text)
  | color => some (ColorMode.all.map ColorMode.text)
  | _ => none

end Flag

/-- What the options of a command line say. -/
structure Options where
  files : List String
  ignore : List String
  format : Option Format
  color : Option ColorMode
  trace : Bool
  failFast : Bool
  config : Option String
  profile : Option String
  deriving DecidableEq, Repr

/-- What can be wrong with an option. -/
inductive OptionError where
  | missingValue (flag : Flag)
  | notAChoice (flag : Flag) (value : String)
  deriving DecidableEq, Repr

/-- The sentence that reports what is wrong with an option. -/
def OptionError.message : OptionError → String
  | missingValue flag => s!"error: option '{flag.usage}' argument missing"
  | notAChoice flag value =>
    s!"error: option '{flag.usage}' argument '{value}' is invalid. Allowed choices are " ++
      ", ".intercalate (flag.choices?.getD []) ++ "."

namespace Options

/-- No options. -/
def none : Options := ⟨[], [], .none, .none, false, false, .none, .none⟩

/-- Adds an option that takes no value. -/
def mark (options : Options) : Flag → Options
  | .trace => { options with trace := true }
  | .failFast => { options with failFast := true }
  | _ => options

/-- Adds an option with its value. -/
def assign (options : Options) (flag : Flag) (value : String) : Except OptionError Options :=
  match flag with
  | .file => .ok { options with files := options.files ++ [value] }
  | .ignore => .ok { options with ignore := options.ignore ++ [value] }
  | .format =>
    match Format.ofText? value with
    | some format => .ok { options with format := some format }
    | .none => .error (.notAChoice .format value)
  | .color =>
    match ColorMode.ofText? value with
    | some color => .ok { options with color := some color }
    | .none => .error (.notAChoice .color value)
  | .config => .ok { options with config := some value }
  | .profile => .ok { options with profile := some value }
  | .version | .trace | .failFast => .ok (options.mark flag)

/-- The layer of settings that the options are. -/
def fields (options : Options) : Fields where
  format := options.format
  color := options.color
  trace := if options.trace then some true else .none
  failFast := if options.failFast then some true else .none
  files := some options.files
  ignore := some options.ignore

end Options

end LineSum
