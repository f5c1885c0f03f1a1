import LineSum.CommandLine.Option

/-!
# Reading a command line

Options may stand anywhere. A double dash ends them; everything behind it is an expression, even if
it looks like an option. What looks like an option and is none is an expression too, so that input
which begins with an operator is reported by the evaluation. It and all expressions behind it come
after those before it.
-/

namespace LineSum

/-- What one argument is by itself. -/
inductive Argument where
  /-- The end of the options. -/
  | separator
  | flag (flag : Flag)
  | flagWithValue (flag : Flag) (value : String)
  | operand
  /-- What looks like an option and is none. -/
  | unknown
  deriving DecidableEq, Repr

namespace Argument

/-- An option and its value in one argument: the value directly behind a short name, or behind a
long name and an equality sign. -/
def joined? (cs : List Char) : Option (Flag × String) :=
  match cs with
  | '-' :: '-' :: rest =>
    let name := rest.takeWhile (· != '=')
    match rest.drop name.length with
    | _ :: value =>
      if name.isEmpty then none
      else
        ((Flag.ofName? (String.ofList ('-' :: '-' :: name))).filter Flag.takesValue).map
          fun flag => (flag, String.ofList value)
    | [] => none
  | '-' :: c :: value =>
    if value.isEmpty then none
    else (Flag.ofName? (String.ofList ['-', c])).map fun flag => (flag, String.ofList value)
  | _ => none

/-- What an argument is by itself. Behind a short name that takes no value more letters may follow;
the only such option is the one that ends the reading. -/
def ofText (text : String) : Argument :=
  if text = "--" then separator
  else
    match Flag.ofName? text with
    | some f => flag f
    | none =>
      match joined? text.toList with
      | some (f, value) => if f.takesValue then flagWithValue f value else flag f
      | none =>
        match text.toList with
        | '-' :: _ :: _ => unknown
        | _ => operand

end Argument

/-- What has been read of a command line: the options, the expressions before the first unknown
option, and that one with all expressions behind it. -/
structure Arguments where
  options : Options
  operands : List String
  unknown : List String
  deriving DecidableEq, Repr

/-- Why a command line is not read to its end. -/
inductive Interruption where
  | version
  | error (error : OptionError)
  deriving DecidableEq, Repr

namespace Arguments

/-- Nothing. -/
def empty : Arguments := ⟨.none, [], []⟩

/-- Adds an expression. -/
def addOperand (a : Arguments) (text : String) : Arguments :=
  if a.unknown.isEmpty then { a with operands := a.operands ++ [text] }
  else { a with unknown := a.unknown ++ [text] }

/-- Adds what stands behind a double dash. The dash itself is an expression if an unknown option
stands before it. -/
def addRest (a : Arguments) (rest : List String) : Arguments :=
  if a.unknown.isEmpty then { a with operands := a.operands ++ rest }
  else { a with unknown := a.unknown ++ "--" :: rest }

/-- Adds an option with its value. -/
def assign (a : Arguments) (flag : Flag) (value : String) : Except Interruption Arguments :=
  match a.options.assign flag value with
  | .ok options => .ok { a with options }
  | .error e => .error (.error e)

/-- Reads arguments one after the other. -/
def read (a : Arguments) (texts : List String) : Except Interruption Arguments :=
  match texts with
  | [] => .ok a
  | text :: rest =>
    match Argument.ofText text with
    | .separator => .ok (a.addRest rest)
    | .operand => (a.addOperand text).read rest
    | .unknown => { a with unknown := a.unknown ++ [text] }.read rest
    | .flagWithValue flag value =>
      match a.assign flag value with
      | .ok a => a.read rest
      | .error e => .error e
    | .flag flag =>
      if flag = .version then .error .version
      else if flag.takesValue then
        match rest with
        | [] => .error (.error (.missingValue flag))
        | value :: rest =>
          match a.assign flag value with
          | .ok a => a.read rest
          | .error e => .error e
      else { a with options := a.options.mark flag }.read rest

/-- The expressions of a command line. -/
def expressions (a : Arguments) : List String := a.operands ++ a.unknown

/-- Whether help is asked for. That is no option of its own: it is looked for among the unknown
options and what follows them. -/
def wantsHelp (a : Arguments) : Bool :=
  a.unknown.contains "-h" || a.unknown.contains "--help"

end Arguments

/-- What a command line asks for. -/
inductive CommandLine where
  | evaluate (options : Options) (expressions : List String)
  | showVersion
  | showHelp
  | reject (error : OptionError)
  deriving DecidableEq, Repr

/-- What the arguments ask for. -/
def CommandLine.ofArguments (texts : List String) : CommandLine :=
  match Arguments.empty.read texts with
  | .error .version => .showVersion
  | .error (.error e) => .reject e
  | .ok a => if a.wantsHelp then .showHelp else .evaluate a.options a.expressions

end LineSum
