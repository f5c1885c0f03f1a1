import LineSum.Expr.Evaluation

/-!
# Diagnostics and places in a text

What is wrong, how badly and where: in a line of an expression, or in a whole text whose lines start
at known offsets.
-/

namespace LineSum

/-! ## Diagnostics

A diagnostic says what is wrong, how badly, and where. Lines and columns count from one. The
diagnostics of an expression locate it inside its line: there the column is one more than the
offset, and both count characters.
-/

/-- An error spoils the run, a warning does not. -/
inductive Severity where
  | error
  | warning
  deriving DecidableEq, Repr

/-- The word for a severity. -/
def Severity.text : Severity → String
  | error => "error"
  | warning => "warning"

/-- The kinds of diagnostics. -/
inductive Code where
  | invalidCharacter
  | unexpectedEndOfInput
  | invalidToken
  | configSyntaxError
  | configInvalidField
  | configUnknownProfile
  | fileReadError
  | noExpressions
  /-- A kind that a caller of the reporter has named. -/
  | named (name : String)
  deriving DecidableEq, Repr

/-- The printed name of a kind. -/
def Code.text : Code → String
  | invalidCharacter => "INVALID_CHARACTER"
  | unexpectedEndOfInput => "UNEXPECTED_END_OF_INPUT"
  | invalidToken => "INVALID_TOKEN"
  | configSyntaxError => "CONFIG_SYNTAX_ERROR"
  | configInvalidField => "CONFIG_INVALID_FIELD"
  | configUnknownProfile => "CONFIG_UNKNOWN_PROFILE"
  | fileReadError => "FILE_READ_ERROR"
  | noExpressions => "NO_EXPRESSIONS"
  | named name => name

/-- A point of a text. -/
structure Location where
  line : Int
  col : Int
  offset : Int
  deriving DecidableEq, Repr

/-- A stretch of a text, from its first point to just behind its last one. -/
structure Range where
  start : Location
  stop : Location
  deriving DecidableEq, Repr

/-- A report about a file. `source` is the line that a person is shown below the report. -/
structure Diagnostic where
  code : Code
  message : String
  severity : Severity
  file : String
  range : Option Range
  source : Option String
  deriving DecidableEq, Repr

namespace Range

/-- The stretch of one line between two offsets from the line's start. -/
def inLine (line : Int) (first last : Nat) : Range :=
  ⟨⟨line, first + 1, first⟩, ⟨line, last + 1, last⟩⟩

end Range

/-- One line of input, and where it comes from. -/
structure Expression where
  text : String
  file : String
  line : Int
  deriving DecidableEq, Repr

namespace Failure

/-- The kind of diagnostic that reports the failure. -/
def code : Failure → Code
  | scan _ => .invalidCharacter
  | parse .unexpectedEnd => .unexpectedEndOfInput
  | parse (.invalidToken _) => .invalidToken

/-- An invalid character is located exactly; a failure among the tokens concerns the whole line. -/
def range (expression : Expression) : Failure → Range
  | scan error => .inLine expression.line error.position (error.position + 1)
  | parse _ => .inLine expression.line 0 expression.text.length

/-- The diagnostic for an expression that failed. -/
def diagnostic (expression : Expression) (failure : Failure) : Diagnostic where
  code := failure.code
  message := failure.message
  severity := .error
  file := expression.file
  range := some (failure.range expression)
  source := some expression.text

end Failure

namespace Diagnostic

/-- Whether the diagnostic spoils the run. -/
def isError (d : Diagnostic) : Bool :=
  d.severity = .error

end Diagnostic

/-- How many errors and how many warnings there are. -/
structure Counts where
  errors : Nat
  warnings : Nat
  deriving DecidableEq, Repr

/-- Every severity is an error or a warning. -/
def Counts.ofSeverities (severities : List Severity) : Counts :=
  ⟨severities.countP (· = .error), severities.countP (· = .warning)⟩

/-- The counts of a list of diagnostics. -/
def Counts.ofDiagnostics (diagnostics : List Diagnostic) : Counts :=
  ofSeverities (diagnostics.map Diagnostic.severity)

/-! ## Offsets and lines of a text

A whole text is addressed by offsets. The offsets at which its lines start turn an offset into a
line and a column, both counted from one.
-/

/-- A stretch of a text, from one offset to just before another one. -/
structure Span where
  first : Nat
  last : Nat
  deriving DecidableEq, Repr, Inhabited

/-- The offsets at which the lines of a text start, in ascending order. -/
abbrev LineStarts := List Nat

namespace LineStarts

/-- The line starts after `offset` characters, the first of which starts no line. -/
def following (size : Char → Nat) (offset : Nat) : List Char → LineStarts
  | [] => []
  | c :: rest =>
    let next := offset + size c
    if c = '\n' then next :: following size next rest else following size next rest

/-- The lines of a text start at its beginning and behind each newline. -/
def ofText (size : Char → Nat) (cs : List Char) : LineStarts :=
  0 :: following size 0 cs

/-- The line of an offset is the last one that starts at or before it. -/
def locate (starts : LineStarts) (offset : Nat) : Location :=
  let before := starts.takeWhile (· ≤ offset)
  let start := before.getLastD 0
  ⟨before.length, (offset : Int) - start + 1, offset⟩

/-- The range of a stretch of text. -/
def range (starts : LineStarts) (span : Span) : Range :=
  ⟨starts.locate span.first, starts.locate span.last⟩

end LineStarts

end LineSum
