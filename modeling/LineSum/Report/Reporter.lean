import LineSum.Config.Settings
import LineSum.Decimal.Binary64
import LineSum.Json.Tree
import LineSum.Text.Moment
import LineSum.Report.Style

/-!
# Reporting

A reporter prints evaluations, diagnostics and a summary in one of four formats. Two formats are for
people and may be coloured; `json` prints one object on a line and `compact` one short record.
-/

namespace LineSum

/-- What the surroundings say about colours. -/
structure Terminal where
  /-- Colours are unwelcome. -/
  noColor : Bool
  /-- Colours are asked for. -/
  forceColor : Bool
  /-- The output goes to a terminal. -/
  interactive : Bool
  deriving DecidableEq, Repr

/-- How a reporter prints. -/
structure Reporter where
  format : Format
  trace : Bool
  colored : Bool
  started : Int
  deriving DecidableEq, Repr

/-- Whether output is coloured. An explicit mode decides alone; otherwise the plain format has no
colours, and the other formats have them if the surroundings allow it. -/
def usesColor (format : Format) (mode : ColorMode) (terminal : Terminal) : Bool :=
  match mode with
  | .never => false
  | .always => true
  | .auto =>
    format != .plain && !terminal.noColor && (terminal.forceColor || terminal.interactive)

/-- The numbers at the end of a run. -/
structure Summary where
  total : Nat
  passed : Nat
  failed : Nat
  counts : Counts
  exitCode : Nat
  deriving DecidableEq, Repr

/-- A marker line cannot start left of the first column. -/
structure MarkerError where
  column : Int
  deriving DecidableEq, Repr

/-- The sentence that reports the impossible column. -/
def MarkerError.message (e : MarkerError) : String :=
  s!"Invalid count value: {e.column}"

/-- What one call prints, and why it stopped before its end, if it did. -/
structure Printed where
  lines : List Line
  error : Option MarkerError
  deriving DecidableEq, Repr

namespace Printed

/-- Prints all lines. -/
def done (lines : List Line) : Printed := ⟨lines, none⟩

/-- Prints what comes next unless the first part stopped early. -/
def andThen (first second : Printed) : Printed :=
  match first.error with
  | none => ⟨first.lines ++ second.lines, second.error⟩
  | some _ => first

/-- Prints one thing after the other. -/
def all (parts : List Printed) : Printed :=
  parts.foldr andThen (done [])

end Printed

/-! ## Records -/

/-- The record of a location. -/
def Location.record (l : Location) : JsonTree :=
  .object [("line", .int l.line), ("col", .int l.col), ("offset", .int l.offset)]

/-- The record of a range. -/
def Range.record (r : Range) : JsonTree :=
  .object [("start", r.start.record), ("end", r.stop.record)]

/-- The record of a diagnostic; what is missing is left out. -/
def Diagnostic.record (d : Diagnostic) : JsonTree :=
  .object ([("code", .string d.code.text), ("message", .string d.message),
    ("severity", .string d.severity.text), ("file", .string d.file)] ++
    (d.range.map fun r => ("range", r.record)).toList ++
    (d.source.map fun s => ("source", JsonTree.string s)).toList)

/-- The record of an evaluation, with the tokens if they are traced. -/
def Evaluation.record (e : Evaluation) (expression : Expression) (trace : Bool) : JsonTree :=
  let outcome :=
    match e with
    | .value _ total => [("ok", .bool true), ("value", .string (toString total))]
    | .scanFailed error =>
      [("ok", .bool false), ("diagnostic", ((Failure.scan error).diagnostic expression).record)]
    | .parseFailed _ error =>
      [("ok", .bool false), ("diagnostic", ((Failure.parse error).diagnostic expression).record)]
  let traced :=
    if trace then (e.tokens?.map fun ts => ("tokens", JsonTree.string (Token.rowText ts))).toList
    else []
  .object ([("file", .string expression.file), ("line", .int expression.line),
    ("input", .string expression.text)] ++ outcome ++ traced)

/-- The record of a summary. -/
def Summary.record (s : Summary) (elapsed : String) : JsonTree :=
  .object [
    ("summary", .object [
      ("expressions", .object [("total", .int s.total), ("passed", .int s.passed),
        ("failed", .int s.failed)]),
      ("diagnostics", .object [("errors", .int s.counts.errors),
        ("warnings", .int s.counts.warnings)]),
      ("exitCode", .int s.exitCode)]),
    ("timing", .object [("elapsedSeconds", .string elapsed)])]

/-! ## Text -/

/-- What stands before the text of a faulty line. -/
def contextMargin : String := "    ↳ "

/-- The rule below the banner. -/
def bannerRule : String := "└────────────────────────────────────────────────────────"

/-- The rule above the summary. -/
def summaryRule : String := "────────────────────────────────────────────────────────"

/-- The colour of a severity. -/
def Severity.style : Severity → Style
  | .error => .red
  | .warning => .yellow

/-- The sign of a severity. -/
def Severity.icon : Severity → String
  | .error => "✖"
  | .warning => "⚠"

/-- The word for a severity in capitals. -/
def Severity.label : Severity → String
  | .error => "ERROR"
  | .warning => "WARNING"

/-- The letter for a severity. -/
def Severity.letter : Severity → String
  | .error => "E"
  | .warning => "W"

namespace Diagnostic

/-- The file and, if it is known, the place in it. -/
def place (d : Diagnostic) : String :=
  match d.range with
  | some r => s!"{d.file}:{r.start.line}:{r.start.col}"
  | none => d.file

/-- The diagnostic as one short record. -/
def compactText (d : Diagnostic) : String :=
  s!"{d.place} [{d.code.text}] {d.severity.letter}: {d.message}"

/-- The diagnostic as a line for people. -/
def header (d : Diagnostic) : Line :=
  [.plain "  ", .styled d.severity.style d.severity.icon, .plain " ",
    .styled d.severity.style d.severity.label, .plain "  ",
    .styled .cyan s!"[{d.code.text}]", .plain "  ", .styled .bold d.place,
    .plain s!"  {d.message}"]

/-- The line that marks a range below the faulty line. -/
def marker (d : Diagnostic) (range : Range) : Except MarkerError Line :=
  let column := (contextMargin.length : Int) + range.start.offset
  let width := max 1 (range.stop.offset - range.start.offset)
  if column < 0 then .error ⟨column⟩
  else .ok [.plain (String.ofList (List.replicate column.toNat ' ')),
    .styled d.severity.style (String.ofList (List.replicate width.toNat '^'))]

end Diagnostic

/-- A line of context below another one. -/
def contextLine (text : String) : Line :=
  [.styled .dim (contextMargin ++ text)]

namespace Reporter

/-- A reporter for the given settings, started at a moment. -/
def make (format : Format) (mode : ColorMode) (trace : Bool) (terminal : Terminal)
    (now : Int) : Reporter :=
  ⟨format, trace, usesColor format mode terminal, now⟩

/-- Whether the format is meant for programs. -/
def isMachine (r : Reporter) : Bool :=
  r.format = .json || r.format = .compact

/-- The line of a record. -/
def recordLine (tree : JsonTree) : Line := .plain tree.print

/-- Prints a diagnostic; for people the faulty line follows, with a marker below it. -/
def printDiagnostic (r : Reporter) (d : Diagnostic) : Printed :=
  match r.format with
  | .json => .done [recordLine d.record]
  | .compact => .done [.plain d.compactText]
  | .pretty | .plain =>
    match d.source, d.range with
    | none, _ => .done [d.header]
    | some source, none => .done [d.header, contextLine source]
    | some source, some range =>
      match d.marker range with
      | .ok marker => .done [d.header, contextLine source, marker]
      | .error e => ⟨[d.header, contextLine source], some e⟩

/-- Prints diagnostics one after the other. -/
def printDiagnostics (r : Reporter) (ds : List Diagnostic) : Printed :=
  .all (ds.map r.printDiagnostic)

/-- The line that shows tokens. -/
def traceLine (tokens : String) : Line :=
  contextLine s!"Tokens: {tokens}"

/-- Prints the tokens of an expression. -/
def printTrace (_ : Reporter) (tokens : String) : Printed :=
  .done [traceLine tokens]

/-- The line of an expression that has a value. -/
def valueLine (expression : Expression) (value : Int) : Line :=
  [.plain "  ", .styled .green "✓", .plain s!" {expression.text}  =  ",
    .styled .bold (toString value)]

/-- Prints what became of an expression. -/
def printEvaluation (r : Reporter) (expression : Expression) (e : Evaluation) : Printed :=
  match r.format with
  | .json => .done [recordLine (e.record expression r.trace)]
  | .compact =>
    match e with
    | .value _ value =>
      .done [.plain s!"{expression.file}:{expression.line} {expression.text} = {value}"]
    | .scanFailed error =>
      .done [.plain ((Failure.scan error).diagnostic expression).compactText]
    | .parseFailed _ error =>
      .done [.plain ((Failure.parse error).diagnostic expression).compactText]
  | .pretty | .plain =>
    let outcome :=
      match e with
      | .value _ value => .done [valueLine expression value]
      | .scanFailed error => r.printDiagnostic ((Failure.scan error).diagnostic expression)
      | .parseFailed _ error => r.printDiagnostic ((Failure.parse error).diagnostic expression)
    match r.trace, e.tokens? with
    | true, some tokens => outcome.andThen (r.printTrace (Token.rowText tokens))
    | _, _ => outcome

/-- Prints the head of a report. -/
def printBanner (r : Reporter) (version : String) (count : Nat) (now : Int) : Printed :=
  if r.isMachine then .done []
  else
    let plural := if count = 1 then "" else "s"
    .done [[.styled .bold (s!"┌ linecalc {version}  •  Evaluating {count} expression{plural}" ++
      s!"  •  {momentText now}")], [.styled .dim bannerRule], Line.blank]

/-- Prints the numbers at the end of a run. -/
def printSummary (r : Reporter) (s : Summary) (now : Int) : Printed :=
  let elapsed := secondsText (now - r.started)
  match r.format with
  | .json => .done [recordLine (s.record elapsed)]
  | .compact =>
    .done [.plain (s!"Summary: {s.passed} passed, {s.failed} failed, {s.counts.errors} errors, " ++
      s!"{s.counts.warnings} warnings ({elapsed}s)")]
  | .pretty | .plain =>
    let alert (n : Nat) (style : Style) : Style := if 0 < n then style else .dim
    let others : List Line :=
      if 0 < s.counts.errors || 0 < s.counts.warnings then
        [ [.styled .cyan "Other diagnostics:"],
          [.plain "  ", .styled (alert s.counts.errors .red) s!"Errors: {s.counts.errors}",
            .plain "  ", .styled (alert s.counts.warnings .yellow)
              s!"Warnings: {s.counts.warnings}"],
          Line.blank ]
      else []
    .done ([Line.blank, [.styled .dim summaryRule], [.styled .bold "Summary"], Line.blank,
      [.styled .cyan "Expressions:", .plain s!" {s.total}"],
      [.plain "  ", .styled .green s!"Passed: {s.passed}", .plain "  ",
        .styled (alert s.failed .red) s!"Failed: {s.failed}"],
      Line.blank] ++ others ++
      [[.styled .dim s!"Evaluated {s.total} expressions in {elapsed}s"],
        [.styled (if s.exitCode = 0 then .green else .red) s!"Exit code: {s.exitCode}"]])

/-- Prints that all went well. -/
def printSuccess (r : Reporter) : Printed :=
  if r.isMachine then .done []
  else .done [Line.blank, [.styled .green "✓", .plain " ",
    .styled .greenBold "All expressions evaluated!"]]

/-- Prints a remark. -/
def printInfo (r : Reporter) (text : String) : Printed :=
  if r.isMachine then .done [] else .done [[.styled .dim text]]

end Reporter

/-! ## Calls -/

/-- One request to a reporter. -/
inductive Call where
  | banner (version : String) (count : Nat)
  | evaluation (expression : Expression) (result : Evaluation)
  | trace (tokens : String)
  | diagnostics (list : List Diagnostic)
  | summary (summary : Summary)
  | success
  | info (text : String)
  deriving Repr

namespace Reporter

/-- Serves one request. The clock is read for a summary, and for a banner that is printed. -/
def perform (r : Reporter) (clock : Clock) : Call → Printed × Clock
  | .banner version count =>
    if r.isMachine then (.done [], clock)
    else
      let (now, clock) := clock.read
      (r.printBanner version count now, clock)
  | .evaluation expression result => (r.printEvaluation expression result, clock)
  | .trace tokens => (r.printTrace tokens, clock)
  | .diagnostics list => (r.printDiagnostics list, clock)
  | .summary summary =>
    let (now, clock) := clock.read
    (r.printSummary summary now, clock)
  | .success => (r.printSuccess, clock)
  | .info text => (r.printInfo text, clock)

/-- Serves requests one after the other; one that stops early does not keep the next ones from
being served. -/
def performAll (r : Reporter) (clock : Clock) : List Call → List Printed
  | [] => []
  | call :: calls =>
    let (printed, clock) := r.perform clock call
    printed :: performAll r clock calls

/-- The text of what was printed. -/
def render (r : Reporter) (printed : Printed) : String :=
  renderLines r.colored printed.lines

end Reporter

end LineSum
