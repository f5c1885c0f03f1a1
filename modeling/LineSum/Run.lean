import LineSum.CommandLine.Reading
import LineSum.CommandLine.Version
import LineSum.Config.Loading
import LineSum.Report.Reporter

/-!
# Sessions and runs

A session collects and evaluates expressions and says what is printed. A run begins one, or shows
help or the version, as the command line asks.
-/

namespace LineSum

/-! ## Sessions

A session collects what there is to evaluate and what is wrong before anything is printed: the
settings, the diagnostics and the expressions. What is evaluated, what the numbers at the end are
and what is printed follow from it.
-/

/-- What keeps a session from coming to its end. -/
inductive SessionError where
  | node (error : Yaml.NodeError)
  | pattern (error : PatternError)
  deriving DecidableEq, Repr

/-- The sentence that reports why a session did not come to its end. -/
def SessionError.message : SessionError → String
  | node error => error.message
  | pattern error => error.message

/-- A session: its settings, the diagnostics about the configuration file and the profile, those
about the sources of expressions, and the expressions. -/
structure Session where
  settings : Settings
  configDiagnostics : List Diagnostic
  sourceDiagnostics : List Diagnostic
  expressions : List Expression
  deriving Repr

/-- The error that there is nothing to evaluate. -/
def noExpressions : Diagnostic where
  code := .noExpressions
  message := "No expressions to evaluate. Pass them as arguments or with --file."
  severity := .error
  file := "<input>"
  range := none
  source := none

namespace Session

/-- The settings of a session and the diagnostics about them. A profile that is missing is reported
with the configuration file as it was named. -/
def configure (files : FileSystem) (directory : Path) (options : Options) :
    Except SessionError (Settings × List Diagnostic) :=
  match loadConfig files directory options.config with
  | .error e => .error (.node e)
  | .ok loaded =>
    let (settings, diagnostics) := resolveSettings loaded.config options.profile options.fields
      (options.config.getD defaultConfigFile)
    .ok (settings, loaded.diagnostics ++ diagnostics)

/-- The session for given settings: the expressions of the command line come
before those of files. -/
def collect (files : FileSystem) (directory : Path) (settings : Settings)
    (configDiagnostics : List Diagnostic) (texts : List String) : Except SessionError Session :=
  match loadExpressions files directory settings.ignore settings.files with
  | .error e => .error (.pattern e)
  | .ok loaded =>
    let expressions := Expression.ofArguments texts ++ loaded.expressions
    let missing := if expressions.isEmpty then [noExpressions] else []
    .ok ⟨settings, configDiagnostics, loaded.diagnostics ++ missing, expressions⟩

/-- The session for the options and expressions of a command line. -/
def start (files : FileSystem) (directory : Path) (options : Options) (texts : List String) :
    Except SessionError Session :=
  match configure files directory options with
  | .error e => .error e
  | .ok (settings, diagnostics) => collect files directory settings diagnostics texts

/-- All diagnostics, in the order in which they are printed. -/
def diagnostics (s : Session) : List Diagnostic :=
  s.configDiagnostics ++ s.sourceDiagnostics

/-- Whether the configuration is so wrong that nothing is evaluated. -/
def isBroken (s : Session) : Bool :=
  s.configDiagnostics.any Diagnostic.isError

/-- Evaluates expressions one after the other, up to the first failure if that is asked for. -/
def evaluateAll (failFast : Bool) : List Expression → List (Expression × Evaluation)
  | [] => []
  | expression :: rest =>
    let result := evaluate expression.text
    (expression, result) ::
      if failFast && !result.succeeded then [] else evaluateAll failFast rest

/-- The expressions that are evaluated, with what became of them. -/
def evaluated (s : Session) : List (Expression × Evaluation) :=
  if s.isBroken then [] else evaluateAll s.settings.failFast s.expressions

/-- How many expressions have a value. -/
def passed (s : Session) : Nat :=
  s.evaluated.countP fun e => e.2.succeeded

/-- How many expressions were evaluated and have none. -/
def failed (s : Session) : Nat :=
  s.evaluated.countP fun e => !e.2.succeeded

/-- The numbers of errors and warnings. -/
def counts (s : Session) : Counts :=
  .ofDiagnostics s.diagnostics

/-- The exit code: zero if nothing failed and there is no error. -/
def exitCode (s : Session) : Nat :=
  if 0 < s.failed || 0 < s.counts.errors then 1 else 0

/-- The numbers at the end. -/
def summary (s : Session) : Summary :=
  ⟨s.expressions.length, s.passed, s.failed, s.counts, s.exitCode⟩

/-- Whether the session ends with a success message: nothing is wrong, not even a little. -/
def isSuccess (s : Session) : Bool :=
  s.exitCode = 0 && s.counts.warnings = 0

/-- The remark that the session stopped early. -/
def stopRemark : String := "Stopping at first failure (--fail-fast)."

/-- All that a reporter is asked to print, in this order. -/
def calls (s : Session) (version : String) : List Call :=
  [.banner version s.expressions.length, .diagnostics s.diagnostics] ++
  s.evaluated.map (fun e => .evaluation e.1 e.2) ++
  (if s.settings.failFast && 0 < s.failed then [.info stopRemark] else []) ++
  [.summary s.summary] ++
  (if s.isSuccess then [.success] else [])

/-- The reporter of a session. -/
def reporter (s : Session) (terminal : Terminal) (now : Int) : Reporter :=
  .make s.settings.format s.settings.color s.settings.trace terminal now

/-- What a session prints. The clock is read first when the reporter is made. -/
def output (s : Session) (version : String) (terminal : Terminal) (clock : Clock) : String :=
  let (now, clock) := clock.read
  let reporter := s.reporter terminal now
  String.join ((reporter.performAll clock (s.calls version)).map reporter.render)

end Session

/-! ## Runs

A run reads the command line and does what it asks for. Its result is what is printed and the exit
code; only a session can keep it from having one.
-/

/-- What a run knows of its surroundings. -/
structure Surroundings where
  files : FileSystem
  directory : Path
  terminal : Terminal
  clock : Clock
  version : String

/-- The result of a run: the exit code, what is printed and what is reported as an error. -/
structure RunResult where
  exitCode : Nat
  output : String
  errors : String
  deriving DecidableEq, Repr

/-- What becomes of a command line. -/
def CommandLine.run (world : Surroundings) : CommandLine → Except SessionError RunResult
  | showVersion => .ok ⟨0, world.version ++ "\n", ""⟩
  | showHelp => .ok ⟨0, helpText, ""⟩
  | reject error => .ok ⟨1, "", error.message ++ "\n"⟩
  | evaluate options texts =>
    match Session.start world.files world.directory options texts with
    | .error e => .error e
    | .ok session =>
      .ok ⟨session.exitCode, session.output world.version world.terminal world.clock, ""⟩

/-- The run for the arguments of a command line. -/
def run (world : Surroundings) (arguments : List String) : Except SessionError RunResult :=
  (CommandLine.ofArguments arguments).run world

end LineSum
