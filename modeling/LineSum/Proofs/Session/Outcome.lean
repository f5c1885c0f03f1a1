import LineSum.Run
import LineSum.Proofs.Expr.Grammar

/-!
# The outcome of a run

A run that comes to its end has loaded its configuration, its settings and its sources. `Loaded`
holds what it has loaded, and the session follows from that. The exit code is counted together from
what was evaluated before the first failure and from the diagnostics, but it says no less than this:
it is zero when there is no error and every expression has a value.
-/

namespace LineSum

/-! ## What a run has loaded -/

/-- What a run has loaded, and where it comes from. -/
structure Loaded (world : Surroundings) (options : Options) where
  config : LoadedConfig
  settings : Settings
  profileDiagnostics : List Diagnostic
  sources : LoadedExpressions
  config_eq : loadConfig world.files world.directory options.config = .ok config
  settings_eq : resolveSettings config.config options.profile options.fields
    (options.config.getD defaultConfigFile) = (settings, profileDiagnostics)
  sources_eq : loadExpressions world.files world.directory settings.ignore settings.files =
    .ok sources

namespace Loaded

variable {world : Surroundings} {options : Options}

/-- The diagnostics of loading: about the configuration file, the profile and the sources. -/
def diagnostics (l : Loaded world options) : List Diagnostic :=
  l.config.diagnostics ++ l.profileDiagnostics ++ l.sources.diagnostics

/-- The expressions of a run: those of the command line, and behind them those of the sources. -/
def expressions (l : Loaded world options) (texts : List String) : List Expression :=
  Expression.ofArguments texts ++ l.sources.expressions

/-- The session that follows from what has been loaded. -/
def session (l : Loaded world options) (texts : List String) : Session where
  settings := l.settings
  configDiagnostics := l.config.diagnostics ++ l.profileDiagnostics
  sourceDiagnostics := l.sources.diagnostics ++
    if (l.expressions texts).isEmpty then [noExpressions] else []
  expressions := l.expressions texts

/-- A run cannot have loaded two different things. -/
instance : Subsingleton (Loaded world options) where
  allEq := by
    rintro ⟨config, settings, diagnostics, sources, hconfig, hsettings, hsources⟩
      ⟨config', settings', diagnostics', sources', hconfig', hsettings', hsources'⟩
    rw [hconfig, Except.ok.injEq] at hconfig'
    subst hconfig'
    rw [hsettings, Prod.mk.injEq] at hsettings'
    obtain ⟨rfl, rfl⟩ := hsettings'
    rw [hsources, Except.ok.injEq] at hsources'
    subst hsources'
    rfl

/-- A session starts from what has been loaded. -/
theorem start_eq (l : Loaded world options) (texts : List String) :
    Session.start world.files world.directory options texts = .ok (l.session texts) := by
  unfold Session.start Session.configure
  rw [l.config_eq]
  simp only [l.settings_eq]
  unfold Session.collect
  rw [l.sources_eq]
  rfl

end Loaded

/-- A session that starts has loaded what it follows from. -/
theorem exists_loaded {world : Surroundings} {options : Options} {texts : List String}
    {s : Session} (h : Session.start world.files world.directory options texts = .ok s) :
    ∃ l : Loaded world options, s = l.session texts := by
  have hstart := h
  unfold Session.start Session.configure at h
  cases hconfig : loadConfig world.files world.directory options.config with
  | error e =>
    rw [hconfig] at h
    cases h
  | ok config =>
    rw [hconfig] at h
    simp only [] at h
    unfold Session.collect at h
    cases hsources : loadExpressions world.files world.directory
        (resolveSettings config.config options.profile options.fields
          (options.config.getD defaultConfigFile)).1.ignore
        (resolveSettings config.config options.profile options.fields
          (options.config.getD defaultConfigFile)).1.files with
    | error e =>
      rw [hsources] at h
      cases h
    | ok sources =>
      let l : Loaded world options := ⟨config, _, _, sources, hconfig, rfl, hsources⟩
      have heq := (l.start_eq texts).symm.trans hstart
      rw [Except.ok.injEq] at heq
      exact ⟨l, heq.symm⟩

/-- A run gives the exit code and the output of the session that it starts. -/
theorem run_of_start {world : Surroundings} {options : Options} {texts : List String} {s : Session}
    (h : Session.start world.files world.directory options texts = .ok s) :
    (CommandLine.evaluate options texts).run world =
      .ok ⟨s.exitCode, s.output world.version world.terminal world.clock, ""⟩ := by
  rw [CommandLine.run, h]

/-- A run that comes to its end gives the exit code and the output of the session that follows from
what it has loaded. -/
theorem run_evaluate_eq_ok_iff {world : Surroundings} {options : Options} {texts : List String}
    {result : RunResult} :
    (CommandLine.evaluate options texts).run world = .ok result ↔
      ∃ l : Loaded world options, result = ⟨(l.session texts).exitCode,
        (l.session texts).output world.version world.terminal world.clock, ""⟩ := by
  rw [CommandLine.run]
  constructor
  · intro h
    cases hstart : Session.start world.files world.directory options texts with
    | error e =>
      rw [hstart] at h
      cases h
    | ok s =>
      rw [hstart] at h
      obtain ⟨l, rfl⟩ := exists_loaded hstart
      cases h
      exact ⟨l, rfl⟩
  · rintro ⟨l, rfl⟩
    exact run_of_start (l.start_eq texts)

/-! ## Errors and warnings -/

/-- Nothing is counted of a severity that no diagnostic has. -/
theorem countP_severity_eq_zero_iff (severity : Severity) (ds : List Diagnostic) :
    (ds.map Diagnostic.severity).countP (· = severity) = 0 ↔
      ∀ d ∈ ds, d.severity ≠ severity := by
  rw [List.countP_eq_zero, List.forall_mem_map]
  simp

/-- There are no errors to be counted when no diagnostic is an error. -/
theorem errors_eq_zero_iff (ds : List Diagnostic) :
    (Counts.ofDiagnostics ds).errors = 0 ↔ ∀ d ∈ ds, d.severity ≠ .error :=
  countP_severity_eq_zero_iff .error ds

/-- There are no warnings to be counted when no diagnostic is a warning. -/
theorem warnings_eq_zero_iff (ds : List Diagnostic) :
    (Counts.ofDiagnostics ds).warnings = 0 ↔ ∀ d ∈ ds, d.severity ≠ .warning :=
  countP_severity_eq_zero_iff .warning ds

namespace Loaded

variable {world : Surroundings} {options : Options}

/-- The diagnostics of a session are those of loading, and that there is nothing to evaluate. -/
theorem session_diagnostics (l : Loaded world options) (texts : List String) :
    (l.session texts).diagnostics =
      l.diagnostics ++ if (l.expressions texts).isEmpty then [noExpressions] else [] :=
  (List.append_assoc _ _ _).symm

/-- A session has no errors when loading gave none and there is something to evaluate. -/
theorem session_errors_iff (l : Loaded world options) (texts : List String) :
    (∀ d ∈ (l.session texts).diagnostics, d.severity ≠ .error) ↔
      (∀ d ∈ l.diagnostics, d.severity ≠ .error) ∧ l.expressions texts ≠ [] := by
  rw [session_diagnostics, List.forall_mem_append]
  cases l.expressions texts with
  | nil => simp [noExpressions]
  | cons e es => simp

/-- A session has no warnings when loading gave none. -/
theorem session_warnings_iff (l : Loaded world options) (texts : List String) :
    (∀ d ∈ (l.session texts).diagnostics, d.severity ≠ .warning) ↔
      ∀ d ∈ l.diagnostics, d.severity ≠ .warning := by
  rw [session_diagnostics, List.forall_mem_append]
  cases l.expressions texts with
  | nil => simp [noExpressions]
  | cons e es => simp

end Loaded

/-! ## What is evaluated -/

namespace Session

/-- Whether or not evaluating stops at the first failure, no failure is passed over: all that is
evaluated has a value exactly when every expression has one. -/
theorem forall_evaluateAll_iff (failFast : Bool) (es : List Expression) :
    (∀ r ∈ evaluateAll failFast es, r.2.succeeded = true) ↔
      ∀ e ∈ es, (evaluate e.text).succeeded = true := by
  induction es with
  | nil => simp [evaluateAll]
  | cons e es ih =>
    rw [evaluateAll, List.forall_mem_cons, List.forall_mem_cons]
    by_cases he : (evaluate e.text).succeeded = true
    · rw [he, Bool.not_true, Bool.and_false, if_neg Bool.false_ne_true, ih]
    · exact iff_of_false (fun h => he h.1) fun h => he h.1

/-- If every expression has a value, all of them are evaluated. -/
theorem evaluateAll_eq_map (failFast : Bool) {es : List Expression}
    (h : ∀ e ∈ es, (evaluate e.text).succeeded = true) :
    evaluateAll failFast es = es.map fun e => (e, evaluate e.text) := by
  induction es with
  | nil => rfl
  | cons e es ih =>
    rw [List.forall_mem_cons] at h
    rw [evaluateAll, h.1, Bool.not_true, Bool.and_false, if_neg Bool.false_ne_true, ih h.2,
      List.map_cons]

/-- Without errors everything is evaluated that is asked for. -/
theorem evaluated_eq (s : Session) (h : ∀ d ∈ s.diagnostics, d.severity ≠ .error) :
    s.evaluated = evaluateAll s.settings.failFast s.expressions := by
  have hbroken : ¬ s.isBroken = true := by
    unfold isBroken
    rw [List.any_eq_true]
    rintro ⟨d, hd, herror⟩
    exact h d (List.mem_append_left _ hd) (of_decide_eq_true herror)
  rw [evaluated, if_neg hbroken]

/-- The exit code is zero or one. -/
theorem exitCode_eq_zero_or_one (s : Session) : s.exitCode = 0 ∨ s.exitCode = 1 := by
  unfold exitCode
  split
  · exact Or.inr rfl
  · exact Or.inl rfl

/-- The exit code is zero when there is no error and every expression has a value: what was not
evaluated is made up for by the errors or by the failure that kept it from being evaluated. -/
theorem exitCode_eq_zero_iff (s : Session) :
    s.exitCode = 0 ↔ (∀ d ∈ s.diagnostics, d.severity ≠ .error) ∧
      ∀ e ∈ s.expressions, (evaluate e.text).succeeded = true := by
  have hcount : s.exitCode = 0 ↔ s.counts.errors = 0 ∧ s.failed = 0 := by
    unfold exitCode
    by_cases hfailed : s.failed = 0 <;> by_cases herrors : s.counts.errors = 0 <;>
      simp [hfailed, herrors, Nat.pos_iff_ne_zero]
  rw [hcount, counts, errors_eq_zero_iff, failed, List.countP_eq_zero]
  refine and_congr_right fun h => ?_
  rw [s.evaluated_eq h, ← forall_evaluateAll_iff s.settings.failFast]
  simp

/-- If the exit code is zero, all expressions have been evaluated and passed. -/
theorem summary_of_exitCode_eq_zero (s : Session) (h : s.exitCode = 0) :
    s.summary.passed = s.summary.total ∧ s.summary.failed = 0 := by
  obtain ⟨herrors, hvalues⟩ := s.exitCode_eq_zero_iff.mp h
  have hall := evaluateAll_eq_map s.settings.failFast hvalues
  show s.passed = s.expressions.length ∧ s.failed = 0
  rw [passed, failed, s.evaluated_eq herrors, hall, List.countP_map, List.countP_map,
    List.countP_eq_length.mpr, List.countP_eq_zero.mpr]
  · exact ⟨rfl, rfl⟩
  · intro e he
    simp [hvalues e he]
  · exact hvalues

/-! ## What is printed at the end -/

/-- All that a reporter is asked to print before the success message. -/
def reportCalls (s : Session) (version : String) : List Call :=
  [.banner version s.expressions.length, .diagnostics s.diagnostics] ++
  s.evaluated.map (fun e => .evaluation e.1 e.2) ++
  (if s.settings.failFast && 0 < s.failed then [.info stopRemark] else []) ++
  [.summary s.summary]

/-- What a session prints before the success message. -/
def report (s : Session) (version : String) (terminal : Terminal) (clock : Clock) : String :=
  let reporter := s.reporter terminal clock.read.1
  String.join ((reporter.performAll clock.read.2 (s.reportCalls version)).map reporter.render)

end Session

namespace Reporter

/-- The clock after some requests. -/
def clockAfter (r : Reporter) (clock : Clock) (calls : List Call) : Clock :=
  calls.foldl (fun clock call => (r.perform clock call).2) clock

/-- A request is served before the requests that follow it. -/
theorem performAll_cons (r : Reporter) (clock : Clock) (call : Call) (calls : List Call) :
    r.performAll clock (call :: calls) =
      (r.perform clock call).1 :: r.performAll (r.perform clock call).2 calls := rfl

/-- Requests that follow others are served with what the others leave of the clock. -/
theorem performAll_append (r : Reporter) (clock : Clock) (a b : List Call) :
    r.performAll clock (a ++ b) =
      r.performAll clock a ++ r.performAll (r.clockAfter clock a) b := by
  induction a generalizing clock with
  | nil => rfl
  | cons call a ih =>
    rw [List.cons_append, performAll_cons, performAll_cons, ih]
    rfl

end Reporter

/-- The message that everything has been evaluated. -/
def successMessage (colored : Bool) : String :=
  renderLines colored [Line.blank,
    [.styled .green "✓", .plain " ", .styled .greenBold "All expressions evaluated!"]]

/-- The success message is for people: the other formats leave it out. -/
theorem render_printSuccess (r : Reporter) :
    r.render r.printSuccess =
      if r.format = .pretty ∨ r.format = .plain then successMessage r.colored else "" := by
  obtain ⟨format, trace, colored, started⟩ := r
  cases format <;> rfl

/-- What a session prints is its report, and for people the success message if there is cause. -/
theorem Session.output_eq (s : Session) (version : String) (terminal : Terminal) (clock : Clock) :
    s.output version terminal clock = s.report version terminal clock ++
      if s.isSuccess = true ∧ (s.settings.format = .pretty ∨ s.settings.format = .plain) then
        successMessage (usesColor s.settings.format s.settings.color terminal)
      else "" := by
  have hcalls : s.calls version =
      s.reportCalls version ++ if s.isSuccess = true then [.success] else [] := rfl
  let r := s.reporter terminal clock.read.1
  show String.join ((r.performAll clock.read.2 (s.calls version)).map r.render) = _
  rw [hcalls, Reporter.performAll_append, List.map_append, String.join_append]
  have hsuccess (c : Clock) : String.join
      ((r.performAll c (if s.isSuccess = true then [.success] else [])).map r.render) =
      if s.isSuccess = true ∧ (s.settings.format = .pretty ∨ s.settings.format = .plain) then
        successMessage (usesColor s.settings.format s.settings.color terminal)
      else "" := by
    by_cases h : s.isSuccess = true
    · rw [if_pos h, Reporter.performAll_cons, List.map_cons, String.join_cons]
      show r.render r.printSuccess ++ String.join [] = _
      rw [render_printSuccess, String.join_nil, String.append_empty]
      simp only [h, true_and]
      rfl
    · rw [if_neg h, if_neg fun hand => h hand.1]
      rfl
  rw [hsuccess]
  rfl

/-! ## The exit code of a run -/

/-- **The exit code says that all is well.** A run that comes to its end exits with zero when
loading gave no error, there is something to evaluate and every expression has a value, and
otherwise with one; formats, colours, traces and stopping early make no difference. The success
message comes last in the output, for people and if there is not even a warning; and then the
summary shows that all expressions, one at least, have passed. -/
theorem exitCode_run {world : Surroundings} {options : Options} {texts : List String}
    {result : RunResult} (h : (CommandLine.evaluate options texts).run world = .ok result) :
    ∃ l : Loaded world options,
      (result.exitCode = 0 ↔ (∀ d ∈ l.diagnostics, d.severity ≠ .error) ∧
        l.expressions texts ≠ [] ∧
        ∀ e ∈ l.expressions texts, (evaluate e.text).succeeded = true) ∧
      (result.exitCode = 0 ∨ result.exitCode = 1) ∧
      (result.output = (l.session texts).report world.version world.terminal world.clock ++
        if result.exitCode = 0 ∧ (∀ d ∈ l.diagnostics, d.severity ≠ .warning) ∧
            (l.settings.format = .pretty ∨ l.settings.format = .plain) then
          successMessage (usesColor l.settings.format l.settings.color world.terminal)
        else "") ∧
      (result.exitCode = 0 →
        (l.session texts).summary.passed = (l.session texts).summary.total ∧
        1 ≤ (l.session texts).summary.total ∧ (l.session texts).summary.failed = 0) := by
  obtain ⟨l, rfl⟩ := run_evaluate_eq_ok_iff.mp h
  have hzero : (l.session texts).exitCode = 0 ↔ (∀ d ∈ l.diagnostics, d.severity ≠ .error) ∧
      l.expressions texts ≠ [] ∧
      ∀ e ∈ l.expressions texts, (evaluate e.text).succeeded = true := by
    rw [Session.exitCode_eq_zero_iff, l.session_errors_iff, and_assoc]
    rfl
  refine ⟨l, hzero, (l.session texts).exitCode_eq_zero_or_one, ?_, fun hexit => ?_⟩
  · have hsuccess : (l.session texts).isSuccess = true ↔ (l.session texts).exitCode = 0 ∧
        ∀ d ∈ l.diagnostics, d.severity ≠ .warning := by
      rw [← l.session_warnings_iff texts, ← warnings_eq_zero_iff, Session.isSuccess,
        Bool.and_eq_true, decide_eq_true_iff, decide_eq_true_iff]
      rfl
    dsimp only
    rw [Session.output_eq]
    simp only [hsuccess, and_assoc]
    rfl
  · obtain ⟨hpassed, hfailed⟩ := (l.session texts).summary_of_exitCode_eq_zero hexit
    exact ⟨hpassed, List.length_pos_of_ne_nil (hzero.mp hexit).2.1, hfailed⟩

/-- Surroundings with one file of sums, which every pattern finds. -/
def sumsWorld : Surroundings where
  files := ⟨fun _ => false, fun _ => .ok "# sums\n\n4 - 6\n", fun _ _ => .ok [⟨["sums.txt"]⟩],
    usualCapacity⟩
  directory := ⟨[]⟩
  terminal := ⟨false, false, false⟩
  clock := ⟨[0]⟩
  version := "1.0.0"

/-- Options that name the file of sums by a pattern, and ask to stop at the first failure. -/
def sumsOptions : Options := { Options.none with files := ["*.txt"], failFast := true }

/-- What a run with these options loads. -/
def sumsLoaded : Loaded sumsWorld sumsOptions where
  config := ⟨none, []⟩
  settings := ⟨.pretty, .auto, false, true, ["*.txt"], []⟩
  profileDiagnostics := []
  sources := ⟨[⟨"4 - 6", "sums.txt", 3⟩], []⟩
  config_eq := rfl
  settings_eq := rfl
  sources_eq := by cbv

/-- A run over an argument and the file of sums exits with zero and prints the success message. -/
theorem exitCode_run_sums : ∃ result report,
    (CommandLine.evaluate sumsOptions ["10 + 3 - 2"]).run sumsWorld = .ok result ∧
    result.exitCode = 0 ∧ result.output = report ++ successMessage false := by
  let s := sumsLoaded.session ["10 + 3 - 2"]
  have hrun : (CommandLine.evaluate sumsOptions ["10 + 3 - 2"]).run sumsWorld =
      .ok ⟨s.exitCode, s.output sumsWorld.version sumsWorld.terminal sumsWorld.clock, ""⟩ :=
    run_evaluate_eq_ok_iff.mpr ⟨sumsLoaded, rfl⟩
  obtain ⟨l, hzero, -, houtput, -⟩ := exitCode_run hrun
  obtain rfl : l = sumsLoaded := Subsingleton.elim l sumsLoaded
  have hexit := hzero.mpr ⟨by decide, by decide, by decide +kernel⟩
  rw [if_pos ⟨hexit, by decide, by decide⟩] at houtput
  exact ⟨_, _, hrun, hexit, houtput⟩

end LineSum
