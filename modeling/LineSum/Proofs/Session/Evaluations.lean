import LineSum.Proofs.Report.Texts
import LineSum.Proofs.Session.Diagnostics
import LineSum.Proofs.Session.Flags

/-!
# What a session prints, and in which order

A session prints its diagnostics, each of them once, then the expressions that are evaluated, and
then the numbers. A broken configuration keeps everything from being evaluated. Stopping at the
first failure shows the expressions up to that failure, and makes no other difference to what is
evaluated or to the exit code.
-/

namespace LineSum

/-! ## The first failure -/

/-- The last of some expressions has no value. -/
def EndsWithFailure (es : List Expression) : Prop :=
  ∃ e, es.getLast? = some e ∧ ¬ (evaluate e.text).succeeded = true

/-- A row of expressions up to the first failure: the shortest beginning of the row that ends with a
failure, and the whole row if nothing in it fails. -/
def IsUpToFirstFailure (shown es : List Expression) : Prop :=
  ((∀ e ∈ es, (evaluate e.text).succeeded = true) ∧ shown = es) ∨
    (shown <+: es ∧ EndsWithFailure shown ∧
      ∀ p, p <+: es → EndsWithFailure p → shown.length ≤ p.length)

/-- What ends with a failure is not empty. -/
theorem EndsWithFailure.length_pos {es : List Expression} (h : EndsWithFailure es) :
    0 < es.length := by
  obtain ⟨e, he, -⟩ := h
  cases es with
  | nil => cases he
  | cons e' es => exact Nat.succ_pos _

/-- An expression that has a value, put in front, does not change how a row ends. -/
theorem endsWithFailure_cons_iff {e : Expression} (he : (evaluate e.text).succeeded = true)
    (es : List Expression) : EndsWithFailure (e :: es) ↔ EndsWithFailure es := by
  unfold EndsWithFailure
  cases es with
  | nil => simp [he]
  | cons e' es => simp [List.getLast?_cons]

/-- A row that begins with a failure is shown up to this failure. -/
theorem isUpToFirstFailure_of_failure {e : Expression}
    (he : ¬ (evaluate e.text).succeeded = true) (es : List Expression) :
    IsUpToFirstFailure [e] (e :: es) :=
  Or.inr ⟨⟨es, rfl⟩, ⟨e, rfl, he⟩, fun _ _ hp => hp.length_pos⟩

/-- Behind an expression that has a value, a row is shown up to the first failure of the rest. -/
theorem IsUpToFirstFailure.cons {e : Expression} (he : (evaluate e.text).succeeded = true)
    {shown es : List Expression} (h : IsUpToFirstFailure shown es) :
    IsUpToFirstFailure (e :: shown) (e :: es) := by
  rcases h with ⟨hall, rfl⟩ | ⟨hbegin, hend, hleast⟩
  · exact Or.inl ⟨List.forall_mem_cons.mpr ⟨he, hall⟩, rfl⟩
  · refine Or.inr ⟨?_, (endsWithFailure_cons_iff he shown).mpr hend, ?_⟩
    · exact (List.prefix_cons_inj e).mpr hbegin
    · intro p hp hpend
      cases p with
      | nil => exact absurd hpend.length_pos (Nat.lt_irrefl 0)
      | cons e' p =>
        -- a longer beginning that ends with a failure does so without its first expression, too
        obtain ⟨rfl, hrest⟩ := List.cons_prefix_cons.mp hp
        have := hleast p hrest ((endsWithFailure_cons_iff he p).mp hpend)
        simp only [List.length_cons]
        omega

/-- What is shown up to the first failure is a beginning of the row. -/
theorem IsUpToFirstFailure.isPrefix {shown es : List Expression}
    (h : IsUpToFirstFailure shown es) : shown <+: es := by
  rcases h with ⟨-, rfl⟩ | ⟨hbegin, -, -⟩
  · exact List.prefix_rfl
  · exact hbegin

namespace Session

/-! ## What is evaluated -/

/-- Every expression is shown with what evaluating it gives. -/
theorem evaluateAll_eq_map_fst (failFast : Bool) (es : List Expression) :
    evaluateAll failFast es =
      ((evaluateAll failFast es).map Prod.fst).map fun e => (e, evaluate e.text) := by
  induction es with
  | nil => rfl
  | cons e es ih =>
    rw [evaluateAll, List.map_cons, List.map_cons]
    congr 1
    split
    · rfl
    · exact ih

/-- Unless evaluating stops early, all expressions are evaluated. -/
theorem map_fst_evaluateAll_false (es : List Expression) :
    (evaluateAll false es).map Prod.fst = es := by
  induction es with
  | nil => rfl
  | cons e es ih =>
    rw [evaluateAll, List.map_cons, Bool.false_and, if_neg Bool.false_ne_true, ih]

/-- If evaluating stops early, it does so at the first failure. -/
theorem isUpToFirstFailure_evaluateAll (es : List Expression) :
    IsUpToFirstFailure ((evaluateAll true es).map Prod.fst) es := by
  induction es with
  | nil => exact Or.inl ⟨List.forall_mem_nil _, rfl⟩
  | cons e es ih =>
    rw [evaluateAll, List.map_cons, Bool.true_and]
    by_cases he : (evaluate e.text).succeeded = true
    · rw [he, Bool.not_true, if_neg Bool.false_ne_true]
      exact ih.cons he
    · rw [Bool.not_eq_true] at he
      rw [he, Bool.not_false, if_pos rfl]
      exact isUpToFirstFailure_of_failure (by rw [he]; exact Bool.false_ne_true) es

/-- The expressions of a session that are evaluated, in the order in which they are shown. -/
def shown (s : Session) : List Expression := s.evaluated.map Prod.fst

/-- What is evaluated are the expressions that are shown, with what evaluating them gives. -/
theorem evaluated_eq_map_shown (s : Session) :
    s.evaluated = s.shown.map fun e => (e, evaluate e.text) := by
  unfold shown evaluated
  split
  · rfl
  · exact evaluateAll_eq_map_fst _ _

/-- A configuration is broken by its errors, and by nothing else. -/
theorem isBroken_iff (s : Session) :
    s.isBroken = true ↔ ∃ d ∈ s.configDiagnostics, d.severity = .error := by
  unfold isBroken
  rw [List.any_eq_true]
  simp only [Diagnostic.isError, decide_eq_true_eq]

/-- With a broken configuration nothing is shown. -/
theorem shown_of_broken {s : Session} (h : s.isBroken = true) : s.shown = [] := by
  unfold shown evaluated
  rw [if_pos h]
  rfl

/-- Without a broken configuration, all expressions are shown unless the session stops early. -/
theorem shown_of_failFast_eq_false {s : Session} (h : ¬ s.isBroken = true)
    (hfast : s.settings.failFast = false) : s.shown = s.expressions := by
  unfold shown evaluated
  rw [if_neg h, hfast, map_fst_evaluateAll_false]

/-- A session that stops early shows its expressions up to the first failure. -/
theorem isUpToFirstFailure_shown {s : Session} (h : ¬ s.isBroken = true)
    (hfast : s.settings.failFast = true) : IsUpToFirstFailure s.shown s.expressions := by
  unfold shown evaluated
  rw [if_neg h, hfast]
  exact isUpToFirstFailure_evaluateAll s.expressions

/-- The expressions that passed are counted among those that are shown. -/
theorem passed_eq (s : Session) :
    s.passed = s.shown.countP fun e => (evaluate e.text).succeeded := by
  unfold passed
  rw [evaluated_eq_map_shown, List.countP_map]
  rfl

/-- The expressions that failed are counted among those that are shown. -/
theorem failed_eq (s : Session) :
    s.failed = s.shown.countP fun e => !(evaluate e.text).succeeded := by
  unfold failed
  rw [evaluated_eq_map_shown, List.countP_map]
  rfl

end Session

/-! ## What is printed -/

namespace Reporter

/-- What requests print, one after the other. -/
def text (r : Reporter) (clock : Clock) (calls : List Call) : String :=
  String.join ((r.performAll clock calls).map r.render)

/-- The first request is printed first. -/
theorem text_cons (r : Reporter) (clock : Clock) (call : Call) (calls : List Call) :
    r.text clock (call :: calls) =
      r.render (r.perform clock call).1 ++ r.text (r.perform clock call).2 calls := by
  unfold text
  rw [performAll_cons, List.map_cons, String.join_cons]

/-- What a reporter prints of an expression. -/
def evaluationText (r : Reporter) (e : Expression) : String :=
  r.render (r.printEvaluation e (evaluate e.text))

/-- Evaluations are printed one after the other, and none of them looks at the clock. -/
theorem text_evaluations (r : Reporter) (clock : Clock) (es : List Expression)
    (calls : List Call) :
    r.text clock (es.map (fun e => .evaluation e (evaluate e.text)) ++ calls) =
      String.join (es.map r.evaluationText) ++ r.text clock calls := by
  induction es with
  | nil => simp
  | cons e es ih =>
    rw [List.map_cons, List.cons_append, text_cons, List.map_cons, String.join_cons,
      String.append_assoc, ← ih]
    rfl

end Reporter

namespace Session

/-- What a session prints before its evaluations: the banner, and every diagnostic once. -/
def opening (s : Session) (r : Reporter) (version : String) (now : Int) : String :=
  r.render (r.printBanner version s.expressions.length now) ++
    String.join (s.diagnostics.map fun d => r.render (r.printDiagnostic d))

/-- What a session prints behind its evaluations: that it stopped early, if it did, the summary, and
the success message, if there is cause. -/
def closing (s : Session) (r : Reporter) (now : Int) : String :=
  (if s.settings.failFast = true ∧ 0 < s.failed then r.render (r.printInfo stopRemark) else "") ++
    r.render (r.printSummary s.summary now) ++
    if s.isSuccess = true then r.render r.printSuccess else ""

/-- The requests behind the evaluations print the closing of a session. -/
theorem text_closing (s : Session) (r : Reporter) (clock : Clock) :
    r.text clock ((if s.settings.failFast && 0 < s.failed then [.info stopRemark] else []) ++
      [.summary s.summary] ++ (if s.isSuccess then [.success] else [])) =
      s.closing r clock.read.1 := by
  have hsuccess (c : Clock) : r.text c (if s.isSuccess then [.success] else []) =
      if s.isSuccess = true then r.render r.printSuccess else "" := by
    split
    · rw [Reporter.text_cons]
      show r.render r.printSuccess ++ "" = _
      rw [String.append_empty]
    · rfl
  have hsummary (calls : List Call) : r.text clock ([.summary s.summary] ++ calls) =
      r.render (r.printSummary s.summary clock.read.1) ++ r.text clock.read.2 calls := by
    rw [List.singleton_append, Reporter.text_cons]
    rfl
  unfold closing
  rw [List.append_assoc]
  by_cases hstop : s.settings.failFast = true ∧ 0 < s.failed
  · rw [if_pos (by simpa using hstop), if_pos hstop, List.singleton_append, Reporter.text_cons]
    show r.render (r.printInfo stopRemark) ++ r.text clock _ = _
    rw [hsummary, hsuccess, String.append_assoc]
  · rw [if_neg (by simpa using hstop), if_neg hstop, List.nil_append, hsummary, hsuccess,
      String.empty_append]

/-- The time at which a session prints its numbers, if its requests begin at the given clock: a
banner that is printed reads the clock before. -/
def closingTime (s : Session) (r : Reporter) (version : String) (clock : Clock) : Int :=
  (r.perform clock (.banner version s.expressions.length)).2.read.1

/-- The output of a session is its opening, its evaluations and its closing. -/
theorem output_eq_opening_evaluations_closing (s : Session)
    (hgeneral : ∀ d ∈ s.diagnostics, d.source = none) (version : String) (terminal : Terminal)
    (clock : Clock) :
    let r := s.reporter terminal clock.read.1
    s.output version terminal clock = s.opening r version clock.read.2.read.1 ++
      String.join (s.shown.map r.evaluationText) ++
      s.closing r (s.closingTime r version clock.read.2) := by
  intro r
  let rest : List Call :=
    (if s.settings.failFast && 0 < s.failed then [.info stopRemark] else []) ++
      [.summary s.summary] ++ (if s.isSuccess then [.success] else [])
  have hcalls : s.calls version = .banner version s.expressions.length ::
      .diagnostics s.diagnostics :: (s.shown.map (fun e => .evaluation e (evaluate e.text)) ++
        rest) := by
    unfold calls
    rw [s.evaluated_eq_map_shown, List.map_map]
    simp [rest, Function.comp_def]
  -- A banner that is left out does not look at the clock, and whatever the time is, it prints
  -- nothing.
  have hbanner : r.render (r.perform clock.read.2 (.banner version s.expressions.length)).1 =
      r.render (r.printBanner version s.expressions.length clock.read.2.read.1) := by
    rw [Reporter.perform]
    by_cases hmachine : r.isMachine = true
    · rw [if_pos hmachine, Reporter.printBanner, if_pos hmachine]
    · rw [if_neg hmachine]
  show r.text clock.read.2 (s.calls version) = _
  rw [hcalls, Reporter.text_cons, Reporter.text_cons, hbanner]
  show _ ++ (r.render (r.printDiagnostics s.diagnostics) ++
    r.text (r.perform clock.read.2 (.banner version s.expressions.length)).2 _) = _
  rw [r.text_evaluations, s.text_closing r, r.render_printDiagnostics hgeneral]
  unfold opening
  simp only [String.append_assoc]
  rfl

/-- **A session prints its diagnostics, its evaluations and its numbers, in this order.** -/
theorem output_eq_parts (s : Session) (hgeneral : ∀ d ∈ s.diagnostics, d.source = none)
    (version : String) (terminal : Terminal) (clock : Clock) :
    ∃ later, s.output version terminal clock =
      s.opening (s.reporter terminal clock.read.1) version clock.read.2.read.1 ++
        String.join (s.shown.map (s.reporter terminal clock.read.1).evaluationText) ++
        s.closing (s.reporter terminal clock.read.1) later :=
  ⟨_, s.output_eq_opening_evaluations_closing hgeneral version terminal clock⟩

/-- What a session prints, in parts: the head, one text for each diagnostic, one for each expression
that is shown, the remark that it stopped early if it did, the numbers, and the success message if
there is cause. -/
structure PrintsAs (s : Session) (r : Reporter) (version : String) (now later : Int)
    (reports results : List String) (output : String) : Prop where
  each_report : List.Forall₂ r.IsReport s.diagnostics reports
  each_result : List.Forall₂ r.IsResult s.shown results
  output_eq : ∃ numbers, r.IsNumbers s.summary (secondsText (later - r.started)) numbers ∧
    output = r.bannerText version s.summary.total (momentText now) ++ String.join reports ++
      String.join results ++
      (if s.settings.failFast = true ∧ 0 < s.summary.failed then
        r.remarkText "Stopping at first failure (--fail-fast)."
      else "") ++ numbers ++
      if s.summary.exitCode = 0 ∧ s.summary.counts.warnings = 0 then r.successText else ""

/-- **A session prints these parts.** -/
theorem exists_printsAs (s : Session) (hgeneral : ∀ d ∈ s.diagnostics, d.IsGeneral)
    (version : String) (terminal : Terminal) (clock : Clock) :
    let r := s.reporter terminal clock.read.1
    ∃ later, s.PrintsAs r version clock.read.2.read.1 later
      (s.diagnostics.map fun d => r.render (r.printDiagnostic d)) (s.shown.map r.evaluationText)
      (s.output version terminal clock) := by
  intro r
  obtain ⟨later, houtput⟩ :=
    s.output_eq_parts (fun d hd => (hgeneral d hd).source_eq) version terminal clock
  refine ⟨later, ?_, ?_, _, r.isNumbers_printSummary s.summary later, ?_⟩
  · rw [List.forall₂_map_right_iff, List.forall₂_same]
    intro d hd
    refine Reporter.isReport_printDiagnostic (hgeneral d hd).code_ne fun _ _ hsource => ?_
    exact absurd (hgeneral d hd).source_eq hsource
  · rw [List.forall₂_map_right_iff, List.forall₂_same]
    exact fun e _ => Reporter.isResult_printEvaluation e
  · have hsuccess :
        s.isSuccess = true ↔ s.summary.exitCode = 0 ∧ s.summary.counts.warnings = 0 := by
      rw [isSuccess, Bool.and_eq_true, decide_eq_true_iff, decide_eq_true_iff]
      rfl
    rw [houtput]
    unfold opening closing
    rw [Reporter.render_printBanner, Reporter.render_printInfo, Reporter.render_printSuccess_eq]
    simp only [hsuccess, String.append_assoc]
    rfl

/-! ## Stopping early and not stopping early -/

/-- The session that stops at the first failure and is the same in everything else. -/
def stopping (s : Session) : Session :=
  { s with settings := { s.settings with failFast := true } }

/-- Stopping early leaves the exit code as it is. -/
theorem exitCode_stopping (s : Session) : s.stopping.exitCode = s.exitCode := by
  -- There are but two exit codes, and whether it is zero depends on all expressions.
  have hiff : s.stopping.exitCode = 0 ↔ s.exitCode = 0 := by
    rw [exitCode_eq_zero_iff, exitCode_eq_zero_iff]
    exact Iff.rfl
  rcases s.exitCode_eq_zero_or_one with h | h
  · rw [h, hiff.mpr h]
  · rcases s.stopping.exitCode_eq_zero_or_one with h' | h'
    · rw [hiff.mp h'] at h
      cases h
    · rw [h, h']

/-- Stopping early shows what would be shown anyway, up to the first failure. -/
theorem isUpToFirstFailure_shown_stopping {s : Session} (hfast : s.settings.failFast = false) :
    IsUpToFirstFailure s.stopping.shown s.shown := by
  by_cases h : s.isBroken = true
  · rw [shown_of_broken h, shown_of_broken (s := s.stopping) h]
    exact Or.inl ⟨List.forall_mem_nil _, rfl⟩
  · rw [shown_of_failFast_eq_false h hfast]
    exact isUpToFirstFailure_shown (s := s.stopping) h rfl

end Session

/-- To ask on the command line for stopping at the first failure changes this
setting and no other one. -/
theorem resolveSettings_failFast (config : Option Config) (profile : Option String)
    (overrides : Fields) (configFile : String) :
    resolveSettings config profile { overrides with failFast := some true } configFile =
      ({ (resolveSettings config profile overrides configFile).1 with failFast := true },
        (resolveSettings config profile overrides configFile).2) := by
  obtain ⟨below, diagnostics, hbelow⟩ := exists_below_flags config profile configFile
  rw [hbelow, hbelow]
  rfl

/-- What is loaded if stopping at the first failure is asked for on the command line. -/
def Loaded.stopping {world : Surroundings} {options : Options} (l : Loaded world options) :
    Loaded world { options with failFast := true } where
  config := l.config
  settings := { l.settings with failFast := true }
  profileDiagnostics := l.profileDiagnostics
  sources := l.sources
  config_eq := l.config_eq
  settings_eq := by
    have h := resolveSettings_failFast l.config.config options.profile options.fields
      (options.config.getD defaultConfigFile)
    rw [l.settings_eq] at h
    exact h
  sources_eq := l.sources_eq

/-! ## The evaluations of a run -/

/-- **A run shows what it evaluates, in order and up to the first failure.** A run that comes to
its end prints the diagnostics of the configuration, the profile and the sources, and that there
is nothing to evaluate, each of them once; then the expressions that are shown, those of the
command line before those of the sources; then the numbers. Nothing is shown if the configuration
is broken; otherwise all expressions are shown, or, if the run stops early, the expressions up to
the first failure. The numbers count what is shown. A run that stops early has the exit code of
the run that does not, and prints the same up to the first failure; to ask for it on the command
line gives such a run. -/
theorem evaluations_of_run {world : Surroundings} {options : Options} {texts : List String}
    {result : RunResult} (h : (CommandLine.evaluate options texts).run world = .ok result) :
    ∃ l : Loaded world options,
      let s := l.session texts
      let r : Reporter := ⟨l.settings.format, l.settings.trace,
        usesColor l.settings.format l.settings.color world.terminal, world.clock.read.1⟩
      (∃ now later reports results,
        s.PrintsAs r world.version now later reports results result.output) ∧
      s.diagnostics = l.config.diagnostics ++ l.profileDiagnostics ++ l.sources.diagnostics ++
        (if l.expressions texts = [] then
          [⟨.noExpressions, "No expressions to evaluate. Pass them as arguments or with --file.",
            .error, "<input>", none, none⟩]
        else []) ∧
      l.expressions texts =
        (texts.zipIdx.map fun (text, i) => ⟨text, s!"<arg:{i + 1}>", 1⟩) ++ l.sources.expressions ∧
      ((∃ d ∈ l.config.diagnostics ++ l.profileDiagnostics, d.severity = .error) →
        s.shown = []) ∧
      (¬ (∃ d ∈ l.config.diagnostics ++ l.profileDiagnostics, d.severity = .error) →
        (l.settings.failFast = false → s.shown = l.expressions texts) ∧
        (l.settings.failFast = true → IsUpToFirstFailure s.shown (l.expressions texts))) ∧
      s.summary = ⟨(l.expressions texts).length,
        s.shown.countP (fun e => (evaluate e.text).succeeded),
        s.shown.countP (fun e => !(evaluate e.text).succeeded),
        .ofDiagnostics s.diagnostics, result.exitCode⟩ ∧
      (∃ l' : Loaded world { options with failFast := true }, l'.session texts = s.stopping) ∧
      ∀ (files : FileSystem) (options' : Options) (texts' : List String)
        (l' : Loaded { world with files := files } options'),
        l.settings.failFast = false → l'.session texts' = s.stopping →
        ∃ result', (CommandLine.evaluate options' texts').run { world with files := files } =
            .ok result' ∧
          result'.exitCode = result.exitCode ∧
          IsUpToFirstFailure (l'.session texts').shown s.shown ∧
          ∃ now later later' reports results results',
            s.PrintsAs r world.version now later reports results result.output ∧
            s.stopping.PrintsAs r world.version now later' reports results' result'.output ∧
            results' <+: results := by
  obtain ⟨l, rfl⟩ := run_evaluate_eq_ok_iff.mp h
  let s := l.session texts
  have hgeneral : ∀ d ∈ s.diagnostics, d.IsGeneral := fun d hd => l.isGeneral texts hd
  have hbroken := s.isBroken_iff
  obtain ⟨later, hprints⟩ := s.exists_printsAs hgeneral world.version world.terminal world.clock
  refine ⟨l, ⟨_, later, _, _, hprints⟩, ?_, rfl, fun herror => ?_, fun hsound => ⟨?_, ?_⟩, ?_,
    ⟨l.stopping, rfl⟩, ?_⟩
  · refine (l.session_diagnostics texts).trans ?_
    by_cases hnone : l.expressions texts = []
    · rw [if_pos hnone, if_pos (List.isEmpty_iff.mpr hnone)]
      rfl
    · rw [if_neg hnone, if_neg fun hempty => hnone (List.isEmpty_iff.mp hempty)]
      rfl
  · exact Session.shown_of_broken (hbroken.mpr herror)
  · intro hfast
    exact Session.shown_of_failFast_eq_false (fun hb => hsound (hbroken.mp hb)) hfast
  · intro hfast
    exact Session.isUpToFirstFailure_shown (fun hb => hsound (hbroken.mp hb)) hfast
  · rw [← Session.passed_eq, ← Session.failed_eq]
    rfl
  · intro files options' texts' l' hfast hstopping
    obtain ⟨later', hprints'⟩ :=
      s.stopping.exists_printsAs hgeneral world.version world.terminal world.clock
    have hshown := Session.isUpToFirstFailure_shown_stopping (s := s) hfast
    refine ⟨_, run_evaluate_eq_ok_iff.mpr ⟨l', rfl⟩, ?_, ?_, ?_⟩
    · rw [hstopping]
      exact s.exitCode_stopping
    · rw [hstopping]
      exact hshown
    · rw [hstopping]
      exact ⟨_, later, later', _, _, _, hprints, hprints', hshown.isPrefix.map _⟩

/-- Surroundings with one file of sums, which one pattern alone finds. -/
def oneFileWorld : Surroundings :=
  { sumsWorld with
    files :=
      { sumsWorld.files with
        find := fun _ pattern => .ok (if pattern = "*.txt" then [⟨["sums.txt"]⟩] else []) } }

/-- Options that ask for short records and name two patterns, one of which finds nothing. -/
def recordedOptions : Options :=
  { Options.none with format := some .compact, files := ["*.csv", "*.txt"] }

/-- What a run with these options loads. -/
def recordedLoaded : Loaded oneFileWorld recordedOptions where
  config := ⟨none, []⟩
  settings := ⟨.compact, .auto, false, false, ["*.csv", "*.txt"], []⟩
  profileDiagnostics := []
  sources := ⟨[⟨"4 - 6", "sums.txt", 3⟩], [unmatchedPattern "*.csv"]⟩
  config_eq := rfl
  settings_eq := rfl
  sources_eq := by cbv

/-- With a failing argument before the file of sums, a run prints the warning, a record for each of
three expressions and the numbers. One that stops early prints the warning, the records of two
expressions and other numbers. Both exit with one. -/
theorem evaluations_of_run_failing : ∃ result result' : RunResult,
    (CommandLine.evaluate recordedOptions ["1 + 2", "3 +"]).run oneFileWorld = .ok result ∧
    (CommandLine.evaluate { recordedOptions with failFast := true } ["1 + 2", "3 +"]).run
      oneFileWorld = .ok result' ∧
    result = ⟨1, linesText
      ["*.csv [NO_EXPRESSIONS] W: No files matched \"*.csv\"",
        "<arg:1>:1 1 + 2 = 3",
        "<arg:2>:1:1 [UNEXPECTED_END_OF_INPUT] E: Unexpected end of input during parsing",
        "sums.txt:3 4 - 6 = -2",
        "Summary: 2 passed, 1 failed, 0 errors, 1 warnings (0.00s)"], ""⟩ ∧
    result' = ⟨1, linesText
      ["*.csv [NO_EXPRESSIONS] W: No files matched \"*.csv\"",
        "<arg:1>:1 1 + 2 = 3",
        "<arg:2>:1:1 [UNEXPECTED_END_OF_INPUT] E: Unexpected end of input during parsing",
        "Summary: 1 passed, 1 failed, 0 errors, 1 warnings (0.00s)"], ""⟩ ∧
    (recordedLoaded.session ["1 + 2", "3 +"]).shown =
      [⟨"1 + 2", "<arg:1>", 1⟩, ⟨"3 +", "<arg:2>", 1⟩, ⟨"4 - 6", "sums.txt", 3⟩] ∧
    (recordedLoaded.session ["1 + 2", "3 +"]).stopping.shown =
      [⟨"1 + 2", "<arg:1>", 1⟩, ⟨"3 +", "<arg:2>", 1⟩] := by
  let s := recordedLoaded.session ["1 + 2", "3 +"]
  have hrun := run_evaluate_eq_ok_iff.mpr
    ⟨recordedLoaded, Eq.refl (RunResult.mk s.exitCode
      (s.output oneFileWorld.version oneFileWorld.terminal oneFileWorld.clock) "")⟩
  obtain ⟨l, -, -, hexpressions, -, hsound, -, -, hstopping⟩ := evaluations_of_run hrun
  obtain rfl : l = recordedLoaded := Subsingleton.elim l recordedLoaded
  obtain ⟨result', hrun', hexit, -⟩ := hstopping oneFileWorld.files
    { recordedOptions with failFast := true } ["1 + 2", "3 +"] recordedLoaded.stopping rfl rfl
  have hresult' : result' = ⟨s.stopping.exitCode,
      s.stopping.output oneFileWorld.version oneFileWorld.terminal oneFileWorld.clock, ""⟩ :=
    Except.ok.inj (hrun'.symm.trans (run_evaluate_eq_ok_iff.mpr ⟨recordedLoaded.stopping, rfl⟩))
  have hall := (hsound (by decide)).1 rfl
  refine ⟨_, result', hrun, hrun', by decide +kernel, ?_, ?_, by decide +kernel⟩
  · rw [hresult']
    decide +kernel
  · rw [hall, hexpressions]
    decide +kernel

end LineSum
