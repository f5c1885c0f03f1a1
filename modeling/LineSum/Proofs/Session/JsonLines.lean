import LineSum.Proofs.Json.RoundTrip
import LineSum.Proofs.Report.Records
import LineSum.Proofs.Session.Evaluations

/-!
# The output of a session for programs

In the format for programs a session prints one record on a line: one for every diagnostic, one for
every expression that is shown, and one for the summary, and nothing else. Every line can be read
again, and gives back what it reports.
-/

namespace LineSum

namespace Reporter

variable {r : Reporter}

/-- A record is printed on a line of its own. -/
theorem render_recordLine (r : Reporter) (tree : JsonTree) :
    r.render (.done [recordLine tree]) = tree.print ++ "\n" :=
  r.render_plain tree.print

/-- A diagnostic is printed as its record. -/
theorem render_printDiagnostic_json (h : r.format = .json) (d : Diagnostic) :
    r.render (r.printDiagnostic d) = d.record.print ++ "\n" := by
  rw [printDiagnostic, h, render_recordLine]

/-- An expression is printed as the record of its evaluation. -/
theorem evaluationText_json (h : r.format = .json) (e : Expression) :
    r.evaluationText e = ((evaluate e.text).record e r.trace).print ++ "\n" := by
  unfold evaluationText printEvaluation
  rw [h]
  exact render_recordLine r _

/-- A summary is printed as its record. -/
theorem render_printSummary_json (h : r.format = .json) (s : Summary) (now : Int) :
    r.render (r.printSummary s now) = (s.record (secondsText (now - r.started))).print ++ "\n" := by
  rw [printSummary, h, render_recordLine]

end Reporter

namespace Session

/-- The records of a session in the order in which they are printed. -/
def records (s : Session) (elapsed : String) : List JsonTree :=
  s.diagnostics.map Diagnostic.record ++
    s.shown.map (fun e => (evaluate e.text).record e s.settings.trace) ++ [s.summary.record elapsed]

/-- In the format for programs a session prints its records, one on a line, and nothing else. -/
theorem output_json {s : Session} (hjson : s.settings.format = .json)
    (hgeneral : ∀ d ∈ s.diagnostics, d.source = none) (version : String) (terminal : Terminal)
    (clock : Clock) :
    ∃ elapsed, s.output version terminal clock =
      linesText ((s.records elapsed).map JsonTree.print) := by
  obtain ⟨later, houtput⟩ := s.output_eq_parts hgeneral version terminal clock
  let r := s.reporter terminal clock.read.1
  have hformat : r.format = .json := hjson
  have hopening : s.opening r version clock.read.2.read.1 =
      linesText ((s.diagnostics.map Diagnostic.record).map JsonTree.print) := by
    unfold opening linesText
    rw [Reporter.render_printBanner, Reporter.bannerText, hformat, String.empty_append,
      List.map_map, List.map_map]
    congr 1
    exact List.map_congr_left fun d _ => Reporter.render_printDiagnostic_json hformat d
  have hevaluations : String.join (s.shown.map r.evaluationText) =
      linesText ((s.shown.map fun e => (evaluate e.text).record e s.settings.trace).map
        JsonTree.print) := by
    unfold linesText
    rw [List.map_map, List.map_map]
    congr 1
    exact List.map_congr_left fun e _ => Reporter.evaluationText_json hformat e
  have hclosing : s.closing r later =
      linesText [(s.summary.record (secondsText (later - r.started))).print] := by
    unfold closing linesText
    rw [Reporter.render_printInfo, Reporter.remarkText, Reporter.render_printSuccess_eq,
      Reporter.successText, Reporter.render_printSummary_json hformat, hformat]
    simp
  refine ⟨secondsText (later - r.started), ?_⟩
  rw [houtput, hopening, hevaluations, hclosing, ← linesText_append, ← linesText_append, records,
    List.map_append, List.map_append]
  rfl

/-- Every record of a session is an object. -/
theorem exists_object_of_mem_records {s : Session} {elapsed : String} {tree : JsonTree}
    (h : tree ∈ s.records elapsed) : ∃ entries, tree = .object entries := by
  rw [records, List.mem_append, List.mem_append, List.mem_map, List.mem_map,
    List.mem_singleton] at h
  rcases h with (⟨d, -, rfl⟩ | ⟨e, -, rfl⟩) | rfl
  · exact ⟨_, rfl⟩
  · exact ⟨_, rfl⟩
  · exact ⟨_, rfl⟩

end Session

/-- **The output for programs is one record on a line and loses nothing.** If what a run loads
asks for this format, then whatever the texts, the colours and the tracing are, the run prints
one line for every diagnostic, one for every expression that is shown and one for the summary. No
line holds a control character, and each of them can be read as an object: the first ones as the
diagnostics, the next ones as the expressions with their values or their diagnostics, and the
last one as the summary. -/
theorem json_lines_of_run {world : Surroundings} {options : Options} {texts : List String}
    {result : RunResult} (h : (CommandLine.evaluate options texts).run world = .ok result)
    (l : Loaded world options) (hjson : l.settings.format = .json) :
    let s := l.session texts
    ∃ (diagnosticLines evaluationLines : List String) (summaryLine : String),
      let lines := diagnosticLines ++ evaluationLines ++ [summaryLine]
      result.output = linesText lines ∧
      lines.length = s.diagnostics.length + s.shown.length + 1 ∧
      (∀ line ∈ lines, (∀ c ∈ line.toList, 0x20 ≤ c.toNat) ∧
        ∃ entries, JsonTree.ofText? line = some (.object entries)) ∧
      diagnosticLines.map (fun line => (JsonTree.ofText? line).bind Diagnostic.ofRecord?) =
        s.diagnostics.map some ∧
      evaluationLines.map (fun line => (JsonTree.ofText? line).bind Evaluation.ofRecord?) =
        s.shown.map (fun e => some (e, (evaluate e.text).outcome e)) ∧
      (JsonTree.ofText? summaryLine).bind Summary.ofRecord? = some s.summary := by
  obtain ⟨loaded, rfl⟩ := run_evaluate_eq_ok_iff.mp h
  obtain rfl : l = loaded := Subsingleton.elim l loaded
  intro s
  have hgeneral : ∀ d ∈ s.diagnostics, d.IsGeneral := fun _ hd => l.isGeneral texts hd
  obtain ⟨elapsed, houtput⟩ := Session.output_json (s := s) hjson
    (fun d hd => (hgeneral d hd).source_eq) world.version world.terminal world.clock
  have hlines : (s.records elapsed).map JsonTree.print =
      (s.diagnostics.map fun d => d.record.print) ++
        (s.shown.map fun e => ((evaluate e.text).record e s.settings.trace).print) ++
        [(s.summary.record elapsed).print] := by
    unfold Session.records
    rw [List.map_append, List.map_append, List.map_map, List.map_map]
    rfl
  refine ⟨s.diagnostics.map fun d => d.record.print,
    s.shown.map fun e => ((evaluate e.text).record e s.settings.trace).print,
    (s.summary.record elapsed).print, ?_, ?_, ?_, ?_, ?_, ?_⟩
  · exact houtput.trans (congrArg linesText hlines)
  · simp only [List.length_append, List.length_map, List.length_singleton]
  · intro line hline
    rw [← hlines] at hline
    obtain ⟨tree, htree, rfl⟩ := List.mem_map.mp hline
    obtain ⟨entries, rfl⟩ := Session.exists_object_of_mem_records htree
    exact ⟨JsonTree.hasNoControl_print _, entries, JsonTree.ofText?_print _⟩
  · rw [List.map_map]
    refine List.map_congr_left fun d hd => ?_
    show (JsonTree.ofText? d.record.print).bind Diagnostic.ofRecord? = some d
    rw [JsonTree.ofText?_print]
    exact Diagnostic.ofRecord?_record (hgeneral d hd).code_ne
  · rw [List.map_map]
    refine List.map_congr_left fun e he => ?_
    show (JsonTree.ofText? ((evaluate e.text).record e _).print).bind Evaluation.ofRecord? = _
    rw [JsonTree.ofText?_print]
    exact Evaluation.ofRecord?_record _ e _
  · rw [JsonTree.ofText?_print]
    exact Summary.ofRecord?_record _ elapsed

/-- Options that ask for records and for the tokens in them. -/
def recordOptions : Options := { Options.none with format := some .json, trace := true }

/-- What a run with these options loads. -/
def recordsLoaded : Loaded sumsWorld recordOptions where
  config := ⟨none, []⟩
  settings := ⟨.json, .auto, true, false, [], []⟩
  profileDiagnostics := []
  sources := ⟨[], []⟩
  config_eq := rfl
  settings_eq := rfl
  sources_eq := rfl

/-- With an argument that holds a quote, a backslash, a newline and a character beyond the first
plane a run prints three lines, the second of which is read as this argument with its diagnostic. -/
theorem json_lines_of_run_escapes : ∃ (result : RunResult) (first second last : String),
    (CommandLine.evaluate recordOptions ["1 + 2", "3\"\\\n😀"]).run sumsWorld = .ok result ∧
    result.output = linesText [first, second, last] ∧
    (JsonTree.ofText? second).bind Evaluation.ofRecord? =
      some (⟨"3\"\\\n😀", "<arg:2>", 1⟩,
        .error ⟨.invalidCharacter, "Input contained an invalid character at 1: '\"'", .error,
          "<arg:2>", some ⟨⟨1, 2, 1⟩, ⟨1, 3, 2⟩⟩, some "3\"\\\n😀"⟩) := by
  let texts := ["1 + 2", "3\"\\\n😀"]
  have hrun := run_evaluate_eq_ok_iff.mpr
    ⟨recordsLoaded, Eq.refl (RunResult.mk (recordsLoaded.session texts).exitCode
      ((recordsLoaded.session texts).output sumsWorld.version sumsWorld.terminal
        sumsWorld.clock) "")⟩
  obtain ⟨ds, es, last, houtput, -, -, hds, hes, -⟩ := json_lines_of_run hrun recordsLoaded rfl
  have hshown : (recordsLoaded.session texts).shown =
      [⟨"1 + 2", "<arg:1>", 1⟩, ⟨"3\"\\\n😀", "<arg:2>", 1⟩] := by
    rw [Session.shown_of_failFast_eq_false (by decide) rfl]
    decide +kernel
  obtain rfl : ds = [] := List.map_eq_nil_iff.mp hds
  rw [hshown] at hes
  obtain ⟨first, es, rfl, -, hes⟩ := List.map_eq_cons_iff.mp hes
  obtain ⟨second, es, rfl, hsecond, hes⟩ := List.map_eq_cons_iff.mp hes
  obtain rfl : es = [] := List.map_eq_nil_iff.mp hes
  refine ⟨_, first, second, last, hrun, houtput, hsecond.trans ?_⟩
  decide +kernel

end LineSum
