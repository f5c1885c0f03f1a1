import LineSum.Proofs.Json.RoundTrip
import LineSum.Proofs.Report.Printing
import LineSum.Proofs.Report.Records

/-!
# The texts of a report

What is printed of a diagnostic, of an evaluation and of the numbers at the end, in words. For
people it is lines of text, some parts of which are in a style if colours are on. The short format
has one record on a line, and the format for programs a line that reads back as what it records.
-/

namespace LineSum

/-! ## Diagnostics -/

/-- The file of a diagnostic and, if it is known, the place in it. -/
def placeText (d : Diagnostic) : String :=
  match d.range with
  | some range => d.file ++ ":" ++ toString range.start.line ++ ":" ++ toString range.start.col
  | none => d.file

/-- A diagnostic as a short record. -/
def shortRecord (d : Diagnostic) : String :=
  let letter :=
    match d.severity with
    | .error => "E"
    | .warning => "W"
  placeText d ++ " [" ++ d.code.text ++ "] " ++ letter ++ ": " ++ d.message

/-- The line that says what is wrong and where, for people. -/
def headline (colored : Bool) (d : Diagnostic) : String :=
  let (style, icon, label) :=
    match d.severity with
    | .error => (Style.red, "✖", "ERROR")
    | .warning => (Style.yellow, "⚠", "WARNING")
  "  " ++ ink colored style icon ++ " " ++ ink colored style label ++ "  " ++
    ink colored .cyan ("[" ++ d.code.text ++ "]") ++ "  " ++ ink colored .bold (placeText d) ++
    "  " ++ d.message

/-- The lines that show the source of a diagnostic, with carets below its range. -/
def contextTexts (colored : Bool) (d : Diagnostic) : List String :=
  let style :=
    match d.severity with
    | .error => Style.red
    | .warning => Style.yellow
  match d.source, d.range with
  | none, _ => []
  | some source, none => [ink colored .dim ("    ↳ " ++ source)]
  | some source, some range =>
    [ink colored .dim ("    ↳ " ++ source),
      String.ofList (List.replicate (6 + range.start.offset).toNat ' ') ++ ink colored style
        (String.ofList
          (List.replicate (max 1 (range.stop.offset - range.start.offset)).toNat '^'))]

/-- The place of a diagnostic. -/
theorem placeText_eq (d : Diagnostic) : placeText d = d.place := by
  unfold placeText Diagnostic.place
  cases d.range <;> rfl

/-- The short record of a diagnostic. -/
theorem shortRecord_eq (d : Diagnostic) : shortRecord d = d.compactText := by
  unfold shortRecord
  rw [placeText_eq]
  unfold Diagnostic.compactText
  cases d.severity <;> rfl

/-- The head of a diagnostic. -/
theorem inked_header (colored : Bool) (d : Diagnostic) :
    d.header.inked colored = headline colored d := by
  have hcode : (s!"[{d.code.text}]" : String) = "[" ++ d.code.text ++ "]" := rfl
  have hmessage : (s!"  {d.message}" : String) = "  " ++ d.message := rfl
  unfold Line.inked Diagnostic.header headline
  rw [placeText_eq, hcode, hmessage]
  cases d.severity <;>
    simp [Piece.inked, Piece.plain, Piece.styled, Severity.style, Severity.icon, Severity.label,
      String.append_assoc]

/-- The marker of a range that does not start left of its line. -/
theorem inked_marker (d : Diagnostic) {range : Range} (h : 0 ≤ range.start.offset)
    (colored : Bool) :
    ∃ marker, d.marker range = .ok marker ∧
      marker.inked colored =
        String.ofList (List.replicate (6 + range.start.offset).toNat ' ') ++
          ink colored d.severity.style (String.ofList
            (List.replicate (max 1 (range.stop.offset - range.start.offset)).toNat '^')) := by
  have hcolumn : ¬ (contextMargin.length : Int) + range.start.offset < 0 := by omega
  unfold Diagnostic.marker
  rw [if_neg hcolumn]
  refine ⟨_, rfl, ?_⟩
  show String.join [_, _] = _
  rw [String.join_cons, String.join_cons, String.join_nil, String.append_empty]
  rfl

/-- Where the range of a diagnostic does not start left of its line, its source can be marked. -/
def Diagnostic.IsMarkable (d : Diagnostic) : Prop :=
  ∀ range, d.range = some range → d.source ≠ none → 0 ≤ range.start.offset

namespace Reporter

variable {r : Reporter}

/-- For people a diagnostic is printed as its head, the line that it is about and the marker, as far
as these are there. -/
theorem printDiagnostic_for_people (hformat : r.format = .pretty ∨ r.format = .plain)
    (d : Diagnostic) :
    r.printDiagnostic d =
      match d.source, d.range with
      | none, _ => .done [d.header]
      | some source, none => .done [d.header, contextLine source]
      | some source, some range =>
        match d.marker range with
        | .ok marker => .done [d.header, contextLine source, marker]
        | .error e => ⟨[d.header, contextLine source], some e⟩ := by
  obtain ⟨format, trace, colored, started⟩ := r
  rcases hformat with hpretty | hplain
  · cases hpretty
    rfl
  · cases hplain
    rfl

/-- For people a diagnostic is printed as its headline and its context. -/
theorem texts_printDiagnostic (hformat : r.format = .pretty ∨ r.format = .plain) {d : Diagnostic}
    (h : d.IsMarkable) (colored : Bool) :
    (r.printDiagnostic d).lines.map (Line.inked colored) =
      headline colored d :: contextTexts colored d := by
  have hstyle : (match d.severity with
      | .error => Style.red
      | .warning => Style.yellow) = d.severity.style := by
    cases d.severity <;> rfl
  rw [printDiagnostic_for_people hformat]
  unfold contextTexts
  rw [hstyle]
  cases hsource : d.source with
  | none => simp [Printed.done, inked_header]
  | some source =>
    cases hrange : d.range with
    | none => simp [Printed.done, inked_header, inked_contextLine]
    | some range =>
      have hnonneg := h range hrange (hsource ▸ Option.some_ne_none source)
      obtain ⟨marker, hmarker, htext⟩ := inked_marker d hnonneg colored
      simp [Printed.done, inked_header, inked_contextLine, hmarker, htext]

end Reporter

/-! ## Evaluations -/

/-- The lines that say what became of an expression, for people. -/
def outcomeTexts (colored : Bool) (e : Expression) : List String :=
  match (evaluate e.text).outcome e with
  | .ok value =>
    ["  " ++ ink colored .green "✓" ++ " " ++ e.text ++ "  =  " ++
      ink colored .bold (toString value)]
  | .error d => headline colored d :: contextTexts colored d

/-- The line that shows the tokens of a text, if it can be scanned. -/
def tokenTexts (colored : Bool) (text : String) : List String :=
  (scan text).toOption.toList.map fun tokens =>
    ink colored .dim ("    ↳ Tokens: " ++ Token.rowText tokens)

/-- The diagnostic of a failure can be marked. -/
theorem Failure.isMarkable (failure : Failure) (e : Expression) :
    (failure.diagnostic e).IsMarkable := by
  rintro range ⟨⟩ -
  exact Reporter.start_offset_nonneg e failure

namespace Reporter

variable {r : Reporter}

/-- For people the lines of an evaluation are those of its outcome, and its trace behind them. -/
theorem lines_printEvaluation (hformat : r.format = .pretty ∨ r.format = .plain) (e : Expression) :
    (r.printEvaluation e (evaluate e.text)).lines =
      (r.outcomeLines e (evaluate e.text)).lines ++ r.traceLines e.text := by
  have herror := r.error_outcomeLines e (evaluate e.text)
  rw [printEvaluation_for_people hformat, tokens?_evaluate]
  unfold traceLines
  cases r.trace with
  | false => exact (List.append_nil _).symm
  | true =>
    cases scan e.text with
    | error error => exact (List.append_nil _).symm
    | ok tokens =>
      show (Printed.andThen _ _).lines = _
      rw [Printed.andThen, herror]
      rfl

/-- For people an evaluation is printed as its outcome, and then its tokens if they are traced. -/
theorem texts_printEvaluation (hformat : r.format = .pretty ∨ r.format = .plain) (e : Expression)
    (colored : Bool) :
    (r.printEvaluation e (evaluate e.text)).lines.map (Line.inked colored) =
      outcomeTexts colored e ++ if r.trace then tokenTexts colored e.text else [] := by
  have houtcome : (r.outcomeLines e (evaluate e.text)).lines.map (Line.inked colored) =
      outcomeTexts colored e := by
    unfold outcomeTexts
    cases evaluate e.text with
    | value tokens total =>
      have hbehind : (s!" {e.text}  =  " : String) = " " ++ e.text ++ "  =  " := rfl
      show [(valueLine e total).inked colored] = _
      unfold Line.inked valueLine Evaluation.outcome
      rw [hbehind]
      simp [Piece.inked, Piece.plain, Piece.styled, String.append_assoc]
    | scanFailed error =>
      exact texts_printDiagnostic hformat ((Failure.scan error).isMarkable e) colored
    | parseFailed tokens error =>
      exact texts_printDiagnostic hformat ((Failure.parse error).isMarkable e) colored
  have htokens : (r.traceLines e.text).map (Line.inked colored) =
      if r.trace then tokenTexts colored e.text else [] := by
    unfold traceLines tokenTexts
    split
    · rw [List.map_map]
      refine List.map_congr_left fun tokens _ => ?_
      have hmargin : "    ↳ Tokens: " = "    ↳ " ++ "Tokens: " := rfl
      show (contextLine ("Tokens: " ++ Token.rowText tokens)).inked colored = _
      rw [inked_contextLine, hmargin, String.append_assoc]
    · rfl
  rw [lines_printEvaluation hformat, List.map_append, houtcome, htokens]

/-- What is printed for people of an evaluation. -/
theorem render_printEvaluation (hformat : r.format = .pretty ∨ r.format = .plain) (e : Expression) :
    r.render (r.printEvaluation e (evaluate e.text)) = linesText (outcomeTexts r.colored e ++
      if r.trace then tokenTexts r.colored e.text else []) :=
  (renderLines_eq_linesText _ _).trans
    (congrArg linesText (texts_printEvaluation hformat e r.colored))

end Reporter

/-! ## What requests print -/

/-- The line has no control characters, and what is read of it is what it records. -/
structure IsRecordLine {α : Type} (read : JsonTree → Option α) (a : α) (line : String) : Prop where
  no_control : ∀ c ∈ line.toList, 0x20 ≤ c.toNat
  read_eq : (JsonTree.ofText? line).bind read = some a

/-- Reads an evaluation and the tokens that may be recorded with it. -/
def readResult (t : JsonTree) : Option ((Expression × Except Diagnostic Int) × Option JsonTree) :=
  (Evaluation.ofRecord? t).map fun result => (result, t.get? "tokens")

/-- Reads the numbers at the end and the time that has passed. -/
def readNumbers (t : JsonTree) : Option (Summary × String) := do
  let elapsed ← (← (← t.get? "timing").get? "elapsedSeconds").string?
  return (← Summary.ofRecord? t, elapsed)

/-- An evaluation is read with its tokens exactly if these are traced and there are any. -/
theorem readResult_record (e : Expression) (trace : Bool) :
    readResult ((evaluate e.text).record e trace) =
      some ((e, (evaluate e.text).outcome e),
        if trace then (scan e.text).toOption.map (.string ∘ Token.rowText) else none) := by
  have htokens : ((evaluate e.text).record e trace).get? "tokens" =
      if trace then (evaluate e.text).tokens?.map (.string ∘ Token.rowText) else none := by
    cases evaluate e.text <;> cases trace <;>
      simp [Evaluation.record, Evaluation.tokens?, JsonTree.get?]
  rw [readResult, Evaluation.ofRecord?_record, htokens, tokens?_evaluate]
  rfl

/-- A record that reads back is printed on such a line. -/
theorem isRecordLine_print {α : Type} {read : JsonTree → Option α} {a : α} {tree : JsonTree}
    (h : read tree = some a) : IsRecordLine read a tree.print where
  no_control := JsonTree.hasNoControl_print tree
  read_eq := by rw [JsonTree.ofText?_print, Option.bind_some, h]

namespace Reporter

section Texts

variable (r : Reporter)

/-- What is printed of a diagnostic. -/
def IsReport (d : Diagnostic) (text : String) : Prop :=
  match r.format with
  | .pretty | .plain => text = linesText (headline r.colored d :: contextTexts r.colored d)
  | .json => ∃ line, text = line ++ "\n" ∧ IsRecordLine Diagnostic.ofRecord? d line
  | .compact => text = shortRecord d ++ "\n"

/-- What is printed of an expression, with what became of it. -/
def IsResult (e : Expression) (text : String) : Prop :=
  match r.format with
  | .pretty | .plain =>
    text = linesText
      (outcomeTexts r.colored e ++ if r.trace then tokenTexts r.colored e.text else [])
  | .json => ∃ line, text = line ++ "\n" ∧
    IsRecordLine readResult ((e, (evaluate e.text).outcome e),
      if r.trace then (scan e.text).toOption.map (.string ∘ Token.rowText) else none) line
  | .compact =>
    match (evaluate e.text).outcome e with
    | .ok value =>
      text = e.file ++ ":" ++ toString e.line ++ " " ++ e.text ++ " = " ++ toString value ++ "\n"
    | .error d => text = shortRecord d ++ "\n"

/-- What is printed of the numbers at the end, and of the time that has passed. -/
def IsNumbers (s : Summary) (elapsed : String) (text : String) : Prop :=
  let ink := ink r.colored
  match r.format with
  | .pretty | .plain =>
    text = linesText (["", ink .dim "────────────────────────────────────────────────────────",
      ink .bold "Summary", "", ink .cyan "Expressions:" ++ " " ++ toString s.total,
      "  " ++ ink .green ("Passed: " ++ toString s.passed) ++ "  " ++
        ink (if 0 < s.failed then .red else .dim) ("Failed: " ++ toString s.failed), ""] ++
      (if 0 < s.counts.errors ∨ 0 < s.counts.warnings then
        [ink .cyan "Other diagnostics:",
          "  " ++ ink (if 0 < s.counts.errors then .red else .dim)
            ("Errors: " ++ toString s.counts.errors) ++ "  " ++
          ink (if 0 < s.counts.warnings then .yellow else .dim)
            ("Warnings: " ++ toString s.counts.warnings), ""]
      else []) ++
      [ink .dim ("Evaluated " ++ toString s.total ++ " expressions in " ++ elapsed ++ "s"),
        ink (if s.exitCode = 0 then .green else .red) ("Exit code: " ++ toString s.exitCode)])
  | .json => ∃ line, text = line ++ "\n" ∧ IsRecordLine readNumbers (s, elapsed) line
  | .compact =>
    text = "Summary: " ++ toString s.passed ++ " passed, " ++ toString s.failed ++ " failed, " ++
      toString s.counts.errors ++ " errors, " ++ toString s.counts.warnings ++ " warnings (" ++
      elapsed ++ "s)" ++ "\n"

/-- The head of a report for people. -/
def bannerText (version : String) (count : Nat) (moment : String) : String :=
  match r.format with
  | .json | .compact => ""
  | .pretty | .plain =>
    linesText [ink r.colored .bold ("┌ linecalc " ++ version ++ "  •  Evaluating " ++
      toString count ++ " expression" ++ (if count = 1 then "" else "s") ++ "  •  " ++ moment),
      ink r.colored .dim "└────────────────────────────────────────────────────────", ""]

/-- A remark for people. -/
def remarkText (text : String) : String :=
  match r.format with
  | .json | .compact => ""
  | .pretty | .plain => linesText [ink r.colored .dim text]

/-- The message for people that everything has a value. -/
def successText : String :=
  match r.format with
  | .json | .compact => ""
  | .pretty | .plain =>
    linesText ["", ink r.colored .green "✓" ++ " " ++
      ink r.colored .greenBold "All expressions evaluated!"]

end Texts

variable {r : Reporter}

/-- **What is printed of a diagnostic.** -/
theorem isReport_printDiagnostic {d : Diagnostic} (hcode : ∀ name, d.code ≠ .named name)
    (h : d.IsMarkable) : r.IsReport d (r.render (r.printDiagnostic d)) := by
  have hpeople (hformat : r.format = .pretty ∨ r.format = .plain) :
      r.render (r.printDiagnostic d) =
        linesText (headline r.colored d :: contextTexts r.colored d) :=
    (renderLines_eq_linesText _ _).trans
      (congrArg linesText (texts_printDiagnostic hformat h r.colored))
  unfold IsReport
  cases hformat : r.format with
  | pretty => exact hpeople (Or.inl hformat)
  | plain => exact hpeople (Or.inr hformat)
  | json =>
    refine ⟨d.record.print, ?_, isRecordLine_print (Diagnostic.ofRecord?_record hcode)⟩
    rw [printDiagnostic, hformat]
    exact r.render_plain d.record.print
  | compact =>
    dsimp only
    rw [printDiagnostic, hformat, shortRecord_eq]
    exact r.render_plain d.compactText

/-- **What is printed of an evaluation.** -/
theorem isResult_printEvaluation (e : Expression) :
    r.IsResult e (r.render (r.printEvaluation e (evaluate e.text))) := by
  unfold IsResult
  cases hformat : r.format with
  | pretty => exact render_printEvaluation (Or.inl hformat) e
  | plain => exact render_printEvaluation (Or.inr hformat) e
  | json =>
    refine ⟨((evaluate e.text).record e r.trace).print, ?_,
      isRecordLine_print (readResult_record e r.trace)⟩
    unfold printEvaluation
    rw [hformat]
    exact r.render_plain _
  | compact =>
    unfold printEvaluation
    rw [hformat]
    cases evaluate e.text with
    | value tokens total => exact r.render_plain _
    | scanFailed error =>
      exact (r.render_plain _).trans (congrArg (· ++ "\n") (shortRecord_eq _).symm)
    | parseFailed tokens error =>
      exact (r.render_plain _).trans (congrArg (· ++ "\n") (shortRecord_eq _).symm)

/-- **What is printed of the numbers at the end.** -/
theorem isNumbers_printSummary (s : Summary) (now : Int) :
    r.IsNumbers s (secondsText (now - r.started)) (r.render (r.printSummary s now)) := by
  unfold IsNumbers printSummary
  generalize secondsText (now - r.started) = elapsed
  dsimp only
  cases hformat : r.format with
  | json => exact ⟨_, r.render_plain _, isRecordLine_print rfl⟩
  | compact =>
    refine (r.render_plain _).trans ?_
    simp only [String.append_assoc]
    rfl
  | pretty | plain =>
    refine render_done ?_
    by_cases hothers : 0 < s.counts.errors ∨ 0 < s.counts.warnings <;>
      simp [toString, hothers, Line.blank, Line.inked, Piece.inked, Piece.plain, Piece.styled,
        summaryRule, String.append_assoc]

/-- What is printed at the head of a report. -/
theorem render_printBanner (version : String) (count : Nat) (now : Int) :
    r.render (r.printBanner version count now) = r.bannerText version count (momentText now) := by
  unfold printBanner bannerText isMachine
  cases r.format with
  | json | compact => rfl
  | pretty | plain =>
    refine render_done ?_
    simp [toString, Line.blank, Line.inked, Piece.inked, Piece.styled, bannerRule,
      String.append_assoc]

/-- What is printed of a remark. -/
theorem render_printInfo (text : String) : r.render (r.printInfo text) = r.remarkText text := by
  unfold printInfo remarkText isMachine
  cases r.format with
  | json | compact => rfl
  | pretty | plain => exact render_done (congrArg (fun t => [t]) (inked_styled r.colored .dim text))

/-- What is printed when everything has a value. -/
theorem render_printSuccess_eq : r.render r.printSuccess = r.successText := by
  unfold printSuccess successText isMachine
  cases r.format with
  | json | compact => rfl
  | pretty | plain =>
    refine render_done ?_
    simp [Line.blank, Line.inked, Piece.inked, Piece.plain, Piece.styled, String.append_assoc]

end Reporter

end LineSum
