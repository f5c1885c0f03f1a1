import LineSum.Report.Reporter

/-!
# What requests print

A request that does not stop early prints its parts one after the other. Only a marker that would
have to start left of the first column stops a request, and neither the failure of an expression nor
a diagnostic without a source line asks for one. Without colours what is printed is made of the
texts of the lines.
-/

namespace LineSum

/-! ## Parts of what is printed -/

/-- The text of lines is the text of the first ones and then that of the others. -/
theorem renderLines_append (colored : Bool) (a b : List Line) :
    renderLines colored (a ++ b) = renderLines colored a ++ renderLines colored b := by
  unfold renderLines
  rw [List.flatMap_append, String.ofList_append]

/-- The text of lines, each of which ends with a newline. -/
def linesText (lines : List String) : String :=
  String.join (lines.map (· ++ "\n"))

/-- Lines are printed one after the other. -/
theorem linesText_append (a b : List String) : linesText (a ++ b) = linesText a ++ linesText b := by
  unfold linesText
  rw [List.map_append, String.join_append]

/-- A single line is printed with its end. -/
theorem linesText_singleton (line : String) : linesText [line] = line ++ "\n" := by
  show String.join [line ++ "\n"] = _
  rw [String.join_cons, String.join_nil, String.append_empty]

/-! ## Lines with styles -/

/-- A text in a style, if colours are on. -/
def ink (colored : Bool) (style : Style) (text : String) : String :=
  if colored then String.ofList (style.paint text.toList) else text

/-- The text of a piece, in its style if colours are on. -/
def Piece.inked (colored : Bool) (piece : Piece) : String :=
  match piece.style with
  | some style => ink colored style piece.text
  | none => piece.text

/-- The characters of a piece are those of its text in its style. -/
theorem Piece.render_eq (colored : Bool) (piece : Piece) :
    piece.render colored = (piece.inked colored).toList := by
  unfold Piece.render Piece.inked ink
  cases piece.style with
  | none => rfl
  | some style =>
    cases colored with
    | true => exact String.toList_ofList.symm
    | false => rfl

/-- The text of a line, with its styles if colours are on. -/
def Line.inked (colored : Bool) (line : Line) : String :=
  String.join (line.map (Piece.inked colored))

/-- A line is printed as its text and a newline. -/
theorem Line.render_eq (colored : Bool) (line : Line) :
    line.render colored = (line.inked colored ++ "\n").toList := by
  have hpieces : line.flatMap (Piece.render colored) = (line.inked colored).toList := by
    unfold Line.inked
    induction line with
    | nil => rfl
    | cons piece line ih =>
      rw [List.flatMap_cons, ih, piece.render_eq, List.map_cons, String.join_cons,
        String.toList_append]
  rw [Line.render, hpieces, String.toList_append]
  rfl

/-- Lines are printed as their texts, each with a newline. -/
theorem renderLines_eq_linesText (colored : Bool) (lines : List Line) :
    renderLines colored lines = linesText (lines.map (Line.inked colored)) := by
  induction lines with
  | nil => rfl
  | cons line lines ih =>
    have hline : renderLines colored [line] = line.inked colored ++ "\n" := by
      rw [← String.toList_inj, renderLines, String.toList_ofList, List.flatMap_singleton,
        line.render_eq]
    rw [← List.singleton_append, renderLines_append, hline, ih, List.map_append, linesText_append,
      List.map_singleton, linesText_singleton]

/-- A line of one text in a style. -/
theorem inked_styled (colored : Bool) (style : Style) (text : String) :
    Line.inked colored [.styled style text] = ink colored style text := by
  show String.join [ink colored style text] = _
  rw [String.join_cons, String.join_nil, String.append_empty]

/-- A line of one text without a style. -/
theorem inked_plain (colored : Bool) (text : String) : (Line.plain text).inked colored = text := by
  show String.join [text] = _
  rw [String.join_cons, String.join_nil, String.append_empty]

/-- Lines with texts are printed as these texts. -/
theorem Reporter.render_done {r : Reporter} {lines : List Line} {texts : List String}
    (h : lines.map (Line.inked r.colored) = texts) : r.render (.done lines) = linesText texts :=
  (renderLines_eq_linesText _ _).trans (congrArg linesText h)

/-- The text of a line without its styles. -/
def Line.text (line : Line) : String :=
  String.join (line.map Piece.text)

/-- Without colours a line has the text without its styles. -/
theorem Line.inked_false (line : Line) : line.inked false = line.text := by
  have hpiece (piece : Piece) : piece.inked false = piece.text := by
    unfold Piece.inked
    split <;> rfl
  exact congrArg String.join (List.map_congr_left fun piece _ => hpiece piece)

/-- Without colours the texts of the lines are printed. -/
theorem renderLines_false (lines : List Line) :
    renderLines false lines = linesText (lines.map Line.text) := by
  rw [renderLines_eq_linesText, List.map_congr_left fun line _ => line.inked_false]

namespace Printed

/-- If no part stops early, all of them are printed. -/
theorem all_eq_done {parts : List Printed} (h : ∀ p ∈ parts, p.error = none) :
    all parts = done (parts.flatMap Printed.lines) := by
  induction parts with
  | nil => rfl
  | cons p parts ih =>
    rw [List.forall_mem_cons] at h
    show andThen p (all parts) = _
    rw [ih h.2, andThen, h.1]
    rfl

/-- What comes next does not stop early if neither part does. -/
theorem error_andThen {first second : Printed} (hfirst : first.error = none)
    (hsecond : second.error = none) : (first.andThen second).error = none := by
  rw [andThen, hfirst]
  exact hsecond

end Printed

namespace Reporter

/-- The text of several parts, none of which stops early, is the text of one after the other. -/
theorem render_all (r : Reporter) {parts : List Printed} (h : ∀ p ∈ parts, p.error = none) :
    r.render (.all parts) = String.join (parts.map r.render) := by
  rw [Printed.all_eq_done h]
  clear h
  induction parts with
  | nil => rfl
  | cons p parts ih =>
    have hcons : r.render (.done ((p :: parts).flatMap Printed.lines)) =
        r.render p ++ r.render (.done (parts.flatMap Printed.lines)) := by
      show renderLines r.colored (p.lines ++ parts.flatMap Printed.lines) = _
      rw [renderLines_append]
      rfl
    rw [hcons, ih, List.map_cons, String.join_cons]

/-- Texts without styles are printed one on a line, with or without colours. -/
theorem render_plains (r : Reporter) (texts : List String) :
    r.render (.done (texts.map Line.plain)) = linesText texts := by
  apply render_done
  rw [List.map_map]
  exact (List.map_congr_left fun text _ => inked_plain r.colored text).trans (List.map_id texts)

/-- A text without a style is printed on a line. -/
theorem render_plain (r : Reporter) (text : String) :
    r.render (.done [.plain text]) = text ++ "\n" :=
  (r.render_plains [text]).trans (linesText_singleton text)

/-- If each diagnostic is printed as a line without styles, so are several of them. -/
theorem printDiagnostics_of_plain {r : Reporter} {text : Diagnostic → String}
    (h : ∀ d, r.printDiagnostic d = .done [.plain (text d)]) (ds : List Diagnostic) :
    r.printDiagnostics ds = .done ((ds.map text).map Line.plain) := by
  unfold printDiagnostics
  induction ds with
  | nil => rfl
  | cons d ds ih =>
    show (r.printDiagnostic d).andThen (.all (ds.map r.printDiagnostic)) = _
    rw [h, ih]
    rfl

/-! ## Requests that do not stop early -/

/-- A diagnostic without a source line is printed as a whole. -/
theorem error_printDiagnostic_of_source (r : Reporter) {d : Diagnostic} (h : d.source = none) :
    (r.printDiagnostic d).error = none := by
  unfold printDiagnostic
  rw [h]
  cases r.format <;> rfl

/-- A diagnostic whose range does not start left of its line is printed as a whole. -/
theorem error_printDiagnostic_of_range (r : Reporter) {d : Diagnostic} {range : Range}
    (hrange : d.range = some range) (hstart : 0 ≤ range.start.offset) :
    (r.printDiagnostic d).error = none := by
  have hmarker : ∃ marker, d.marker range = .ok marker := by
    have hcolumn : ¬ (contextMargin.length : Int) + range.start.offset < 0 := by omega
    unfold Diagnostic.marker
    rw [if_neg hcolumn]
    exact ⟨_, rfl⟩
  obtain ⟨marker, hmarker⟩ := hmarker
  unfold printDiagnostic
  rw [hrange]
  cases r.format <;> cases d.source <;> simp [hmarker, Printed.done]

/-- The failure of an expression is located inside its line. -/
theorem start_offset_nonneg (e : Expression) (failure : Failure) :
    0 ≤ (failure.range e).start.offset := by
  cases failure with
  | scan error => exact Int.natCast_nonneg error.position
  | parse error => exact Int.le_refl 0

/-- The diagnostic of an expression that failed is printed as a whole. -/
theorem error_printDiagnostic_failure (r : Reporter) (e : Expression) (failure : Failure) :
    (r.printDiagnostic (failure.diagnostic e)).error = none :=
  r.error_printDiagnostic_of_range rfl (start_offset_nonneg e failure)

/-- What is printed of an evaluation before its trace: its value or its diagnostic. -/
def outcomeLines (r : Reporter) (e : Expression) : Evaluation → Printed
  | .value _ value => .done [valueLine e value]
  | .scanFailed error => r.printDiagnostic ((Failure.scan error).diagnostic e)
  | .parseFailed _ error => r.printDiagnostic ((Failure.parse error).diagnostic e)

/-- The value or the diagnostic of an evaluation is printed as a whole. -/
theorem error_outcomeLines (r : Reporter) (e : Expression) (result : Evaluation) :
    (r.outcomeLines e result).error = none := by
  cases result with
  | value ts value => rfl
  | scanFailed error => exact r.error_printDiagnostic_failure e (.scan error)
  | parseFailed ts error => exact r.error_printDiagnostic_failure e (.parse error)

/-- An evaluation is printed as a whole. -/
theorem error_printEvaluation (r : Reporter) (e : Expression) (result : Evaluation) :
    (r.printEvaluation e result).error = none := by
  unfold printEvaluation
  cases r.format with
  | json => rfl
  | compact => cases result <;> rfl
  | pretty | plain =>
    dsimp only
    split
    · exact Printed.error_andThen (r.error_outcomeLines e result) rfl
    · exact r.error_outcomeLines e result

/-- Diagnostics without source lines are printed one after the other, each of them once. -/
theorem render_printDiagnostics (r : Reporter) {ds : List Diagnostic}
    (h : ∀ d ∈ ds, d.source = none) :
    r.render (r.printDiagnostics ds) =
      String.join (ds.map fun d => r.render (r.printDiagnostic d)) := by
  unfold printDiagnostics
  rw [r.render_all, List.map_map]
  · rfl
  · intro p hp
    obtain ⟨d, hd, rfl⟩ := List.mem_map.mp hp
    exact r.error_printDiagnostic_of_source (h d hd)

/-! ## Evaluations for people -/

/-- For people an evaluation is printed as its value or its diagnostic, and then its tokens if they
are there and are traced. -/
theorem printEvaluation_for_people {r : Reporter} (hformat : r.format = .pretty ∨ r.format = .plain)
    (e : Expression) (result : Evaluation) :
    r.printEvaluation e result =
      match r.trace, result.tokens? with
      | true, some tokens => (r.outcomeLines e result).andThen (r.printTrace (Token.rowText tokens))
      | _, _ => r.outcomeLines e result := by
  unfold printEvaluation
  rcases hformat with hpretty | hplain
  · rw [hpretty]
    rfl
  · rw [hplain]
    rfl

/-- The trace of a text, if there is one. -/
def traceLines (r : Reporter) (text : String) : List Line :=
  if r.trace then
    (scan text).toOption.toList.map fun tokens => traceLine (Token.rowText tokens)
  else []

end Reporter

/-- The tokens of a text are there exactly if it can be scanned. -/
theorem tokens?_evaluate (text : String) : (evaluate text).tokens? = (scan text).toOption := by
  unfold evaluate
  cases scan text with
  | error error => rfl
  | ok tokens =>
    dsimp only
    cases evaluateTokens tokens <;> rfl

/-! ## Context -/

/-- A line of context. -/
theorem inked_contextLine (colored : Bool) (text : String) :
    (contextLine text).inked colored = ink colored .dim ("    ↳ " ++ text) := by
  show String.join [ink colored .dim (contextMargin ++ text)] = _
  rw [String.join_cons, String.join_nil, String.append_empty]
  rfl

end LineSum
