import LineSum.Proofs.Expr.Grammar
import LineSum.Proofs.Report.Pieces
import LineSum.Proofs.Report.Texts
import LineSum.Proofs.Source.Cuts

/-!
# Where the carets stand

Below the report of an expression of a file that has no value stands the expression, and below that
a line of spaces and carets. The carets stand under what is reported: the character that is refused,
or the whole expression.
-/

namespace LineSum

/-! ## Lines of carets -/

/-- A line of spaces and then carets, which stand in given columns of the line above it. -/
structure Marks (marker context : String) (columns : Nat → Prop) : Prop where
  spaces_carets : ∃ spaces carets, 0 < carets ∧
    marker.toList = List.replicate spaces ' ' ++ List.replicate carets '^'
  caret_iff : ∀ column, marker.toList[column]? = some '^' ↔ columns column
  within : ∀ column, columns column → column < context.length

/-- A range of a line covers an offset. -/
def Range.Covers (range : Range) (offset : Nat) : Prop :=
  range.start.offset ≤ offset ∧ (offset : Int) < range.stop.offset

/-- A stretch of a line covers the offsets from its first one to the last one. -/
theorem Range.covers_inLine_iff {line : Int} {first last offset : Nat} :
    (Range.inLine line first last).Covers offset ↔ first ≤ offset ∧ offset < last := by
  show (first : Int) ≤ offset ∧ (offset : Int) < last ↔ _
  omega

/-- The carets stand behind the spaces. -/
theorem getElem?_spaces_carets (spaces carets column : Nat) :
    (List.replicate spaces ' ' ++ List.replicate carets '^')[column]? = some '^' ↔
      spaces ≤ column ∧ column < spaces + carets := by
  rw [List.getElem?_append, List.length_replicate]
  split
  · next hlt =>
    have hspace : (List.replicate spaces ' ')[column]? = some ' ' := by
      rw [List.getElem?_replicate, if_pos hlt]
    rw [hspace, Option.some.injEq]
    exact iff_of_false (by decide) (by omega)
  · rw [List.getElem?_replicate]
    split
    · exact iff_of_true rfl (by omega)
    · exact iff_of_false (Option.some_ne_none _).symm (by omega)

/-- The line that marks the offsets from the first one to the last one. -/
def markerLine (severity : Severity) (first last : Nat) : Line :=
  [.plain (String.ofList (List.replicate (contextMargin.length + first) ' ')),
    .styled severity.style (String.ofList (List.replicate (last - first) '^'))]

/-- A stretch of a line that is not empty is marked. -/
theorem marker_inLine (d : Diagnostic) (line : Int) {first last : Nat} (h : first < last) :
    d.marker (.inLine line first last) = .ok (markerLine d.severity first last) := by
  have hcolumn : ¬ (contextMargin.length : Int) + (first : Int) < 0 := by omega
  have hspaces :
      ((contextMargin.length : Int) + (first : Int)).toNat = contextMargin.length + first := by
    omega
  have hcarets : (max 1 ((last : Int) - (first : Int))).toNat = last - first := by omega
  unfold Diagnostic.marker
  dsimp only [Range.inLine]
  rw [if_neg hcolumn, hspaces, hcarets]
  rfl

/-- The marker has spaces up to the first offset and carets up to the last one. -/
theorem toList_text_markerLine (severity : Severity) (first last : Nat) :
    (markerLine severity first last).text.toList =
      List.replicate (contextMargin.length + first) ' ' ++ List.replicate (last - first) '^' := by
  simp [markerLine, Line.text, Piece.plain, Piece.styled, String.join_cons]

/-- The marker of a stretch of a text marks the columns of the stretch. -/
theorem marks_markerLine (severity : Severity) {text : String} {first last : Nat} (h : first < last)
    (hlast : last ≤ text.length) :
    Marks (markerLine severity first last).text (contextMargin ++ text) fun column =>
      contextMargin.length + first ≤ column ∧ column < contextMargin.length + last where
  spaces_carets := ⟨_, last - first, by omega, toList_text_markerLine severity first last⟩
  caret_iff := by
    intro column
    rw [toList_text_markerLine, getElem?_spaces_carets]
    omega
  within := by
    intro column hcolumn
    rw [String.length_append]
    omega

/-- The same columns are marked if they are described in other words. -/
theorem Marks.congr {marker context : String} {columns others : Nat → Prop}
    (h : Marks marker context columns) (hsame : ∀ column, columns column ↔ others column) :
    Marks marker context others where
  spaces_carets := h.spaces_carets
  caret_iff column := (h.caret_iff column).trans (hsame column)
  within column hcolumn := h.within column ((hsame column).mpr hcolumn)

/-! ## The stretch that is reported -/

/-- The offsets of the expression that a failure is about. -/
def Failure.stretch (e : Expression) : Failure → Nat × Nat
  | scan error => (error.position, error.position + 1)
  | parse _ => (0, e.text.length)

/-- The range of a failure is its stretch of the line. -/
theorem Failure.range_eq (failure : Failure) (e : Expression) :
    failure.range e = .inLine e.line (failure.stretch e).1 (failure.stretch e).2 := by
  cases failure <;> rfl

/-- The text of an expression of a file is not empty. -/
theorem length_pos_of_mem_ofFile {content file : String} {e : Expression}
    (he : e ∈ Expression.ofFile content file) : 0 < e.text.length := by
  obtain ⟨-, c, hfirst, -⟩ := Expression.text_of_mem_ofFile he
  rw [← String.length_toList]
  exact List.length_pos_of_mem (List.mem_of_find?_eq_some hfirst)

/-- The character that is refused is the first illegal one of the text. -/
theorem scan_error_of_failure {e : Expression} {error : InvalidCharacter Char}
    (h : (evaluate e.text).failure? = some (.scan error)) : scan e.text = .error error := by
  cases heval : evaluate e.text with
  | scanFailed found =>
    rw [heval] at h
    cases h
    exact evaluate_eq_scanFailed_iff.mp heval
  | value tokens total =>
    rw [heval] at h
    cases h
  | parseFailed tokens found =>
    rw [heval] at h
    cases h

/-- The stretch of a failure lies in the text and is not empty. -/
theorem stretch_within {content file : String} {e : Expression}
    (he : e ∈ Expression.ofFile content file) {failure : Failure}
    (h : (evaluate e.text).failure? = some failure) :
    (failure.stretch e).1 < (failure.stretch e).2 ∧ (failure.stretch e).2 ≤ e.text.length := by
  cases failure with
  | scan error =>
    obtain ⟨pre, post, htext, -, -, hposition⟩ := scan_eq_error_iff.mp (scan_error_of_failure h)
    show error.position < error.position + 1 ∧ error.position + 1 ≤ e.text.length
    rw [← String.length_toList, htext, List.length_append, List.length_cons]
    omega
  | parse error => exact ⟨length_pos_of_mem_ofFile he, Nat.le_refl _⟩

/-- The columns of the stretch are those that hold the range of the failure, behind the margin. -/
theorem Failure.column_iff (failure : Failure) (e : Expression) (column : Nat) :
    (contextMargin.length + (failure.stretch e).1 ≤ column ∧
        column < contextMargin.length + (failure.stretch e).2) ↔
      ∃ offset, column = contextMargin.length + offset ∧ (failure.range e).Covers offset := by
  rw [failure.range_eq]
  constructor
  · rintro ⟨hfirst, hlast⟩
    refine ⟨column - contextMargin.length, by omega, Range.covers_inLine_iff.mpr ?_⟩
    omega
  · rintro ⟨offset, rfl, hcovers⟩
    obtain ⟨hfirst, hlast⟩ := Range.covers_inLine_iff.mp hcovers
    omega

/-- The character that is refused is illegal, and it stands at its position behind the margin. -/
theorem refused_of_failure {e : Expression} {error : InvalidCharacter Char}
    (h : (evaluate e.text).failure? = some (.scan error)) :
    (contextMargin ++ e.text).toList[contextMargin.length + error.position]? =
      some error.character ∧
      ¬ IsLegal error.character := by
  obtain ⟨pre, post, htext, -, hillegal, hposition⟩ :=
    scan_eq_error_iff.mp (scan_error_of_failure h)
  refine ⟨?_, hillegal⟩
  rw [String.toList_append, ← String.length_toList, List.getElem?_append_right (by omega),
    Nat.add_sub_cancel_left, htext, hposition, List.getElem?_append_right (Nat.le_refl _),
    Nat.sub_self, List.getElem?_cons_zero]

/-! ## What is printed of a failure -/

/-- The context of a failure, without colours, is the line and its marker. -/
theorem contextTexts_failure {e : Expression} {failure : Failure}
    (h : (failure.stretch e).1 < (failure.stretch e).2) :
    contextTexts false (failure.diagnostic e) = ["    ↳ " ++ e.text,
      (markerLine .error (failure.stretch e).1 (failure.stretch e).2).text] := by
  have hnonneg := Reporter.start_offset_nonneg e failure
  obtain ⟨marker, hmarker, htext⟩ := inked_marker (failure.diagnostic e) hnonneg false
  have hline : (failure.diagnostic e).marker (failure.range e) =
      .ok (markerLine .error (failure.stretch e).1 (failure.stretch e).2) := by
    rw [failure.range_eq]
    exact marker_inLine (failure.diagnostic e) e.line h
  obtain rfl := Except.ok.inj (hmarker.symm.trans hline)
  rw [← Line.inked_false, htext]
  rfl

/-- The head of a failure, without colours. -/
theorem headline_failure (failure : Failure) (e : Expression) :
    headline false (failure.diagnostic e) = "  ✖ ERROR  [" ++ failure.code.text ++ "]  " ++
      (failure.diagnostic e).place ++ "  " ++ failure.message := by
  have hopen : "  ✖ ERROR  [" = "  " ++ "✖" ++ " " ++ "ERROR" ++ "  " ++ "[" := rfl
  have hclose : "]  " = "]" ++ "  " := rfl
  rw [hopen, hclose, ← placeText_eq]
  show "  " ++ "✖" ++ " " ++ "ERROR" ++ "  " ++ ("[" ++ failure.code.text ++ "]") ++ "  " ++
    placeText (failure.diagnostic e) ++ "  " ++ failure.message = _
  simp only [String.append_assoc]

/-- An expression that fails has its diagnostic as its outcome. -/
theorem outcome_of_failure {result : Evaluation} {failure : Failure}
    (h : result.failure? = some failure) (e : Expression) :
    result.outcome e = .error (failure.diagnostic e) := by
  cases result with
  | value tokens total => cases h
  | scanFailed error =>
    cases h
    rfl
  | parseFailed tokens error =>
    cases h
    rfl

/-- An expression that fails, without colours. -/
theorem texts_printEvaluation_failure {r : Reporter}
    (hformat : r.format = .pretty ∨ r.format = .plain) {e : Expression} {failure : Failure}
    (hfailure : (evaluate e.text).failure? = some failure)
    (h : (failure.stretch e).1 < (failure.stretch e).2) :
    (r.printEvaluation e (evaluate e.text)).lines.map Line.text =
      ["  ✖ ERROR  [" ++ failure.code.text ++ "]  " ++ (failure.diagnostic e).place ++ "  " ++
          failure.message, "    ↳ " ++ e.text,
        (markerLine .error (failure.stretch e).1 (failure.stretch e).2).text] ++
        if r.trace then
          (scan e.text).toOption.toList.map fun tokens => "    ↳ Tokens: " ++ Token.rowText tokens
        else [] := by
  rw [← List.map_congr_left fun line _ => line.inked_false,
    Reporter.texts_printEvaluation hformat e false, outcomeTexts, outcome_of_failure hfailure]
  dsimp only
  rw [headline_failure, contextTexts_failure h]
  rfl

/-- The file of an expression is the one that it is read from. -/
theorem file_of_mem_ofFile {content file : String} {e : Expression}
    (he : e ∈ Expression.ofFile content file) : e.file = file := by
  obtain ⟨i, line, -, -, rfl⟩ := mem_ofFile_iff.mp he
  rfl

/-- No newline is in what is printed of an expression of a file whose name has none. -/
theorem newline_notMem_of_printed {content file : String} (hfile : '\n' ∉ file.toList)
    {e : Expression} (he : e ∈ Expression.ofFile content file) (r : Reporter) :
    ∀ line ∈ (r.printEvaluation e (evaluate e.text)).lines, '\n' ∉ line.text.toList := by
  have htext : '\n' ∉ e.text.toList := (Expression.text_of_mem_ofFile he).1
  have htexts : ∀ t ∈ (Call.evaluation e (evaluate e.text)).texts, Lacks '\n' t := by
    intro t ht
    simp only [Call.texts, List.cons_append, List.nil_append, List.mem_cons] at ht
    rcases ht with rfl | rfl | hrefused
    · exact htext
    · unfold Lacks
      rwa [file_of_mem_ofFile he]
    · -- the character that is refused stands in the text
      cases heval : evaluate e.text with
      | scanFailed error =>
        have hmem := mem_of_scan_eq_error (evaluate_eq_scanFailed_iff.mp heval)
        rw [heval, Evaluation.texts, List.mem_singleton] at hrefused
        rw [hrefused, lacks_toString_char_iff]
        intro hsame
        rw [← hsame] at hmem
        exact htext hmem
      | value tokens total =>
        rw [heval] at hrefused
        cases hrefused
      | parseFailed tokens error =>
        rw [heval] at hrefused
        cases hrefused
  intro line hline
  have hlack := r.linesLack_printEvaluation (by decide) htexts line hline
  apply lacks_join_iff.mpr
  intro t ht
  obtain ⟨piece, hpiece, rfl⟩ := List.mem_map.mp ht
  exact hlack piece hpiece

/-- **Carets stand under what they report.** An expression of a file that has no value is printed
for people, without colours, as a line that says what is wrong, the line of the expression, and a
marker of spaces and carets, if the name of the file has no line end. The carets stand exactly in
the columns of the line above that hold the range of the diagnostic. They mark the one character
that is refused, or else every character of the expression. Only the tokens may follow, and they do
exactly if they are traced and the expression can be scanned. -/
theorem carets_under_range {content file : String} (hfile : '\n' ∉ file.toList) {e : Expression}
    (he : e ∈ Expression.ofFile content file) {failure : Failure}
    (hfailure : (evaluate e.text).failure? = some failure) {r : Reporter}
    (hformat : r.format = .pretty ∨ r.format = .plain) (hcolored : r.colored = false) :
    let d := failure.diagnostic e
    let context := "    ↳ " ++ e.text
    ∃ (marker : String) (range : Range),
      let lines := ["  ✖ ERROR  [" ++ d.code.text ++ "]  " ++ d.place ++ "  " ++ d.message, context,
        marker] ++
        if r.trace then
          (scan e.text).toOption.toList.map fun tokens => "    ↳ Tokens: " ++ Token.rowText tokens
        else []
      (r.printEvaluation e (evaluate e.text)).error = none ∧
      r.render (r.printEvaluation e (evaluate e.text)) = linesText lines ∧
      (∀ line ∈ lines, '\n' ∉ line.toList) ∧
      d.range = some range ∧
      (Marks marker context fun column =>
        ∃ offset, column = "    ↳ ".length + offset ∧ range.Covers offset) ∧
      match failure with
      | .scan error => ∃ column, (Marks marker context fun marked => marked = column) ∧
          context.toList[column]? = some error.character ∧ ¬ IsLegal error.character
      | .parse _ => Marks marker context fun column =>
          "    ↳ ".length ≤ column ∧ column < context.length := by
  intro d context
  obtain ⟨hlt, hle⟩ := stretch_within he hfailure
  let marker := (markerLine .error (failure.stretch e).1 (failure.stretch e).2).text
  have hmarks : Marks marker context _ := marks_markerLine .error hlt hle
  have htexts := texts_printEvaluation_failure hformat hfailure hlt
  refine ⟨marker, failure.range e, r.error_printEvaluation e _, ?_, ?_, rfl,
    hmarks.congr (failure.column_iff e), ?_⟩
  · show renderLines r.colored _ = _
    rw [hcolored, renderLines_false, htexts]
    rfl
  · have hlines := newline_notMem_of_printed hfile he r
    rw [← List.forall_mem_map (f := Line.text) (P := fun text => '\n' ∉ text.toList),
      htexts] at hlines
    exact hlines
  · cases failure with
    | scan error =>
      obtain ⟨hrefused, hillegal⟩ := refused_of_failure hfailure
      refine ⟨contextMargin.length + error.position, hmarks.congr fun column => ?_,
        hrefused, hillegal⟩
      show contextMargin.length + error.position ≤ column ∧
        column < contextMargin.length + (error.position + 1) ↔ _
      omega
    | parse error =>
      refine hmarks.congr fun column => ?_
      show contextMargin.length + 0 ≤ column ∧ column < contextMargin.length + e.text.length ↔
        contextMargin.length ≤ column ∧ column < (contextMargin ++ e.text).length
      rw [String.length_append, Nat.add_zero]

/-- In the second line of a file a character beyond the basic plane is refused, and the caret stands
under it although an indented digit stands before it. -/
theorem carets_under_range_astral :
    let e : Expression := ⟨" 7😀a", "sums.txt", 2⟩
    let failure : Failure := .scan ⟨'😀', 2⟩
    let r : Reporter := ⟨.plain, true, false, 0⟩
    ('\n' ∉ "sums.txt".toList ∧ e ∈ Expression.ofFile "1 + 1\n 7😀a\r\n" "sums.txt" ∧
      (evaluate e.text).failure? = some failure ∧ r.format = .plain ∧ r.colored = false) ∧
    ∃ marker column,
      r.render (r.printEvaluation e (evaluate e.text)) =
        linesText ["  ✖ ERROR  [INVALID_CHARACTER]  sums.txt:2:3  " ++
          "Input contained an invalid character at 2: '😀'", "    ↳  7😀a", marker] ∧
      Marks marker "    ↳  7😀a" (fun marked => marked = column) ∧
      "    ↳  7😀a".toList[column]? = some '😀' := by
  intro e failure r
  have hfile : '\n' ∉ "sums.txt".toList := by decide
  have he : e ∈ Expression.ofFile "1 + 1\n 7😀a\r\n" "sums.txt" := by decide +kernel
  have hfailure : (evaluate e.text).failure? = some failure := by decide +kernel
  obtain ⟨marker, range, -, hrender, -, -, -, column, hmarks, hcolumn, -⟩ :=
    carets_under_range hfile he hfailure (r := r) (Or.inr rfl) rfl
  refine ⟨⟨hfile, he, hfailure, rfl, rfl⟩, marker, column, ?_, hmarks, hcolumn⟩
  have htrace : (scan e.text).toOption = none := by decide +kernel
  have hhead : "  ✖ ERROR  [" ++ (failure.diagnostic e).code.text ++ "]  " ++
      (failure.diagnostic e).place ++ "  " ++ (failure.diagnostic e).message =
      "  ✖ ERROR  [INVALID_CHARACTER]  sums.txt:2:3  " ++
        "Input contained an invalid character at 2: '😀'" := by
    decide +kernel
  rw [htrace, hhead] at hrender
  exact hrender

end LineSum
