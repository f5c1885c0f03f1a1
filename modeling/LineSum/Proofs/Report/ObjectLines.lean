import LineSum.Proofs.Report.Colors
import LineSum.Proofs.Session.JsonLines

/-!
# One object on a line

In the format for programs every request prints records, one on a line, and each of them is an
object. The one exception is a request for tokens on their own: they are printed as for people, and
from then on the output can no longer be read line by line.
-/

namespace LineSum

/-! ## Lines and their beginnings -/

/-- What a line begins with, if it has no newline, is a part of the line. -/
theorem exists_rest_of_line {start rest line others : List Char} (hstart : '\n' ∉ start)
    (h : start ++ rest = line ++ '\n' :: others) :
    ∃ more, line = start ++ more ∧ rest = more ++ '\n' :: others := by
  rcases List.append_eq_append_iff.mp h with ⟨more, hline, hrest⟩ | ⟨tail, hstartLine, hothers⟩
  · exact ⟨more, hline, hrest⟩
  · -- the line cannot end before its beginning does, since that has no newline
    cases tail with
    | nil =>
      rw [List.append_nil] at hstartLine
      exact ⟨[], by rw [hstartLine, List.append_nil], hothers.symm⟩
    | cons c tail =>
      have hc : '\n' = c := (List.cons.inj hothers).1
      exfalso
      apply hstart
      rw [hstartLine, hc]
      exact List.mem_append_right _ List.mem_cons_self

/-- The first of several lines is followed by a newline and the others. -/
theorem toList_linesText_cons (line : String) (lines : List String) :
    (linesText (line :: lines)).toList = line.toList ++ '\n' :: (linesText lines).toList := by
  unfold linesText
  rw [List.map_cons, String.join_cons, String.toList_append, String.toList_append,
    List.append_assoc]
  rfl

/-- Lines that a text begins with are the first ones of its lines. -/
theorem exists_rest_of_lines {first lines : List String} (hfirst : ∀ line ∈ first, Lacks '\n' line)
    (hlines : ∀ line ∈ lines, Lacks '\n' line) {rest : List Char}
    (h : (linesText first).toList ++ rest = (linesText lines).toList) :
    ∃ more, lines = first ++ more ∧ rest = (linesText more).toList := by
  induction first generalizing lines with
  | nil => exact ⟨lines, rfl, h⟩
  | cons line first ih =>
    rw [List.forall_mem_cons] at hfirst
    rw [toList_linesText_cons, List.append_assoc, List.cons_append] at h
    cases lines with
    | nil =>
      have hlength := congrArg List.length h
      rw [List.length_append, List.length_cons] at hlength
      exact absurd hlength.symm (by simp [linesText])
    | cons line' lines =>
      rw [List.forall_mem_cons] at hlines
      rw [toList_linesText_cons] at h
      obtain ⟨more, hline, hrest⟩ := exists_rest_of_line hfirst.1 h
      cases more with
      | nil =>
        rw [List.append_nil, String.toList_inj] at hline
        subst hline
        obtain ⟨more, rfl, hmore⟩ := ih hfirst.2 hlines.2 (List.cons.inj hrest).2
        exact ⟨more, rfl, hmore⟩
      | cons c more =>
        have hc : '\n' = c := (List.cons.inj hrest).1
        refine absurd ?_ hlines.1
        rw [hline, hc]
        exact List.mem_append_right _ List.mem_cons_self

/-! ## Objects -/

/-- A line is one complete object: it can be read as one, and no control character breaks it. -/
def IsObjectLine (line : String) : Prop :=
  JsonTree.HasNoControl line.toList ∧ ∃ entries, JsonTree.ofText? line = some (.object entries)

/-- A text is made of lines, each of which is one complete object. -/
def IsObjectStream (text : String) : Prop :=
  ∃ lines, text = linesText lines ∧ ∀ line ∈ lines, IsObjectLine line

/-- An object is printed as one line. -/
theorem isObjectLine_print (entries : List (String × JsonTree)) :
    IsObjectLine (JsonTree.object entries).print :=
  ⟨JsonTree.hasNoControl_print _, entries, JsonTree.ofText?_print _⟩

/-- An object has no newline. -/
theorem IsObjectLine.lacks_newline {line : String} (h : IsObjectLine line) : Lacks '\n' line :=
  lacks_of_hasNoControl (by decide) h.1

/-- A line that begins with a code is no object. -/
theorem not_isObjectLine_of_escape {line : String} {rest : List Char}
    (h : line.toList = Style.escape :: rest) : ¬ IsObjectLine line := by
  rintro ⟨hcontrol, -⟩
  have hescape := hcontrol Style.escape (by rw [h]; exact List.mem_cons_self)
  exact absurd hescape (by decide)

/-- A line of context is no object. -/
theorem not_isObjectLine_of_margin {line : String} {rest : List Char}
    (h : line.toList = contextMargin.toList ++ rest) : ¬ IsObjectLine line := by
  rintro ⟨-, entries, hread⟩
  -- behind the spaces of the margin stands an arrow, and no value begins with one
  have hvalue : ∀ steps, JsonTree.readValue (steps + 1) (contextMargin.toList ++ rest) = none :=
    fun _ => rfl
  unfold JsonTree.ofText? at hread
  dsimp only at hread
  rw [h, hvalue] at hread
  cases hread

/-! ## Requests -/

/-- How many records a request asks for in the format for programs. -/
def Call.recordCount : Call → Nat
  | evaluation _ _ | summary _ => 1
  | diagnostics list => list.length
  | banner _ _ | trace _ | success | info _ => 0

namespace Reporter

variable {r : Reporter}

/-- Records are printed on lines of their own. -/
theorem render_records (r : Reporter) (records : List JsonTree) :
    r.render (.done (records.map recordLine)) = linesText (records.map JsonTree.print) := by
  rw [← r.render_plains, List.map_map]
  rfl

/-- Every diagnostic is printed as its record. -/
theorem printDiagnostics_json (h : r.format = .json) (ds : List Diagnostic) :
    r.printDiagnostics ds = .done ((ds.map Diagnostic.record).map recordLine) := by
  have hrecord : ∀ d, r.printDiagnostic d = .done [.plain d.record.print] := by
    intro d
    rw [printDiagnostic, h]
    rfl
  rw [printDiagnostics_of_plain hrecord, List.map_map, List.map_map]
  rfl

/-- A request prints the records that it asks for, unless it asks for tokens on their own. -/
theorem exists_records_of_perform (h : r.format = .json) (clock : Clock) {call : Call}
    (hcall : ∀ tokens, call ≠ .trace tokens) :
    ∃ records : List JsonTree, records.length = call.recordCount ∧
      (∀ tree ∈ records, ∃ entries, tree = .object entries) ∧
      (r.perform clock call).1 = .done (records.map recordLine) := by
  have hmachine : r.isMachine = true := by
    unfold isMachine
    rw [h]
    rfl
  have hnothing : ∀ tree ∈ ([] : List JsonTree), ∃ entries, tree = .object entries :=
    List.forall_mem_nil _
  cases call with
  | banner version count =>
    refine ⟨[], rfl, hnothing, ?_⟩
    rw [perform, if_pos hmachine]
    rfl
  | evaluation e result =>
    refine ⟨[result.record e r.trace], rfl, List.forall_mem_singleton.mpr ⟨_, rfl⟩, ?_⟩
    show r.printEvaluation e result = _
    unfold printEvaluation
    rw [h]
    rfl
  | trace tokens => exact absurd rfl (hcall tokens)
  | diagnostics list =>
    refine ⟨list.map Diagnostic.record, List.length_map _, ?_, printDiagnostics_json h list⟩
    intro tree htree
    obtain ⟨d, -, rfl⟩ := List.mem_map.mp htree
    exact ⟨_, rfl⟩
  | summary s =>
    refine ⟨[s.record (secondsText (clock.read.1 - r.started))], rfl,
      List.forall_mem_singleton.mpr ⟨_, rfl⟩, ?_⟩
    show r.printSummary s clock.read.1 = _
    rw [printSummary, h]
    rfl
  | success =>
    refine ⟨[], rfl, hnothing, ?_⟩
    show r.printSuccess = _
    rw [printSuccess, if_pos hmachine]
    rfl
  | info text =>
    refine ⟨[], rfl, hnothing, ?_⟩
    show r.printInfo text = _
    rw [printInfo, if_pos hmachine]
    rfl

/-- Tokens that are asked for on their own begin a line which is no object, whatever follows. -/
theorem not_isObjectStream_of_trace (r : Reporter) (tokens rest : String) :
    ¬ IsObjectStream (r.render (r.printTrace tokens) ++ rest) := by
  rintro ⟨lines, htext, hlines⟩
  have htrace : (r.render (r.printTrace tokens)).toList =
      (Piece.styled .dim (contextMargin ++ ("Tokens: " ++ tokens))).render r.colored ++ ['\n'] := by
    show (renderLines r.colored [traceLine tokens]).toList = _
    unfold renderLines
    rw [String.toList_ofList, List.flatMap_singleton, Line.render, traceLine, contextLine,
      List.flatMap_singleton]
    rfl
  have hchars := congrArg String.toList htext
  rw [String.toList_append, htrace] at hchars
  cases lines with
  | nil =>
    have hlength := congrArg List.length hchars
    exact absurd hlength (by simp [linesText])
  | cons line lines =>
    rw [List.forall_mem_cons] at hlines
    rw [toList_linesText_cons] at hchars
    cases hcolored : r.colored with
    | true =>
      obtain ⟨behind, hcode⟩ :=
        Piece.exists_render_eq_cons .dim (contextMargin_append_ne_empty ("Tokens: " ++ tokens))
      rw [hcolored, hcode] at hchars
      have hstart : '\n' ∉ [Style.escape] := by decide
      obtain ⟨more, hline, -⟩ := exists_rest_of_line hstart hchars
      exact not_isObjectLine_of_escape hline hlines.1
    | false =>
      have hplain : (Piece.styled .dim (contextMargin ++ ("Tokens: " ++ tokens))).render false =
          contextMargin.toList ++ ("Tokens: " ++ tokens).toList := String.toList_append
      rw [hcolored, hplain, List.append_assoc, List.append_assoc] at hchars
      obtain ⟨more, hline, -⟩ := exists_rest_of_line (by decide) hchars
      exact not_isObjectLine_of_margin hline hlines.1

/-! ## Rows of requests -/

/-- A row of requests prints the records that it asks for, unless it asks for
tokens on their own. -/
theorem exists_lines_of_calls (h : r.format = .json) (clock : Clock) {calls : List Call}
    (hcalls : ∀ call ∈ calls, ∀ tokens, call ≠ .trace tokens) :
    ∃ lines, r.text clock calls = linesText lines ∧
      lines.length = (calls.map Call.recordCount).sum ∧ ∀ line ∈ lines, IsObjectLine line := by
  induction calls generalizing clock with
  | nil => exact ⟨[], rfl, rfl, List.forall_mem_nil _⟩
  | cons call calls ih =>
    rw [List.forall_mem_cons] at hcalls
    obtain ⟨records, hcount, hobjects, hprinted⟩ := exists_records_of_perform h clock hcalls.1
    obtain ⟨lines, htext, hlength, hlines⟩ := ih (r.perform clock call).2 hcalls.2
    refine ⟨records.map JsonTree.print ++ lines, ?_, ?_, ?_⟩
    · rw [text_cons, hprinted, render_records, htext, linesText_append]
    · rw [List.length_append, List.length_map, hcount, hlength, List.map_cons, List.sum_cons]
    · intro line hline
      rcases List.mem_append.mp hline with hrecord | hlater
      · obtain ⟨tree, htree, rfl⟩ := List.mem_map.mp hrecord
        obtain ⟨entries, rfl⟩ := hobjects tree htree
        exact isObjectLine_print entries
      · exact hlines line hlater

/-- A row that prints objects only does not ask for tokens on their own. -/
theorem ne_trace_of_isObjectStream (h : r.format = .json) (clock : Clock) {calls : List Call}
    (hstream : IsObjectStream (r.text clock calls)) :
    ∀ call ∈ calls, ∀ tokens, call ≠ .trace tokens := by
  induction calls generalizing clock with
  | nil => exact List.forall_mem_nil _
  | cons call calls ih =>
    rw [text_cons] at hstream
    have hcall : ∀ tokens, call ≠ .trace tokens := by
      rintro tokens rfl
      exact r.not_isObjectStream_of_trace tokens _ hstream
    refine List.forall_mem_cons.mpr ⟨hcall, ih (r.perform clock call).2 ?_⟩
    -- the records of the first request are the first lines, and the others are left to the next
    -- ones
    obtain ⟨records, -, hobjects, hprinted⟩ := exists_records_of_perform h clock hcall
    obtain ⟨lines, htext, hlines⟩ := hstream
    have hfirst : ∀ line ∈ records.map JsonTree.print, Lacks '\n' line := by
      intro line hline
      obtain ⟨tree, -, rfl⟩ := List.mem_map.mp hline
      exact lacks_print (by decide) tree
    have hsplit := congrArg String.toList htext
    rw [hprinted, render_records, String.toList_append] at hsplit
    obtain ⟨more, rfl, hmore⟩ :=
      exists_rest_of_lines hfirst (fun line hline => (hlines line hline).lacks_newline) hsplit
    exact ⟨more, String.toList_inj.mp hmore,
      fun line hline => hlines line (List.mem_append_right _ hline)⟩

/-- In the format for programs no request stops early. -/
theorem error_perform_json (h : r.format = .json) (clock : Clock) (call : Call) :
    (r.perform clock call).1.error = none := by
  by_cases htrace : ∃ tokens, call = .trace tokens
  · obtain ⟨tokens, rfl⟩ := htrace
    rfl
  · rw [not_exists] at htrace
    obtain ⟨records, -, -, hprinted⟩ := exists_records_of_perform h clock htrace
    rw [hprinted]
    rfl

end Reporter

/-- **For programs every line is one object, unless tokens are asked for on their own.** In the
format for programs no request stops early, whatever its texts are. A row of requests prints one
line for every evaluation, every diagnostic and every summary that it asks for and nothing else, and
each line is one complete object; but if one of the requests asks for tokens on their own, what is
printed is no stream of objects. -/
theorem object_lines_of_calls {r : Reporter} (h : r.format = .json) (clock : Clock)
    (calls : List Call) :
    (∀ printed ∈ r.performAll clock calls, printed.error = none) ∧
    ((∀ call ∈ calls, ∀ tokens, call ≠ .trace tokens) →
      ∃ lines, r.text clock calls = linesText lines ∧
        lines.length = (calls.map Call.recordCount).sum ∧ ∀ line ∈ lines, IsObjectLine line) ∧
    ∀ tokens, .trace tokens ∈ calls → ¬ IsObjectStream (r.text clock calls) := by
  refine ⟨?_, ?_, ?_⟩
  · exact Reporter.forall_performAll
      (fun call _ now => Reporter.error_perform_json h now call) clock
  · exact fun hcalls => Reporter.exists_lines_of_calls h clock hcalls
  · intro tokens hmem hstream
    exact Reporter.ne_trace_of_isObjectStream h clock hstream _ hmem tokens rfl

/-- Requests of every other kind, with texts that hold line ends, quotes and codes. -/
def mixedCalls : List Call :=
  [.banner "1.0.0" 1, .evaluation ⟨"7\n", "<arg:1>", 1⟩ (evaluate "7\n"),
    .diagnostics [⟨.noExpressions, "none\n", .warning, "a\nb", none, none⟩,
      ⟨.named "\x1b", "", .error, "\x22", some ⟨⟨1, 1, -9⟩, ⟨1, 2, 1⟩⟩, some ""⟩],
    .info "\n", .summary ⟨1, 0, 1, ⟨1, 1⟩, 1⟩, .success]

/-- They print four objects, and with a request for tokens behind them they
print more than objects. -/
theorem object_lines_of_calls_mixed :
    let r := Reporter.make .json .always true ⟨false, false, true⟩ 0
    (r.format = .json ∧ ∀ call ∈ mixedCalls, ∀ tokens, call ≠ .trace tokens) ∧
    (∃ lines, r.text ⟨[0]⟩ mixedCalls = linesText lines ∧ lines.length = 4 ∧
      ∀ line ∈ lines, IsObjectLine line) ∧
    ¬ IsObjectStream (r.text ⟨[0]⟩ (mixedCalls ++ [.trace "[]"])) := by
  intro r
  have hr : r.format = .json := rfl
  have hcalls : ∀ call ∈ mixedCalls, ∀ tokens, call ≠ .trace tokens := by
    intro call hcall tokens htrace
    subst htrace
    simp [mixedCalls] at hcall
  obtain ⟨lines, htext, hlength, hlines⟩ := (object_lines_of_calls hr ⟨[0]⟩ mixedCalls).2.1 hcalls
  have hcount : (mixedCalls.map Call.recordCount).sum = 4 := rfl
  have hlone : .trace "[]" ∈ mixedCalls ++ [.trace "[]"] :=
    List.mem_append_right mixedCalls (List.mem_singleton_self _)
  exact ⟨⟨hr, hcalls⟩, ⟨lines, htext, hlength.trans hcount, hlines⟩,
    (object_lines_of_calls hr ⟨[0]⟩ _).2.2 "[]" hlone⟩

/-- Tokens that are asked for on their own are printed as for people, and this is no object. -/
theorem lone_trace_is_no_object :
    let r := Reporter.make .json .never false ⟨false, false, false⟩ 0
    r.text ⟨[0]⟩ [.trace "x"] = "    ↳ Tokens: x\n" ∧
      ¬ IsObjectStream (r.text ⟨[0]⟩ [.trace "x"]) := by
  intro r
  exact ⟨by decide +kernel, r.not_isObjectStream_of_trace "x" ""⟩

end LineSum
