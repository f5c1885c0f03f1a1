import LineSum.Report.Reporter
import Std.Data.String.ToInt

/-!
# Reading records

The records that are printed for programs can be read again. A diagnostic is read as it was, without
what it did not have; an evaluation is read as the expression together with its value or its
diagnostic; a summary is read as its numbers.
-/

namespace LineSum

namespace JsonTree

/-- The integer, if the value is one. -/
def int? : JsonTree → Option Int
  | number n 0 => some n
  | _ => none

/-- The truth value, if the value is one. -/
def bool? : JsonTree → Option Bool
  | bool b => some b
  | _ => none

/-- The natural number, if the value is one. -/
def nat? (t : JsonTree) : Option Nat :=
  t.int?.bind Int.toNat?

/-- An integer is read as it is. -/
theorem int?_int (n : Int) : (int n).int? = some n := rfl

end JsonTree

/-! ## Diagnostics -/

/-- The severity of a word. -/
def Severity.ofText? (word : String) : Option Severity :=
  [error, warning].find? (·.text = word)

/-- A severity is read from its word. -/
theorem Severity.ofText?_text (s : Severity) : ofText? s.text = some s := by
  cases s <;> decide

namespace Code

/-- The kinds of diagnostics that have names of their own. -/
def standard : List Code :=
  [invalidCharacter, unexpectedEndOfInput, invalidToken, configSyntaxError, configInvalidField,
    configUnknownProfile, fileReadError, noExpressions]

/-- The kind with a name; a name that is not known is that of a caller. -/
def ofText (word : String) : Code :=
  (standard.find? (·.text = word)).getD (.named word)

/-- A kind that has a name of its own is read from it. -/
theorem ofText_text {c : Code} (h : ∀ name, c ≠ .named name) : ofText c.text = c := by
  cases c with
  | named name => exact absurd rfl (h name)
  | invalidCharacter | unexpectedEndOfInput | invalidToken | configSyntaxError
  | configInvalidField | configUnknownProfile | fileReadError | noExpressions => decide

end Code

/-- Reads a location. -/
def Location.ofRecord? (t : JsonTree) : Option Location := do
  let line ← (← t.get? "line").int?
  let col ← (← t.get? "col").int?
  let offset ← (← t.get? "offset").int?
  return ⟨line, col, offset⟩

/-- A location is read as it was. -/
theorem Location.ofRecord?_record (l : Location) : ofRecord? l.record = some l := rfl

/-- Reads a range. -/
def Range.ofRecord? (t : JsonTree) : Option Range := do
  let start ← Location.ofRecord? (← t.get? "start")
  let stop ← Location.ofRecord? (← t.get? "end")
  return ⟨start, stop⟩

/-- A range is read as it was. -/
theorem Range.ofRecord?_record (r : Range) : ofRecord? r.record = some r := rfl

/-- Reads a part of a record that may be missing; one that is there has to be readable. -/
def readOptional {α : Type} (read : JsonTree → Option α) : Option JsonTree → Option (Option α)
  | none => some none
  | some t => (read t).map some

/-- Reads a diagnostic. -/
def Diagnostic.ofRecord? (t : JsonTree) : Option Diagnostic := do
  let code ← (← t.get? "code").string?
  let message ← (← t.get? "message").string?
  let severity ← Severity.ofText? (← (← t.get? "severity").string?)
  let file ← (← t.get? "file").string?
  let range ← readOptional Range.ofRecord? (t.get? "range")
  let source ← readOptional JsonTree.string? (t.get? "source")
  return ⟨.ofText code, message, severity, file, range, source⟩

/-- A diagnostic is read as it was, if its kind has a name of its own. -/
theorem Diagnostic.ofRecord?_record {d : Diagnostic} (h : ∀ name, d.code ≠ .named name) :
    ofRecord? d.record = some d := by
  obtain ⟨code, message, severity, file, range, source⟩ := d
  have hseverity := Severity.ofText?_text severity
  have hcode : Code.ofText code.text = code := Code.ofText_text h
  cases range <;> cases source <;>
    simp [ofRecord?, record, JsonTree.get?, JsonTree.string?, readOptional, hseverity, hcode,
      Range.ofRecord?_record]

/-! ## Evaluations -/

namespace Failure

/-- The failures of expressions have kinds with names of their own. -/
theorem code_ne_named (failure : Failure) (name : String) : failure.code ≠ .named name := by
  cases failure with
  | scan error => exact Code.noConfusion
  | parse error => cases error <;> exact Code.noConfusion

end Failure

namespace Evaluation

/-- What a program is told about an expression: its value, or what is wrong with it. -/
def outcome (e : Evaluation) (expression : Expression) : Except Diagnostic Int :=
  match e with
  | value _ total => .ok total
  | scanFailed error => .error ((Failure.scan error).diagnostic expression)
  | parseFailed _ error => .error ((Failure.parse error).diagnostic expression)

/-- Reads an evaluation: the expression, and its value or its diagnostic. The value is written in
decimal digits. -/
def ofRecord? (t : JsonTree) : Option (Expression × Except Diagnostic Int) := do
  let file ← (← t.get? "file").string?
  let line ← (← t.get? "line").int?
  let text ← (← t.get? "input").string?
  if ← (← t.get? "ok").bool? then
    let total ← (← (← t.get? "value").string?).toInt?
    return (⟨text, file, line⟩, .ok total)
  else
    let diagnostic ← Diagnostic.ofRecord? (← t.get? "diagnostic")
    return (⟨text, file, line⟩, .error diagnostic)

/-- An evaluation is read as it was, whether its tokens are traced or not. -/
theorem ofRecord?_record (e : Evaluation) (expression : Expression) (trace : Bool) :
    ofRecord? (e.record expression trace) = some (expression, e.outcome expression) := by
  have hscan (error : InvalidCharacter Char) := Diagnostic.ofRecord?_record
    (d := (Failure.scan error).diagnostic expression) (Failure.code_ne_named (.scan error))
  have hparse (error : ParseError) := Diagnostic.ofRecord?_record
    (d := (Failure.parse error).diagnostic expression) (Failure.code_ne_named (.parse error))
  cases e <;> cases trace <;>
    simp [ofRecord?, record, outcome, tokens?, JsonTree.get?, JsonTree.string?, JsonTree.bool?,
      JsonTree.int?_int, hscan, hparse]

end Evaluation

/-! ## Summaries -/

/-- Reads the numbers of a summary. -/
def Summary.ofRecord? (t : JsonTree) : Option Summary := do
  let numbers ← t.get? "summary"
  let expressions ← numbers.get? "expressions"
  let diagnostics ← numbers.get? "diagnostics"
  return {
    total := ← (← expressions.get? "total").nat?
    passed := ← (← expressions.get? "passed").nat?
    failed := ← (← expressions.get? "failed").nat?
    counts := ⟨← (← diagnostics.get? "errors").nat?, ← (← diagnostics.get? "warnings").nat?⟩
    exitCode := ← (← numbers.get? "exitCode").nat? }

/-- A summary is read as it was, whatever time has passed. -/
theorem Summary.ofRecord?_record (s : Summary) (elapsed : String) :
    ofRecord? (s.record elapsed) = some s := rfl

end LineSum
