import LineSum.Proofs.Expr.Grammar
import LineSum.Proofs.Source.Lines

/-!
# Where invalid characters are reported

The diagnostics of a file come from the expressions in it that fail. An invalid character is
reported in exactly those lines that are read and have an illegal character, and the report points
at the first such character of the line, counted in the line as it stands in the file.
-/

namespace LineSum

/-- The diagnostic of an expression, if it fails. -/
def Expression.diagnostic? (e : Expression) : Option Diagnostic :=
  (evaluate e.text).failure?.map (Failure.diagnostic e)

/-- The diagnostics of a file: those of its expressions, in their order. -/
def fileDiagnostics (content file : String) : List Diagnostic :=
  (Expression.ofFile content file).filterMap Expression.diagnostic?

/-- A diagnostic reports an invalid character in the line of a number. -/
def ReportsInLine (d : Diagnostic) (number : Int) : Prop :=
  d.code = .invalidCharacter ∧ ∃ r, d.range = some r ∧ r.start.line = number

/-- Only an expression that cannot be scanned is reported for an invalid character. -/
theorem diagnostic?_invalidCharacter_iff {e : Expression} {d : Diagnostic} :
    (e.diagnostic? = some d ∧ d.code = .invalidCharacter) ↔
      ∃ error, scan e.text = .error error ∧ d = (Failure.scan error).diagnostic e := by
  unfold Expression.diagnostic?
  constructor
  · rintro ⟨hd, hcode⟩
    obtain ⟨failure, hfailure, rfl⟩ := Option.map_eq_some_iff.mp hd
    cases heval : evaluate e.text with
    | value ts total =>
      rw [heval] at hfailure
      cases hfailure
    | scanFailed error =>
      rw [heval] at hfailure
      cases hfailure
      exact ⟨error, evaluate_eq_scanFailed_iff.mp heval, rfl⟩
    | parseFailed ts error =>
      rw [heval] at hfailure
      cases hfailure
      cases error <;> cases hcode
  · rintro ⟨error, hscan, rfl⟩
    rw [evaluate_eq_scanFailed_iff.mpr hscan]
    exact ⟨rfl, rfl⟩

/-- The reports of invalid characters in a line come from the line, which is neither blank nor a
comment and cannot be scanned. -/
theorem reportsInLine_iff {content file : String} {d : Diagnostic} {i : Nat} :
    (d ∈ fileDiagnostics content file ∧ ReportsInLine d ((i : Int) + 1)) ↔
      ∃ line error, (fileLines content)[i]? = some line ∧
        (¬ IsBlankLine line ∧ ¬ IsComment line) ∧
        scan (String.ofList (dropReturn line)) = .error error ∧
        d = (Failure.scan error).diagnostic
          ⟨String.ofList (dropReturn line), file, (i : Int) + 1⟩ := by
  unfold fileDiagnostics ReportsInLine
  rw [List.mem_filterMap]
  constructor
  · rintro ⟨⟨e, he, hd⟩, hcode, r, hr, hnumber⟩
    obtain ⟨k, line, hline, hkept, rfl⟩ := mem_ofFile_iff.mp he
    obtain ⟨error, hscan, rfl⟩ := diagnostic?_invalidCharacter_iff.mp ⟨hd, hcode⟩
    cases hr
    have hk : k = i := by
      have : (k : Int) + 1 = (i : Int) + 1 := hnumber
      omega
    subst hk
    exact ⟨line, error, hline, hkept, hscan, rfl⟩
  · rintro ⟨line, error, hline, hkept, hscan, rfl⟩
    let e : Expression := ⟨String.ofList (dropReturn line), file, (i : Int) + 1⟩
    have hmem : e ∈ Expression.ofFile content file :=
      mem_ofFile_iff.mpr ⟨i, line, hline, hkept, rfl⟩
    have hd := diagnostic?_invalidCharacter_iff (e := e).mpr ⟨error, hscan, rfl⟩
    exact ⟨⟨e, hmem, hd.1⟩, hd.2, _, rfl, rfl⟩

/-- **An invalid character is reported where it stands.** In the line of a number, counted from one,
an invalid character is reported exactly when the line is neither blank nor a comment and has an
illegal character before its carriage return. The report names the first such character of the line,
by its offset and its column, and ends on the same line one column later. -/
theorem invalidCharacter_located (content file : String) (i : Nat) :
    ((∃ d ∈ fileDiagnostics content file, ReportsInLine d ((i : Int) + 1)) ↔
      ∃ l, (fileLines content)[i]? = some l ∧ ¬ IsBlankLine l ∧ ¬ IsComment l ∧
        ∃ c ∈ dropReturn l, ¬ IsLegal c) ∧
      ∀ d ∈ fileDiagnostics content file, ReportsInLine d ((i : Int) + 1) →
        ∃ (l : List Char) (offset : Nat) (c : Char) (r : Range),
          (fileLines content)[i]? = some l ∧ d.file = file ∧ d.range = some r ∧
          r.start.offset = offset ∧ l[offset]? = some c ∧ ¬ IsLegal c ∧
          d.message = "Input contained an invalid character at " ++ toString offset ++ ": '" ++
            c.toString ++ "'" ∧
          (∀ (j : Nat) (x : Char), j < offset → l[j]? = some x → IsLegal x) ∧
          r.start.line = (i : Int) + 1 ∧ r.start.col = r.start.offset + 1 ∧
          r.stop.line = r.start.line ∧ r.stop.col = r.start.col + 1 := by
  constructor
  · constructor
    · rintro ⟨d, hd, hreport⟩
      obtain ⟨line, error, hline, hkept, hscan, -⟩ := reportsInLine_iff.mp ⟨hd, hreport⟩
      obtain ⟨pre, post, htext, -, hc, -⟩ := scan_eq_error_iff.mp hscan
      rw [String.toList_ofList] at htext
      exact ⟨line, hline, hkept.1, hkept.2, error.character, by simp [htext], hc⟩
    · rintro ⟨line, hline, hblank, hcomment, c, hmem, hc⟩
      obtain ⟨pre, x, post, htext, hpre, hx⟩ := exists_first_illegal fun h => hc (h c hmem)
      have hscan : scan (String.ofList (dropReturn line)) = .error ⟨x, pre.length⟩ := by
        refine scan_eq_error_iff.mpr ⟨pre, post, ?_, hpre, hx, rfl⟩
        rw [String.toList_ofList]
        exact htext
      exact ⟨_, reportsInLine_iff.mpr ⟨line, _, hline, ⟨hblank, hcomment⟩, hscan, rfl⟩⟩
  · intro d hd hreport
    obtain ⟨line, error, hline, -, hscan, rfl⟩ := reportsInLine_iff.mp ⟨hd, hreport⟩
    obtain ⟨pre, post, htext, hpre, hc, hposition⟩ := scan_eq_error_iff.mp hscan
    rw [String.toList_ofList] at htext
    refine ⟨line, error.position, error.character, _, hline, rfl, rfl, rfl, ?_, hc, rfl, ?_, rfl,
      rfl, rfl, rfl⟩
    · apply getElem?_of_dropReturn
      rw [htext, hposition]
      simp
    · intro j x hj hx
      have hlt : j < pre.length := hposition ▸ hj
      have hpast : (dropReturn line)[j]? = some pre[j] := by
        rw [htext, List.getElem?_append_left hlt, List.getElem?_eq_getElem hlt]
      have heq := (getElem?_of_dropReturn hpast).symm.trans hx
      rw [Option.some.injEq] at heq
      rw [← heq]
      exact hpre _ (List.getElem_mem hlt)

/-- In an indented line behind a byte order mark the report points at the sign of multiplication. -/
theorem invalidCharacter_located_factor :
    ∃ d ∈ fileDiagnostics "\uFEFF1 + 1\n  2 * 3\r\n" "sums.txt", ReportsInLine d 2 ∧
      d.message = "Input contained an invalid character at 4: '*'" ∧
      ∃ l c r, (fileLines "\uFEFF1 + 1\n  2 * 3\r\n")[1]? = some l ∧
        d.range = some r ∧ r.start.col = 5 ∧ l[4]? = some c ∧ ¬ IsLegal c := by
  let d := (Failure.scan ⟨'*', 4⟩).diagnostic ⟨"  2 * 3", "sums.txt", 2⟩
  have hd : d ∈ fileDiagnostics "\uFEFF1 + 1\n  2 * 3\r\n" "sums.txt" := by decide +kernel
  have hreport : ReportsInLine d 2 := ⟨rfl, _, rfl, rfl⟩
  obtain ⟨l, offset, c, r, hl, -, hr, hoffset, hc, hill, -⟩ :=
    (invalidCharacter_located _ _ 1).2 d hd hreport
  cases hr
  cases hoffset
  exact ⟨d, hd, hreport, rfl, l, c, _, hl, rfl, rfl, hc, hill⟩

end LineSum
