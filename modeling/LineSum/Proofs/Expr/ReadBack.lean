import LineSum.Proofs.Expr.Grammar
import LineSum.Proofs.Text
import LineSum.Report.Reporter

/-!
# Reading back what is printed

The name of a number and every format of a report show a number by the same text, its decimal digits
behind a sign if it is negative. Where it is not negative this text is a numeral, so that tokens are
scanned as they are typed when spaces stand between them. The text of a negative number is read as a
sign and a numeral, which is no expression.
-/

namespace LineSum

/-! ## The text of a number -/

/-- The digits of a number are a numeral. -/
theorem isNumeral_toDigits (n : Nat) : IsNumeral (Nat.toDigits 10 n) :=
  ⟨Nat.toDigits_ne_nil, fun _ hc => isDecimal_of_mem_toDigits hc⟩

namespace Lexes

/-- The digits of a number are one token, which is the number. -/
theorem toDigits (n : Nat) : Lexes (Nat.toDigits 10 n) [.number n] := by
  have hvalue : digitsValue (Nat.toDigits 10 n) = n := decimalValue_toDigits n
  have hnumeral := numeral (isNumeral_toDigits n)
  rwa [hvalue] at hnumeral

/-- The text of a number that is not negative is one token, which is the number. -/
theorem toString_of_nonneg {v : Int} (h : 0 ≤ v) : Lexes (toString v).toList [.number v] := by
  have hsize : (v.natAbs : Int) = v := by omega
  have hdigits := toDigits v.natAbs
  rw [hsize] at hdigits
  rw [toList_toString_int, if_neg (by omega)]
  exact hdigits

/-- The text of a negative number is two tokens, a minus sign and the number without its sign. -/
theorem toString_of_neg {v : Int} (h : v < 0) :
    Lexes (toString v).toList [.minus, .number (-v)] := by
  have hsize : (v.natAbs : Int) = -v := by omega
  have hdigits := toDigits v.natAbs
  rw [hsize] at hdigits
  rw [toList_toString_int, if_pos h]
  exact .minus rfl hdigits

end Lexes

/-- The text of a number that is not negative is an expression with this value. -/
theorem evaluate_toString_of_nonneg {v : Int} (h : 0 ≤ v) :
    evaluate (toString v) = .value [.number v] v :=
  evaluate_eq_value_iff.mpr ⟨.toString_of_nonneg h, rfl⟩

/-- The text of a negative number is no expression: a sign stands where a number is due. -/
theorem evaluate_toString_of_neg {v : Int} (h : v < 0) :
    evaluate (toString v) = .parseFailed [.minus, .number (-v)] (.invalidToken .minus) :=
  evaluate_eq_parseFailed_iff.mpr ⟨.toString_of_neg h, rfl⟩

/-! ## The text of tokens -/

/-- The characters by which a token is typed: the text of a number, or the sign. -/
def Token.chars : Token → List Char
  | number value => (toString value).toList
  | plus => ['+']
  | minus => ['-']

/-- The characters of tokens that are typed one after the other. In front of the last `n` tokens
there are `gap n` spaces, unless these are all of the tokens. -/
def typedRow (gap : Nat → Nat) : List Token → List Char
  | [] => []
  | [t] => t.chars
  | t :: u :: ts => t.chars ++ (spaces (gap (ts.length + 1)) ++ typedRow gap (u :: ts))

/-- A typed token is this token, if it is no negative number. -/
theorem Lexes.token {t : Token} (h : ∀ v, t = .number v → 0 ≤ v) : Lexes t.chars [t] := by
  cases t with
  | number v => exact .toString_of_nonneg (h v rfl)
  | plus => exact .plus rfl .nil
  | minus => exact .minus rfl .nil

/-- No number runs into a space. -/
theorem not_runsAcross_spaces {n : Nat} (hn : 0 < n) (a b : List Char) :
    ¬ RunsAcross a (spaces n ++ b) := by
  obtain ⟨m, rfl⟩ := Nat.exists_eq_succ_of_ne_zero (Nat.ne_of_gt hn)
  rintro ⟨-, hstart⟩
  cases hstart

/-- Tokens that are typed with spaces between them are these tokens, if no number is negative. -/
theorem Lexes.typedRow {gap : Nat → Nat} (hgap : ∀ n, 0 < gap n) {ts : List Token}
    (hts : ∀ v, Token.number v ∈ ts → 0 ≤ v) : Lexes (typedRow gap ts) ts := by
  induction ts with
  | nil => exact .nil
  | cons t ts ih =>
    have hfirst : Lexes t.chars [t] := by
      apply Lexes.token
      rintro v rfl
      exact hts v List.mem_cons_self
    have hrest := ih fun v hv => hts v (List.mem_cons_of_mem t hv)
    cases ts with
    | nil => exact hfirst
    | cons u ts =>
      -- The space behind the first token ends it, and adds no token of its own.
      exact hfirst.append (hrest.spaces_append _) (not_runsAcross_spaces (hgap _) _ _)

/-! ## The text of a value -/

/-- What is printed of an expression shows its value as `shown`, in each format. -/
structure Expression.ReportedAs (e : Expression) (shown : String) : Prop where
  people : ∀ r : Reporter, r.isMachine = false →
    (r.printEvaluation e (evaluate e.text)).lines.head? =
      some [.plain "  ", .styled .green "✓", .plain s!" {e.text}  =  ", .styled .bold shown]
  compact : ∀ r : Reporter, r.format = .compact →
    r.printEvaluation e (evaluate e.text) =
      .done [.plain s!"{e.file}:{e.line} {e.text} = {shown}"]
  json : ∀ r : Reporter, r.format = .json →
    ∃ members, r.printEvaluation e (evaluate e.text) =
      .done [Reporter.recordLine (.object members)] ∧
      ("value", .string shown) ∈ members

/-- The value of an expression is reported by its text. -/
theorem Expression.reportedAs_toString {e : Expression} {ts : List Token} {v : Int}
    (h : evaluate e.text = .value ts v) : e.ReportedAs (toString v) where
  people r hr := by
    unfold Reporter.isMachine at hr
    unfold Reporter.printEvaluation
    rw [h]
    cases hformat : r.format with
    | json => simp [hformat] at hr
    | compact => simp [hformat] at hr
    | pretty | plain =>
      dsimp only
      split <;> rfl
  compact r hr := by
    unfold Reporter.printEvaluation
    rw [hr, h]
    rfl
  json r hr := by
    unfold Reporter.printEvaluation
    rw [hr, h]
    exact ⟨_, rfl, by simp⟩

/-- **What is printed is read back.** Tokens that are typed with spaces between them, and without
negative numbers, are scanned as they are. The value of an expression has one text, in the name of
its token and in all reports; if it is not negative, this text evaluates to the value again, and
otherwise its sign is an invalid token. -/
theorem printed_read_back :
    (∀ (gap : Nat → Nat) (ts : List Token), (∀ n, 0 < gap n) →
      (∀ v, Token.number v ∈ ts → 0 ≤ v) → scan (String.ofList (typedRow gap ts)) = .ok ts) ∧
    ∀ (e : Expression) (ts : List Token) (v : Int), evaluate e.text = .value ts v →
      e.ReportedAs (toString v) ∧ (Token.number v).text = s!"Number({toString v})" ∧
      (0 ≤ v → evaluate (toString v) = .value [.number v] v) ∧
      (v < 0 → evaluate (toString v) =
        .parseFailed [.minus, .number (-v)] (.invalidToken .minus)) := by
  refine ⟨fun gap ts hgap hts => ?_, fun e ts v hv => ?_⟩
  · apply scan_eq_ok_iff.mpr
    rw [String.toList_ofList]
    exact .typedRow hgap hts
  · exact ⟨e.reportedAs_toString hv, rfl, evaluate_toString_of_nonneg, evaluate_toString_of_neg⟩

/-- Twelve and nothing are typed with a sign and several spaces between them; and three minus ten is
reported as a text that is no expression. -/
theorem printed_read_back_negative :
    typedRow (· + 1) [.number 12, .minus, .number 0] = "12   -  0".toList ∧
      scan "12   -  0" = .ok [.number 12, .minus, .number 0] ∧
      evaluate "3 - 10" = .value [.number 3, .minus, .number 10] (-7) ∧
      evaluate "-7" = .parseFailed [.minus, .number 7] (.invalidToken .minus) := by
  have htyped : typedRow (· + 1) [.number 12, .minus, .number 0] = "12   -  0".toList := by
    decide +kernel
  have hvalue : evaluate "3 - 10" = .value [.number 3, .minus, .number 10] (-7) := by
    decide +kernel
  have hscan := printed_read_back.1 (· + 1) [.number 12, .minus, .number 0]
    (fun n => Nat.succ_pos n) (by simp)
  rw [htyped, String.ofList_toList] at hscan
  obtain ⟨-, -, -, hneg⟩ := printed_read_back.2 ⟨"3 - 10", "<arg:1>", 1⟩ _ _ hvalue
  exact ⟨htyped, hscan, hvalue, hneg (by decide)⟩

end LineSum
