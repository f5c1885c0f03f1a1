import LineSum.Expr.Evaluation
import LineSum.Proofs.Expr.Lexing
import LineSum.Proofs.Expr.Summing

/-!
# The grammar of expressions

A `Summation` is a way to write a sum: a literal, then signs and literals, with any number of spaces
between them. The texts that have a value are the texts of summations, and the value of a text is
the sum that is written in it.
-/

namespace LineSum

/-! ## Evaluating -/

/-- The value of a text is that of its tokens. -/
theorem evaluate_eq_value_iff {text : String} {ts : List Token} {total : Int} :
    evaluate text = .value ts total ↔
      Lexes text.toList ts ∧ evaluateTokens ts = .ok total := by
  rw [← scan_eq_ok_iff]
  unfold evaluate
  cases scan text with
  | error e => simp
  | ok us => cases hus : evaluateTokens us <;> grind

/-- A failure among the tokens of a text is that of its tokens. -/
theorem evaluate_eq_parseFailed_iff {text : String} {ts : List Token} {e : ParseError} :
    evaluate text = .parseFailed ts e ↔
      Lexes text.toList ts ∧ evaluateTokens ts = .error e := by
  rw [← scan_eq_ok_iff]
  unfold evaluate
  cases scan text with
  | error e => simp
  | ok us => cases hus : evaluateTokens us <;> grind

/-- A text fails to be scanned at the character that the scan refuses. -/
theorem evaluate_eq_scanFailed_iff {text : String} {e : InvalidCharacter Char} :
    evaluate text = .scanFailed e ↔ scan text = .error e := by
  unfold evaluate
  cases scan text with
  | error e => simp
  | ok us => cases hus : evaluateTokens us <;> simp [hus]

/-- An evaluation succeeds when it has a value. -/
theorem succeeded_iff {e : Evaluation} :
    e.succeeded = true ↔ ∃ ts total, e = .value ts total := by
  cases e <;> simp [Evaluation.succeeded, Evaluation.failure?]

/-! ## Ways to write a sum -/

namespace Sign

/-- The character of a sign. -/
def character : Sign → Char
  | plus => '+'
  | minus => '-'

end Sign

/-- A literal is written as one or more ASCII digits; leading zeros are allowed. -/
structure Literal where
  digits : List Char
  isNumeral : IsNumeral digits

/-- The value of a literal in base ten. -/
def Literal.value (l : Literal) : Nat :=
  Nat.ofDigits 10 (l.digits.reverse.map digitValue)

/-- So many spaces. -/
def spaces (n : Nat) : List Char :=
  List.replicate n ' '

/-- A sign and a literal, each with spaces before it. -/
structure Summand where
  before : Nat
  sign : Sign
  between : Nat
  literal : Literal

namespace Summand

/-- The characters of a summand. -/
def chars (s : Summand) : List Char :=
  spaces s.before ++ s.sign.character :: (spaces s.between ++ s.literal.digits)

/-- The sign and the number of a summand. -/
def step (s : Summand) : Sign × Int :=
  (s.sign, s.literal.value)

end Summand

/-- A literal and the summands behind it, with spaces around them. -/
structure Summation where
  lead : Nat
  first : Literal
  summands : List Summand
  trail : Nat

namespace Summation

/-- The characters of a summation. -/
def chars (s : Summation) : List Char :=
  spaces s.lead ++ s.first.digits ++ s.summands.flatMap Summand.chars ++ spaces s.trail

/-- The text of a summation. -/
def text (s : Summation) : String :=
  String.ofList s.chars

/-- The sum that is written: the first literal and the others with their signs. -/
def value (s : Summation) : Int :=
  s.first.value + (s.summands.map fun t => t.sign.factor * (t.literal.value : Int)).sum

end Summation

/-! ## The tokens of a summation -/

/-- Spaces in front of a text add no tokens. -/
theorem Lexes.spaces_append {cs : List Char} {ts : List Token} (n : Nat) (h : Lexes cs ts) :
    Lexes (spaces n ++ cs) ts := by
  induction n with
  | zero => exact h
  | succ n ih => exact .space rfl ih

/-- A sign in front of a text is its first token. -/
theorem Lexes.sign {cs : List Char} {ts : List Token} (sign : Sign) (h : Lexes cs ts) :
    Lexes (sign.character :: cs) (sign.token :: ts) := by
  cases sign with
  | plus => exact .plus rfl h
  | minus => exact .minus rfl h

/-- No digit follows a literal: behind it come spaces, a sign or the end. -/
theorem startsWithDigit_tail (summands : List Summand) (trail : Nat) :
    startsWithDigit (summands.flatMap Summand.chars ++ spaces trail) = false := by
  cases summands with
  | nil =>
    cases trail with
    | zero => rfl
    | succ n => rfl
  | cons t summands =>
    obtain ⟨before, sign, between, literal⟩ := t
    cases before with
    | zero => cases sign <;> rfl
    | succ n => rfl

/-- The value of a literal is the number that is read from its digits. -/
theorem Literal.value_eq (l : Literal) : digitsValue l.digits = l.value :=
  digitsValue_eq_ofDigits l.digits

/-- The tokens of summands are a row. -/
theorem lexes_summands (summands : List Summand) (trail : Nat) :
    Lexes (summands.flatMap Summand.chars ++ spaces trail)
      (row (summands.map Summand.step)) := by
  induction summands with
  | nil =>
    have := Lexes.nil.spaces_append trail
    rwa [List.append_nil] at this
  | cons t summands ih =>
    have hliteral := Lexes.number t.literal.isNumeral (startsWithDigit_tail summands trail) ih
    have hsign := (hliteral.spaces_append t.between).sign t.sign
    have hall := hsign.spaces_append t.before
    rw [t.literal.value_eq] at hall
    rw [List.map_cons, Summand.step, row_cons, List.flatMap_cons, Summand.chars]
    simpa using hall

/-- The tokens of a summation are a number and a row. -/
theorem lexes_summation (s : Summation) :
    Lexes s.chars (.number s.first.value :: row (s.summands.map Summand.step)) := by
  have hfirst := Lexes.number s.first.isNumeral (startsWithDigit_tail s.summands s.trail)
    (lexes_summands s.summands s.trail)
  have hall := hfirst.spaces_append s.lead
  rw [s.first.value_eq] at hall
  unfold Summation.chars
  simpa using hall

/-- The sum of a summation is its first number and the sum of its row. -/
theorem Summation.value_eq (s : Summation) :
    s.value = s.first.value + rowSum (s.summands.map Summand.step) := by
  unfold Summation.value rowSum
  rw [List.map_map]
  rfl

/-! ## The summation of a text -/

/-- A text without tokens consists of spaces. -/
theorem Lexes.exists_spaces {cs : List Char} (h : Lexes cs []) : ∃ n, cs = spaces n := by
  generalize hts : ([] : List Token) = ts at h
  induction h with
  | nil => exact ⟨0, rfl⟩
  | space hc _ ih =>
    obtain rfl := char?_eq_some_iff.mp hc
    obtain ⟨n, rfl⟩ := ih hts
    exact ⟨n + 1, rfl⟩
  | plus => cases hts
  | minus => cases hts
  | number => cases hts

/-- A text whose first token is a sign has that sign behind spaces. -/
theorem Lexes.exists_sign {cs : List Char} {sign : Sign} {ts : List Token}
    (h : Lexes cs (sign.token :: ts)) :
    ∃ n rest, cs = spaces n ++ sign.character :: rest ∧ Lexes rest ts := by
  generalize hus : sign.token :: ts = us at h
  induction h with
  | nil => cases hus
  | space hc _ ih =>
    obtain rfl := char?_eq_some_iff.mp hc
    obtain ⟨n, rest, rfl, hrest⟩ := ih hus
    exact ⟨n + 1, rest, rfl, hrest⟩
  | plus hc hrest =>
    obtain rfl := char?_eq_some_iff.mp hc
    cases sign with
    | plus => cases hus; exact ⟨0, _, rfl, hrest⟩
    | minus => cases hus
  | minus hc hrest =>
    obtain rfl := char?_eq_some_iff.mp hc
    cases sign with
    | plus => cases hus
    | minus => cases hus; exact ⟨0, _, rfl, hrest⟩
  | number => cases sign <;> cases hus

/-- A text whose first token is a number has a literal of that value behind spaces. -/
theorem Lexes.exists_literal {cs : List Char} {n : Int} {ts : List Token}
    (h : Lexes cs (.number n :: ts)) :
    ∃ k rest, ∃ l : Literal, cs = spaces k ++ l.digits ++ rest ∧ n = l.value ∧ Lexes rest ts := by
  generalize hus : Token.number n :: ts = us at h
  induction h with
  | nil => cases hus
  | space hc _ ih =>
    obtain rfl := char?_eq_some_iff.mp hc
    obtain ⟨k, rest, l, rfl, hn, hrest⟩ := ih hus
    exact ⟨k + 1, rest, l, rfl, hn, hrest⟩
  | plus => cases hus
  | minus => cases hus
  | @number run rest us hrun _ hrest =>
    cases hus
    refine ⟨0, rest, ⟨run, hrun⟩, rfl, ?_, hrest⟩
    exact congrArg Nat.cast (Literal.value_eq ⟨run, hrun⟩)

/-- A text whose tokens are a row is made of summands, and spaces at the end. -/
theorem exists_summands {cs : List Char} {steps : List (Sign × Int)} (h : Lexes cs (row steps)) :
    ∃ summands trail, cs = List.flatMap Summand.chars summands ++ spaces trail := by
  induction steps generalizing cs with
  | nil =>
    obtain ⟨trail, rfl⟩ := h.exists_spaces
    exact ⟨[], trail, rfl⟩
  | cons step steps ih =>
    obtain ⟨sign, n⟩ := step
    rw [row_cons] at h
    obtain ⟨before, rest, rfl, hrest⟩ := h.exists_sign
    obtain ⟨between, tail, l, rfl, -, htail⟩ := hrest.exists_literal
    obtain ⟨summands, trail, rfl⟩ := ih htail
    refine ⟨⟨before, sign, between, l⟩ :: summands, trail, ?_⟩
    rw [List.flatMap_cons, Summand.chars]
    simp

/-- A text whose tokens are a number and a row is the text of a summation. -/
theorem exists_summation {cs : List Char} {n : Int} {steps : List (Sign × Int)}
    (h : Lexes cs (.number n :: row steps)) : ∃ s : Summation, s.chars = cs := by
  obtain ⟨lead, rest, first, rfl, -, hrest⟩ := h.exists_literal
  obtain ⟨summands, trail, rfl⟩ := exists_summands hrest
  refine ⟨⟨lead, first, summands, trail⟩, ?_⟩
  rw [Summation.chars, List.append_assoc _ _ (spaces trail)]

/-! ## The texts that have a value -/

/-- **The texts that have a value are the texts of summations**, and whichever way a text is written
as a summation, its value is the sum that is written there. -/
theorem evaluate_summation :
    (∀ text : String, (evaluate text).succeeded = true ↔ ∃ s : Summation, s.text = text) ∧
      ∀ s : Summation, ∃ tokens, evaluate s.text = .value tokens s.value := by
  have hvalue (s : Summation) : ∃ tokens, evaluate s.text = .value tokens s.value := by
    refine ⟨.number s.first.value :: row (s.summands.map Summand.step),
      evaluate_eq_value_iff.mpr ⟨?_, ?_⟩⟩
    · rw [Summation.text, String.toList_ofList]
      exact lexes_summation s
    · rw [s.value_eq]
      exact evaluateTokens_row _ _
  refine ⟨fun text => ⟨fun h => ?_, ?_⟩, hvalue⟩
  · obtain ⟨tokens, total, heval⟩ := succeeded_iff.mp h
    obtain ⟨hlexes, hsum⟩ := evaluate_eq_value_iff.mp heval
    obtain ⟨n, steps, rfl, -⟩ := evaluateTokens_eq_ok_iff.mp hsum
    obtain ⟨s, hs⟩ := exists_summation hlexes
    refine ⟨s, ?_⟩
    rw [Summation.text, hs, String.ofList_toList]
  · rintro ⟨s, rfl⟩
    obtain ⟨tokens, htokens⟩ := hvalue s
    exact succeeded_iff.mpr ⟨tokens, s.value, htokens⟩

end LineSum
