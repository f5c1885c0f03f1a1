import LineSum.Expr.Evaluation
import Mathlib.Algebra.BigOperators.Group.List.Basic
import Mathlib.Algebra.Ring.Int.Defs

/-!
# The rules of summing

In a token sequence that has a value numbers and signs take turns, and a number comes first. The
first token out of turn, and after that the number of tokens, decide what becomes of a sequence:

* `evaluateTokens_eq_invalid_iff` : a token out of turn is reported, and it is the first one;
* `evaluateTokens_eq_end_iff` : without one, a sequence of even length ends too early;
* `evaluateTokens_eq_ok_iff` : without one, a sequence of odd length is a number and a row of signed
  numbers, and its value is their sum.
-/

namespace LineSum

/-! ## Tokens out of turn -/

/-- Whether a token is a number. -/
def Token.isNumber : Token → Bool
  | number _ => true
  | plus => false
  | minus => false

/-- The first token that is not of the kind that is due; after each token the other kind is due. -/
def misplaced (numberDue : Bool) : List Token → Option Token
  | [] => none
  | t :: ts => if t.isNumber = numberDue then misplaced (!numberDue) ts else some t

/-- Whether a number is due behind tokens that take turns. -/
def dueAfter (numberDue : Bool) (ts : List Token) : Bool :=
  if ts.length % 2 = 0 then numberDue else !numberDue

/-- What is due behind a token and more tokens. -/
theorem dueAfter_cons (numberDue : Bool) (t : Token) (ts : List Token) :
    dueAfter numberDue (t :: ts) = dueAfter (!numberDue) ts := by
  unfold dueAfter
  rw [List.length_cons]
  by_cases h : ts.length % 2 = 0
  · rw [if_pos h, if_neg (by omega)]
  · rw [if_neg h, if_pos (by omega), Bool.not_not]

/-- In a sequence of two parts, the second part matters if the first one is in turn. -/
theorem misplaced_append (numberDue : Bool) (s t : List Token) :
    misplaced numberDue (s ++ t) =
      (misplaced numberDue s).or (misplaced (dueAfter numberDue s) t) := by
  induction s generalizing numberDue with
  | nil => rfl
  | cons a s ih =>
    rw [List.cons_append, misplaced, misplaced, dueAfter_cons]
    by_cases h : a.isNumber = numberDue
    · rw [if_pos h, if_pos h, ih]
    · rw [if_neg h, if_neg h]
      rfl

/-- Only the kinds of the tokens count, and no token behind the first one out of turn. -/
theorem misplaced_isSome_of_kinds {s u : List Token} {numberDue : Bool}
    (hkinds : s.map Token.isNumber <+: u.map Token.isNumber)
    (h : (misplaced numberDue s).isSome = true) : (misplaced numberDue u).isSome = true := by
  induction s generalizing u numberDue with
  | nil => cases h
  | cons a s ih =>
    cases u with
    | nil => cases List.prefix_nil.mp hkinds
    | cons b u =>
      rw [List.map_cons, List.map_cons, List.cons_prefix_cons] at hkinds
      rw [misplaced] at h ⊢
      rw [← hkinds.1]
      by_cases ha : a.isNumber = numberDue
      · rw [if_pos ha] at h ⊢
        exact ih hkinds.2 h
      · rw [if_neg ha]
        rfl

/-! ## Signs -/

/-- The sign before a number. -/
inductive Sign where
  | plus
  | minus
  deriving DecidableEq, Repr

namespace Sign

/-- The token of a sign. -/
def token : Sign → Token
  | plus => .plus
  | minus => .minus

/-- What a number is multiplied by. -/
def factor : Sign → Int
  | plus => 1
  | minus => -1

end Sign

/-! ## What is due -/

/-- Where a number is due, the tokens end, or a number comes, or a sign comes instead. -/
theorem cases_of_numberDue {motive : List Token → Prop} (nil : motive [])
    (number : ∀ n rest, motive (.number n :: rest))
    (sign : ∀ (sign : Sign) rest, motive (sign.token :: rest)) : ∀ ts, motive ts
  | [] => nil
  | .number n :: rest => number n rest
  | .plus :: rest => sign .plus rest
  | .minus :: rest => sign .minus rest

/-- Where a sign is due, the tokens end, or a number comes instead, or the sign is the last token,
or a number comes behind it and a sign is due again, or another sign comes behind it. -/
theorem induction_of_signDue {motive : List Token → Prop} (nil : motive [])
    (number : ∀ n rest, motive (.number n :: rest)) (lone : ∀ sign : Sign, motive [sign.token])
    (pair : ∀ (sign : Sign) n rest, motive rest → motive (sign.token :: .number n :: rest))
    (signs : ∀ (sign sign' : Sign) rest, motive (sign.token :: sign'.token :: rest)) :
    ∀ ts, motive ts
  | [] => nil
  | .number n :: rest => number n rest
  | [.plus] => lone .plus
  | [.minus] => lone .minus
  | .plus :: .number n :: rest =>
    pair .plus n rest (induction_of_signDue nil number lone pair signs rest)
  | .minus :: .number n :: rest =>
    pair .minus n rest (induction_of_signDue nil number lone pair signs rest)
  | .plus :: .plus :: rest => signs .plus .plus rest
  | .plus :: .minus :: rest => signs .plus .minus rest
  | .minus :: .plus :: rest => signs .minus .plus rest
  | .minus :: .minus :: rest => signs .minus .minus rest

/-- A sign and a number behind it are in turn. -/
theorem misplaced_pair (sign : Sign) (n : Int) (ts : List Token) :
    misplaced false (sign.token :: .number n :: ts) = misplaced false ts := by
  cases sign <;> rfl

/-! ## Rows of signed numbers -/

/-- The tokens of signed numbers. -/
def row (steps : List (Sign × Int)) : List Token :=
  steps.flatMap fun step => [step.1.token, .number step.2]

/-- The sum of signed numbers. -/
def rowSum (steps : List (Sign × Int)) : Int :=
  (steps.map fun step => step.1.factor * step.2).sum

/-- The row that begins with a sign and a number. -/
theorem row_cons (sign : Sign) (n : Int) (steps : List (Sign × Int)) :
    row ((sign, n) :: steps) = sign.token :: .number n :: row steps := rfl

/-- The sum that begins with a signed number. -/
theorem rowSum_cons (sign : Sign) (n : Int) (steps : List (Sign × Int)) :
    rowSum ((sign, n) :: steps) = sign.factor * n + rowSum steps := rfl

/-- A sequence of even length in which signs and numbers take turns is a row. -/
theorem exists_row {ts : List Token} (hturn : misplaced false ts = none)
    (heven : ts.length % 2 = 0) : ∃ steps, ts = row steps := by
  induction ts using induction_of_signDue with
  | nil => exact ⟨[], rfl⟩
  | number n rest => cases hturn
  | lone sign => cases heven
  | pair sign n rest ih =>
    rw [misplaced_pair] at hturn
    rw [List.length_cons, List.length_cons] at heven
    obtain ⟨steps, rfl⟩ := ih hturn (by omega)
    exact ⟨(sign, n) :: steps, rfl⟩
  | signs sign sign' rest => cases sign <;> cases sign' <;> cases hturn

/-! ## Summing -/

namespace Reader

/-- A sign and the number behind it are added to the total. -/
theorem sumFrom_pair (total : Int) (position : Nat) (sign : Sign) (n : Int) (ts : List Token) :
    sumFrom total position (sign.token :: .number n :: ts) =
      sumFrom (total + sign.factor * n) (position + 2) ts := by
  cases sign with
  | plus => rw [Sign.token, sumFrom, Sign.factor, Int.one_mul]
  | minus => rw [Sign.token, sumFrom, Sign.factor, Int.neg_one_mul, Int.sub_eq_add_neg]

/-- A row adds its sum to the total. -/
theorem sumFrom_row (total : Int) (position : Nat) (steps : List (Sign × Int)) :
    sumFrom total position (row steps) =
      (.ok (total + rowSum steps), ⟨position + 2 * steps.length, []⟩) := by
  induction steps generalizing total position with
  | nil =>
    show (Except.ok total, _) = (Except.ok (total + 0), _)
    rw [Int.add_zero]
    rfl
  | cons step steps ih =>
    obtain ⟨sign, n⟩ := step
    rw [row_cons, rowSum_cons, List.length_cons, sumFrom_pair, ih, Int.add_assoc, Nat.mul_succ,
      Nat.add_assoc, Nat.add_comm 2]

/-- A token out of turn is reported, whatever comes behind it. -/
theorem sumFrom_of_misplaced {total : Int} {position : Nat} {ts : List Token} {t : Token}
    (h : misplaced false ts = some t) :
    (sumFrom total position ts).1 = .error (.invalidToken t) := by
  induction ts using induction_of_signDue generalizing total position with
  | nil => cases h
  | number n rest =>
    cases h
    rfl
  | lone sign => cases sign <;> cases h
  | pair sign n rest ih =>
    rw [misplaced_pair] at h
    rw [sumFrom_pair]
    exact ih h
  | signs sign sign' rest => cases sign <;> cases sign' <;> (cases h; rfl)

/-- Signs and numbers that take turns but end with a sign end too early. -/
theorem sumFrom_of_odd {total : Int} {position : Nat} {ts : List Token}
    (hturn : misplaced false ts = none) (hodd : ts.length % 2 = 1) :
    (sumFrom total position ts).1 = .error .unexpectedEnd := by
  induction ts using induction_of_signDue generalizing total position with
  | nil => cases hodd
  | number n rest => cases hturn
  | lone sign => cases sign <;> rfl
  | pair sign n rest ih =>
    rw [misplaced_pair] at hturn
    rw [List.length_cons, List.length_cons] at hodd
    rw [sumFrom_pair]
    exact ih hturn (by omega)
  | signs sign sign' rest => cases sign <;> cases sign' <;> cases hturn

end Reader

/-- A number is summed up with the signed numbers behind it. -/
theorem evaluateTokens_row (n : Int) (steps : List (Sign × Int)) :
    evaluateTokens (.number n :: row steps) = .ok (n + rowSum steps) := by
  show (Reader.sumFrom n 1 (row steps)).1 = _
  rw [Reader.sumFrom_row]

/-- The first token out of turn is reported, whatever comes behind it. -/
theorem evaluateTokens_of_misplaced {ts : List Token} {t : Token}
    (h : misplaced true ts = some t) : evaluateTokens ts = .error (.invalidToken t) := by
  match ts, h with
  | .number n :: rest, h => exact Reader.sumFrom_of_misplaced h
  | .plus :: rest, h => cases h; rfl
  | .minus :: rest, h => cases h; rfl

/-- Tokens that take turns but do not end with a number end too early. -/
theorem evaluateTokens_of_even {ts : List Token} (hturn : misplaced true ts = none)
    (heven : ts.length % 2 = 0) : evaluateTokens ts = .error .unexpectedEnd := by
  match ts, hturn, heven with
  | [], _, _ => rfl
  | .number n :: rest, hturn, heven =>
    have hturn' : misplaced false rest = none := hturn
    have hodd : rest.length % 2 = 1 := by
      rw [List.length_cons] at heven
      omega
    exact Reader.sumFrom_of_odd hturn' hodd

/-- Tokens that take turns and end with a number are a number and a row. -/
theorem exists_number_row {ts : List Token} (hturn : misplaced true ts = none)
    (hodd : ts.length % 2 = 1) : ∃ n steps, ts = .number n :: row steps := by
  match ts, hturn, hodd with
  | .number n :: rest, hturn, hodd =>
    obtain ⟨steps, rfl⟩ := @exists_row rest hturn (by
      rw [List.length_cons] at hodd
      omega)
    exact ⟨n, steps, rfl⟩

/-- **Every token sequence** has a first token out of turn, or ends too early, or is a number and a
row of signed numbers; and what becomes of it is said by this alone. -/
theorem evaluateTokens_cases (ts : List Token) :
    (∃ t, misplaced true ts = some t ∧ evaluateTokens ts = .error (.invalidToken t)) ∨
      ((misplaced true ts = none ∧ ts.length % 2 = 0) ∧
        evaluateTokens ts = .error .unexpectedEnd) ∨
      ∃ n steps, ts = .number n :: row steps ∧ evaluateTokens ts = .ok (n + rowSum steps) := by
  cases hturn : misplaced true ts with
  | some t => exact Or.inl ⟨t, rfl, evaluateTokens_of_misplaced hturn⟩
  | none =>
    rcases Nat.mod_two_eq_zero_or_one ts.length with heven | hodd
    · exact Or.inr (Or.inl ⟨⟨rfl, heven⟩, evaluateTokens_of_even hturn heven⟩)
    · obtain ⟨n, steps, rfl⟩ := exists_number_row hturn hodd
      exact Or.inr (Or.inr ⟨n, steps, rfl, evaluateTokens_row n steps⟩)

/-- A token sequence is reported for a token exactly when that is the first one out of turn. -/
theorem evaluateTokens_eq_invalid_iff {ts : List Token} {t : Token} :
    evaluateTokens ts = .error (.invalidToken t) ↔ misplaced true ts = some t := by
  refine ⟨fun h => ?_, evaluateTokens_of_misplaced⟩
  rcases evaluateTokens_cases ts with ⟨u, hturn, hu⟩ | ⟨-, hend⟩ | ⟨n, steps, -, hvalue⟩
  · have heq := hu.symm.trans h
    simp only [Except.error.injEq, ParseError.invalidToken.injEq] at heq
    rw [hturn, heq]
  · cases hend.symm.trans h
  · cases hvalue.symm.trans h

/-- A token sequence ends too early exactly when its tokens take turns and are even in number. -/
theorem evaluateTokens_eq_end_iff {ts : List Token} :
    evaluateTokens ts = .error .unexpectedEnd ↔
      misplaced true ts = none ∧ ts.length % 2 = 0 := by
  refine ⟨fun h => ?_, fun ⟨hturn, heven⟩ => evaluateTokens_of_even hturn heven⟩
  rcases evaluateTokens_cases ts with ⟨u, -, hu⟩ | ⟨hends, -⟩ | ⟨n, steps, -, hvalue⟩
  · cases hu.symm.trans h
  · exact hends
  · cases hvalue.symm.trans h

/-- A token sequence has a value exactly when it is a number and a row; the value is their sum. -/
theorem evaluateTokens_eq_ok_iff {ts : List Token} {total : Int} :
    evaluateTokens ts = .ok total ↔
      ∃ n steps, ts = .number n :: row steps ∧ total = n + rowSum steps := by
  constructor
  · intro h
    rcases evaluateTokens_cases ts with ⟨u, -, hu⟩ | ⟨-, hend⟩ | ⟨n, steps, hts, hvalue⟩
    · cases hu.symm.trans h
    · cases hend.symm.trans h
    · have heq := hvalue.symm.trans h
      rw [Except.ok.injEq] at heq
      exact ⟨n, steps, hts, heq.symm⟩
  · rintro ⟨n, steps, rfl, rfl⟩
    exact evaluateTokens_row n steps

end LineSum
