import LineSum.Decimal.Binary64
import LineSum.Text.Basic

/-!
# Reading numerals

Texts that stand for numbers, in several bases and in base sixty.
-/

namespace LineSum

/-! ## Numerals

The texts that denote numbers: decimal digits with a point and an exponent, and the digits of bases
that are powers of two.
-/

/-- Splits a sign off. -/
def splitSign : List Char → Bool × List Char
  | '-' :: rest => (true, rest)
  | '+' :: rest => (false, rest)
  | rest => (false, rest)

/-- The number that a text denotes: digits with at most one point among or before them, perhaps with
an exponent. -/
def decimal? (text : List Char) : Option Binary64 :=
  let (negative, body) := splitSign text
  let whole := body.takeWhile isDecimal
  let rest := body.drop whole.length
  let (fraction, rest, point) :=
    match rest with
    | '.' :: more =>
      let fraction := more.takeWhile isDecimal
      (fraction, more.drop fraction.length, true)
    | rest => ([], rest, false)
  let hasDigits := !whole.isEmpty || (point && !fraction.isEmpty)
  let digits := decimalValue (whole ++ fraction)
  let number (power : Int) : Binary64 := .ofDecimal negative digits (power - fraction.length)
  if !hasDigits then none
  else
    match rest with
    | [] => some (number 0)
    | e :: more =>
      let (negativePower, power) := splitSign more
      if (e = 'e' || e = 'E') && !power.isEmpty && power.all isDecimal then
        let p : Int := decimalValue power
        some (number (if negativePower then -p else p))
      else none

/-- Whether a character is a digit of a base, which is at most ten. -/
def isDigitBelow (base : Nat) (c : Char) : Bool :=
  isDecimal c && c.toNat < '0'.toNat + base

/-- The number that digits of a base denote. -/
def radixValue (base : Nat) (digits : List Char) : Nat :=
  digits.foldl (fun n c => n * base + hexValue [c]) 0

/-- The number nearest to what digits of a base denote, if there are any. -/
def radix? (negative : Bool) (base : Nat) (digits : List Char) : Option Binary64 :=
  if digits.isEmpty then none else some (.ofFraction negative (radixValue base digits) 1)

/-- The number that a text denotes where little is asked of it: blanks around it do not
matter, nothing stands for zero, and infinity has a name. Digits of another base have a mark
before them and no sign. -/
def looseNumber? (text : List Char) : Option Binary64 :=
  let body := trimBlank text
  let (negative, unsigned) := splitSign body
  if body.isEmpty then some (.zero false)
  else if unsigned = "Infinity".toList then some (.infinite negative)
  else
    match body with
    | '0' :: mark :: digits =>
      if mark = 'x' || mark = 'X' then
        if digits.all isHexDigit then radix? false 16 digits else none
      else if mark = 'o' || mark = 'O' then
        if digits.all (isDigitBelow 8) then radix? false 8 digits else none
      else if mark = 'b' || mark = 'B' then
        if digits.all (isDigitBelow 2) then radix? false 2 digits else none
      else decimal? body
    | _ => decimal? body

/-! ## Numbers of base sixty

Hours, minutes and seconds with colons between them are one number. Every step of the reckoning is
rounded to a binary64 value, in reading as in writing.
-/

namespace Binary64

/-- The exact size of a finite value as a fraction. -/
def size? : Binary64 → Option (Nat × Nat)
  | finite _ mantissa exponent => some (fraction mantissa exponent)
  | _ => none

/-- Sixty times a value, rounded, and then a second value added, rounded again.
Neither value is negative. -/
def sixtyTimesPlus (high low : Binary64) : Binary64 :=
  match high.size? with
  | none => high
  | some (num, den) =>
    match (ofFraction false (60 * num) den).size?, low.size? with
    | some (num, den), some (num', den') => ofFraction false (num * den' + num' * den) (den * den')
    | none, _ => infinite false
    | _, none => low

/-- The negative of a value. -/
def negated : Binary64 → Binary64
  | notANumber => notANumber
  | infinite negative => infinite (!negative)
  | finite negative mantissa exponent => finite (!negative) mantissa exponent

end Binary64

/-- The parts of a text between colons. -/
def splitColons : List Char → List (List Char)
  | [] => [[]]
  | c :: rest =>
    if c = ':' then [] :: splitColons rest
    else
      match splitColons rest with
      | [] => [[c]]
      | part :: parts => (c :: part) :: parts

/-- The number that the parts of a text between colons denote, after a sign;
underscores do not count. -/
def sexagesimalValue (text : List Char) : Binary64 :=
  let (negative, body) := splitSign text
  let parts := (splitColons (body.filter (· != '_'))).map fun part =>
    (decimal? part).getD .notANumber
  let value := parts.foldl Binary64.sixtyTimesPlus (.zero false)
  if negative then value.negated else value

/-- A fraction as a number with at least two characters. -/
def sexagesimalPart (num den : Nat) : List Char :=
  let text := (Binary64.ofFraction false num den).text.toList
  List.replicate (2 - text.length) '0' ++ text

/-- The value of a fraction after rounding, as a fraction. -/
def roundedFraction (num den : Nat) : Nat × Nat :=
  ((Binary64.ofFraction false num den).size?).getD (0, 1)

/-- Hours, minutes and seconds of a finite number. A long row of zeros at the end is dropped
together with the digits behind it: they come from rounding. -/
def sexagesimalText (negative : Bool) (num den : Nat) : List Char :=
  let seconds := num % (60 * den)
  let (minutesNum, minutesDen) := roundedFraction (num - seconds) (60 * den)
  let minutes := minutesNum % (60 * minutesDen)
  let parts :=
    if num < 60 * den then [sexagesimalPart 0 1, sexagesimalPart seconds den]
    else if minutesNum < 60 * minutesDen then
      [sexagesimalPart minutes minutesDen, sexagesimalPart seconds den]
    else
      let (hoursNum, hoursDen) := roundedFraction (minutesNum - minutes) (60 * minutesDen)
      [sexagesimalPart hoursNum hoursDen, sexagesimalPart minutes minutesDen,
        sexagesimalPart seconds den]
  (if negative && 0 < num then ['-'] else []) ++ dropNoise ([':'].intercalate parts)
where
  /-- Drops the first six zeros in a row behind which there are only digits, and these digits. -/
  dropNoise : List Char → List Char
    | [] => []
    | c :: rest =>
      if (c :: rest).take 6 = List.replicate 6 '0' && rest.all isDecimal then []
      else c :: dropNoise rest

end LineSum
