/-!
# Binary numbers and decimal text

Numbers of 64 bits, the shortest decimal text that is read back as such a number, and text with two
places.
-/

namespace LineSum

/-! ## Binary floating point

The numbers of a configuration file are kept as IEEE binary64 values. A finite value is a mantissa
times a power of two, in the one form in which the mantissa has 53 bits or the exponent is the least
one. All arithmetic is exact; rounding is to the nearest value, of two equally near ones to the one
with the even mantissa.
-/

/-- A binary64 value. -/
inductive Binary64 where
  | notANumber
  | infinite (negative : Bool)
  | finite (negative : Bool) (mantissa : Nat) (exponent : Int)
  deriving DecidableEq, Repr, Inhabited

/-- A power of two times a fraction, as a fraction. -/
def scaleFraction (num den : Nat) (exponent : Int) : Nat × Nat :=
  if exponent < 0 then (num, den * Nat.pow 2 exponent.natAbs)
  else (num * Nat.pow 2 exponent.natAbs, den)

/-- The integer nearest to a fraction, a half going to the even neighbour. -/
def roundHalfEven (num den : Nat) : Nat :=
  let q := num / den
  let r := num % den
  if 2 * r < den || (2 * r = den && q % 2 = 0) then q else q + 1

/-- The integer nearest to a fraction, a half going up. -/
def roundHalfUp (num den : Nat) : Nat :=
  (2 * num + den) / (2 * den)

namespace Binary64

/-- The least exponent of a finite value. -/
def leastExponent : Int := -1074

/-- The greatest exponent of a finite value. -/
def greatestExponent : Int := 971

/-- The zero of either sign. -/
def zero (negative : Bool) : Binary64 :=
  finite negative 0 leastExponent

/-- The exponent at which the fraction has a mantissa of 53 bits before rounding, or the least one.
The estimate from the lengths of both numbers is one too great or exact. -/
def fittingExponent (num den : Nat) : Int :=
  let estimate : Int := (num.log2 : Int) - den.log2 - 52
  let (n, d) := scaleFraction num den (-estimate)
  max leastExponent (if n < d * Nat.pow 2 52 then estimate - 1 else estimate)

/-- The value nearest to a fraction. -/
def ofFraction (negative : Bool) (num den : Nat) : Binary64 :=
  if num = 0 then
    zero negative
  else
    let exponent := fittingExponent num den
    let (n, d) := scaleFraction num den (-exponent)
    let mantissa := roundHalfEven n d
    let (mantissa, exponent) :=
      if mantissa = Nat.pow 2 53 then (Nat.pow 2 52, exponent + 1) else (mantissa, exponent)
    if greatestExponent < exponent then infinite negative
    else finite negative mantissa exponent

/-- The value nearest to `digits` times a power of ten. Powers far outside the range are not
computed: there every number is too great or rounds to zero. -/
def ofDecimal (negative : Bool) (digits : Nat) (power : Int) : Binary64 :=
  let size : Int := (toString digits).length
  if digits = 0 || power + size < -400 then zero negative
  else if 400 < power + size then infinite negative
  else if power < 0 then ofFraction negative digits (Nat.pow 10 power.natAbs)
  else ofFraction negative (digits * Nat.pow 10 power.natAbs) 1

/-- Comparison as numbers: the two zeros are equal, and what is not a number equals nothing. -/
def numEq : Binary64 → Binary64 → Bool
  | notANumber, _ => false
  | _, notANumber => false
  | finite a m e, finite b n f => m = n && e = f && (a = b || m = 0)
  | infinite a, infinite b => a = b
  | _, _ => false

end Binary64

/-! ## The shortest decimal text of a number

A number is written with the fewest digits that read back as the same number, and of those with the
digits nearest to it. Numbers from 10⁻⁶ up to, but not including, 10²¹ are written without an
exponent.
-/

/-- A decimal number: its digits as an integer, and the power of ten of the first digit plus one. -/
structure DecimalDigits where
  digits : Nat
  point : Int
  deriving DecidableEq, Repr

/-- Puts the decimal point into digits, or an exponent behind them. -/
def DecimalDigits.text (d : DecimalDigits) : String :=
  let digits := toString d.digits
  let count : Int := digits.length
  let zeros (n : Int) : String := String.ofList (List.replicate n.toNat '0')
  let cut (n : Int) : String × String :=
    (String.ofList (digits.toList.take n.toNat), String.ofList (digits.toList.drop n.toNat))
  if count ≤ d.point && d.point ≤ 21 then
    digits ++ zeros (d.point - count)
  else if 0 < d.point && d.point ≤ 21 then
    (cut d.point).1 ++ "." ++ (cut d.point).2
  else if -6 < d.point && d.point ≤ 0 then
    "0." ++ zeros (-d.point) ++ digits
  else
    let e := d.point - 1
    let exponent := "e" ++ (if e < 0 then "-" else "+") ++ toString e.natAbs
    if digits.length = 1 then digits ++ exponent
    else (cut 1).1 ++ "." ++ (cut 1).2 ++ exponent

namespace Binary64

/-- The fraction that a mantissa and an exponent stand for. -/
def fraction (mantissa : Nat) (exponent : Int) : Nat × Nat :=
  scaleFraction mantissa 1 exponent

/-- The `point` of a positive fraction: it is below the power of ten with that exponent, and not
below the power before it. The search goes up or down from zero. -/
def decimalPoint (num den : Nat) : Int :=
  if den ≤ num then
    (toString (num / den)).length
  else
    -- the fraction times ten to the number of leading zeros is at least one tenth
    let zeros := (toString ((den - 1) / num)).length
    if Nat.pow 10 zeros * num < den then -(zeros : Int) else 1 - (zeros : Int)

/-- The multiples of a power of ten next to a fraction: the one below or equal, as an integer. -/
def decimalFloor (num den : Nat) (power : Int) : Nat :=
  if power < 0 then num * Nat.pow 10 power.natAbs / den else num / (den * Nat.pow 10 power.natAbs)

/-- Of two neighbours on a decimal grid the one nearer to a fraction comes first; of two equally
near ones the even one does. -/
def nearestFirst (num den : Nat) (power : Int) (below : Nat) : List Nat :=
  let (n, d) :=
    if power < 0 then (num * Nat.pow 10 power.natAbs, den) else (num, den * Nat.pow 10 power.natAbs)
  if roundHalfEven n d = below then [below, below + 1] else [below + 1, below]

/-- Tries grids of more and more digits until one holds a number that reads back. -/
def searchDigits (mantissa : Nat) (exponent point : Int) : Nat → Nat → DecimalDigits
  | 0, _ => ⟨mantissa, point⟩
  | fuel + 1, count =>
    let (num, den) := fraction mantissa exponent
    let power := point - count
    let readsBack (n : Nat) : Bool := ofDecimal false n power = finite false mantissa exponent
    match (nearestFirst num den power (decimalFloor num den power)).find? readsBack with
    | some n => if n = Nat.pow 10 count then ⟨1, point + 1⟩ else ⟨n, point⟩
    | none => searchDigits mantissa exponent point fuel (count + 1)

/-- The fewest digits that read back as the positive number `mantissa * 2 ^ exponent`; seventeen
are always enough. -/
def shortestDigits (mantissa : Nat) (exponent : Int) : DecimalDigits :=
  let (num, den) := fraction mantissa exponent
  searchDigits mantissa exponent (decimalPoint num den) 17 1

/-- The text of a number; the sign of a zero is not shown. -/
def text : Binary64 → String
  | notANumber => "NaN"
  | infinite negative => if negative then "-Infinity" else "Infinity"
  | finite negative mantissa exponent =>
    if mantissa = 0 then "0"
    else (if negative then "-" else "") ++ (shortestDigits mantissa exponent).text

end Binary64

/-! ## Decimal text with two places

Seconds are written with two places. What is rounded is the binary value itself, not the quotient
that it approximates, and a half goes away from zero.
-/

/-- Hundredths as decimal text. -/
def hundredthsText (n : Nat) : String :=
  let rest := toString (n % 100)
  toString (n / 100) ++ "." ++ (if n % 100 < 10 then "0" ++ rest else rest)

/-- A number of milliseconds as seconds with two places. A negative number keeps its sign even
where only zeros are left. -/
def secondsText (milliseconds : Int) : String :=
  match Binary64.ofFraction (milliseconds < 0) milliseconds.natAbs 1000 with
  | .finite negative mantissa exponent =>
    let (num, den) := scaleFraction mantissa 1 exponent
    (if negative then "-" else "") ++ hundredthsText (roundHalfUp (100 * num) den)
  | _ => "Infinity"

end LineSum
