/-!
# Text in 16-bit units

Offsets into configuration files and the order of file names count in UTF-16: a character beyond the
first plane takes two units, every other one takes one.
-/

namespace LineSum

/-- The number of units of a character. -/
def unitSize (c : Char) : Nat :=
  if c.toNat < 0x10000 then 1 else 2

/-- Sizes are added up. -/
def totalSize (sizes : List Nat) : Nat :=
  sizes.foldr (· + ·) 0

/-- The number of units of a text. -/
def unitLength (cs : List Char) : Nat :=
  totalSize (cs.map unitSize)

/-- The units of a character. -/
def charUnits (c : Char) : List Nat :=
  let n := c.toNat
  if n < 0x10000 then [n] else [0xD800 + (n - 0x10000) / 0x400, 0xDC00 + (n - 0x10000) % 0x400]

/-- The units of a text. -/
def units (cs : List Char) : List Nat :=
  cs.flatMap charUnits

/-- The longest beginning of a text that fits into the given number of units. -/
def takeUnits : Nat → List Char → List Char
  | _, [] => []
  | count, c :: rest =>
    if unitSize c ≤ count then c :: takeUnits (count - unitSize c) rest else []

/-- What is left of a text behind the given number of units. A character that is
cut into is left out. -/
def dropUnits : Nat → List Char → List Char
  | _, [] => []
  | count, c :: rest => if count = 0 then c :: rest else dropUnits (count - unitSize c) rest

/-- The text of a sequence of code points and units: two halves that belong together make one
character. A half that stands alone is no character, so U+FFFD stands in its place; a text in units
could keep it. -/
def charsOfCodes : List Nat → List Char
  | [] => []
  | [code] => [charOfCode code]
  | high :: low :: rest =>
    if 0xD800 ≤ high && high < 0xDC00 && 0xDC00 ≤ low && low < 0xE000 then
      Char.ofNat (0x10000 + (high - 0xD800) * 0x400 + (low - 0xDC00)) :: charsOfCodes rest
    else charOfCode high :: charsOfCodes (low :: rest)
where
  /-- The character of a code point. -/
  charOfCode (code : Nat) : Char :=
    if 0xD800 ≤ code && code < 0xE000 then '\ufffd' else Char.ofNat code

/-- The order of texts by their units. -/
def unitsLe (a b : String) : Bool :=
  !decide (units b.toList < units a.toList)

/-! ## Code points

A text in units can hold half of a pair without the other half. It is made of code points, which are
the numbers of characters and of such halves.
-/

/-- The number of a character, or of half a pair that stands alone. -/
structure CodePoint where
  code : Nat
  lt : code < 0x110000
  deriving DecidableEq, Repr

namespace CodePoint

/-- The character with this number, if it is one. -/
def char? (p : CodePoint) : Option Char :=
  if p.code.isValidChar then some (Char.ofNat p.code) else none

/-- The numbers of characters are numbers of code points. -/
theorem toNat_lt (c : Char) : c.toNat < 0x110000 := by
  have h := c.valid
  unfold UInt32.isValidChar Nat.isValidChar at h
  change c.val.toNat < 0x110000
  omega

/-- The code point of a character. -/
def ofChar (c : Char) : CodePoint :=
  ⟨c.toNat, toNat_lt c⟩

/-- A unit that stands alone. -/
def ofUnit (unit : UInt16) : CodePoint :=
  ⟨unit.toNat, by have := unit.toNat_lt; omega⟩

/-- The code point of two halves, each of which gives ten bits. -/
def ofPair (high low : UInt16) : CodePoint :=
  ⟨0x10000 + high.toNat % 0x400 * 0x400 + low.toNat % 0x400, by omega⟩

end CodePoint

/-- Whether a unit is the first half of a pair. -/
def isHighHalf (unit : UInt16) : Bool :=
  0xD800 ≤ unit && unit < 0xDC00

/-- Whether a unit is the second half of a pair. -/
def isLowHalf (unit : UInt16) : Bool :=
  0xDC00 ≤ unit && unit < 0xE000

/-- The code points of a text in units. A first half with a second one behind it makes one code
point, and every other unit makes one by itself. -/
def codePoints : List UInt16 → List CodePoint
  | [] => []
  | [unit] => [.ofUnit unit]
  | unit :: next :: rest =>
    if isHighHalf unit && isLowHalf next then .ofPair unit next :: codePoints rest
    else .ofUnit unit :: codePoints (next :: rest)

/-- A text of characters in units. -/
def textUnits (text : String) : List UInt16 :=
  (units text.toList).map UInt16.ofNat

end LineSum
