import LineSum.Text.Units

/-!
# Tokens and how they are read

An expression is a row of numbers joined by plus and minus signs. Its tokens are read from its
characters one after the other.
-/

namespace LineSum

/-! ## Tokens of an expression

Tokens are numbers and the two signs. A row of them has a text in which it is traced.
-/

/-- A token is a number or one of the two operators. -/
inductive Token where
  | number (value : Int)
  | plus
  | minus
  deriving DecidableEq, Repr, Inhabited

namespace Token

/-- The name under which a token is shown to people. -/
def text : Token → String
  | number value => s!"Number({value})"
  | plus => "Plus"
  | minus => "Subtract"

/-- A token sequence is shown between brackets, its tokens parted by a comma and a space. -/
def rowText (tokens : List Token) : String :=
  "[" ++ ", ".intercalate (tokens.map text) ++ "]"

end Token

/-! ## Reading tokens from text

A `Cursor` stands between the characters of an expression. `Cursor.scan` reads the tokens from there
to the end, or stops on the first character that no token contains. Positions count characters. A
text of characters is read in the same way as one of code points, among which there may be halves of
characters.
-/

/-- What a text is made of: things each of which may be a character. -/
class Legible (α : Type) where
  /-- The character, if it is one. -/
  char? : α → Option Char

instance : Legible Char := ⟨some⟩

instance : Legible CodePoint := ⟨CodePoint.char?⟩

export Legible (char?)

/-- A character outside the digits, the two signs and the space, with its place in the text. -/
structure InvalidCharacter (α : Type) where
  character : α
  position : Nat
  deriving DecidableEq, Repr

namespace InvalidCharacter

/-- The sentence that reports what stands at a position. -/
def sentence (position : Int) (found : String) : String :=
  s!"Input contained an invalid character at {position}: '" ++ found ++ "'"

/-- The sentence that reports the character. -/
def message (e : InvalidCharacter Char) : String :=
  sentence e.position e.character.toString

end InvalidCharacter

/-- A place in a text: how many characters have been passed and which ones are still ahead. -/
structure Cursor (α : Type := Char) where
  position : Nat
  ahead : List α
  deriving DecidableEq, Repr

/-- Moving past the end of the text is a mistake of the caller, not of the text. -/
inductive CursorMisuse where
  | pastEnd
  deriving DecidableEq, Repr

/-- The sentence that reports the mistake. -/
def CursorMisuse.message : CursorMisuse → String
  | pastEnd => "Cannot advance past end of input"

variable {α : Type} [Legible α]

/-- The ASCII digits are the only digits of an expression. -/
def isDigit (c : α) : Bool :=
  (char? c).any fun d => '0' ≤ d && d ≤ '9'

/-- The number that one digit stands for. -/
def digitValue (c : α) : Nat :=
  ((char? c).getD '0').toNat - '0'.toNat

/-- A run of digits is read in base ten; leading zeros are allowed and the empty run is zero. -/
def digitsValue (digits : List α) : Nat :=
  digits.foldl (fun value c => value * 10 + digitValue c) 0

namespace Cursor

/-- The cursor before the first character of a text. -/
def ofText (text : String) : Cursor Char :=
  ⟨0, text.toList⟩

/-- The cursor before the first code point of a text in 16-bit units. -/
def ofUnits (text : List UInt16) : Cursor CodePoint :=
  ⟨0, codePoints text⟩

/-- The next character, if the cursor is not at the end. -/
def peek (c : Cursor α) : Option α :=
  c.ahead.head?

/-- Moves past one character. -/
def advance (c : Cursor α) : Except CursorMisuse (Cursor α) :=
  match c.ahead with
  | [] => .error .pastEnd
  | _ :: rest => .ok ⟨c.position + 1, rest⟩

/-- Moves past as many characters as there are up to the first one that fails the test. -/
def skipWhile (c : Cursor α) (test : α → Bool) : Cursor α :=
  ⟨c.position + (c.ahead.takeWhile test).length, c.ahead.dropWhile test⟩

/-- Reads the longest run of digits ahead; where there is none the number is zero. -/
def takeNumber (c : Cursor α) : Nat × Cursor α :=
  (digitsValue (c.ahead.takeWhile isDigit), c.skipWhile isDigit)

/-- Dropping a prefix leaves at most what was there. -/
theorem length_dropWhile_le {α : Type} (test : α → Bool) (cs : List α) :
    (cs.dropWhile test).length ≤ cs.length :=
  (List.dropWhile_suffix test).length_le

/-- Reads the tokens of the characters `ahead`, the first of which stands at `position`, and tells
where the reading ended: at the end of the text or on the character that it refuses. -/
def scanFrom (position : Nat) (ahead : List α) :
    Except (InvalidCharacter α) (List Token) × Cursor α :=
  match ahead with
  | [] => (.ok [], ⟨position, []⟩)
  | c :: rest =>
    if isDigit c then
      let run := rest.takeWhile isDigit
      let (result, stop) := scanFrom (position + 1 + run.length) (rest.dropWhile isDigit)
      (result.map (.number (digitsValue (c :: run)) :: ·), stop)
    else if char? c = some '+' then
      let (result, stop) := scanFrom (position + 1) rest
      (result.map (.plus :: ·), stop)
    else if char? c = some '-' then
      let (result, stop) := scanFrom (position + 1) rest
      (result.map (.minus :: ·), stop)
    else if char? c = some ' ' then
      scanFrom (position + 1) rest
    else
      (.error ⟨c, position⟩, ⟨position, ahead⟩)
termination_by ahead.length
decreasing_by
  · have := length_dropWhile_le isDigit rest
    simp only [List.length_cons]
    omega
  all_goals simp

/-- Reads all tokens from the cursor on. -/
def scan (c : Cursor α) : Except (InvalidCharacter α) (List Token) × Cursor α :=
  scanFrom c.position c.ahead

end Cursor

/-- The tokens of a text. -/
def scan (text : String) : Except (InvalidCharacter Char) (List Token) :=
  (Cursor.ofText text).scan.1

/-- The tokens of a text in 16-bit units. -/
def scanUnits (text : List UInt16) : Except (InvalidCharacter CodePoint) (List Token) :=
  (Cursor.ofUnits text).scan.1

end LineSum
