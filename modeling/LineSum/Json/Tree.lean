import LineSum.Text.Basic
import LineSum.Text.Units

/-!
# JSON

Values of JSON, how they are written on one line and how they are read.
-/

namespace LineSum

/-! ## JSON text

A JSON value is printed on one line without spaces. In strings the quote, the backslash and the
control characters are escaped and everything else stands for itself. Reading accepts all of JSON.
-/

/-- A JSON value. A number is an integer times a power of ten. -/
inductive JsonTree where
  | null
  | bool (value : Bool)
  | number (coefficient : Int) (power : Int)
  | string (text : String)
  | list (items : List JsonTree)
  | object (entries : List (String × JsonTree))
  deriving Repr, Inhabited

namespace JsonTree

/-- An integer. -/
def int (n : Int) : JsonTree := number n 0

/-- How a character is written inside a string. -/
def escapeChar (c : Char) : List Char :=
  if c = '\x22' then ['\\', '\x22']
  else if c = '\\' then ['\\', '\\']
  else if c = '\x08' then ['\\', 'b']
  else if c = '\x0c' then ['\\', 'f']
  else if c = '\n' then ['\\', 'n']
  else if c = '\r' then ['\\', 'r']
  else if c = '\t' then ['\\', 't']
  else if c.toNat < 0x20 then
    ['\\', 'u', '0', '0', hexDigit (c.toNat / 16), hexDigit (c.toNat % 16)]
  else [c]

/-- A string between quotes. -/
def quote (text : String) : String :=
  String.ofList ('\x22' :: text.toList.flatMap escapeChar ++ ['\x22'])

mutual

/-- The text of a value. -/
def print : JsonTree → String
  | null => "null"
  | bool true => "true"
  | bool false => "false"
  | number coefficient power =>
    toString coefficient ++ (if power = 0 then "" else "e" ++ toString power)
  | string text => quote text
  | list items => "[" ++ ",".intercalate (printItems items) ++ "]"
  | object entries => "\x7b" ++ ",".intercalate (printEntries entries) ++ "\x7d"

/-- The texts of the items of a list. -/
def printItems : List JsonTree → List String
  | [] => []
  | item :: rest => print item :: printItems rest

/-- The texts of the entries of an object. -/
def printEntries : List (String × JsonTree) → List String
  | [] => []
  | (key, value) :: rest => (quote key ++ ":" ++ print value) :: printEntries rest

end

/-- The value that an object has under a key; of several the last one counts. -/
def get? (key : String) : JsonTree → Option JsonTree
  | object entries => (entries.reverse.find? (·.1 = key)).map (·.2)
  | _ => none

/-- The text, if the value is a string. -/
def string? : JsonTree → Option String
  | string text => some text
  | _ => none

end JsonTree

/-! ## Reading JSON text

A text is read as the value that it writes, with any white space between its parts. Everything that
is printed can be read.
-/

namespace JsonTree

/-- Whether a character may stand between the parts of a value. -/
def isGap (c : Char) : Bool :=
  c = ' ' || c = '\t' || c = '\n' || c = '\r'

/-- The text behind white space. -/
def skipGaps (cs : List Char) : List Char := cs.dropWhile isGap

/-- The character that a letter behind a backslash stands for. -/
def unescapeChar? (c : Char) : Option Char :=
  match c with
  | '\x22' => some '\x22'
  | '\\' => some '\\'
  | '/' => some '/'
  | 'b' => some '\x08'
  | 'f' => some '\x0c'
  | 'n' => some '\n'
  | 'r' => some '\r'
  | 't' => some '\t'
  | _ => none

/-- Reads a string behind its opening quote: its codes, and what follows it. -/
def readString : List Char → Option (List Nat × List Char)
  | [] => none
  | '\x22' :: rest => some ([], rest)
  | '\\' :: 'u' :: a :: b :: c :: d :: rest =>
    if [a, b, c, d].all isHexDigit then
      (readString rest).map fun (codes, rest) => (hexValue [a, b, c, d] :: codes, rest)
    else none
  | '\\' :: c :: rest =>
    match unescapeChar? c with
    | some e => (readString rest).map fun (codes, rest) => (e.toNat :: codes, rest)
    | none => none
  | c :: rest =>
    if c.toNat < 0x20 || c = '\\' then none
    else (readString rest).map fun (codes, rest) => (c.toNat :: codes, rest)

/-- Reads the exponent of a number, which is zero where there is none. -/
def readExponent (cs : List Char) : Option (Int × List Char) :=
  match cs with
  | e :: rest =>
    if e = 'e' || e = 'E' then
      let (negative, rest) : Bool × List Char :=
        match rest with
        | '-' :: rest => (true, rest)
        | '+' :: rest => (false, rest)
        | rest => (false, rest)
      let digits := rest.takeWhile isDecimal
      if digits.isEmpty then none
      else
        let power : Int := decimalValue digits
        some (if negative then -power else power, rest.drop digits.length)
    else some (0, cs)
  | [] => some (0, cs)

/-- Reads the digits of a number and its exponent. -/
def readNumber (negative : Bool) (cs : List Char) : Option (JsonTree × List Char) :=
  let whole := cs.takeWhile isDecimal
  if whole.isEmpty || (whole.head? = some '0' && whole.length != 1) then none
  else
    let rest := cs.drop whole.length
    let (fraction, rest, complete) : List Char × List Char × Bool :=
      match rest with
      | '.' :: rest =>
        let fraction := rest.takeWhile isDecimal
        (fraction, rest.drop fraction.length, !fraction.isEmpty)
      | rest => ([], rest, true)
    if complete then
      (readExponent rest).map fun (power, rest) =>
        let digits : Int := decimalValue (whole ++ fraction)
        (number (if negative then -digits else digits) (power - fraction.length), rest)
    else none

mutual

/-- Reads a value: it, and what follows it. Each step takes at least one character, so that as many
steps as there are characters are enough. -/
def readValue : Nat → List Char → Option (JsonTree × List Char)
  | 0, _ => none
  | steps + 1, cs =>
    match skipGaps cs with
    | '\x7b' :: rest =>
      match skipGaps rest with
      | '\x7d' :: rest => some (object [], rest)
      | rest => (readEntries steps rest).map fun (entries, rest) => (object entries, rest)
    | '[' :: rest =>
      match skipGaps rest with
      | ']' :: rest => some (list [], rest)
      | rest => (readItems steps rest).map fun (items, rest) => (list items, rest)
    | '\x22' :: rest =>
      (readString rest).map fun (codes, rest) => (string (String.ofList (charsOfCodes codes)), rest)
    | 't' :: 'r' :: 'u' :: 'e' :: rest => some (bool true, rest)
    | 'f' :: 'a' :: 'l' :: 's' :: 'e' :: rest => some (bool false, rest)
    | 'n' :: 'u' :: 'l' :: 'l' :: rest => some (null, rest)
    | '-' :: rest => readNumber true rest
    | rest => readNumber false rest

/-- Reads the items of a list that is not empty, up to its end. -/
def readItems : Nat → List Char → Option (List JsonTree × List Char)
  | 0, _ => none
  | steps + 1, cs =>
    match readValue steps cs with
    | none => none
    | some (item, rest) =>
      match skipGaps rest with
      | ',' :: rest => (readItems steps rest).map fun (items, rest) => (item :: items, rest)
      | ']' :: rest => some ([item], rest)
      | _ => none

/-- Reads the entries of an object that is not empty, up to its end. -/
def readEntries : Nat → List Char → Option (List (String × JsonTree) × List Char)
  | 0, _ => none
  | steps + 1, cs =>
    match skipGaps cs with
    | '\x22' :: rest =>
      match readString rest with
      | none => none
      | some (codes, rest) =>
        let key := String.ofList (charsOfCodes codes)
        match skipGaps rest with
        | ':' :: rest =>
          match readValue steps rest with
          | none => none
          | some (value, rest) =>
            match skipGaps rest with
            | ',' :: rest =>
              (readEntries steps rest).map fun (entries, rest) => ((key, value) :: entries, rest)
            | '\x7d' :: rest => some ([(key, value)], rest)
            | _ => none
        | _ => none
    | _ => none

end

/-- The value that a whole text writes. -/
def ofText? (text : String) : Option JsonTree :=
  let cs := text.toList
  match readValue (cs.length + 1) cs with
  | some (value, rest) => if (skipGaps rest).isEmpty then some value else none
  | none => none

end JsonTree

end LineSum
