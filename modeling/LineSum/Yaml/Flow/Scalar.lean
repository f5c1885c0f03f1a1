import LineSum.Json.Tree
import LineSum.Text.Utf8
import LineSum.Yaml.Node
import LineSum.Yaml.Scalar.Inline
import LineSum.Yaml.Scalar.Reading

/-!
# Scalars on one line

How scalars are written where a collection is the key of a map.
-/

namespace LineSum.Yaml

/-! ## Numbers between brackets

A number is written in the form in which it was read. Where a tag asks for a number that the text is
not, the text shows at least whether it could be one.
-/

/-- Adds zeros to a decimal text until it has so many digits behind the point. -/
def padPlaces (places : Nat) (text : List Char) : List Char :=
  if places = 0 || text.contains 'e' then text
  else
    let text := if text.contains '.' then text else text ++ ['.']
    let fraction := (text.dropWhile (· != '.')).drop 1
    text ++ List.replicate (places - fraction.length) '0'

/-- A number in decimal digits. -/
def decimalText (places : Nat) : Binary64 → List Char
  | .notANumber => ".nan".toList
  | .infinite negative => (if negative then "-.inf" else ".inf").toList
  | .finite negative mantissa exponent =>
    padPlaces places <|
      if negative && mantissa = 0 then "-0".toList
      else (Binary64.finite negative mantissa exponent).text.toList

/-- A number with one digit before the point and an exponent. -/
def exponentText (negative : Bool) (mantissa : Nat) (exponent : Int) : List Char :=
  let d : DecimalDigits :=
    if mantissa = 0 then ⟨0, 1⟩ else Binary64.shortestDigits mantissa exponent
  let power := d.point - 1
  let sign := if power < 0 then "-" else "+"
  let body :=
    match (toString d.digits).toList with
    | [] => []
    | [c] => [c]
    | c :: rest => c :: '.' :: rest
  (if negative && mantissa != 0 then ['-'] else []) ++ body ++
    s!"e{sign}{power.natAbs}".toList

/-- The digits of an integer in a base of `2 ^ bits`. Of a number beyond 2⁵³ the digits at the end
that hold none of its leading bits are written as zeros. -/
def radixDigits (bits mantissa : Nat) (exponent : Int) : List Char :=
  let zeros := (exponent.toNat + bits - 1) / bits
  let value := mantissa * Nat.pow 2 exponent.toNat / Nat.pow 2 (-exponent).toNat
  Nat.toDigits (Nat.pow 2 bits) (value / Nat.pow 2 (bits * zeros)) ++ List.replicate zeros '0'

/-- Whether a finite number is an integer. -/
def isWhole (mantissa : Nat) (exponent : Int) : Bool :=
  mantissa % Nat.pow 2 (-exponent).toNat = 0

/-- What stands before the digits of a number in another base, and how many bits a digit has. -/
def radixMark? (version : Version) : NumberForm → Option (String × Nat)
  | .binary => some ("0b", 1)
  | .octal => some (if version = .older then "0" else "0o", 3)
  | .hex => some ("0x", 4)
  | _ => none

/-- A number in the form in which it was read. -/
def numberText (version : Version) (form : NumberForm) (places : Nat) (value : Binary64) :
    List Char :=
  match value with
  | .finite negative mantissa exponent =>
    match form, radixMark? version form with
    | .exponent, _ => exponentText negative mantissa exponent
    | .sexagesimal, _ =>
      let (num, den) := Binary64.fraction mantissa exponent
      sexagesimalText negative num den
    | _, some (mark, bits) =>
      let isNegative := negative && mantissa != 0
      if isWhole mantissa exponent && !(isNegative && version = .core) then
        (if isNegative then ['-'] else []) ++ mark.toList ++ radixDigits bits mantissa exponent
      else decimalText 0 value
    | _, none => decimalText places value
  | _ => decimalText 0 value

/-- A text where a number should stand: quoted if it could be one, otherwise as none. -/
def unreadNumber (text : String) : List Char :=
  match looseNumber? text.toList with
  | some (.infinite negative) => decimalText 0 (.infinite negative)
  | some .notANumber | none => decimalText 0 .notANumber
  | some (.finite _ _ _) => (JsonTree.quote text).toList

/-! ## Folding long lines

A text between brackets that does not fit on a line is folded: a line end takes the place of a
single space, or, in double quotes, stands behind a backslash anywhere. Lengths count 16-bit units.
-/

/-- The width of a line. -/
def lineWidth : Nat := 80

/-- The least width that is left to a text, whatever its indentation. -/
def leastWidth : Nat := 20

/-- The unit of a character of the basic plane. -/
def unitOf (c : Char) : Nat := c.toNat

/-- Whether a unit is a space, a tab or a line end. -/
def isGapUnit (u : Nat) : Bool :=
  u = unitOf ' ' || u = unitOf '\n' || u = unitOf '\t'

/-- The state of folding: where a line has to end, the last space on it at which it could be folded,
the unit before, the places of the folds so far, those of them that need a backslash, and where the
last escape sequence started and ended. -/
structure FoldState where
  limit : Nat
  split : Option Nat
  before : Option Nat
  folds : List Nat
  escaped : List Nat
  escape : Option (Nat × Nat)

namespace FoldState

/-- Folds at a place, behind which the next line may take so many units. -/
def foldAt (s : FoldState) (step place : Nat) : FoldState :=
  { s with folds := s.folds ++ [place], limit := place + step, split := none }

/-- Notes a single space between words. -/
def noteSpace (s : FoldState) (unit : Nat) (i : Nat) (following : Option Nat) : FoldState :=
  if unit = unitOf ' ' && s.before.any (!isGapUnit ·) && following.any (!isGapUnit ·) then
    { s with split := some i }
  else s

/-- Goes on behind a unit. -/
def pass (s : FoldState) (unit : Option Nat) : FoldState :=
  { s with before := unit }

end FoldState

/-- How many units an escape sequence has behind its backslash, which is followed by a letter. -/
def escapeLength (letter : Option Nat) : Nat :=
  if letter = some (unitOf 'x') then 3
  else if letter = some (unitOf 'u') then 5
  else if letter = some (unitOf 'U') then 9
  else 1

/-- The first place from the given one on before which there is no white space, `before` being the
unit before the given place. -/
def passBlanks (text : Array Nat) (i : Nat) (before : Option Nat) : Nat :=
  if h : i < text.size then
    if before = some (unitOf ' ') || before = some (unitOf '\t') then
      passBlanks text (i + 1) (some text[i])
    else i
  else if before = some (unitOf ' ') || before = some (unitOf '\t') then i + 1
  else i
termination_by text.size - i

/-- Where to break a line in double quotes: before the last two units, or before the escape sequence
that reaches into them. -/
def quotedBreak (i : Nat) (escape : Option (Nat × Nat)) : Nat :=
  match escape with
  | none => i - 2
  | some (first, last) => if last + 1 < i then i - 2 else first - 1

/-- Finds the places of the folds from a place on. There are none if the lines are too narrow for
their escape sequences. -/
def findFolds (quoted : Bool) (text : Array Nat) (indent step i : Nat) (s : FoldState) :
    Option FoldState :=
  if h : i < text.size then
    let unit := text[i]
    let skip := if quoted && unit = unitOf '\\' then escapeLength text[i + 1]? else 0
    let s := if 0 < skip then { s with escape := some (i, i + skip) } else s
    let s := s.noteSpace unit i text[i + 1]?
    if unit = unitOf '\n' then
      findFolds quoted text indent step (i + skip + 1)
        { s.pass (some unit) with limit := i + indent + step, split := none }
    else if i + skip < s.limit then
      findFolds quoted text indent step (i + skip + 1) (s.pass (some unit))
    else
      match s.split, quoted with
      | some place, _ =>
        findFolds quoted text indent step (i + skip + 1) ((s.foldAt step place).pass (some unit))
      | none, false => findFolds quoted text indent step (i + skip + 1) (s.pass (some unit))
      | none, true =>
        let isBlank (u : Nat) : Bool := u = unitOf ' ' || u = unitOf '\t'
        let stop := if s.before.any isBlank then passBlanks text (i + skip + 1) (some unit)
          else i + skip
        let unit := if stop = i + skip then some unit else text[stop]?
        let place := quotedBreak stop s.escape
        if s.escaped.contains place then none
        else
          findFolds quoted text indent step (max stop i + 1)
            { (s.foldAt step place).pass unit with escaped := place :: s.escaped }
  else some s
termination_by text.size - i
decreasing_by all_goals omega

/-- The units of a text between two places. -/
def unitSlice (text : Array Nat) (first last : Nat) : List Nat :=
  (text.toList.take last).drop first

/-- Puts line ends in the places of the folds. A fold at the beginning takes no unit away; in double
quotes a fold that is not at a space keeps its unit, with a backslash behind it. -/
def joinFolds (text : Array Nat) (indent : Nat) (escaped : List Nat) : List Nat → List Nat
  | [] => []
  | place :: rest =>
    let stop := rest.headD text.size
    let margin := unitOf '\n' :: List.replicate indent (unitOf ' ')
    let line :=
      if place = 0 then margin ++ unitSlice text 0 stop
      else
        (if escaped.contains place then unitSlice text place (place + 1) ++ [unitOf '\\']
         else []) ++
          margin ++ unitSlice text (place + 1) stop
    line ++ joinFolds text indent escaped rest

/-- Folds a text the lines of which are indented, except for the first one: before it stand as many
units as `lead` says, or the indentation. -/
def foldText (quoted : Bool) (indent : Nat) (lead : Option Nat) (text : List Char) : List Char :=
  let step := max (1 + leastWidth) (1 + lineWidth - indent)
  let codes := (units text).toArray
  if codes.size ≤ step then text
  else
    let tooFar := lead.any fun n => lineWidth - leastWidth < n
    let limit :=
      match lead with
      | some n => if tooFar then lineWidth - indent else lineWidth - n
      | none => lineWidth - indent
    match findFolds quoted codes indent step 0
        ⟨limit, none, none, if tooFar then [0] else [], [], none⟩ with
    | none => text
    | some s =>
      match s.folds with
      | [] => text
      | first :: _ =>
        charsOfCodes (unitSlice codes 0 first ++ joinFolds codes indent s.escaped s.folds)

/-! ## Strings between brackets

A string is written without quotes where it would be read back as that string, and in quotes
otherwise. Long strings are folded, except in keys that stand on one line with their value.
-/

/-- Where a text is written: the indentation of what follows its first line, whether it is a key on
one line with its value, and how many units stand before it, if that is known. -/
structure Spot where
  indent : Nat
  isKey : Bool
  lead : Option Nat
  deriving DecidableEq, Repr

/-- Folds a text at a spot; keys are left alone. -/
def Spot.fold (spot : Spot) (quoted : Bool) (text : List Char) : List Char :=
  if spot.isKey then text else foldText quoted spot.indent spot.lead text

/-! ### Double quotes -/

/-- The escape sequence for a control character that has none of one letter in JSON. -/
def controlEscape (c : Char) : List Char :=
  if c = '\x00' then ['\\', '0']
  else if c = '\x07' then ['\\', 'a']
  else if c = '\x0b' then ['\\', 'v']
  else if c = '\x1b' then ['\\', 'e']
  else ['\\', 'x', hexDigit (c.toNat / 16), hexDigit (c.toNat % 16)]

/-- Whether a control character has an escape sequence of one letter in JSON. -/
def hasShortEscape (c : Char) : Bool :=
  ['\x08', '\x0c', '\n', '\r', '\t'].contains c

/-- How a character other than a line end is written in double quotes. -/
def quotedChar (c : Char) : List Char :=
  if c.toNat < 0x20 && !hasShortEscape c then controlEscape c else JsonTree.escapeChar c

/-- The inside of double quotes. Where lines are broken, a line end inside the text is
written as line ends, one more than are meant because one is eaten by folding; a space
next to one is escaped. -/
def quotedBody (breaks : Bool) (indent : Nat) (text : List Char) : List Char :=
  match text with
  | [] => []
  | ' ' :: '\n' :: rest => '\\' :: ' ' :: quotedBody breaks indent ('\n' :: rest)
  | c :: rest =>
    if c != '\n' then quotedChar c ++ quotedBody breaks indent rest
    else if !breaks || rest.isEmpty then '\\' :: 'n' :: quotedBody breaks indent rest
    else
      -- the last line end of the text is never one of those that are written as such
      let more := (rest.takeWhile (· = '\n')).length
      let more := if more = rest.length then more - 1 else more
      let after := rest.drop more
      '\n' :: '\n' :: List.replicate more '\n' ++ List.replicate indent ' ' ++
        (if after.head? = some ' ' then ['\\'] else []) ++ quotedBody breaks indent after
termination_by text.length
decreasing_by all_goals simp only [List.length_cons, List.length_drop]; omega

/-- The number of units from which on a text in double quotes is broken at its line ends. -/
def breakWidth : Nat := 40

/-- A text in double quotes. -/
def doubleQuoted (spot : Spot) (text : List Char) : List Char :=
  let width := unitLength (JsonTree.quote (String.ofList text)).toList
  let breaks := !spot.isKey && breakWidth ≤ width
  spot.fold true ('\x22' :: quotedBody breaks spot.indent text ++ ['\x22'])

/-! ### Single quotes and none -/

/-- Doubles each run of line ends by one, and indents what follows it. -/
def doubleLineEnds (indent : Nat) : List Char → List Char
  | [] => []
  | '\n' :: '\n' :: rest => '\n' :: doubleLineEnds indent ('\n' :: rest)
  | c :: rest =>
    if c = '\n' then
      '\n' :: '\n' :: List.replicate indent ' ' ++ doubleLineEnds indent rest
    else c :: doubleLineEnds indent rest

/-- Whether some character that satisfies the first condition stands directly before one that
satisfies the second. -/
def hasPair (first second : Char → Bool) : List Char → Bool
  | a :: b :: rest => (first a && second b) || hasPair first second (b :: rest)
  | _ => false

/-- A text in single quotes, if it can be written so. -/
def singleQuoted (spot : Spot) (text : List Char) : List Char :=
  if (spot.isKey && text.contains '\n') || hasPair isSpace (· = '\n') text ||
      hasPair (· = '\n') isSpace text then
    doubleQuoted spot text
  else
    let quoted := text.flatMap fun c => if c = '\x27' then ['\x27', '\x27'] else [c]
    spot.fold false ('\x27' :: doubleLineEnds spot.indent quoted ++ ['\x27'])

/-- A text in quotes of the kind that it does not contain, for choice in double ones. -/
def anyQuoted (spot : Spot) (text : List Char) : List Char :=
  if text.contains '\x22' && !text.contains '\x27' then singleQuoted spot text
  else doubleQuoted spot text

/-- Whether a text that starts like this would be taken for something else than a plain scalar. -/
def startsBadly (text : List Char) : Bool :=
  match text with
  | [] => false
  | c :: rest =>
    "\n\t ,[]\x7b\x7d#&*!|>'\"%@`".toList.contains c ||
      ((c = '?' || c = '-') && (rest.isEmpty || rest.head?.any isSpace))

/-- Whether a text cannot stand between brackets without quotes. -/
def needsQuotes (text : List Char) : Bool :=
  let isGap (c : Char) : Bool := isSpace c || c = '\n'
  text.any (fun c => "[]\x7b\x7d,".toList.contains c) || startsBadly text ||
    hasPair (fun c => c = '\n' || c = ':') isSpace text || hasPair isSpace (· = '\n') text ||
    hasPair isGap (· = '#') text || text.getLast?.any fun c => isGap c || c = ':'

/-- A string as a plain scalar, or with quotes if it would not be read as that string. Where the
type is written before it, what it looks like does not matter. -/
def plainOrQuoted (version : Version) (typed : Bool) (spot : Spot) (text : List Char) : List Char :=
  if (spot.isKey && text.contains '\n') || needsQuotes text then anyQuoted spot text
  else
    let folded := doubleLineEnds spot.indent text
    if !typed && (special? version true folded).isSome then anyQuoted spot text
    else spot.fold false folded

/-- Whether a character is written by an escape sequence only. -/
def isControl (c : Char) : Bool :=
  let n := c.toNat
  n < 0x9 || (0xB ≤ n && n < 0x20) || (0x7F ≤ n && n < 0xA0)

/-- A string in the given style. -/
def stringText (version : Version) (typed : Bool) (style : Style) (spot : Spot)
    (text : List Char) : List Char :=
  if text.any isControl then doubleQuoted spot text
  else
    match style with
    | .plain => plainOrQuoted version typed spot text
    | .singleQuoted => singleQuoted spot text
    | .doubleQuoted => doubleQuoted spot text
    | .literal | .folded => anyQuoted spot text

/-! ## Scalars between brackets

A scalar is written as it was written before, unless that could not be read back. The type that its
tag names decides how, and where there is none, what the scalar stands for.
-/

/-- A truth value: in its own words, if they say so. -/
def truthText (version : Version) (source : String) (value : Bool) : List Char :=
  if truth? version source = some value then source.toList
  else (if value then "true" else "false").toList

/-- A moment without the parts that are zero. -/
def shortMoment (milliseconds : Int) : List Char :=
  let text := (isoText milliseconds).toList
  let cut (ending : String) : Option (List Char) :=
    if ending.toList.isSuffixOf text then some (text.take (text.length - ending.length)) else none
  ((cut "T00:00:00.000Z").or (cut ".000Z")).getD text

/-- Pieces of a text, all of one length except perhaps the last one. -/
def piecesOf (width : Nat) (text : List Char) : List (List Char) :=
  match text with
  | [] => []
  | c :: rest =>
    (c :: rest.take (width - 1)) :: piecesOf width (rest.drop (width - 1))
termination_by text.length
decreasing_by simp only [List.length_cons, List.length_drop]; omega

/-- Bytes in base 64, on lines of their own or with spaces between them if there are many. -/
def bytesText (version : Version) (style : Style) (spot : Spot) (content : List Nat) : List Char :=
  let text := encodeBase64 content
  let separator := if style = .literal then '\n' else ' '
  let text :=
    if style = .doubleQuoted then text
    else [separator].intercalate (piecesOf (max (lineWidth - spot.indent) leastWidth) text)
  stringText version true style spot text

/-- A scalar without its tag, which names no type. -/
def untypedText (version : Version) (style : Style) (source : String) (reading : Reading)
    (spot : Spot) : List Char :=
  match reading.datum with
  | .atom .null => if (null? source).isSome then source.toList else "null".toList
  | .atom (.bool value) => truthText version source value
  | .atom (.number value) => numberText version reading.form reading.places value
  | .atom (.string text) =>
    if version = .older && text = Datum.mergeText then text.toList
    else stringText version false style spot text.toList
  | .bytes content => bytesText version style spot content
  | .moment milliseconds => shortMoment milliseconds
  | .mergeSign => Datum.mergeText.toList

/-- A scalar behind the tag of a type that the document knows. A text that is not of that type is
written as well as the type can. -/
def typedText (version : Version) (type : NodeType) (style : Style) (source : String)
    (reading : Reading) (spot : Spot) : Except NodeError (List Char) :=
  let text := (reading.string?.getD "").toList
  match type with
  | .null => .ok (if (null? source).isSome then source.toList else "null".toList)
  | .bool =>
    match reading.datum with
    | .atom (.bool value) => .ok (truthText version source value)
    | _ => .ok (if text.isEmpty then "false" else "true").toList
  | .int | .float =>
    match reading.datum with
    | .atom (.number value) => .ok (numberText version reading.form reading.places value)
    | _ => .ok (unreadNumber (String.ofList text))
  | .timestamp =>
    match reading.datum with
    | .moment milliseconds => .ok (shortMoment milliseconds)
    | _ => .error .unwritableMoment
  | .merge => .ok Datum.mergeText.toList
  | .str => .ok (stringText version false style spot text)
  | .binary => .ok (untypedText version style source reading spot)
  | .map | .seq | .set | .omap | .pairs => .ok (stringText version true style spot text)

/-- What is written for a list or a map behind the tag of a type of scalars; none if the type is one
of lists or maps. -/
def misusedText? : NodeType → Option (List Char)
  | .null => some "null".toList
  | .bool => some "false".toList
  | .int | .float => some ".nan".toList
  | .str => some "undefined".toList
  | .binary | .timestamp => some []
  | .merge => some Datum.mergeText.toList
  | .map | .seq | .set | .omap | .pairs => none

end LineSum.Yaml
