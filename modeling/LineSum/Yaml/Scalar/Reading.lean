import LineSum.Config.Value
import LineSum.Decimal.Numeral
import LineSum.Text.Utf8
import LineSum.Text.Moment

/-!
# What scalars stand for

The text of a scalar and its tag decide which datum it stands for, by the rules of a version of
YAML.
-/

namespace LineSum.Yaml

/-! ## Versions and types

A document follows one of two versions of the rules. They differ in what plain texts stand for and
in the types that every document knows; other types are known from their first use on.
-/

/-- A version of the rules. -/
inductive Version where
  /-- Version 1.1, which a document has to ask for. -/
  | older
  /-- Version 1.2. -/
  | core
  deriving DecidableEq, Repr, Inhabited

/-- The version with a number, if it is supported. -/
def Version.ofText? (text : String) : Option Version :=
  if text = "1.1" then some older else if text = "1.2" then some core else none

/-- The types that tags can ask for by well-known names. -/
inductive NodeType where
  | null
  | bool
  | int
  | float
  | str
  | binary
  | timestamp
  | merge
  | map
  | seq
  | set
  | omap
  | pairs
  deriving DecidableEq, Repr

/-- What the tags of well-known types begin with. -/
def coreTag (name : String) : String := "tag:yaml.org,2002:" ++ name

namespace NodeType

/-- All types. -/
def all : List NodeType :=
  [null, bool, int, float, str, binary, timestamp, merge, map, seq, set, omap, pairs]

/-- The name of a type. -/
def text : NodeType → String
  | null => "null"
  | bool => "bool"
  | int => "int"
  | float => "float"
  | str => "str"
  | binary => "binary"
  | timestamp => "timestamp"
  | merge => "merge"
  | map => "map"
  | seq => "seq"
  | set => "set"
  | omap => "omap"
  | pairs => "pairs"

/-- The tag of a type. -/
def tag (t : NodeType) : String := coreTag t.text

/-- The type that a tag asks for. -/
def ofTag? (tag : String) : Option NodeType :=
  all.find? (·.tag = tag)

/-- Whether documents of version 1.2 know the type from the beginning. -/
def isBasic : NodeType → Bool
  | null | bool | int | float | str | map | seq => true
  | _ => false

/-- Whether nodes without parts are of the type. -/
def isForScalars : NodeType → Bool
  | map | seq | set | omap | pairs => false
  | _ => true

end NodeType

/-- The types that a document knows: those of its version, and those that it has used. -/
structure Schema where
  version : Version
  used : List NodeType
  deriving DecidableEq, Repr

/-- Whether a document knows a type. -/
def Schema.knows (schema : Schema) (t : NodeType) : Bool :=
  schema.version = .older || t.isBasic || schema.used.contains t

/-! ## What scalars stand for

A scalar stands for a value of a configuration, or for one of three things that no configuration
asks for: bytes, a moment, and the sign that a map takes over the entries of other maps.
-/

/-- What a scalar stands for. -/
inductive Datum where
  | atom (value : Atom)
  | bytes (content : List Nat)
  | moment (milliseconds : Int)
  | mergeSign
  deriving DecidableEq, Repr, Inhabited

namespace Datum

/-- A string. -/
def string (text : List Char) : Datum := atom (.string (String.ofList text))

/-- The text that marks the entries of other maps. -/
def mergeText : String := "<<"

/-- The text of what a scalar stands for when it is used as a name. -/
def text : Datum → String
  | atom value => value.text
  | bytes content => decodeUtf8 content
  | moment milliseconds => wordyText milliseconds
  | mergeSign => "Symbol(" ++ mergeText ++ ")"

end Datum

/-- How a number is written. -/
inductive NumberForm where
  | plain
  | binary
  | octal
  | hex
  | exponent
  | sexagesimal
  deriving DecidableEq, Repr, Inhabited

/-- What a scalar has been read as: what it stands for, and for a number how it was written and how
many places behind the point it keeps. -/
structure Reading where
  datum : Datum
  form : NumberForm
  places : Nat
  deriving DecidableEq, Repr, Inhabited

namespace Reading

/-- What is not a number. -/
def of (datum : Datum) : Reading := ⟨datum, .plain, 0⟩

/-- A number. -/
def number (form : NumberForm) (value : Binary64) : Reading := ⟨.atom (.number value), form, 0⟩

/-- A string. -/
def string (text : List Char) : Reading := .of (.string text)

/-- The string, if the scalar is one. -/
def string? (r : Reading) : Option String :=
  match r.datum with
  | .atom (.string s) => some s
  | _ => none

end Reading

/-! ## Timestamps

A timestamp is a day, perhaps with a time of day and an offset from universal time. Parts that are
too great carry over into the next one.
-/

/-- Takes at least one and at most so many digits off the front. -/
def takeDigits? (most : Nat) (text : List Char) : Option (List Char × List Char) :=
  let digits := (text.take most).takeWhile isDecimal
  if digits.isEmpty then none else some (digits, text.drop digits.length)

/-- Takes a character off the front. -/
def takeChar? (c : Char) : List Char → Option (List Char)
  | d :: rest => if c = d then some rest else none
  | [] => none

/-- Takes spaces and tabs off the front. -/
def skipSpaces (text : List Char) : List Char :=
  text.dropWhile fun c => c = ' ' || c = '\t'

/-- The milliseconds that the places behind the point of a second stand for. -/
def millisecondsOf (places : List Char) : Nat :=
  decimalValue ((places ++ ['0', '0']).take 3)

/-- The minutes by which a zone is ahead. A sum of hours and minutes that is less than
thirty stands for hours. -/
def zoneMinutes? (text : List Char) : Option Int :=
  match text with
  | [] => some 0
  | ['Z'] => some 0
  | sign :: rest =>
    if sign != '+' && sign != '-' then none
    else
      let (hour, tail) := rest.span isDecimal
      let wellFormed :=
        match hour with
        | [_] => true
        | [c, _] => isDigitBelow 3 c
        | _ => false
      let minute? : Option Nat :=
        match tail with
        | [] => some 0
        | [':', a, b] => if isDecimal a && isDecimal b then some (decimalValue [a, b]) else none
        | _ => none
      match minute? with
      | some minute =>
        let sum : Int :=
          if tail.isEmpty then decimalValue hour else decimalValue hour * 60 + minute
        let minutes := if sum < 30 then sum * 60 else sum
        if wellFormed then some (if sign = '-' then -minutes else minutes) else none
      | none => none

/-- The milliseconds from the beginning of the day that the time in a timestamp stands for. -/
def timeOfDay? (text : List Char) : Option Int := do
  let body :=
    match text with
    | 't' :: rest => some rest
    | 'T' :: rest => some rest
    | _ => if text.head?.any (fun c => c = ' ' || c = '\t') then some (skipSpaces text) else none
  let (hour, rest) ← takeDigits? 2 (← body)
  let (minute, rest) ← takeDigits? 2 (← takeChar? ':' rest)
  let (second, rest) ← takeDigits? 2 (← takeChar? ':' rest)
  let (places, rest) :=
    match rest with
    | '.' :: more => let places := more.takeWhile isDecimal; (places, more.drop places.length)
    | rest => (['0'], rest)
  if places.isEmpty then none
  else
    let zone ← zoneMinutes? (skipSpaces rest)
    if rest.isEmpty || !(skipSpaces rest).isEmpty then
      return (((decimalValue hour * 60 + decimalValue minute : Nat) : Int) - zone) * 60000 +
        (decimalValue second * 1000 + millisecondsOf places : Nat)
    else none

/-- The moment that a timestamp stands for. Years below one hundred belong to
the twentieth century. -/
def timestamp? (text : List Char) : Option Int := do
  let (year, rest) ← takeDigits? 4 text
  let (month, rest) ← takeDigits? 2 (← takeChar? '-' rest)
  let (day, rest) ← takeDigits? 2 (← takeChar? '-' rest)
  if year.length != 4 then none
  else
    let time ← if rest.isEmpty then some 0 else timeOfDay? rest
    let year := decimalValue year
    let year : Int := if year < 100 then 1900 + year else year
    let month : Int := (decimalValue month : Int) - 1
    let first :=
      if month < 0 then CivilDay.firstOfMonth (year - 1) 11
      else CivilDay.firstOfMonth year month.toNat
    return (first + decimalValue day - 1) * DayTime.dayLength + time

/-! ## Numbers in plain text

Which texts are integers and which are other numbers, for both versions of the rules. The older one
takes underscores between digits, more bases, and numbers of base sixty.
-/

/-- The names of what is no finite number. -/
def specialNumber? (text : String) : Option Binary64 :=
  if [".nan", ".NaN", ".NAN"].contains text then some .notANumber
  else if [".inf", ".Inf", ".INF", "+.inf", "+.Inf", "+.INF"].contains text then
    some (.infinite false)
  else if ["-.inf", "-.Inf", "-.INF"].contains text then some (.infinite true)
  else none

/-- The places behind the point that a number keeps: all of them if the last one is a zero. -/
def keptPlaces (fraction : List Char) : Nat :=
  if fraction.getLast? = some '0' then fraction.length else 0

/-- What stands behind the first point of a text, if there is one. -/
def fraction? (text : List Char) : Option (List Char) :=
  match text.dropWhile (· != '.') with
  | '.' :: fraction => some fraction
  | _ => none

/-- A number with a point, which keeps its places. -/
def pointNumber (fraction : List Char) (value : Binary64) : Reading :=
  { Reading.number .plain value with places := keptPlaces fraction }

/-- Whether a text has an exponent. -/
def hasExponent (text : List Char) : Bool :=
  text.any fun c => c = 'e' || c = 'E'

/-! ### Version 1.2 -/

/-- The integer that a text denotes. -/
def coreInteger? (text : List Char) : Option Reading :=
  let digits := (splitSign text).2
  if !digits.isEmpty && digits.all isDecimal then (decimal? text).map (.number .plain)
  else
    match text with
    | '0' :: 'o' :: digits =>
      if digits.all (isDigitBelow 8) then (radix? false 8 digits).map (.number .octal) else none
    | '0' :: 'x' :: digits =>
      if digits.all isHexDigit then (radix? false 16 digits).map (.number .hex) else none
    | _ => none

/-- The number that a text with a point or an exponent denotes. -/
def coreFloat? (text : List Char) : Option Reading :=
  if (splitSign text).2.all isDecimal then none
  else
    match specialNumber? (String.ofList text) with
    | some value => some (.number .plain value)
    | none =>
      (decimal? text).map fun value =>
        if hasExponent text then .number .exponent value
        else pointNumber ((fraction? text).getD []) value

/-! ### Version 1.1 -/

/-- Whether a character is a digit or stands between digits. -/
def isSpacedDigit (isDigit : Char → Bool) (c : Char) : Bool :=
  isDigit c || c = '_'

/-- A text without the signs that may stand between digits. -/
def withoutSpacing (text : List Char) : List Char :=
  text.filter (· != '_')

/-- A number in digits of a base, with the signs that may stand between them; if there are no digits
it is not a number. -/
def spacedNumber (form : NumberForm) (negative : Bool) (base : Nat) (digits : List Char) :
    Reading :=
  .number form ((radix? negative base (withoutSpacing digits)).getD .notANumber)

/-- Whether a text consists of digits with colons between them, each part but the first being below
sixty; the last part may have a point and places. -/
def isSexagesimal (withPoint : Bool) (text : List Char) : Bool :=
  match splitColons (splitSign text).2 with
  | first :: second :: rest =>
    let parts := second :: rest
    let last := (parts.getLast?).getD []
    let whole := last.takeWhile (· != '.')
    let below60 (part : List Char) : Bool :=
      match part with
      | [c] => isDecimal c
      | [c, d] => isDigitBelow 6 c && isDecimal d
      | _ => false
    first.head?.any isDecimal && first.all (isSpacedDigit isDecimal) &&
      parts.dropLast.all below60 && below60 whole &&
      (if withPoint then
        whole.length < last.length && (last.drop (whole.length + 1)).all (isSpacedDigit isDecimal)
      else whole.length = last.length)
  | _ => false

/-- The integer that a text denotes. -/
def olderInteger? (text : List Char) : Option Reading :=
  let (negative, body) := splitSign text
  let found (form : NumberForm) (base : Nat) (isDigit : Char → Bool) (digits : List Char) :
      Option Reading :=
    if !digits.isEmpty && digits.all (isSpacedDigit isDigit) then
      some (spacedNumber form negative base digits)
    else none
  let bases :=
    match body with
    | '0' :: 'b' :: digits => found .binary 2 (isDigitBelow 2) digits
    | '0' :: 'x' :: digits => found .hex 16 isHexDigit digits
    | '0' :: digits => found .octal 8 (isDigitBelow 8) digits
    | _ => none
  let whole := if body.head?.any isDecimal && body.all (isSpacedDigit isDecimal) then
    (decimal? (withoutSpacing text)).map (.number .plain) else none
  let sexagesimal := if isSexagesimal false text then
    some (.number .sexagesimal (sexagesimalValue text)) else none
  (bases.or whole).or sexagesimal

/-- The number that a text with a point, an exponent or colons denotes. Without digits before the
exponent it is not a number. -/
def olderFloat? (text : List Char) : Option Reading :=
  let (_, body) := splitSign text
  let whole := body.takeWhile (isSpacedDigit isDecimal)
  let rest := body.drop whole.length
  let (fraction?, rest) :=
    match rest with
    | '.' :: more =>
      let fraction := more.takeWhile (isSpacedDigit isDecimal)
      (some fraction, more.drop fraction.length)
    | rest => (none, rest)
  let value := (decimal? (withoutSpacing text)).getD .notANumber
  let startsWell := whole.isEmpty || whole.head?.any isDecimal
  match specialNumber? (String.ofList text) with
  | some value => some (.number .plain value)
  | none =>
    if isSexagesimal true text then some (.number .sexagesimal (sexagesimalValue text))
    else if !startsWell then none
    else
      match rest, fraction? with
      | [], some fraction => some (pointNumber (withoutSpacing fraction) value)
      | [], none => none
      | e :: power, _ =>
        let digits := (splitSign power).2
        if (e = 'e' || e = 'E') && !digits.isEmpty && digits.all isDecimal then
          some (.number .exponent value)
        else none

/-! ## Reading scalars

The text of a plain scalar stands for null, a truth value, a number or a moment if it looks like one
in the version of the document; every other text stands for itself. A tag can ask for one of these
readings, or for bytes.
-/

/-- Null, if a text denotes it. -/
def null? (text : String) : Option Datum :=
  if ["", "~", "null", "Null", "NULL"].contains text then some (.atom .null) else none

/-- The words for truth and for falsehood. -/
def truthWords : Version → List String × List String
  | .core => (["true", "True", "TRUE"], ["false", "False", "FALSE"])
  | .older =>
    (["Y", "y", "Yes", "yes", "YES", "True", "true", "TRUE", "On", "on", "ON"],
      ["N", "n", "No", "no", "NO", "False", "false", "FALSE", "Off", "off", "OFF"])

/-- The truth value that a text denotes. -/
def truth? (version : Version) (text : String) : Option Bool :=
  let (yes, no) := truthWords version
  if yes.contains text then some true else if no.contains text then some false else none

/-- The integer that a text denotes. -/
def integer? (version : Version) (text : List Char) : Option Reading :=
  match version with
  | .core => coreInteger? text
  | .older => olderInteger? text

/-- The number that a text denotes if it is not the text of an integer. -/
def float? (version : Version) (text : List Char) : Option Reading :=
  match version with
  | .core => coreFloat? text
  | .older => olderFloat? text

/-- What a text stands for other than itself. Only where a key is expected can it be the sign that a
map takes over other entries. -/
def special? (version : Version) (atKey : Bool) (text : List Char) : Option Reading :=
  let word := String.ofList text
  let common :=
    (((null? word).map Reading.of).or
      ((truth? version word).map fun value => .of (.atom (.bool value)))).or
      ((integer? version text).or (float? version text))
  match version with
  | .core => common
  | .older =>
    (common.or (if atKey && word = Datum.mergeText then some (.of .mergeSign) else none)).or
      ((timestamp? text).map fun moment => .of (.moment moment))

/-- What a plain text stands for. -/
def readPlain (version : Version) (atKey : Bool) (text : List Char) : Reading :=
  (special? version atKey text).getD (.string text)

/-- What a text with the tag of a type stands for; none if a document that insists on the type
refuses the text. A type that does not fit the text leaves the text as it is. -/
def readTyped (version : Version) (type : NodeType) (text : List Char) : Option Reading :=
  let word := String.ofList text
  let orText (found : Option Reading) : Option Reading := some (found.getD (.string text))
  match type with
  | .null => orText ((null? word).map .of)
  | .bool => orText ((truth? version word).map fun value => .of (.atom (.bool value)))
  | .int => orText (integer? version text)
  | .float => orText (float? version text)
  | .binary => some (.of (.bytes (decodeBase64 text)))
  | .timestamp =>
    let moment := (timestamp? text).map fun moment => Reading.of (.moment moment)
    if version = .core then moment else orText moment
  | .merge =>
    orText (if version = .core || word = Datum.mergeText then some (.of .mergeSign) else none)
  | _ => some (.string text)

end LineSum.Yaml
