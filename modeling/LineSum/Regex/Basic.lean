import LineSum.Text.Basic
import LineSum.Text.Units

/-!
# Regular expressions

Regular expressions over 16-bit units: what they match and how they are read.
-/

namespace LineSum

/-! ## Regular expressions

A regular expression describes stretches of a text of 16-bit units. What it describes is given as a
set of places: from a place in the text it leads to all places at which such a stretch can end. That
set is finite, and so every question about it has an answer.
-/

/-- A set of units: the ones in some ranges, or all others. -/
structure UnitSet where
  negated : Bool
  ranges : List (Nat × Nat)
  deriving DecidableEq, Repr

/-- Whether a unit belongs to a set. -/
def UnitSet.contains (set : UnitSet) (unit : Nat) : Bool :=
  (set.ranges.any fun (first, last) => first ≤ unit && unit ≤ last) != set.negated

/-- A regular expression. -/
inductive Regex where
  /-- The empty stretch. -/
  | nothing
  /-- One unit of a set. -/
  | oneOf (set : UnitSet)
  | seq (first second : Regex)
  | either (first second : Regex)
  /-- So many repetitions. -/
  | many (inner : Regex) (least : Nat) (most : Option Nat)
  /-- The empty stretch at the beginning of the text. -/
  | atStart
  /-- The empty stretch at the end of the text. -/
  | atEnd
  /-- The empty stretch where a word begins or ends, or where none does. -/
  | atWordEdge (negated : Bool)
  /-- The empty stretch before a stretch of some kind, or before none of them. -/
  | lookAhead (negated : Bool) (inner : Regex)
  /-- The empty stretch behind a stretch of some kind, or behind none of them. -/
  | lookBehind (negated : Bool) (inner : Regex)
  deriving DecidableEq, Repr

namespace Regex

/-- The units of words. -/
def wordRanges : List (Nat × Nat) := [(0x30, 0x39), (0x41, 0x5A), (0x5F, 0x5F), (0x61, 0x7A)]

/-- Whether a unit of a word stands at a place. -/
def isWordAt (text : Array Nat) (place : Nat) : Bool :=
  text[place]?.any (UnitSet.mk false wordRanges).contains

/-- Whether exactly one of the units before and behind a place belongs to a word. -/
def isWordEdge (text : Array Nat) (place : Nat) : Bool :=
  (0 < place && isWordAt text (place - 1)) != isWordAt text place

/-- The places to which a relation between places leads from some of them, in the
given number of steps. -/
def walk (step : Nat → List Nat) (places : List Nat) : Nat → List Nat
  | 0 => places
  | count + 1 => walk step (places.flatMap step).eraseDups count

/-- The places to which a relation between places leads from some of them, in at most the given
number of steps. -/
def reach (step : Nat → List Nat) (places : List Nat) : Nat → List Nat
  | 0 => places
  | count + 1 => reach step (places ++ places.flatMap step).eraseDups count

/-- The places at which stretches end that begin at a place. More repetitions than there are units
have empty ones among them, and then it does not matter how many there are. -/
def ends (text : Array Nat) : Regex → Nat → List Nat
  | nothing, place => [place]
  | oneOf set, place => if text[place]?.any set.contains then [place + 1] else []
  | seq first second, place => ((first.ends text place).flatMap (second.ends text)).eraseDups
  | either first second, place => (first.ends text place ++ second.ends text place).eraseDups
  | many inner least most, place =>
    let further := (most.map fun most => min (most - least) text.size).getD text.size
    reach (inner.ends text) (walk (inner.ends text) [place] (min least (text.size + 1))) further
  | atStart, place => if place = 0 then [place] else []
  | atEnd, place => if place = text.size then [place] else []
  | atWordEdge negated, place => if isWordEdge text place != negated then [place] else []
  | lookAhead negated inner, place =>
    if (inner.ends text place).isEmpty = negated then [place] else []
  | lookBehind negated inner, place =>
    let found := (List.range (place + 1)).any fun start => (inner.ends text start).contains place
    if found != negated then [place] else []

/-- Whether a text has a stretch that an expression describes. -/
def foundIn (r : Regex) (text : List Char) : Bool :=
  let text := (units text).toArray
  (List.range (text.size + 1)).any fun place => !(r.ends text place).isEmpty

end Regex

end LineSum

namespace LineSum.Regex

/-! ## Reading regular expressions

The usual way to write regular expressions: a bar between alternatives, signs for repetitions behind
what is repeated, round brackets around groups, square brackets around sets. Signs that make no
sense where they stand are taken literally as far as that is usual; else the text is no expression.
A reference back to what a group has found is not a regular expression.
-/

/-! ### Sets -/

/-- The decimal digits. -/
def digitRanges : List (Nat × Nat) := [(0x30, 0x39)]

/-- White space and the ends of lines. -/
def blankRanges : List (Nat × Nat) :=
  [(0x09, 0x0D), (0x20, 0x20), (0xA0, 0xA0), (0x1680, 0x1680), (0x2000, 0x200A), (0x2028, 0x2029),
    (0x202F, 0x202F), (0x205F, 0x205F), (0x3000, 0x3000), (0xFEFF, 0xFEFF)]

/-- The ranges between ranges that are in order, from a unit on. -/
def gapsFrom (start : Nat) : List (Nat × Nat) → List (Nat × Nat)
  | [] => [(start, 0xFFFF)]
  | (first, last) :: rest =>
    (if start < first then [(start, first - 1)] else []) ++ gapsFrom (last + 1) rest

/-- The ranges that a letter behind a backslash stands for. -/
def namedRanges? : Char → Option (List (Nat × Nat))
  | 'd' => some digitRanges
  | 'D' => some (gapsFrom 0 digitRanges)
  | 's' => some blankRanges
  | 'S' => some (gapsFrom 0 blankRanges)
  | 'w' => some wordRanges
  | 'W' => some (gapsFrom 0 wordRanges)
  | _ => none

/-- One unit. -/
def unit (n : Nat) : Regex := oneOf ⟨false, [(n, n)]⟩

/-- One character of the first plane. -/
def char (c : Char) : Regex := unit c.toNat

/-- Any unit that ends no line. -/
def anyInLine : Regex := oneOf ⟨true, [(0x0A, 0x0A), (0x0D, 0x0D), (0x2028, 0x2029)]⟩

/-! ### Escapes -/

/-- A unit as an escape. -/
def escapeUnit (n : Nat) : List Char :=
  let digit (d : Nat) : Char := Nat.digitChar (d % 16)
  ['\\', 'u', digit (n / 0x1000), digit (n / 0x100), digit (n / 0x10), digit n]

/-- Writes the two halves of characters beyond the first plane as escapes, so that what follows says
of characters is said of units. -/
def splitPairs : List Char → List Char
  | [] => []
  | '\\' :: c :: rest =>
    (if 0xFFFF < c.toNat then (charUnits c).flatMap escapeUnit else ['\\', c]) ++ splitPairs rest
  | c :: rest =>
    (if 0xFFFF < c.toNat then (charUnits c).flatMap escapeUnit else [c]) ++ splitPairs rest

/-- A unit written with a fixed number of hex digits, and the text behind it. -/
def hexUnit? (width : Nat) (cs : List Char) : Option (Nat × List Char) :=
  let digits := cs.take width
  if digits.length = width && digits.all isHexDigit then some (hexValue digits, cs.drop width)
  else none

/-- Whether a character is an octal digit. -/
def isOctal (c : Char) : Bool := '0' ≤ c && c ≤ '7'

/-- A unit written with octal digits, as many as fit, and the text behind it. -/
def octalUnit (first : Char) (rest : List Char) : Nat × List Char :=
  let value (c : Char) : Nat := c.toNat - '0'.toNat
  match rest with
  | second :: third :: rest =>
    if isOctal second && isOctal third && first ≤ '3' then
      (value first * 64 + value second * 8 + value third, rest)
    else if isOctal second then (value first * 8 + value second, third :: rest)
    else (value first, second :: third :: rest)
  | [second] =>
    if isOctal second then (value first * 8 + value second, []) else (value first, [second])
  | [] => (value first, [])

/-- The unit that a backslash with the given text behind it stands for, inside and outside of sets,
and the text behind that. -/
def escapedUnit (c : Char) (rest : List Char) : Nat × List Char :=
  match c with
  | 't' => (0x09, rest)
  | 'n' => (0x0A, rest)
  | 'v' => (0x0B, rest)
  | 'f' => (0x0C, rest)
  | 'r' => (0x0D, rest)
  | 'x' => (hexUnit? 2 rest).getD (c.toNat, rest)
  | 'u' => (hexUnit? 4 rest).getD (c.toNat, rest)
  | 'c' =>
    match rest with
    | letter :: behind => if letter.isAlpha then (letter.toNat % 32, behind)
      else ('\\'.toNat, c :: rest)
    | [] => ('\\'.toNat, c :: rest)
  | c => if isOctal c then octalUnit c rest else (c.toNat, rest)

/-! ### Square brackets -/

/-- A part of what stands between square brackets. -/
inductive SetPart where
  | one (unit : Nat)
  | dash
  | ranges (ranges : List (Nat × Nat))

/-- The ranges of parts between square brackets; none if one is the wrong way round. -/
def rangesOf : List SetPart → Option (List (Nat × Nat))
  | first :: .dash :: last :: rest =>
    match unit? first, unit? last with
    | some first, some last =>
      if first ≤ last then (rangesOf rest).map ((first, last) :: ·) else none
    | _, _ => (rangesOf rest).map fun others =>
      own first ++ ('-'.toNat, '-'.toNat) :: own last ++ others
  | part :: rest => (rangesOf rest).map (own part ++ ·)
  | [] => some []
where
  /-- The unit of a part, if it is only one. -/
  unit? : SetPart → Option Nat
    | .one unit => some unit
    | .dash => some '-'.toNat
    | .ranges _ => none
  /-- The ranges of a part that stands alone. -/
  own : SetPart → List (Nat × Nat)
    | .one unit => [(unit, unit)]
    | .dash => [('-'.toNat, '-'.toNat)]
    | .ranges ranges => ranges

/-- A part of a set that begins with a backslash, and the text behind it. -/
def escapedPart (c : Char) (rest : List Char) : SetPart × List Char :=
  match namedRanges? c with
  | some ranges => (.ranges ranges, rest)
  | none =>
    if c = 'b' then (.one 0x08, rest)
    else
      match c, rest with
      | 'c', d :: behind =>
        if isDecimal d || d = '_' then (.one (d.toNat % 32), behind)
        else
          let (unit, behind) := escapedUnit c rest
          (.one unit, behind)
      | c, rest =>
        let (unit, behind) := escapedUnit c rest
        (.one unit, behind)

/-- The parts up to the closing bracket, and the text behind it. -/
def readParts : Nat → List Char → Option (List SetPart × List Char)
  | 0, _ => none
  | _, [] => none
  | _, ['\\'] => none
  | fuel + 1, c :: rest =>
    if c = ']' then some ([], rest)
    else
      let (part, behind) :=
        match c, rest with
        | '\\', d :: rest => escapedPart d rest
        | '-', rest => (.dash, rest)
        | c, rest => (.one c.toNat, rest)
      (readParts fuel behind).map fun (parts, behind) => (part :: parts, behind)

/-- Reads a set; the opening bracket has been passed. -/
def readSet (cs : List Char) : Option (Regex × List Char) := do
  let negated := cs.head? = some '^'
  let (parts, behind) ← readParts (cs.length + 1) (if negated then cs.drop 1 else cs)
  return (oneOf ⟨negated, ← rangesOf parts⟩, behind)

/-! ### Repetitions -/

/-- Leaves out the sign that few repetitions are preferred, which does not
change the set of them. -/
def dropPreference : List Char → List Char
  | '?' :: rest => rest
  | rest => rest

/-- How often what stands before is repeated: at least and at most so many times. -/
def quantifier? (cs : List Char) : Option (Nat × Option Nat × List Char) :=
  match cs with
  | '*' :: rest => some (0, none, dropPreference rest)
  | '+' :: rest => some (1, none, dropPreference rest)
  | '?' :: rest => some (0, some 1, dropPreference rest)
  | '\x7b' :: rest =>
    let least := rest.takeWhile isDecimal
    if least.isEmpty then none
    else
      match rest.drop least.length with
      | '\x7d' :: behind =>
        some (decimalValue least, some (decimalValue least), dropPreference behind)
      | ',' :: behind =>
        let most := behind.takeWhile isDecimal
        match behind.drop most.length with
        | '\x7d' :: behind =>
          some (decimalValue least, if most.isEmpty then none else some (decimalValue most),
            dropPreference behind)
        | _ => none
      | _ => none
  | _ => none

/-- What a term becomes with the repetitions behind it. -/
def withRepetition (term : Regex) (canRepeat : Bool) (behind : List Char) :
    Option (Regex × List Char) :=
  match quantifier? behind with
  | none => some (term, behind)
  | some (least, most, behind) =>
    if canRepeat && most.all (least ≤ ·) then some (many term least most, behind) else none

/-! ### Groups -/

/-- The groups of an expression that can be referred to: how many there are, and their names. -/
structure Groups where
  count : Nat
  names : List (List Char)

/-- The groups in the text of an expression. -/
def groupsIn (inSet : Bool) : List Char → Groups
  | [] => ⟨0, []⟩
  | '\\' :: _ :: rest => groupsIn inSet rest
  | '(' :: '?' :: '<' :: c :: rest =>
    let others := groupsIn inSet rest
    if inSet || c = '=' || c = '!' then others
    else ⟨others.count + 1, (c :: rest).takeWhile (· != '>') :: others.names⟩
  | '(' :: '?' :: rest => groupsIn inSet rest
  | c :: rest =>
    let others := groupsIn (if c = '[' then true else if c = ']' then false else inSet) rest
    if c = '(' && !inSet then { others with count := others.count + 1 } else others

/-- Whether a text can be the name of a group. -/
def isGroupName (name : List Char) : Bool :=
  name.all (fun c => c.isAlphanum || c = '_' || c = '$') && name.head?.any (!isDecimal ·)

/-- Reads what a backslash and the given text behind it stand for; the second component says whether
it can be repeated. -/
def readEscape (groups : Groups) (c : Char) (rest : List Char) :
    Option (Regex × Bool × List Char) :=
  match namedRanges? c with
  | some ranges => some (oneOf ⟨false, ranges⟩, true, rest)
  | none =>
    if c = 'b' then some (atWordEdge false, false, rest)
    else if c = 'B' then some (atWordEdge true, false, rest)
    else if c = 'k' && !groups.names.isEmpty then none
    else if isDecimal c && c != '0' &&
        decimalValue (c :: rest.takeWhile isDecimal) ≤ groups.count then none
    else
      let (n, behind) := escapedUnit c rest
      some (unit n, true, behind)

mutual

/-- Reads alternatives up to a closing bracket or the end. -/
def readEither (groups : Groups) : Nat → List Char → Option (Regex × List Char)
  | 0, _ => none
  | fuel + 1, cs => do
    let (first, rest) ← readSeq groups fuel cs
    match rest with
    | '|' :: rest =>
      let (second, rest) ← readEither groups fuel rest
      return (either first second, rest)
    | rest => return (first, rest)

/-- Reads one alternative. -/
def readSeq (groups : Groups) : Nat → List Char → Option (Regex × List Char)
  | 0, _ => none
  | fuel + 1, cs =>
    match cs with
    | [] => some (nothing, [])
    | c :: rest =>
      if c = '|' || c = ')' then some (nothing, c :: rest)
      else do
        let (term, canRepeat, behind) ← readTerm groups fuel c rest
        let (term, behind) ← withRepetition term canRepeat behind
        let (others, behind) ← readSeq groups fuel behind
        return (seq term others, behind)

/-- Reads a term without the repetitions behind it. -/
def readTerm (groups : Groups) : Nat → Char → List Char → Option (Regex × Bool × List Char)
  | 0, _, _ => none
  | fuel + 1, c, rest =>
    if c = '^' then some (atStart, false, rest)
    else if c = '$' then some (atEnd, false, rest)
    else if c = '.' then some (anyInLine, true, rest)
    else if c = '[' then (readSet rest).map fun (set, behind) => (set, true, behind)
    else if c = '(' then readGroup groups fuel rest
    else if c = '\\' then
      match rest with
      | [] => none
      | d :: rest => readEscape groups d rest
    else if (quantifier? (c :: rest)).isSome then none
    else some (char c, true, rest)

/-- Reads a group; the opening bracket has been passed. -/
def readGroup (groups : Groups) : Nat → List Char → Option (Regex × Bool × List Char)
  | 0, _ => none
  | fuel + 1, cs => do
    let inner (cs : List Char) : Option (Regex × List Char) := do
      match ← readEither groups fuel cs with
      | (r, ')' :: behind) => return (r, behind)
      | _ => none
    match cs with
    | '?' :: ':' :: rest =>
      let (r, behind) ← inner rest
      return (r, true, behind)
    | '?' :: '=' :: rest =>
      let (r, behind) ← inner rest
      return (lookAhead false r, true, behind)
    | '?' :: '!' :: rest =>
      let (r, behind) ← inner rest
      return (lookAhead true r, true, behind)
    | '?' :: '<' :: '=' :: rest =>
      let (r, behind) ← inner rest
      return (lookBehind false r, false, behind)
    | '?' :: '<' :: '!' :: rest =>
      let (r, behind) ← inner rest
      return (lookBehind true r, false, behind)
    | '?' :: '<' :: rest =>
      let name := rest.takeWhile (· != '>')
      if isGroupName name then
        let (r, behind) ← inner (rest.drop (name.length + 1))
        return (r, true, behind)
      else none
    | '?' :: _ => none
    | rest =>
      let (r, behind) ← inner rest
      return (r, true, behind)

end

/-- The regular expression of a text, if it is the text of one. -/
def ofText? (text : List Char) : Option Regex :=
  let cs := splitPairs text
  let groups := groupsIn false cs
  if groups.names.eraseDups.length < groups.names.length then none
  else
    match readEither groups (4 * cs.length + 4) cs with
    | some (r, []) => some r
    | _ => none

end LineSum.Regex
