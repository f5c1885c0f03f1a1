import LineSum.Decimal.Numeral
import LineSum.Text.Units

/-!
# Braces in patterns

What is wrong with patterns, and the patterns that one with braces stands for.
-/

namespace LineSum

/-! ## What is wrong with patterns

Nearly every text is a pattern. A few are not: those that say nothing, and those whose braces stand
for too much or cannot be sorted out.
-/

/-- Why a pattern cannot be searched for. The length of a pattern is no reason: one of more than
65536 units is searched for as well. -/
inductive PatternError where
  /-- There is no pattern. -/
  | empty
  /-- A pattern for what is left out says nothing. -/
  | emptyExclusion
  /-- A range stands for too many texts. -/
  | longRange
  /-- Round brackets stand in braces that have no end. -/
  | strayGroup
  /-- No search can begin in the directory that a pattern names. -/
  | unsearchableDirectory
  deriving DecidableEq, Repr

/-- The sentence that reports why a pattern cannot be searched for. -/
def PatternError.message : PatternError → String
  | empty => "Patterns must be a string (non empty) or an array of strings"
  | emptyExclusion => "Expected a non-empty string"
  | longRange =>
    "expanded array length exceeds range limit. " ++
      "Use options.rangeLimit to increase or disable the limit."
  | strayGroup => "Cannot read properties of undefined (reading 'push')"
  | unsearchableDirectory => "collection[base].push is not a function"

end LineSum

namespace LineSum.Glob

/-! ## Ranges in patterns

Two ends with two points between them stand for all that lies between them: for integers if both
ends are integers, and else for characters. A third part says which step is taken.
-/

/-- The integer that a text denotes. -/
def integerOf? (text : List Char) : Option Int :=
  match looseNumber? text with
  | some (.finite negative mantissa exponent) =>
    let size := mantissa * Nat.pow 2 exponent.natAbs
    let value : Option Nat :=
      if 0 ≤ exponent then some size
      else if mantissa % Nat.pow 2 exponent.natAbs = 0 then
        some (mantissa / Nat.pow 2 exponent.natAbs)
      else none
    value.map fun n => if negative then -(n : Int) else n
  | _ => none

/-- Whether a number is written with zeros in front. -/
def hasLeadingZeros (text : List Char) : Bool :=
  let digits := if text.head? = some '-' then text.drop 1 else text
  digits != ['0'] && digits.head? = some '0'

/-- A number with zeros in front, up to a width. -/
def padNumber (width : Nat) (n : Int) : List Char :=
  let digits := (toString n.natAbs).toList
  if n < 0 then '-' :: (List.replicate (width - 1 - digits.length) '0' ++ digits)
  else List.replicate (width - digits.length) '0' ++ digits

/-- The integers from one to another one, upwards or downwards. -/
def integersBetween (first last : Int) (step : Nat) : List Int :=
  let count := (last - first).natAbs / step + 1
  (List.range count).map fun i =>
    if first ≤ last then first + (i * step : Nat) else first - (i * step : Nat)

/-- The characters from one to another one, upwards or downwards; halves of characters are none. -/
def charsBetween (first last : Nat) (step : Nat) : List Char :=
  (integersBetween first last step).filterMap fun n =>
    let code := n.toNat
    if 0xD800 ≤ code && code < 0xE000 then none else some (Char.ofNat code)

/-- What a range stands for. Nothing at all means that it is none. -/
def rangeTexts (first last step : List Char) : List (List Char) :=
  match if first.isEmpty || last.isEmpty then none else integerOf? step with
  | none => []
  | some size =>
    let width := max size.natAbs 1
    match integerOf? first, integerOf? last with
    | some a, some b =>
      let texts := [first, last, step]
      let padding := if texts.any hasLeadingZeros then (texts.map List.length).foldl max 0 else 0
      (integersBetween a b width).map (padNumber padding)
    | a, b =>
      if (a.isNone && 1 < unitLength first) || (b.isNone && 1 < unitLength last) then []
      else
        match first, last with
        | a :: _, b :: _ => (charsBetween a.toNat b.toNat width).map ([·])
        | _, _ => []

/-- The number of integers in a range without a step from which on it is
refused, if it goes upwards. -/
def rangeLimit : Nat := 1000

/-- What a range with the given parts stands for. -/
def expandRange : List (List Char) → Except PatternError (List (List Char))
  | [first, last] =>
    match integerOf? first, integerOf? last with
    | some a, some b =>
      if (rangeLimit : Int) ≤ b - a then .error .longRange else .ok (rangeTexts first last ['1'])
    | _, _ => .ok (rangeTexts first last ['1'])
  | first :: last :: step :: _ => .ok (rangeTexts first last step)
  | _ => .ok []

/-! ## Braces

A text in which braces stand for several texts is read as a tree of blocks. Commas divide the
alternatives of a block, two points make it a range, and a block that has no end is none. Round
brackets keep what is in them together.
-/

/-- What a leaf of a block is. -/
inductive LeafKind where
  | opening
  | closing
  | text
  /-- One point, which may become the beginning of two. -/
  | point
  | range
  | comma
  deriving DecidableEq, Repr

/-- What a block is: with braces it counts its commas and ranges; behind a dollar sign it is taken
literally, as with points at a wrong place. A group of round brackets may have lost the block that
it stands in. -/
inductive BlockKind where
  | braces (isLiteral : Bool) (commas ranges : Nat)
  | group (isLost : Bool)
  deriving DecidableEq, Repr

/-- A part of a block. -/
inductive BracePart where
  | leaf (kind : LeafKind) (text : List Char)
  | block (kind : BlockKind) (parts : List BracePart)
  deriving Repr

mutual

/-- The text of a part. -/
def BracePart.source : BracePart → List Char
  | .leaf _ text => text
  | .block _ parts => sourceOf parts

/-- The text of parts. -/
def sourceOf : List BracePart → List Char
  | [] => []
  | part :: rest => part.source ++ sourceOf rest

end

/-- A block that is being read, with its parts in reverse. -/
structure OpenBlock where
  isGroup : Bool
  /-- Whether it is taken literally because of a dollar sign. -/
  hasDollar : Bool
  isInvalid : Bool
  commas : Nat
  ranges : Nat
  parts : List BracePart

namespace OpenBlock

/-- The block of a whole text. -/
def outermost : OpenBlock := ⟨true, false, false, 0, 0, []⟩

/-- The block with the parts in order. -/
def close (b : OpenBlock) : BracePart :=
  .block (if b.isGroup then .group false
    else .braces (b.hasDollar || b.isInvalid) b.commas b.ranges) b.parts.reverse

end OpenBlock

/-- Adds a text behind a part, if it is a text or ends in one. A single point
becomes part of the text. -/
def BracePart.extend? (text : List Char) : BracePart → Option BracePart
  | leaf kind before =>
    if kind = .text || kind = .point then some (leaf .text (before ++ text)) else none
  | block kind parts => (extendLast? text parts).map (block kind)
where
  /-- Adds a text behind the last part. -/
  extendLast? (text : List Char) : List BracePart → Option (List BracePart)
    | [] => none
    | [part] => (part.extend? text).map ([·])
    | part :: rest => (extendLast? text rest).map (part :: ·)

/-- The blocks that are being read, the innermost one first. -/
structure BraceState where
  block : OpenBlock
  outer : List OpenBlock
  /-- How many square brackets are open. -/
  brackets : Nat

namespace BraceState

/-- The state before the first character. -/
def initial : BraceState := ⟨.outermost, [], 0⟩

/-- Adds a part. -/
def add (s : BraceState) (part : BracePart) : BraceState :=
  { s with block := { s.block with parts := part :: s.block.parts } }

/-- Adds a text, to the text before it if there is one. -/
def addText (s : BraceState) (text : List Char) : BraceState :=
  match s.block.parts with
  | last :: others =>
    match last.extend? text with
    | some last => { s with block := { s.block with parts := last :: others } }
    | none => s.add (.leaf .text text)
  | [] => s.add (.leaf .text text)

/-- Whether a block with braces is open. -/
def inBraces (s : BraceState) : Bool :=
  (s.block :: s.outer).any (!·.isGroup)

/-- The last leaf of a part. -/
def lastText : BracePart → List Char
  | .leaf _ text => text
  | .block _ parts => lastTextOf parts
where
  /-- The last leaf of parts. -/
  lastTextOf : List BracePart → List Char
    | [] => []
    | [part] => lastText part
    | _ :: rest => lastTextOf rest

/-- Opens a block. -/
def openBlock (s : BraceState) (block : OpenBlock) : BraceState :=
  { s with block, outer := s.block :: s.outer }

/-- Opens a block with braces. -/
def openBraces (s : BraceState) : BraceState :=
  let behindDollar := (s.block.parts.head?.map lastText).any (·.getLast? = some '$')
  s.openBlock
    ⟨false, behindDollar || s.block.hasDollar, false, 0, 0, [.leaf .opening ['\x7b']]⟩

/-- Closes the innermost block. -/
def closeBlock (s : BraceState) : BraceState :=
  match s.outer with
  | block :: outer =>
    { s with block := { block with parts := s.block.close :: block.parts }, outer }
  | [] => s

/-- A comma between alternatives. What looked like a range is none. -/
def addComma (s : BraceState) : BraceState :=
  let block := s.block
  let comma : BracePart := .leaf .comma [',']
  if block.isGroup then s.add comma
  else
    let parts :=
      if 0 < block.ranges then
        match block.parts.reverse with
        | first :: rest => [.leaf .text (sourceOf rest), first]
        | [] => []
      else block.parts
    { s with block :=
      { block with parts := comma :: parts, ranges := 0, commas := block.commas + 1 } }

/-- A point in a block without commas. -/
def addPoint (s : BraceState) : BraceState :=
  let block := s.block
  match block.parts with
  | .leaf .point before :: others =>
    let text := before ++ ['.']
    if block.parts.length = 3 || block.parts.length = 5 then
      { s with
        block := { block with parts := .leaf .range text :: others, ranges := block.ranges + 1 } }
    else
      { s with block :=
        { block with parts := .leaf .text text :: others, ranges := 0, isInvalid := true } }
  | .leaf .range before :: last :: others =>
    let part : BracePart := .leaf .text (last.source ++ before ++ ['.'])
    { s with block := { block with parts := part :: others, ranges := block.ranges - 1 } }
  | _ => s.add (.leaf .point ['.'])

/-- Undoes the innermost block, which has no end: its leaves are mere texts of
the block around it. -/
def dissolve (s : BraceState) : BraceState :=
  match s.outer with
  | block :: outer =>
    let loose : BracePart → BracePart
      | .leaf _ text => .leaf .text text
      | .block (.group isLost) parts => .block (.group (isLost || !s.block.isGroup)) parts
      | part => part
    { s with block := { block with parts := s.block.parts.map loose ++ block.parts }, outer }
  | [] => s

end BraceState

/-- What stands between square brackets from the first one on, as far as it closes all of them, the
number of brackets that stay open, and the text behind it. -/
def readBracketed (count : Nat) : List Char → List Char × Nat × List Char
  | [] => ([], count, [])
  | '\\' :: c :: rest =>
    let (text, left, behind) := readBracketed count rest
    ('\\' :: c :: text, left, behind)
  | c :: rest =>
    if c = ']' && count ≤ 1 then ([c], 0, rest)
    else
      let next := if c = '[' then count + 1 else if c = ']' then count - 1 else count
      let (text, left, behind) := readBracketed next rest
      (c :: text, left, behind)

/-- What stands between quotation marks of one kind, and the text behind them. -/
def readQuoted (mark : Char) : List Char → List Char × List Char
  | [] => ([], [])
  | '\\' :: c :: rest =>
    let (text, behind) := readQuoted mark rest
    ('\\' :: c :: text, behind)
  | c :: rest =>
    if c = mark then ([], rest)
    else
      let (text, behind) := readQuoted mark rest
      (c :: text, behind)

/-- Reads a text character by character; quotation marks are left out. -/
def readBraces : Nat → BraceState → List Char → BraceState
  | 0, s, _ => s
  | _, s, [] => s
  | fuel + 1, s, c :: rest =>
    if c = '\ufeff' || c = '\u00a0' then readBraces fuel s rest
    else if c = '\\' then
      readBraces fuel (s.addText (c :: rest.take 1)) (rest.drop 1)
    else if c = ']' then readBraces fuel (s.addText ['\\', ']']) rest
    else if c = '[' then
      let (text, brackets, behind) := readBracketed (s.brackets + 1) rest
      readBraces fuel ({ s with brackets }.addText (c :: text)) behind
    else if c = '(' then
      readBraces fuel (s.openBlock ⟨true, false, false, 0, 0, [.leaf .text [c]]⟩) rest
    else if c = ')' then
      readBraces fuel (if s.block.isGroup && !s.outer.isEmpty then (s.addText [c]).closeBlock
        else s.addText [c]) rest
    else if c = '\x22' || c = '\x27' || c = '\x60' then
      let (text, behind) := readQuoted c rest
      readBraces fuel (s.addText text) behind
    else if c = '\x7b' then readBraces fuel s.openBraces rest
    else if c = '\x7d' && !s.block.isGroup then
      readBraces fuel (s.add (.leaf .closing [c])).closeBlock rest
    else if c = ',' && s.inBraces then readBraces fuel s.addComma rest
    else if c = '.' && !s.block.isGroup && s.block.commas = 0 then readBraces fuel s.addPoint rest
    else readBraces fuel (s.addText [c]) rest

/-- The parts of a text. -/
def bracePartsOf (text : List Char) : List BracePart :=
  let s := readBraces text.length .initial text
  (s.outer.foldl (fun s _ => s.dissolve) s).block.parts.reverse

/-! ## Expansion of braces

A text with braces stands for several texts, which are the patterns to search for. What comes behind
a block continues each of its alternatives.
-/

/-- The texts for the alternatives of a block so far, the last alternative first. -/
abbrev Alternatives := List (List (List Char))

/-- Continues the last alternative with each of some texts. -/
def Alternatives.extend (found : Alternatives) (texts : List (List Char)) : Alternatives :=
  match found with
  | [] => [if texts.isEmpty then [[]] else texts]
  | last :: others =>
    (if texts.isEmpty then last else last.flatMap fun text => texts.map (text ++ ·)) :: others

/-- The texts among parts, which are the parts of a range. -/
def textsOf : List BracePart → List (List Char)
  | [] => []
  | .leaf .text text :: rest => text :: textsOf rest
  | _ :: rest => textsOf rest

mutual

/-- Continues alternatives with what a part stands for. -/
def expandPart (found : Alternatives) (part : BracePart) : Except PatternError Alternatives :=
  match part with
  | .leaf _ text => .ok (if text.isEmpty then found else found.extend [text])
  | .block (.group isLost) parts =>
    if isLost then .error .strayGroup else expandParts false 0 found parts
  | .block (.braces isLiteral commas ranges) parts =>
    if isLiteral || parts.length = 2 then .ok (found.extend [sourceOf parts])
    else if 0 < ranges then do
      let texts ← expandRange (textsOf parts)
      return found.extend (if texts.isEmpty then [sourceOf parts] else texts)
    else do
      let texts := (← expandParts true 0 [] parts).reverse.flatten
      return found.extend
        (if commas = 0 then texts.map fun text => '\x7b' :: text ++ ['\x7d'] else texts)

/-- Continues alternatives with what parts stand for; the parts of braces are counted. -/
def expandParts (inBraces : Bool) (count : Nat) (found : Alternatives) (parts : List BracePart) :
    Except PatternError Alternatives :=
  match parts with
  | [] => .ok found
  | .leaf .opening _ :: rest => expandParts inBraces (count + 1) found rest
  | .leaf .closing _ :: rest => expandParts inBraces (count + 1) found rest
  | .leaf .comma text :: rest =>
    if inBraces then
      expandParts inBraces (count + 1) ((if count = 1 then [[[]], [[]]] else [[[]]]) ++ found) rest
    else expandParts inBraces (count + 1) (found.extend [text]) rest
  | part :: rest => do
    let found ← expandPart found part
    expandParts inBraces (count + 1) found rest

end

/-- Whether a text has an opening brace and a closing one behind it. -/
def hasBraces (text : List Char) : Bool :=
  (text.dropWhile (· != '\x7b')).contains '\x7d'

/-- Writes each run of slashes as one slash, except at the beginning. -/
def mergeSlashes : List Char → List Char
  | [] => []
  | c :: rest => c :: go rest
where
  /-- The part behind the first character. -/
  go : List Char → List Char
    | '/' :: '/' :: rest => go ('/' :: rest)
    | c :: rest => c :: go rest
    | [] => []

/-- The texts that a text with braces stands for. An empty one is none. -/
def expandBraces (text : List Char) : Except PatternError (List (List Char)) := do
  let texts ←
    if hasBraces text && 3 ≤ unitLength text then do
      let found ← expandParts false 0 [] (bracePartsOf text)
      pure found.reverse.flatten
    else pure [text]
  return ((texts.eraseDups).filter (!·.isEmpty)).map mergeSlashes

end LineSum.Glob
