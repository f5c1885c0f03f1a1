import LineSum.Text.Basic
import LineSum.Yaml.Problem

/-!
# The layout of lines

Where the pieces of a line and of scalars begin and end.
-/

namespace LineSum.Yaml

/-! ## Starts of lines

Where a scalar ends depends on the indentation around it, so the cutting of a text keeps track of
the layout of the current line: what stands at its start, and the indicators, tags and anchors that
may follow.
-/

/-! ### Characters -/

/-- Whether a character is white space or a line end. -/
def isWhite (c : Char) : Bool :=
  c = ' ' || c = '\n' || c = '\r' || c = '\t'

/-- Whether a text is at its end or before white space or a line end. -/
def atWhite : List Char → Bool
  | [] => true
  | c :: _ => isWhite c

/-- Whether a character has a meaning inside flow collections. -/
def isFlowIndicator (c : Char) : Bool :=
  c = ',' || c = '[' || c = ']' || c = '{' || c = '}'

/-- Whether a text is before a character that has a meaning inside flow collections. -/
def atFlowIndicator : List Char → Bool
  | [] => false
  | c :: _ => isFlowIndicator c

/-- Whether a character may be part of the name of an anchor. -/
def isAnchorChar (c : Char) : Bool :=
  !isWhite c && !isFlowIndicator c

/-- Whether a character may stand in a tag as it is. -/
def isTagChar (c : Char) : Bool :=
  c.isAlphanum || "-#;/?:@&=+$_.!~*'()".toList.contains c

/-- Whether a text is at the end of a line or of everything. -/
def atLineEnd : List Char → Bool
  | [] => true
  | '\n' :: _ => true
  | '\r' :: '\n' :: _ => true
  | _ => false

/-- Whether a document marker stands at the front of a text. -/
def atMarker : List Char → Bool
  | '-' :: '-' :: '-' :: rest => atWhite rest
  | '.' :: '.' :: '.' :: rest => atWhite rest
  | _ => false

/-- What stands on the rest of the current line. Only a carriage return before a newline belongs to
the line end. -/
def restOfLine (rest : List Char) : List Char :=
  let line := rest.takeWhile (· != '\n')
  if line.length < rest.length && line.getLast? = some '\r' then line.dropLast else line

/-! ### Layout -/

/-- Where the cutting stands: the least indentation of what continues a scalar, the indentation of
the line so far, how deep in flow collections it is, and whether the last lexeme was the end of a
key that may be followed by a colon at once. -/
structure Layout where
  indentNext : Nat
  indentValue : Nat
  flowLevel : Nat
  flowKey : Bool
  deriving DecidableEq, Repr

/-- The parts of a text between which the cutting goes back and forth. -/
inductive Mode where
  | stream
  | doc
  | flow
  deriving DecidableEq, Repr

/-- The result of cutting off some lexemes. -/
structure Cut where
  lexemes : List Lexeme
  rest : List Char
  layout : Layout
  mode : Mode

/-- Whether a scalar goes on with the line that starts here: the line is blank, or indented enough;
at the left margin it must not be a document marker. -/
def continuesScalar (indentNext : Nat) (line : List Char) : Bool :=
  if indentNext = 0 then !atMarker line
  else
    let indent := (line.takeWhile (· = ' ')).length
    match line.drop indent with
    | '\r' :: '\n' :: _ => true
    | '\n' :: _ => true
    | _ => indentNext ≤ indent

/-- A lexeme for a stretch of text, unless it is empty. -/
def textLexeme (text : List Char) : List Lexeme :=
  if text.isEmpty then [] else [.text text]

/-- Cuts off spaces, and tabs if they are allowed. -/
def cutSpaces (tabs : Bool) (rest : List Char) : List Char × List Char :=
  rest.span fun c => c = ' ' || (tabs && c = '\t')

/-- Cuts off a line end. -/
def cutNewline : List Char → List Char × List Char
  | '\n' :: rest => (['\n'], rest)
  | '\r' :: '\n' :: rest => (['\r', '\n'], rest)
  | rest => ([], rest)

/-- Cuts off a tag, the first character of which has been seen. -/
def cutTag (rest : List Char) : List Char × List Char :=
  match rest with
  | '!' :: '<' :: more =>
    let (name, after) := more.span fun c => !isWhite c && c != '>'
    match after with
    | '>' :: after => ('!' :: '<' :: name ++ ['>'], after)
    | _ => ('!' :: '<' :: name, after)
  | '!' :: more =>
    let name := suffix more
    ('!' :: name, more.drop name.length)
  | _ => ([], rest)
where
  /-- The characters of a tag behind its first one. -/
  suffix : List Char → List Char
    | '%' :: a :: b :: rest =>
      if isHexDigit a && isHexDigit b then '%' :: a :: b :: suffix rest else []
    | c :: rest => if isTagChar c then c :: suffix rest else []
    | [] => []

/-- Cuts off one indicator with the spaces behind it: a tag, an anchor, or a sign that stands before
white space. -/
def cutIndicator? (layout : Layout) (rest : List Char) :
    Option (List Lexeme × List Char × Layout) :=
  match rest with
  | '!' :: _ =>
    let (tag, rest) := cutTag rest
    let (spaces, rest) := cutSpaces true rest
    some (textLexeme tag ++ textLexeme spaces, rest, layout)
  | '&' :: more =>
    let (name, rest) := more.span isAnchorChar
    let (spaces, rest) := cutSpaces true rest
    some (.text ('&' :: name) :: textLexeme spaces, rest, layout)
  | c :: more =>
    if c = '-' || c = '?' || c = ':' then
      let inFlow := 0 < layout.flowLevel
      if atWhite more || (inFlow && atFlowIndicator more) then
        let layout :=
          if inFlow then { layout with flowKey := false }
          else { layout with indentNext := layout.indentValue + 1 }
        let (spaces, rest) := cutSpaces true more
        some (.text [c] :: textLexeme spaces, rest, layout)
      else none
    else none
  | [] => none

/-- Cuts off indicators as long as there are any. -/
def cutIndicators (layout : Layout) (rest : List Char) : List Lexeme × List Char × Layout :=
  match cutIndicator? layout rest with
  | none => ([], rest, layout)
  | some (lexemes, rest', layout') =>
    if rest'.length < rest.length then
      let (more, rest'', layout'') := cutIndicators layout' rest'
      (lexemes ++ more, rest'', layout'')
    else
      (lexemes, rest', layout')
termination_by rest.length

/-! ### Lines -/

/-- Cuts off the indicators that open block collections on the rest of a line. Each one moves the
indentation to what stands behind it. -/
def cutBlockStart (layout : Layout) (rest : List Char) : List Lexeme × List Char × Layout :=
  match rest with
  | [] => ([], [], layout)
  | c :: more =>
    if (c = '-' || c = '?' || c = ':') && atWhite more then
      let spaces := more.takeWhile fun d => d = ' ' || d = '\t'
      let layout := { layout with
        indentNext := layout.indentValue + 1
        indentValue := layout.indentValue + 1 + spaces.length }
      let (lexemes, rest', layout') :=
        cutBlockStart layout (more.dropWhile fun d => d = ' ' || d = '\t')
      (.text [c] :: textLexeme spaces ++ lexemes, rest', layout')
    else
      ([], rest, layout)
termination_by rest.length
decreasing_by
  have := (List.dropWhile_suffix (l := more) fun d => d = ' ' || d = '\t').length_le
  simp only [List.length_cons]
  omega

/-- Cuts off what stands at the start of a line: a document marker, or the indentation and the
indicators that open block collections. -/
def cutLineStart (layout : Layout) (rest : List Char) : Cut :=
  if atMarker rest then
    let marker := rest.take 3
    ⟨[.text marker], rest.drop 3, { layout with indentValue := 0, indentNext := 0 },
      if marker.head? = some '-' then .doc else .stream⟩
  else
    let (spaces, rest) := cutSpaces false rest
    let layout := { layout with indentValue := spaces.length }
    let layout :=
      if layout.indentValue < layout.indentNext && !atWhite (rest.drop 1) then
        { layout with indentNext := layout.indentValue }
      else layout
    let (lexemes, rest, layout) := cutBlockStart layout rest
    ⟨textLexeme spaces ++ lexemes, rest, layout, .doc⟩

/-- Puts lexemes before those of a cut. -/
def Cut.after (lexemes : List Lexeme) (cut : Cut) : Cut :=
  { cut with lexemes := lexemes ++ cut.lexemes }

/-! ## The extent of scalars

How many characters at the front of a text belong to the scalar that starts there. Quoted scalars
reach to their closing quote, plain ones up to what ends them, and block scalars to the last line
that is indented enough; all of them end before a line that is not indented enough.
-/

/-- How many characters there are up to and with the closing quote, behind the opening one. A quote
is written in single quotes by doubling it, and in double quotes behind a backslash. -/
def closingQuote? (quote : Char) : List Char → Option Nat
  | [] => none
  | c :: rest =>
    if c = '\\' && quote = '\x22' then
      match rest with
      | [] => none
      | _ :: rest => (closingQuote? quote rest).map (· + 2)
    else if c = quote then
      match rest with
      | d :: rest =>
        if quote = '\x27' && d = '\x27' then (closingQuote? quote rest).map (· + 2) else some 1
      | [] => some 1
    else (closingQuote? quote rest).map (· + 1)

/-- The first line end within the next `limit` characters behind which a scalar does not go on: how
many characters stand before it, not counting its carriage return. -/
def breakBefore? (indentNext : Nat) (count : Nat) (afterReturn : Bool) :
    Nat → List Char → Option Nat
  | 0, _ => none
  | _, [] => none
  | limit + 1, c :: rest =>
    if c = '\n' && !continuesScalar indentNext rest then
      some (if afterReturn then count - 1 else count)
    else breakBefore? indentNext (count + 1) (c = '\r') limit rest

/-- The length of the quoted scalar at the front of a text. Without a closing quote it goes on to
the end of the text; it is cut short by a line that is not indented enough. -/
def quotedLength (indentNext : Nat) : List Char → Nat
  | [] => 0
  | quote :: rest =>
    match closingQuote? quote rest with
    | none => rest.length + 1
    | some n => ((breakBefore? indentNext 1 false (n - 1) rest)).getD (n + 1)

/-- How many characters of a text belong to the plain scalar at its front. `count` characters have
been passed and the scalar reaches at least to `last`. -/
def plainLength (inFlow : Bool) (indentNext : Nat) (count last : Nat) : List Char → Nat
  | [] => last
  | '\r' :: '\n' :: rest => atBreak rest (count + 2)
  | c :: rest =>
    if c = '\n' then atBreak rest (count + 1)
    else if c = ':' then
      if atWhite rest || (inFlow && atFlowIndicator rest) then last
      else plainLength inFlow indentNext (count + 1) (count + 1) rest
    else if isWhite c then
      let last := if c = '\r' then count + 1 else last
      if rest.head? = some '#' || (inFlow && atFlowIndicator rest) then last
      else plainLength inFlow indentNext (count + 1) last rest
    else if inFlow && isFlowIndicator c then last
    else plainLength inFlow indentNext (count + 1) (count + 1) rest
where
  /-- Goes on behind a line end. -/
  atBreak (rest : List Char) (count : Nat) : Nat :=
    if rest.head? = some '#' || (inFlow && atFlowIndicator rest) then last
    else if continuesScalar indentNext rest then plainLength inFlow indentNext count last rest
    else last

/-- What the header of a block scalar says: an explicit indentation, less one, and whether all line
ends are kept. -/
def readBlockHeader (keep : Bool) (indent : Option Nat) : List Char → Option Nat × Bool
  | [] => (indent, keep)
  | c :: rest =>
    if c = '+' then readBlockHeader true indent rest
    else if '1' ≤ c && c ≤ '9' then
      readBlockHeader keep (some (c.toNat - '0'.toNat - 1)) rest
    else if c = '-' then readBlockHeader keep indent rest
    else (indent, keep)

/-- The start and the indentation of the first line that is not blank, `count` characters having
been passed. -/
def firstContentLine (count start indent : Nat) : List Char → Nat × Nat
  | [] => (start, indent)
  | ' ' :: rest => firstContentLine (count + 1) start (indent + 1) rest
  | '\n' :: rest => firstContentLine (count + 1) (count + 1) 0 rest
  | '\r' :: '\n' :: rest => firstContentLine (count + 2) (count + 2) 0 rest
  | _ => (start, indent)

/-- Where the lines that belong to a block scalar end, the first of them starting at `start`. A last
line without a line end counts as if it had one. -/
def contentEnd (indentNext start : Nat) (lines : List Char) : Nat :=
  if continuesScalar indentNext lines then
    let line := lines.takeWhile (· != '\n')
    match lines.drop line.length with
    | [] => start + line.length + 1
    | _ :: rest =>
      if rest.length < lines.length then contentEnd indentNext (start + line.length + 1) rest
      else start
  else start
termination_by lines.length

/-- Leaves out the blank lines at the end of a block scalar that are not indented more than its
first line. `stop` is where the next line would start. -/
def dropBlankLines (text : Array Char) (indent : Nat) : Nat → Nat → Nat
  | 0, stop => stop
  | fuel + 1, stop =>
    -- the line before the last line end, without its carriage return
    if stop < 2 then stop
    else
      let last := stop - 2
      let last? := if text[last]? = some '\r' then (if last = 0 then none else some (last - 1))
        else some last
      match last? with
      | none => stop
      | some last =>
        let spaces := ((text.toList.take (last + 1)).reverse.takeWhile (· = ' ')).length
        if spaces ≤ last && text[last - spaces]? = some '\n' && last < last - spaces + 1 + indent
        then dropBlankLines text indent fuel (last - spaces + 1)
        else stop

/-- The length of the block scalar at the front of a text, and the indentation that its lines have
at least. Blank lines at the end belong to it only if all line ends are kept, or if tabs stand
there, which are not allowed and have to be noticed. -/
def blockLength (indentNext : Nat) (explicit : Option Nat) (keep : Bool) (rest : List Char) :
    Nat × Nat :=
  let (start, indent) := firstContentLine 0 0 0 rest
  let (indentNext, stop) :=
    if indentNext ≤ indent then
      let indentNext :=
        match explicit with
        | none => indent
        | some n => n + (if indentNext = 0 then 1 else indentNext)
      (indentNext, contentEnd indentNext start (rest.drop start))
    else (indentNext, start)
  let tail := (rest.drop stop).dropWhile (· = ' ')
  if tail.head? = some '\t' then
    (rest.length - (tail.dropWhile isWhite).length, indentNext)
  else if keep then (stop, indentNext)
  else (dropBlankLines rest.toArray indent (rest.length + 1) stop, indentNext)

end LineSum.Yaml
