import LineSum.Regex.Basic

/-!
# Drafts

A pattern is turned into the text of a regular expression piece by piece. Later characters can
change what earlier pieces say: a second star changes the first one, and a closing bracket the
opening one. So the pieces are kept together with the text that has been written. That text is what
counts, unless a change has made it obsolete; then it is put together anew from the pieces.
-/

namespace LineSum.Glob

/-! ## Phrases of regular expressions -/

/-- A slash. -/
def slashPhrase : List Char := "\\/".toList

/-- A point. -/
def pointPhrase : List Char := "\\.".toList

/-- One character of a name. -/
def anyPhrase : List Char := "[^/]".toList

/-- Characters of a name. -/
def starPhrase : List Char := "[^/]*?".toList

/-- The condition that something follows. -/
def followedPhrase : List Char := "(?=.)".toList

/-- The condition that no step to the same or to the upper directory follows. -/
def noStepPhrase : List Char := "(?!\\.\x7b1,2\x7d(?:\\/|$))".toList

/-- The condition that what follows is not hidden, or is no step if hidden names are wanted. -/
def visiblePhrase (hidden : Bool) : List Char :=
  if hidden then noStepPhrase else "(?!\\.)".toList

/-- Characters of any number of names, none of which is hidden, or none of which is a step if hidden
names are wanted. -/
def namesPhrase (hidden : Bool) : List Char :=
  "(?:(?:(?!(?:^|\\/)".toList ++
    (if hidden then "\\.\x7b1,2\x7d(?:\\/|$)" else "\\.").toList ++ ").)*?)".toList

/-- Whether a character belongs to a word. -/
def isWordChar (c : Char) : Bool := c.isAlphanum || c = '_'

/-- Takes the meaning from the signs of regular expressions in a text. -/
def quoteSigns (text : List Char) : List Char :=
  text.flatMap fun c => if isSign c then ['\\', c] else [c]
where
  /-- Whether a character is a sign of regular expressions. -/
  isSign (c : Char) : Bool := "-*+?.^$\x7b\x7d(|)[]".toList.contains c

/-- Takes the meaning from the last of some characters that has one. -/
def quoteLast (c : Char) (text : List Char) : List Char :=
  (go text.reverse).reverse
where
  /-- The same for a text in reverse, and the first such character. -/
  go : List Char → List Char
    | d :: '\\' :: rest => if d = c then d :: '\\' :: go rest else d :: go ('\\' :: rest)
    | d :: rest => if d = c then d :: '\\' :: rest else d :: go rest
    | [] => []

/-! ## Pieces -/

/-- The kinds of pieces. -/
inductive PieceKind where
  | beginning
  | text
  | bracket
  | paren
  | brace
  | comma
  | slash
  | point
  | points
  | sign
  | star
  | names
  | ending
  deriving DecidableEq, Repr

/-- A piece: its text in the pattern, and what is written for it if that is something else. -/
structure Piece where
  kind : PieceKind
  text : List Char
  phrase : Option (List Char)
  /-- Whether it belongs to a group with a sign before it. -/
  isSigned : Bool
  /-- Whether it is a bracket with the name of a class of characters. -/
  isClass : Bool
  /-- Whether it stands for more than two stars. -/
  isManyStars : Bool
  deriving Repr

namespace Piece

/-- A piece that is written as it is. -/
def plain (kind : PieceKind) (text : List Char) : Piece := ⟨kind, text, none, false, false, false⟩

/-- A piece with something else written for it. -/
def written (kind : PieceKind) (text phrase : List Char) : Piece :=
  ⟨kind, text, some phrase, false, false, false⟩

/-- What is written for a piece. -/
def source (p : Piece) : List Char := p.phrase.getD p.text

/-- Adds to what is written. -/
def extendPhrase (p : Piece) (phrase : List Char) : Piece :=
  { p with phrase := some (p.phrase.getD [] ++ phrase) }

end Piece

/-- What can be open. -/
inductive Enclosure where
  | parens
  | brackets
  | braces
  deriving DecidableEq, Repr

/-- A group with a sign before it that is open: what is written for its end, what it holds, and what
was known when it was opened. -/
structure SignedGroup where
  sign : Char
  closing : List Char
  inner : List Char
  parens : Int
  output : List Char
  /-- The text from the sign on. -/
  source : List Char
  /-- How many pieces there were. -/
  pieces : Nat

/-- A pair of braces that is open: whether a comma or two points were seen, and how much had been
written and how many pieces there were when it was opened. -/
structure BraceGroup where
  hasComma : Bool
  hasPoints : Bool
  output : Nat
  pieces : Nat

/-- A pattern on its way into the text of a regular expression: the characters that are left, the
pieces, the last one first, and the text so far. -/
structure Draft where
  /-- Whether hidden names are wanted. -/
  hidden : Bool
  rest : List Char
  /-- How many characters have been read, the current one not counted. -/
  index : Int
  /-- Where the pattern proper starts. -/
  start : Int
  output : List Char
  last : Piece
  before : List Piece
  isNegated : Bool
  inBrackets : Bool
  inQuotes : Bool
  parens : Int
  braces : List BraceGroup
  groups : List SignedGroup
  enclosures : List Enclosure
  isObsolete : Bool

namespace Draft

/-- The draft of a pattern before its first character. -/
def ofPattern (hidden : Bool) (pattern : List Char) : Draft where
  hidden := hidden
  rest := pattern
  index := -1
  start := 0
  output := []
  last := .written .beginning [] []
  before := []
  isNegated := false
  inBrackets := false
  inQuotes := false
  parens := 0
  braces := []
  groups := []
  enclosures := []
  isObsolete := false

/-- All pieces in their order. -/
def pieces (d : Draft) : List Piece := (d.last :: d.before).reverse

/-- Goes on by a number of characters. -/
def skip (d : Draft) (count : Nat) : Draft :=
  { d with rest := d.rest.drop count, index := d.index + (d.rest.take count).length }

/-- Writes a text that belongs to no piece. -/
def write (d : Draft) (text : List Char) : Draft := { d with output := d.output ++ text }

/-- Takes back as much of the text as is written in another one; to take back nothing takes all. -/
def unwrite (d : Draft) (text : List Char) : Draft :=
  { d with output :=
    if text.isEmpty then [] else d.output.take (d.output.length - text.length) }

/-- Opens something. -/
def enter (d : Draft) (e : Enclosure) : Draft := { d with enclosures := e :: d.enclosures }

/-- Leaves what was opened last. -/
def leave (d : Draft) : Draft := { d with enclosures := d.enclosures.drop 1 }

/-- Two stars with something behind them that is no slash, or the end of a group, are one. -/
def settleNames (d : Draft) (piece : Piece) : Draft :=
  let inBraces := !d.braces.isEmpty && (piece.kind = .comma || piece.kind = .brace)
  if d.last.kind = .names && piece.kind != .slash && piece.kind != .paren && !inBraces &&
      !piece.isSigned then
    let d := d.unwrite d.last.source
    { d with
      last := { d.last with kind := .star, text := ['*'], phrase := some starPhrase } }.write
        starPhrase
  else d

/-- Adds a piece to what the innermost group with a sign holds. -/
def noteInner (d : Draft) (piece : Piece) : Draft :=
  match d.groups with
  | group :: groups =>
    if piece.kind = .paren then d
    else { d with groups := { group with inner := group.inner ++ piece.text } :: groups }
  | [] => d

/-- Adds a piece; texts that follow each other become one. -/
def push (d : Draft) (piece : Piece) : Draft :=
  let d := ((d.settleNames piece).noteInner piece).write piece.source
  if d.last.kind = .text && piece.kind = .text then
    { d with last := { d.last.extendPhrase piece.text with text := d.last.text ++ piece.text } }
  else { d with last := piece, before := d.last :: d.before }

/-- Adds a text. -/
def pushText (d : Draft) (text : List Char) : Draft := d.push (.plain .text text)

/-- Adds characters to the last piece. -/
def extendLast (d : Draft) (text : List Char) : Draft :=
  { d with last := { d.last with text := d.last.text ++ text } }.write text

/-- The text of the regular expression, put together anew if it is obsolete. -/
def result (d : Draft) : List Char :=
  if d.isObsolete then d.pieces.flatMap Piece.source else d.output

end Draft

end LineSum.Glob
