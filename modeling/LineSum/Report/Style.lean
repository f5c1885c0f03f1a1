/-!
# Styled text

A line of output is made of pieces, some of which have a style. With colours on, a piece is put
between the codes that switch its style on and off; with colours off only the text is left.
-/

namespace LineSum

/-- The styles of a terminal that are used. -/
inductive Style where
  | red
  | green
  | yellow
  | cyan
  | bold
  | dim
  | greenBold
  deriving DecidableEq, Repr

namespace Style

/-- The character that begins a code. -/
def escape : Char := '\x1b'

/-- The code that selects a rendition. -/
def select (n : Nat) : List Char :=
  escape :: '[' :: (toString n).toList ++ ['m']

/-- The code that switches the style on. -/
def start : Style → List Char
  | red => select 31
  | green => select 32
  | yellow => select 33
  | cyan => select 36
  | bold => select 1
  | dim => select 2
  | greenBold => select 32 ++ select 1

/-- The code that switches the style off. -/
def stop : Style → List Char
  | red => select 39
  | green => select 39
  | yellow => select 39
  | cyan => select 39
  | bold => select 22
  | dim => select 22
  | greenBold => select 22 ++ select 39

/-- Puts `new` in the place of every occurrence of `old`, from left to right. -/
def replaceAll (old new : List Char) (text : List Char) : List Char :=
  match text with
  | [] => []
  | c :: rest =>
    if old.isEmpty then c :: replaceAll old new rest
    else if old.isPrefixOf (c :: rest) then
      new ++ replaceAll old new ((c :: rest).drop (max 1 old.length))
    else c :: replaceAll old new rest
termination_by text.length
decreasing_by
  all_goals simp only [List.length_cons, List.length_drop]; omega

/-- Switches a style off before each line end and on again behind it. -/
def aroundLineEnds (start stop : List Char) : List Char → List Char
  | [] => []
  | '\r' :: '\n' :: rest => stop ++ '\r' :: '\n' :: start ++ aroundLineEnds start stop rest
  | '\n' :: rest => stop ++ '\n' :: start ++ aroundLineEnds start stop rest
  | c :: rest => c :: aroundLineEnds start stop rest

/-- Text in a style. Where the text itself switches the style off, it goes on. -/
def paint (style : Style) (text : List Char) : List Char :=
  if text.isEmpty then []
  else
    let inner := if text.contains escape then replaceAll style.stop style.start text else text
    style.start ++ aroundLineEnds style.start style.stop inner ++ style.stop

end Style

/-- A piece of text and its style, if it has one. -/
structure Piece where
  style : Option Style
  text : String
  deriving DecidableEq, Repr

namespace Piece

/-- Text without a style. -/
def plain (text : String) : Piece := ⟨none, text⟩

/-- Text in a style. -/
def styled (style : Style) (text : String) : Piece := ⟨some style, text⟩

/-- The characters of a piece, with or without colours. -/
def render (colored : Bool) (piece : Piece) : List Char :=
  match piece.style with
  | some style => if colored then style.paint piece.text.toList else piece.text.toList
  | none => piece.text.toList

end Piece

/-- One line of output; the text of its pieces may hold line ends of its own. -/
abbrev Line := List Piece

namespace Line

/-- A line of one piece without a style. -/
def plain (text : String) : Line := [.plain text]

/-- The empty line. -/
def blank : Line := []

/-- The characters of a line and its end. -/
def render (colored : Bool) (line : Line) : List Char :=
  line.flatMap (Piece.render colored) ++ ['\n']

end Line

/-- The text of several lines. -/
def renderLines (colored : Bool) (lines : List Line) : String :=
  String.ofList (lines.flatMap (Line.render colored))

end LineSum
