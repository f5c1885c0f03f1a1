import LineSum.Yaml.Scalar.Inline

/-!
# Block scalars

A block scalar is a header and the indented lines below it. Its text is what the lines hold beyond
their indentation; the header says whether the lines are folded, how far they are indented and what
happens to the line ends at the end.
-/

namespace LineSum.Yaml

/-- How the line ends at the end of a block scalar are treated. -/
inductive Chomp where
  /-- One line end is kept. -/
  | clip
  /-- No line end is kept. -/
  | strip
  /-- All line ends are kept. -/
  | keep
  deriving DecidableEq, Repr

/-- The header of a block scalar: whether lines are folded, the explicit indentation or
zero, and what happens to the line ends at the end; and how many units the header takes with
what stands behind it. -/
structure BlockHeader where
  folded : Bool
  indent : Nat
  chomp : Chomp
  size : Nat
  deriving DecidableEq, Repr

/-- Reads the characters of a header behind the first one. The last component is the place of the
first character that has no meaning there. -/
def readHeaderChars (offset : Nat) (indent : Nat) (chomp : Chomp) (bad : Option Nat) :
    List Char → Nat × Chomp × Option Nat
  | [] => (indent, chomp, bad)
  | c :: rest =>
    let next := offset + unitSize c
    if chomp = .clip && c = '-' then readHeaderChars next indent .strip bad rest
    else if chomp = .clip && c = '+' then readHeaderChars next indent .keep bad rest
    else if indent = 0 && '1' ≤ c && c ≤ '9' then
      readHeaderChars next (c.toNat - '0'.toNat) chomp bad rest
    else readHeaderChars next indent chomp (bad.or (some offset)) rest

/-- Reads what stands behind a header up to its line end. -/
def headerTail (hasSpace : Bool) : List Token → List Report
  | [] => []
  | t :: rest =>
    match t.kind with
    | .space => headerTail true rest
    | .newline => headerTail hasSpace rest
    | .comment =>
      if hasSpace then headerTail hasSpace rest
      else .atToken t .commentWithoutSpace :: headerTail hasSpace rest
    | .error => .atToken t (.notAToken t.chars) :: headerTail hasSpace rest
    | kind => .atToken t (.strayInHeader kind) :: headerTail hasSpace rest

/-- Reads the header of a block scalar that starts at an offset. -/
def readHeader (offset : Nat) (header : List Token) : Reported BlockHeader :=
  match header with
  | [] => ⟨⟨false, 0, .clip, 0⟩, []⟩
  | first :: rest =>
    let (indent, chomp, bad) := readHeaderChars (offset + 1) 0 .clip none (first.chars.drop 1)
    let size := unitLength first.chars + totalSize (rest.map Token.size)
    ⟨⟨first.chars.head? = some '>', indent, chomp, size⟩,
      (bad.toList.map fun place =>
        .atPlace place (.blockHeader (String.ofList first.chars))) ++ headerTail false rest⟩

/-- A line of a block scalar: how many spaces it starts with, and what follows them. -/
structure BlockLine where
  indent : Nat
  content : List Char
  deriving DecidableEq, Repr

namespace BlockLine

/-- The line with the given characters. -/
def ofChars (line : List Char) : BlockLine :=
  let indent := (line.takeWhile (· = ' ')).length
  ⟨indent, line.drop indent⟩

/-- Whether nothing but spaces and the end of the line are there. -/
def isBlank (line : BlockLine) : Bool :=
  line.content.isEmpty || line.content = ['\r']

/-- The number of units of the line with its line end. -/
def size (line : BlockLine) : Nat :=
  line.indent + unitLength line.content + 1

/-- The spaces beyond an indentation. -/
def extra (line : BlockLine) (trim : Nat) : List Char :=
  List.replicate (line.indent - trim) ' '

/-- The content without a carriage return. -/
def body (line : BlockLine) : List Char :=
  if line.content.getLast? = some '\r' then line.content.dropLast else line.content

end BlockLine

/-- Finds the first line with content, and with it the indentation of the scalar: the explicit one,
or else that of the first line with content, or of a longer blank line before it. -/
def findContent (explicit atRoot : Bool) (offset trim : Nat) (passed : Nat) :
    List BlockLine → Nat × Nat × Nat × List Report
  | [] => (0, trim, offset, [])
  | line :: rest =>
    if line.isBlank then
      let trim := if !explicit && trim < line.indent then line.indent else trim
      findContent explicit atRoot (offset + line.size) trim (passed + 1) rest
    else
      let less := if line.indent < trim then
        [Report.atPlace (offset + line.indent) .blockLeadingLines] else []
      let trim := if explicit then trim else line.indent
      let margin := if trim = 0 && !atRoot then [Report.atPlace offset .blockNotIndented] else []
      (passed, trim, offset, less ++ margin)

/-- Joins the lines of a block scalar. `pending` are the line ends that are due before the next
line, and `moreIndented` tells whether the line before was indented further than the scalar. -/
def joinLines (folded explicit : Bool) (trim : Nat) (offset : Nat) (pending : List Char)
    (moreIndented : Bool) : List BlockLine → Reported (List Char)
  | [] => ⟨[], []⟩
  | line :: rest =>
    let offset := offset + line.size
    let content := line.body
    let crlf := line.content.length != content.length
    let less := !content.isEmpty && line.indent < trim
    let reports := if less then
      [Report.atPlace (offset - unitLength content - (if crlf then 2 else 1))
        (.blockLessIndented explicit)] else []
    let goOn (pending : List Char) (moreIndented : Bool) (text : List Char) :
        Reported (List Char) :=
      let next := joinLines folded explicit trim offset pending moreIndented rest
      ⟨text ++ next.value, reports ++ next.reports⟩
    let indent := if less then 0 else line.indent
    if !folded then goOn ['\n'] moreIndented (pending ++ line.extra trim ++ content)
    else if trim < indent || content.head? = some '\t' then
      let pending :=
        if pending = [' '] then ['\n']
        else if !moreIndented && pending = ['\n'] then ['\n', '\n']
        else pending
      goOn ['\n'] true (pending ++ line.extra trim ++ content)
    else if content.isEmpty then
      if pending = ['\n'] then goOn pending moreIndented ['\n']
      else goOn ['\n'] moreIndented []
    else goOn [' '] false (pending ++ content)

/-- The text of a block scalar. -/
structure BlockText where
  folded : Bool
  text : List Char
  /-- The offset behind the scalar. -/
  stop : Nat

/-- Reads a block scalar. `atRoot` tells whether the scalar is the whole document. -/
def readBlock (atRoot : Bool) (offset indent : Nat) (header : List Token) (source : List Char) :
    Reported BlockText :=
  let ⟨head, headReports⟩ := readHeader offset header
  let lines := if source.isEmpty then [] else (linesOf source).map BlockLine.ofChars
  let stop := offset + head.size + unitLength source
  let contentCount := lines.length - (lines.reverse.takeWhile BlockLine.isBlank).length
  if contentCount = 0 then
    let text := if head.chomp = .keep && !lines.isEmpty then
      List.replicate (max 1 (lines.length - 1)) '\n' else []
    ⟨⟨head.folded, text, stop⟩, headReports⟩
  else
    let explicit := head.indent != 0
    let (contentStart, trim, contentOffset, findReports) :=
      findContent explicit atRoot (offset + head.size) (indent + head.indent) 0
        (lines.take contentCount)
    -- blank lines at the end that are indented further are content
    let tail := lines.drop contentCount
    let kept := tail.length - (tail.reverse.takeWhile fun l => l.indent ≤ trim).length
    let contentCount := contentCount + kept
    let leading := (lines.take contentStart).flatMap fun l => l.extra trim ++ ['\n']
    let body := joinLines head.folded explicit trim contentOffset [] false
      ((lines.take contentCount).drop contentStart)
    let text := leading ++ body.value
    let text :=
      match head.chomp with
      | .strip => text
      | .clip => text ++ ['\n']
      | .keep =>
        let all := text ++ (lines.drop contentCount).flatMap fun l => '\n' :: l.extra trim
        if all.getLast? = some '\n' then all else all ++ ['\n']
    ⟨⟨head.folded, text, stop⟩, headReports ++ findReports ++ body.reports⟩

end LineSum.Yaml
