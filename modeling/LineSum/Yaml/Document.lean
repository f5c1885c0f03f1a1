import LineSum.Diagnostic
import LineSum.Text.Basic
import LineSum.Text.Units
import LineSum.Yaml.Nesting
import LineSum.Yaml.Node.OfTree

/-!
# Documents

A document is read from its text, with reports that show a part of it.
-/

namespace LineSum.Yaml

/-! ## Excerpts

An excerpt shows the line of a text in which a stretch begins, with carets below the stretch. Lines
that are too long are cut, and a line that is only indentation up to the stretch is shown together
with the line before it.
-/

/-- The widest line of an excerpt. -/
def excerptWidth : Nat := 80

/-- The sign for what has been cut off. -/
def cutMark : Char := '…'

/-- The units of a text between two offsets. -/
def slice (text : List Char) (first last : Nat) : List Char :=
  takeUnits (last - first) (dropUnits first text)

/-- A line of a text, counted from one, with its line end. -/
def lineWithEnd (text : List Char) (starts : LineStarts) (line : Nat) : List Char :=
  let first := starts.getD (line - 1) 0
  slice text first (starts.getD line (unitLength text))

/-- A line without the newlines and carriage returns at its end. -/
def dropLineEnd (line : List Char) : List Char :=
  (line.reverse.dropWhile fun c => c = '\n' || c = '\r').reverse

/-- Cuts the end off a line that is too long, and puts something behind the cut. -/
def cutEnd (line : List Char) (behind : List Char) : List Char :=
  if excerptWidth < unitLength line then takeUnits (excerptWidth - 1) line ++ cutMark :: behind
  else line

/-- Cuts the beginning off a line that is too long if the column lies far to the right, so that the
column comes near the middle. The second component is the column in what is left. -/
def cutStart (line : List Char) (column : Nat) : List Char × Nat :=
  if 60 ≤ column && excerptWidth < unitLength line then
    let cut := min (column - 39) (unitLength line - (excerptWidth - 1))
    (cutMark :: dropUnits cut line, column + 1 - cut)
  else (line, column)

/-- The excerpt for the range of a stretch: what is shown of the text, and the carets below it.
There is none if nothing but spaces would be shown. -/
def excerpt? (text : List Char) (starts : LineStarts) (range : Range) : Option String :=
  let line := range.start.line.toNat
  let width := (range.stop.col - range.start.col).toNat
  let (shown, column) := cutStart (dropLineEnd (lineWithEnd text starts line))
    (range.start.col - 1).toNat
  let shown := cutEnd shown []
  let before :=
    if 1 < line && (takeUnits column shown).all (· = ' ') then
      cutEnd (lineWithEnd text starts (line - 1)) ['\n']
    else []
  let shown := before ++ shown
  if shown.all (· = ' ') then none
  else
    let carets := if range.stop.line = range.start.line then
      max 1 (min width (excerptWidth - column)) else 1
    some (String.ofList (shown ++ '\n' :: List.replicate column ' ' ++ List.replicate carets '^' ++
      ['\n']))

/-! ## Documents

A text should hold one document. Its node is read with the shorthands for tags that the directives
before it declare, and everything that breaks the rules is reported with the document. A second
document is a problem of the first one, and what comes behind it is not looked at.
-/

/-- What the directives before a document declare: the version of the rules and
shorthands for tags. -/
structure Directives where
  version : Version
  tags : TagHandles

/-- What holds without directives. -/
def Directives.default : Directives := ⟨.core, .core⟩

/-- A document that has been read: what was declared for it, its node, where its content ends, and
what is wrong with it. -/
structure DocumentRead where
  directives : Directives
  root : Option Node
  span : Span
  reports : List Report

namespace DocumentRead

/-- Adds reports. -/
def report (d : DocumentRead) (reports : List Report) : DocumentRead :=
  { d with reports := d.reports ++ reports }

/-- Reads a document. -/
def ofTree (directives : Directives) (tree : DocumentTree) : DocumentRead × Bool :=
  let following := (tree.value.map Following.tree).or (tree.after.head?.map .token)
  let ⟨row, rowReports⟩ := readRow
    ⟨none, .docStart, following, tree.offset, 0, true⟩ tree.start
  let onMarkerLine :=
    if row.found.isSome && !row.hasNewline && tree.value.any Tree.isBlockCollection then
      [Report.atPlace row.stop .blockOnMarkerLine]
    else []
  let context : NodeContext := ⟨directives.version, directives.tags, true, false⟩
  let node :=
    match tree.value with
    | some value => nodeOfTree context row value
    | none => emptyNode context (emptyPlace row.stop tree.start) row
  let behind := readEnd false node.value.stop tree.after
  (⟨directives, node.value.node, ⟨tree.offset, node.value.stop⟩,
      rowReports ++ onMarkerLine ++ node.reports ++ behind.reports⟩,
    row.found.isSome)

end DocumentRead

/-! ### Directives -/

/-- The words of a line. -/
def wordsOf (line : List Char) : List (List Char) :=
  match line with
  | [] => []
  | c :: rest =>
    if isSpace c then wordsOf rest
    else
      (c :: rest.takeWhile (!isSpace ·)) :: wordsOf (rest.dropWhile (!isSpace ·))
termination_by line.length
decreasing_by
  · simp
  · have := (List.dropWhile_suffix (l := rest) (!isSpace ·)).length_le
    simp only [List.length_cons]
    omega

/-- Whether a version is written as two numbers with a point between them. -/
def isVersion (word : List Char) : Bool :=
  let major := word.takeWhile isDecimal
  match word.drop major.length with
  | '.' :: minor => !major.isEmpty && !minor.isEmpty && minor.all isDecimal
  | _ => false

/-- What follows from a directive and those before it. Directives that are not
known declare nothing. -/
def Directives.add (d : Directives) (offset : Nat) (chars : List Char) : Reported Directives :=
  let span : Span := ⟨offset, offset + unitLength chars⟩
  match (wordsOf (trimBlank chars)).map String.ofList with
  | "%TAG" :: parts =>
    match parts with
    | [handle, meaning] => ⟨{ d with tags := d.tags.declare handle meaning }, []⟩
    | handle :: meaning :: _ =>
      ⟨{ d with tags := d.tags.declare handle meaning }, [⟨.tagDirectiveParts, span⟩]⟩
    | _ => ⟨d, [⟨.tagDirectiveParts, span⟩]⟩
  | "%YAML" :: parts =>
    match parts with
    | [number] =>
      match Version.ofText? number with
      | some version => ⟨{ d with version }, []⟩
      | none =>
        ⟨d, if isVersion number.toList then []
          else [⟨.unsupportedVersion number, ⟨span.first + 6, span.last⟩⟩]⟩
    | _ => ⟨d, [⟨.versionDirectiveParts, span⟩]⟩
  | _ => ⟨d, []⟩

/-! ### The parts of a text -/

/-- What has been read of a text: what is declared for the next document, whether directives wait
for it, reports that belong to it, and the documents. -/
structure TextState where
  directives : Directives
  atDirectives : Bool
  waiting : List Report
  first : Option DocumentRead
  current : Option DocumentRead

namespace TextState

/-- The state before the first part. -/
def initial : TextState := ⟨.default, false, [], none, none⟩

/-- Whether two documents have been finished, so that nothing else counts. -/
def isDone (s : TextState) : Bool :=
  s.first.any fun d => d.reports.any (·.problem = .severalDocuments)

/-- Finishes the current document; if it is the second one, it is reported with the first one. -/
def finish (s : TextState) : TextState :=
  match s.first, s.current with
  | none, current => { s with first := current, current := none }
  | some first, some second =>
    { s with first := some (first.report [⟨.severalDocuments, second.span⟩]), current := none }
  | some _, none => s

/-- Reads the next part. -/
def next (s : TextState) (part : Part) : TextState :=
  if s.isDone then s
  else
    match part with
    | .directive offset chars =>
      let directive := s.directives.add offset chars
      { s with
        directives := directive.value
        atDirectives := true
        waiting := s.waiting ++ directive.reports }
    | .document tree =>
      let (document, marked) := DocumentRead.ofTree s.directives tree
      let missing :=
        if s.atDirectives && !marked then [Report.atPlace tree.offset .missingDocumentStart] else []
      { s.finish with
        directives := .default
        atDirectives := false
        waiting := []
        current := some { document with reports := s.waiting ++ document.reports ++ missing } }
    | .documentEnd offset chars after =>
      match s.current with
      | none =>
        { s with waiting := s.waiting ++
          [⟨.strayDocumentEnd, ⟨offset, offset + unitLength chars⟩⟩] }
      | some document =>
        let behind := readEnd true (offset + unitLength chars) after
        { s with
          waiting := []
          current := some (document.report (s.waiting ++ behind.reports)) }
    | .stray offset problem chars =>
      let stray : Report := ⟨problem, ⟨offset, offset + unitLength chars⟩⟩
      match s.current with
      | some document =>
        if s.atDirectives then { s with waiting := s.waiting ++ [stray] }
        else { s with current := some (document.report [stray]) }
      | none => { s with waiting := s.waiting ++ [stray] }

/-- What is known at the end of a text of the given length. -/
def result (s : TextState) (size : Nat) : DocumentRead :=
  if s.isDone then s.first.getD ⟨.default, none, ⟨0, 0⟩, []⟩
  else
    match s.first, s.current with
    | some first, some second => first.report [⟨.severalDocuments, second.span⟩]
    | none, some only => only.report s.waiting
    | first, none =>
      let missing := if s.atDirectives then [Report.atPlace size .missingDirectivesEnd] else []
      first.getD ⟨s.directives, none, ⟨0, size⟩, s.waiting ++ missing⟩

end TextState

/-- The document of a text: what was declared for it, its node, the starts of the lines, and what is
wrong. A text without content has no node. -/
structure Document where
  directives : Directives
  root : Option Node
  starts : LineStarts
  reports : List Report

namespace Document

/-- Reads the document of a text. -/
def ofText (text : List Char) : Document :=
  let (parts, starts) := Nest.ofText text
  let read := (parts.foldl TextState.next .initial).result (unitLength text)
  ⟨read.directives, read.root, starts, read.reports⟩

/-- The sentence that reports a problem: what is wrong, where, and an excerpt of the text. -/
def message (d : Document) (text : List Char) (report : Report) : String :=
  let range := d.starts.range report.span
  s!"{report.problem.message} at line {range.start.line}, column {range.start.col}" ++
    match excerpt? text d.starts range with
    | some excerpt => ":\n\n" ++ excerpt
    | none => ""

/-- The diagnostics for all problems of a document. -/
def diagnostics (d : Document) (text : List Char) (file : String) : List Diagnostic :=
  d.reports.map fun report =>
    { code := .configSyntaxError
      message := d.message text report
      severity := .error
      file := file
      range := some (d.starts.range report.span)
      source := none }

end Document

end LineSum.Yaml
