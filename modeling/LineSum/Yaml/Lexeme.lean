import LineSum.Yaml.Layout

/-!
# Cutting a text into lexemes

A text is cut from its front. Outside of all documents it is cut line by line; inside a document,
and inside the brackets of a flow collection, one lexeme at a time together with the indicators
before it. Every cut takes text or begins a document, so the cutting ends.
-/

namespace LineSum.Yaml

/-- Cuts off a line that stands outside of all documents: a directive, a comment or a blank line;
anything else begins a document. -/
def cutStream (layout : Layout) (rest : List Char) : Cut :=
  let (mark, rest) :=
    match rest with
    | '\ufeff' :: more => (['\ufeff'], more)
    | _ => ([], rest)
  let line := restOfLine rest
  if line.head? = some '%' then
    let body := directiveBody [] line
    let spaces := (line.drop body.length).takeWhile fun c => c = ' ' || c = '\t'
    let comment := line.drop (body.length + spaces.length)
    ⟨textLexeme mark ++ textLexeme body ++ textLexeme spaces ++ textLexeme comment,
      rest.drop line.length, layout, .stream⟩
  else
    let (spaces, after) := cutSpaces true rest
    if atLineEnd after || after.head? = some '#' then
      let comment := line.drop spaces.length
      let (newline, after) := cutNewline (rest.drop line.length)
      ⟨textLexeme mark ++ textLexeme spaces ++ textLexeme comment ++ textLexeme newline, after,
        layout, .stream⟩
    else
      (cutLineStart layout rest).after (textLexeme mark ++ [.documentMark])
where
  /-- A directive without the white space and the comment behind it. -/
  directiveBody (passed : List Char) : List Char → List Char
    | [] => trimEnd passed
    | c :: rest =>
      if c = '#' && passed.head?.any (fun d => d = ' ' || d = '\t') then trimEnd passed
      else directiveBody (c :: passed) rest
  /-- The characters passed, in order and without white space at the end. -/
  trimEnd (passed : List Char) : List Char :=
    (passed.dropWhile fun d => d = ' ' || d = '\t').reverse

/-- Cuts off a quoted scalar. -/
def cutQuoted (layout : Layout) (rest : List Char) : Cut :=
  let n := quotedLength layout.indentNext rest
  ⟨textLexeme (rest.take n), rest.drop n, layout, if 0 < layout.flowLevel then .flow else .doc⟩

/-- Cuts off a plain scalar, which may be empty. -/
def cutPlain (layout : Layout) (rest : List Char) : Cut :=
  let inFlow := 0 < layout.flowLevel
  let n := plainLength inFlow layout.indentNext 0 0 rest
  ⟨[.scalar (rest.take n)], rest.drop n, layout, if inFlow then .flow else .doc⟩

/-- Cuts off a block scalar with its header and the start of the line behind it. -/
def cutBlockScalar (layout : Layout) (rest : List Char) : Cut :=
  let header := rest.takeWhile fun c => !isWhite c && c != '#'
  let (explicit, keep) := readBlockHeader false none (header.drop 1)
  let (spaces, after) := cutSpaces true (rest.drop header.length)
  let comment := restOfLine after
  let (newline, body) := cutNewline (after.drop comment.length)
  let (n, indentNext) := blockLength layout.indentNext explicit keep body
  (cutLineStart { layout with indentNext } (body.drop n)).after
    (textLexeme header ++ textLexeme spaces ++ textLexeme comment ++ textLexeme newline ++
      [.scalar (body.take n)])

/-- Cuts off the next part of a document. -/
def cutDoc (layout : Layout) (rest : List Char) : Cut :=
  let (spaces, rest) := cutSpaces true rest
  let (indicators, rest, layout) := cutIndicators layout rest
  let before := textLexeme spaces ++ indicators
  if atLineEnd rest then
    let (newline, rest) := cutNewline rest
    (cutLineStart layout rest).after (before ++ textLexeme newline)
  else
    match rest with
    | [] => ⟨before, [], layout, .doc⟩
    | c :: more =>
      if c = '#' then
        let comment := restOfLine rest
        let (newline, rest) := cutNewline (rest.drop comment.length)
        (cutLineStart layout rest).after (before ++ textLexeme comment ++ textLexeme newline)
      else if c = '{' || c = '[' then
        ⟨before ++ [.text [c]], more, { layout with flowKey := false, flowLevel := 1 }, .flow⟩
      else if c = '}' || c = ']' then
        ⟨before ++ [.text [c]], more, layout, .doc⟩
      else if c = '*' then
        let (name, more) := more.span isAnchorChar
        ⟨before ++ [.text ('*' :: name)], more, layout, .doc⟩
      else if c = '\x22' || c = '\x27' then (cutQuoted layout rest).after before
      else if c = '|' || c = '>' then (cutBlockScalar layout rest).after before
      else (cutPlain layout rest).after before

/-- Cuts off line ends and white space inside a flow collection. The last number is the indentation
of the line, if a line end was passed. -/
def cutFlowBlanks (indent : Option Nat) (rest : List Char) :
    List Lexeme × List Char × Option Nat :=
  let (newline, after) := cutNewline rest
  let (margin, after) := if newline.isEmpty then ([], after) else cutSpaces false after
  let (spaces, after) := cutSpaces true after
  if after.length < rest.length then
    let indent := if newline.isEmpty then indent else some margin.length
    let (lexemes, after, indent) := cutFlowBlanks indent after
    (textLexeme newline ++ textLexeme margin ++ textLexeme spaces ++ lexemes, after, indent)
  else ([], rest, indent)
termination_by rest.length

/-- Cuts off commas with the white space behind them. -/
def cutCommas (rest : List Char) : List Lexeme × List Char :=
  match rest with
  | ',' :: more =>
    let spaces := more.takeWhile fun d => d = ' ' || d = '\t'
    let (lexemes, after) := cutCommas (more.dropWhile fun d => d = ' ' || d = '\t')
    (.text [','] :: textLexeme spaces ++ lexemes, after)
  | _ => ([], rest)
termination_by rest.length
decreasing_by
  have := (List.dropWhile_suffix (l := more) fun d => d = ' ' || d = '\t').length_le
  simp only [List.length_cons]
  omega

/-- Whether a flow collection is left here: the line is not indented enough, or a document marker
stands at its start. The closing bracket of the outermost collection may stand at the indentation of
what is around it. -/
def leavesFlow (layout : Layout) (indent : Option Nat) (rest : List Char) : Bool :=
  match indent with
  | none => false
  | some n =>
    let marker :=
      match restOfLine rest with
      | '-' :: '-' :: '-' :: after => atWhite after
      | '.' :: '.' :: '.' :: after => atWhite after
      | _ => false
    let closes := n + 1 = layout.indentNext && layout.flowLevel = 1 &&
      (rest.head? = some ']' || rest.head? = some '}')
    ((n < layout.indentNext && rest.head? != some '#') || (n = 0 && marker)) && !closes

/-- Cuts off the next part of a flow collection. -/
def cutFlow (layout : Layout) (rest : List Char) : Cut :=
  let (blanks, rest, indent) := cutFlowBlanks none rest
  let layout := { layout with indentValue := indent.getD layout.indentValue }
  if leavesFlow layout indent rest then
    (cutLineStart { layout with flowLevel := 0 } rest).after (blanks ++ [.flowEndMark])
  else
    let (commas, rest) := cutCommas rest
    let layout := if commas.isEmpty then layout else { layout with flowKey := false }
    let (indicators, rest, layout) := cutIndicators layout rest
    let before := blanks ++ commas ++ indicators
    if atLineEnd rest then ⟨before, rest, layout, .flow⟩
    else
      match rest with
      | [] => ⟨before, [], layout, .flow⟩
      | c :: more =>
        if c = '#' then
          let comment := restOfLine rest
          ⟨before ++ [.text comment], rest.drop comment.length, layout, .flow⟩
        else if c = '{' || c = '[' then
          ⟨before ++ [.text [c]], more,
            { layout with flowKey := false, flowLevel := layout.flowLevel + 1 }, .flow⟩
        else if c = '}' || c = ']' then
          let level := layout.flowLevel - 1
          ⟨before ++ [.text [c]], more, { layout with flowKey := true, flowLevel := level },
            if 0 < level then .flow else .doc⟩
        else if c = '*' then
          let (name, more) := more.span isAnchorChar
          ⟨before ++ [.text ('*' :: name)], more, layout, .flow⟩
        else if c = '\x22' || c = '\x27' then
          (cutQuoted { layout with flowKey := true } rest).after before
        else if c = ':' && (layout.flowKey || atWhite more || more.head? = some ',') then
          let (spaces, more) := cutSpaces true more
          ⟨before ++ .text [':'] :: textLexeme spaces, more,
            { layout with flowKey := false }, .flow⟩
        else (cutPlain { layout with flowKey := false } rest).after before

/-- Cuts off the next part of a text. -/
def cutNext (mode : Mode) (layout : Layout) (rest : List Char) : Cut :=
  match mode with
  | .stream => cutStream layout rest
  | .doc => cutDoc layout rest
  | .flow => cutFlow layout rest

/-- How much is left to do: a text, and a change of mode that takes no text. -/
def workLeft (mode : Mode) (rest : List Char) : Nat :=
  2 * rest.length + if mode = .doc then 0 else 1

/-- Cuts a text until nothing is left. Every cut takes text or begins a document. -/
def cutAll (mode : Mode) (layout : Layout) (rest : List Char) : List Lexeme :=
  if rest.isEmpty then []
  else
    let cut := cutNext mode layout rest
    if workLeft cut.mode cut.rest < workLeft mode rest then
      cut.lexemes ++ cutAll cut.mode cut.layout cut.rest
    else cut.lexemes
termination_by workLeft mode rest

/-- The lexemes of a text. -/
def Lexeme.ofText (text : List Char) : List Lexeme :=
  cutAll .stream ⟨0, 0, 0, false⟩ text

end LineSum.Yaml
