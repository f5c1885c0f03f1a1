import LineSum.Yaml.Tree

/-!
# What stands around a node

Before a node stand white space, comments, indicators, an anchor and a tag; behind it white space
and comments. Both are read here, and what does not belong there is reported.
-/

namespace LineSum.Yaml

/-! ## Comments -/

/-- The text of a comment, without its sign. A comment without text is a space. -/
def Token.commentText (t : Token) : String :=
  match t.chars.drop 1 with
  | [] => " "
  | text => String.ofList text

/-- Comments that follow each other: their text so far, and the line ends that are due
before the next one. -/
structure CommentLines where
  text : String
  due : String

namespace CommentLines

/-- No comment. -/
def none : CommentLines := ⟨"", ""⟩

/-- Adds a comment. -/
def add (c : CommentLines) (t : Token) : CommentLines :=
  ⟨if c.text.isEmpty then t.commentText else c.text ++ c.due ++ t.commentText, ""⟩

end CommentLines

/-! ## Behind a node -/

/-- What stands behind a node: the offset behind all of it, and the comments in it. -/
structure Trail where
  stop : Nat
  comment : String

/-- Reads the tokens behind a node, from the given offset on. Where `reqSpace` holds, a comment
needs white space before it. -/
def readEnd (reqSpace : Bool) (offset : Nat) (tokens : List Token) : Reported Trail :=
  go false .none offset tokens
where
  /-- Goes on when white space has been seen or not. -/
  go (hasSpace : Bool) (lines : CommentLines) (offset : Nat) : List Token → Reported Trail
    | [] => ⟨⟨offset, lines.text⟩, []⟩
    | t :: rest =>
      let here : List Report :=
        match t.kind with
        | .space | .newline => []
        | .comment => if reqSpace && !hasSpace then [.atToken t .commentWithoutSpace] else []
        | kind => [.atToken t (.strayAtNodeEnd kind)]
      let lines : CommentLines :=
        match t.kind with
        | .comment => lines.add t
        | .newline =>
          if lines.text.isEmpty then lines
          else { lines with due := lines.due ++ String.ofList t.chars }
        | _ => lines
      let hasSpace := hasSpace || t.kind = .space || t.kind = .newline
      let next := go hasSpace lines (offset + t.size) rest
      ⟨next.value, here ++ next.reports⟩

/-! ## Before a node -/

/-- What comes behind the tokens that are read: a tree, or another token. -/
inductive Following where
  | tree (tree : Tree)
  | token (token : Token)

namespace Following

/-- The key of an entry, or else the first token behind it. -/
def ofKey (key : Option Tree) (sep : Option (List Token)) : Option Following :=
  match key with
  | some key => some (.tree key)
  | none => (sep.bind List.head?).map .token

/-- Where it starts. -/
def offset : Following → Nat
  | .tree t => t.offset
  | .token t => t.offset

/-- Whether it may stand directly behind an anchor or a tag. -/
def separates : Following → Bool
  | .tree (.inline .plain _ _ chars _) => chars.isEmpty
  | .tree _ => false
  | .token t => t.kind = .space || t.kind = .newline || t.kind = .comma

/-- Whether it is a flow collection. -/
def isFlowCollection : Following → Bool
  | .tree (.flow _ _ _ _ _) => true
  | _ => false

/-- Whether it is a block collection. -/
def isBlockCollection : Following → Bool
  | .tree t => t.isBlockCollection
  | _ => false

end Following

/-- Where a row of tokens stands: in which flow collection, before what, at which offset if the row
is empty, in a collection of which indentation, and whether it starts on a new line; and the
indicator that is expected in it. -/
structure RowContext where
  flow : Option FlowKind
  indicator : Kind
  following : Option Following
  offset : Nat
  parentIndent : Nat
  startOnNewline : Bool

/-- What a row of tokens before a node says. -/
structure Row where
  comma : Option Token
  found : Option Token
  anchor : Option Token
  tag : Option Token
  newlineAfterProp : Option Token
  /-- The comments; an empty text is none. -/
  comment : String
  /-- Whether there is a blank line that does not stand between comments. -/
  blankBefore : Bool
  hasNewline : Bool
  /-- Where the anchor or the tag starts, or else where the row ends. -/
  start : Nat
  /-- Where the row ends. -/
  stop : Nat

/-- What has been seen of a row. -/
structure RowState where
  atNewline : Bool
  hasSpace : Bool
  /-- White space is due. -/
  reqSpace : Bool
  /-- The last token is white space with a tab in it. -/
  tab : Option Token
  lines : CommentLines
  row : Row
  reports : List Report

namespace RowState

/-- Adds a report. -/
def report (s : RowState) (r : Report) : RowState :=
  { s with reports := s.reports ++ [r] }

/-- Adds a report if there is reason to. -/
def reportIf (s : RowState) (condition : Bool) (r : Report) : RowState :=
  if condition then s.report r else s

/-- The row has seen an anchor or a tag, which have to be followed by white space. -/
def afterProp (s : RowState) (token : Token) : RowState :=
  { s with
    atNewline := false
    hasSpace := false
    reqSpace := true
    row := { s.row with start := if s.row.anchor.isNone && s.row.tag.isNone then token.offset
      else s.row.start } }

/-- Reads one token of a row. -/
def read (c : RowContext) (s : RowState) (t : Token) : RowState :=
  let s :=
    if s.reqSpace then
      RowState.reportIf { s with reqSpace := false }
        (t.kind != .space && t.kind != .newline && t.kind != .comma)
        (.atPlace t.offset .propsWithoutSpace)
    else s
  let s :=
    match s.tab with
    | some tab =>
      RowState.reportIf { s with tab := none }
        (s.atNewline && t.kind != .comment && t.kind != .newline) (.atToken tab .tabIndentation)
    | none => s
  let stray (s : RowState) : RowState :=
    { s.report (.atToken t (.strayProp t.kind)) with atNewline := false, hasSpace := false }
  match t.kind with
  | .space =>
    let leading := c.flow.isNone &&
      (c.indicator != .docStart || !c.following.any Following.isFlowCollection) &&
      t.chars.contains '\t'
    { s with tab := if leading then some t else s.tab, hasSpace := true }
  | .comment =>
    let s := s.reportIf (!s.hasSpace) (.atToken t .commentWithoutSpace)
    { s with atNewline := false, lines := s.lines.add t }
  | .newline =>
    let lineEnd := String.ofList t.chars
    let isBlank := s.atNewline && s.lines.text.isEmpty &&
      (s.row.found.isNone || c.indicator != .seqItem)
    let lines : CommentLines :=
      if !s.atNewline then { s.lines with due := s.lines.due ++ lineEnd }
      else if s.lines.text.isEmpty then s.lines
      else { s.lines with text := s.lines.text ++ lineEnd }
    let row := { s.row with
      hasNewline := true
      blankBefore := s.row.blankBefore || isBlank
      newlineAfterProp := if s.row.anchor.isSome || s.row.tag.isSome then some t
        else s.row.newlineAfterProp }
    { s with atNewline := true, hasSpace := true, lines, row }
  | .anchor =>
    let s := (s.reportIf s.row.anchor.isSome (.atToken t .severalAnchors)).afterProp t
    { s with row := { s.row with anchor := some t } }
  | .tag =>
    let s := (s.reportIf s.row.tag.isSome (.atToken t .severalTags)).afterProp t
    { s with row := { s.row with tag := some t } }
  | kind =>
    if kind = c.indicator then
      let s := s.reportIf (s.row.anchor.isSome || s.row.tag.isSome)
        (.atToken t (.propsBeforeIndicator t.chars))
      let s := s.reportIf s.row.found.isSome (.atToken t (.repeatedIndicator t.chars c.flow))
      { s with
        atNewline := c.indicator = .seqItem || c.indicator = .explicitKey
        hasSpace := false
        row := { s.row with found := some t } }
    else if kind = .comma then
      match c.flow with
      | some flow =>
        let s := s.reportIf s.row.comma.isSome (.atToken t (.strayComma flow))
        { s with atNewline := false, hasSpace := false, row := { s.row with comma := some t } }
      | none => stray s
    else stray s

end RowState

/-- Reads the row of tokens before a node. -/
def readRow (c : RowContext) (tokens : List Token) : Reported Row :=
  let stop := (tokens.getLast?.map Token.stop).getD c.offset
  let initial : RowState :=
    { atNewline := c.startOnNewline, hasSpace := c.startOnNewline, reqSpace := false, tab := none
      lines := .none
      row := { comma := none, found := none, anchor := none, tag := none, newlineAfterProp := none
               comment := "", blankBefore := false, hasNewline := false, start := stop, stop }
      reports := [] }
  let s := tokens.foldl (RowState.read c) initial
  let s :=
    match c.following with
    | some next =>
      s.reportIf (s.reqSpace && !next.separates) (.atPlace next.offset .propsWithoutSpace)
    | none => s
  let s :=
    match s.tab with
    | some tab =>
      s.reportIf ((s.atNewline && tab.indent ≤ c.parentIndent) ||
        c.following.any Following.isBlockCollection) (.atToken tab .tabIndentation)
    | none => s
  ⟨{ s.row with comment := s.lines.text }, s.reports⟩

/-- Where an empty node stands: `tokens` end at `offset`, and the node goes behind the white space
on the line of the last of them that is not blank. -/
def emptyPlace (offset : Nat) (tokens : List Token) : Nat :=
  let blanks := tokens.reverse.takeWhile Token.isBlank
  let before := offset - totalSize (blanks.map Token.size)
  if blanks.length = tokens.length then before
  else before + totalSize ((blanks.reverse.takeWhile (·.kind = .space)).map Token.size)

end LineSum.Yaml
