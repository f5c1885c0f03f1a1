import LineSum.Yaml.Node
import LineSum.Yaml.Node.Surroundings
import LineSum.Yaml.Scalar.Block
import LineSum.Yaml.Scalar.Reading

/-!
# Nodes without parts

How scalars and aliases become nodes, and what is complained about around nodes.
-/

namespace LineSum.Yaml

/-! ## Nodes without parts

How a scalar, an alias or nothing at all becomes a node, with the anchor and the tag before it.
-/

/-- A node, the stretch of text that it covers, and the offset behind it and
all that belongs to it. -/
structure Placed where
  node : Node
  span : Span
  stop : Nat

/-- What is known when a tree is read: the version and the shorthands for tags of the document,
whether the tree is the whole document, and whether it is a key. -/
structure NodeContext where
  version : Version
  tags : TagHandles
  atRoot : Bool
  atKey : Bool

namespace NodeContext

/-- Inside of a collection. -/
def inside (c : NodeContext) : NodeContext := { c with atRoot := false, atKey := false }

/-- Where a collection has a key. -/
def key (c : NodeContext) : NodeContext := { c with atRoot := false, atKey := true }

end NodeContext

/-- The anchor of a row. -/
def rowAnchor (row : Row) : Option Anchor :=
  row.anchor.map fun t => ⟨String.ofList (t.chars.drop 1), t.offset⟩

/-- The report that an anchor has no name. -/
def emptyAnchor (row : Row) : List Report :=
  match row.anchor with
  | some t => if t.chars.length ≤ 1 then [.atToken t .emptyAnchor] else []
  | none => []

/-- The name of the tag of a row. -/
def rowTag (handles : TagHandles) (row : Row) : Reported (Option String) :=
  match row.tag with
  | some t => readTag handles t
  | none => ⟨none, []⟩

/-- The head of a node behind a row, with a comment behind the node. -/
def rowHead (row : Row) (tag : Option String) (span : Span) (comment : String) : Head :=
  ⟨rowAnchor row, tag, some span, row.blankBefore, row.comment, comment⟩

/-- What the text of a scalar stands for. A text that its tag refuses is reported. -/
def readScalar (c : NodeContext) (isPlain : Bool) (row : Row) (tag : Option String)
    (text : List Char) : Reported Reading :=
  match tag with
  | none => ⟨if isPlain then readPlain c.version c.atKey text else .string text, []⟩
  | some name =>
    match NodeType.ofTag? name with
    | none => ⟨.string text, []⟩
    | some type =>
      match readTyped c.version type text with
      | some reading => ⟨reading, []⟩
      | none => ⟨.string text, row.tag.toList.map fun t => .atToken t .noTimestamp⟩

/-- An empty node at an offset. -/
def emptyNode (c : NodeContext) (place : Nat) (row : Row) : Reported Placed :=
  let tag := rowTag c.tags row
  let reading := readScalar c true row tag.value []
  let span : Span := ⟨place, place⟩
  let head := { rowHead row tag.value span row.comment with commentBefore := "" }
  ⟨⟨.scalar head .plain "" reading.value, span, if row.comment.isEmpty then place else row.stop⟩,
    tag.reports ++ reading.reports ++ emptyAnchor row⟩

/-- Reads a scalar or an alias. A comment before a scalar without text stands behind it. -/
def inlineNode (c : NodeContext) (row : Row) (kind : InlineKind) (offset : Nat)
    (chars : List Char) (after : List Token) : Reported Placed :=
  let stop := offset + unitLength chars
  let behind := readEnd true stop after
  let span : Span := ⟨offset, stop⟩
  let scalar (style : Style) (text : Reported (List Char)) : Reported Placed :=
    let tag := rowTag c.tags row
    let reading := readScalar c (style = .plain) row tag.value text.value
    let head := rowHead row tag.value span behind.value.comment
    let head := if chars.isEmpty && !row.comment.isEmpty then
      { head with commentBefore := "", comment := row.comment } else head
    ⟨⟨.scalar head style (String.ofList text.value) reading.value, span, behind.value.stop⟩,
      text.reports ++ behind.reports ++ tag.reports ++ reading.reports ++ emptyAnchor row⟩
  match kind with
  | .alias =>
    let unnamed := if chars.length ≤ 1 then [Report.atPlace offset .emptyAlias] else []
    let props := if row.anchor.isSome || row.tag.isSome then
      [(⟨.aliasWithProps, span⟩ : Report)] else []
    let head := { rowHead row none span behind.value.comment with anchor := none }
    ⟨⟨.alias head (String.ofList (chars.drop 1)), span, behind.value.stop⟩,
      unnamed ++ behind.reports ++ props⟩
  | .plain => scalar .plain (plainText offset chars)
  | .singleQuoted => scalar .singleQuoted (singleQuotedText offset chars)
  | .doubleQuoted => scalar .doubleQuoted (doubleQuotedText offset chars)

/-- The last comment in the header of a block scalar. -/
def headerComment (header : List Token) : String :=
  match header.reverse.find? (·.kind = .comment) with
  | some t => String.ofList (t.chars.drop 1)
  | none => ""

/-- Reads a block scalar. -/
def blockNode (c : NodeContext) (row : Row) (offset indent : Nat) (header : List Token)
    (chars : List Char) : Reported Placed :=
  let block := readBlock c.atRoot offset indent header chars
  let tag := rowTag c.tags row
  let reading := readScalar c false row tag.value block.value.text
  let span : Span := ⟨offset, block.value.stop⟩
  ⟨⟨.scalar (rowHead row tag.value span (headerComment header))
        (if block.value.folded then .folded else .literal) (String.ofList block.value.text)
        reading.value,
      span, block.value.stop⟩,
    block.reports ++ tag.reports ++ reading.reports ++ emptyAnchor row⟩

/-! ## What can be wrong with the entries of collections

Each rule for the entries of collections has a function of its own, which gives the reports about
one entry.
-/

/-- Whether two scalars stand for the same value. What no configuration asks for is the same as
nothing else. -/
def Datum.sameValue (a b : Datum) : Bool :=
  match a, b with
  | .atom (.number m), .atom (.number n) => m.numEq n
  | .atom x, .atom y => x = y
  | _, _ => false

/-- Whether two keys are the same. Only scalars are compared, and by their values. -/
def Node.sameKey (a b : Node) : Bool :=
  match a, b with
  | .scalar _ _ _ x, .scalar _ _ _ y => x.datum.sameValue y.datum
  | _, _ => false

/-- Whether a tree stretches over more than one line. -/
def Tree.hasNewline : Tree → Bool
  | .inline _ _ _ chars after => chars.contains '\n' || hasKind .newline after
  | .flow _ _ _ items _ => itemsHaveNewline items
  | _ => true
where
  /-- Whether the items of a flow collection stretch over more than one line. -/
  itemsHaveNewline : List Entry → Bool
    | [] => false
    | .mk start _ key sep value :: rest =>
      hasKind .newline start || sep.any (hasKind .newline) ||
        (match key with | some t => t.hasNewline | none => false) ||
        (match value with | some t => t.hasNewline | none => false) || itemsHaveNewline rest

/-- The report that a list is not parted by a line end from its anchor and tag. -/
def sequenceProps (row : Row) : List Report :=
  let last? :=
    match row.anchor, row.tag with
    | some a, some t => some (if t.offset < a.offset then a else t)
    | some a, none => some a
    | none, t => t
  match last? with
  | some last =>
    if row.newlineAfterProp.all fun nl => nl.offset < last.offset then
      [.atToken last .missingNewlineBeforeSequence]
    else []
  | none => []

/-- The greatest distance between the start of a key and its colon. -/
def keyLimit : Nat := 1024

/-- The stretch of text at which a report about a tree points: all of a scalar, an alias or a broken
lexeme, and the beginning of a collection. -/
def Tree.mark : Tree → Span
  | .inline _ offset _ chars _ => ⟨offset, offset + unitLength chars⟩
  | .block offset _ _ chars => ⟨offset, offset + unitLength chars⟩
  | .broken offset _ chars => ⟨offset, offset + unitLength chars⟩
  | tree => ⟨tree.offset, tree.offset + 1⟩

/-- Whether a tree is a block scalar. -/
def Tree.isBlockScalar : Tree → Bool
  | .block _ _ _ _ => true
  | _ => false

/-! ### Reports about the entries of block collections -/

/-- Reports about the place of a key in a map that stands at an indentation. -/
def keyLayout (indent offset : Nat) (row : Row) (key : Option Tree) : List Report :=
  match row.found with
  | some mark => if mark.indent != indent then [.atPlace offset .unevenMapItems] else []
  | none =>
    match key with
    | some (.blockSeq _ _ _) => [.atPlace offset .sequenceAsKey]
    | some tree =>
      if tree.indent?.any (· != indent) then [.atPlace offset .unevenMapItems] else []
    | none => []

/-- The report that an implicit key takes more than one line. -/
def multilineKey (row : Row) (start : List Token) (key : Option Tree) : List Report :=
  if row.found.isNone && (row.newlineAfterProp.isSome || key.any Tree.hasNewline) then
    match key with
    | some tree => [⟨.multilineKey, tree.mark⟩]
    | none => start.getLast?.toList.map fun t => .atToken t .multilineKey
  else []

/-- The report that a key is there already. -/
def duplicateKey (seen : List Node) (row : Row) (key : Node) : List Report :=
  if seen.any (·.sameKey key) then [.atPlace row.stop .duplicateKey] else []

/-- Reports about the colon behind an implicit key. -/
def colonReports (keyRow valueRow : Row) (keySpan : Span) (value : Option Tree) : List Report :=
  match valueRow.found with
  | some colon =>
    if keyRow.found.isSome then []
    else
      (match value with
        | some (.blockMap _ _ _) =>
          if valueRow.hasNewline then [] else [.atPlace valueRow.stop .nestedMapOnLine]
        | _ => []) ++
      if keyRow.start + keyLimit < colon.offset then [⟨.longKey, keySpan⟩] else []
  | none => if keyRow.found.isNone then [⟨.keyWithoutValue, keySpan⟩] else []

/-- The report that an item of a list has no dash. -/
def missingDash (offset : Nat) (row : Row) (value : Option Tree) : List Report :=
  if row.found.isSome then []
  else
    match value with
    | some (.blockSeq _ _ _) => [.atPlace row.stop .unevenSequenceItems]
    | _ => [.atPlace offset .missingItemIndicator]

/-! ### Reports about the entries of flow collections -/

/-- The report that a comma stands before the first entry. -/
def leadingComma (kind : FlowKind) (isFirst : Bool) (row : Row) : List Report :=
  if isFirst then row.comma.toList.map fun t => .atToken t (.strayComma kind) else []

/-- The report about an entry in which there is nothing. -/
def emptyFlowItem (kind : FlowKind) (isFirst isLast : Bool) (row : Row) : List Report :=
  if isFirst && row.comma.isSome then leadingComma kind isFirst row
  else if isLast then [] else [.atPlace row.start (.emptyFlowItem kind)]

/-- The report about the comma that stands before an entry or should do so. -/
def flowComma (kind : FlowKind) (isFirst : Bool) (row : Row) : List Report :=
  if isFirst then leadingComma kind isFirst row
  else if row.comma.isNone then [.atPlace row.start (.missingComma kind)] else []

/-- The report that the key of a pair in a sequence takes more than one line. -/
def multilineFlowKey (kind : FlowKind) (row : Row) (key : Option Tree) : List Report :=
  match key with
  | some tree =>
    if row.found.isNone && kind = .sequence && tree.hasNewline then
      [⟨.multilineFlowKey, tree.mark⟩]
    else []
  | none => []

/-- The report that a node is a block collection. -/
def blockInFlow (tree : Option Tree) (span : Span) : List Report :=
  if tree.any Tree.isBlockCollection then [⟨.blockInFlow, span⟩] else []

/-- Reports about the colon between a key and its value. -/
def flowColon (kind : FlowKind) (keyRow valueRow : Row) (sep : List Token) (value : Option Tree) :
    List Report :=
  match valueRow.found with
  | some colon =>
    if kind = .sequence && keyRow.found.isNone then
      let lineEnd := (sep.takeWhile (· != colon)).find? (·.kind = .newline)
      (lineEnd.toList.map fun t => .atToken t .multilineFlowKey) ++
        if keyRow.start + keyLimit < colon.offset then [.atToken colon .longFlowKey] else []
    else []
  | none =>
    match value with
    | some tree =>
      match tree with
      | .inline _ _ _ (':' :: _) _ => [⟨.missingSpaceAfterColon kind, tree.mark⟩]
      | .block _ _ _ (':' :: _) => [⟨.missingSpaceAfterColon kind, tree.mark⟩]
      | .broken _ _ (':' :: _) => [⟨.missingSpaceAfterColon kind, tree.mark⟩]
      | _ => [.atPlace valueRow.start (.missingCommaOrColon kind)]
    | none => []

/-! ## Sets and lists of pairs

A tag can ask for a map to be a set, which has no values, or for a list to be a list of pairs,
perhaps one without repeated keys.
-/

/-- The head of a collection. A tag that asks for nothing in particular names the usual type. -/
def collectionHead (row : Row) (usual : NodeType) (tag : Option String) (span : Span)
    (comment : String) : Head :=
  rowHead row (if tag = some "!" then some usual.tag else tag) span comment

/-- Whether the value of a pair can be missing in a set: it says nothing at all. -/
def isMissing : Option Node → Bool
  | none => true
  | some (.scalar head _ _ reading) =>
    reading.datum = .atom .null && head.commentBefore.isEmpty && head.comment.isEmpty &&
      head.tag.isNone
  | some _ => false

/-- A map with the type that its tag asks for. -/
def mapNode (row : Row) (head : Head) (entries : List NodePair) : Reported Node :=
  if head.tag = some NodeType.set.tag then
    ⟨.map head true entries,
      if entries.all fun entry => isMissing entry.2 then []
      else row.tag.toList.map fun t => .atToken t .setWithValues⟩
  else ⟨.map head false entries, []⟩

/-- Puts a comment before another one. -/
def commentsBefore (first second : String) : String :=
  if first.isEmpty then second else if second.isEmpty then first else first ++ "\n" ++ second

/-- An item of a list as a pair: a map gives its first entry, and the comments around it. -/
def pairOfItem (item : Node) : NodePair :=
  match item with
  | .map head _ entries =>
    let (key, value) := entries.headD
      (.scalar (.atSpan none) .plain "null" (.of (.atom .null)), none)
    let key := key.mapHead fun h =>
      { h with commentBefore := commentsBefore head.commentBefore h.commentBefore }
    let behind (node : Node) : Node :=
      node.mapHead fun h => { h with comment := commentsBefore head.comment h.comment }
    match value with
    | some value => (key, some (behind value))
    | none => (behind key, none)
  | item => (item, none)

/-- Reports about the items of a list that should be pairs. -/
def pairReports (row : Row) (items : List Node) : List Report :=
  (items.filter fun item => match item with
    | .map _ _ entries => 1 < entries.length
    | _ => false).flatMap fun _ => row.tag.toList.map fun t => .atToken t .severalPairs

/-- Whether two scalars stand for the same value where what is not a number equals itself. -/
def Datum.sameEntry (a b : Datum) : Bool :=
  a.sameValue b || (a = b && a = .atom (.number .notANumber))

/-- Reports about the scalars among keys that repeat an earlier one. -/
def repeatedKeys (row : Row) (seen : List Datum) : List NodePair → List Report
  | [] => []
  | (.scalar _ _ _ reading, _) :: rest =>
    if seen.any (·.sameEntry reading.datum) then
      (row.tag.toList.map fun t => .atToken t (.repeatedOrderedKey reading.datum.text)) ++
        repeatedKeys row seen rest
    else repeatedKeys row (reading.datum :: seen) rest
  | _ :: rest => repeatedKeys row seen rest

/-- A list with the type that its tag asks for. -/
def listNode (row : Row) (head : Head) (items : List Node) : Reported Node :=
  if head.tag = some NodeType.pairs.tag then
    ⟨.pairs head false (items.map pairOfItem), pairReports row items⟩
  else if head.tag = some NodeType.omap.tag then
    let pairs := items.map pairOfItem
    ⟨.pairs head true pairs, pairReports row items ++ repeatedKeys row [] pairs⟩
  else ⟨.list head items, []⟩

end LineSum.Yaml
