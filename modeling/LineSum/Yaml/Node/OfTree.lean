import LineSum.Yaml.Node.Leaf

/-!
# The node of a layout tree

A layout tree is read as a node. What breaks the rules is reported in the order in which the tree is
read; a node comes out in any case.
-/

namespace LineSum.Yaml

/-- The entries of a collection that have been read, and the offset behind them. -/
structure EntriesRead (α : Type) where
  entries : List α
  stop : Nat
  /-- Where the comment after the last entry ends, if there is one. -/
  commentStop : Option Nat
  /-- The comments that belong to the collection itself. -/
  comment : String
  /-- The comment that belongs to what stands before the first of these entries. -/
  commentAhead : String
  reports : List Report

namespace EntriesRead

/-- No entries. -/
def nothing {α : Type} (offset : Nat) (commentStop : Option Nat) : EntriesRead α :=
  ⟨[], offset, commentStop, "", "", []⟩

/-- Adds reports that were made before. -/
def after {α : Type} (reports : List Report) (r : EntriesRead α) : EntriesRead α :=
  { r with reports := reports ++ r.reports }

/-- Adds an entry that comes before, with the reports that were made on the way. -/
def cons {α : Type} (entry : α) (reports : List Report) (r : EntriesRead α) : EntriesRead α :=
  { r with entries := entry :: r.entries, reports := reports ++ r.reports }

end EntriesRead

/-- An entry of a flow collection. -/
inductive FlowEntry where
  | item (node : Node)
  | pair (key : Node) (value : Option Node)

/-- The pair of an entry of a flow map; it never is a plain item. -/
def FlowEntry.pair? : FlowEntry → Option NodePair
  | item _ => none
  | pair key value => some (key, value)

/-- The item of an entry of a flow sequence; it never is a pair. -/
def FlowEntry.item? : FlowEntry → Option Node
  | item node => some node
  | pair _ _ => none

/-- A pair as an item of a flow sequence: a map of one entry. -/
def mapOfPair (span : Span) (pair : NodePair) : Node :=
  .map (.atSpan (some span)) false [pair]

/-- Adds a comment behind a pair: behind its value, or behind its key if there is no value. -/
def addPairComment (comment : String) : NodePair → NodePair
  | (key, some value) => (key, some (value.addComment comment))
  | (key, none) => (key.addComment comment, none)

/-- The first comment in a row of tokens, if only commas and white space stand before it. -/
def leadingComment (tokens : List Token) : String :=
  match tokens.dropWhile fun t => t.kind = .comma || t.kind = .space with
  | t :: _ => if t.kind = .comment then String.ofList (t.chars.drop 1) else ""
  | [] => ""

/-- Splits off the comment of a row that belongs to the entry before it. -/
def splitComment (isFirst : Bool) (row : Row) (tokens : List Token) : String × Row :=
  let ahead := if isFirst || row.comment.isEmpty then "" else leadingComment tokens
  if ahead.isEmpty then ("", row)
  else (ahead, { row with
    comment := String.ofList (row.comment.toList.drop (ahead.length + 1)) })

mutual

/-- Reads a tree as a node; `row` is what stands before it. -/
def nodeOfTree (c : NodeContext) (row : Row) (tree : Tree) : Reported Placed :=
  match tree with
  | .inline kind offset _ chars after => inlineNode c row kind offset chars after
  | .block offset indent header chars => blockNode c row offset indent header chars
  | .blockMap offset indent items =>
    let tag := rowTag c.tags row
    let read := mapOfEntries c.inside indent offset none [] items
    let span : Span := ⟨offset, read.stop⟩
    let trailing := match read.commentStop with
      | some place => if 0 < place && place < read.stop then
          [Report.atPlace place .commentBeforeContent] else []
      | none => []
    let node := mapNode row (collectionHead row .map tag.value span read.comment) read.entries
    ⟨⟨node.value, span, read.commentStop.getD read.stop⟩,
      tag.reports ++ read.reports ++ trailing ++ node.reports ++ emptyAnchor row⟩
  | .blockSeq offset indent items =>
    let tag := rowTag c.tags row
    let read := seqOfEntries c.inside indent offset none items
    let span : Span := ⟨offset, read.stop⟩
    let node := listNode row (collectionHead row .seq tag.value span read.comment) read.entries
    ⟨⟨node.value, span, read.commentStop.getD read.stop⟩,
      tag.reports ++ sequenceProps row ++ read.reports ++ node.reports ++ emptyAnchor row⟩
  | .flow offset indent start items close =>
    let tag := rowTag c.tags row
    let kind : FlowKind := if start.kind = .flowMapStart then .map else .sequence
    let read := flowOfEntries c.inside kind indent start.stop true [] items
    let closer := close.head?.filter fun t => t.chars = [kind.closer]
    let bodyStop := (closer.map Token.stop).getD read.stop
    let notClosed := if closer.isSome then [] else
      [Report.atPlace read.stop (if c.atRoot then .flowNotClosed kind else .flowNotIndented kind)]
    let behind := readEnd true bodyStop (close.drop 1)
    let span : Span := ⟨offset, bodyStop⟩
    let comment := commentsBefore read.comment behind.value.comment
    let node :=
      match kind with
      | .map =>
        mapNode row (collectionHead row .map tag.value span comment)
          (read.entries.filterMap FlowEntry.pair?)
      | .sequence =>
        listNode row (collectionHead row .seq tag.value span comment)
          (read.entries.filterMap FlowEntry.item?)
    ⟨⟨node.value, span, behind.value.stop⟩,
      tag.reports ++ read.reports ++ notClosed ++ behind.reports ++ node.reports ++
        emptyAnchor row⟩
  | .broken offset problem chars =>
    let empty := emptyNode c offset row
    ⟨empty.value, ⟨problem, ⟨offset, offset + unitLength chars⟩⟩ :: empty.reports ++
      emptyAnchor row⟩

/-- Reads the entries of a map whose entries stand on lines of their own. -/
def mapOfEntries (c : NodeContext) (indent offset : Nat) (commentStop : Option Nat)
    (seen : List Node) (items : List Entry) : EntriesRead NodePair :=
  match items with
  | [] => .nothing offset commentStop
  | .mk start _ key sep value :: rest =>
    let ⟨row, rowReports⟩ := readRow
      ⟨none, .explicitKey, Following.ofKey key sep, offset, indent, true⟩ start
    let layout := keyLayout indent offset row key
    if row.found.isNone && row.anchor.isNone && row.tag.isNone && sep.isNone then
      let others := mapOfEntries c indent offset (some row.stop) seen rest
      { others.after (rowReports ++ layout) with
        comment := commentsBefore row.comment others.comment }
    else
      let ⟨keyNode, keyReports⟩ :=
        match key with
        | some tree => nodeOfTree c.key row tree
        | none => emptyNode c.key (emptyPlace row.stop start) row
      let tokens := sep.getD []
      let ⟨valueRow, valueRowReports⟩ := readRow
        ⟨none, .mapValue, value.map .tree, keyNode.stop, indent,
          key.isNone || key.any Tree.isBlockScalar⟩ tokens
      let before := rowReports ++ layout ++ multilineKey row start key ++ keyReports ++
        duplicateKey seen row keyNode.node ++ valueRowReports ++
        colonReports row valueRow keyNode.span value
      let seen := keyNode.node :: seen
      if valueRow.found.isSome then
        let ⟨valueNode, valueReports⟩ :=
          match value with
          | some tree => nodeOfTree c valueRow tree
          | none => emptyNode c (emptyPlace valueRow.stop tokens) valueRow
        (mapOfEntries c indent valueNode.stop commentStop seen rest).cons
          (keyNode.node, some valueNode.node) (before ++ valueReports)
      else
        (mapOfEntries c indent valueRow.stop commentStop seen rest).cons
          (keyNode.node.addComment valueRow.comment, none) before

/-- Reads the items of a list whose items stand on lines of their own. -/
def seqOfEntries (c : NodeContext) (indent offset : Nat) (commentStop : Option Nat)
    (items : List Entry) : EntriesRead Node :=
  match items with
  | [] => .nothing offset commentStop
  | .mk start _ _ _ value :: rest =>
    let ⟨row, rowReports⟩ := readRow ⟨none, .seqItem, value.map .tree, offset, indent, true⟩ start
    if row.found.isNone && row.anchor.isNone && row.tag.isNone && value.isNone then
      let others := seqOfEntries c indent offset (some row.stop) rest
      { others.after rowReports with
        comment := if others.comment.isEmpty then row.comment else others.comment }
    else
      let ⟨node, reports⟩ :=
        match value with
        | some tree => nodeOfTree c row tree
        | none => emptyNode c (emptyPlace row.stop start) row
      (seqOfEntries c indent node.stop commentStop rest).cons node.node
        (rowReports ++ missingDash offset row value ++ reports)

/-- Reads the entries of a flow collection. -/
def flowOfEntries (c : NodeContext) (kind : FlowKind) (indent offset : Nat) (isFirst : Bool)
    (seen : List Node) (items : List Entry) : EntriesRead FlowEntry :=
  match items with
  | [] => .nothing offset none
  | .mk start _ key sep value :: rest =>
    let ⟨row, rowReports⟩ := readRow
      ⟨some kind, .explicitKey, Following.ofKey key sep, offset, indent, false⟩ start
    if row.found.isNone && row.anchor.isNone && row.tag.isNone && sep.isNone && value.isNone then
      let others := flowOfEntries c kind indent row.stop false seen rest
      { others.after (rowReports ++ emptyFlowItem kind isFirst rest.isEmpty row) with
        comment := commentsBefore row.comment others.comment }
    else
      let before := rowReports ++ multilineFlowKey kind row key ++ flowComma kind isFirst row
      let (ahead, row) := splitComment isFirst row start
      if kind = .sequence && sep.isNone && row.found.isNone then
        let ⟨node, reports⟩ :=
          match value with
          | some tree => nodeOfTree c row tree
          | none => emptyNode c row.stop row
        let others := flowOfEntries c kind indent node.stop false seen rest
        { others.cons (.item (node.node.addComment others.commentAhead))
            (before ++ reports ++ blockInFlow value node.span) with
          commentAhead := ahead }
      else
        let ⟨keyNode, keyReports⟩ :=
          match key with
          | some tree => nodeOfTree c.key row tree
          | none => emptyNode c.key (emptyPlace row.stop start) row
        let tokens := sep.getD []
        let ⟨valueRow, valueRowReports⟩ := readRow
          ⟨some kind, .mapValue, value.map .tree, keyNode.stop, indent, false⟩ tokens
        let valueNode? : Option (Reported Placed) :=
          match value with
          | some tree => some (nodeOfTree c valueRow tree)
          | none =>
            if valueRow.found.isSome then
              some (emptyNode c (emptyPlace valueRow.stop tokens) valueRow)
            else none
        let valueReports : List Report :=
          match valueNode? with
          | some node => node.reports ++ blockInFlow value node.value.span
          | none => []
        let duplicate := if kind = .map then duplicateKey seen row keyNode.node else []
        let stop := (valueNode?.map fun node => node.value.stop).getD valueRow.stop
        let endSpan := (valueNode?.map fun node => node.value.span).getD keyNode.span
        let others := flowOfEntries c kind indent stop false (keyNode.node :: seen) rest
        let pair : NodePair :=
          match valueNode? with
          | some node => (keyNode.node, some node.value.node)
          | none => (keyNode.node.addComment valueRow.comment, none)
        let span : Span := ⟨keyNode.span.first, endSpan.last⟩
        let entry : FlowEntry :=
          match kind with
          | .map =>
            let pair := addPairComment others.commentAhead pair
            .pair pair.1 pair.2
          | .sequence =>
            .item ((mapOfPair span pair).addComment others.commentAhead)
        { others.cons entry
            (before ++ keyReports ++ blockInFlow key keyNode.span ++ valueRowReports ++
              flowColon kind row valueRow tokens value ++ valueReports ++ duplicate) with
          commentAhead := ahead }

end

end LineSum.Yaml
