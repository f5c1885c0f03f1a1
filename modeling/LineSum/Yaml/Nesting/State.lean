import LineSum.Yaml.Tree

/-!
# The trees that are open

While a document is read, a stack holds the trees that are not complete.
-/

namespace LineSum.Yaml

/-! ## Unfinished trees

A tree that lexemes are still put into is a frame. When it is finished it becomes a tree and goes
into the frame around it; the blank end of a block collection goes there as well.
-/

/-- A tree that is not finished. The last entry of a block collection is kept apart. -/
inductive Frame where
  | document (offset : Nat) (start : List Token) (value : Option Tree) (after : List Token)
  | documentEnd (offset : Nat) (chars : List Char) (after : List Token)
  | inline (kind : InlineKind) (offset indent : Nat) (chars : List Char) (after : List Token)
  | block (offset indent : Nat) (header : List Token) (chars : List Char)
  | map (offset indent : Nat) (done : List Entry) (last : Entry)
  | seq (offset indent : Nat) (done : List Entry) (last : Entry)
  | flow (offset indent : Nat) (start : Token) (items : List Entry) (close : List Token)

/-! ### Closing -/

/-- In a flow sequence, what looks like a key without a colon is an item; what stands
behind it goes with it. -/
def Entry.settle (e : Entry) : Entry :=
  match e with
  | .mk start explicit key (some sep) none =>
    if hasKind .explicitKey start || hasKind .mapValue sep then e
    else
      match key with
      | none => .mk (start ++ sep) explicit none none none
      | some value =>
        if value.isFlow then .mk start explicit none none (some (value.addTrail sep))
        else .mk (start ++ sep) explicit none none (some value)
  | e => e

/-- Settles the items of a flow sequence; those of a flow map are left alone. -/
def settleItems (start : Token) (items : List Entry) : List Entry :=
  if start.kind = .flowSeqStart then items.map Entry.settle else items

/-- Whether an entry holds nothing but white space, line ends and comments,
and something of that. -/
def Entry.isBlankStart (e : Entry) : Bool :=
  e.sep.isNone && e.value.isNone && !e.start.isEmpty && e.start.all Token.isBlank

/-- Takes the blank end of a block collection off that belongs to what is around it: comments stay
if they are indented at least as far as the collection, unless that stands at the left margin. -/
def Tree.splitBlankEnd (t : Tree) : Tree × List Token :=
  let split (indent : Nat) (items : List Entry) (rebuild : List Entry → Tree) :
      Tree × List Token :=
    match items.getLast? with
    | none => (t, [])
    | some last =>
      if last.isBlankStart &&
          (indent = 0 || last.start.all fun s => s.kind != .comment || s.indent < indent) then
        (rebuild items.dropLast, last.start)
      else (t, [])
  match t with
  | .blockMap offset indent items => split indent items (.blockMap offset indent)
  | .blockSeq offset indent items => split indent items (.blockSeq offset indent)
  | t => (t, [])

namespace Frame

/-- The indentation of the frame; a document has none. -/
def indent : Frame → Nat
  | inline _ _ indent _ _ => indent
  | block _ indent _ _ => indent
  | map _ indent _ _ => indent
  | seq _ indent _ _ => indent
  | flow _ indent _ _ _ => indent
  | _ => 0

/-- The finished tree, which goes into the given frame. A block scalar takes the indentation of what
is around it, and the collection of a document has none. -/
def toTree? (frame parent : Frame) : Option Tree :=
  match frame with
  | inline kind offset indent chars after => some (.inline kind offset indent chars after)
  | block offset _ header chars => some (.block offset parent.indent header chars)
  | map offset indent done last => some (.blockMap offset indent (done ++ [last]))
  | seq offset indent done last => some (.blockSeq offset indent (done ++ [last]))
  | flow offset indent start items close =>
    let indent := match parent with
      | document _ _ _ _ => 0
      | _ => indent
    some (.flow offset indent start (settleItems start items) close)
  | document _ _ _ _ => none
  | documentEnd _ _ _ => none

/-- The finished part of a text; only documents and their ends are parts. -/
def toPart? : Frame → Option Part
  | document offset start value after => some (.document ⟨offset, start, value, after⟩)
  | documentEnd offset chars after => some (.documentEnd offset chars after)
  | _ => none

/-- Puts a tree into a frame, and says whether the current line holds a key now; if it says nothing,
that stays as it is. -/
def receive (frame : Frame) (tree : Tree) : Frame × Option Bool :=
  match frame with
  | document offset start _ after =>
    let (tree, blank) := tree.splitBlankEnd
    (document offset start (some tree) (if blank.isEmpty then after else blank), none)
  | block offset indent header chars =>
    match tree with
    | .broken at_ _ source =>
      (block offset indent (header ++ [⟨.error, at_, 0, source⟩]) chars, none)
    | _ => (frame, none)
  | map offset indent done last =>
    if last.value.isSome then
      (map offset indent (done ++ [last]) (.ofKey [] (some tree) []), some true)
    else if last.sep.isSome then
      let (tree, blank) := tree.splitBlankEnd
      let last := last.withValue (some tree)
      if blank.isEmpty then (map offset indent done last, none)
      else (map offset indent (done ++ [last]) (.ofStart blank), none)
    else
      (map offset indent done (last.withKey (some tree) (some [])), some !last.explicit)
  | seq offset indent done last =>
    let (tree, blank) := tree.splitBlankEnd
    let (done, last) :=
      if last.value.isSome then (done ++ [last], (Entry.ofStart []).withValue (some tree))
      else (done, last.withValue (some tree))
    if blank.isEmpty then (seq offset indent done last, none)
    else (seq offset indent (done ++ [last]) (.ofStart blank), none)
  | flow offset indent start items close =>
    let items :=
      match items.getLast? with
      | none => [.ofKey [] (some tree) []]
      | some last =>
        if last.value.isSome then items ++ [.ofKey [] (some tree) []]
        else if last.sep.isSome then items.dropLast ++ [last.withValue (some tree)]
        else items.dropLast ++ [last.withKey (some tree) (some [])]
    (flow offset indent start items close, none)
  | frame => (frame, none)

/-- Whether the frame is one into which no tree goes. -/
def isLeaf : Frame → Bool
  | inline _ _ _ _ _ => true
  | documentEnd _ _ _ => true
  | _ => false

/-- Whether the frame is a flow collection. -/
def isFlow : Frame → Bool
  | flow _ _ _ _ _ => true
  | _ => false

/-- Whether the frame is the end of a document. -/
def isDocumentEnd : Frame → Bool
  | documentEnd _ _ _ => true
  | _ => false

/-- The tokens in the frame that may belong to a tree that is about to begin. -/
def props : Frame → List Token
  | document _ start _ _ => start
  | map _ _ _ last => last.sep.getD last.start
  | seq _ _ _ last => last.start
  | _ => []

/-- Replaces the tokens that may belong to a tree that is about to begin. -/
def withProps (frame : Frame) (tokens : List Token) : Frame :=
  match frame with
  | document offset _ value after => document offset tokens value after
  | map offset indent done last =>
    map offset indent done
      (if last.sep.isSome then last.withKey last.key (some tokens) else last.withStart tokens)
  | seq offset indent done last => seq offset indent done (last.withStart tokens)
  | frame => frame

end Frame

/-- Splits off the tokens that belong to the first key of a map that begins here: those behind the
last line end or indicator, without leading white space. -/
def splitKeyProps (tokens : List Token) : List Token × List Token :=
  let stops (t : Token) : Bool :=
    t.kind = .docStart || t.kind = .explicitKey || t.kind = .mapValue || t.kind = .seqItem ||
      t.kind = .newline
  let tail := (tokens.reverse.takeWhile fun t => !stops t).reverse
  let own := tail.dropWhile (·.kind = .space)
  (tokens.take (tokens.length - own.length), own)

/-! ## The state of the nesting

The trees that are not finished yet stand on a stack, the innermost one on top. Closing moves the
top tree into the one below; `Nest.length_close` says that this shortens the stack by one.
-/

/-- The state of the nesting: where the next lexeme stands, the indentation so far of its line,
whether only indentation and indicators have been seen on the line, whether the line holds a key
that a value may follow, whether the source of a scalar is due, the unfinished trees, and, last ones
first, the line starts and the parts of the text that are finished. -/
structure Nest where
  offset : Nat
  indent : Nat
  atNewline : Bool
  onKeyLine : Bool
  scalarDue : Bool
  stack : List Frame
  starts : List Nat
  parts : List Part

namespace Nest

/-- Moves the top tree into the one below, or makes it a part of the text. -/
def close (n : Nest) : Nest :=
  match n.stack with
  | [] => n
  | [bottom] => { n with stack := [], parts := bottom.toPart?.toList ++ n.parts }
  | top :: parent :: rest =>
    match top.toTree? parent with
    | some tree =>
      let (parent, onKeyLine) := parent.receive tree
      { n with stack := parent :: rest, onKeyLine := onKeyLine.getD n.onKeyLine }
    | none => { n with stack := parent :: rest }

/-- Closing takes one tree off the stack. -/
theorem length_close (n : Nest) : n.close.stack.length = n.stack.length - 1 := by
  unfold close
  split <;> simp_all
  split <;> simp_all

/-- Closes all trees. -/
def closeAll (n : Nest) : Nest :=
  if n.stack.isEmpty then n else n.close.closeAll
termination_by n.stack.length
decreasing_by
  rw [length_close]
  cases h : n.stack <;> simp_all

/-- Puts a tree into the top one that can take it. A broken lexeme outside of all trees
is a part of the text. -/
def insert (n : Nest) (tree : Tree) : Nest :=
  let n := if n.stack.head?.any Frame.isLeaf then n.close else n
  match n.stack with
  | [] =>
    match tree with
    | .broken offset _ chars =>
      { n with parts := .stray offset (.strayText chars) chars :: n.parts }
    | _ => n
  | top :: rest =>
    let (top, onKeyLine) := top.receive tree
    { n with stack := top :: rest, onKeyLine := onKeyLine.getD n.onKeyLine }

/-- Puts a frame on the stack. -/
def push (n : Nest) (frame : Frame) : Nest :=
  { n with stack := frame :: n.stack }

/-- Replaces the top frame. -/
def setTop (n : Nest) (frame : Frame) : Nest :=
  { n with stack := frame :: n.stack.tail }

/-- Notes the line starts inside a lexeme. -/
def noteLines (n : Nest) (chars : List Char) : Nest :=
  { n with starts := go n.offset chars n.starts }
where
  /-- The line starts behind an offset, put before the ones that are known. -/
  go (offset : Nat) : List Char → List Nat → List Nat
    | [], starts => starts
    | c :: rest, starts =>
      let next := offset + unitSize c
      go next rest (if c = '\n' then next :: starts else starts)

/-! ### Putting a lexeme where it belongs -/

/-- The token of a lexeme at the current place. -/
def token (n : Nest) (kind : Kind) (chars : List Char) : Token :=
  ⟨kind, n.offset, n.indent, chars⟩

/-- The frame of a scalar or an alias at the current place. -/
def inlineFrame (n : Nest) (kind : InlineKind) (chars : List Char) : Frame :=
  .inline kind n.offset n.indent chars []

/-- The tree of a scalar or an alias at the current place. -/
def inlineTree (n : Nest) (kind : InlineKind) (chars : List Char) : Tree :=
  .inline kind n.offset n.indent chars []

/-- Puts a lexeme behind the top tree, which holds its value already. A line end closes the tree,
and so does what cannot stand there. -/
def putBehind (n : Nest) (kind : Kind) (add : Token → Frame) (chars : List Char) : Option Nest :=
  match kind with
  | .comma | .docStart | .docEnd | .flowSeqEnd | .flowMapEnd | .mapValue => none
  | .newline => some { n.setTop (add (n.token kind chars)) with onKeyLine := false }.close
  | _ => some (n.setTop (add (n.token kind chars)))

/-- Opens the tree that a lexeme begins, inside the top one. -/
def openValue (n : Nest) (kind : Kind) (chars : List Char) : Option Nest :=
  let token := n.token kind chars
  let props := n.stack.head?.elim [] Frame.props
  let (kept, own) := splitKeyProps props
  let n' : Nest :=
    match n.stack with
    | [] => n
    | top :: rest => { n with stack := top.withProps kept :: rest, onKeyLine := true }
  match kind with
  | .alias => some ((n.noteLines chars).push (n.inlineFrame .alias chars))
  | .scalar => some ((n.noteLines chars).push (n.inlineFrame .plain chars))
  | .singleQuoted => some ((n.noteLines chars).push (n.inlineFrame .singleQuoted chars))
  | .doubleQuoted => some ((n.noteLines chars).push (n.inlineFrame .doubleQuoted chars))
  | .blockHeader => some (n.push (.block n.offset n.indent [token] []))
  | .flowMapStart | .flowSeqStart => some (n.push (.flow n.offset n.indent token [] []))
  | .seqItem => some (n.push (.seq n.offset n.indent [] (.ofStart [token])))
  | .explicitKey =>
    some (n'.push (.map n.offset n.indent [] (.mk (own ++ [token]) true none none none)))
  | .mapValue => some (n'.push (.map n.offset n.indent [] (.ofKey own none [token])))
  | _ => none

end Nest

end LineSum.Yaml
