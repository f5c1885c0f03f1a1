import LineSum.Yaml.Lexeme
import LineSum.Yaml.Nesting.State

/-!
# Nesting

Lexeme by lexeme the open trees of a document grow and are closed.
-/

namespace LineSum.Yaml

/-! ## Lexemes in documents and behind scalars

Where a lexeme goes that stands outside of all documents, in a document that has no open collection,
behind a scalar, or behind the end of a document.
-/

namespace Nest

/-- Puts a lexeme outside of all documents. -/
def putStream (n : Nest) (kind : Kind) (chars : List Char) : Nest :=
  match kind with
  | .directive => { n with parts := .directive n.offset chars :: n.parts }
  | .byteOrderMark | .space | .comment | .newline => n
  | .docMode => n.push (.document n.offset [] none [])
  | .docStart => n.push (.document n.offset [n.token kind chars] none [])
  | kind => { n with parts := .stray n.offset (.strayInStream kind chars) chars :: n.parts }

/-- Puts a lexeme into a document. -/
def putDocument (n : Nest) (kind : Kind) (chars : List Char) (offset : Nat) (start : List Token)
    (value : Option Tree) (after : List Token) : Option Nest :=
  let token := n.token kind chars
  let more := n.setTop (.document offset (start ++ [token]) value after)
  if value.isSome then
    n.putBehind kind (fun t => .document offset start value (after ++ [t])) chars
  else
    match kind with
    | .docStart => if start.all Token.isBlank then some more else none
    | .anchor | .tag | .space | .comment | .newline => some more
    | _ =>
      match n.openValue kind chars with
      | some n => some n
      | none =>
        some { n with parts := .stray n.offset (.strayInDocument kind chars) chars :: n.parts }

/-- Puts a lexeme behind a scalar or an alias. A colon makes it the first key of a map. -/
def putInline (n : Nest) (kind : Kind) (chars : List Char) (inline : InlineKind)
    (offset indent : Nat) (source : List Char) (after : List Token) : Option Nest :=
  if kind = .mapValue then
    let map (start : List Token) : Frame :=
      .map offset indent []
        (.ofKey start (some (.inline inline offset indent source []))
          (after ++ [n.token kind chars]))
    match n.stack with
    | top :: parent :: rest =>
      let (kept, own) := splitKeyProps parent.props
      let _ := top
      some { n with stack := map own :: parent.withProps kept :: rest, onKeyLine := true }
    | _ => some { n.setTop (map []) with onKeyLine := true }
  else
    n.putBehind kind (fun t => .inline inline offset indent source (after ++ [t])) chars

/-- Puts a lexeme into a block scalar: its header goes on, or its source comes and ends it. -/
def putBlock (n : Nest) (kind : Kind) (chars : List Char) (offset indent : Nat)
    (header : List Token) : Option Nest :=
  match kind with
  | .space | .comment | .newline =>
    some (n.setTop (.block offset indent (header ++ [n.token kind chars]) []))
  | .scalar =>
    let n := (n.noteLines chars).setTop (.block offset indent header chars)
    some { n with atNewline := true, indent := 0 }.close
  | _ => none

/-- Puts a lexeme behind the end of a document; the line end closes it. -/
def putDocumentEnd (n : Nest) (kind : Kind) (chars : List Char) (offset : Nat)
    (source : List Char) (after : List Token) : Nest :=
  if kind = .docMode then n
  else
    let n' := n.setTop (.documentEnd offset source (after ++ [n.token kind chars]))
    if kind = .newline then n'.close else n'

end Nest

/-! ## Lexemes in flow collections

Where a lexeme goes inside the brackets of a flow collection, and behind its closing bracket.
-/

namespace Nest

/-- Closes flow collections up to the first tree that is none. -/
def leaveFlow (n : Nest) : Nest :=
  if n.stack.head?.any Frame.isFlow then n.close.leaveFlow else n
termination_by n.stack.length
decreasing_by
  rw [length_close]
  cases h : n.stack <;> simp_all

/-- Puts a lexeme into a flow collection that is not closed yet. -/
def putFlowItem (n : Nest) (kind : Kind) (chars : List Char) (offset indent : Nat)
    (start : Token) (items : List Entry) : Option Nest :=
  let token := n.token kind chars
  let set (items : List Entry) : Nest := n.setTop (.flow offset indent start items [])
  let last? := items.getLast?
  let front := items.dropLast
  match kind with
  | .comma | .explicitKey =>
    match last? with
    | some (.mk s e k none v) => some (set (front ++ [.mk (s ++ [token]) e k none v]))
    | _ => some (set (items ++ [.ofStart [token]]))
  | .mapValue =>
    match last? with
    | some (.mk s e k (some sep) none) =>
      some (set (front ++ [.mk s e k (some (sep ++ [token])) none]))
    | some (.mk s e _ none none) => some (set (front ++ [.mk s e none (some [token]) none]))
    | _ => some (set (items ++ [.ofKey [] none [token]]))
  | .space | .comment | .newline | .anchor | .tag =>
    match last? with
    | some last =>
      if last.value.isSome then some (set (items ++ [.ofStart [token]]))
      else some (set (front ++ [last.addProp token]))
    | none => some (set (items ++ [.ofStart [token]]))
  | .flowMapEnd | .flowSeqEnd => some (n.setTop (.flow offset indent start items [token]))
  | kind =>
    match kind.inline? with
    | some inline =>
      let tree := n.inlineTree inline chars
      match last? with
      | some last =>
        if last.value.isSome then
          some ((set (items ++ [.ofKey [] (some tree) []])).noteLines chars)
        else if last.sep.isSome then
          some ((n.noteLines chars).push (n.inlineFrame inline chars))
        else
          some ((set (front ++ [last.withKey (some tree) (some [])])).noteLines chars)
      | none => some ((set [.ofKey [] (some tree) []]).noteLines chars)
    | none => n.openValue kind chars

/-- Puts a lexeme into or behind a flow collection. Behind it, a colon makes the collection the
first key of a map, unless it is the key of a map that is open already. -/
def putFlow (n : Nest) (kind : Kind) (chars : List Char) (offset indent : Nat) (start : Token)
    (items : List Entry) (close : List Token) : Option Nest :=
  if kind = .flowErrorEnd then some n.leaveFlow
  else
    match close with
    | [] => n.putFlowItem kind chars offset indent start items
    | bracket :: after =>
      let behind := n.putBehind kind (fun t => .flow offset indent start items (close ++ [t])) chars
      match n.stack with
      | _ :: parent :: rest =>
        let endsKey : Bool :=
          match parent with
          | .map _ mapIndent _ last =>
            (kind = .mapValue && mapIndent = indent) || (kind = .newline && last.sep.isNone)
          | _ => false
        if endsKey then none
        else if kind = .mapValue && !parent.isFlow then
          let (kept, own) := splitKeyProps parent.props
          let key : Tree := .flow offset indent start (settleItems start items) [bracket]
          let map := Frame.map offset indent []
            (.ofKey own (some key) (after ++ [n.token kind chars]))
          some { n with stack := map :: parent.withProps kept :: rest, onKeyLine := true }
        else behind
      | _ => behind

end Nest

/-! ## Lexemes in block collections

Where a lexeme goes in a map or a list whose entries stand on lines of their own. The indentation of
its line tells whether it belongs to the last entry, begins a new one or stands outside; what is
answered by `none` stands outside.
-/

namespace Nest

/-- Whether a comment belongs to the entry before the current one, in which only blanks have been
seen: it is indented further than the collection. -/
def isIndentedComment (n : Nest) (kind : Kind) (start : List Token) (indent : Nat) : Bool :=
  kind = .comment && indent < n.indent &&
    start.all fun t => t.kind = .newline || t.kind = .space

/-- Puts a line end into a block collection. Behind a value it begins a new entry, unless it ends a
comment behind the value. -/
def putLineEnd (n : Nest) (token : Token) (rebuild : List Entry → Entry → Frame)
    (done : List Entry) (last : Entry) : Nest :=
  match last.value with
  | some value =>
    match value.trail?.bind List.getLast? with
    | some t =>
      if t.kind = .comment then
        n.setTop (rebuild done (last.withValue (some (value.addTrail [token]))))
      else n.setTop (rebuild (done ++ [last]) (.ofStart [token]))
    | none => n.setTop (rebuild (done ++ [last]) (.ofStart [token]))
  | none => n.setTop (rebuild done (last.addProp token))

/-- Puts white space or a comment into a block collection. A comment that is indented further than
the collection goes to the value before it, together with the blanks between. -/
def putBlank (n : Nest) (token : Token) (indent : Nat) (rebuild : List Entry → Entry → Frame)
    (done : List Entry) (last : Entry) : Nest :=
  if last.value.isSome then n.setTop (rebuild (done ++ [last]) (.ofStart [token]))
  else if last.sep.isNone && n.isIndentedComment token.kind last.start indent then
    match done.getLast? with
    | some previous =>
      match previous.value with
      | some value =>
        if value.trail?.isSome then
          n.setTop (rebuild done.dropLast
            (previous.withValue (some (value.addTrail (last.start ++ [token])))))
        else n.setTop (rebuild done (last.addProp token))
      | none => n.setTop (rebuild done (last.addProp token))
    | none => n.setTop (rebuild done (last.addProp token))
  else n.setTop (rebuild done (last.addProp token))

/-- Where the second line end stands in what follows a key without a value, if nothing but blanks
follows it: what stands there belongs to the next entry. Comments that are indented further than the
collection start the count again. -/
def nextEntryStart (indent : Nat) (sep : List Token) : List Token × List Token :=
  match go 0 [] sep with
  | _ :: second :: _ => (sep.take second, sep.drop second)
  | _ => (sep, [])
where
  /-- The places of the line ends that count. -/
  go (i : Nat) (found : List Nat) : List Token → List Nat
    | [] => found
    | t :: rest =>
      let found :=
        match t.kind with
        | .newline => found ++ [i]
        | .space => found
        | .comment => if indent < t.indent then [] else found
        | _ => []
      go (i + 1) found rest

/-- Whether a lexeme stands where the next entry of a map begins: at the indentation of the map,
behind an entry the key of which is known. -/
def atNextEntry (n : Nest) (kind : Kind) (indent : Nat) (last : Entry) : Bool :=
  !n.onKeyLine && n.indent = indent && (last.sep.isSome || last.explicit) && kind != .seqItem

/-- Splits off what belongs to the next entry of a map from what stands behind a
key without a value. -/
def splitEntry (n : Nest) (kind : Kind) (indent : Nat) (last : Entry) : Entry × List Token :=
  match last.sep with
  | some sep =>
    if n.atNextEntry kind indent last && last.value.isNone then
      let (kept, next) := nextEntryStart indent sep
      (last.withKey last.key (some kept), next)
    else (last, [])
  | none => (last, [])

/-- Drops what would belong to the next entry of the map on top, because a lexeme that begins none
closes the map there. -/
def trimEntry (n : Nest) (kind : Kind) : Nest :=
  match n.stack with
  | .map offset indent done last :: rest =>
    if indent ≤ n.indent then
      { n with stack := .map offset indent done (n.splitEntry kind indent last).1 :: rest }
    else n
  | _ => n

/-- Dropping takes no tree off the stack. -/
theorem length_trimEntry (n : Nest) (kind : Kind) :
    (n.trimEntry kind).stack.length = n.stack.length := by
  unfold trimEntry
  split
  · split <;> simp_all
  · rfl

/-- Puts a lexeme that is neither a blank nor a line end into a map, at an indentation that is not
less than that of the map. -/
def putEntry (n : Nest) (kind : Kind) (chars : List Char) (offset indent : Nat)
    (done : List Entry) (last : Entry) : Option Nest :=
  let token := n.token kind chars
  let keyLine (n : Nest) : Nest := { n with onKeyLine := true }
  let atMapIndent := !n.onKeyLine && n.indent = indent
  let atNextItem := n.atNextEntry kind indent last
  let (last, start) := n.splitEntry kind indent last
  let update (last : Entry) : Nest := n.setTop (.map offset indent done last)
  let append (entry : Entry) : Nest := n.setTop (.map offset indent (done ++ [last]) entry)
  let nested (outer : Entry) (inner : Entry) : Nest :=
    (update outer).push (.map n.offset n.indent [] inner)
  let sep := last.sep.getD []
  let next := atNextItem || last.value.isSome
  match kind with
  | .anchor | .tag =>
    if next then some (keyLine (append (.ofStart (start ++ [token]))))
    else some (update (last.addProp token))
  | .explicitKey =>
    if last.sep.isNone && !last.explicit then
      some (keyLine (update (.mk (last.start ++ [token]) true last.key last.sep last.value)))
    else if next then
      some (keyLine (append (.mk (start ++ [token]) true none none none)))
    else some (keyLine (nested last (.mk [token] true none none none)))
  | .mapValue =>
    some <| keyLine <|
      if last.explicit then
        if last.sep.isNone then
          if hasKind .newline last.start then update (last.withKey none (some [token]))
          else
            let (kept, own) := splitKeyProps last.start
            nested (last.withStart kept) (.ofKey own none [token])
        else if last.value.isSome then append (.ofKey [] none [token])
        else if hasKind .mapValue sep then nested last (.ofKey start none [token])
        else if last.key.any Tree.isFlow && !hasKind .newline sep then
          let (kept, own) := splitKeyProps last.start
          nested (.mk kept true none none last.value)
            (.ofKey own last.key (sep ++ [token]))
        else update (last.withKey last.key (some (sep ++ start ++ [token])))
      else if last.sep.isNone then update (last.withKey none (some [token]))
      else if next then append (.ofKey start none [token])
      else if hasKind .mapValue sep then nested last (.ofKey [] none [token])
      else update (last.withKey last.key (some (sep ++ [token])))
  | kind =>
    match kind.inline? with
    | some inline =>
      if next then
        some (keyLine
          ((append (.ofKey start (some (n.inlineTree inline chars)) [])).noteLines chars))
      else if last.sep.isSome then
        some (((update last).noteLines chars).push (n.inlineFrame inline chars))
      else
        some (keyLine
          ((update (last.withKey (some (n.inlineTree inline chars)) (some []))).noteLines chars))
    | none =>
      if kind = .seqItem then
        if !last.explicit && last.sep.isSome && !hasKind .newline sep then
          some ((update last).insert (.broken n.offset .itemOnKeyLine chars))
        else (update last).openValue kind chars
      else
        ((if atMapIndent then append (.ofStart start) else update last).openValue kind chars)

/-- Puts a lexeme into a map. -/
def putMap (n : Nest) (kind : Kind) (chars : List Char) (offset indent : Nat)
    (done : List Entry) (last : Entry) : Option Nest :=
  let rebuild := Frame.map offset indent
  match kind with
  | .newline =>
    some ({ n with onKeyLine := false }.putLineEnd (n.token kind chars) rebuild done last)
  | .space | .comment => some (n.putBlank (n.token kind chars) indent rebuild done last)
  | kind => if indent ≤ n.indent then n.putEntry kind chars offset indent done last else none

/-- Puts a lexeme into a list whose items stand on lines of their own. -/
def putSeq (n : Nest) (kind : Kind) (chars : List Char) (offset indent : Nat)
    (done : List Entry) (last : Entry) : Option Nest :=
  let token := n.token kind chars
  let rebuild := Frame.seq offset indent
  let value := if indent < n.indent then n.openValue kind chars else none
  match kind with
  | .newline => some (n.putLineEnd token rebuild done last)
  | .space | .comment => some (n.putBlank token indent rebuild done last)
  | .anchor | .tag =>
    if last.value.isSome || n.indent ≤ indent then value
    else some (n.setTop (rebuild done (last.addProp token)))
  | .seqItem =>
    if n.indent = indent then
      if last.value.isSome || hasKind .seqItem last.start then
        some (n.setTop (rebuild (done ++ [last]) (.ofStart [token])))
      else some (n.setTop (rebuild done (last.addProp token)))
    else value
  | _ => value

end Nest

/-! ## Nesting lexemes

The lexemes of a text are put into layout trees one by one. A lexeme that does not belong to the top
tree closes it: the tree moves into the one below, and the lexeme is tried there. Closing shortens
the stack, so the trying ends.
-/

namespace Nest

/-- Puts a lexeme into the top tree, unless it does not belong there. -/
def putTop (n : Nest) (kind : Kind) (chars : List Char) (top : Frame) : Option Nest :=
  match top with
  | .document offset start value after => n.putDocument kind chars offset start value after
  | .documentEnd offset source after => some (n.putDocumentEnd kind chars offset source after)
  | .inline inline offset indent source after =>
    n.putInline kind chars inline offset indent source after
  | .block offset indent header _ => n.putBlock kind chars offset indent header
  | .map offset indent done last => n.putMap kind chars offset indent done last
  | .seq offset indent done last => n.putSeq kind chars offset indent done last
  | .flow offset indent start items close =>
    n.putFlow kind chars offset indent start items close

/-- Puts a lexeme where it belongs, closing the trees to which it does not belong. -/
def put (n : Nest) (kind : Kind) (chars : List Char) : Nest :=
  match _h : n.stack with
  | [] =>
    if kind = .docEnd then n.push (.documentEnd n.offset chars []) else n.putStream kind chars
  | top :: _ =>
    if kind = .docEnd && !top.isDocumentEnd then
      n.closeAll.push (.documentEnd n.offset chars [])
    else
      match n.putTop kind chars top with
      | some n => n
      | none => (n.trimEntry kind).close.put kind chars
termination_by n.stack.length
decreasing_by
  rw [length_close, length_trimEntry, _h]
  simp

/-! ### The whole text -/

/-- Moves the place behind a lexeme. -/
def advance (n : Nest) (chars : List Char) : Nest :=
  { n with offset := n.offset + unitLength chars }

/-- Puts the source of a scalar where it belongs and moves on. -/
def nextScalar (n : Nest) (chars : List Char) : Nest :=
  ({ n with atNewline := false, scalarDue := false }.put .scalar chars).advance chars

/-- Puts a lexeme that is known by its characters where it belongs and moves on. The signs of marks
take no room. -/
def nextText (n : Nest) (chars : List Char) : Nest :=
  match Kind.ofText? chars with
  | none => (n.insert (.broken n.offset (.notAToken chars) chars)).advance chars
  | some .scalar => { n with atNewline := false, scalarDue := true }
  | some .docMode => n.put .docMode chars
  | some .flowErrorEnd => n.put .flowErrorEnd chars
  | some kind =>
    let size := unitLength chars
    let n := n.put kind chars
    let n :=
      match kind with
      | .newline =>
        { n with atNewline := true, indent := 0, starts := (n.offset + size) :: n.starts }
      | .space =>
        if n.atNewline && chars.head? = some ' ' then { n with indent := n.indent + size } else n
      | .explicitKey | .mapValue | .seqItem =>
        if n.atNewline then { n with indent := n.indent + size } else n
      | _ => { n with atNewline := false }
    n.advance chars

/-- Puts the next lexeme where it belongs and moves on. When the source of a scalar is due, whatever
comes is taken for it. -/
def next (n : Nest) (lexeme : Lexeme) : Nest :=
  if n.scalarDue then
    match lexeme with
    | .documentMark => n.nextScalar documentSign
    | .flowEndMark => n.nextScalar flowEndSign
    | .scalar chars => (n.nextScalar scalarSign).nextText chars
    | .text chars => n.nextScalar chars
  else
    match lexeme with
    | .documentMark => n.nextText documentSign
    | .flowEndMark => n.nextText flowEndSign
    | .scalar chars => n.nextScalar chars
    | .text chars => n.nextText chars

/-- The state before the first lexeme. -/
def initial : Nest := ⟨0, 0, true, false, false, [], [0], []⟩

/-- The parts and the line starts of a text. -/
def ofText (text : List Char) : List Part × List Nat :=
  let n := ((Lexeme.ofText text).foldl next initial).closeAll
  (n.parts.reverse, n.starts.reverse)

end Nest

end LineSum.Yaml
