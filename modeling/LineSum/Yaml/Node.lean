import LineSum.Config.Value
import LineSum.Diagnostic
import LineSum.Json.Tree
import LineSum.Text.Basic
import LineSum.Text.Utf8
import LineSum.Yaml.Scalar.Reading
import LineSum.Yaml.Tree

/-!
# Nodes

Nodes with their stretches of text, the tags that nodes can have, and what keeps nodes from having a
value.
-/

namespace LineSum.Yaml

/-! ## The nodes of a document

A node is a part of a document that stands for a value, with the stretch of text that it covers and
the comments around it. An alias stands for the node that bears an anchor of that name.
-/

/-- How a scalar is written. -/
inductive Style where
  | plain
  | singleQuoted
  | doubleQuoted
  | literal
  | folded
  deriving DecidableEq, Repr, Inhabited

/-- An anchor, with its place in the text. -/
structure Anchor where
  name : String
  offset : Nat
  deriving DecidableEq, Repr, Inhabited

/-- What belongs to a node besides its content: its anchor and its tag, the stretch of text that it
covers, whether a blank line stands before it, and the comments before and behind it; an empty
comment is none. -/
structure Head where
  anchor : Option Anchor
  tag : Option String
  span : Option Span
  blankBefore : Bool
  commentBefore : String
  comment : String
  deriving DecidableEq, Repr, Inhabited

namespace Head

/-- The head of a node about which nothing is known but where it stands. -/
def atSpan (span : Option Span) : Head := ⟨none, none, span, false, "", ""⟩

/-- Adds a comment behind the node. -/
def addComment (head : Head) (comment : String) : Head :=
  if comment.isEmpty then head
  else { head with
    comment := if head.comment.isEmpty then comment else head.comment ++ "\n" ++ comment }

end Head

/-- A node. The value of a pair may be missing altogether. A set is a map without
values; a list of pairs is a list each item of which is one pair, and may be a map that
keeps the order of its keys. -/
inductive Node where
  | scalar (head : Head) (style : Style) (source : String) (reading : Reading)
  | list (head : Head) (items : List Node)
  | pairs (head : Head) (ordered : Bool) (items : List (Node × Option Node))
  | map (head : Head) (isSet : Bool) (entries : List (Node × Option Node))
  | alias (head : Head) (name : String)
  deriving Inhabited

/-- A pair of a map. -/
abbrev NodePair := Node × Option Node

namespace Node

/-- What belongs to the node besides its content. -/
def head : Node → Head
  | scalar head _ _ _ => head
  | list head _ => head
  | pairs head _ _ => head
  | map head _ _ => head
  | .alias head _ => head

/-- Changes what belongs to the node besides its content. -/
def mapHead (f : Head → Head) : Node → Node
  | scalar head style source reading => scalar (f head) style source reading
  | list head items => list (f head) items
  | pairs head ordered items => pairs (f head) ordered items
  | map head isSet entries => map (f head) isSet entries
  | .alias head name => .alias (f head) name

/-- The stretch of text that the node covers. -/
def span (node : Node) : Option Span := node.head.span

/-- Adds a comment behind the node. -/
def addComment (node : Node) (comment : String) : Node :=
  node.mapHead (·.addComment comment)

/-- Whether the node is a list or a map of some kind. -/
def isCollection : Node → Bool
  | list _ _ => true
  | pairs _ _ _ => true
  | map _ _ _ => true
  | _ => false

/-- Whether the node is a scalar. -/
def isScalar : Node → Bool
  | scalar _ _ _ _ => true
  | _ => false

/-- The name under which a scalar can be the key of a field. -/
def name? : Node → Option String
  | scalar _ _ _ reading => some reading.datum.text
  | _ => none

/-- The node of the entry of a map under a name: that of its value, or that of its key where there
is no value. -/
def child? (node : Node) (name : String) : Option Node :=
  match node with
  | map _ _ entries =>
    (entries.find? fun pair => pair.1.name? = some name).map fun pair => pair.2.getD pair.1
  | _ => none

end Node

/-! ## Tags

A tag names the type of a node. Most tags are written with a shorthand for their beginning, and the
directives before a document may declare shorthands.
-/

/-- The shorthands for tags: each handle and what it stands for. -/
abbrev TagHandles := Record String

namespace TagHandles

/-- The handle that every document has. -/
def core : TagHandles := [("!!", coreTag "")]

/-- The name that cannot be declared. -/
def undeclarable : String := "__proto__"

/-- Declares a handle, perhaps anew. -/
def declare (handles : TagHandles) (handle meaning : String) : TagHandles :=
  if handle = undeclarable then handles else handles.put handle meaning

end TagHandles

/-- Decodes a text in which some bytes are written as a percent sign and two
digits of base sixteen. -/
def decodePercent (cs : List Char) : Option String :=
  (bytes cs).bind decodeUtf8?
where
  /-- The bytes of the text. -/
  bytes : List Char → Option (List Nat)
    | [] => some []
    | '%' :: a :: b :: rest =>
      if isHexDigit a && isHexDigit b then (bytes rest).map (hexValue [a, b] :: ·) else none
    | c :: rest => if c = '%' then none else (bytes rest).map (encodeUtf8 c ++ ·)

/-- The name of a tag. A verbatim tag without a name is no tag at all. -/
def readTag (handles : TagHandles) (token : Token) : Reported (Option String) :=
  let source := String.ofList token.chars
  let bad (problem : Problem) : List Report := [.atToken token problem]
  match token.chars with
  | ['!'] => ⟨some "!", []⟩
  | '!' :: '<' :: rest =>
    let verbatim := String.ofList rest.dropLast
    if verbatim = "!" || verbatim = "!!" then ⟨none, bad (.verbatimTag source)⟩
    else ⟨if verbatim.isEmpty then none else some verbatim,
      if rest.getLast? = some '>' then [] else bad .verbatimTagEnd⟩
  | '!' :: _ =>
    let suffix := (token.chars.reverse.takeWhile (· != '!')).reverse
    let handle := String.ofList (token.chars.take (token.chars.length - suffix.length))
    let noSuffix := if suffix.isEmpty then bad (.tagWithoutSuffix source) else []
    match handles.get? handle with
    | some start =>
      match decodePercent suffix with
      | some name => ⟨some (start ++ name), noSuffix⟩
      | none => ⟨none, noSuffix ++ bad .tagNotEncoded⟩
    | none =>
      if handle = "!" then ⟨some source, noSuffix⟩
      else ⟨none, noSuffix ++ bad (.unknownTagHandle source)⟩
  | _ => ⟨none, bad (.tagNotValid source)⟩

/-- The characters of a tag that are written as bytes behind a handle, because they have a meaning
between brackets or would begin another handle. -/
def escapeTag (name : List Char) : List Char :=
  name.flatMap fun c =>
    if "!,[]\x7b\x7d".toList.contains c then
      ['%', (hexDigit (c.toNat / 16)).toUpper, (hexDigit (c.toNat % 16)).toUpper]
    else [c]

/-- The text of a tag: with the first handle that fits, or in full. -/
def tagText (handles : TagHandles) (tag : String) : List Char :=
  let fits (entry : String × String) : Bool := entry.2.toList.isPrefixOf tag.toList
  match handles.find? fits with
  | some (handle, meaning) => handle.toList ++ escapeTag (tag.toList.drop meaning.length)
  | none =>
    if tag.toList.head? = some '!' then tag.toList else "!<".toList ++ tag.toList ++ ['>']

/-! ## What keeps a node from having a value

A document can follow all rules for its layout and still stand for nothing: an alias may have no
anchor, or what a map takes over may not be a map.
-/

/-- What keeps a node from having a value. -/
inductive NodeError where
  /-- No node before an alias bears its name. -/
  | unresolvedAlias (name : String)
  /-- The aliases of a document say too much. -/
  | excessiveAliases
  /-- The node that an alias in a key stands for has not been looked at yet. -/
  | unseenAlias (name : String)
  /-- The name of an anchor in a key cannot be written. -/
  | unwritableAnchor (name : String)
  /-- What should be a moment is written as something else in a key. -/
  | unwritableMoment
  /-- A map takes over the entries of something that is no map. -/
  | mergeSource
  /-- A map takes over an item of a set that has no parts. -/
  | mergeItem
  /-- A map takes over its own entries. -/
  | endlessMerge
  /-- A map that keeps the order of its keys has a key twice. -/
  | repeatedOrderedKey
  deriving DecidableEq, Repr

/-- The sentence that reports what is wrong. -/
def NodeError.message : NodeError → String
  | unresolvedAlias name | unseenAlias name =>
    s!"Unresolved alias (the anchor must be set before the alias): {name}"
  | excessiveAliases => "Excessive alias count indicates a resource exhaustion attack"
  | unwritableAnchor name =>
    "Anchor must not contain whitespace or control characters: " ++ JsonTree.quote name
  | unwritableMoment => "value?.toISOString is not a function"
  | mergeSource => "Merge sources must be maps or map aliases"
  | mergeItem => ".for is not iterable"
  | endlessMerge => "Maximum call stack size exceeded"
  | repeatedOrderedKey => "Ordered maps must not include duplicate keys"

end LineSum.Yaml
