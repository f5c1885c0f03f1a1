import LineSum.Config.Value
import LineSum.Yaml.Node
import LineSum.Yaml.Node.Leaf

/-!
# What is in a node

The content of nodes, by which keys are compared, and what aliases stand for.
-/

namespace LineSum.Yaml

/-! ## The content of nodes

What a node stands for, before it is known what a configuration makes of it: besides lists and
records there are sets and maps that keep the order of their keys. No configuration looks at what is
in these, but other maps can take it over.
-/

/-- What a node stands for. -/
inductive Content where
  | datum (value : Datum)
  | list (items : List Content)
  | record (entries : List (String × Content))
  | set (items : List Content)
  | orderedMap (entries : List (Content × Content))
  | missing
  /-- The collection with its anchor at an offset, which contains this content,
  and its name as a key. -/
  | enclosing (offset : Nat) (name : String)
  deriving Inhabited

namespace Content

/-- Null. -/
def null : Content := datum (.atom .null)

/-- A string. -/
def string (text : List Char) : Content := datum (.string text)

mutual

/-- The name of the entry that a map takes over under a key; the sign for taking over is no name. -/
def name? : Content → Option String
  | datum .mergeSign => none
  | datum value => some value.text
  | list items => some (",".intercalate (names items))
  | record _ => some "[object Object]"
  | set _ => some "[object Set]"
  | orderedMap _ => some "[object Map]"
  | missing => some "undefined"
  | enclosing _ name => some name

/-- The names of items; null and what is missing have empty ones. -/
def names : List Content → List String
  | [] => []
  | item :: rest =>
    (match item with
      | datum (.atom .null) => ""
      | missing => ""
      | item => item.name?.getD "") :: names rest

end

/-- The value that a configuration sees in bytes: a map from their places. -/
def valueOfBytes (content : List Nat) : Value :=
  .map ((content.zipIdx).map fun (byte, i) =>
    (toString i, .atom (.number (.ofFraction false byte 1))))

mutual

/-- The value that a configuration sees. -/
def toValue (outer : Nat → Value) : Content → Value
  | datum (.atom value) => .atom value
  | datum (.bytes content) => valueOfBytes content
  | datum (.moment _) => .map []
  | datum .mergeSign => .other
  | list items => .list (toValues outer items)
  | record entries => .map (toEntries outer entries)
  | set _ => .map []
  | orderedMap _ => .map []
  | missing => .absent
  | enclosing offset _ => outer offset

/-- The values that a configuration sees in items. -/
def toValues (outer : Nat → Value) : List Content → List Value
  | [] => []
  | item :: rest => toValue outer item :: toValues outer rest

/-- The values that a configuration sees in entries. -/
def toEntries (outer : Nat → Value) : List (String × Content) → List (String × Value)
  | [] => []
  | (name, item) :: rest => (name, toValue outer item) :: toEntries outer rest

end

end Content

/-! ### Entries on the way into a map -/

/-- An entry on its way into a map: whether it is one of the map's own, the name and the content of
its key, the place of the anchor of the key, and the value. -/
structure Member where
  isOwn : Bool
  name : String
  key : Content
  identity : Option Nat
  value : Content

namespace Member

/-- An entry that is taken over. -/
def takenOver (key value : Content) : Member := ⟨false, "", key, none, value⟩

/-- Whether two entries have the same key. Keys that a configuration knows no equality for are the
same only if they come from the same anchor. -/
def sameKey (a b : Member) : Bool :=
  match a.key, b.key with
  | .datum (.atom x), .datum (.atom y) => Datum.sameEntry (.atom x) (.atom y)
  | _, _ => a.identity.isSome && a.identity = b.identity

/-- Adds an entry to those of a record: its own ones replace others, and those that
are taken over do not. -/
def addTo (entries : Record Content) (m : Member) : Record Content :=
  if m.isOwn then entries.put m.name m.value
  else
    match m.key.name? with
    | some name => if (entries.get? name).isSome then entries else entries.put name m.value
    | none => entries

/-- The record of entries. -/
def recordOf (members : List Member) : Content :=
  .record (members.foldl addTo [])

/-- Adds an entry to those of a map the keys of which are more than names. -/
def addToMap (members : List Member) (m : Member) : List Member :=
  if members.any (·.sameKey m) then
    if m.isOwn then members.map fun other => if other.sameKey m then { other with value := m.value }
      else other
    else members
  else members ++ [m]

/-- The entries that are taken over from a map. -/
def ofMap (members : List Member) : List Member :=
  (members.foldl addToMap []).map ({ · with isOwn := false })

/-- The set of the keys of entries. -/
def setOf (members : List Member) : Content :=
  .set ((ofMap members).map (·.key))

/-- The parts of an item of a set, if it has any. -/
def parts? (item : Member) : Option (List Content) :=
  match item.key with
  | .list parts => some parts
  | .set parts => some parts
  | .orderedMap entries => some (entries.map fun (key, value) => .list [key, value])
  | .datum (.atom (.string text)) => some (text.toList.map fun c => Content.string [c])
  | .datum (.bytes bytes) =>
    some (bytes.map fun byte => .datum (.atom (.number (.ofFraction false byte 1))))
  | _ => none

/-- The entry that is taken over from an item of a set: its first two parts. -/
def ofItem? (item : Member) : Option Member :=
  item.parts?.map fun parts => .takenOver (parts.getD 0 .missing) (parts.getD 1 .missing)

end Member

/-! ## Anchors and aliases

An alias stands for the nearest node before it that bears its name as an anchor. A document that
says too much by aliases is refused: the uses of an anchor, its own mention included, times what a
use of it costs may not pass a limit.
-/

/-- The greatest cost of all uses of an anchor. -/
def aliasLimit : Nat := 100

namespace Node

mutual

/-- The nodes with an anchor, in the order in which they stand in the document. -/
def anchored (node : Node) : List Node :=
  let own := if node.head.anchor.isSome then [node] else []
  match node with
  | .scalar _ _ _ _ => own
  | .list _ items => own ++ anchoredItems items
  | .pairs _ _ items => own ++ anchoredPairs items
  | .map _ _ entries => own ++ anchoredPairs entries
  | .alias _ _ => []

/-- The nodes with an anchor among items and inside of them. -/
def anchoredItems : List Node → List Node
  | [] => []
  | item :: rest => item.anchored ++ anchoredItems rest

/-- The nodes with an anchor among pairs and inside of them. -/
def anchoredPairs : List NodePair → List Node
  | [] => []
  | (key, none) :: rest => key.anchored ++ anchoredPairs rest
  | (key, some value) :: rest => key.anchored ++ value.anchored ++ anchoredPairs rest

end

/-- The offset of the anchor of a node. -/
def anchorOffset (node : Node) : Nat := (node.head.anchor.map Anchor.offset).getD 0

/-- Where a node starts. -/
def offset (node : Node) : Nat := (node.span.map Span.first).getD 0

end Node

/-- The node that an alias at an offset stands for. -/
def resolveAlias (anchored : List Node) (name : String) (offset : Nat) : Option Node :=
  anchored.reverse.find? fun node =>
    node.head.anchor.any fun anchor => anchor.name = name && anchor.offset < offset

/-- An anchor that has been passed: its place, its name, how often it has been mentioned,
what one use of it costs, which is zero as long as it is not known, and the content of its
node if that is finished. -/
structure Use where
  offset : Nat
  name : String
  mentions : Nat
  cost : Nat
  content : Option Content

/-- The anchors that have been passed. -/
abbrev Uses := List Use

namespace Uses

/-- The use of the anchor at an offset. -/
def at? (uses : Uses) (offset : Nat) : Option Use :=
  uses.find? (·.offset = offset)

/-- Notes a use of an anchor. -/
def note (uses : Uses) (use : Use) : Uses :=
  if uses.any (·.offset = use.offset) then
    uses.map fun other => if other.offset = use.offset then use else other
  else uses ++ [use]

/-- Notes that a node has been come to. -/
def enter (uses : Uses) (head : Head) : Uses :=
  match head.anchor with
  | some anchor => uses.note ⟨anchor.offset, anchor.name, 1, 0, none⟩
  | none => uses

/-- Notes the content of a node. -/
def leave (uses : Uses) (head : Head) (content : Content) : Uses :=
  match head.anchor with
  | some anchor =>
    uses.map fun use => if use.offset = anchor.offset then { use with content } else use
  | none => uses

mutual

/-- What a use of a node costs: for a collection that of its most costly part, for an alias all that
its anchor has cost so far. -/
def costOf (uses : Uses) (anchored : List Node) (node : Node) : Nat :=
  match node with
  | .scalar _ _ _ _ => 1
  | .list _ items => costOfItems uses anchored items
  | .pairs _ _ items => costOfPairs uses anchored items
  | .map _ _ entries => costOfPairs uses anchored entries
  | .alias head name =>
    match (resolveAlias anchored name ((head.span.map Span.first).getD 0)).bind fun target =>
        uses.at? target.anchorOffset with
    | some use => use.mentions * use.cost
    | none => 0

/-- The cost of the most costly item. -/
def costOfItems (uses : Uses) (anchored : List Node) : List Node → Nat
  | [] => 0
  | item :: rest => max (costOf uses anchored item) (costOfItems uses anchored rest)

/-- The cost of the most costly key or value; a missing value costs as much as a scalar. -/
def costOfPairs (uses : Uses) (anchored : List Node) : List NodePair → Nat
  | [] => 0
  | (key, none) :: rest =>
    max (max (costOf uses anchored key) 1) (costOfPairs uses anchored rest)
  | (key, some value) :: rest =>
    max (max (costOf uses anchored key) (costOf uses anchored value))
      (costOfPairs uses anchored rest)

end

/-- Notes one more mention of an anchor, unless the document says too much by it. -/
def mention (uses : Uses) (anchored : List Node) (target : Node) (use : Use) :
    Except NodeError Uses :=
  let mentions := use.mentions + 1
  let known := uses.note { use with mentions }
  let cost := if use.cost = 0 then known.costOf anchored target else use.cost
  if aliasLimit < mentions * cost then .error .excessiveAliases
  else .ok (uses.note { use with mentions, cost })

end Uses

end LineSum.Yaml
