import LineSum.Yaml.Document
import LineSum.Yaml.Flow.Text
import LineSum.Yaml.Node.Content

/-!
# What a node stands for

The entries of a map get names, an alias gets the content of its anchor, and a map may take over the
entries of other maps. What is taken over is read anew at the place that asks for it, so that a map
that takes over itself has no end.
-/

namespace LineSum.Yaml

/-- What the nodes of a document are read with: how keys are written, and the nodes with anchors. -/
structure Setting where
  script : Script
  anchored : List Node

/-- Reading keeps account of the anchors that have been passed. -/
abbrev Account := StateT Uses (Except NodeError)

/-- What a map is read as: a record has names, a map has keys of all kinds, and
a set has no values. -/
inductive MapForm where
  | record
  | map
  | set
  deriving DecidableEq, Repr

namespace Node

/-- Whether a key asks for the entries of other maps. -/
def isMergeKey (version : Version) : Node → Bool
  | scalar _ style _ reading =>
    reading.datum = .mergeSign ||
      (version = .older && style = .plain && reading.datum = .atom (.string Datum.mergeText))
  | _ => false

/-- The name of an unfinished collection as a key of a part of itself that is taken over. -/
def enclosingName : Node → String
  | map _ false _ => "[object Object]"
  | map _ true _ => "[object Set]"
  | pairs _ true _ => "[object Map]"
  | _ => ""

mutual

/-- How deep the parts of a node lie. -/
def height : Node → Nat
  | scalar _ _ _ _ => 1
  | list _ items => heightOfItems items + 1
  | pairs _ _ items => heightOfPairs items + 1
  | map _ _ entries => heightOfPairs entries + 1
  | .alias _ _ => 1

/-- The greatest height among items. -/
def heightOfItems : List Node → Nat
  | [] => 0
  | item :: rest => max item.height (heightOfItems rest)

/-- The greatest height among pairs. -/
def heightOfPairs : List NodePair → Nat
  | [] => 0
  | (key, none) :: rest => max key.height (heightOfPairs rest)
  | (key, some value) :: rest => max (max key.height value.height) (heightOfPairs rest)

end

mutual

/-- The types that are known from their use in a node on. -/
def usedTypes : Node → List NodeType
  | scalar head _ _ _ => ((head.tag.bind NodeType.ofTag?).filter NodeType.isForScalars).toList
  | list _ items => usedByItems items
  | pairs _ ordered items => (if ordered then .omap else .pairs) :: usedByPairs items
  | map _ isSet entries => (if isSet then [.set] else []) ++ usedByPairs entries
  | .alias _ _ => []

/-- The types that are known from their use in items on. -/
def usedByItems : List Node → List NodeType
  | [] => []
  | item :: rest => item.usedTypes ++ usedByItems rest

/-- The types that are known from their use in pairs on. -/
def usedByPairs : List NodePair → List NodeType
  | [] => []
  | (key, none) :: rest => key.usedTypes ++ usedByPairs rest
  | (key, some value) :: rest => key.usedTypes ++ value.usedTypes ++ usedByPairs rest

end

end Node

namespace Setting

/-- The node that an alias stands for; other nodes stand for themselves. -/
def target? (s : Setting) : Node → Option Node
  | .alias head name => resolveAlias s.anchored name (Node.alias head name).offset
  | node => some node

/-- The name of the entry with a key of the given content. -/
def entryName (s : Setting) (key : Node) (content : Content) : Account String := do
  match content, key with
  | .datum (.atom .null), _ => return ""
  | .datum (.atom value), _ => return value.text
  | .datum .mergeSign, _ => return Datum.mergeSign.text
  | _, .scalar _ _ _ reading => return reading.datum.text
  | _, key =>
    let names := (← get).map (·.name)
    let (text, _) ← (key.keyText s.script).run names
    return String.ofList text

mutual

/-- The content of a node. -/
def content (s : Setting) : Nat → Node → Account Content
  | 0, _ => throw .endlessMerge
  | depth + 1, .alias head name => do
    match s.target? (.alias head name) with
    | none => throw (.unresolvedAlias name)
    | some target =>
      if ((← get).at? target.anchorOffset).isNone then
        discard (s.content depth target)
      match (← get).at? target.anchorOffset with
      | none => return .missing
      | some use =>
        set (← (← get).mention s.anchored target use)
        return use.content.getD (.enclosing use.offset target.enclosingName)
  | depth + 1, node => do
    modify (·.enter node.head)
    let content ←
      match node with
      | .scalar _ _ _ reading => pure (.datum reading.datum)
      | .list _ items => Content.list <$> items.mapM (s.content depth)
      | .pairs _ true items => do
        let members ← items.foldlM (s.addOrdered depth) []
        pure (.orderedMap (members.reverse.map fun m => (m.key, m.value)))
      | .pairs _ false items =>
        Content.list <$> items.mapM fun pair => Member.recordOf <$> s.members depth .record pair
      | .map _ false entries => do
        let members ← entries.mapM (s.members depth .record)
        pure (Member.recordOf members.flatten)
      | .map _ true entries => do
        let members ← entries.mapM (s.members depth .set)
        pure (Member.setOf members.flatten)
      | .alias _ _ => pure .missing
    modify (·.leave node.head content)
    return content

/-- The entry of a pair in a map that is read in a form, or the entries that the pair takes over. -/
def members (s : Setting) : Nat → MapForm → NodePair → Account (List Member)
  | 0, _, _ => throw .endlessMerge
  | depth + 1, form, (key, value) => do
    if key.isMergeKey s.script.schema.version then
      s.takenOver depth value
    else
      let keyContent ← s.content depth key
      let identity := (s.target? key).bind fun node => node.head.anchor.map Anchor.offset
      let name ← if form = .record then s.entryName key keyContent else pure ""
      let valueContent ←
        match form, value with
        | .set, _ => pure .missing
        | _, none => pure .null
        | _, some value => s.content depth value
      return [⟨true, name, keyContent, identity, valueContent⟩]

/-- Adds a pair to a map that keeps the order of its keys. -/
def addOrdered (s : Setting) : Nat → List Member → NodePair → Account (List Member)
  | 0, _, _ => throw .endlessMerge
  | depth + 1, seen, (key, value) => do
    let keyContent ← s.content depth key
    let identity := (s.target? key).bind fun node => node.head.anchor.map Anchor.offset
    let valueContent ←
      match value with
      | none => pure .null
      | some value => s.content depth value
    let member : Member := ⟨true, "", keyContent, identity, valueContent⟩
    if seen.any (·.sameKey member) then throw .repeatedOrderedKey
    else return member :: seen

/-- The entries that a map takes over: those of a map, or those of all maps in a list. -/
def takenOver (s : Setting) : Nat → Option Node → Account (List Member)
  | 0, _ => throw .endlessMerge
  | depth + 1, value => do
    match value.bind s.target? with
    | some (.list _ items) =>
      let members ← items.mapM fun item => s.takenFrom depth (s.target? item)
      return members.flatten
    | some (.pairs _ _ []) => return []
    | source => s.takenFrom depth source

/-- The entries that are taken over from one node. -/
def takenFrom (s : Setting) : Nat → Option Node → Account (List Member)
  | 0, _ => throw .endlessMerge
  | depth + 1, source => do
    match source with
    | some (.map _ false entries) =>
      let members ← entries.mapM (s.members depth .map)
      return Member.ofMap members.flatten
    | some (.map _ true entries) =>
      let items ← entries.mapM (s.members depth .set)
      items.flatten.mapM fun item =>
        match item.ofItem? with
        | some member => pure member
        | none => throw .mergeItem
    | _ => throw .mergeSource

end

/-- More steps than any document takes the maps of which do not take over themselves, and more than
it takes to pass the limit for aliases by a map that does: between two aliases a path leads down,
and what follows an alias again and again mentions it each time. -/
def stepLimit (s : Setting) (root : Node) : Nat :=
  8 * (root.height + 1) * (s.anchored.length + 2) * (aliasLimit + 2)

end Setting

/-- The value of content in which collections contain themselves, which is
followed so many times. -/
def Content.valueWithin (uses : Uses) : Nat → Content → Value
  | 0, content => content.toValue fun _ => .absent
  | times + 1, content => content.toValue fun offset =>
    match (uses.at? offset).bind (·.content) with
    | some content => content.valueWithin uses times
    | none => .absent

/-- How often a collection that contains itself is followed: a configuration has maps of maps of
lists, and a look at the items of those lists. -/
def unrollLimit : Nat := 4

/-- The value of the node of a document. -/
def Node.value (directives : Directives) (root : Node) : Except NodeError Value := do
  let schema : Schema := ⟨directives.version, root.usedTypes⟩
  let setting : Setting := ⟨⟨schema, directives.tags⟩, root.anchored⟩
  let (content, uses) ← (setting.content (setting.stepLimit root) root).run []
  return content.valueWithin uses unrollLimit

/-- The value of a document; one without content is null. -/
def Document.value (d : Document) : Except NodeError Value :=
  match d.root with
  | some root => root.value d.directives
  | none => .ok (.atom .null)

end LineSum.Yaml
