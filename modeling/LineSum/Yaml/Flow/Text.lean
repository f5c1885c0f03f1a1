import LineSum.Text.Basic
import LineSum.Yaml.Flow.Scalar
import LineSum.Yaml.Node

/-!
# Collections as keys

How collections are written, with their comments, where they are keys of a map.
-/

namespace LineSum.Yaml

/-! ## Comments between brackets

How the text of a comment gets its sign and its indentation, and where it stands behind an item.
-/

/-- Whether a character ends a line of a comment. -/
def isLineEnd (c : Char) : Bool :=
  c = '\n' || c = '\r' || c = '\u2028' || c = '\u2029'

/-- Puts a sign at the beginning of each line that is not empty. A line that is a single space gives
it up for the sign. -/
def signComment (text : List Char) : List Char :=
  go true text
where
  /-- Goes on at the beginning of a line or inside of it. -/
  go (atStart : Bool) : List Char → List Char
    | [] => []
    | c :: rest =>
      if isLineEnd c then c :: go true rest
      else if !atStart then c :: go false rest
      else if c = ' ' && (rest.isEmpty || rest.head?.any isLineEnd) then '#' :: go false rest
      else '#' :: c :: go false rest

/-- Indents each line that holds more than spaces. Of a comment without any text the first line end
is dropped instead. -/
def indentComment (indent : Nat) (text : List Char) : List Char :=
  if !text.isEmpty && text.all (· = '\n') then text.drop 1
  else if indent = 0 then text
  else go true text
where
  /-- Whether nothing but spaces stands on the rest of the line. -/
  onlySpaces (text : List Char) : Bool :=
    match text.dropWhile (· = ' ') with
    | [] => true
    | c :: _ => isLineEnd c
  /-- Goes on at the beginning of a line or inside of it. -/
  go (atStart : Bool) : List Char → List Char
    | [] => []
    | c :: rest =>
      let margin := if atStart && !onlySpaces (c :: rest) then List.replicate indent ' ' else []
      margin ++ c :: go (isLineEnd c) rest

/-- A comment behind a text: on the same line if it has only one. -/
def commentBehind (indent : Nat) (comment : String) (text : List Char) : List Char :=
  let comment := signComment comment.toList
  if text.getLast? = some '\n' then indentComment indent comment
  else if comment.contains '\n' then '\n' :: indentComment indent comment
  else (if text.getLast? = some ' ' then [] else [' ']) ++ comment

/-- A comment as lines of its own, without the blanks before the first one. -/
def commentLines (indent : Nat) (comment : String) : List Char :=
  (indentComment indent (signComment comment.toList)).dropWhile isBlank

/-! ## Nodes between brackets

A list or a map that is the key of a pair gets a name: its text between brackets. Anchors, tags and
comments are kept, except those of the key itself. A collection that does not fit on a line, or that
has comments or blank lines in it, is written with one item on a line.
-/

/-- What writing depends on: the types that the document knows, and its shorthands for tags. -/
structure Script where
  schema : Schema
  tags : TagHandles

/-- Writing keeps the names of the anchors that an alias may refer to. -/
abbrev Writing := StateT (List String) (Except NodeError)

/-- The type that a tag names, if the document knows it. -/
def Script.type? (script : Script) (tag : Option String) : Option NodeType :=
  (tag.bind NodeType.ofTag?).filter script.schema.knows

/-- Checks that the name of an anchor can be written. -/
def checkAnchor (name : String) : Except NodeError Unit :=
  if name.toList.any fun c => c.toNat ≤ 0x19 || isBlank c || ",[]\x7b\x7d".toList.contains c then
    .error (.unwritableAnchor name)
  else .ok ()

/-- The anchor and the tag of a node, with a space between them. -/
def propsText (script : Script) (head : Head) : Writing (List Char) := do
  let anchor : List (List Char) ←
    match head.anchor with
    | some anchor =>
      checkAnchor anchor.name
      modify (anchor.name :: ·)
      pure ['&' :: anchor.name.toList]
    | none => pure []
  return [' '].intercalate (anchor ++ (head.tag.map (tagText script.tags)).toList)

/-- An item between brackets: the lines before it, its text, the comment behind it, and whether it
needs lines of its own in any case. -/
structure FlowItem where
  before : List (List Char)
  text : List Char
  comment : String
  isTall : Bool

namespace FlowItem

/-- The lines before a node. -/
def linesBefore (indent : Nat) (head : Head) : List (List Char) :=
  (if head.blankBefore then [[]] else []) ++
    if head.commentBefore.isEmpty then [] else [commentLines indent head.commentBefore]

/-- Whether the item cannot share a line with others. -/
def needsLines (item : FlowItem) : Bool :=
  item.isTall || !item.comment.isEmpty || !item.before.isEmpty || item.text.contains '\n'

/-- The lines of an item. -/
def lines (indent : Nat) (isLast : Bool) (item : FlowItem) : List (List Char) :=
  let text := item.text ++ if isLast then [] else [',']
  item.before ++
    [if item.comment.isEmpty then text else text ++ commentBehind indent item.comment text]

end FlowItem

/-- Items between brackets: on one line if they fit and none needs lines of its own. Comments behind
items are indented by `itemIndent`. -/
def bracketed (opening closing : Char) (indent itemIndent : Nat) (items : List FlowItem) :
    List Char :=
  let lines := items.dropLast.flatMap (·.lines itemIndent false) ++
    items.getLast?.toList.flatMap (·.lines itemIndent true)
  let width := totalSize (lines.map fun line => unitLength line + 2) + 2
  if items.isEmpty then [opening, closing]
  else if items.any FlowItem.needsLines || lineWidth < width then
    let margin := List.replicate (indent + 2) ' '
    opening :: lines.flatMap (fun line => '\n' :: if line.isEmpty then [] else margin ++ line) ++
      '\n' :: List.replicate indent ' ' ++ [closing]
  else opening :: ' ' :: [' '].intercalate lines ++ [' ', closing]

/-- Whether a node has to be announced by a question mark when it is a key. -/
def Node.isExplicitKey : Node → Bool
  | .scalar _ style _ _ => style = .literal || style = .folded
  | _ => true

/-- Whether the first line of a text holds nothing but an anchor and a tag. -/
def startsWithProps (text : List Char) : Bool :=
  let line := text.takeWhile (· != '\n')
  let behindSpace (text : List Char) : Option (List Char) :=
    match text.dropWhile (· != ' ') with
    | _ :: rest => some rest
    | [] => none
  match line with
  | '!' :: _ => !line.contains ' '
  | '&' :: _ =>
    match behindSpace line with
    | none => true
    | some rest => rest.head? = some '!' && !rest.contains ' '
  | _ => false

/-- What stands between a colon and a value. -/
def valueGap (indent : Nat) (isExplicit : Bool) (keyComment : String) (value : Node)
    (text : List Char) : List Char :=
  let line := '\n' :: List.replicate indent ' '
  let head := value.head
  if !keyComment.isEmpty || head.blankBefore || !head.commentBefore.isEmpty then
    (if head.blankBefore then ['\n'] else []) ++
      (if head.commentBefore.isEmpty then []
        else '\n' :: indentComment indent (signComment head.commentBefore.toList)) ++ line
  else if !isExplicit && value.isCollection then
    if text.contains '\n' && !startsWithProps text then line else [' ']
  else if text.isEmpty || text.head? = some '\n' then []
  else [' ']

/-- A spot behind an anchor and a tag. -/
def spotBehind (props : List Char) (spot : Spot) : Spot :=
  if props.isEmpty then spot
  else { spot with lead := some (spot.lead.getD 0 + unitLength props + 1) }

/-- The text of a collection behind its anchor and tag; text without brackets
goes to the next line. -/
def withProps (props : List Char) (spot : Spot) (text : List Char) : List Char × Option Nat :=
  let isBracketed := text.head? = some '[' || text.head? = some '\x7b'
  (if props.isEmpty then text
    else if isBracketed then props ++ ' ' :: text
    else props ++ '\n' :: List.replicate spot.indent ' ' ++ text, spot.lead)

/-- Whether a map is written without values: as a set, or because there are none. -/
def lacksValues (isSet : Bool) (entries : List NodePair) : Bool :=
  isSet || entries.all fun entry => entry.2.isNone

mutual

/-- The text of a node with its anchor and tag, and how many units may stand before the next one. -/
def nodeText (script : Script) (node : Node) (spot : Spot) : Writing (List Char × Option Nat) :=
  match node with
  | .alias _ name => do
    checkAnchor name
    if (← get).contains name then return ('*' :: name.toList, spot.lead)
    else throw (.unseenAlias name)
  | .scalar head style source reading => do
    let props ← propsText script head
    let spot := spotBehind props spot
    let text ←
      match script.type? head.tag with
      | some type => typedText script.schema.version type style source reading spot
      | none => pure (untypedText script.schema.version style source reading spot)
    return (if props.isEmpty then text else props ++ ' ' :: text, spot.lead)
  | .list head items => do
    let props ← propsText script head
    let spot := spotBehind props spot
    match (script.type? head.tag).bind misusedText? with
    | some text => return withProps props spot text
    | none =>
      let items ← itemTexts script items spot.indent spot.lead
      return withProps props spot (bracketed '[' ']' spot.indent (spot.indent + 4) items)
  | .pairs head _ pairs => do
    let props ← propsText script head
    let spot := spotBehind props spot
    match (script.type? head.tag).bind misusedText? with
    | some text => return withProps props spot text
    | none =>
      let items ← pairTexts script pairs spot.indent (spot.indent + 4) spot.lead false
      return withProps props spot (bracketed '[' ']' spot.indent (spot.indent + 4) items)
  | .map head isSet entries => do
    let props ← propsText script head
    let spot := spotBehind props spot
    match (script.type? head.tag).bind misusedText? with
    | some text => return withProps props spot text
    | none =>
      let items ← pairTexts script entries spot.indent (spot.indent + 2) spot.lead
        (lacksValues isSet entries)
      return withProps props spot (bracketed '\x7b' '\x7d' spot.indent (spot.indent + 2) items)

/-- The items of a list. -/
def itemTexts (script : Script) (items : List Node) (indent : Nat) (lead : Option Nat) :
    Writing (List FlowItem) :=
  match items with
  | [] => return []
  | item :: rest => do
    let (text, lead) ← nodeText script item ⟨indent + 4, false, lead⟩
    let first : FlowItem :=
      ⟨FlowItem.linesBefore indent item.head, text, item.head.comment, false⟩
    return first :: (← itemTexts script rest indent lead)

/-- The pairs of a collection. -/
def pairTexts (script : Script) (pairs : List NodePair) (indent itemIndent : Nat)
    (lead : Option Nat) (noValues : Bool) : Writing (List FlowItem) :=
  match pairs with
  | [] => return []
  | (key, value?) :: rest => do
    let inner := itemIndent + 2
    let isExplicit := key.isExplicitKey
    let (keyText, behindKey) ← nodeText script key ⟨inner, !isExplicit && !noValues, lead⟩
    let before := FlowItem.linesBefore indent key.head
    let keyComment := key.head.comment
    let alone : List Char :=
      if keyText.isEmpty then ['?'] else if isExplicit then '?' :: ' ' :: keyText else keyText
    let first : FlowItem ←
      match value? with
      | none => pure ⟨before, alone, keyComment, !keyComment.isEmpty⟩
      | some value => do
        let isTall := !keyComment.isEmpty || !value.head.commentBefore.isEmpty
        if noValues then pure ⟨before, alone, value.head.comment, isTall⟩
        else
          let behind (text : List Char) : List Char :=
            if keyComment.isEmpty then text else text ++ commentBehind inner keyComment text
          let keyPart :=
            if isExplicit then
              "? ".toList ++ behind keyText ++ '\n' :: List.replicate itemIndent ' ' ++ [':']
            else behind (keyText ++ [':'])
          let lead := if !isExplicit && keyComment.isEmpty && value.isScalar then
            some (unitLength keyPart + 1) else behindKey
          let (text, _) ← nodeText script value ⟨inner, false, lead⟩
          pure ⟨before, keyPart ++ valueGap inner isExplicit keyComment value text ++ text,
            value.head.comment, isTall⟩
    return first :: (← pairTexts script rest indent itemIndent lead noValues)

end

/-- The name of a list or a map that is a key: its text without its own anchor and tag. -/
def Node.keyText (script : Script) (node : Node) : Writing (List Char) := do
  let bare := node.mapHead fun head => { head with anchor := none, tag := none }
  return (← nodeText script bare ⟨0, false, none⟩).1

end LineSum.Yaml
