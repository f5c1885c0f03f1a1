import LineSum.Json.Tree

/-!
# Kinds of lexemes and problems

What the pieces of a document can be, and what can be wrong with them.
-/

namespace LineSum.Yaml

/-! ## The kinds of lexemes

A YAML text is cut into lexemes: indicators, white space, line ends, comments, the sources of
scalars. Together they give the text back. Two marks without text stand between the lexemes: one
where a document begins, one where a flow collection is left because of its indentation.
-/

/-- The kinds of lexemes. -/
inductive Kind where
  | byteOrderMark
  | docMode
  | flowErrorEnd
  | scalar
  | docStart
  | docEnd
  | newline
  | seqItem
  | explicitKey
  | mapValue
  | flowMapStart
  | flowMapEnd
  | flowSeqStart
  | flowSeqEnd
  | comma
  | space
  | comment
  | directive
  | alias
  | anchor
  | tag
  | singleQuoted
  | doubleQuoted
  | blockHeader
  | error
  deriving DecidableEq, Repr, Inhabited

/-- The name of a kind in messages. -/
def Kind.text : Kind → String
  | byteOrderMark => "byte-order-mark"
  | docMode => "doc-mode"
  | flowErrorEnd => "flow-error-end"
  | scalar => "scalar"
  | docStart => "doc-start"
  | docEnd => "doc-end"
  | newline => "newline"
  | seqItem => "seq-item-ind"
  | explicitKey => "explicit-key-ind"
  | mapValue => "map-value-ind"
  | flowMapStart => "flow-map-start"
  | flowMapEnd => "flow-map-end"
  | flowSeqStart => "flow-seq-start"
  | flowSeqEnd => "flow-seq-end"
  | comma => "comma"
  | space => "space"
  | comment => "comment"
  | directive => "directive-line"
  | .alias => "alias"
  | anchor => "anchor"
  | tag => "tag"
  | singleQuoted => "single-quoted-scalar"
  | doubleQuoted => "double-quoted-scalar"
  | blockHeader => "block-scalar-header"
  | error => "error"

/-- The kind of a lexeme that is not the source of a plain or block scalar, as seen from its text;
none if no lexeme looks like this. Three control characters look like the marks between lexemes. -/
def Kind.ofText? (text : List Char) : Option Kind :=
  match text with
  | ['\ufeff'] => some byteOrderMark
  | ['\x02'] => some docMode
  | ['\x18'] => some flowErrorEnd
  | ['\x1f'] => some scalar
  | ['-', '-', '-'] => some docStart
  | ['.', '.', '.'] => some docEnd
  | [] => some newline
  | ['\n'] => some newline
  | ['\r', '\n'] => some newline
  | ['-'] => some seqItem
  | ['?'] => some explicitKey
  | [':'] => some mapValue
  | ['{'] => some flowMapStart
  | ['}'] => some flowMapEnd
  | ['['] => some flowSeqStart
  | [']'] => some flowSeqEnd
  | [','] => some comma
  | c :: _ =>
    if c = ' ' || c = '\t' then some space
    else if c = '#' then some comment
    else if c = '%' then some directive
    else if c = '*' then some .alias
    else if c = '&' then some anchor
    else if c = '!' then some tag
    else if c = '\x27' then some singleQuoted
    else if c = '\x22' then some doubleQuoted
    else if c = '|' || c = '>' then some blockHeader
    else none

/-- A lexeme, or a mark between lexemes. -/
inductive Lexeme where
  /-- A document begins. -/
  | documentMark
  /-- A flow collection is left before its end. -/
  | flowEndMark
  /-- The source of a plain or a block scalar. -/
  | scalar (text : List Char)
  /-- Any other stretch of text. -/
  | text (text : List Char)
  deriving DecidableEq, Repr

/-- The control characters that stand for the marks between lexemes where a lexeme is looked at by
its characters: the beginning of a document, the place where a flow collection is left, and the
announcement of the source of a scalar. -/
def documentSign : List Char := ['\x02']

/-- The sign for the place where a flow collection is left. -/
def flowEndSign : List Char := ['\x18']

/-- The sign that announces the source of a scalar. -/
def scalarSign : List Char := ['\x1f']

/-! ## What can be wrong with a YAML text

Each way in which a text can break the rules is a cause of its own, and `Problem.message` words it.
-/

/-- The two collections that are written between brackets. -/
inductive FlowKind where
  | map
  | sequence
  deriving DecidableEq, Repr

namespace FlowKind

/-- The name of the collection. -/
def text : FlowKind → String
  | map => "flow map"
  | sequence => "flow sequence"

/-- The name of the collection at the beginning of a sentence. -/
def title : FlowKind → String
  | map => "Flow map"
  | sequence => "Flow sequence"

/-- The bracket that ends the collection. -/
def closer : FlowKind → Char
  | map => '\x7d'
  | sequence => ']'

end FlowKind

/-- What a plain scalar cannot start with. -/
inductive BadStart where
  | tab
  | comma
  | percent
  | blockIndicator (c : Char)
  | reserved (c : Char)
  deriving DecidableEq, Repr

/-- The name of what a plain scalar cannot start with. -/
def BadStart.text : BadStart → String
  | tab => "a tab character"
  | comma => "flow indicator character ,"
  | percent => "directive indicator character %"
  | blockIndicator c => "block scalar indicator " ++ c.toString
  | reserved c => "reserved character " ++ c.toString

/-- A way to break the rules. -/
inductive Problem where
  -- lexemes in the wrong place
  | notAToken (source : List Char)
  | strayText (source : List Char)
  | strayInStream (kind : Kind) (source : List Char)
  | strayInDocument (kind : Kind) (source : List Char)
  | strayAtNodeEnd (kind : Kind)
  | strayProp (kind : Kind)
  | strayInHeader (kind : Kind)
  | itemOnKeyLine
  | commentWithoutSpace
  -- directives and documents
  | tagDirectiveParts
  | versionDirectiveParts
  | unsupportedVersion (version : String)
  | missingDocumentStart
  | missingDirectivesEnd
  | strayDocumentEnd
  | severalDocuments
  | blockOnMarkerLine
  -- properties
  | propsWithoutSpace
  | severalAnchors
  | severalTags
  | propsBeforeIndicator (indicator : List Char)
  | repeatedIndicator (indicator : List Char) (flow : Option FlowKind)
  | strayComma (flow : FlowKind)
  | tabIndentation
  | emptyAnchor
  | emptyAlias
  | aliasWithProps
  | tagNotValid (source : String)
  | verbatimTag (source : String)
  | verbatimTagEnd
  | tagWithoutSuffix (source : String)
  | tagNotEncoded
  | unknownTagHandle (source : String)
  | noTimestamp
  | setWithValues
  | severalPairs
  | repeatedOrderedKey (key : String)
  -- block collections
  | unevenMapItems
  | sequenceAsKey
  | multilineKey
  | duplicateKey
  | nestedMapOnLine
  | longKey
  | keyWithoutValue
  | unevenSequenceItems
  | missingItemIndicator
  | missingNewlineBeforeSequence
  | commentBeforeContent
  -- flow collections
  | emptyFlowItem (flow : FlowKind)
  | multilineFlowKey
  | missingComma (flow : FlowKind)
  | missingCommaOrColon (flow : FlowKind)
  | missingSpaceAfterColon (flow : FlowKind)
  | blockInFlow
  | longFlowKey
  | flowNotClosed (flow : FlowKind)
  | flowNotIndented (flow : FlowKind)
  -- scalars
  | badScalarStart (start : BadStart)
  | missingSingleQuote
  | missingDoubleQuote
  | badEscape (source : String)
  | blockHeader (source : String)
  | blockLeadingLines
  | blockNotIndented
  | blockLessIndented (explicit : Bool)
  deriving DecidableEq, Repr

/-- The sentence that reports a problem, without its place. -/
def Problem.message : Problem → String
  | notAToken source => "Not a YAML token: " ++ String.ofList source
  | strayText source => "Not a YAML token: " ++ String.ofList source ++ quoted source
  | strayInStream kind source =>
    s!"Unexpected {kind.text} token in YAML stream" ++ quoted source
  | strayInDocument kind source =>
    s!"Unexpected {kind.text} token in YAML document" ++ quoted source
  | strayAtNodeEnd kind => s!"Unexpected {kind.text} at node end"
  | strayProp kind => s!"Unexpected {kind.text} token"
  | strayInHeader kind => s!"Unexpected token in block scalar header: {kind.text}"
  | itemOnKeyLine => "Unexpected block-seq-ind on same line with key"
  | commentWithoutSpace =>
    "Comments must be separated from other tokens by white space characters"
  | tagDirectiveParts => "%TAG directive should contain exactly two parts"
  | versionDirectiveParts => "%YAML directive should contain exactly one part"
  | unsupportedVersion version => s!"Unsupported YAML version {version}"
  | missingDocumentStart => "Missing directives-end/doc-start indicator line"
  | missingDirectivesEnd => "Missing directives-end indicator line"
  | strayDocumentEnd => "Unexpected doc-end without preceding document"
  | severalDocuments =>
    "Source contains multiple documents; please use YAML.parseAllDocuments()"
  | blockOnMarkerLine => "Block collection cannot start on same line with directives-end marker"
  | propsWithoutSpace =>
    "Tags and anchors must be separated from the next token by white space"
  | severalAnchors => "A node can have at most one anchor"
  | severalTags => "A node can have at most one tag"
  | propsBeforeIndicator indicator =>
    "Anchors and tags must be after the " ++ String.ofList indicator ++ " indicator"
  | repeatedIndicator indicator flow =>
    "Unexpected " ++ String.ofList indicator ++ " in " ++
      (flow.map FlowKind.text).getD "collection"
  | strayComma flow => s!"Unexpected , in {flow.text}"
  | tabIndentation => "Tabs are not allowed as indentation"
  | emptyAnchor => "Anchor cannot be an empty string"
  | emptyAlias => "Alias cannot be an empty string"
  | aliasWithProps => "An alias node must not specify any properties"
  | tagNotValid source => s!"Not a valid tag: {source}"
  | verbatimTag source => s!"Verbatim tags aren't resolved, so {source} is invalid."
  | verbatimTagEnd => "Verbatim tags must end with a >"
  | tagWithoutSuffix source => s!"The {source} tag has no suffix"
  | tagNotEncoded => "URIError: URI malformed"
  | unknownTagHandle source => s!"Could not resolve tag: {source}"
  | noTimestamp => "!!timestamp expects a date, starting with yyyy-mm-dd"
  | setWithValues => "Set items must all have null values"
  | severalPairs => "Each pair must have its own sequence indicator"
  | repeatedOrderedKey key => s!"Ordered maps must not include duplicate keys: {key}"
  | unevenMapItems => "All mapping items must start at the same column"
  | sequenceAsKey => "A block sequence may not be used as an implicit map key"
  | multilineKey => "Implicit keys need to be on a single line"
  | duplicateKey => "Map keys must be unique"
  | nestedMapOnLine => "Nested mappings are not allowed in compact mappings"
  | longKey => "The : indicator must be at most 1024 chars after the start of an " ++
      "implicit block mapping key"
  | keyWithoutValue => "Implicit map keys need to be followed by map values"
  | unevenSequenceItems => "All sequence items must start at the same column"
  | missingItemIndicator => "Sequence item without - indicator"
  | missingNewlineBeforeSequence => "Missing newline after block sequence props"
  | commentBeforeContent => "Map comment with trailing content"
  | emptyFlowItem flow => s!"Unexpected empty item in {flow.text}"
  | multilineFlowKey => "Implicit keys of flow sequence pairs need to be on a single line"
  | missingComma flow => s!"Missing , between {flow.text} items"
  | missingCommaOrColon flow => s!"Missing , or : between {flow.text} items"
  | missingSpaceAfterColon flow => s!"Missing space after : in {flow.text}"
  | blockInFlow => "Block collections are not allowed within flow collections"
  | longFlowKey => "The : indicator must be at most 1024 chars after the start of an " ++
      "implicit flow sequence key"
  | flowNotClosed flow => s!"{flow.title} must end with a " ++ flow.closer.toString
  | flowNotIndented flow =>
    s!"{flow.title} in block collection must be sufficiently indented and end with a " ++
      flow.closer.toString
  | badScalarStart start => s!"Plain value cannot start with {start.text}"
  | missingSingleQuote => "Missing closing 'quote"
  | missingDoubleQuote => "Missing closing \"quote"
  | badEscape source => s!"Invalid escape sequence {source}"
  | blockHeader source => s!"Block scalar header includes extra characters: {source}"
  | blockLeadingLines => "Block scalars with more-indented leading empty lines must use an " ++
      "explicit indentation indicator"
  | blockNotIndented => "Block scalar values in collections must be indented"
  | blockLessIndented explicit =>
    "Block scalar lines must not be less indented than their " ++
      (if explicit then "explicit indentation indicator" else "first line")
where
  /-- The source of a stray lexeme behind a colon, unless it is empty. -/
  quoted (source : List Char) : String :=
    if source.isEmpty then "" else ": " ++ JsonTree.quote (String.ofList source)

end LineSum.Yaml
