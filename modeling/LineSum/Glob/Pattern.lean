import LineSum.Files.Tree
import LineSum.Glob.Braces
import LineSum.Glob.Translation

/-!
# Patterns

What a pattern matches: part by part of a path, some parts being open and others fixed.
-/

namespace LineSum.Glob

/-! ## What a pattern leaves open

A pattern that leaves nothing open names one file, and no search is made for it. Where a search
begins is decided by a stricter look at the names of directories; both looks do not agree on all
signs.
-/

/-! ### Texts with an open part -/

/-- Whether one of the texts that are left when characters are dropped from the
front has a property. -/
def anySuffix (p : List Char → Bool) : List Char → Bool
  | [] => false
  | c :: rest => p (c :: rest) || anySuffix p rest

/-- Whether a set stands at the beginning of a text. -/
def startsWithSet : List Char → Bool
  | '[' :: rest => (rest.takeWhile (· != '[')).contains ']'
  | _ => false

/-- Whether an opening round bracket, which has been passed, begins a group with alternatives. -/
def holdsAlternatives : List Char → Bool
  | [] => false
  | '(' :: _ => false
  | c :: rest => (c = '|' && (rest.takeWhile (· != '|')).contains ')') || holdsAlternatives rest

/-- Whether a group with alternatives stands in a text, with no sign before it. -/
def hasAlternatives (previous : Char) : List Char → Bool
  | [] => false
  | c :: rest =>
    (c = '(' && !"!*+?@".toList.contains previous && holdsAlternatives rest) ||
      hasAlternatives c rest

/-- Whether a group with a sign stands at the beginning of a text. -/
def startsWithGroup : List Char → Bool
  | sign :: '(' :: rest =>
    "!*+?@".toList.contains sign && (rest.takeWhile (· != '(')).contains ')'
  | _ => false

/-- Whether braces with a comma or two points stand in a text. -/
def hasAlternation (text : List Char) : Bool :=
  let inner := (text.dropWhile (· != '\x7b')).drop 1
  let block := inner.takeWhile (· != '\x7d')
  block.length < inner.length &&
    (block.contains ',' || anySuffix (fun text => text.take 2 = ['.', '.']) block)

/-- Whether a pattern leaves something open. -/
def isOpen (text : List Char) : Bool :=
  text.any (fun c => c = '*' || c = '?' || c = '\\') || text.head? = some '!' ||
    anySuffix startsWithSet text || hasAlternatives ' ' text || anySuffix startsWithGroup text ||
    hasAlternation text

/-! ### Directories -/

/-- How many characters stand before the first one of a kind, from a place on. -/
def findFrom? (text : List Char) (c : Char) (place : Nat) : Option Nat :=
  let behind := text.drop place
  if behind.contains c then some (place + (behind.takeWhile (· != c)).length) else none

/-- Whether no backslash stands between two places. -/
def noBackslashIn (text : List Char) (first last : Nat) : Bool :=
  (findFrom? text '\\' first).all (last < ·)

/-- Whether a group with a sign stands in a text. -/
def hasSignedGroup : List Char → Bool
  | '\\' :: _ :: rest => hasSignedGroup rest
  | c :: rest =>
    ("@?!+*".toList.contains c && rest.head? = some '(' && (rest.drop 1).contains ')') ||
      hasSignedGroup rest
  | [] => false

/-- Whether a bracket of some kind at a place has its counterpart behind it. -/
def closes (text : List Char) (place : Nat) (closing : Char) : Bool :=
  (findFrom? text closing place).any fun stop => place < stop && noBackslashIn text place stop

/-- Whether the text at a place leaves something open: a star, a set, braces or a group. -/
def isOpenAt (text : List Char) (place : Nat) : Bool :=
  match text.drop place with
  | '*' :: _ => true
  | '[' :: next =>
    (next.head? != some ']' && closes text place ']')
  | '\x7b' :: next => next.head? != some '\x7d' && closes text place '\x7d'
  | '(' :: next =>
    (match next with
      | '?' :: sign :: behind =>
        ":!=".toList.contains sign && behind.head? != some ')' && closes text place ')'
      | _ => false) ||
    (next.head? != some '|' &&
      (findFrom? text '|' place).any fun bar =>
        text[bar + 1]? != some ')' &&
          (findFrom? text ')' bar).any fun stop => bar < stop && noBackslashIn text bar stop)
  | c :: '?' :: _ => "].+)".toList.contains c
  | _ => false

/-- Looks for something open from a place on. Brackets behind a backslash are passed over with all
that is in them, and an exclamation mark behind that counts. -/
def isOpenFrom (text : List Char) : Nat → Nat → Bool
  | 0, _ => false
  | fuel + 1, place =>
    if text.length ≤ place then false
    else if isOpenAt text place then true
    else if text[place]? = some '\\' then
      let closing : Option Char :=
        match text[place + 1]? with
        | some '\x7b' => some '\x7d'
        | some '(' => some ')'
        | some '[' => some ']'
        | _ => none
      let next := ((closing.bind (findFrom? text · (place + 2))).map (· + 1)).getD (place + 2)
      text[next]? = some '!' || isOpenFrom text fuel next
    else isOpenFrom text fuel (place + 1)

/-- Whether the path of a directory leaves something open. -/
def isOpenPath (text : List Char) : Bool :=
  hasSignedGroup text || text.head? = some '!' || isOpenFrom text (text.length + 1) 0

/-- Whether a bracket is opened in the path of a directory. -/
def hasOpening (previous : Char) : List Char → Bool
  | [] => false
  | c :: rest =>
    (previous != '\\' &&
      (c = '\x7b' || c = '[' || (c = '(' && !rest.isEmpty && !rest.contains ')'))) ||
      hasOpening c rest

/-! ### The directory of a search -/

/-- The path of the directory in which a path lies. -/
def parentPath (text : List Char) : List Char :=
  let hasRoot := text.head? = some '/'
  let body := (text.drop 1).reverse.dropWhile (· = '/')
  let above := (body.dropWhile (· != '/')).drop 1
  let first := text.take 1
  if (body.dropWhile (· != '/')).isEmpty then (if hasRoot then ['/'] else ['.'])
  else if hasRoot && above.isEmpty then ['/', '/']
  else first ++ above.reverse

/-- The directory above a path that leaves nothing open. -/
def closedParent : Nat → List Char → List Char
  | 0, text => text
  | fuel + 1, text =>
    let parent := parentPath text
    if isOpenPath parent || hasOpening ' ' parent then closedParent fuel parent else parent

/-- Takes the backslashes away before the signs of patterns. -/
def dropQuotes : List Char → List Char
  | '\\' :: c :: rest =>
    if "!*?|[]()\x7b\x7d".toList.contains c then c :: dropQuotes rest
    else '\\' :: dropQuotes (c :: rest)
  | c :: rest => c :: dropQuotes rest
  | [] => []

/-- The path of the directory in which the search for a pattern begins. -/
def basePath (pattern : List Char) : List Char :=
  let endsEnclosed :=
    pattern.getLast?.any (fun c => c = '\x7d' || c = ']') &&
      pattern.dropLast.any fun c => c = '\x7b' || c = '['
  let path := if endsEnclosed then pattern ++ ['/', 'a'] else pattern ++ ['a']
  dropQuotes (closedParent path.length path)

/-! ## The parts of a pattern

A pattern is divided at its slashes, except those inside of brackets. Its parts are compared with
the names on the way to a file, as far as that can be done before the file is known.
-/

/-! ### Division -/

/-- The text behind the first closing bracket. -/
def skipTo (closing : Char) : List Char → List Char
  | '\\' :: _ :: rest => skipTo closing rest
  | c :: rest => if c = closing then rest else skipTo closing rest
  | [] => []

/-- The text behind the first closing round bracket; another opening one takes the meaning from the
next character. -/
def skipParens : List Char → List Char
  | '(' :: _ :: rest => skipParens rest
  | c :: rest => if c = ')' then rest else skipParens rest
  | [] => []

/-- The text behind braces, the opening one of which has been passed. If it stood behind a
backslash, points have no meaning. The second component says whether they have an end. -/
def skipBraces (isEscaped : Bool) : Nat → Nat → List Char → List Char × Bool
  | 0, _, rest => (rest, false)
  | _, _, [] => ([], false)
  | fuel + 1, depth, c :: rest =>
    let close (rest : List Char) : List Char × Bool :=
      if depth ≤ 1 then (rest, true) else skipBraces isEscaped fuel (depth - 1) rest
    if c = '\\' then skipBraces isEscaped fuel depth (rest.drop 1)
    else if c = '\x7b' then skipBraces isEscaped fuel (depth + 1) rest
    else if c = '.' && !isEscaped then
      if rest.head? = some '\x7d' then close (rest.drop 1)
      else skipBraces isEscaped fuel depth (rest.drop 1)
    else if c = '\x7d' then close rest
    else skipBraces isEscaped fuel depth rest

/-- Where a pattern proper begins, and how many characters stand behind each of the
slashes that divide it. -/
structure Division where
  start : Nat
  slashes : List Nat

/-- Divides a pattern of a given length; `previous` is the character before what is left. -/
def divide (size : Nat) : Nat → Nat → Char → List Char → Division
  | 0, start, _, _ => ⟨start, []⟩
  | _, start, _, [] => ⟨start, []⟩
  | fuel + 1, start, previous, c :: rest =>
    let index := size - rest.length - 1
    let go (rest : List Char) := divide size fuel start c rest
    if c = '\\' then
      if rest.head? = some '\x7b' then
        go (skipBraces true rest.length 1 (rest.drop 2)).1
      else go (rest.drop 1)
    else if c = '\x7b' then go (skipBraces false rest.length 1 rest).1
    else if c = '/' then
      let start := if previous = '.' && index = start + 1 then start + 2 else start
      let others := divide size fuel start c rest
      { others with slashes := index :: others.slashes }
    else if "+@*?!".toList.contains c && rest.head? = some '(' then go (skipTo ')' rest)
    else if c = '[' then go (skipTo ']' rest)
    else if c = '(' then go (skipParens rest)
    else if c = '!' && index = start then divide size fuel (start + 1) c rest
    else go rest

/-- The texts between the slashes of a pattern. A first one that is empty is left out. -/
def textsBetween (pattern : List Char) (start : Nat) (isFirst : Bool) (previous : Nat) :
    List Nat → List (List Char)
  | [] =>
    if previous != 0 && previous + 1 < pattern.length then [pattern.drop (previous + 1)] else []
  | slash :: slashes =>
    let text := (pattern.take slash).drop (if previous = 0 then start else previous + 1)
    (if isFirst && text.isEmpty then [] else [text]) ++
      textsBetween pattern start false slash slashes

/-- The parts of a pattern. -/
def partsOf (pattern : List Char) : List (List Char) :=
  let division := divide pattern.length pattern.length 0 ' ' pattern
  match textsBetween pattern division.start true 0 division.slashes with
  | [] => fromRoot pattern []
  | first :: rest => fromRoot first rest
where
  /-- A slash at the beginning stands behind an empty part. -/
  fromRoot (first : List Char) (rest : List (List Char)) : List (List Char) :=
    if first.head? = some '/' then [] :: first.drop 1 :: rest else first :: rest

/-! ### Parts -/

/-- A part of a pattern: a name, or something that stands for names. -/
inductive Part where
  | name (text : List Char)
  | open (hasNames : Bool) (regex : Option Regex)
  deriving DecidableEq, Repr

namespace Part

/-- The part with the given text. -/
def ofText (text : List Char) : Part :=
  if isOpen text then
    .open (anySuffix (fun text => text.take 2 = ['*', '*']) text)
      (Regex.ofText? (regexSource false text))
  else .name text

/-- Whether the part can stand for several names. -/
def isLong : Part → Bool
  | name _ => false
  | .open hasNames _ => hasNames

/-- Whether the part stands for a name. -/
def matchesName : Part → List Char → Bool
  | name text, other => text = other
  | .open _ regex, other => regex.any (·.foundIn other)

end Part

/-- Whether a directory can lie on the way to what parts stand for. -/
def leadInto (parts : List Part) (names : List (List Char)) : Bool :=
  let fixed := parts.takeWhile (!·.isLong)
  let isComplete := fixed.length = parts.length
  if isComplete && parts.length ≤ names.length then false
  else if !isComplete && fixed.length < names.length then true
  else (names.zip parts).all fun (name, part) => part.matchesName name

/-! ## Patterns for file names

A pattern is a path in which names, or parts of them, may be left open: `?` stands for one
character, `*` for any number of them, `**` for any number of names, brackets for one character out
of several, and groups for alternatives. Braces abbreviate several patterns.
-/

/-- A pattern: its text, the expression for paths that it stands for, the one for paths with hidden
names, and its parts. -/
structure Pattern where
  text : List Char
  regex : Option Regex
  hiddenRegex : Option Regex
  parts : List Part
  deriving DecidableEq, Repr

namespace Pattern

/-- The pattern that a text without braces stands for. -/
def ofText (text : List Char) : Pattern :=
  ⟨text, Regex.ofText? (regexSource false text), Regex.ofText? (regexSource true text),
    (partsOf text).map .ofText⟩

/-- Whether a pattern stands for a path. -/
def describes (p : Pattern) (path : List Char) : Bool := p.regex.any (·.foundIn path)

/-- Whether a pattern stands for a path, also if there are hidden names in it. -/
def describesHidden (p : Pattern) (path : List Char) : Bool := p.hiddenRegex.any (·.foundIn path)

/-- Whether a directory can lie on the way to what a pattern stands for. -/
def leadsInto (p : Pattern) (path : List Char) : Bool := leadInto p.parts (splitSlashes path)

/-- Whether a pattern leaves something open. -/
def isOpen (p : Pattern) : Bool := Glob.isOpen p.text

/-- The path of the directory in which the search for a pattern begins. -/
def base (p : Pattern) : List Char := basePath p.text

/-- Whether the search leaves the directory upwards. -/
def leavesUpwards (p : Pattern) : Bool :=
  p.text.take 2 = ['.', '.'] || p.text.take 4 = ['.', '/', '.', '.']

/-- Whether a pattern begins at the root. -/
def isAbsolute (p : Pattern) : Bool := p.text.head? = some '/'

/-- Whether a directory that matches the pattern is not searched at all: the pattern names all that
is below it, or leaves nothing open in its last name. -/
def closesDirectories (p : Pattern) : Bool :=
  let lastName := ((p.text.reverse.dropWhile (· = '/')).takeWhile (· != '/')).reverse
  ['/', '*', '*'].isSuffixOf p.text || !Glob.isOpen lastName

end Pattern

end LineSum.Glob
