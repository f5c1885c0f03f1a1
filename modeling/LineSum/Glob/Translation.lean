import LineSum.Glob.Group

/-!
# Patterns as regular expressions

A pattern is translated piece by piece into the source of a regular expression.
-/

namespace LineSum.Glob

/-! ## From patterns to regular expressions

A pattern is read from the left, and each character adds a piece to a draft or changes the last
ones. Brackets, bars and some other signs of regular expressions keep their meaning. What is left
open at the end is taken literally as far as it can be found.
-/

/-! ### Square brackets -/

/-- The ranges of a class of characters that has a name. -/
def classRanges? (name : String) : Option String :=
  match name with
  | "alnum" => some "a-zA-Z0-9"
  | "alpha" => some "a-zA-Z"
  | "ascii" => some "\\x00-\\x7F"
  | "blank" => some " \\t"
  | "cntrl" => some "\\x00-\\x1F\\x7F"
  | "digit" => some "0-9"
  | "graph" => some "\\x21-\\x7E"
  | "lower" => some "a-z"
  | "print" => some "\\x20-\\x7E "
  | "punct" => some "\\-!\"#$%&'()\\*+,./:;<=>?@[\\]^_`\x7b|\x7d~"
  | "space" => some " \\t\\r\\n\\v\\f"
  | "upper" => some "A-Z"
  | "word" => some "A-Za-z0-9_"
  | "xdigit" => some "A-Fa-f0-9"
  | _ => none

/-- The text before the last opening bracket, and what stands behind it and one more character. -/
def splitClass (text : List Char) : List Char × List Char :=
  let behind := (text.reverse.takeWhile (· != '[')).reverse
  (text.take (text.length - behind.length - 1), behind.drop 1)

namespace Draft

/-- Whether a bracket has just been opened, so that a closing one would be part of its content. -/
def atBracketStart (d : Draft) : Bool := d.last.text = ['['] || d.last.text = ['[', '^']

/-- Adds characters between brackets. -/
def addToBracket (d : Draft) (text : List Char) : Draft :=
  let text :=
    if text = ['['] && d.rest.head? != some ':' then ['\\', '[']
    else if text = ['-'] && d.rest.head? = some ']' then ['\\', '-']
    else if text = [']'] && d.atBracketStart then ['\\', ']']
    else if text = ['!'] && d.last.text = ['['] then ['^']
    else text
  d.extendLast text

/-- Replaces the name of a class of characters, the second colon of which has been
read, by its ranges. -/
def readClass? (d : Draft) : Option Draft :=
  let (before, name) := splitClass d.last.text
  (classRanges? (String.ofList name)).map fun ranges =>
    let d := { d with
      last := { d.last with text := before ++ ranges.toList }
      isObsolete := true }.skip 1
    match d.before with
    | [first] =>
      if first.source.isEmpty then
        { d with before := [{ first with phrase := some followedPhrase }] }
      else d
    | _ => d

/-- Reads characters between brackets. -/
def readInBrackets (d : Draft) (text : List Char) : Draft :=
  let inner := d.last.text.drop 1
  if text = [':'] && inner.contains '[' then
    let d := { d with last := { d.last with isClass := true } }
    ((if inner.contains ':' then d.readClass? else none).getD (d.addToBracket text))
  else d.addToBracket text

/-- Reads an opening square bracket. -/
def openBracket (d : Draft) : Draft :=
  if d.rest.contains ']' then
    ({ d with inBrackets := true }.enter .brackets).push (.plain .bracket ['['])
  else d.push (.plain .bracket ['\\', '['])

/-- Reads a closing square bracket. Brackets without special characters in them may also
stand for themselves. -/
def closeBracket (d : Draft) : Draft :=
  if !d.inBrackets then d.push (.written .text [']'] ['\\', ']'])
  else
    let d := { d with inBrackets := false }.leave
    let inner := d.last.text.drop 1
    let d := d.extendLast
      (if !d.last.isClass && inner.head? = some '^' && !inner.contains '/' then ['/', ']']
       else [']'])
    if inner.any quoteSigns.isSign then d
    else
      let text := d.last.text
      let both := "(?:".toList ++ quoteSigns text ++ '|' :: text ++ [')']
      { d.unwrite text with last := { d.last with text := both } }.write both

/-! ### Other characters -/

/-- Reads a backslash. -/
def readEscape (d : Draft) : Draft :=
  match d.rest with
  | [] => d.pushText ['\\', '\\']
  | next :: _ =>
    if next = '/' || next = '.' || next = ';' then d
    else
      let more := d.rest.takeWhile (· = '\\')
      let (d, slashes) :=
        if 2 < more.length then
          (d.skip more.length, if more.length % 2 = 0 then ['\\'] else ['\\', '\\'])
        else (d, ['\\'])
      let text := slashes ++ d.rest.take 1
      let d := d.skip 1
      if d.inBrackets then d.readInBrackets text else d.pushText text

/-- Reads a slash. A point before it at the beginning is left out together with it. -/
def readSlash (d : Draft) : Draft :=
  if d.last.kind = .point && d.index = d.start + 1 then
    match d.before with
    | last :: before => { d with start := d.index + 1, output := [], last, before }
    | [] => d
  else d.push (.written .slash ['/'] slashPhrase)

/-- Reads a point. -/
def readPoint (d : Draft) : Draft :=
  if !d.braces.isEmpty && d.last.kind = .point then
    { d with last := { d.last with
        kind := .points, text := ['.', '.'], phrase := some (pointPhrase ++ ['.']) } }.markBraces
      ({ · with hasPoints := true })
  else if (d.braces.length : Int) + d.parens = 0 && d.last.kind != .beginning &&
      d.last.kind != .slash then
    d.push (.written .text ['.'] pointPhrase)
  else d.push (.written .point ['.'] pointPhrase)

/-- Whether a text has the beginning of a look back or of a group with a name in it. -/
def hasGroupMark : List Char → Bool
  | [] => false
  | c :: rest =>
    (c = '<' &&
      (rest.head?.any (fun d => d = '!' || d = '=') ||
        (let word := rest.takeWhile isWordChar
         !word.isEmpty && rest[word.length]? = some '>'))) ||
      hasGroupMark rest

/-- Reads a question mark. -/
def readMark (d : Draft) : Draft :=
  let behindParen := d.last.text = ['(']
  if !behindParen && d.opensGroup then d.openGroup '?'
  else if d.last.kind = .paren then
    let isLiteral :=
      (behindParen && !(d.rest.head?.any ("!=<:".toList.contains ·))) ||
        (d.rest.head? = some '<' && !hasGroupMark d.rest)
    d.push (.written .text ['?'] (if isLiteral then ['\\', '?'] else ['?']))
  else if !d.hidden && (d.last.kind = .slash || d.last.kind = .beginning) then
    d.push (.written .sign ['?'] "[^.\\/]".toList)
  else d.push (.written .sign ['?'] anyPhrase)

/-- Counts the signs at the beginning that turn a pattern into its opposite;
two of them do nothing. -/
def readNegation : Nat → Bool → Draft → Draft
  | 0, _, d => d
  | fuel + 1, isNegated, d =>
    if d.rest.head? = some '!' && (d.rest[1]? != some '(' || d.rest[2]? = some '?') then
      readNegation fuel (!isNegated) { d.skip 1 with start := d.start + 1 }
    else if isNegated then { d with isNegated := true, start := d.start + 1 }
    else d

/-- Reads an exclamation mark, unless it is a mere character. -/
def readNot? (d : Draft) : Option Draft :=
  if d.rest.head? = some '(' &&
      (d.rest[1]? != some '?' || !(d.rest[2]?.any ("!=<:".toList.contains ·))) then
    some (d.openGroup '!')
  else if d.index = 0 then some (readNegation (d.rest.length + 1) true d)
  else none

/-- Reads a plus sign. -/
def readPlus (d : Draft) : Draft :=
  if d.opensGroup then d.openGroup '+'
  else if d.last.text = ['('] then d.push (.written .sign ['+'] ['\\', '+'])
  else if d.last.kind = .bracket || d.last.kind = .paren || d.last.kind = .brace ||
      0 < d.parens then
    d.push (.plain .sign ['+'])
  else d.push (.plain .sign ['\\', '+'])

/-- Reads a character that stands for itself, and those behind it. -/
def readText (d : Draft) (c : Char) : Draft :=
  let more := d.rest.takeWhile fun c => !"@![].,$*+?^\x7b\x7d()|\\/".toList.contains c
  (d.skip more.length).pushText ((if c = '$' || c = '^' then ['\\', c] else [c]) ++ more)

/-- Reads a character. `translate` gives what is written for a pattern. -/
def read (translate : List Char → List Char) (d : Draft) (c : Char) : Draft :=
  if c = '\x00' then d
  else if c = '\\' then d.readEscape
  else if d.inBrackets && (c != ']' || d.atBracketStart) then d.readInBrackets [c]
  else if d.inQuotes && c != '\x22' then d.extendLast (quoteSigns [c])
  else
    match c with
    | '\x22' => { d with inQuotes := !d.inQuotes }
    | '(' => ({ d with parens := d.parens + 1 }.enter .parens).push (.plain .paren ['('])
    | ')' => d.closeParen translate
    | '[' => d.openBracket
    | ']' => d.closeBracket
    | '\x7b' => d.openBraces
    | '\x7d' => d.closeBraces
    | '|' => d.pushText ['|']
    | ',' =>
      if !d.braces.isEmpty && d.enclosures.head? = some .braces then
        (d.markBraces ({ · with hasComma := true })).push (.written .comma [','] ['|'])
      else d.push (.written .comma [','] [','])
    | '/' => d.readSlash
    | '.' => d.readPoint
    | '?' => d.readMark
    | '!' => (d.readNot?).getD (d.readText c)
    | '+' => d.readPlus
    | '@' =>
      if d.opensGroup then d.push { Piece.written .sign ['@'] [] with isSigned := true }
      else d.pushText ['@']
    | '*' => d.readStar
    | c => d.readText c

/-- Reads all characters. -/
def readAll (translate : List Char → List Char) : Nat → Draft → Draft
  | 0, d => d
  | fuel + 1, d =>
    match d.rest with
    | [] => d
    | c :: _ => readAll translate fuel ((d.skip 1).read translate c)

/-- Takes the meaning from what is still open, and makes a slash at the end optional. -/
def finish (d : Draft) : Draft :=
  let quote (c : Char) (count : Nat) (text : List Char) : List Char :=
    (List.range count).foldl (fun text _ => quoteLast c text) text
  let output := quote '[' (if d.inBrackets then 1 else 0) d.output
  let output := quote '(' d.parens.toNat output
  let output := quote '\x7b' d.braces.length output
  let d := { d with output }
  if d.last.kind = .star || d.last.kind = .bracket then
    d.push (.written .ending [] ['\\', '/', '?'])
  else d

end Draft

/-! ### Whole patterns -/

/-- A pattern without a step to the same directory at the beginning. -/
def dropStep : List Char → List Char
  | '.' :: '/' :: rest => rest
  | pattern => pattern

/-- The shorter pattern that says the same as a pattern made of stars. -/
def shorten (pattern : List Char) : List Char :=
  if pattern = "***".toList then ['*']
  else if pattern = "**/**".toList || pattern = "**/**/**".toList then ['*', '*']
  else pattern

/-- The draft of a pattern, which is read to its end; what is written for the rest of a pattern may
be needed on the way. -/
def draftOf (hidden : Bool) : Nat → List Char → Draft
  | 0, _ => .ofPattern hidden []
  | depth + 1, pattern =>
    let pattern := dropStep (shorten pattern)
    let translate (rest : List Char) : List Char := (draftOf hidden depth rest).result
    ((Draft.ofPattern hidden pattern).readAll translate pattern.length).finish

/-! ## The regular expression of a pattern

The most common patterns have expressions of their own. Simple ones, in which nothing depends on
what comes before, are translated sign by sign; for all others there is the draft. The expressions
do not differ in what they should say, but in some cases they do.
-/

/-! ### Common patterns -/

/-- The condition at the beginning of a common pattern. -/
def firstCondition (hidden : Bool) : List Char :=
  (if hidden then "(?!(?:^|\\/)\\.\x7b1,2\x7d(?:\\/|$))" else "(?!\\.)").toList

/-- What is written for a pattern that consists of few names with stars. -/
def starsPhrase? (hidden : Bool) (pattern : List Char) : Option (List Char) :=
  let condition := firstCondition hidden
  let inner := visiblePhrase hidden
  let names := namesPhrase hidden
  let anywhere := "(?:".toList ++ condition ++ names ++ "\\/)?".toList
  match String.ofList pattern with
  | "*" => some (condition ++ followedPhrase ++ starPhrase)
  | ".*" => some (pointPhrase ++ followedPhrase ++ starPhrase)
  | "*.*" => some (condition ++ starPhrase ++ pointPhrase ++ followedPhrase ++ starPhrase)
  | "*/*" =>
    some (condition ++ starPhrase ++ slashPhrase ++ followedPhrase ++ inner ++ starPhrase)
  | "**" => some (condition ++ names)
  | "**/*" => some (anywhere ++ inner ++ followedPhrase ++ starPhrase)
  | "**/*.*" =>
    some (anywhere ++ inner ++ starPhrase ++ pointPhrase ++ followedPhrase ++ starPhrase)
  | "**/.*" => some (anywhere ++ pointPhrase ++ followedPhrase ++ starPhrase)
  | _ => none

/-- What is written for a pattern with stars and the ending of a file name behind it, or with
several endings. -/
def commonPhrase? (hidden : Bool) : Nat → List Char → Option (List Char)
  | 0, _ => none
  | fuel + 1, pattern =>
    match starsPhrase? hidden pattern with
    | some phrase => some phrase
    | none =>
      let ending := (pattern.reverse.takeWhile isWordChar).reverse
      let before := pattern.take (pattern.length - ending.length)
      if ending.isEmpty || before.getLast? != some '.' then none
      else
        (commonPhrase? hidden fuel before.dropLast).map (· ++ pointPhrase ++ ending)

/-! ### Simple patterns -/

/-- Whether a pattern holds nothing the meaning of which depends on its surroundings. -/
def isSimple (pattern : List Char) : Bool :=
  pattern.head? != some '*' && pattern.head? != some '!' &&
    !pattern.any ("/()[]\x7b\x7d\x22".toList.contains ·)

/-- What is written for a sign and the same signs behind it. -/
def runPhrase (hidden isFirst isEscaped : Bool) (sign : Char) (more : Nat) : List Char :=
  let run (phrase : List Char) (count : Nat) : List Char := (List.replicate count phrase).flatten
  if sign = '?' then
    if isEscaped then ['\\', '?'] ++ run anyPhrase more
    else if isFirst then (if hidden then anyPhrase else "[^.\\/]".toList) ++ run anyPhrase more
    else run anyPhrase (more + 1)
  else if sign = '.' then run pointPhrase (more + 1)
  else if sign = '*' then
    if isEscaped then ['\\', '*'] ++ (if more = 0 then [] else starPhrase) else starPhrase
  else '\\' :: List.replicate (more + 1) sign

/-- What is written for a simple pattern, before its backslashes are set right. -/
def simplePhrase (hidden : Bool) : Nat → Bool → List Char → List Char
  | 0, _, _ => []
  | _, _, [] => []
  | fuel + 1, isFirst, c :: rest =>
    let run (sign : Char) (rest : List Char) : List Char := rest.takeWhile (· = sign)
    if isWordChar c then c :: simplePhrase hidden fuel false rest
    else if c = '\\' then
      match rest with
      | next :: behind =>
        let more := run next behind
        let behind := behind.drop more.length
        if isWordChar next then '\\' :: simplePhrase hidden fuel false rest
        else if next = '\\' then
          '\\' :: next :: more ++ simplePhrase hidden fuel false behind
        else
          runPhrase hidden isFirst true next more.length ++ simplePhrase hidden fuel false behind
      | [] => ['\\']
    else
      let more := run c rest
      runPhrase hidden isFirst false c more.length ++
        simplePhrase hidden fuel false (rest.drop more.length)

/-- Makes each run of backslashes one or two of them, so that as many of them as
before have a meaning. -/
def settleBackslashes : Nat → List Char → List Char
  | 0, text => text
  | _, [] => []
  | fuel + 1, c :: rest =>
    if c = '\\' then
      let more := rest.takeWhile (· = '\\')
      (if more.length % 2 = 0 then ['\\'] else ['\\', '\\']) ++
        settleBackslashes fuel (rest.drop more.length)
    else c :: settleBackslashes fuel rest

/-- Whether a backslash stands before a word or another backslash, or at the end. -/
def hasFreeBackslash : List Char → Bool
  | '\\' :: c :: rest =>
    isWordChar c || c = '\\' || hasFreeBackslash rest
  | ['\\'] => true
  | _ :: rest => hasFreeBackslash rest
  | [] => false

/-- What is written for a simple pattern. -/
def simpleSource (hidden : Bool) (pattern : List Char) : List Char :=
  let phrase := simplePhrase hidden pattern.length true pattern
  let settled :=
    if hasFreeBackslash pattern then settleBackslashes phrase.length phrase else phrase
  "^(?:".toList ++ settled ++ ")$".toList

/-! ### All patterns -/

/-- What is written for a pattern, and whether it stands for all but what that describes. -/
def draftSource (hidden : Bool) (pattern : List Char) : List Char × Bool :=
  let short := dropStep (shorten pattern)
  if isSimple short then (simpleSource hidden short, false)
  else
    let d := draftOf hidden (pattern.length + 1) pattern
    (d.result, d.isNegated)

/-- The text of the regular expression of a pattern. -/
def regexSource (hidden : Bool) (pattern : List Char) : List Char :=
  let common :=
    if pattern.head? = some '.' || pattern.head? = some '*' then
      (commonPhrase? hidden (pattern.length + 1) (dropStep (shorten pattern))).map
        (· ++ ['\\', '/', '?'])
    else none
  let (source, isNegated) := (common.map (·, false)).getD (draftSource hidden pattern)
  let whole := "^(?:".toList ++ source ++ ")$".toList
  if isNegated then "^(?!".toList ++ whole ++ ").*$".toList else whole

end LineSum.Glob
