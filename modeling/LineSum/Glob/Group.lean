import LineSum.Glob.Draft
import LineSum.Text.Basic

/-!
# Parts of a translation

How repetitions, groups and stars of a pattern are translated.
-/

namespace LineSum.Glob

/-! ## Groups that repeat too much

A repeated group whose alternatives overlap, or which repeats nothing but another repeated group,
can be matched in far too many ways. Such a group is not taken as one: it is read literally, unless
it says nothing but that some characters are repeated.
-/

/-- Where a text is with respect to brackets and quotation marks. -/
structure Depth where
  brackets : Nat
  parens : Nat
  inQuotes : Bool

/-- Divides a text at the bars that stand in no brackets and in no quotation marks. -/
def splitBars (depth : Depth) (current : List Char) : List Char → List (List Char)
  | [] => [current]
  | '\\' :: c :: rest => splitBars depth (current ++ ['\\', c]) rest
  | c :: rest =>
    let keep (depth : Depth) := splitBars depth (current ++ [c]) rest
    if c = '\x22' then keep { depth with inQuotes := !depth.inQuotes }
    else if depth.inQuotes then keep depth
    else if c = '[' then keep { depth with brackets := depth.brackets + 1 }
    else if c = ']' && 0 < depth.brackets then keep { depth with brackets := depth.brackets - 1 }
    else if 0 < depth.brackets then keep depth
    else if c = '(' then keep { depth with parens := depth.parens + 1 }
    else if c = ')' then keep { depth with parens := depth.parens - 1 }
    else if c = '|' && depth.parens = 0 then current :: splitBars depth [] rest
    else keep depth

/-- The alternatives of a group, without blanks around them. -/
def alternativesOf (inner : List Char) : List (List Char) :=
  (splitBars ⟨0, 0, false⟩ [] inner).map trimBlank

/-- How many characters there are up to the bracket that closes the first one. -/
def closingPlace? (depth : Depth) (place : Nat) : List Char → Option Nat
  | [] => none
  | '\\' :: _ :: rest => closingPlace? depth (place + 2) rest
  | c :: rest =>
    let go (depth : Depth) := closingPlace? depth (place + 1) rest
    if c = '\x22' then go { depth with inQuotes := !depth.inQuotes }
    else if depth.inQuotes then go depth
    else if c = '[' then go { depth with brackets := depth.brackets + 1 }
    else if c = ']' && 0 < depth.brackets then go { depth with brackets := depth.brackets - 1 }
    else if 0 < depth.brackets then go depth
    else if c = '(' then go { depth with parens := depth.parens + 1 }
    else if c = ')' then
      if depth.parens ≤ 1 then some place else go { depth with parens := depth.parens - 1 }
    else go depth

/-- The repeated group at the beginning of a text: its sign, what it holds,
and what is behind it. -/
def repeatedGroup? (text : List Char) : Option (Char × List Char × List Char) :=
  match text with
  | sign :: '(' :: rest =>
    if sign = '+' || sign = '*' then
      (closingPlace? ⟨0, 1, false⟩ 0 rest).map fun place =>
        (sign, rest.take place, rest.drop (place + 1))
    else none
  | _ => none

/-- Takes a text out of groups that stand for themselves. -/
def unwrapGroups : Nat → List Char → List Char
  | 0, text => text
  | fuel + 1, text =>
    let inner := (text.drop 2).dropLast
    if text.take 2 = ['@', '('] && text.getLast? = some ')' && !inner.isEmpty &&
        !inner.any ("\\()[]\x7b\x7d|".toList.contains ·) then unwrapGroups fuel inner
    else text

/-- Takes the backslashes out of a text that are not behind another one. -/
def dropBackslashes : List Char → List Char
  | '\\' :: c :: rest => c :: dropBackslashes rest
  | c :: rest => c :: dropBackslashes rest
  | [] => []

/-- Whether a text holds no signs except behind backslashes. -/
def isPlainText : List Char → Bool
  | '\\' :: _ :: rest => isPlainText rest
  | c :: rest => !"?*+@!()[]\x7b\x7d".toList.contains c && isPlainText rest
  | [] => true

/-- The characters that an alternative stands for, if it holds no signs. -/
def plainAlternative? (text : List Char) : Option (List Char) :=
  let text := unwrapGroups text.length (trimBlank text)
  if isPlainText text then some (dropBackslashes text) else none

/-- Whether both texts repeat the same character. -/
def overlaps (a b : List Char) : Bool :=
  match a with
  | [] => false
  | c :: _ => !b.isEmpty && a.all (· = c) && b.all (· = c)

/-- Whether two of some alternatives repeat the same character. -/
def haveOverlap : List (List Char) → Bool
  | [] => false
  | a :: rest => rest.any (overlaps a) || haveOverlap rest

/-- The characters that a row of groups repeats one after the other, if that is all it says. -/
def repeatedChars? : Nat → List Char → Option (List Char)
  | 0, _ => none
  | fuel + 1, text =>
    match repeatedGroup? text with
    | some ('*', inner, behind) =>
      match alternativesOf inner with
      | [alternative] =>
        match plainAlternative? alternative with
        | some [c] =>
          if behind.isEmpty then some [c] else (repeatedChars? fuel behind).map (c :: ·)
        | _ => none
      | _ => none
    | _ => none

/-- Whether a text is nothing but a repeated group. -/
def isRepeatedGroup (text : List Char) : Bool :=
  (repeatedGroup? text).any fun (_, _, behind) => behind.isEmpty

/-- What is written instead of a group that repeats too much. -/
inductive Substitute where
  /-- The group itself, taken literally. -/
  | literal
  /-- The characters that it repeats. -/
  | chars (phrase : List Char)
  deriving DecidableEq, Repr

/-- What is written instead of a repeated group with the given content, if it repeats too much. -/
def substitute? (inner : List Char) : Option Substitute :=
  let alternatives := alternativesOf inner
  let isVague (text : List Char) : Bool := text.all fun c => c = '*' || c = '?'
  if 1 < alternatives.length &&
      (alternatives.any isVague || haveOverlap (alternatives.filterMap plainAlternative?)) then
    some .literal
  else
    alternatives.findSome? fun alternative =>
      match repeatedChars? (alternative.length + 1) alternative with
      | some [c] => some (.chars (quoteSigns [c] ++ ['*']))
      | some cs => some (.chars ('[' :: quoteSigns cs ++ [']', '*']))
      | none => if isRepeatedGroup (trimBlank alternative) then some .literal else none

/-! ## Groups

Round brackets with a sign before them form a group: it can be left out, repeated, or say what a
name may not be. Braces that are left in a pattern form a group of alternatives, or a range of
characters.
-/

namespace Draft

/-- Whether there is a group with a sign before it: no question mark that has a meaning of its own
follows the bracket. -/
def opensGroup (d : Draft) : Bool := d.rest.head? = some '(' && d.rest[1]? != some '?'

/-- What is written for the beginning and for the end of a group with a sign. -/
def groupPhrases : Char → List Char × List Char
  | '!' => ("(?:(?!(?:".toList, "))".toList ++ starPhrase ++ [')'])
  | '?' => ("(?:".toList, ")?".toList)
  | sign => ("(?:".toList, [')', sign])

/-- Opens a group with a sign, which has been read; the bracket has not. -/
def openGroup (d : Draft) (sign : Char) : Draft :=
  let (opening, closing) := groupPhrases sign
  let group : SignedGroup :=
    ⟨sign, closing, [], d.parens, d.output, sign :: d.rest, d.before.length + 1⟩
  let kind : PieceKind := if sign = '*' then .star else .sign
  let d := { d with parens := d.parens + 1 }.enter .parens
  let d := d.push (.written kind [sign] (if d.output.isEmpty then followedPhrase else []))
  let d := (d.skip 1).push { Piece.written .paren ['('] opening with isSigned := true }
  { d with groups := group :: d.groups }

/-- Leaves a group. -/
def leaveGroup (d : Draft) : Draft := { d with parens := d.parens - 1 }.leave

/-- Changes one of the pieces, and those behind it in another way. -/
def changeFrom (d : Draft) (count : Nat) (one behind : Piece → Piece) : Draft :=
  let change (piece : Piece) (before : List Piece) : Piece :=
    if before.length = count then one piece
    else if count < before.length then behind piece
    else piece
  let rec go : List Piece → List Piece
    | [] => []
    | piece :: before => change piece before :: go before
  { d with last := change d.last d.before, before := go d.before }

/-- Closes a group that repeats too much. -/
def closeSubstitute (d : Draft) (group : SignedGroup) (literal : List Char) (s : Substitute) :
    Draft :=
  let phrase :=
    match s with
    | .literal => quoteSigns literal
    | .chars phrase => (if group.output.isEmpty then followedPhrase else []) ++ phrase
  let d := d.changeFrom group.pieces
    (fun piece => { piece with kind := .text, text := literal, phrase := some phrase })
    (fun piece => { piece with text := [], phrase := some [] })
  let d := { d with output := group.output ++ phrase, isObsolete := true }
  (d.push { Piece.written .paren [')'] [] with isSigned := true }).leaveGroup

/-- Whether all that is left is the end of groups. -/
def atGroupEnds (d : Draft) : Bool := d.rest.all (· = ')')

/-- Whether all that is left is the ending of a file name. -/
def atFileEnding (d : Draft) : Bool :=
  d.rest.head? = some '.' && 2 ≤ d.rest.length &&
    (d.rest.drop 1).all fun c => !"\\/.".toList.contains c

/-- What is written for the end of a group that says what a name may not be. -/
def negativeClosing (translate : List Char → List Char) (d : Draft) (group : SignedGroup) :
    List Char :=
  let isPath := 1 < group.inner.length && group.inner.contains '/'
  let others := if isPath then namesPhrase d.hidden else starPhrase
  if group.inner.contains '*' && d.atFileEnding then
    ')' :: translate d.rest ++ [')'] ++ others ++ [')']
  else if isPath || d.atGroupEnds then ")$))".toList ++ others
  else group.closing

/-- Closes a group with a sign. `translate` gives what is written for a pattern. -/
def closeGroup (translate : List Char → List Char) (d : Draft) (group : SignedGroup) : Draft :=
  let literal := group.source.take (group.source.length - d.rest.length)
  let substitute :=
    if group.sign = '+' || group.sign = '*' then substitute? ((literal.drop 2).dropLast) else none
  match substitute with
  | some s => d.closeSubstitute group literal s
  | none =>
    let closing :=
      if group.sign = '!' then d.negativeClosing translate group else group.closing
    (d.push { Piece.written .paren [')'] closing with isSigned := true }).leaveGroup

/-- Reads a closing round bracket. -/
def closeParen (translate : List Char → List Char) (d : Draft) : Draft :=
  let plain :=
    (d.push (.written .paren [')'] (if d.parens = 0 then ['\\', ')'] else [')']))).leaveGroup
  match d.groups with
  | group :: groups =>
    if d.parens = group.parens + 1 then closeGroup translate { d with groups } group else plain
  | [] => plain

/-! ### Braces -/

/-- Opens a pair of braces. -/
def openBraces (d : Draft) : Draft :=
  let group : BraceGroup := ⟨false, false, d.output.length, d.before.length + 1⟩
  ({ d with braces := group :: d.braces }.enter .braces).push (.written .brace ['\x7b'] ['('])

/-- The texts of the pieces back to the last brace, without the points between them, and
the pieces before it. -/
def takeRange (found : List (List Char)) : List Piece → List (List Char) × List Piece
  | [] => (found, [])
  | piece :: before =>
    if piece.kind = .brace then (found, before)
    else takeRange (if piece.kind = .points then found else piece.text :: found) before

/-- What is written for a range between braces: a set, if that can be one. -/
def rangePhrase (texts : List (List Char)) : List Char :=
  let texts := texts.mergeSort fun a b => unitsLe (String.ofList a) (String.ofList b)
  let set := '[' :: ['-'].intercalate texts ++ [']']
  if (Regex.ofText? set).isSome then set else ['.', '.'].intercalate (texts.map quoteSigns)

/-- Reads a closing brace. -/
def closeBraces (d : Draft) : Draft :=
  match d.braces with
  | [] => d.push (.written .text ['\x7d'] ['\x7d'])
  | group :: braces =>
    let finish (d : Draft) (text phrase : List Char) : Draft :=
      { (d.push (.written .brace text phrase)).leave with braces }
    if group.hasPoints then
      let (texts, before) := takeRange [] (d.last :: d.before)
      let d :=
        match before with
        | last :: before => { d with last, before, isObsolete := true }
        | [] => { d with isObsolete := true }
      finish d ['\x7d'] (rangePhrase texts)
    else if group.hasComma then finish d ['\x7d'] [')']
    else
      let opening : List Char := ['\\', '\x7b']
      let d := d.changeFrom group.pieces
        (fun piece => { piece with text := opening, phrase := some opening }) id
      let inner := (d.pieces.drop group.pieces).flatMap fun piece =>
        if piece.source.isEmpty then piece.text else piece.source
      let d := { d with output := d.output.take group.output ++ inner }
      finish d ['\\', '\x7d'] ['\\', '\x7d']

/-- Changes the innermost pair of braces. -/
def markBraces (d : Draft) (f : BraceGroup → BraceGroup) : Draft :=
  match d.braces with
  | group :: braces => { d with braces := f group :: braces }
  | [] => d

end Draft

/-! ## Stars

One star stands for characters of a name. Two stars stand for any number of names if they take the
place of a name, and else for no more than one star does.
-/

namespace Draft

/-- Makes the last piece, which is a star, one for names. -/
def toNames (d : Draft) (phrase : List Char) : Draft :=
  { d with last := { d.last with
      kind := .names, text := d.last.text ++ ['*'], phrase := some phrase } }

/-- Passes over names that follow and that are two stars themselves. -/
def skipNames : Nat → Draft → Draft
  | 0, d => d
  | fuel + 1, d =>
    if d.rest.take 3 = ['/', '*', '*'] && (d.rest[3]?.all (· = '/')) then skipNames fuel (d.skip 3)
    else d

/-- Two stars at the beginning or behind something that a name can begin behind. -/
def readNames (d : Draft) : Draft :=
  let d := skipNames d.rest.length d
  let names := namesPhrase d.hidden
  let slash : Piece := .written .slash ['/'] []
  match d.before with
  | [] => d
  | prior :: before =>
    let isInside := prior.kind = .slash && before.head?.any (·.kind != .beginning)
    let afterStars := before.head?.any fun piece => piece.kind = .star || piece.kind = .names
    /- Two stars inside of a pattern make the slash before them optional. -/
    let replace (phrase : List Char) : Draft :=
      let d := d.unwrite (prior.source ++ d.last.source)
      let opened := { prior with phrase := some ("(?:".toList ++ prior.source) }
      ({ d with before := opened :: before }.toNames phrase).write (opened.source ++ phrase)
    if prior.kind = .beginning && d.rest.isEmpty then
      { d.toNames names with output := names }
    else if isInside && !afterStars && d.rest.isEmpty then
      replace (names ++ "|$)".toList)
    else if isInside && d.rest.head? = some '/' then
      let ending := if 1 < d.rest.length then "|$)" else ")"
      ((replace (names ++ "\\/|\\/".toList ++ ending.toList)).skip 1).push slash
    else if prior.kind = .beginning && d.rest.head? = some '/' then
      let phrase := "(?:^|\\/|".toList ++ names ++ "\\/)".toList
      ({ d.toNames phrase with output := phrase }.skip 1).push slash
    else ((d.unwrite d.last.source).toNames names).write names

/-- Reads a star behind another one. -/
def readSecondStar (d : Draft) : Draft :=
  let prior := (d.before.head?.map (·.kind)).getD .beginning
  let isFree :=
    prior = .slash || prior = .beginning || prior = .paren ||
      (!d.braces.isEmpty && (prior = .comma || prior = .brace))
  if isFree then d.readNames else d.push (.written .star ['*'] [])

/-- The condition that comes before a star at the beginning of a name. -/
def starCondition (d : Draft) : List Char :=
  (if d.last.kind = .point then "(?!\\.\x7b0,1\x7d(?:\\/|$))".toList
    else visiblePhrase d.hidden) ++
    if d.rest.head? = some '*' then [] else followedPhrase

/-- Reads a star. -/
def readStar (d : Draft) : Draft :=
  if d.last.kind = .names || d.last.isManyStars then
    { d with
      last := { d.last with
        kind := .star, isManyStars := true, text := d.last.text ++ ['*'],
        phrase := some starPhrase }
      isObsolete := true }
  else if d.rest.head? = some '(' && d.rest[1]?.any (· != '?') then d.openGroup '*'
  else if d.last.kind = .star then d.readSecondStar
  else
    let star : Piece := .written .star ['*'] starPhrase
    if d.index = d.start || d.last.kind = .slash || d.last.kind = .point then
      let condition := d.starCondition
      ({ d with last := d.last.extendPhrase condition }.write condition).push star
    else d.push star

end Draft

end LineSum.Glob
