import LineSum.Diagnostic
import LineSum.Yaml.Tree

/-!
# The text of inline scalars

A plain or quoted scalar has a text, which is its source without quotes, escapes and folded line
ends. Between two lines a single line end becomes a space, and of several ones all but the first are
kept.
-/

namespace LineSum.Yaml

/-! ## Folded lines -/

/-- Whether a character is a space or a tab. -/
def isSpace (c : Char) : Bool :=
  c = ' ' || c = '\t'

/-- The lines of a text, without their newlines. -/
def linesOf : List Char → List (List Char)
  | [] => [[]]
  | c :: rest =>
    if c = '\n' then [] :: linesOf rest
    else
      match linesOf rest with
      | [] => [[c]]
      | line :: lines => (c :: line) :: lines

/-- A line without the carriage return, spaces and tabs at its end. -/
def trimLineEnd (line : List Char) : List Char :=
  let line := if line.getLast? = some '\r' then line.dropLast else line
  (line.reverse.dropWhile isSpace).reverse

/-- Folds lines into a text: single line ends become spaces, and of several ones all but the first
are kept. `pending` is the separator that is due before the next line with content. -/
def foldFrom (pending : Char) : List (List Char) → List Char
  | [] => []
  | [last] => pending :: last.dropWhile isSpace
  | line :: rest =>
    let content := trimLineEnd (line.dropWhile isSpace)
    if content.isEmpty then
      if pending = '\n' then '\n' :: foldFrom '\n' rest else foldFrom '\n' rest
    else pending :: content ++ foldFrom ' ' rest

/-- Folds the line ends of a scalar. A text of one line is kept as it is. -/
def foldLines (source : List Char) : List Char :=
  match linesOf source with
  | [] => []
  | [_] => source
  | first :: rest => trimLineEnd first ++ foldFrom ' ' rest

/-! ## Quoted scalars -/

/-- A doubled quote stands for one. -/
def undoubleQuotes : List Char → List Char
  | '\x27' :: '\x27' :: rest => '\x27' :: undoubleQuotes rest
  | c :: rest => c :: undoubleQuotes rest
  | [] => []

/-- The text of a scalar in single quotes. -/
def singleQuotedText (offset : Nat) (source : List Char) : Reported (List Char) :=
  let closed := source.getLast? = some '\x27' && source.length != 1
  let inner := (source.drop 1).dropLast
  ⟨undoubleQuotes (foldLines inner),
    if closed then [] else [.atPlace (offset + unitLength source) .missingSingleQuote]⟩

/-- The character that a letter behind a backslash stands for. -/
def escapedChar? (c : Char) : Option Char :=
  match c with
  | '0' => some '\x00'
  | 'a' => some '\x07'
  | 'b' => some '\x08'
  | 'e' => some '\x1b'
  | 'f' => some '\x0c'
  | 'n' => some '\n'
  | 'r' => some '\r'
  | 't' => some '\t'
  | 'v' => some '\x0b'
  | 'N' => some '\u0085'
  | '_' => some '\u00a0'
  | 'L' => some '\u2028'
  | 'P' => some '\u2029'
  | ' ' => some ' '
  | '\x22' => some '\x22'
  | '/' => some '/'
  | '\\' => some '\\'
  | '\t' => some '\t'
  | _ => none

/-- How many digits of base sixteen follow a letter behind a backslash. -/
def escapeDigits? (c : Char) : Option Nat :=
  match c with
  | 'x' => some 2
  | 'u' => some 4
  | 'U' => some 8
  | _ => none

/-- The white space behind a line end in double quotes: how many characters it has, and how many
line ends. A carriage return counts only as part of a line end. -/
def foldedBlanks : List Char → Nat × Nat
  | '\r' :: '\n' :: rest => let (n, ends) := foldedBlanks rest; (n + 2, ends + 1)
  | c :: rest =>
    if c = '\n' then let (n, ends) := foldedBlanks rest; (n + 1, ends + 1)
    else if isSpace c then let (n, ends) := foldedBlanks rest; (n + 1, ends)
    else (0, 0)
  | [] => (0, 0)

/-- Puts codes before the text that comes next. -/
def Reported.before (codes : List Nat) (next : Reported (List Nat)) : Reported (List Nat) :=
  ⟨codes ++ next.value, next.reports⟩

/-- The codes of the characters of a text. -/
def codesOf (cs : List Char) : List Nat := cs.map Char.toNat

/-- Reads the inside of double quotes; the last character, which should be the closing quote, is not
part of it but is looked at. -/
def readDoubleQuoted (offset : Nat) (source : List Char) : Reported (List Nat) :=
  match source with
  | [] => ⟨[], []⟩
  | [_] => ⟨[], []⟩
  | c :: d :: rest =>
    if c = '\r' && d = '\n' then readDoubleQuoted (offset + 1) (d :: rest)
    else if c = '\n' then
      let (n, ends) := foldedBlanks (d :: rest)
      let fold := if ends = 0 then [' '] else List.replicate ends '\n'
      .before (codesOf fold) (readDoubleQuoted (offset + 1 + n) ((d :: rest).drop n))
    else if c = '\\' then
      match escapedChar? d with
      | some e => .before [e.toNat] (readDoubleQuoted (offset + 2) rest)
      | none =>
        if d = '\n' then
          let blanks := rest.takeWhile isSpace
          readDoubleQuoted (offset + 2 + blanks.length) (rest.drop blanks.length)
        else if d = '\r' && rest.head? = some '\n' then
          let blanks := (rest.drop 1).takeWhile isSpace
          readDoubleQuoted (offset + 3 + blanks.length) (rest.drop (1 + blanks.length))
        else
          match escapeDigits? d with
          | some count =>
            let digits := rest.take count
            let code := hexValue digits
            let next := readDoubleQuoted (offset + 2 + unitLength digits) (rest.drop count)
            if digits.length = count && digits.all isHexDigit && code < 0x110000 then
              .before [code] next
            else
              let raw := c :: d :: digits
              ⟨codesOf raw ++ next.value,
                .atPlace offset (.badEscape (String.ofList raw)) :: next.reports⟩
          | none =>
            let next := readDoubleQuoted (offset + 1 + unitSize d) rest
            ⟨codesOf [c, d] ++ next.value,
              .atPlace offset (.badEscape (String.ofList [c, d])) :: next.reports⟩
    else if isSpace c then
      let blanks := c :: (d :: rest).takeWhile isSpace
      let after := (d :: rest).dropWhile isSpace
      let next := readDoubleQuoted (offset + blanks.length) after
      let atEnd :=
        match after with
        | '\n' :: _ => true
        | '\r' :: '\n' :: _ => true
        | _ => false
      if atEnd then next else .before (codesOf blanks) next
    else .before [c.toNat] (readDoubleQuoted (offset + unitSize c) (d :: rest))
termination_by source.length
decreasing_by
  all_goals
    simp only [List.length_cons, List.length_drop]
    try have := (List.dropWhile_suffix (l := d :: rest) isSpace).length_le
    try simp only [List.length_cons] at this
    omega

/-- The text of a scalar in double quotes. -/
def doubleQuotedText (offset : Nat) (source : List Char) : Reported (List Char) :=
  let closed := source.getLast? = some '\x22' && source.length != 1
  let inner := readDoubleQuoted (offset + 1) (source.drop 1)
  ⟨charsOfCodes inner.value, inner.reports ++
    if closed then [] else [.atPlace (offset + unitLength source) .missingDoubleQuote]⟩

/-! ## Plain scalars -/

/-- What is wrong with the first character of a plain scalar. -/
def badStart? : List Char → Option BadStart
  | [] => none
  | c :: _ =>
    if c = '\t' then some .tab
    else if c = ',' then some .comma
    else if c = '%' then some .percent
    else if c = '|' || c = '>' then some (.blockIndicator c)
    else if c = '@' || c = '\x60' then some (.reserved c)
    else none

/-- The text of a plain scalar. -/
def plainText (offset : Nat) (source : List Char) : Reported (List Char) :=
  ⟨foldLines source, (badStart? source).toList.map fun bad =>
    .atPlace offset (.badScalarStart bad)⟩

end LineSum.Yaml
