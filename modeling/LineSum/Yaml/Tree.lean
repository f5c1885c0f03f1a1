import LineSum.Diagnostic
import LineSum.Text.Units
import LineSum.Yaml.Problem

/-!
# Layout trees and reports

The tree of what stands in a document, and reports about it.
-/

namespace LineSum.Yaml

/-! ## The layout tree of a document

A layout tree holds the lexemes of a document in the nesting that indentation and brackets give
them, before anything is decided about their values. Offsets count 16-bit units.
-/

/-- A lexeme with its place and the indentation of its line so far. -/
structure Token where
  kind : Kind
  offset : Nat
  indent : Nat
  chars : List Char
  deriving DecidableEq, Repr, Inhabited

namespace Token

/-- The offset behind the token. -/
def stop (t : Token) : Nat := t.offset + unitLength t.chars

/-- The number of units of the token. -/
def size (t : Token) : Nat := unitLength t.chars

end Token

/-- Whether one of the tokens is of a kind. -/
def hasKind (kind : Kind) (tokens : List Token) : Bool :=
  tokens.any (·.kind = kind)

/-- Whether a token is white space, a line end or a comment. -/
def Token.isBlank (t : Token) : Bool :=
  t.kind = .space || t.kind = .newline || t.kind = .comment

/-- The kinds of scalars and aliases that are written inside a line or between quotes. -/
inductive InlineKind where
  | alias
  | plain
  | singleQuoted
  | doubleQuoted
  deriving DecidableEq, Repr, Inhabited

/-- The inline kind of a lexeme, if it has one. -/
def Kind.inline? : Kind → Option InlineKind
  | .alias => some .alias
  | .scalar => some .plain
  | .singleQuoted => some .singleQuoted
  | .doubleQuoted => some .doubleQuoted
  | _ => none

mutual

/-- A layout tree. -/
inductive Tree where
  /-- A scalar or an alias; `after` are the tokens behind it that belong to it. -/
  | inline (kind : InlineKind) (offset indent : Nat) (chars : List Char) (after : List Token)
  /-- A block scalar with its header. -/
  | block (offset indent : Nat) (header : List Token) (chars : List Char)
  /-- A map whose entries stand on lines of their own. -/
  | blockMap (offset indent : Nat) (items : List Entry)
  /-- A list whose items stand on lines of their own. -/
  | blockSeq (offset indent : Nat) (items : List Entry)
  /-- A collection between brackets. `close` begins with its closing bracket, if it has one. -/
  | flow (offset indent : Nat) (start : Token) (items : List Entry) (close : List Token)
  /-- A lexeme that fits nowhere. -/
  | broken (offset : Nat) (problem : Problem) (chars : List Char)

/-- An entry of a collection: what stands before the key, the key, what stands between the key and
the value, and the value. `explicit` tells whether a question mark announces the key. -/
inductive Entry where
  | mk (start : List Token) (explicit : Bool) (key : Option Tree) (sep : Option (List Token))
      (value : Option Tree)

end

instance : Inhabited Tree := ⟨.inline .plain 0 0 [] []⟩

instance : Inhabited Entry := ⟨.mk [] false none none none⟩

namespace Entry

/-- What stands before the key. -/
def start : Entry → List Token
  | mk start _ _ _ _ => start

/-- Whether a question mark announces the key. -/
def explicit : Entry → Bool
  | mk _ explicit _ _ _ => explicit

/-- The key. -/
def key : Entry → Option Tree
  | mk _ _ key _ _ => key

/-- What stands between the key and the value, if the key has been read. -/
def sep : Entry → Option (List Token)
  | mk _ _ _ sep _ => sep

/-- The value. -/
def value : Entry → Option Tree
  | mk _ _ _ _ value => value

/-- An entry of which only the tokens before the key are known. -/
def ofStart (start : List Token) : Entry :=
  mk start false none none none

/-- An entry with its key, and with what stands behind the key so far. -/
def ofKey (start : List Token) (key : Option Tree) (sep : List Token) : Entry :=
  mk start false key (some sep) none

/-- Adds a token to what stands before the key, or behind it if the key has been read. -/
def addProp (e : Entry) (token : Token) : Entry :=
  match e with
  | mk start explicit key (some sep) value => mk start explicit key (some (sep ++ [token])) value
  | mk start explicit key none value => mk (start ++ [token]) explicit key none value

/-- Replaces what stands before the key. -/
def withStart (e : Entry) (start : List Token) : Entry :=
  mk start e.explicit e.key e.sep e.value

/-- Replaces the key and what stands behind it. -/
def withKey (e : Entry) (key : Option Tree) (sep : Option (List Token)) : Entry :=
  mk e.start e.explicit key sep e.value

/-- Replaces the value. -/
def withValue (e : Entry) (value : Option Tree) : Entry :=
  mk e.start e.explicit e.key e.sep value

end Entry

namespace Tree

/-- The offset at which the tree starts. -/
def offset : Tree → Nat
  | inline _ offset _ _ _ => offset
  | block offset _ _ _ => offset
  | blockMap offset _ _ => offset
  | blockSeq offset _ _ => offset
  | flow offset _ _ _ _ => offset
  | broken offset _ _ => offset

/-- The indentation of the tree, if it has one. -/
def indent? : Tree → Option Nat
  | inline _ _ indent _ _ => some indent
  | block _ indent _ _ => some indent
  | blockMap _ indent _ => some indent
  | blockSeq _ indent _ => some indent
  | flow _ indent _ _ _ => some indent
  | broken _ _ _ => none

/-- Whether the tree is a block collection. -/
def isBlockCollection : Tree → Bool
  | blockMap _ _ _ => true
  | blockSeq _ _ _ => true
  | _ => false

/-- Whether the tree can stand inside a flow collection. -/
def isFlow : Tree → Bool
  | inline _ _ _ _ _ => true
  | flow _ _ _ _ _ => true
  | _ => false

/-- The tokens behind the tree that belong to it, if it can have any and, unless it is a flow
collection, has some. -/
def trail? : Tree → Option (List Token)
  | inline _ _ _ _ after => if after.isEmpty then none else some after
  | flow _ _ _ _ close => some close
  | _ => none

/-- Adds tokens behind the tree. -/
def addTrail (t : Tree) (tokens : List Token) : Tree :=
  match t with
  | inline kind offset indent chars after => inline kind offset indent chars (after ++ tokens)
  | flow offset indent start items close => flow offset indent start items (close ++ tokens)
  | t => t

end Tree

/-- A document: what stands before its node, the node, and what stands behind it. -/
structure DocumentTree where
  offset : Nat
  start : List Token
  value : Option Tree
  after : List Token

/-- What a text consists of, from its beginning to its end. -/
inductive Part where
  | directive (offset : Nat) (chars : List Char)
  | document (tree : DocumentTree)
  | documentEnd (offset : Nat) (chars : List Char) (after : List Token)
  | stray (offset : Nat) (problem : Problem) (chars : List Char)

/-! ## Reports

A report is a problem together with the stretch of text where it is noticed. Reading goes on after a
problem, so that results come together with the reports that were made on the way.
-/

/-- A problem and the stretch of text where it is noticed. -/
structure Report where
  problem : Problem
  span : Span
  deriving DecidableEq, Repr

namespace Report

/-- A report about one place. -/
def atPlace (offset : Nat) (problem : Problem) : Report :=
  ⟨problem, ⟨offset, offset + 1⟩⟩

/-- A report about a token. -/
def atToken (token : Token) (problem : Problem) : Report :=
  ⟨problem, ⟨token.offset, token.stop⟩⟩

end Report

/-- A result together with the reports that were made on the way to it. -/
structure Reported (α : Type) where
  value : α
  reports : List Report

end LineSum.Yaml
