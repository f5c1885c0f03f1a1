import LineSum.Expr.Lexer

/-!
# Evaluating expressions

Tokens are summed up from left to right. Evaluating a text reads its tokens and sums them up, and
either step may fail.
-/

namespace LineSum

/-! ## Adding up tokens

Tokens are summed from left to right: a number, then pairs of an operator and a number. A `Reader`
stands between the tokens of a sequence, as a cursor does between characters.
-/

/-- Why a token sequence has no value. -/
inductive ParseError where
  /-- The tokens end where a number is due. -/
  | unexpectedEnd
  /-- A token stands where one of the other kind is due. -/
  | invalidToken (token : Token)
  deriving DecidableEq, Repr

/-- The sentence that reports the error. -/
def ParseError.message : ParseError → String
  | unexpectedEnd => "Unexpected end of input during parsing"
  | invalidToken token => "Invalid token during parsing: " ++ token.text

/-- A place in a token sequence: how many tokens have been read and which ones are ahead. -/
structure Reader where
  position : Nat
  ahead : List Token
  deriving DecidableEq, Repr

namespace Reader

/-- The reader before the first token. -/
def ofTokens (tokens : List Token) : Reader :=
  ⟨0, tokens⟩

/-- Reads one token, or nothing at the end. -/
def next (r : Reader) : Option Token × Reader :=
  match r.ahead with
  | [] => (none, r)
  | token :: rest => (some token, ⟨r.position + 1, rest⟩)

/-- Reads one token, which has to be a number. -/
def expectNumber (r : Reader) : Except ParseError Int × Reader :=
  match r.next with
  | (some (.number value), r') => (.ok value, r')
  | (some token, r') => (.error (.invalidToken token), r')
  | (none, r') => (.error .unexpectedEnd, r')

/-- Adds what the tokens `ahead` say to `total`: each operator has to be followed by a number. -/
def sumFrom (total : Int) (position : Nat) : List Token → Except ParseError Int × Reader
  | [] => (.ok total, ⟨position, []⟩)
  | .plus :: .number value :: rest => sumFrom (total + value) (position + 2) rest
  | .minus :: .number value :: rest => sumFrom (total - value) (position + 2) rest
  | .number value :: rest => (.error (.invalidToken (.number value)), ⟨position + 1, rest⟩)
  | _ :: [] => (.error .unexpectedEnd, ⟨position + 1, []⟩)
  | _ :: token :: rest => (.error (.invalidToken token), ⟨position + 2, rest⟩)

/-- The value of the tokens from the reader to the end. -/
def evaluate (r : Reader) : Except ParseError Int × Reader :=
  match r.expectNumber with
  | (.ok value, r') => sumFrom value r'.position r'.ahead
  | (.error e, r') => (.error e, r')

end Reader

/-- The value of a token sequence. -/
def evaluateTokens (tokens : List Token) : Except ParseError Int :=
  (Reader.ofTokens tokens).evaluate.1

/-! ## Evaluating an expression

Evaluation reads the tokens of a text and sums them. Either step may fail, and only the first one
fails without tokens to show.
-/

/-- What became of an expression. -/
inductive Evaluation where
  | value (tokens : List Token) (value : Int)
  | scanFailed (error : InvalidCharacter Char)
  | parseFailed (tokens : List Token) (error : ParseError)
  deriving DecidableEq, Repr

/-- An evaluation that failed, and in which step. -/
inductive Failure where
  | scan (error : InvalidCharacter Char)
  | parse (error : ParseError)
  deriving DecidableEq, Repr

/-- The sentence that reports the failure. -/
def Failure.message : Failure → String
  | scan error => error.message
  | parse error => error.message

/-- The value of a text, or the step that failed. -/
def evaluate (text : String) : Evaluation :=
  match scan text with
  | .error error => .scanFailed error
  | .ok tokens =>
    match evaluateTokens tokens with
    | .error error => .parseFailed tokens error
    | .ok value => .value tokens value

namespace Evaluation

/-- The failure, if there is one. -/
def failure? : Evaluation → Option Failure
  | value _ _ => none
  | scanFailed error => some (.scan error)
  | parseFailed _ error => some (.parse error)

/-- The tokens, unless the text could not be read. -/
def tokens? : Evaluation → Option (List Token)
  | value tokens _ => some tokens
  | scanFailed _ => none
  | parseFailed tokens _ => some tokens

/-- Whether the expression has a value. -/
def succeeded (e : Evaluation) : Bool :=
  e.failure?.isNone

end Evaluation

end LineSum
