import LineSum.Decimal.Binary64
import LineSum.Text.Basic

/-!
# Values

Records in the order of their names, and the values that a configuration is made of.
-/

namespace LineSum

/-! ## The order of a map's entries

A map lists the keys that are array indices first, in ascending order, and then all others in the
order in which they came. Storing under a key that is there replaces the value and keeps the place.
-/

/-- The greatest array index. -/
def greatestIndex : Nat := 4294967294

/-- The number that a key denotes if it is an array index: a decimal number without leading zeros
that is not too great. -/
def indexOfKey? (key : String) : Option Nat :=
  match key.toList with
  | [] => none
  | c :: rest =>
    let digits := c :: rest
    if digits.all isDecimal && (c != '0' || rest.isEmpty) then
      let n := decimalValue digits
      if n ≤ greatestIndex then some n else none
    else
      none

/-- Whether the first key is listed before the second one although it came later. -/
def listedBefore (a b : String) : Bool :=
  match indexOfKey? a, indexOfKey? b with
  | some m, some n => m < n
  | some _, none => true
  | none, _ => false

/-- The entries of a map, in the order in which they are listed. -/
abbrev Record (α : Type) := List (String × α)

namespace Record

variable {α : Type}

/-- Adds an entry whose key is new. -/
def place (key : String) (value : α) : Record α → Record α
  | [] => [(key, value)]
  | (k, v) :: rest =>
    if listedBefore key k then (key, value) :: (k, v) :: rest
    else (k, v) :: place key value rest

/-- Stores a value under a key. -/
def put (entries : Record α) (key : String) (value : α) : Record α :=
  if entries.any (·.1 = key) then
    entries.map fun (k, v) => if k = key then (k, value) else (k, v)
  else
    entries.place key value

/-- The map to which the given entries are stored one after the other. -/
def ofPairs (pairs : List (String × α)) : Record α :=
  pairs.foldl (fun entries (key, value) => entries.put key value) []

/-- The value that is stored under a key. -/
def get? (entries : Record α) (key : String) : Option α :=
  (entries.find? (·.1 = key)).map (·.2)

end Record

/-! ## The values of a configuration

What a configuration file says, without regard to how it is written down.
-/

/-- A value that is neither a list nor a map and can be written in a file. -/
inductive Atom where
  | null
  | bool (value : Bool)
  | number (value : Binary64)
  | string (value : String)
  deriving DecidableEq, Repr, Inhabited

namespace Atom

/-- The text of an atom when it is used as a name. -/
def text : Atom → String
  | null => "null"
  | bool true => "true"
  | bool false => "false"
  | number value => value.text
  | string value => value

end Atom

/-- A value. `absent` is a missing value, `other` one that no file can express. -/
inductive Value where
  | atom (value : Atom)
  | absent
  | list (items : List Value)
  | map (entries : List (String × Value))
  | other
  deriving Repr, Inhabited

/-- The types of values. A missing value is as good as null. -/
inductive ValueType where
  | string
  | boolean
  | list
  | map
  | number
  | null
  | other
  deriving DecidableEq, Repr

/-- The word for a type. -/
def ValueType.text : ValueType → String
  | string => "string"
  | boolean => "boolean"
  | list => "list"
  | map => "map"
  | number => "number"
  | null => "null"
  | other => "other"

namespace Value

/-- The type of a value. -/
def type : Value → ValueType
  | atom .null => .null
  | atom (.bool _) => .boolean
  | atom (.number _) => .number
  | atom (.string _) => .string
  | absent => .null
  | list _ => .list
  | map _ => .map
  | other => .other

/-- The string, if the value is one. -/
def string? : Value → Option String
  | atom (.string s) => some s
  | _ => none

/-- The truth value, if the value is one. -/
def bool? : Value → Option Bool
  | atom (.bool b) => some b
  | _ => none

/-- The items, if the value is a list. -/
def list? : Value → Option (List Value)
  | list items => some items
  | _ => none

/-- The entries, if the value is a map. -/
def map? : Value → Option (List (String × Value))
  | map entries => some entries
  | _ => none

end Value

end LineSum
