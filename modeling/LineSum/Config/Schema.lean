import LineSum.Config.Value
import LineSum.Text.Basic
import LineSum.Yaml.Node

/-!
# Schemas and checking

What a configuration may say, and which of its entries are kept.
-/

namespace LineSum

/-! ## Schemas

A schema says which fields a map may have and what conforms to each. `Field.mismatch?` finds the
first reason why a value does not conform.
-/

/-- The types that a field may ask for. -/
inductive FieldType where
  | string
  | boolean
  | list
  | map
  deriving DecidableEq, Repr

namespace FieldType

/-- The type of the values that a field of this type takes. -/
def valueType : FieldType → ValueType
  | string => .string
  | boolean => .boolean
  | list => .list
  | map => .map

/-- The word for the type. -/
def text (t : FieldType) : String :=
  t.valueType.text

end FieldType

/-- What a field takes: a type, for strings the allowed ones, for lists what each item has to be,
and for maps with arbitrary keys the schema of each value. -/
inductive Field where
  | mk (type : FieldType) (values : Option (List String)) (items : Option Field)
      (entries : Option (List (String × Field)))
  deriving Repr

/-- The fields of a map, by name. -/
abbrev Schema := List (String × Field)

namespace Field

/-- The type that the field asks for. -/
def type : Field → FieldType
  | mk type _ _ _ => type

/-- The allowed strings, if they are limited. -/
def values : Field → Option (List String)
  | mk _ values _ _ => values

/-- What each item of a list has to be. -/
def items : Field → Option Field
  | mk _ _ items _ => items

/-- The schema of each value of a map. -/
def entries : Field → Option Schema
  | mk _ _ _ entries => entries

/-- A field that takes every value of one type. -/
def plain (type : FieldType) : Field :=
  mk type none none none

end Field

/-- Why a value does not conform to a field. -/
inductive Mismatch where
  /-- The value has another type. -/
  | wrongType (expected : FieldType) (found : ValueType)
  /-- The string is not one of the allowed ones. -/
  | notAllowed (allowed : List String) (found : String)
  /-- The first item that does not conform. -/
  | item (index : Nat) (expected : FieldType)
  deriving DecidableEq, Repr

/-- The sentence that reports a mismatch of the field at a path. -/
def Mismatch.message (path : String) : Mismatch → String
  | wrongType expected found => s!"Field \"{path}\" must be a {expected.text}, got {found.text}."
  | notAllowed allowed found =>
    s!"Field \"{path}\" must be one of " ++ ", ".intercalate allowed ++ s!", got \"{found}\"."
  | item index expected => s!"Field \"{path}[{index}]\" must be a {expected.text}."

namespace Field

/-- The first reason why a value does not conform to a field: its type, then the allowed strings,
then its items. -/
def mismatch? : Field → Value → Option Mismatch
  | mk type values items _, value =>
    if value.type = type.valueType then
      match value with
      | .atom (.string s) =>
        match values with
        | some allowed => if allowed.contains s then none else some (.notAllowed allowed s)
        | none => none
      | .list elements =>
        match items with
        | some item =>
          (elements.findIdx? fun element => (mismatch? item element).isSome).map
            fun index => .item index item.type
        | none => none
      | _ => none
    else
      some (.wrongType type value.type)

end Field

/-- The one name under which no value can be stored. -/
def unstorableName : String := "__proto__"

/-- What a schema says about a name. -/
inductive Lookup where
  /-- The schema has a field of this name. -/
  | declared (field : Field)
  /-- The name is reserved: there is a field, but it has no type and takes no value. -/
  | reserved
  /-- There is no such field. -/
  | unknown

/-- Looks a name up. -/
def Schema.lookup (schema : Schema) (name : String) : Lookup :=
  match Record.get? schema name with
  | some field => .declared field
  | none => if reservedNames.contains name then .reserved else .unknown

/-- Why an entry of a map is left out. -/
inductive FieldProblem where
  | unknown (path : String)
  | reserved (path : String) (found : ValueType)
  | mismatch (path : String) (reason : Mismatch)
  /-- What should be a map of fields is something else. The path of the whole file is empty. -/
  | notMap (path : String)
  deriving DecidableEq, Repr

/-- The sentence that reports the problem. -/
def FieldProblem.message : FieldProblem → String
  | unknown path => s!"Unknown field \"{path}\"."
  | reserved path found => s!"Field \"{path}\" must be a undefined, got {found.text}."
  | mismatch path reason => reason.message path
  | notMap path => (if path.isEmpty then "Config" else s!"\"{path}\"") ++ " must be a map."

/-! ## Checking a value against a schema

Checking keeps the entries of a map that conform and reports the others, in the order of the
entries. A report points at the node of the entry, or at the nearest node around it.
-/

open Yaml (Node)

/-- A problem and the node at which it is reported. -/
structure Finding where
  problem : FieldProblem
  node : Option Node

/-- The warning that reports a finding in a file whose lines start at the given offsets. -/
def Finding.diagnostic (file : String) (starts : LineStarts) (finding : Finding) : Diagnostic where
  code := .configInvalidField
  message := finding.problem.message
  severity := .warning
  file := file
  range := (finding.node.bind Node.span).map starts.range
  source := none

/-- The path of a name inside a map that has a path itself. The path of the whole file is empty. -/
def joinPath (path name : String) : String :=
  if path.isEmpty then name else s!"{path}.{name}"

/-- Puts an entry before others unless nothing can be stored under its name. -/
def keep (name : String) (value : Value) (rest : Record Value) : Record Value :=
  if name = unstorableName then rest else (name, value) :: rest

mutual

/-- The entries of `value` that conform to the schema, and what is wrong with the others. A missing
value has no entries. -/
def checkMap (schema : Schema) (path : String) (node : Option Node) (value : Value) :
    Record Value × List Finding :=
  match value with
  | .map entries => checkFields schema path node entries
  | .atom .null | .absent => ([], [])
  | _ => ([], [⟨.notMap path, node⟩])

/-- Checks the entries of a map one by one. -/
def checkFields (schema : Schema) (path : String) (node : Option Node)
    (entries : List (String × Value)) : Record Value × List Finding :=
  match entries with
  | [] => ([], [])
  | (name, value) :: rest =>
    let fieldPath := joinPath path name
    let fieldNode := node.bind (·.child? name)
    let place := fieldNode.or node
    let (kept, findings) := checkFields schema path node rest
    match schema.lookup name with
    | .unknown => (kept, ⟨.unknown fieldPath, place⟩ :: findings)
    | .reserved => (kept, ⟨.reserved fieldPath value.type, place⟩ :: findings)
    | .declared field =>
      match field.mismatch? value with
      | some reason => (kept, ⟨.mismatch fieldPath reason, place⟩ :: findings)
      | none =>
        match field.entries, value with
        | some inner, .map innerEntries =>
          let (innerKept, innerFindings) := checkEntries inner fieldPath fieldNode innerEntries
          (keep name (.map innerKept) kept, innerFindings ++ findings)
        | _, _ => (keep name value kept, findings)

/-- Checks the values of a map with arbitrary keys, each of which is a map of fields itself. -/
def checkEntries (schema : Schema) (path : String) (node : Option Node)
    (entries : List (String × Value)) : Record Value × List Finding :=
  match entries with
  | [] => ([], [])
  | (name, value) :: rest =>
    let (fields, found) := checkMap schema s!"{path}.{name}" (node.bind (·.child? name)) value
    let (kept, findings) := checkEntries schema path node rest
    (keep name (.map fields) kept, found ++ findings)

end

end LineSum
