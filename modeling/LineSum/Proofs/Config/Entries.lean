import LineSum.Proofs.Config.Conforming

/-!
# Checking entry by entry

The entries of a map are checked one by one, and none of them matters for another one: what is kept
and what is reported of a map is what is kept and reported of its entries, in their order. Of a
single entry `ChecksEntry` says what there is to say, without the functions that check.
-/

namespace LineSum

open Yaml (Node)

/-! ## Values in maps -/

/-- The values in a map are smaller than the map. -/
theorem Value.sizeOf_lt_of_mem {entries : Record Value} {entry : String × Value}
    (h : entry ∈ entries) : sizeOf entry.2 < sizeOf (Value.map entries) := by
  have hmem := List.sizeOf_lt_of_mem h
  obtain ⟨name, value⟩ := entry
  simp only [Prod.mk.sizeOf_spec] at hmem
  simp only [Value.map.sizeOf_spec]
  omega

/-- Checking goes from a value to the values in the maps that stand in it, so what holds of a value
whenever it holds of those holds of every value. -/
theorem Value.induction_of_inner {motive : Value → Prop}
    (step : ∀ value : Value, (∀ name inner key v, (name, .map inner) ∈ value.entries →
      (key, v) ∈ inner → motive v) → motive value) (value : Value) : motive value := by
  -- The values that matter are two maps further in, so the induction is on the size.
  induction hsize : sizeOf value using Nat.strongRecOn generalizing value with
  | _ n ih =>
    refine step value fun name inner key v hmap hmem => ih (sizeOf v) ?_ v rfl
    cases value with
    | map entries =>
      rw [entries_map] at hmap
      have hinner := sizeOf_lt_of_mem hmem
      have houter := sizeOf_lt_of_mem hmap
      dsimp only at hinner houter
      omega
    | _ => cases hmap

/-! ## One entry -/

/-- The node of an entry of a map, if there is one. -/
def entryNode (node : Option Node) (name : String) : Option Node :=
  node.bind (·.child? name)

/-- Where an entry of a map is reported: at its own node, or else at that of the map. -/
def entryPlace (node : Option Node) (name : String) : Option Node :=
  (entryNode node name).or node

/-- The entry alone, unless nothing can be stored under its name. -/
def keptAlone (name : String) (value : Value) : Record Value :=
  if name = unstorableName then [] else [(name, value)]

/-- An entry is kept in front of the others. -/
theorem keep_eq_append (name : String) (value : Value) (rest : Record Value) :
    keep name value rest = keptAlone name value ++ rest := by
  unfold keptAlone keep
  split <;> rfl

/-- An entry that can be stored is kept. -/
theorem keptAlone_of_ne {name : String} (h : name ≠ unstorableName) (value : Value) :
    keptAlone name value = [(name, value)] :=
  if_neg h

/-- What is kept of an entry has its name, which can be stored, and its value. -/
theorem mem_keptAlone_iff {name : String} {value : Value} {entry : String × Value} :
    entry ∈ keptAlone name value ↔ name ≠ unstorableName ∧ entry = (name, value) := by
  unfold keptAlone
  split <;> simp_all

/-- What is kept and what is reported of one entry of a map. -/
inductive ChecksEntry (schema : Schema) (path : String) (node : Option Node) :
    String × Value → Record Value × List Finding → Prop
  /-- There is no field of this name. -/
  | unknown {name : String} {value : Value} (hfield : schema.lookup name = .unknown) :
    ChecksEntry schema path node (name, value)
      ([], [⟨.unknown (joinPath path name), entryPlace node name⟩])
  /-- There is no field of this name, but the name is reserved. -/
  | reserved {name : String} {value : Value} (hfield : schema.lookup name = .reserved) :
    ChecksEntry schema path node (name, value)
      ([], [⟨.reserved (joinPath path name) value.type, entryPlace node name⟩])
  /-- The value does not conform to the field. -/
  | mismatch {name : String} {value : Value} {field : Field} {reason : Mismatch}
    (hfield : schema.lookup name = .declared field) (hvalue : field.mismatch? value = some reason) :
    ChecksEntry schema path node (name, value)
      ([], [⟨.mismatch (joinPath path name) reason, entryPlace node name⟩])
  /-- The value conforms to the field, and its entries are checked in turn. -/
  | nested {name : String} {field : Field} {inner : Schema} {entries : List (String × Value)}
    (hfield : schema.lookup name = .declared field)
    (hvalue : field.mismatch? (.map entries) = none) (hinner : field.entries = some inner) :
    ChecksEntry schema path node (name, .map entries)
      (keptAlone name
          (.map (checkEntries inner (joinPath path name) (entryNode node name) entries).1),
        (checkEntries inner (joinPath path name) (entryNode node name) entries).2)
  /-- The value conforms to the field, and that is all that is asked of it. -/
  | whole {name : String} {value : Value} {field : Field}
    (hfield : schema.lookup name = .declared field) (hvalue : field.mismatch? value = none)
    (hwhole : ∀ inner entries, field.entries = some inner → value ≠ .map entries) :
    ChecksEntry schema path node (name, value) (keptAlone name value, [])

section Checking

variable (schema : Schema) (path : String) (node : Option Node)

/-- What is kept and reported of an entry when it is checked alone. -/
def checkEntry (entry : String × Value) : Record Value × List Finding :=
  checkFields schema path node [entry]

/-- **Every entry is checked in one of these ways.** -/
theorem checksEntry (entry : String × Value) :
    ChecksEntry schema path node entry (checkEntry schema path node entry) := by
  obtain ⟨name, value⟩ := entry
  unfold checkEntry
  rw [checkFields, checkFields]
  cases hfield : schema.lookup name with
  | unknown => exact .unknown hfield
  | reserved => exact .reserved hfield
  | declared field =>
    cases hvalue : field.mismatch? value with
    | some reason =>
      simp only [hvalue]
      exact .mismatch hfield hvalue
    | none =>
      simp only [hvalue, List.append_nil]
      split
      · exact .nested hfield hvalue ‹_›
      · next hwhole => exact .whole hfield hvalue hwhole

/-- An entry is checked in no other way. -/
theorem ChecksEntry.checkEntry_eq {schema : Schema} {path : String} {node : Option Node}
    {entry : String × Value} {checked : Record Value × List Finding}
    (h : ChecksEntry schema path node entry checked) :
    checkEntry schema path node entry = checked := by
  unfold checkEntry
  cases h with
  | unknown hfield =>
    rw [checkFields, checkFields]
    simp only [hfield]
    rfl
  | reserved hfield =>
    rw [checkFields, checkFields]
    simp only [hfield]
    rfl
  | mismatch hfield hvalue =>
    rw [checkFields, checkFields]
    simp only [hfield, hvalue]
    rfl
  | nested hfield hvalue hinner =>
    rw [checkFields, checkFields]
    simp only [hfield, hvalue, hinner, List.append_nil]
    rfl
  | whole hfield hvalue hwhole =>
    rw [checkFields, checkFields]
    simp only [hfield, hvalue]
    rfl

/-- The first entry is checked as if it were alone, and the others as if it were not there. -/
theorem checkFields_cons (entry : String × Value) (rest : List (String × Value)) :
    checkFields schema path node (entry :: rest) =
      ((checkEntry schema path node entry).1 ++ (checkFields schema path node rest).1,
        (checkEntry schema path node entry).2 ++ (checkFields schema path node rest).2) := by
  obtain ⟨name, value⟩ := entry
  unfold checkEntry
  rw [checkFields, checkFields, checkFields]
  cases hfield : schema.lookup name with
  | unknown => rfl
  | reserved => rfl
  | declared field =>
    cases hvalue : field.mismatch? value with
    | some reason =>
      simp only [hvalue]
      rfl
    | none =>
      simp only [hvalue]
      split <;> simp [keep_eq_append]

/-- **A map is checked entry by entry.** -/
theorem checkFields_eq_flatMap (entries : List (String × Value)) :
    checkFields schema path node entries =
      (entries.flatMap fun entry => (checkEntry schema path node entry).1,
        entries.flatMap fun entry => (checkEntry schema path node entry).2) := by
  induction entries with
  | nil => rw [checkFields, List.flatMap_nil, List.flatMap_nil]
  | cons entry rest ih => rw [checkFields_cons, ih, List.flatMap_cons, List.flatMap_cons]

/-- The values of a map with arbitrary keys are checked one by one. -/
theorem checkEntries_eq_flatMap (entries : List (String × Value)) :
    checkEntries schema path node entries =
      (entries.flatMap fun (name, value) => keptAlone name
          (.map (checkMap schema s!"{path}.{name}" (entryNode node name) value).1),
        entries.flatMap fun (name, value) =>
          (checkMap schema s!"{path}.{name}" (entryNode node name) value).2) := by
  induction entries with
  | nil => rw [checkEntries, List.flatMap_nil, List.flatMap_nil]
  | cons entry rest ih =>
    obtain ⟨name, value⟩ := entry
    rw [checkEntries, ih, List.flatMap_cons, List.flatMap_cons]
    simp only [keep_eq_append]
    rfl

end Checking

end LineSum
