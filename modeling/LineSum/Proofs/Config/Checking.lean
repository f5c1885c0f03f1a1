import Mathlib
import LineSum.Proofs.Config.Entries

/-!
# What checking keeps and reports

Checking keeps the entries that a schema takes, as they are, and reports each of the others once.
The schema of a layer is flat: no field has entries of its own. The schema of a configuration has
one field more, and what is under it is checked entry by entry against the schema of a layer.
-/

namespace LineSum

open Yaml (Node)

/-- How many reports a value gets that should be a map of the fields of a schema: one for each entry
that the schema does not take, or one if it is no map at all. -/
def Schema.faults (schema : Schema) (value : Value) : Nat :=
  value.entries.countP (!schema.takes ·) + if value.isLayer then 0 else 1

/-- A schema the fields of which have no entries of their own and can all be stored. -/
structure Schema.IsFlat (schema : Schema) : Prop where
  entries_eq : ∀ field ∈ schema, field.2.entries = none
  storable : ∀ field ∈ schema, field.1 ≠ unstorableName

/-- The schema of a layer is flat. -/
theorem profileSchema_isFlat : profileSchema.IsFlat where
  entries_eq := by simp [profileSchema, Field.entries, Field.plain]
  storable := by decide

/-- What can be stored is kept. -/
theorem keep_of_ne {name : String} (h : name ≠ unstorableName) (value : Value)
    (rest : Record Value) : keep name value rest = (name, value) :: rest :=
  if_neg h

section Entries

variable {schema : Schema} (path : String) (node : Option Node) {name : String} {value : Value}
  (rest : List (String × Value))

/-- An entry that is not taken is reported, and nothing is kept of it. -/
theorem checkFields_of_not_takes (h : schema.takes (name, value) = false) :
    ∃ finding, checkFields schema path node ((name, value) :: rest) =
      ((checkFields schema path node rest).1,
        finding :: (checkFields schema path node rest).2) := by
  have hchecks := checksEntry schema path node (name, value)
  rw [checkFields_cons]
  generalize checkEntry schema path node (name, value) = checked at hchecks ⊢
  cases hchecks with
  | unknown _ => exact ⟨_, rfl⟩
  | reserved _ => exact ⟨_, rfl⟩
  | mismatch _ _ => exact ⟨_, rfl⟩
  | nested hfield hvalue _ => simp [Schema.takes, hfield, hvalue] at h
  | whole hfield hvalue _ => simp [Schema.takes, hfield, hvalue] at h

/-- An entry of a field without entries of its own is kept as it is. -/
theorem checkFields_of_plain {field : Field} (hfield : schema.lookup name = .declared field)
    (hvalue : field.mismatch? value = none) (hentries : field.entries = none) :
    checkFields schema path node ((name, value) :: rest) =
      (keep name value (checkFields schema path node rest).1,
        (checkFields schema path node rest).2) := by
  have hwhole : ∀ inner entries, field.entries = some inner → value ≠ .map entries := by
    simp [hentries]
  rw [checkFields_cons, (ChecksEntry.whole hfield hvalue hwhole).checkEntry_eq, keep_eq_append]
  rfl

/-- The entries of a map are checked one by one if its field says how. -/
theorem checkFields_of_map {field : Field} {inner : Schema} {entries : List (String × Value)}
    (hfield : schema.lookup name = .declared field)
    (hvalue : field.mismatch? (.map entries) = none) (hentries : field.entries = some inner) :
    ∃ fieldPath fieldNode, checkFields schema path node ((name, .map entries) :: rest) =
      (keep name (.map (checkEntries inner fieldPath fieldNode entries).1)
          (checkFields schema path node rest).1,
        (checkEntries inner fieldPath fieldNode entries).2 ++
          (checkFields schema path node rest).2) := by
  rw [checkFields_cons, (ChecksEntry.nested hfield hvalue hentries).checkEntry_eq]
  exact ⟨_, _, by rw [keep_eq_append]⟩

/-- Of a value that is no map nothing is kept, and it is reported unless it is null. -/
theorem checkMap_of_no_map (schema : Schema) (path : String) (node : Option Node) {value : Value}
    (h : ∀ entries, value ≠ .map entries) :
    checkMap schema path node value =
      ([], if value.isLayer then [] else [⟨.notMap path, node⟩]) := by
  rcases value with (_ | _ | _ | _) | _ | _ | entries | _
  case map => exact absurd rfl (h entries)
  all_goals rfl

/-- A value that is no map has no entries. -/
theorem Value.entries_of_no_map {value : Value} (h : ∀ entries, value ≠ .map entries) :
    value.entries = [] := by
  cases value with
  | map entries => exact absurd rfl (h entries)
  | _ => rfl

end Entries

/-! ## Flat schemas -/

namespace Schema.IsFlat

variable {schema : Schema} (hflat : schema.IsFlat)

include hflat

/-- The fields of a flat schema can be stored and have no entries of their own. -/
theorem of_takes {name : String} {value : Value} (h : schema.takes (name, value) = true) :
    ∃ field, schema.lookup name = .declared field ∧ field.mismatch? value = none ∧
      field.entries = none ∧ name ≠ unstorableName := by
  unfold Schema.takes at h
  cases hlookup : schema.lookup name with
  | unknown => simp [hlookup] at h
  | reserved => simp [hlookup] at h
  | declared field =>
    rw [hlookup] at h
    have hmem := Record.mem_of_get?_eq_some (Schema.lookup_eq_declared_iff.mp hlookup)
    exact ⟨field, rfl, Option.isNone_iff_eq_none.mp h, hflat.entries_eq _ hmem,
      hflat.storable _ hmem⟩

/-- Of the entries of a map, those that a flat schema takes are kept, and each of
the others is reported. -/
theorem checkFields_eq (path : String) (node : Option Node) (entries : List (String × Value)) :
    (checkFields schema path node entries).1 = entries.filter schema.takes ∧
      (checkFields schema path node entries).2.length = entries.countP (!schema.takes ·) := by
  induction entries with
  | nil =>
    rw [checkFields]
    exact ⟨rfl, rfl⟩
  | cons entry rest ih =>
    obtain ⟨name, value⟩ := entry
    obtain ⟨hkept, hfound⟩ := ih
    cases htakes : schema.takes (name, value) with
    | false =>
      obtain ⟨finding, hstep⟩ := checkFields_of_not_takes path node rest htakes
      rw [hstep]
      simp [htakes, hkept, hfound]
    | true =>
      obtain ⟨field, hfield, hvalue, hentries, hname⟩ := hflat.of_takes htakes
      rw [checkFields_of_plain path node rest hfield hvalue hentries, keep_of_ne hname]
      simp [htakes, hkept, hfound]

/-- Of a value, the entries that a flat schema takes are kept, and its faults are reported. -/
theorem checkMap_eq (path : String) (node : Option Node) (value : Value) :
    (checkMap schema path node value).1 = value.entries.filter schema.takes ∧
      (checkMap schema path node value).2.length = schema.faults value := by
  unfold Schema.faults
  by_cases hmap : ∃ entries, value = .map entries
  · obtain ⟨entries, rfl⟩ := hmap
    rw [checkMap]
    exact hflat.checkFields_eq path node entries
  · rw [not_exists] at hmap
    rw [checkMap_of_no_map schema path node hmap, Value.entries_of_no_map hmap]
    cases value.isLayer <;> exact ⟨rfl, rfl⟩

/-- Of values by name, each keeps what a flat schema takes of it, and the faults
of all are reported. -/
theorem checkEntries_eq (path : String) (node : Option Node) {entries : List (String × Value)}
    (hnames : unstorableName ∉ entries.map Prod.fst) :
    (checkEntries schema path node entries).1 =
        entries.map (fun entry => (entry.1, .map (entry.2.entries.filter schema.takes))) ∧
      (checkEntries schema path node entries).2.length =
        (entries.map fun entry => schema.faults entry.2).sum := by
  induction entries with
  | nil =>
    rw [checkEntries]
    exact ⟨rfl, rfl⟩
  | cons entry rest ih =>
    obtain ⟨name, value⟩ := entry
    rw [List.map_cons, List.mem_cons, not_or] at hnames
    obtain ⟨hname, hrest⟩ := hnames
    obtain ⟨hkept, hfound⟩ := ih hrest
    obtain ⟨hfields, hfaults⟩ :=
      hflat.checkMap_eq s!"{path}.{name}" (node.bind (·.child? name)) value
    rw [checkEntries]
    dsimp only
    rw [keep_of_ne (Ne.symm hname), List.length_append, hkept, hfound, hfields, hfaults]
    exact ⟨rfl, rfl⟩

end Schema.IsFlat

/-! ## The schema of a configuration -/

/-- What is kept of the profiles: of each, what a layer may have. -/
def keptProfiles (profiles : Record Value) : Record Value :=
  profiles.map fun profile => (profile.1, .map (profile.2.entries.filter profileSchema.takes))

/-- What is kept of an entry that a configuration may have. -/
def keptEntry (entry : String × Value) : String × Value :=
  if entry.1 = "profiles" then (entry.1, .map (keptProfiles entry.2.entries)) else entry

/-- A field of a configuration is one of a layer, or that of the profiles. -/
theorem configSchema_of_takes {name : String} {value : Value}
    (h : configSchema.takes (name, value) = true) :
    ∃ field, configSchema.lookup name = .declared field ∧ field.mismatch? value = none ∧
      (name ≠ "profiles" ∧ name ≠ unstorableName ∧ field.entries = none ∨
        name = "profiles" ∧ field.entries = some profileSchema ∧
          ∃ entries, value = .map entries) := by
  obtain ⟨field, hmem, hvalue⟩ := (Schema.takes_iff (by decide)).mp h
  have hlookup : configSchema.lookup name = .declared field :=
    Schema.lookup_eq_declared_iff.mpr ((Record.get?_eq_some_iff (by decide)).mpr hmem)
  refine ⟨field, hlookup, hvalue, ?_⟩
  rcases List.mem_append.mp hmem with hlayer | hprofiles
  · have hname : ∀ entry ∈ profileSchema, entry.1 ≠ "profiles" := by decide
    exact .inl ⟨hname _ hlayer, profileSchema_isFlat.storable _ hlayer,
      profileSchema_isFlat.entries_eq _ hlayer⟩
  · rw [List.mem_singleton, Prod.mk.injEq] at hprofiles
    obtain ⟨rfl, rfl⟩ := hprofiles
    exact .inr ⟨rfl, rfl, Field.mismatch?_map.mp hvalue⟩

/-- Profiles that are not taken are no map, so there are none. -/
theorem entries_of_not_takes_profiles {value : Value}
    (h : configSchema.takes ("profiles", value) = false) : value.entries = [] := by
  cases value with
  | map entries =>
    rw [configSchema_takes_iff.mpr (.profiles entries)] at h
    cases h
  | _ => rfl

/-- Of the entries of a map, those that a configuration may have are kept, and the
profiles among them keep what each may have. Each of the others is reported, and so are
the faults of the profiles. -/
theorem checkFields_configSchema (path : String) (node : Option Node)
    {entries : List (String × Value)}
    (hnames : ∀ value, ("profiles", value) ∈ entries →
      unstorableName ∉ value.entries.map Prod.fst) :
    (checkFields configSchema path node entries).1 =
        (entries.filter configSchema.takes).map keptEntry ∧
      (checkFields configSchema path node entries).2.length =
        entries.countP (!configSchema.takes ·) +
          ((entries.filter (·.1 = "profiles")).flatMap (·.2.entries) |>.map
            fun profile => profileSchema.faults profile.2).sum := by
  induction entries with
  | nil =>
    rw [checkFields]
    exact ⟨rfl, rfl⟩
  | cons entry rest ih =>
    obtain ⟨name, value⟩ := entry
    obtain ⟨hkept, hfound⟩ := ih fun value hvalue => hnames value (List.mem_cons_of_mem _ hvalue)
    -- An entry is reported, or kept as it is, or it holds the profiles and is kept in parts.
    cases htakes : configSchema.takes (name, value) with
    | false =>
      obtain ⟨finding, hstep⟩ := checkFields_of_not_takes path node rest htakes
      rw [hstep]
      by_cases hname : name = "profiles"
      · -- There are no faults of profiles to count, for this entry is no map.
        subst hname
        have hnone := entries_of_not_takes_profiles htakes
        simp [htakes, hkept, hfound, hnone]
        omega
      · simp [htakes, hkept, hfound, hname]
        omega
    | true =>
      obtain ⟨field, hfield, hvalue, hplain | hprofiles⟩ := configSchema_of_takes htakes
      · obtain ⟨hother, hname, hentries⟩ := hplain
        rw [checkFields_of_plain path node rest hfield hvalue hentries, keep_of_ne hname]
        simp [htakes, hkept, hfound, keptEntry, hother]
      · obtain ⟨rfl, hentries, profiles, rfl⟩ := hprofiles
        obtain ⟨fieldPath, fieldNode, hstep⟩ :=
          checkFields_of_map path node rest hfield hvalue hentries
        obtain ⟨hinner, hfaults⟩ := profileSchema_isFlat.checkEntries_eq fieldPath fieldNode
          (hnames _ List.mem_cons_self)
        rw [hstep, keep_of_ne (by decide)]
        rw [Value.entries_map] at hinner hfaults
        refine ⟨?_, ?_⟩
        · simp [htakes, hkept, hinner, keptEntry, keptProfiles]
        · simp [htakes, hfound, hfaults]
          omega

end LineSum
