import Mathlib
import LineSum.Proofs.Config.Checking

/-!
# The settings of a checked value

A value is filtered twice on its way to a configuration: checking keeps what conforms to a schema,
and then each field is read off what was kept, by functions that know nothing of the schema. The two
agree: what passes the first is read in full by the second, so that an entry of a value is either
found in the configuration or reported.
-/

namespace LineSum

open Yaml (Node)

/-! ## Values of which each name stands for one thing -/

/-- No map in the value has a name twice. -/
inductive Value.HasDistinctNames : Value → Prop
  | atom (value : Atom) : (atom value).HasDistinctNames
  | absent : absent.HasDistinctNames
  | other : other.HasDistinctNames
  | list {items : List Value} (hitems : ∀ item ∈ items, item.HasDistinctNames) :
    (list items).HasDistinctNames
  | map {entries : List (String × Value)} (hnames : (entries.map Prod.fst).Nodup)
    (hvalues : ∀ entry ∈ entries, entry.2.HasDistinctNames) : (map entries).HasDistinctNames

namespace Value.HasDistinctNames

variable {value : Value}

/-- The names of the entries are distinct. -/
theorem names (h : value.HasDistinctNames) : (value.entries.map Prod.fst).Nodup := by
  cases h with
  | map hnames _ => exact hnames
  | _ => exact List.nodup_nil

/-- The values of the entries have distinct names in turn. -/
theorem of_mem (h : value.HasDistinctNames) {entry : String × Value}
    (hentry : entry ∈ value.entries) : entry.2.HasDistinctNames := by
  cases h with
  | map _ hvalues => exact hvalues entry hentry
  | _ => cases hentry

/-- The profiles are a map with distinct names. -/
theorem profiles (h : value.HasDistinctNames) :
    (Value.map value.profiles).HasDistinctNames := by
  unfold Value.profiles
  cases hunder : Record.get? value.entries "profiles" with
  | none => exact .map List.nodup_nil (List.forall_mem_nil _)
  | some under =>
    have hinner := h.of_mem (Record.mem_of_get?_eq_some hunder)
    exact .map hinner.names fun _ hentry => hinner.of_mem hentry

end Value.HasDistinctNames

/-- The profiles are the entries of what stands under their name. -/
theorem Value.profiles_eq {value : Value} (h : value.HasDistinctNames) {under : Value}
    (hunder : ("profiles", under) ∈ value.entries) : value.profiles = under.entries := by
  unfold profiles
  rw [(Record.get?_eq_some_iff h.names).mpr hunder]
  rfl

/-! ## Reading fields -/

/-- The layer says what the entries say: each of its fields is set exactly if there is an entry that
conforms, and then to its value. -/
structure Fields.IsReadFrom (fields : Fields) (entries : Record Value) : Prop where
  format : ∀ format : Format,
    fields.format = some format ↔ ("format", .atom (.string format.text)) ∈ entries
  color : ∀ color : ColorMode,
    fields.color = some color ↔ ("color", .atom (.string color.text)) ∈ entries
  trace : ∀ b, fields.trace = some b ↔ ("trace", .atom (.bool b)) ∈ entries
  failFast : ∀ b, fields.failFast = some b ↔ ("failFast", .atom (.bool b)) ∈ entries
  files : ∀ words, fields.files = some words ↔ ("files", .texts words) ∈ entries
  ignore : ∀ words, fields.ignore = some words ↔ ("ignore", .texts words) ∈ entries

/-- A layer says no more than the entries that a layer may have. -/
theorem Fields.IsReadFrom.congr {fields : Fields} {entries others : Record Value}
    (h : fields.IsReadFrom entries)
    (hsame : ∀ entry, IsLayerEntry entry → (entry ∈ entries ↔ entry ∈ others)) :
    fields.IsReadFrom others where
  format format := (h.format format).trans (hsame _ (.format format))
  color color := (h.color color).trans (hsame _ (.color color))
  trace b := (h.trace b).trans (hsame _ (.trace b))
  failFast b := (h.failFast b).trans (hsame _ (.failFast b))
  files words := (h.files words).trans (hsame _ (.files words))
  ignore words := (h.ignore words).trans (hsame _ (.ignore words))

/-- A word stands for the format that has it. -/
theorem Format.ofText?_eq_some_iff {word : String} {format : Format} :
    Format.ofText? word = some format ↔ word = format.text := by
  constructor
  · intro h
    simpa [eq_comm] using List.find?_some h
  · rintro rfl
    cases format <;> decide

/-- A word stands for the mode that has it. -/
theorem ColorMode.ofText?_eq_some_iff {word : String} {color : ColorMode} :
    ColorMode.ofText? word = some color ↔ word = color.text := by
  constructor
  · intro h
    simpa [eq_comm] using List.find?_some h
  · rintro rfl
    cases color <;> decide

namespace Value

/-- Only a text is read as one. -/
theorem string?_eq_some_iff {value : Value} {word : String} :
    value.string? = some word ↔ value = .atom (.string word) := by
  rcases value with (_ | _ | _ | _) | _ | _ | _ | _ <;> simp [string?]

/-- Only a truth value is read as one. -/
theorem bool?_eq_some_iff {value : Value} {b : Bool} :
    value.bool? = some b ↔ value = .atom (.bool b) := by
  rcases value with (_ | _ | _ | _) | _ | _ | _ | _ <;> simp [bool?]

/-- Texts are read back. -/
theorem filterMap_string?_texts (words : List String) :
    (words.map fun word => Value.atom (.string word)).filterMap string? = words := by
  induction words with
  | nil => rfl
  | cons word words ih => simp [string?, ih]

/-- A list of texts is read in full. -/
theorem stringList?_texts (words : List String) :
    Fields.stringList? (texts words) = some words := by
  show some (List.filterMap string? _) = some words
  rw [filterMap_string?_texts]

end Value

/-- The files and what is ignored are texts in every entry that a configuration may have. -/
theorem IsConfigEntry.exists_texts {entry : String × Value} (h : IsConfigEntry entry)
    (hname : entry.1 = "files" ∨ entry.1 = "ignore") : ∃ words, entry.2 = .texts words := by
  rcases h with (_ | _ | _ | _ | words | words) | _
  case layer.files | layer.ignore => exact ⟨words, rfl⟩
  all_goals exact absurd hname (by simp)

section Reading

variable {record : Record Value} (hnames : (record.map Prod.fst).Nodup)

include hnames

/-- A field for a word is read off the entry with that word. -/
theorem word_read_iff {α : Type} {ofText? : String → Option α} {text : α → String}
    (hread : ∀ {word : String} {a : α}, ofText? word = some a ↔ word = text a) (name : String)
    (a : α) :
    ((record.get? name).bind Value.string?).bind ofText? = some a ↔
      (name, .atom (.string (text a))) ∈ record := by
  rw [← Record.get?_eq_some_iff hnames]
  simp [Option.bind_eq_some_iff, Value.string?_eq_some_iff, hread]

/-- A field for a truth value is read off the entry with that value. -/
theorem bool_read_iff (name : String) (b : Bool) :
    (record.get? name).bind Value.bool? = some b ↔ (name, .atom (.bool b)) ∈ record := by
  rw [← Record.get?_eq_some_iff hnames]
  simp [Option.bind_eq_some_iff, Value.bool?_eq_some_iff]

/-- A field for texts is read off the entry with those texts, if no other value is there. -/
theorem texts_read_iff {name : String}
    (hconform : ∀ value, (name, value) ∈ record → ∃ words, value = .texts words)
    (words : List String) :
    (record.get? name).bind Fields.stringList? = some words ↔ (name, .texts words) ∈ record := by
  rw [← Record.get?_eq_some_iff hnames, Option.bind_eq_some_iff]
  constructor
  · -- Reading leaves out what is no text, so only of a list of texts it gives back the whole.
    rintro ⟨value, hvalue, hwords⟩
    obtain ⟨found, rfl⟩ := hconform value (Record.mem_of_get?_eq_some hvalue)
    rw [Value.stringList?_texts, Option.some.injEq] at hwords
    rw [hvalue, hwords]
  · intro h
    exact ⟨_, h, Value.stringList?_texts words⟩

/-- **Nothing that conforms is lost in reading**: off entries that a configuration may have, the
layer is read in full. -/
theorem Fields.isReadFrom_ofRecord (hconform : ∀ entry ∈ record, IsConfigEntry entry) :
    (Fields.ofRecord record).IsReadFrom record where
  format := word_read_iff hnames Format.ofText?_eq_some_iff "format"
  color := word_read_iff hnames ColorMode.ofText?_eq_some_iff "color"
  trace := bool_read_iff hnames "trace"
  failFast := bool_read_iff hnames "failFast"
  files := texts_read_iff hnames fun _ hvalue => (hconform _ hvalue).exists_texts (.inl rfl)
  ignore := texts_read_iff hnames fun _ hvalue => (hconform _ hvalue).exists_texts (.inr rfl)

end Reading

/-! ## What is kept of a map -/

/-- Keeping changes no name. -/
@[simp] theorem keptEntry_fst (entry : String × Value) : (keptEntry entry).1 = entry.1 := by
  unfold keptEntry
  split <;> rfl

/-- What is kept of a layer's entry is the entry. -/
theorem keptEntry_of_layer {entry : String × Value} (h : IsLayerEntry entry) :
    keptEntry entry = entry := by
  cases h <;> rfl

/-- The profiles are no entry of a layer. -/
theorem IsLayerEntry.name_ne {entry : String × Value} (h : IsLayerEntry entry) :
    entry.1 ≠ "profiles" := by
  cases h <;> simp

/-- What is kept of an entry that a configuration may have is such an entry. -/
theorem isConfigEntry_keptEntry {entry : String × Value} (h : IsConfigEntry entry) :
    IsConfigEntry (keptEntry entry) := by
  cases h with
  | layer h =>
    rw [keptEntry_of_layer h]
    exact .layer h
  | profiles entries => exact .profiles _

/-- What is kept of the entries of a map. -/
def keptEntries (entries : Record Value) : Record Value :=
  (entries.filter configSchema.takes).map keptEntry

section Kept

variable {entries : Record Value}

/-- What is kept has distinct names. -/
theorem nodup_keptEntries (hnames : (entries.map Prod.fst).Nodup) :
    ((keptEntries entries).map Prod.fst).Nodup := by
  have hfst : (keptEntries entries).map Prod.fst =
      (entries.filter configSchema.takes).map Prod.fst := by
    simp [keptEntries]
  rw [hfst]
  exact hnames.sublist (List.filter_sublist.map Prod.fst)

/-- What is kept under the name of the profiles is what is kept of each. -/
theorem mem_keptEntries_profiles_iff {under : Value} :
    ("profiles", under) ∈ keptEntries entries ↔
      ∃ profiles, ("profiles", .map profiles) ∈ entries ∧ under = .map (keptProfiles profiles) := by
  constructor
  · intro h
    obtain ⟨original, horiginal, heq⟩ := List.mem_map.mp h
    obtain ⟨hmem, htakes⟩ := List.mem_filter.mp horiginal
    rcases configSchema_takes_iff.mp htakes with hlayer | profiles
    · rw [keptEntry_of_layer hlayer] at heq
      subst heq
      exact absurd rfl hlayer.name_ne
    · exact ⟨profiles, hmem, (Prod.mk.inj heq).2.symm⟩
  · rintro ⟨profiles, hmem, rfl⟩
    exact List.mem_map.mpr ⟨_, List.mem_filter.mpr
      ⟨hmem, configSchema_takes_iff.mpr (.profiles profiles)⟩, rfl⟩

/-- A configuration may have everything that is kept. -/
theorem isConfigEntry_of_mem_keptEntries {entry : String × Value}
    (h : entry ∈ keptEntries entries) : IsConfigEntry entry := by
  obtain ⟨original, horiginal, rfl⟩ := List.mem_map.mp h
  exact isConfigEntry_keptEntry (configSchema_takes_iff.mp (List.mem_filter.mp horiginal).2)

/-- The entries that a layer may have are kept as they are. -/
theorem mem_keptEntries_iff_of_layer {entry : String × Value} (h : IsLayerEntry entry) :
    entry ∈ keptEntries entries ↔ entry ∈ entries := by
  constructor
  · intro hmem
    obtain ⟨original, horiginal, rfl⟩ := List.mem_map.mp hmem
    obtain ⟨hmem, htakes⟩ := List.mem_filter.mp horiginal
    rcases configSchema_takes_iff.mp htakes with hlayer | profiles
    · rwa [keptEntry_of_layer hlayer]
    · exact absurd (keptEntry_fst _) h.name_ne
  · intro hmem
    rw [← keptEntry_of_layer h]
    exact List.mem_map_of_mem
      (List.mem_filter.mpr ⟨hmem, configSchema_takes_iff.mpr (.layer h)⟩)

end Kept

/-- The profiles that are read are those of the value, each with what a layer may have. -/
theorem profiles_ofRecord {value : Value} (h : value.HasDistinctNames) :
    (Config.ofRecord (keptEntries value.entries)).profiles =
      .ofPairs (value.profiles.map fun profile =>
        (profile.1, Fields.ofRecord (profile.2.entries.filter profileSchema.takes))) := by
  have hkept {under : Value} : (keptEntries value.entries).get? "profiles" = some under ↔ _ :=
    (Record.get?_eq_some_iff (nodup_keptEntries h.names)).trans mem_keptEntries_profiles_iff
  unfold Config.ofRecord
  dsimp only
  cases hget : (keptEntries value.entries).get? "profiles" with
  | some under =>
    obtain ⟨profiles, hmem, rfl⟩ := hkept.mp hget
    rw [Value.profiles_eq h hmem]
    simp [Value.map?, keptProfiles]
  | none =>
    -- Nothing is kept under this name, so nothing is there, or no map.
    have hnone : value.profiles = [] := by
      unfold Value.profiles
      cases hunder : Record.get? value.entries "profiles" with
      | none => rfl
      | some under =>
        cases under with
        | map profiles =>
          rw [hkept.mpr ⟨profiles, Record.mem_of_get?_eq_some hunder, rfl⟩] at hget
          cases hget
        | _ => rfl
    rw [hnone]
    rfl

/-! ## The whole value -/

/-- Entries with the name of the profiles are those of the profiles. -/
theorem flatMap_profiles {value : Value} (h : value.HasDistinctNames) :
    (value.entries.filter (·.1 = "profiles")).flatMap (·.2.entries) = value.profiles := by
  rw [Record.filter_name h.names]
  unfold Value.profiles
  cases Record.get? value.entries "profiles" with
  | none => rfl
  | some under => simp

/-- What checking a value against the schema of a configuration keeps and how much it reports. -/
theorem checkMap_configSchema (path : String) (node : Option Node) {value : Value}
    (h : value.HasDistinctNames) (hstorable : unstorableName ∉ value.profiles.map Prod.fst) :
    (checkMap configSchema path node value).1 = keptEntries value.entries ∧
      (checkMap configSchema path node value).2.length = configSchema.faults value +
        (value.profiles.map fun profile => profileSchema.faults profile.2).sum := by
  by_cases hmap : ∃ entries, value = .map entries
  · obtain ⟨entries, rfl⟩ := hmap
    have hnames : ∀ under, ("profiles", under) ∈ entries →
        unstorableName ∉ under.entries.map Prod.fst := by
      intro under hunder
      rwa [← Value.profiles_eq h hunder]
    obtain ⟨hkept, hfound⟩ := checkFields_configSchema path node hnames
    rw [checkMap, hkept, hfound, ← flatMap_profiles h]
    exact ⟨rfl, rfl⟩
  · rw [not_exists] at hmap
    rw [checkMap_of_no_map configSchema path node hmap, Schema.faults, Value.profiles,
      Value.entries_of_no_map hmap]
    cases value.isLayer <;> exact ⟨rfl, rfl⟩

/-- The faults of values, counted apart: entries that are not taken, and values that are no maps. -/
theorem sum_faults (schema : Schema) (values : Record Value) :
    (values.map fun entry => schema.faults entry.2).sum =
      (values.map fun entry => entry.2.entries.countP (!schema.takes ·)).sum +
        values.countP (!·.2.isLayer) := by
  induction values with
  | nil => rfl
  | cons entry rest ih =>
    rw [List.map_cons, List.sum_cons, ih, Schema.faults]
    cases hlayer : entry.2.isLayer <;> simp [hlayer] <;> omega

/-- What is kept of a layer is all that is read off it. -/
theorem isReadFrom_filter {entries : Record Value} (hnames : (entries.map Prod.fst).Nodup) :
    (Fields.ofRecord (entries.filter profileSchema.takes)).IsReadFrom entries := by
  have hkept : ((entries.filter profileSchema.takes).map Prod.fst).Nodup :=
    hnames.sublist (List.filter_sublist.map Prod.fst)
  refine (Fields.isReadFrom_ofRecord hkept ?_).congr ?_
  · intro entry hentry
    exact .layer (profileSchema_takes_iff.mp (List.mem_filter.mp hentry).2)
  · intro entry hlayer
    simp [List.mem_filter, profileSchema_takes_iff.mpr hlayer]

/-- **Checking loses nothing silently and lets nothing through.** Of every value, no map of
which has a name twice, each field of the configuration and of each of its profiles is set
exactly if there is a conforming entry, and then to its value; the profiles are those of the
value; and there are as many diagnostics, all of them warnings, as there are entries that do not
conform, in the value and in its profiles, and profiles that should be maps, or else the value
itself should be one. -/
theorem config_of_value {value : Value} (hnames : value.HasDistinctNames)
    (hstorable : unstorableName ∉ value.profiles.map Prod.fst) (node : Option Node) (file : String)
    (starts : LineStarts) :
    let checked := checkMap configSchema "" node value
    let config := Config.ofRecord checked.1
    let diagnostics := checked.2.map (·.diagnostic file starts)
    config.fields.IsReadFrom value.entries ∧
      (config.profiles.map Prod.fst).Perm (value.profiles.map Prod.fst) ∧
      (∀ name profile, (name, profile) ∈ value.profiles →
        ∃ fields, (name, fields) ∈ config.profiles ∧ fields.IsReadFrom profile.entries) ∧
      (∀ d ∈ diagnostics, d.severity = .warning) ∧
      diagnostics.length = value.entries.countP (¬ IsConfigEntry ·) +
        (value.profiles.map fun profile => profile.2.entries.countP (¬ IsLayerEntry ·)).sum +
        value.profiles.countP (!·.2.isLayer) + if value.isLayer then 0 else 1 := by
  intro checked config diagnostics
  obtain ⟨hkept, hfound⟩ := checkMap_configSchema "" node hnames hstorable
  have hconfig : config = Config.ofRecord (keptEntries value.entries) := by
    rw [← hkept]
  -- The profiles are stored one by one, and as their names are distinct, none replaces another one.
  have hdistinct : ((value.profiles.map fun profile => (profile.1, Fields.ofRecord
      (profile.2.entries.filter profileSchema.takes))).map Prod.fst).Nodup := by
    rw [List.map_map]
    exact hnames.profiles.names
  have hprofiles := Record.perm_ofPairs hdistinct
  rw [← profiles_ofRecord hnames, ← hconfig] at hprofiles
  refine ⟨?_, ?_, ?_, ?_, ?_⟩
  · -- Reading loses nothing of what was kept, and checking keeps the entries of a layer.
    rw [hconfig]
    refine (Fields.isReadFrom_ofRecord (nodup_keptEntries hnames.names) fun _ hentry =>
      isConfigEntry_of_mem_keptEntries hentry).congr ?_
    intro entry hlayer
    exact mem_keptEntries_iff_of_layer hlayer
  · have hfirst := hprofiles.map Prod.fst
    rwa [List.map_map] at hfirst
  · intro name profile hprofile
    refine ⟨_, hprofiles.mem_iff.mpr (List.mem_map_of_mem hprofile), ?_⟩
    exact isReadFrom_filter (hnames.profiles.of_mem hprofile).names
  · intro d hd
    obtain ⟨finding, -, rfl⟩ := List.mem_map.mp hd
    rfl
  · rw [List.length_map, hfound, sum_faults, Schema.faults]
    simp only [profileSchema_takes_eq, configSchema_takes_eq, decide_not]
    omega

/-- A configuration with three entries that do not conform: a colour that is no word, a field of a
profile that there is not, and a profile that is no map. -/
def partlyUnfitValue : Value :=
  .map [("format", .atom (.string "json")), ("color", .atom (.bool true)),
    ("profiles", .map
      [("ci", .map [("trace", .atom (.bool true)), ("depth", .atom .null)]),
        ("empty", .atom .null), ("bad", .atom (.string "x"))])]

/-- The format of this configuration is kept, and its three unfit entries are reported. -/
theorem config_of_value_partlyUnfit :
    partlyUnfitValue.HasDistinctNames ∧
      unstorableName ∉ partlyUnfitValue.profiles.map Prod.fst ∧
      (Config.ofRecord (checkMap configSchema "" none partlyUnfitValue).1).fields.format =
        some .json ∧
      (checkMap configSchema "" none partlyUnfitValue).2.length = 3 := by
  have hci : (Value.map [("trace", .atom (.bool true)), ("depth", .atom .null)]).HasDistinctNames :=
    .map (by decide) (by simp [Value.HasDistinctNames.atom])
  have hprofiles : (Value.map [("ci", .map [("trace", .atom (.bool true)), ("depth", .atom .null)]),
      ("empty", .atom .null), ("bad", .atom (.string "x"))]).HasDistinctNames :=
    .map (by decide) (by simp [Value.HasDistinctNames.atom, hci])
  have hnames : partlyUnfitValue.HasDistinctNames :=
    .map (by decide) (by simp [Value.HasDistinctNames.atom, hprofiles])
  have hstorable : unstorableName ∉ partlyUnfitValue.profiles.map Prod.fst := by decide
  obtain ⟨hfields, -, -, -, hcount⟩ := config_of_value hnames hstorable none "" []
  refine ⟨hnames, hstorable, (hfields.format .json).mpr List.mem_cons_self, ?_⟩
  rw [List.length_map] at hcount
  exact hcount

end LineSum
