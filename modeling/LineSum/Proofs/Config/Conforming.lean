import LineSum.Config.Settings
import LineSum.Proofs.Config.Records

/-!
# What conforms to the schemas

The schemas say by types, allowed words and items what an entry of a configuration may be. Said by
example: the format is the word of a format, the files are a list of texts, and so on. Each kind of
field takes exactly the values of one shape, so the two ways to say it agree.
-/

namespace LineSum

/-! ## Values by example -/

namespace Value

/-- A list of texts. -/
def texts (words : List String) : Value :=
  .list (words.map fun word => .atom (.string word))

/-- The entries of a map; other values have none. -/
def entries (value : Value) : Record Value :=
  value.map?.getD []

/-- The entries of a map are what it is made of. -/
@[simp] theorem entries_map (pairs : List (String × Value)) : (map pairs).entries = pairs := rfl

/-- Whether the value is a map, or null and thus an empty one. -/
def isLayer (value : Value) : Bool :=
  value.type = .map || value.type = .null

/-- The entries under `profiles`, if they are a map. -/
def profiles (value : Value) : Record Value :=
  (Record.get? value.entries "profiles").elim [] entries

end Value

/-- An entry that a layer of settings may have. -/
inductive IsLayerEntry : String × Value → Prop
  | format (format : Format) : IsLayerEntry ("format", .atom (.string format.text))
  | color (color : ColorMode) : IsLayerEntry ("color", .atom (.string color.text))
  | trace (value : Bool) : IsLayerEntry ("trace", .atom (.bool value))
  | failFast (value : Bool) : IsLayerEntry ("failFast", .atom (.bool value))
  | files (patterns : List String) : IsLayerEntry ("files", .texts patterns)
  | ignore (patterns : List String) : IsLayerEntry ("ignore", .texts patterns)

/-- An entry that a configuration may have: one of a layer, or the map of the profiles. -/
inductive IsConfigEntry : String × Value → Prop
  | layer {entry : String × Value} (h : IsLayerEntry entry) : IsConfigEntry entry
  | profiles (entries : List (String × Value)) : IsConfigEntry ("profiles", .map entries)

/-! ## The fields of the schemas -/

namespace Field

/-- A field for words takes the allowed ones. -/
theorem mismatch?_words {allowed : List String} {value : Value} :
    (Field.mk .string (some allowed) none none).mismatch? value = none ↔
      ∃ word ∈ allowed, value = .atom (.string word) := by
  rcases value with (_ | _ | _ | word) | _ | _ | _ | _
  case atom.string =>
    unfold mismatch?
    by_cases hword : word ∈ allowed <;>
      simp [Value.type, FieldType.valueType, hword]
  all_goals simp [mismatch?, Value.type, FieldType.valueType]

/-- A field for a truth value takes both. -/
theorem mismatch?_boolean {value : Value} :
    (Field.plain .boolean).mismatch? value = none ↔ ∃ b, value = .atom (.bool b) := by
  rcases value with (_ | _ | _ | _) | _ | _ | _ | _ <;>
    simp [plain, mismatch?, Value.type, FieldType.valueType]

/-- A field for texts takes every text. -/
theorem mismatch?_text {value : Value} :
    (Field.plain .string).mismatch? value = none ↔ ∃ word, value = .atom (.string word) := by
  rcases value with (_ | _ | _ | _) | _ | _ | _ | _ <;>
    simp [plain, mismatch?, Value.type, FieldType.valueType]

/-- Values each of which is a text are the texts of some words. -/
theorem forall_text_iff {items : List Value} :
    (∀ item ∈ items, ∃ word, item = .atom (.string word)) ↔
      ∃ words : List String, items = words.map fun word => .atom (.string word) := by
  constructor
  · intro h
    induction items with
    | nil => exact ⟨[], rfl⟩
    | cons item items ih =>
      obtain ⟨word, rfl⟩ := h item List.mem_cons_self
      obtain ⟨words, rfl⟩ := ih fun text htext => h text (List.mem_cons_of_mem _ htext)
      exact ⟨word :: words, rfl⟩
  · rintro ⟨words, rfl⟩ item hitem
    obtain ⟨word, -, rfl⟩ := List.mem_map.mp hitem
    exact ⟨word, rfl⟩

/-- A field for a list of texts takes a list if all of its items are texts. -/
theorem mismatch?_texts {value : Value} :
    (Field.mk .list none (some (.plain .string)) none).mismatch? value = none ↔
      ∃ words, value = .texts words := by
  rcases value with (_ | _ | _ | _) | _ | items | _ | _
  case list =>
    have hitems :
        (Field.mk .list none (some (.plain .string)) none).mismatch? (.list items) = none ↔
        ∀ item ∈ items, (Field.plain .string).mismatch? item = none := by
      simp [mismatch?, Value.type, FieldType.valueType]
    simp only [hitems, mismatch?_text, forall_text_iff, Value.texts, Value.list.injEq]
  all_goals simp [mismatch?, Value.type, FieldType.valueType, Value.texts]

/-- A field for a map takes every map: what is in it is checked apart from it. -/
theorem mismatch?_map {inner : Option Schema} {value : Value} :
    (Field.mk .map none none inner).mismatch? value = none ↔ ∃ entries, value = .map entries := by
  rcases value with (_ | _ | _ | _) | _ | _ | _ | _ <;>
    simp [mismatch?, Value.type, FieldType.valueType]

end Field

/-! ## The schemas -/

namespace Schema

/-- Whether a schema takes an entry: it has a field of this name, and the value conforms. -/
def takes (schema : Schema) (entry : String × Value) : Bool :=
  match schema.lookup entry.1 with
  | .declared field => (field.mismatch? entry.2).isNone
  | _ => false

/-- A schema declares the fields that are stored in it. -/
theorem lookup_eq_declared_iff {schema : Schema} {name : String} {field : Field} :
    schema.lookup name = .declared field ↔ Record.get? schema name = some field := by
  unfold lookup
  cases Record.get? schema name with
  | none =>
    dsimp only
    split <;> simp
  | some found => simp

/-- A name is unknown if it is neither declared nor reserved. -/
theorem lookup_eq_unknown_iff {schema : Schema} {name : String} :
    schema.lookup name = .unknown ↔ Record.get? schema name = none ∧ name ∉ reservedNames := by
  unfold lookup
  cases Record.get? schema name with
  | some field => simp
  | none => simp

/-- A name counts as reserved if it is and has not been declared. -/
theorem lookup_eq_reserved_iff {schema : Schema} {name : String} :
    schema.lookup name = .reserved ↔ Record.get? schema name = none ∧ name ∈ reservedNames := by
  unfold lookup
  cases Record.get? schema name with
  | some field => simp
  | none => simp

/-- A schema takes what conforms to one of its fields. -/
theorem takes_iff {schema : Schema} (hnames : (schema.map Prod.fst).Nodup)
    {entry : String × Value} :
    schema.takes entry = true ↔
      ∃ field, (entry.1, field) ∈ schema ∧ field.mismatch? entry.2 = none := by
  simp only [← Record.get?_eq_some_iff hnames, ← lookup_eq_declared_iff]
  unfold takes
  cases schema.lookup entry.1 with
  | declared field => simp
  | reserved => simp
  | unknown => simp

end Schema

/-- The words of the formats are the allowed ones. -/
theorem Format.mem_all (format : Format) : format ∈ Format.all := by
  cases format <;> decide

/-- The words of the modes are the allowed ones. -/
theorem ColorMode.mem_all (color : ColorMode) : color ∈ ColorMode.all := by
  cases color <;> decide

/-- **The schema of a layer takes what a layer may have.** -/
theorem profileSchema_takes_iff {entry : String × Value} :
    profileSchema.takes entry = true ↔ IsLayerEntry entry := by
  obtain ⟨name, value⟩ := entry
  rw [Schema.takes_iff (by decide)]
  constructor
  · rintro ⟨field, hmem, hvalue⟩
    simp only [profileSchema, List.mem_cons, List.not_mem_nil, or_false, Prod.mk.injEq] at hmem
    rcases hmem with ⟨rfl, rfl⟩ | ⟨rfl, rfl⟩ | ⟨rfl, rfl⟩ | ⟨rfl, rfl⟩ | ⟨rfl, rfl⟩ | ⟨rfl, rfl⟩
    · obtain ⟨word, hword, rfl⟩ := Field.mismatch?_words.mp hvalue
      obtain ⟨format, -, rfl⟩ := List.mem_map.mp hword
      exact .format format
    · obtain ⟨word, hword, rfl⟩ := Field.mismatch?_words.mp hvalue
      obtain ⟨color, -, rfl⟩ := List.mem_map.mp hword
      exact .color color
    · obtain ⟨b, rfl⟩ := Field.mismatch?_boolean.mp hvalue
      exact .trace b
    · obtain ⟨b, rfl⟩ := Field.mismatch?_boolean.mp hvalue
      exact .failFast b
    · obtain ⟨words, rfl⟩ := Field.mismatch?_texts.mp hvalue
      exact .files words
    · obtain ⟨words, rfl⟩ := Field.mismatch?_texts.mp hvalue
      exact .ignore words
  · rintro (format | color | b | b | words | words)
    · exact ⟨_, by simp [profileSchema],
        Field.mismatch?_words.mpr ⟨_, List.mem_map_of_mem format.mem_all, rfl⟩⟩
    · exact ⟨_, by simp [profileSchema],
        Field.mismatch?_words.mpr ⟨_, List.mem_map_of_mem color.mem_all, rfl⟩⟩
    · exact ⟨_, by simp [profileSchema], Field.mismatch?_boolean.mpr ⟨b, rfl⟩⟩
    · exact ⟨_, by simp [profileSchema], Field.mismatch?_boolean.mpr ⟨b, rfl⟩⟩
    · exact ⟨_, by simp [profileSchema], Field.mismatch?_texts.mpr ⟨words, rfl⟩⟩
    · exact ⟨_, by simp [profileSchema], Field.mismatch?_texts.mpr ⟨words, rfl⟩⟩

/-- The schema of a configuration takes what that of a layer takes, and the profiles. -/
theorem configSchema_takes_iff {entry : String × Value} :
    configSchema.takes entry = true ↔ IsConfigEntry entry := by
  have hfields : configSchema.takes entry = true ↔ profileSchema.takes entry = true ∨
      entry.1 = "profiles" ∧ ∃ entries, entry.2 = .map entries := by
    rw [Schema.takes_iff (by decide), Schema.takes_iff (by decide)]
    simp [configSchema, or_and_right, exists_or, Field.mismatch?_map, and_assoc]
  rw [hfields, profileSchema_takes_iff]
  constructor
  · rintro (hlayer | ⟨hname, entries, hvalue⟩)
    · exact .layer hlayer
    · obtain ⟨name, value⟩ := entry
      dsimp only at hname hvalue
      subst hname hvalue
      exact .profiles entries
  · rintro (hlayer | entries)
    · exact .inl hlayer
    · exact .inr ⟨rfl, entries, rfl⟩

instance : DecidablePred IsLayerEntry :=
  fun _ => decidable_of_iff _ profileSchema_takes_iff

instance : DecidablePred IsConfigEntry :=
  fun _ => decidable_of_iff _ configSchema_takes_iff

/-- To be taken by the schema of a layer is to be an entry that a layer may have. -/
theorem profileSchema_takes_eq (entry : String × Value) :
    profileSchema.takes entry = decide (IsLayerEntry entry) :=
  Bool.eq_iff_iff.mpr (profileSchema_takes_iff.trans decide_eq_true_iff.symm)

/-- To be taken by the schema of a configuration is to be an entry that a configuration may have. -/
theorem configSchema_takes_eq (entry : String × Value) :
    configSchema.takes entry = decide (IsConfigEntry entry) :=
  Bool.eq_iff_iff.mpr (configSchema_takes_iff.trans decide_eq_true_iff.symm)

end LineSum
