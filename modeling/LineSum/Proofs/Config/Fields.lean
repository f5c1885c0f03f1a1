import LineSum.Proofs.Config.Conforming
import Mathlib.Order.Bounds.Basic

/-!
# What a field takes

A field takes the values that conform to it: they have its type, a string is one of the allowed
ones, and the items of a list conform to the field of the items, which may be a field of lists
again. Checking finds out whether a value conforms. Of a list that holds anything else it names the
first such item, by its place in the list itself, however deep the fault lies.
-/

namespace LineSum

namespace Field

/-! ## Conforming -/

/-- A value conforms to a field if it has its type, is one of the allowed strings in case it is a
string and these are limited, and has only items that conform in case it is a list and the field
says what an item has to be. -/
inductive Conforms : Field → Value → Prop
  | intro {field : Field} {value : Value} (type_eq : value.type = field.type.valueType)
    (allowed : ∀ words word, field.values = some words → value = .atom (.string word) →
      word ∈ words)
    (items : ∀ demand elements, field.items = some demand → value = .list elements →
      ∀ element ∈ elements, Conforms demand element) : Conforms field value

/-- A list of the right type is checked item by item, up to the first one that does not conform. -/
theorem mismatch?_list {field demand : Field} (hitems : field.items = some demand)
    {elements : List Value} (htype : (Value.list elements).type = field.type.valueType) :
    field.mismatch? (.list elements) =
      (elements.findIdx? fun element => (demand.mismatch? element).isSome).map
        (.item · demand.type) := by
  obtain ⟨type, values, items, entries⟩ := field
  obtain rfl : items = some demand := hitems
  rw [mismatch?]
  exact if_pos htype

/-- **Checking finds out whether a value conforms.** -/
theorem mismatch?_eq_none_iff_conforms {field : Field} {value : Value} :
    field.mismatch? value = none ↔ field.Conforms value := by
  fun_induction mismatch? field value with
  | case1 type items entries word allowed hword htype =>
    refine iff_of_true rfl (.intro htype ?_ (by rintro _ _ _ ⟨⟩))
    rintro _ _ ⟨⟩ ⟨⟩
    exact List.contains_iff_mem.mp hword
  | case2 type items entries word allowed hword htype =>
    refine iff_of_false (Option.some_ne_none _) ?_
    rintro ⟨-, hallowed, -⟩
    exact hword (List.contains_iff_mem.mpr (hallowed allowed word rfl rfl))
  | case3 type items entries word htype =>
    exact iff_of_true rfl (.intro htype (by rintro _ _ ⟨⟩) (by rintro _ _ _ ⟨⟩))
  | case4 type values entries elements demand htype ih =>
    rw [Option.map_eq_none_iff, List.findIdx?_eq_none_iff]
    constructor
    · intro hnone
      refine .intro htype (by rintro _ _ _ ⟨⟩) ?_
      rintro _ _ ⟨⟩ ⟨⟩ element helement
      have hitem := hnone element helement
      rw [Option.isSome_eq_false_iff, Option.isNone_iff_eq_none] at hitem
      exact (ih element).mp hitem
    · rintro ⟨-, -, hitems⟩ element helement
      rw [(ih element).mpr (hitems demand elements rfl rfl element helement)]
      rfl
  | case5 type values entries elements htype =>
    exact iff_of_true rfl (.intro htype (by rintro _ _ _ ⟨⟩) (by rintro _ _ ⟨⟩))
  | case6 type values items entries value htype hword hlist =>
    refine iff_of_true rfl (.intro htype ?_ ?_)
    · intro _ word _ hvalue
      exact (hword word hvalue).elim
    · intro _ elements _ hvalue
      exact (hlist elements hvalue).elim
  | case7 type values items entries value htype =>
    refine iff_of_false (Option.some_ne_none _) ?_
    rintro ⟨hsame, -, -⟩
    exact htype hsame

instance (field : Field) (value : Value) : Decidable (field.Conforms value) :=
  decidable_of_iff _ mismatch?_eq_none_iff_conforms

/-! ## What is said -/

/-- What is said of a value that stands at a path and should be taken by a field. An item is turned
down if anything is said of it at the path of any item; what this would be is not said. -/
def report? : Field → String → Value → Option String
  | mk type values items _, path, value =>
    if value.type = type.valueType then
      match value with
      | .atom (.string word) =>
        match values with
        | some allowed =>
          if allowed.contains word then none
          else
            some (s!"Field \"{path}\" must be one of " ++ ", ".intercalate allowed ++
              s!", got \"{word}\".")
        | none => none
      | .list elements =>
        match items with
        | some demand =>
          (elements.findIdx? fun element => (report? demand s!"{path}[]" element).isSome).map
            fun index => s!"Field \"{path}[{index}]\" must be a {demand.type.text}."
        | none => none
      | _ => none
    else
      some s!"Field \"{path}\" must be a {type.text}, got {value.type.text}."

/-- What is said of a value is the sentence for what is wrong with it. -/
theorem report?_eq (field : Field) (path : String) (value : Value) :
    field.report? path value = (field.mismatch? value).map (Mismatch.message path) := by
  fun_induction report? field path value with
  | case1 type items entries path word allowed hword htype =>
    rw [mismatch?, if_pos htype, if_pos hword]
    rfl
  | case2 type items entries path word allowed hword htype =>
    rw [mismatch?, if_pos htype, if_neg hword]
    rfl
  | case3 type items entries path word htype =>
    rw [mismatch?, if_pos htype]
    rfl
  | case4 type values entries path elements demand htype ih =>
    -- at whatever path, something is said of an item exactly if something is wrong with it
    have hitem : ∀ element, (demand.report? s!"{path}[]" element).isSome =
        (demand.mismatch? element).isSome := by
      intro element
      rw [ih element, Option.isSome_map]
    rw [mismatch?, if_pos htype, Option.map_map]
    simp only [hitem]
    rfl
  | case5 type values entries path elements htype =>
    rw [mismatch?, if_pos htype]
    rfl
  | case6 type values items entries path value htype hword hlist =>
    rw [mismatch?, if_pos htype]
    · rfl
    · exact hword
    · exact hlist
  | case7 type values items entries path value htype =>
    have hwrong : (mk type values items entries).mismatch? value =
        some (.wrongType type value.type) := by
      rw [mismatch?.eq_def]
      exact if_neg htype
    rw [hwrong]
    rfl

/-- Nothing is said of a value exactly if it conforms, wherever it stands. -/
theorem report?_eq_none_iff {field : Field} {path : String} {value : Value} :
    field.report? path value = none ↔ field.Conforms value := by
  rw [report?_eq, Option.map_eq_none_iff, mismatch?_eq_none_iff_conforms]

/-- Of a list of the right type that has another item, the first such item is named. -/
theorem exists_least_of_not_conforms {field demand : Field} {elements : List Value}
    (hitems : field.items = some demand)
    (htype : (Value.list elements).type = field.type.valueType)
    (hother : ∃ element ∈ elements, ¬ demand.Conforms element) :
    ∃ index,
      IsLeast {i | ∃ element, elements[i]? = some element ∧ ¬ demand.Conforms element} index ∧
      field.mismatch? (.list elements) = some (.item index demand.type) := by
  have hturned : ∀ element,
      (demand.mismatch? element).isSome = true ↔ ¬ demand.Conforms element := by
    intro element
    rw [← mismatch?_eq_none_iff_conforms, Option.isSome_iff_ne_none]
  rw [mismatch?_list hitems htype]
  cases hindex : elements.findIdx? fun element => (demand.mismatch? element).isSome with
  | none =>
    obtain ⟨element, helement, hconforms⟩ := hother
    rw [List.findIdx?_eq_none_iff] at hindex
    have hnone := hindex element helement
    rw [(hturned element).mpr hconforms] at hnone
    cases hnone
  | some index =>
    obtain ⟨hlt, hfound, hbefore⟩ := List.findIdx?_eq_some_iff_getElem.mp hindex
    refine ⟨index, ⟨⟨_, List.getElem?_eq_getElem hlt, (hturned _).mp hfound⟩, ?_⟩, rfl⟩
    rintro i ⟨element, hi, hconforms⟩
    by_contra hless
    rw [not_le] at hless
    refine hbefore i hless ?_
    rw [List.getElem?_eq_getElem (hless.trans hlt), Option.some.injEq] at hi
    rw [hi]
    exact (hturned element).mpr hconforms

end Field

/-- **A value is turned down exactly if it does not conform, and of a list the first fault is
named.** What is said of a value at a path is the sentence for what is wrong with it. Nothing is
said exactly if the value has the type of the field, is one of the allowed strings and, if it is a
list, has only items that conform in turn; so the path does not matter for whether something is
said. If a list is of the right type but an item does not conform, the sentence has the least place
of such an item. -/
theorem report_of_field (field : Field) (value : Value) :
    (∀ path, (field.mismatch? value).map (Mismatch.message path) = field.report? path value) ∧
    (∀ path, field.report? path value = none ↔ field.Conforms value) ∧
    (∀ path other, (field.report? path value).isSome = (field.report? other value).isSome) ∧
    ∀ (demand : Field) elements, field.items = some demand → value = .list elements →
      value.type = field.type.valueType → (∃ element ∈ elements, ¬ demand.Conforms element) →
      ∃ index : Nat,
        IsLeast {i | ∃ element, elements[i]? = some element ∧ ¬ demand.Conforms element} index ∧
        ∀ path, field.report? path value =
          some s!"Field \"{path}[{index}]\" must be a {demand.type.text}." := by
  refine ⟨?_, ?_, ?_, ?_⟩
  · intro path
    exact (field.report?_eq path value).symm
  · intro path
    exact Field.report?_eq_none_iff
  · intro path other
    rw [field.report?_eq, field.report?_eq, Option.isSome_map, Option.isSome_map]
  · rintro demand elements hitems rfl htype hother
    obtain ⟨index, hleast, hmismatch⟩ := Field.exists_least_of_not_conforms hitems htype hother
    refine ⟨index, hleast, ?_⟩
    intro path
    rw [field.report?_eq, hmismatch]
    rfl

/-- A field for rows of words, of which two are allowed. -/
def tableField : Field :=
  .mk .list none (some (.mk .list none (some (.mk .string (some ["a", "b"]) none none)) none)) none

/-- The second row is the first one with a word that is not allowed; the third one is no row. -/
theorem report_of_field_table :
    let row := Field.mk .list none (some (.mk .string (some ["a", "b"]) none none)) none
    let rows := [Value.texts ["a", "b"], .texts ["b", "c"], .atom .null]
    (tableField.items = some row ∧ (Value.list rows).type = tableField.type.valueType ∧
      ∃ element ∈ rows, ¬ row.Conforms element) ∧
    tableField.report? "table" (.list rows) = some "Field \"table[1]\" must be a list." := by
  intro row rows
  have hother : ∃ element ∈ rows, ¬ row.Conforms element :=
    ⟨.texts ["b", "c"], by simp [rows], by decide⟩
  obtain ⟨-, -, -, hlist⟩ := report_of_field tableField (.list rows)
  obtain ⟨index, ⟨⟨element, helement, hconforms⟩, hleast⟩, hreport⟩ :=
    hlist row rows rfl rfl rfl hother
  have hle : index ≤ 1 := hleast ⟨.texts ["b", "c"], rfl, by decide⟩
  have hne : index ≠ 0 := by
    rintro rfl
    obtain rfl : Value.texts ["a", "b"] = element := Option.some.inj helement
    exact hconforms (by decide)
  obtain rfl : index = 1 := by omega
  exact ⟨⟨rfl, rfl, hother⟩, (hreport "table").trans (by decide)⟩

end LineSum
