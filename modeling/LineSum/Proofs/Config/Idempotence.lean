import LineSum.Proofs.Config.Checking

/-!
# Checking what has been kept

Checking keeps entries that a schema admits: their names can be stored, their values conform, and
what is kept inside them is admitted in turn. Entries that are admitted are kept as they are, and
nothing is reported about them. So checking once more what has been kept changes nothing.
-/

namespace LineSum

open Yaml (Node)

/-! ## Entries that are kept as they are -/

/-- An entry with a name that can be stored and a value that conforms to the field of this name. If
the field says what the values of a map have to be, they are maps of admitted entries themselves. -/
inductive Schema.Admits : Schema → String × Value → Prop
  | whole {schema : Schema} {name : String} {value : Value} {field : Field}
    (hname : name ≠ unstorableName) (hfield : schema.lookup name = .declared field)
    (hvalue : field.mismatch? value = none)
    (hwhole : ∀ inner entries, field.entries = some inner → value ≠ .map entries) :
    Admits schema (name, value)
  | nested {schema : Schema} {name : String} {entries : Record Value} {field : Field}
      {inner : Schema}
    (hname : name ≠ unstorableName) (hfield : schema.lookup name = .declared field)
    (hvalue : field.mismatch? (.map entries) = none) (hinner : field.entries = some inner)
    (hmaps : ∀ entry ∈ entries, entry.1 ≠ unstorableName ∧ ∃ fields, entry.2 = .map fields)
    (hfields : ∀ (key : String) (fields : Record Value), (key, .map fields) ∈ entries →
      ∀ entry ∈ fields, Admits inner entry) :
    Admits schema (name, .map entries)

/-- Whether a map conforms to a field does not depend on its entries. -/
theorem Field.mismatch?_map_eq (field : Field) (entries others : Record Value) :
    field.mismatch? (.map entries) = field.mismatch? (.map others) := by
  cases field
  unfold mismatch?
  rfl

section Kept

variable {schema : Schema}

/-- A map of entries each of which is kept as it is. -/
theorem checkFields_of_forall (path : String) (node : Option Node) {entries : Record Value}
    (h : ∀ entry ∈ entries, checkEntry schema path node entry = ([entry], [])) :
    checkFields schema path node entries = (entries, []) := by
  induction entries with
  | nil => rw [checkFields]
  | cons entry rest ih =>
    rw [List.forall_mem_cons] at h
    rw [checkFields_cons, h.1, ih h.2]
    rfl

/-- Values by name each of which is a map that is kept as it is. -/
theorem checkEntries_of_forall (path : String) (node : Option Node) {entries : Record Value}
    (hmaps : ∀ entry ∈ entries, entry.1 ≠ unstorableName ∧ ∃ fields, entry.2 = .map fields)
    (hfields : ∀ (key : String) (fields : Record Value), (key, .map fields) ∈ entries →
      ∀ path node, checkFields schema path node fields = (fields, [])) :
    checkEntries schema path node entries = (entries, []) := by
  induction entries with
  | nil => rw [checkEntries]
  | cons entry rest ih =>
    obtain ⟨name, value⟩ := entry
    rw [List.forall_mem_cons] at hmaps
    obtain ⟨⟨hname, fields, hvalue⟩, hrest⟩ := hmaps
    dsimp only at hname hvalue
    subst hvalue
    have hsame := hfields name fields List.mem_cons_self s!"{path}.{name}" (entryNode node name)
    have htail := ih hrest fun key fields hmem => hfields key fields (List.mem_cons_of_mem _ hmem)
    rw [checkEntries_eq_flatMap] at htail ⊢
    rw [List.flatMap_cons, List.flatMap_cons]
    dsimp only
    rw [checkMap, hsame, keptAlone_of_ne hname, (Prod.mk.inj htail).1, (Prod.mk.inj htail).2]
    rfl

/-- **An entry that is admitted is kept as it is**, and nothing is reported. -/
theorem Schema.Admits.checkEntry_eq {entry : String × Value} (h : schema.Admits entry)
    (path : String) (node : Option Node) : checkEntry schema path node entry = ([entry], []) := by
  induction h generalizing path node with
  | whole hname hfield hvalue hwhole =>
    rw [(ChecksEntry.whole hfield hvalue hwhole).checkEntry_eq, keptAlone_of_ne hname]
  | @nested schema name entries field inner hname hfield hvalue hinner hmaps _ ih =>
    have hentries := checkEntries_of_forall (joinPath path name) (entryNode node name) hmaps
      fun key fields hmem path node =>
        checkFields_of_forall path node fun entry hentry =>
          ih key fields hmem entry hentry path node
    rw [(ChecksEntry.nested hfield hvalue hinner).checkEntry_eq, hentries, keptAlone_of_ne hname]

/-- A map of admitted entries is kept as it is. -/
theorem checkMap_of_admits (path : String) (node : Option Node) {entries : Record Value}
    (h : ∀ entry ∈ entries, schema.Admits entry) :
    checkMap schema path node (.map entries) = (entries, []) := by
  rw [checkMap]
  exact checkFields_of_forall path node fun entry hentry => (h entry hentry).checkEntry_eq path node

end Kept

/-! ## What is kept is admitted -/

section Inner

variable {schema : Schema} {path : String} {node : Option Node}

/-- What is kept of a map comes from one of its entries. -/
theorem mem_checkFields_iff {entries : Record Value} {entry : String × Value} :
    entry ∈ (checkFields schema path node entries).1 ↔
      ∃ original ∈ entries, entry ∈ (checkEntry schema path node original).1 := by
  rw [checkFields_eq_flatMap, List.mem_flatMap]

/-- What is kept of values by name are the names that can be stored, each with what
is kept of its value. -/
theorem mem_checkEntries_iff {entries : Record Value} {entry : String × Value} :
    entry ∈ (checkEntries schema path node entries).1 ↔
      ∃ key v, (key, v) ∈ entries ∧ key ≠ unstorableName ∧
        entry = (key, .map (checkMap schema s!"{path}.{key}" (entryNode node key) v).1) := by
  rw [checkEntries_eq_flatMap, List.mem_flatMap, Prod.exists]
  simp only [mem_keptAlone_iff]

/-- An entry of which something is kept conforms to its field and can be stored. It is kept with
what is kept of its entries, if these are checked in turn, and otherwise as it is. -/
theorem cases_of_mem_checkEntry {name : String} {value : Value} {entry : String × Value}
    (h : entry ∈ (checkEntry schema path node (name, value)).1) :
    name ≠ unstorableName ∧ ∃ field, schema.lookup name = .declared field ∧
      field.mismatch? value = none ∧
        ((∃ inner entries, field.entries = some inner ∧ value = .map entries ∧
            entry = (name, .map
              (checkEntries inner (joinPath path name) (entryNode node name) entries).1)) ∨
          ((∀ inner entries, field.entries = some inner → value ≠ .map entries) ∧
            entry = (name, value))) := by
  have hchecks := checksEntry schema path node (name, value)
  generalize checkEntry schema path node (name, value) = checked at hchecks h
  cases hchecks with
  | unknown _ => cases h
  | reserved _ => cases h
  | mismatch _ _ => cases h
  | nested hfield hvalue hinner =>
    obtain ⟨hname, rfl⟩ := mem_keptAlone_iff.mp h
    exact ⟨hname, _, hfield, hvalue, .inl ⟨_, _, hinner, rfl, rfl⟩⟩
  | whole hfield hvalue hwhole =>
    obtain ⟨hname, rfl⟩ := mem_keptAlone_iff.mp h
    exact ⟨hname, _, hfield, hvalue, .inr ⟨hwhole, rfl⟩⟩

end Inner

/-- **Everything that checking keeps is admitted.** -/
theorem admits_of_mem_checkMap (schema : Schema) (path : String) (node : Option Node)
    (value : Value) :
    ∀ entry ∈ (checkMap schema path node value).1, schema.Admits entry := by
  induction value using Value.induction_of_inner generalizing schema path node with
  | step value ih =>
    by_cases hmap : ∃ entries, value = .map entries
    · obtain ⟨entries, rfl⟩ := hmap
      intro entry hentry
      rw [checkMap, mem_checkFields_iff, Prod.exists] at hentry
      obtain ⟨name, v, hmem, hkept⟩ := hentry
      obtain ⟨hname, field, hfield, hvalue, hnested | hwhole⟩ := cases_of_mem_checkEntry hkept
      · obtain ⟨inner, values, hinner, rfl, rfl⟩ := hnested
        -- The map may have lost entries, but whether it conforms does not depend on them.
        rw [field.mismatch?_map_eq _ (checkEntries inner _ _ values).1] at hvalue
        refine .nested hname hfield hvalue hinner ?_ ?_
        · intro e he
          obtain ⟨key, _, -, hkey, rfl⟩ := mem_checkEntries_iff.mp he
          exact ⟨hkey, _, rfl⟩
        · intro key fields he
          obtain ⟨_, u, hu, -, heq⟩ := mem_checkEntries_iff.mp he
          cases heq
          exact ih name values key u hmem hu inner _ _
      · obtain ⟨hwhole, rfl⟩ := hwhole
        exact .whole hname hfield hvalue hwhole
    · rw [not_exists] at hmap
      rw [checkMap_of_no_map schema path node hmap]
      exact List.forall_mem_nil _

/-! ## The order of what is kept -/

/-- Every map in the value has its entries in the order in which a map lists them. -/
inductive Value.InOrder : Value → Prop
  | atom (value : Atom) : (atom value).InOrder
  | absent : absent.InOrder
  | other : other.InOrder
  | list {items : List Value} (hitems : ∀ item ∈ items, item.InOrder) : (list items).InOrder
  | map {entries : Record Value} (horder : Record.InOrder entries)
    (hvalues : ∀ entry ∈ entries, entry.2.InOrder) : (map entries).InOrder

/-- If each entry is replaced by at most one of its name, the names stay in order. -/
theorem Record.InOrder.flatMap {entries : Record Value} (h : entries.InOrder)
    {f : String × Value → Record Value}
    (hf : ∀ entry ∈ entries, ((f entry).map Prod.fst).Sublist [entry.1]) :
    Record.InOrder (entries.flatMap f) := by
  have hnames : ((entries.flatMap f).map Prod.fst).Sublist (entries.map Prod.fst) := by
    clear h
    induction entries with
    | nil => exact List.Sublist.refl _
    | cons entry rest ih =>
      rw [List.forall_mem_cons] at hf
      rw [List.flatMap_cons, List.map_append, List.map_cons]
      exact hf.1.append (ih hf.2)
  exact h.sublist hnames

/-- What is kept of an entry has its name. -/
theorem names_keptAlone (name : String) (value : Value) :
    ((keptAlone name value).map Prod.fst).Sublist [name] := by
  unfold keptAlone
  split
  · exact List.nil_sublist _
  · exact List.Sublist.refl _

/-- What is kept of an entry that is checked has its name. -/
theorem names_checkEntry (schema : Schema) (path : String) (node : Option Node)
    (entry : String × Value) :
    ((checkEntry schema path node entry).1.map Prod.fst).Sublist [entry.1] := by
  have hchecks := checksEntry schema path node entry
  generalize checkEntry schema path node entry = checked at hchecks ⊢
  cases hchecks with
  | unknown _ => exact List.nil_sublist _
  | reserved _ => exact List.nil_sublist _
  | mismatch _ _ => exact List.nil_sublist _
  | nested _ _ _ => exact names_keptAlone _ _
  | whole _ _ _ => exact names_keptAlone _ _

/-- **What checking keeps of maps in order is in order.** -/
theorem Value.InOrder.of_checkMap {value : Value} (h : value.InOrder) (schema : Schema)
    (path : String) (node : Option Node) :
    (Value.map (checkMap schema path node value).1).InOrder := by
  induction value using Value.induction_of_inner generalizing schema path node with
  | step value ih =>
    by_cases hmap : ∃ entries, value = .map entries
    · obtain ⟨entries, rfl⟩ := hmap
      cases h with
      | map horder hvalues =>
        rw [checkMap]
        refine .map ?_ ?_
        · rw [checkFields_eq_flatMap]
          exact horder.flatMap fun entry _ => names_checkEntry schema path node entry
        · intro entry hentry
          rw [mem_checkFields_iff, Prod.exists] at hentry
          obtain ⟨name, v, hmem, hkept⟩ := hentry
          obtain ⟨-, field, -, -, hnested | ⟨-, rfl⟩⟩ := cases_of_mem_checkEntry hkept
          · obtain ⟨inner, values, -, rfl, rfl⟩ := hnested
            cases hvalues _ hmem with
            | map horder' hvalues' =>
              refine .map ?_ ?_
              · rw [checkEntries_eq_flatMap]
                exact horder'.flatMap fun entry _ => names_keptAlone _ _
              · intro e he
                obtain ⟨key, u, hu, -, rfl⟩ := mem_checkEntries_iff.mp he
                exact ih name values key u hmem hu (hvalues' _ hu) inner _ _
          · exact hvalues _ hmem
    · rw [not_exists] at hmap
      rw [checkMap_of_no_map schema path node hmap]
      exact .map List.Pairwise.nil (List.forall_mem_nil _)

/-! ## Checking twice -/

/-- **Checking is idempotent.** Of what has been kept of a value, all is kept when it is checked
once more against the same schema, in the same order, and nothing is reported, wherever the value is
said to come from. If the maps in the value are in order, those that are kept are in order as well,
so that storing their entries changes nothing. -/
theorem checkMap_idempotent (schema : Schema) (value : Value) (path path' : String)
    (node node' : Option Node) :
    let kept := (checkMap schema path node value).1
    checkMap schema path' node' (.map kept) = (kept, []) ∧
      (value.InOrder → (Value.map kept).InOrder ∧ Record.ofPairs kept = kept) := by
  intro kept
  refine ⟨checkMap_of_admits path' node' (admits_of_mem_checkMap schema path node value), ?_⟩
  intro horder
  have hkept : (Value.map kept).InOrder := horder.of_checkMap schema path node
  refine ⟨hkept, ?_⟩
  cases hkept with
  | map horder' _ => exact Record.ofPairs_of_inOrder horder'

/-- A configuration with a format that is no word, and with profiles two of which are named by
numbers: one with a field that there is not, one that is null, one that cannot be stored and one
that is no map. -/
def numberedProfiles : Value :=
  .map [("format", .atom (.bool true)),
    ("profiles", .map [("2", .map [("trace", .atom (.bool true)), ("depth", .atom .null)]),
      ("10", .atom .null), ("__proto__", .map []), ("ci", .atom (.string "x"))]),
    ("trace", .atom (.bool false))]

/-- What is kept of it: the profiles that can be stored, each with what
conforms, and the last entry. -/
def keptNumberedProfiles : Record Value :=
  [("profiles",
      .map [("2", .map [("trace", .atom (.bool true))]), ("10", .map []), ("ci", .map [])]),
    ("trace", .atom (.bool false))]

/-- Checking this configuration keeps two of its entries, and of the profiles those that can be
stored. Checking these again changes and finds nothing. -/
theorem checkMap_idempotent_numberedProfiles :
    numberedProfiles.InOrder ∧
      (checkMap configSchema "" none numberedProfiles).1 = keptNumberedProfiles ∧
      checkMap configSchema "again" none (.map keptNumberedProfiles) = (keptNumberedProfiles, []) ∧
      Record.ofPairs keptNumberedProfiles = keptNumberedProfiles := by
  have hfirst : (checkMap configSchema "" none numberedProfiles).1 = keptNumberedProfiles := rfl
  have hempty : (Value.map []).InOrder := .map List.Pairwise.nil (List.forall_mem_nil _)
  have htwo : (Value.map [("trace", .atom (.bool true)), ("depth", .atom .null)]).InOrder :=
    .map (by unfold Record.InOrder; decide) (by simp [Value.InOrder.atom])
  have hprofiles : (Value.map [("2", .map [("trace", .atom (.bool true)), ("depth", .atom .null)]),
      ("10", .atom .null), ("__proto__", .map []), ("ci", .atom (.string "x"))]).InOrder :=
    .map (by unfold Record.InOrder; decide) (by simp [Value.InOrder.atom, htwo, hempty])
  have horder : numberedProfiles.InOrder :=
    .map (by unfold Record.InOrder; decide) (by simp [Value.InOrder.atom, hprofiles])
  obtain ⟨hagain, hkept⟩ := checkMap_idempotent configSchema numberedProfiles "" "again" none none
  rw [hfirst] at hagain hkept
  exact ⟨horder, hfirst, hagain, (hkept horder).2⟩

end LineSum
