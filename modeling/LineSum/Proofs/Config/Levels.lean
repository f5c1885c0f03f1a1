import LineSum.Proofs.Config.Checking

/-!
# What is reported on each level

Checking goes from a map to the maps in it, level by level. What is reported is what each level has
to say of its own entries: of a name that the schema of the level does not declare, that it is
unknown, unless the name is reserved, and of a name that it does declare, what the field demands of
the value.
-/

namespace LineSum

open Yaml (Node)

/-! ## Levels -/

/-- A value that is checked as a map of the fields of a schema, with its path and its node. -/
structure Level where
  schema : Schema
  path : String
  node : Option Node
  value : Value

namespace Level

/-- What is reported of the value. -/
def findings (level : Level) : List Finding :=
  (checkMap level.schema level.path level.node level.value).2

/-- What is reported of one entry of the value. -/
def findingsOf (level : Level) (entry : String × Value) : List Finding :=
  (checkEntry level.schema level.path level.node entry).2

/-- The sentences that report the value. -/
def messages (level : Level) : List String :=
  level.findings.map (·.problem.message)

/-- The sentences that report one entry of the value. -/
def messagesOf (level : Level) (entry : String × Value) : List String :=
  (level.findingsOf entry).map (·.problem.message)

/-- The level of one of the values of the map under a name, if they are maps of
the fields of a schema. -/
def inside (level : Level) (name : String) (inner : Schema) (entry : String × Value) : Level where
  schema := inner
  path := s!"{joinPath level.path name}.{entry.1}"
  node := entryNode (entryNode level.node name) entry.1
  value := entry.2

/-- From a level, checking goes on to the values of each map that conforms to a field which says
what they have to be. -/
inductive Opens (level : Level) : Level → Prop
  | intro {name : String} {values : Record Value} {field : Field} {inner : Schema}
    {entry : String × Value} (hentry : (name, .map values) ∈ level.value.entries)
    (hfield : Record.get? level.schema name = some field)
    (hvalue : field.mismatch? (.map values) = none) (hinner : field.entries = some inner)
    (hmem : entry ∈ values) : level.Opens (level.inside name inner entry)

/-- The levels to which checking comes in the end. -/
def Leads : Level → Level → Prop :=
  Relation.ReflTransGen Opens

/-- What there is to report on a level, apart from the levels to which it leads. -/
inductive Rejects (level : Level) : Finding → Prop
  /-- There are no fields to check. -/
  | notMap (hvalue : level.value.isLayer = false) : level.Rejects ⟨.notMap level.path, level.node⟩
  /-- The schema does not declare the name. -/
  | unknown {name : String} {value : Value} (hentry : (name, value) ∈ level.value.entries)
    (hfield : Record.get? level.schema name = none) (hname : name ∉ reservedNames) :
    level.Rejects ⟨.unknown (joinPath level.path name), entryPlace level.node name⟩
  /-- The schema does not declare the name, but it is reserved. -/
  | reserved {name : String} {value : Value} (hentry : (name, value) ∈ level.value.entries)
    (hfield : Record.get? level.schema name = none) (hname : name ∈ reservedNames) :
    level.Rejects ⟨.reserved (joinPath level.path name) value.type, entryPlace level.node name⟩
  /-- The value does not conform to the field. -/
  | mismatch {name : String} {value : Value} {field : Field} {reason : Mismatch}
    (hentry : (name, value) ∈ level.value.entries)
    (hfield : Record.get? level.schema name = some field)
    (hvalue : field.mismatch? value = some reason) :
    level.Rejects ⟨.mismatch (joinPath level.path name) reason, entryPlace level.node name⟩

end Level

/-! ## Step by step -/

/-- What a function makes of one element is a part of what it makes of all. -/
theorem isInfix_flatMap {α β : Type} {l : List α} {a : α} (h : a ∈ l) (f : α → List β) :
    f a <:+: l.flatMap f :=
  List.infix_of_mem_flatten (List.mem_map_of_mem h)

namespace Level

variable {level next below : Level} {entry : String × Value} {finding : Finding}

/-- What is reported of a map is what is reported of its entries. -/
theorem findings_map {schema : Schema} {path : String} {node : Option Node}
    (entries : Record Value) :
    (Level.mk schema path node (.map entries)).findings =
      entries.flatMap (Level.mk schema path node (.map entries)).findingsOf := by
  unfold findings findingsOf
  rw [checkMap, checkFields_eq_flatMap]

/-- What is reported of an entry is a part of what is reported on its level. -/
theorem findingsOf_isInfix (h : entry ∈ level.value.entries) :
    level.findingsOf entry <:+: level.findings := by
  obtain ⟨schema, path, node, value⟩ := level
  cases value with
  | map entries =>
    rw [findings_map]
    exact isInfix_flatMap h _
  | _ => cases h

/-- What is reported of values by name is what is reported on their levels. -/
theorem findings_inside (level : Level) (name : String) (inner : Schema) (values : Record Value) :
    (checkEntries inner (joinPath level.path name) (entryNode level.node name) values).2 =
      values.flatMap fun entry => (level.inside name inner entry).findings := by
  rw [checkEntries_eq_flatMap]
  rfl

/-- What is reported on a level is a part of what is reported on one that opens it. -/
theorem Opens.findings_isInfix (h : level.Opens next) : next.findings <:+: level.findings := by
  obtain ⟨hentry, hfield, hvalue, hinner, hmem⟩ := h
  refine List.IsInfix.trans ?_ (findingsOf_isInfix hentry)
  unfold findingsOf
  rw [(ChecksEntry.nested (Schema.lookup_eq_declared_iff.mpr hfield) hvalue hinner).checkEntry_eq]
  dsimp only
  rw [findings_inside]
  exact isInfix_flatMap hmem fun entry => (level.inside _ _ entry).findings

/-- What is reported on a level is a part of what is reported on one that leads to it. -/
theorem Leads.findings_isInfix (h : level.Leads below) : below.findings <:+: level.findings := by
  induction h with
  | refl => exact List.infix_refl _
  | tail _ hopens ih => exact hopens.findings_isInfix.trans ih

/-- What is reported of an entry is that it is rejected, or it is reported on a
level that it opens. -/
theorem cases_of_mem_findingsOf (hentry : entry ∈ level.value.entries)
    (h : finding ∈ level.findingsOf entry) :
    level.Rejects finding ∨ ∃ next, level.Opens next ∧ finding ∈ next.findings := by
  have hchecks := checksEntry level.schema level.path level.node entry
  unfold findingsOf at h
  generalize checkEntry level.schema level.path level.node entry = checked at hchecks h
  cases hchecks with
  | unknown hfield =>
    rw [List.mem_singleton] at h
    subst h
    obtain ⟨hfield, hname⟩ := Schema.lookup_eq_unknown_iff.mp hfield
    exact .inl (.unknown hentry hfield hname)
  | reserved hfield =>
    rw [List.mem_singleton] at h
    subst h
    obtain ⟨hfield, hname⟩ := Schema.lookup_eq_reserved_iff.mp hfield
    exact .inl (.reserved hentry hfield hname)
  | mismatch hfield hvalue =>
    rw [List.mem_singleton] at h
    subst h
    exact .inl (.mismatch hentry (Schema.lookup_eq_declared_iff.mp hfield) hvalue)
  | nested hfield hvalue hinner =>
    dsimp only at h
    rw [findings_inside, List.mem_flatMap] at h
    obtain ⟨entry, hmem, h⟩ := h
    exact .inr ⟨_, .intro hentry (Schema.lookup_eq_declared_iff.mp hfield) hvalue hinner hmem, h⟩
  | whole _ _ _ => cases h

/-- What is reported of a value that is no map is that it is none. -/
theorem rejects_of_no_map (hmap : ∀ entries, level.value ≠ .map entries)
    (h : finding ∈ level.findings) : level.Rejects finding := by
  unfold findings at h
  rw [checkMap_of_no_map _ _ _ hmap] at h
  split at h
  · cases h
  · next hvalue =>
    rw [List.mem_singleton.mp h]
    exact .notMap (Bool.eq_false_of_not_eq_true hvalue)

/-- A level reports what it rejects. -/
theorem Rejects.mem_findings (h : level.Rejects finding) : finding ∈ level.findings := by
  cases h with
  | notMap hvalue =>
    have hmap : ∀ entries, level.value ≠ .map entries := by
      rintro entries heq
      rw [heq] at hvalue
      cases hvalue
    unfold findings
    rw [checkMap_of_no_map _ _ _ hmap, hvalue]
    exact List.mem_singleton_self _
  | unknown hentry hfield hname =>
    refine (findingsOf_isInfix hentry).subset ?_
    unfold findingsOf
    rw [(ChecksEntry.unknown (Schema.lookup_eq_unknown_iff.mpr ⟨hfield, hname⟩)).checkEntry_eq]
    exact List.mem_singleton_self _
  | reserved hentry hfield hname =>
    refine (findingsOf_isInfix hentry).subset ?_
    unfold findingsOf
    rw [(ChecksEntry.reserved (Schema.lookup_eq_reserved_iff.mpr ⟨hfield, hname⟩)).checkEntry_eq]
    exact List.mem_singleton_self _
  | mismatch hentry hfield hvalue =>
    refine (findingsOf_isInfix hentry).subset ?_
    unfold findingsOf
    rw [(ChecksEntry.mismatch (Schema.lookup_eq_declared_iff.mpr hfield) hvalue).checkEntry_eq]
    exact List.mem_singleton_self _

/-- **What is reported is what is rejected on the levels to which checking comes.** -/
theorem mem_findings_iff :
    finding ∈ level.findings ↔ ∃ below, level.Leads below ∧ below.Rejects finding := by
  constructor
  · obtain ⟨schema, path, node, value⟩ := level
    induction value using Value.induction_of_inner generalizing schema path node with
    | step value ih =>
      intro h
      by_cases hmap : ∃ entries, value = .map entries
      · obtain ⟨entries, rfl⟩ := hmap
        rw [findings_map, List.mem_flatMap] at h
        obtain ⟨entry, hentry, h⟩ := h
        obtain hrejects | ⟨next, hopens, h⟩ := cases_of_mem_findingsOf hentry h
        · exact ⟨_, .refl, hrejects⟩
        · obtain ⟨hentry, hfield, hvalue, hinner, hmem⟩ := id hopens
          obtain ⟨below, hleads, hrejects⟩ := ih _ _ _ _ hentry hmem _ _ _ h
          exact ⟨below, .head hopens hleads, hrejects⟩
      · rw [not_exists] at hmap
        exact ⟨_, .refl, rejects_of_no_map hmap h⟩
  · rintro ⟨below, hleads, hrejects⟩
    exact hleads.findings_isInfix.subset hrejects.mem_findings

end Level

end LineSum
