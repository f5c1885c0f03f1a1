import LineSum.Proofs.Config.Levels

/-!
# The sentences that report a configuration

Each sentence begins with the path of what it is about, and a field that does not take a value is
reported by what it demands. That a field is unknown is said of a name exactly if the schema of its
level does not declare it, except that a reserved name is reported as a field without a type.
-/

namespace LineSum

/-! ## Paths -/

/-- The path that a problem names. -/
def FieldProblem.path : FieldProblem → String
  | unknown path => path
  | reserved path _ => path
  | mismatch path _ => path
  | notMap path => path

/-- The path of a name inside a map goes on from that of the map. -/
theorem exists_joinPath_eq_append (path name : String) :
    ∃ rest, joinPath path name = path ++ rest := by
  unfold joinPath
  split
  · next hempty =>
    rw [String.isEmpty_iff.mp hempty]
    exact ⟨name, String.empty_append.symm⟩
  · exact ⟨"." ++ name, String.append_assoc⟩

namespace Level

variable {level next below : Level} {finding : Finding}

/-- The path of a level to which another one leads goes on from that of the other one. -/
theorem Leads.exists_path_eq_append (h : level.Leads below) :
    ∃ rest, below.path = level.path ++ rest := by
  induction h with
  | refl => exact ⟨"", String.append_empty.symm⟩
  | @tail middle _ _ hopens ih =>
    obtain ⟨rest, hrest⟩ := ih
    cases hopens with
    | @intro name _ _ _ entry =>
      obtain ⟨more, hmore⟩ := exists_joinPath_eq_append middle.path name
      refine ⟨rest ++ (more ++ ("." ++ entry.1)), ?_⟩
      change joinPath middle.path name ++ "." ++ entry.1 = _
      rw [hmore, hrest]
      simp only [String.append_assoc]

/-- **What is reported on a level names a path that goes on from that of the level.** -/
theorem exists_path_of_mem_findings (h : finding ∈ level.findings) :
    ∃ rest, finding.problem.path = level.path ++ rest := by
  obtain ⟨below, hleads, hrejects⟩ := mem_findings_iff.mp h
  obtain ⟨rest, hrest⟩ := hleads.exists_path_eq_append
  have hjoin : ∀ name, ∃ more, joinPath below.path name = level.path ++ more := by
    intro name
    obtain ⟨more, hmore⟩ := exists_joinPath_eq_append below.path name
    exact ⟨rest ++ more, by rw [hmore, hrest, String.append_assoc]⟩
  cases hrejects with
  | notMap _ => exact ⟨rest, hrest⟩
  | unknown _ _ _ => exact hjoin _
  | reserved _ _ _ => exact hjoin _
  | mismatch _ _ _ => exact hjoin _

end Level

/-! ## Sentences -/

/-- Only what is unknown is said to be, and it is said of its path. -/
theorem FieldProblem.message_eq_unknown_iff {problem : FieldProblem} {path : String} :
    problem.message = s!"Unknown field \"{path}\"." ↔ problem = .unknown path := by
  constructor
  · intro h
    have hchars := congrArg String.toList h
    unfold message at hchars
    cases problem with
    | unknown other =>
      have hpath : other.toList = path.toList := by simpa [toString] using hchars
      rw [String.toList_inj.mp hpath]
    | reserved other found => simp [toString] at hchars
    | mismatch other reason => cases reason <;> simp [Mismatch.message, toString] at hchars
    | notMap other => by_cases hempty : other = "" <;> simp [hempty, toString] at hchars
  · rintro rfl
    rfl

/-- A field does not take a value, and a sentence says what it demands instead: a type, one of the
allowed strings, or items of a type. -/
inductive Field.Refuses (field : Field) (path : String) : Value → String → Prop
  | type {value : Value} (htype : value.type ≠ field.type.valueType) :
    field.Refuses path value
      s!"Field \"{path}\" must be a {field.type.text}, got {value.type.text}."
  | word {word : String} {allowed : List String} (hallowed : field.values = some allowed)
    (hword : word ∉ allowed) :
    field.Refuses path (.atom (.string word))
      (s!"Field \"{path}\" must be one of " ++ ", ".intercalate allowed ++ s!", got \"{word}\".")
  | item {items : List Value} {index : Nat} {value : Value} {demand : Field}
    (hitems : field.items = some demand) (hvalue : items[index]? = some value)
    (hdemand : demand.mismatch? value ≠ none) :
    field.Refuses path (.list items) s!"Field \"{path}[{index}]\" must be a {demand.type.text}."

/-- The sentence that reports a mismatch says what the field demands. -/
theorem Field.refuses_of_mismatch? {field : Field} {value : Value} {reason : Mismatch}
    (h : field.mismatch? value = some reason) (path : String) :
    field.Refuses path value (reason.message path) := by
  obtain ⟨type, values, items, entries⟩ := field
  unfold mismatch? at h
  split at h
  · split at h
    · split at h
      · split at h
        · cases h
        · next hword =>
          cases h
          exact .word rfl (by simpa using hword)
      · cases h
    · split at h
      · next demand =>
        obtain ⟨index, hindex, rfl⟩ := Option.map_eq_some_iff.mp h
        obtain ⟨hlt, hfound, -⟩ := List.findIdx?_eq_some_iff_getElem.mp hindex
        exact .item rfl (List.getElem?_eq_getElem hlt) (Option.isSome_iff_ne_none.mp hfound)
      · cases h
    · cases h
  · next htype =>
    cases h
    exact .type htype

namespace Level

/-- A sentence that reports a value on its own level: it is no map, or it has an
entry that is left out. -/
inductive Reports (level : Level) : String → Prop
  | notMap (hvalue : level.value.isLayer = false) :
    level.Reports
      ((if level.path.isEmpty then "Config" else s!"\"{level.path}\"") ++ " must be a map.")
  | unknown {name : String} {value : Value} (hentry : (name, value) ∈ level.value.entries)
    (hfield : Record.get? level.schema name = none) (hname : name ∉ reservedNames) :
    level.Reports s!"Unknown field \"{joinPath level.path name}\"."
  | reserved {name : String} {value : Value} (hentry : (name, value) ∈ level.value.entries)
    (hfield : Record.get? level.schema name = none) (hname : name ∈ reservedNames) :
    level.Reports
      s!"Field \"{joinPath level.path name}\" must be a undefined, got {value.type.text}."
  | declared {name message : String} {value : Value} {field : Field}
    (hentry : (name, value) ∈ level.value.entries)
    (hfield : Record.get? level.schema name = some field)
    (hvalue : field.Refuses (joinPath level.path name) value message) : level.Reports message

variable {level : Level} {finding : Finding} {name : String}

/-- The sentence of what is rejected on a level reports it there. -/
theorem Rejects.reports (h : level.Rejects finding) : level.Reports finding.problem.message := by
  cases h with
  | notMap hvalue => exact .notMap hvalue
  | unknown hentry hfield hname => exact .unknown hentry hfield hname
  | reserved hentry hfield hname => exact .reserved hentry hfield hname
  | mismatch hentry hfield hvalue =>
    exact .declared hentry hfield (Field.refuses_of_mismatch? hvalue _)

/-! ## Names that are not declared -/

/-- A name that is neither declared nor reserved is unknown, and nothing else is said of it. -/
theorem messagesOf_unknown (hfield : Record.get? level.schema name = none)
    (hname : name ∉ reservedNames) (value : Value) :
    level.messagesOf (name, value) = [s!"Unknown field \"{joinPath level.path name}\"."] := by
  unfold messagesOf findingsOf
  rw [(ChecksEntry.unknown (Schema.lookup_eq_unknown_iff.mpr ⟨hfield, hname⟩)).checkEntry_eq]
  rfl

/-- A reserved name that is not declared has no type, and nothing else is said of it. -/
theorem messagesOf_reserved (hfield : Record.get? level.schema name = none)
    (hname : name ∈ reservedNames) (value : Value) :
    level.messagesOf (name, value) =
      [s!"Field \"{joinPath level.path name}\" must be a undefined, got {value.type.text}."] := by
  unfold messagesOf findingsOf
  rw [(ChecksEntry.reserved (Schema.lookup_eq_reserved_iff.mpr ⟨hfield, hname⟩)).checkEntry_eq]
  rfl

/-- What is reported inside an entry is not about the entry. -/
theorem path_ne_of_mem_findings_inside {inner : Schema} {entry : String × Value}
    (h : finding ∈ (level.inside name inner entry).findings) :
    finding.problem.path ≠ joinPath level.path name := by
  obtain ⟨rest, hrest⟩ := exists_path_of_mem_findings h
  intro hpath
  have hlength := congrArg String.length (hpath.symm.trans hrest)
  change _ = (joinPath level.path name ++ "." ++ entry.1 ++ rest).length at hlength
  have hdot : ".".length = 1 := rfl
  simp only [String.length_append] at hlength
  omega

/-- **A name is said to be unknown exactly if it is neither declared nor reserved.** -/
theorem unknown_mem_messagesOf_iff (value : Value) :
    s!"Unknown field \"{joinPath level.path name}\"." ∈ level.messagesOf (name, value) ↔
      Record.get? level.schema name = none ∧ name ∉ reservedNames := by
  constructor
  · intro h
    obtain ⟨finding, hfinding, hmessage⟩ := List.mem_map.mp h
    have hproblem := FieldProblem.message_eq_unknown_iff.mp hmessage
    have hchecks := checksEntry level.schema level.path level.node (name, value)
    unfold findingsOf at hfinding
    generalize checkEntry level.schema level.path level.node (name, value) = checked
      at hchecks hfinding
    cases hchecks with
    | unknown hfield => exact Schema.lookup_eq_unknown_iff.mp hfield
    | reserved hfield =>
      rw [List.mem_singleton.mp hfinding] at hproblem
      cases hproblem
    | mismatch _ _ =>
      rw [List.mem_singleton.mp hfinding] at hproblem
      cases hproblem
    | nested _ _ _ =>
      -- The path of a name inside the entry is longer than that of the entry.
      dsimp only at hfinding
      rw [findings_inside, List.mem_flatMap] at hfinding
      obtain ⟨entry, -, hinside⟩ := hfinding
      refine absurd ?_ (path_ne_of_mem_findings_inside hinside)
      rw [hproblem]
      rfl
    | whole _ _ _ => cases hfinding
  · rintro ⟨hfield, hname⟩
    rw [messagesOf_unknown hfield hname]
    exact List.mem_singleton_self _

end Level

/-- **What is reported of a configuration, level by level.** On every level to which checking comes,
what is said of an entry is a part of what is said of the whole. The entry is said to be unknown
exactly if the schema of the level does not declare its name, provided that the name is not
reserved; a reserved one that is not declared is said to be a field without a type. Everything that
is said of the whole is said of one of the levels, and what is said there of a name that the schema
declares is what its field demands of the value. -/
theorem messages_by_level (whole : Level) :
    (∀ level, whole.Leads level → ∀ name value, (name, value) ∈ level.value.entries →
      level.messagesOf (name, value) <:+: whole.messages ∧
      (s!"Unknown field \"{joinPath level.path name}\"." ∈ level.messagesOf (name, value) ↔
        Record.get? level.schema name = none ∧ name ∉ reservedNames) ∧
      (Record.get? level.schema name = none → name ∈ reservedNames →
        level.messagesOf (name, value) =
          [s!"Field \"{joinPath level.path name}\" must be a undefined, got {value.type.text}."])) ∧
    ∀ message ∈ whole.messages, ∃ level, whole.Leads level ∧ level.Reports message := by
  refine ⟨?_, ?_⟩
  · intro level hleads name value hentry
    have hpart : level.findingsOf (name, value) <:+: whole.findings :=
      (Level.findingsOf_isInfix hentry).trans hleads.findings_isInfix
    exact ⟨hpart.map _, Level.unknown_mem_messagesOf_iff value,
      fun hfield hname => Level.messagesOf_reserved hfield hname value⟩
  · intro message hmessage
    obtain ⟨finding, hfinding, rfl⟩ := List.mem_map.mp hmessage
    obtain ⟨level, hleads, hrejects⟩ := Level.mem_findings_iff.mp hfinding
    exact ⟨level, hleads, hrejects.reports⟩

/-- A configuration with a profile that has names which are not declared: one is
not reserved, one is. -/
def undeclaredNames : Level where
  schema := configSchema
  path := ""
  node := none
  value := .map [("profiles", .map [("ci", .map [("depth", .atom .null), ("valueOf", .atom .null),
    ("trace", .atom (.string "x"))])])]

/-- Of the two names that are not declared, the first is reported as unknown and the second by a
type that it should have; the text for a boolean is reported at the same level. -/
theorem messages_by_level_undeclaredNames :
    ∃ ci, undeclaredNames.Leads ci ∧
      "Unknown field \"profiles.ci.depth\"." ∈ ci.messagesOf ("depth", .atom .null) ∧
      ci.messagesOf ("valueOf", .atom .null) =
        ["Field \"profiles.ci.valueOf\" must be a undefined, got null."] ∧
      ∃ level, undeclaredNames.Leads level ∧
        level.Reports "Field \"profiles.ci.trace\" must be a boolean, got string." := by
  obtain ⟨hentries, hmessages⟩ := messages_by_level undeclaredNames
  have hopens : undeclaredNames.Opens (undeclaredNames.inside "profiles" profileSchema
      ("ci", .map [("depth", .atom .null), ("valueOf", .atom .null),
        ("trace", .atom (.string "x"))])) :=
    .intro List.mem_cons_self rfl rfl rfl List.mem_cons_self
  have hleads := Relation.ReflTransGen.single hopens
  refine ⟨_, hleads, ?_, ?_, hmessages _ ?_⟩
  · exact (hentries _ hleads "depth" (.atom .null) List.mem_cons_self).2.1.mpr ⟨rfl, by decide⟩
  · exact (hentries _ hleads "valueOf" (.atom .null)
      (List.mem_cons_of_mem _ List.mem_cons_self)).2.2 rfl (by decide)
  · decide

/-- Whether a name is said to be unknown is not decided by the schema alone: that of a configuration
does not declare a reserved name, and yet it is reported by the type that it should have. -/
theorem reserved_name_is_not_unknown :
    ∃ level : Level, level.schema = configSchema ∧
      ("toString", .atom (.string "x")) ∈ level.value.entries ∧
      Record.get? configSchema "toString" = none ∧
      level.messages = ["Field \"toString\" must be a undefined, got string."] ∧
      "Unknown field \"toString\"." ∉ level.messages := by
  refine ⟨⟨configSchema, "", none, .map [("toString", .atom (.string "x"))]⟩, rfl,
    List.mem_cons_self, rfl, rfl, ?_⟩
  decide

end LineSum
