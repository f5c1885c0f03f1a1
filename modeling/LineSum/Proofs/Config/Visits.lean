import LineSum.Proofs.Config.Checking

/-!
# What is visited

Checking visits the entries of a map in the order in which they are listed. An entry whose values
are checked in turn comes first, and then what is visited inside it. Each visit has its place, which
is the list of the names that lead there from the whole, and this place alone decides what a report
about it names and to which node it points. What is reported are the visits that are rejected, in
this order.
-/

namespace LineSum

open Yaml (Node)

/-! ## Places -/

/-- The node to which names lead from another one, if there is one. -/
def nodeUnder (root : Option Node) (names : List String) : Option Node :=
  names.foldl entryNode root

/-- One name more leads to the node of an entry. -/
theorem nodeUnder_concat (root : Option Node) (names : List String) (name : String) :
    nodeUnder root (names ++ [name]) = entryNode (nodeUnder root names) name :=
  List.foldl_concat _ _ _ _

/-- The text that names lead to from a path. -/
def shownPath (path : String) : List String → String
  | [] => path
  | name :: names => names.foldl (fun shown name => s!"{shown}.{name}") (joinPath path name)

/-- Behind other names, a name is shown behind a point. -/
theorem shownPath_concat {names : List String} (h : names ≠ []) (path name : String) :
    shownPath path (names ++ [name]) = s!"{shownPath path names}.{name}" := by
  obtain ⟨first, rest, rfl⟩ := List.exists_cons_of_ne_nil h
  exact List.foldl_concat _ _ _ _

/-- The names lead to a place where a map of fields stands: either the whole, or a value in a map
that stands under a name. -/
inductive IsLayerPlace : List String → Prop
  | whole : IsLayerPlace []
  | inside (names : List String) (name key : String) : IsLayerPlace (names ++ [name] ++ [key])

/-- The path of a field goes on from that of the map of fields. -/
theorem joinPath_shownPath {names : List String} (h : IsLayerPlace names) (path field : String) :
    joinPath (shownPath path names) field = shownPath path (names ++ [field]) := by
  cases h with
  | whole => rfl
  | inside names name key =>
    have hpath : shownPath path (names ++ [name] ++ [key]) =
        s!"{shownPath path (names ++ [name])}.{key}" := shownPath_concat (by simp) path key
    -- There is a point in this path, so it is not the empty one of the whole.
    have hne : (shownPath path (names ++ [name] ++ [key])).isEmpty = false := by
      rw [hpath, Bool.eq_false_iff, Ne, String.isEmpty_iff]
      intro hempty
      have hlength := congrArg String.length hempty
      have hdot : ".".length = 1 := rfl
      simp only [String.length_append, String.length_empty, toString] at hlength
      omega
    have hnext : shownPath path (names ++ [name] ++ [key] ++ [field]) =
        s!"{shownPath path (names ++ [name] ++ [key])}.{field}" :=
      shownPath_concat (by simp) path field
    rw [hnext, joinPath, hne]
    rfl

/-! ## Visits -/

/-- What is asked of a value: to be a map of fields, or what a schema says of its name. -/
inductive Demand where
  | layer
  | field (lookup : Lookup)

/-- A value that is visited, what is asked of it, and the names that lead to it. -/
structure Visit where
  names : List String
  demand : Demand
  value : Value

/-- What is wrong with a value at a path, if anything is, by what a schema says of its name. -/
def Lookup.problem? (lookup : Lookup) (path : String) (value : Value) : Option FieldProblem :=
  match lookup with
  | .unknown => some (.unknown path)
  | .reserved => some (.reserved path value.type)
  | .declared field => (field.mismatch? value).map (.mismatch path)

/-- The schema of the values of a map that conforms to the field of a name, if they
are checked in turn. -/
def Lookup.inner? (lookup : Lookup) (value : Value) : Option Schema :=
  match lookup with
  | .declared field => if (field.mismatch? value).isNone then field.entries else none
  | _ => none

namespace Visit

/-- What is wrong with the value, if anything is. -/
def problem? (path : String) (visit : Visit) : Option FieldProblem :=
  match visit.demand with
  | .layer => if visit.value.isLayer then none else some (.notMap (shownPath path visit.names))
  | .field lookup => lookup.problem? (shownPath path visit.names) visit.value

/-- The names that lead to the map of fields which is visited: a field stands in one. -/
def container (visit : Visit) : List String :=
  match visit.demand with
  | .layer => visit.names
  | .field _ => visit.names.dropLast

/-- The node to which a report points: that of the value, or else that of the
map in which it stands. -/
def place (root : Option Node) (visit : Visit) : Option Node :=
  (nodeUnder root visit.names).or (nodeUnder root visit.container)

/-- The report about the value, if anything is wrong with it. -/
def finding? (path : String) (root : Option Node) (visit : Visit) : Option Finding :=
  (visit.problem? path).map (⟨·, visit.place root⟩)

end Visit

mutual

/-- What is visited of a value that should be a map of fields. -/
def visitsOf (schema : Schema) (names : List String) : Value → List Visit
  | .map entries => fieldVisits schema names entries
  | value => [⟨names, .layer, value⟩]

/-- What is visited of the entries of a map of fields: each of them, and then what is inside it. -/
def fieldVisits (schema : Schema) (names : List String) : List (String × Value) → List Visit
  | [] => []
  | (name, value) :: rest =>
    ⟨names ++ [name], .field (schema.lookup name), value⟩ ::
      (visitsInside ((schema.lookup name).inner? value) (names ++ [name]) value ++
        fieldVisits schema names rest)

/-- What is visited inside the value of a field. -/
def visitsInside (inner : Option Schema) (names : List String) : Value → List Visit
  | .map entries =>
    match inner with
    | some schema => layerVisits schema names entries
    | none => []
  | _ => []

/-- What is visited of values under arbitrary keys, each of which should be a map of fields. -/
def layerVisits (schema : Schema) (names : List String) : List (String × Value) → List Visit
  | [] => []
  | (key, value) :: rest =>
    visitsOf schema (names ++ [key]) value ++ layerVisits schema names rest

end

section Visits

variable (schema : Schema) (names : List String)

/-- What is visited of one entry of a map of fields. -/
def entryVisits (entry : String × Value) : List Visit :=
  ⟨names ++ [entry.1], .field (schema.lookup entry.1), entry.2⟩ ::
    visitsInside ((schema.lookup entry.1).inner? entry.2) (names ++ [entry.1]) entry.2

/-- The entries of a map of fields are visited one by one. -/
theorem fieldVisits_eq_flatMap (entries : List (String × Value)) :
    fieldVisits schema names entries = entries.flatMap (entryVisits schema names) := by
  induction entries with
  | nil => rw [fieldVisits, List.flatMap_nil]
  | cons entry rest ih => rw [fieldVisits, ih, List.flatMap_cons, entryVisits, List.cons_append]

/-- Values under arbitrary keys are visited one by one. -/
theorem layerVisits_eq_flatMap (entries : List (String × Value)) :
    layerVisits schema names entries =
      entries.flatMap fun entry => visitsOf schema (names ++ [entry.1]) entry.2 := by
  induction entries with
  | nil => rw [layerVisits, List.flatMap_nil]
  | cons entry rest ih => rw [layerVisits, ih, List.flatMap_cons]

variable {schema names}

/-- A field is reported by its path and its node, or else by the node of the
map in which it stands. -/
theorem finding?_field (hplace : IsLayerPlace names) (path : String) (root : Option Node)
    (lookup : Lookup) (name : String) (value : Value) :
    (Visit.mk (names ++ [name]) (.field lookup) value).finding? path root =
      (lookup.problem? (joinPath (shownPath path names) name) value).map
        (⟨·, entryPlace (nodeUnder root names) name⟩) := by
  rw [joinPath_shownPath hplace]
  unfold Visit.finding? Visit.problem? Visit.place Visit.container entryPlace
  dsimp only
  rw [nodeUnder_concat, List.dropLast_concat]

/-- What should be a map of fields is reported by its path and its node. -/
theorem finding?_layer (path : String) (root : Option Node) (value : Value) :
    (Visit.mk names .layer value).finding? path root =
      if value.isLayer then none
      else some ⟨.notMap (shownPath path names), nodeUnder root names⟩ := by
  unfold Visit.finding? Visit.problem? Visit.place Visit.container
  cases hlayer : value.isLayer with
  | true => simp
  | false => simp

/-- Nothing is visited inside a value unless its values are checked in turn. -/
theorem visitsInside_eq_nil {inner : Option Schema} {value : Value}
    (h : ∀ schema entries, inner = some schema → value ≠ .map entries) (names : List String) :
    visitsInside inner names value = [] := by
  cases value with
  | map entries =>
    cases inner with
    | none => rw [visitsInside]
    | some schema => exact absurd rfl (h schema entries rfl)
  | _ =>
    rw [visitsInside]
    exact fun _ => Value.noConfusion

/-- What is reported of an entry is what is rejected of its visits, if this is so
of what is inside it. -/
theorem findings_entry (hplace : IsLayerPlace names) (path : String) (root : Option Node)
    (name : String) (value : Value)
    (hinside : ∀ inner entries, value = .map entries → ∀ entry ∈ entries,
      (checkMap inner (shownPath path (names ++ [name] ++ [entry.1]))
          (nodeUnder root (names ++ [name] ++ [entry.1])) entry.2).2 =
        (visitsOf inner (names ++ [name] ++ [entry.1]) entry.2).filterMap
          (Visit.finding? path root)) :
    (checkEntry schema (shownPath path names) (nodeUnder root names) (name, value)).2 =
      (entryVisits schema names (name, value)).filterMap (Visit.finding? path root) := by
  have hchecks := checksEntry schema (shownPath path names) (nodeUnder root names) (name, value)
  generalize checkEntry schema (shownPath path names) (nodeUnder root names) (name, value) = checked
    at hchecks ⊢
  unfold entryVisits
  rw [List.filterMap_cons, finding?_field hplace]
  dsimp only
  cases hchecks with
  | unknown hfield =>
    rw [hfield, visitsInside_eq_nil (by simp [Lookup.inner?])]
    rfl
  | reserved hfield =>
    rw [hfield, visitsInside_eq_nil (by simp [Lookup.inner?])]
    rfl
  | mismatch hfield hvalue =>
    rw [hfield, visitsInside_eq_nil (by simp [Lookup.inner?, hvalue])]
    simp [Lookup.problem?, hvalue]
  | @nested _ field inner entries hfield hvalue hinner =>
    -- The entry itself is not rejected, so there is only what is reported inside it.
    have hopens : (Lookup.declared field).inner? (.map entries) = some inner := by
      simp [Lookup.inner?, hvalue, hinner]
    have hnone : (Lookup.declared field).problem? (joinPath (shownPath path names) name)
        (.map entries) = none := by
      simp [Lookup.problem?, hvalue]
    rw [hfield, hopens, hnone, visitsInside, layerVisits_eq_flatMap, List.filterMap_flatMap,
      checkEntries_eq_flatMap, joinPath_shownPath hplace, ← nodeUnder_concat]
    refine List.flatMap_congr ?_
    rintro ⟨key, v⟩ hentry
    have hshown : shownPath path (names ++ [name] ++ [key]) =
        s!"{shownPath path (names ++ [name])}.{key}" := shownPath_concat (by simp) path key
    rw [← hinside inner entries rfl _ hentry]
    dsimp only
    rw [hshown, nodeUnder_concat root (names ++ [name])]
  | @whole _ _ field hfield hvalue hwhole =>
    have hstays : ∀ schema entries, (Lookup.declared field).inner? value = some schema →
        value ≠ .map entries := by
      intro schema entries hinner
      simp only [Lookup.inner?, hvalue, Option.isNone_none, if_true] at hinner
      exact hwhole schema entries hinner
    rw [hfield, visitsInside_eq_nil hstays]
    simp [Lookup.problem?, hvalue]

/-- What is reported at a place is what is rejected of the visits from there on. -/
theorem findings_at (path : String) (root : Option Node) (value : Value) {schema : Schema}
    {names : List String} (hplace : IsLayerPlace names) :
    (checkMap schema (shownPath path names) (nodeUnder root names) value).2 =
      (visitsOf schema names value).filterMap (Visit.finding? path root) := by
  -- From one map of fields to the next there are two names, that of an entry and an arbitrary key
  -- in it.
  induction value using Value.induction_of_inner generalizing schema names with
  | step value ih =>
    by_cases hmap : ∃ entries, value = .map entries
    · obtain ⟨entries, rfl⟩ := hmap
      rw [checkMap, checkFields_eq_flatMap, visitsOf, fieldVisits_eq_flatMap,
        List.filterMap_flatMap]
      refine List.flatMap_congr fun entry hentry => ?_
      obtain ⟨name, value⟩ := entry
      refine findings_entry hplace path root name value ?_
      rintro inner entries rfl ⟨key, v⟩ hmem
      exact ih name entries key v hentry hmem (.inside names name key)
    · rw [not_exists] at hmap
      have hvisits : visitsOf schema names value = [⟨names, .layer, value⟩] := by
        rw [visitsOf]
        exact hmap
      rw [checkMap_of_no_map _ _ _ hmap, hvisits]
      cases hlayer : value.isLayer with
      | true => simp [finding?_layer, hlayer]
      | false => simp [finding?_layer, hlayer]

end Visits

/-- **What is reported are the visits that are rejected, in the order in which they are made.** -/
theorem findings_eq_filterMap (schema : Schema) (path : String) (root : Option Node)
    (value : Value) :
    (checkMap schema path root value).2 =
      (visitsOf schema [] value).filterMap (Visit.finding? path root) :=
  findings_at path root value .whole

/-! ## What stands where -/

/-- The value that stands under names in another one. -/
inductive ValueAt : Value → List String → Value → Prop
  | whole (value : Value) : ValueAt value [] value
  | inside {entries : List (String × Value)} {entry : String × Value} {names : List String}
      {value : Value}
    (hentry : entry ∈ entries) (h : ValueAt entry.2 names value) :
    ValueAt (.map entries) (entry.1 :: names) value

/-- What is visited inside a value is visited from one of its own values on. -/
theorem exists_of_mem_visitsInside {inner? : Option Schema} {names : List String} {value : Value}
    {visit : Visit} (h : visit ∈ visitsInside inner? names value) :
    ∃ inner entries, value = .map entries ∧ ∃ entry ∈ entries,
      visit ∈ visitsOf inner (names ++ [entry.1]) entry.2 := by
  by_cases hopens : ∃ inner entries, inner? = some inner ∧ value = .map entries
  · obtain ⟨inner, entries, rfl, rfl⟩ := hopens
    rw [visitsInside, layerVisits_eq_flatMap, List.mem_flatMap] at h
    exact ⟨inner, entries, rfl, h⟩
  · have hnone : visitsInside inner? names value = [] :=
      visitsInside_eq_nil
        (fun inner entries hinner hvalue => hopens ⟨inner, entries, hinner, hvalue⟩) names
    rw [hnone] at h
    cases h

/-- What is visited is the value as a whole, or one of its entries, or is visited from a value in
such an entry on. -/
theorem cases_of_mem_visitsOf {schema : Schema} {names : List String} {value : Value}
    {visit : Visit} (h : visit ∈ visitsOf schema names value) :
    visit = ⟨names, .layer, value⟩ ∨ ∃ entries, value = .map entries ∧ ∃ entry ∈ entries,
      visit = ⟨names ++ [entry.1], .field (schema.lookup entry.1), entry.2⟩ ∨
      ∃ inner below, entry.2 = .map below ∧ ∃ under ∈ below,
        visit ∈ visitsOf inner (names ++ [entry.1] ++ [under.1]) under.2 := by
  by_cases hmap : ∃ entries, value = .map entries
  · obtain ⟨entries, rfl⟩ := hmap
    rw [visitsOf, fieldVisits_eq_flatMap, List.mem_flatMap] at h
    obtain ⟨entry, hentry, hvisit⟩ := h
    refine Or.inr ⟨entries, rfl, entry, hentry, ?_⟩
    rcases List.mem_cons.mp hvisit with hfield | hinside
    · exact Or.inl hfield
    · exact Or.inr (exists_of_mem_visitsInside hinside)
  · rw [not_exists] at hmap
    rw [visitsOf] at h
    · exact Or.inl (List.mem_singleton.mp h)
    · exact hmap

/-- What is visited from a place on stands there under its names, and the map of fields that is
visited, or in which the field stands, is at such a place too. -/
theorem places_of_mem_visitsOf {schema : Schema} {names : List String} {value : Value}
    {visit : Visit} (hplace : IsLayerPlace names) (h : visit ∈ visitsOf schema names value) :
    IsLayerPlace visit.container ∧
      ∃ further, visit.names = names ++ further ∧ ValueAt value further visit.value := by
  induction value using Value.induction_of_inner generalizing schema names with
  | step value ih =>
    rcases cases_of_mem_visitsOf h with rfl | ⟨entries, rfl, entry, hentry, hvisit⟩
    · exact ⟨hplace, [], (List.append_nil names).symm, .whole value⟩
    · rcases hvisit with rfl | ⟨inner, below, hbelow, under, hunder, hvisit⟩
      · refine ⟨?_, [entry.1], rfl, .inside hentry (.whole entry.2)⟩
        unfold Visit.container
        rwa [List.dropLast_concat]
      · obtain ⟨name, value⟩ := entry
        cases hbelow
        obtain ⟨hcontainer, further, hnames, hvalue⟩ :=
          ih name below under.1 under.2 hentry hunder (.inside names name under.1) hvisit
        refine ⟨hcontainer, name :: under.1 :: further, ?_, .inside hentry (.inside hunder hvalue)⟩
        rw [hnames]
        simp only [List.append_assoc, List.cons_append, List.nil_append]

/-! ## Reports -/

/-- The visits that are rejected, in the order in which they are made. -/
def rejectedVisits (schema : Schema) (path : String) (value : Value) : List Visit :=
  (visitsOf schema [] value).filter fun visit => (visit.problem? path).isSome

/-- The diagnostics that report a value in a file whose lines start at the given offsets. -/
def reportsOf (schema : Schema) (path : String) (root : Option Node) (value : Value) (file : String)
    (starts : LineStarts) : List Diagnostic :=
  (checkMap schema path root value).2.map (·.diagnostic file starts)

/-- What is kept of a list by a test and what is made of what is kept go together. -/
theorem forall₂_filter_filterMap {α β : Type} {R : α → β → Prop} {f : α → Option β} {l : List α}
    (h : ∀ a ∈ l, ∀ b, f a = some b → R a b) :
    List.Forall₂ R (l.filter fun a => (f a).isSome) (l.filterMap f) := by
  induction l with
  | nil => exact List.Forall₂.nil
  | cons a l ih =>
    rw [List.forall_mem_cons] at h
    obtain ⟨hfirst, hrest⟩ := h
    cases ha : f a with
    | none =>
      rw [List.filter_cons_of_neg (by simp [ha]), List.filterMap_cons_none ha]
      exact ih hrest
    | some b =>
      rw [List.filter_cons_of_pos (by simp [ha]), List.filterMap_cons_some ha]
      exact List.Forall₂.cons (hfirst b ha) (ih hrest)

/-- **The diagnostics belong to the rejected visits, one by one.** What holds of each rejected visit
and the report that its problem makes at its place, holds of the rejected visits and the diagnostics
in their order. -/
theorem forall₂_rejectedVisits {schema : Schema} {path : String} {root : Option Node}
    {value : Value} {file : String} {starts : LineStarts} {R : Visit → Diagnostic → Prop}
    (h : ∀ visit ∈ visitsOf schema [] value, ∀ problem, visit.problem? path = some problem →
      R visit (Finding.diagnostic file starts ⟨problem, visit.place root⟩)) :
    List.Forall₂ R (rejectedVisits schema path value)
      (reportsOf schema path root value file starts) := by
  have hrejected : rejectedVisits schema path value =
      (visitsOf schema [] value).filter fun visit => (visit.finding? path root).isSome := by
    simp [rejectedVisits, Visit.finding?]
  unfold reportsOf
  rw [hrejected, findings_eq_filterMap, List.forall₂_map_right_iff]
  refine forall₂_filter_filterMap ?_
  intro visit hvisit finding hfinding
  obtain ⟨problem, hproblem, rfl⟩ := Option.map_eq_some_iff.mp hfinding
  exact h visit hvisit problem hproblem

end LineSum
