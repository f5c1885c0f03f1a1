import LineSum.Proofs.Config.Visits
import LineSum.Proofs.Yaml.Parts

/-!
# Which reports have a range

In a tree every node of which covers a stretch of text, a report has a range exactly if there is a
node for the map of fields in which the reported value stands. This is so for everything that is
reported of the whole. The map under an arbitrary key may have no node, as behind an alias, and then
what is rejected in it is reported without a range.
-/

namespace LineSum

open Yaml (Node)

namespace Yaml.Node

/-- Every node of the tree covers a stretch of text. -/
def HasSpans (root : Node) : Prop :=
  ∀ part, IsPart part root → part.span.isSome

/-- The node of an entry is a part of the map. -/
theorem isPart_of_child? {node child : Node} {name : String} (h : node.child? name = some child) :
    IsPart child node := by
  cases node with
  | map head isSet entries =>
    obtain ⟨⟨key, value?⟩, hfind, rfl⟩ := Option.map_eq_some_iff.mp h
    have hpair := List.mem_of_find?_eq_some hfind
    cases value? with
    | none => exact .key hpair .self
    | some value => exact .value hpair rfl .self
  | _ => cases h

section HasSpans

variable {head : Yaml.Head}

/-- A scalar has no parts but itself. -/
theorem hasSpans_scalar_iff {style : Yaml.Style} {source : String} {reading : Yaml.Reading} :
    (scalar head style source reading).HasSpans ↔ head.span.isSome := by
  constructor
  · intro h
    exact h _ .self
  · rintro hspan _ ⟨⟩
    exact hspan

/-- An alias has no parts but itself: what it stands for lies elsewhere. -/
theorem hasSpans_alias_iff {name : String} :
    (Node.alias head name).HasSpans ↔ head.span.isSome := by
  constructor
  · intro h
    exact h _ .self
  · rintro hspan _ ⟨⟩
    exact hspan

/-- The parts of a map are those of its keys and values. -/
theorem hasSpans_map_iff {isSet : Bool} {entries : List Yaml.NodePair} :
    (map head isSet entries).HasSpans ↔ head.span.isSome ∧
      ∀ pair ∈ entries, pair.1.HasSpans ∧ ∀ value, pair.2 = some value → value.HasSpans := by
  constructor
  · intro h
    refine ⟨h _ .self, fun pair hpair => ⟨?_, ?_⟩⟩
    · intro part hpart
      exact h part (.key hpair hpart)
    · intro value hvalue part hpart
      exact h part (.value hpair hvalue hpart)
  · rintro ⟨hspan, hentries⟩ part hpart
    cases hpart with
    | self => exact hspan
    | key hpair hpart => exact (hentries _ hpair).1 part hpart
    | value hpair hvalue hpart => exact (hentries _ hpair).2 _ hvalue part hpart

end HasSpans

end Yaml.Node

/-! ## Nodes under names -/

section Nodes

variable {root node : Node} {names : List String}

/-- The node to which names lead is a part of the tree. -/
theorem isPart_of_nodeUnder (h : nodeUnder (some root) names = some node) :
    Node.IsPart node root := by
  induction names using List.reverseRecOn generalizing node with
  | nil =>
    cases h
    exact .self
  | append_singleton names name ih =>
    rw [nodeUnder_concat] at h
    obtain ⟨parent, hparent, hchild⟩ := Option.bind_eq_some_iff.mp h
    exact (Node.isPart_of_child? hchild).trans (ih hparent)

/-- Where names lead to a node, all but the last of them do. -/
theorem nodeUnder_dropLast_isSome {root : Option Node} (h : (nodeUnder root names).isSome) :
    (nodeUnder root names.dropLast).isSome := by
  rcases List.eq_nil_or_concat' names with rfl | ⟨first, name, rfl⟩
  · exact h
  · rw [nodeUnder_concat] at h
    rw [List.dropLast_concat]
    exact Option.isSome_of_isSome_bind h

/-- In a tree of nodes with spans, a node to which names lead covers a stretch of text. -/
theorem Yaml.Node.HasSpans.exists_span (hspans : root.HasSpans)
    (h : nodeUnder (some root) names = some node) : ∃ span, node.span = some span :=
  Option.isSome_iff_exists.mp (hspans node (isPart_of_nodeUnder h))

/-- There is a place for a report exactly if there is a node for the map of fields in question. -/
theorem Visit.place_isSome_iff (visit : Visit) (root : Option Node) :
    (visit.place root).isSome ↔ (nodeUnder root visit.container).isSome := by
  obtain ⟨names, demand, value⟩ := visit
  unfold place
  rw [Option.isSome_or, Bool.or_eq_true]
  cases demand with
  | layer => exact or_self_iff
  | field lookup => exact or_iff_right_of_imp nodeUnder_dropLast_isSome

end Nodes

/-! ## Ranges -/

/-- The range of a report is that of the node at its place. -/
theorem range_of_finding {file : String} {starts : LineStarts} {problem : FieldProblem}
    {place : Option Node} :
    (Finding.diagnostic file starts ⟨problem, place⟩).range =
      (place.bind Node.span).map starts.range :=
  rfl

/-- What goes for the members of two lists that belong together goes for all of the one exactly if
it goes for all of the other. -/
theorem forall_mem_iff_of_forall₂ {α β : Type} {p : α → Prop} {q : β → Prop} {l : List α}
    {l' : List β} (h : List.Forall₂ (fun a b => p a ↔ q b) l l') :
    (∀ a ∈ l, p a) ↔ ∀ b ∈ l', q b := by
  induction h with
  | nil => simp
  | cons hfirst _ ih => rw [List.forall_mem_cons, List.forall_mem_cons, hfirst, ih]

/-- On a tree of nodes with spans, the report of a visit has a range exactly if there is a node for
the map of fields in question. -/
theorem range_isSome_iff {root : Node} (hspans : root.HasSpans) {visit : Visit} {file : String}
    {starts : LineStarts} {problem : FieldProblem} :
    (Finding.diagnostic file starts ⟨problem, visit.place (some root)⟩).range.isSome ↔
      (nodeUnder (some root) visit.container).isSome := by
  rw [range_of_finding, Option.isSome_map, ← Visit.place_isSome_iff]
  constructor
  · exact Option.isSome_of_isSome_bind
  · intro hplace
    obtain ⟨node, hnode⟩ := Option.isSome_iff_exists.mp hplace
    -- Either the names of the visit or those of the map around it lead to the node.
    have hunder : ∃ names, nodeUnder (some root) names = some node := by
      rcases Option.or_eq_some_iff.mp hnode with hvalue | ⟨-, hcontainer⟩
      · exact ⟨_, hvalue⟩
      · exact ⟨_, hcontainer⟩
    obtain ⟨names, hnames⟩ := hunder
    obtain ⟨span, hspan⟩ := hspans.exists_span hnames
    rw [hnode, Option.bind_some, hspan]
    rfl

/-- The map of fields of what is visited at most one name further in is the whole. -/
theorem container_eq_nil {schema : Schema} {value : Value} {visit : Visit}
    (h : visit ∈ visitsOf schema [] value) (hnames : visit.names.length ≤ 1) :
    visit.container = [] := by
  obtain ⟨hplace, -⟩ := places_of_mem_visitsOf .whole h
  have hlength : visit.container.length ≤ visit.names.length := by
    unfold Visit.container
    split
    · exact le_rfl
    · rw [List.length_dropLast]
      exact Nat.sub_le _ _
  generalize visit.container = container at hplace hlength
  cases hplace with
  | whole => rfl
  | inside names name key =>
    simp only [List.length_append, List.length_singleton] at hlength
    omega

/-- **Where reports point.** In a tree of nodes with spans, a report points to the node of the
rejected value, or else to that of the map of fields in which it stands. So it has a range exactly
if this map has a node, and what is reported of the whole or of its entries always has one. All
reports have a range exactly if every map in which something is rejected has a node. -/
theorem ranges_of_reports (schema : Schema) (path : String) {root : Node} (hspans : root.HasSpans)
    (value : Value) (file : String) (starts : LineStarts) :
    let rejected := rejectedVisits schema path value
    let reports := reportsOf schema path (some root) value file starts
    List.Forall₂ (fun visit d =>
        (∀ node, nodeUnder (some root) visit.names = some node →
          d.range = node.span.map starts.range) ∧
        (∀ node, nodeUnder (some root) visit.names = none →
          nodeUnder (some root) visit.container = some node →
            d.range = node.span.map starts.range) ∧
        (d.range.isSome ↔ (nodeUnder (some root) visit.container).isSome) ∧
        (visit.names.length ≤ 1 → d.range.isSome)) rejected reports ∧
      ((∀ d ∈ reports, d.range.isSome) ↔
        ∀ visit ∈ rejected, (nodeUnder (some root) visit.container).isSome) := by
  intro rejected reports
  constructor
  · refine forall₂_rejectedVisits fun visit hvisit problem _ =>
      ⟨?_, ?_, range_isSome_iff hspans, ?_⟩
    · intro node hnode
      rw [range_of_finding, Visit.place, hnode]
      rfl
    · intro node hnone hnode
      rw [range_of_finding, Visit.place, hnone, hnode]
      rfl
    · intro hnames
      rw [range_isSome_iff hspans, container_eq_nil hvisit hnames]
      rfl
  · symm
    refine forall_mem_iff_of_forall₂ ?_
    exact forall₂_rejectedVisits fun visit _ problem _ => (range_isSome_iff hspans).symm

/-! ## Behind an alias -/

section Alias

/-- A string on one line, written as it is. -/
def plainNode (first last : Nat) (source : String) : Node :=
  .scalar (.atSpan (some ⟨first, last⟩)) .plain source (.of (.atom (.string source)))

/-- Such a string is the name that it is written as. -/
@[simp] theorem name?_plainNode (first last : Nat) (source : String) :
    (plainNode first last source).name? = some source :=
  rfl

/-- Such a string has a span. -/
@[simp] theorem hasSpans_plainNode (first last : Nat) (source : String) :
    (plainNode first last source).HasSpans :=
  Node.hasSpans_scalar_iff.mpr rfl

/-- A document whose profiles are an alias of a map that stands under another name. -/
def aliasedProfiles : Node :=
  .map (.atSpan (some ⟨0, 41⟩)) false
    [(plainNode 0 4 "base", some <|
      .map { Yaml.Head.atSpan (some ⟨11, 28⟩) with anchor := some ⟨"b", 6⟩ } false
        [(plainNode 11 13 "ci", some <|
          .map (.atSpan (some ⟨19, 28⟩)) false
            [(plainNode 19 24 "depth", some (plainNode 26 27 "x"))])]),
    (plainNode 28 36 "profiles", some (.alias (.atSpan (some ⟨38, 40⟩)) "b"))]

/-- What the document says: the same under both names. -/
def aliasedValue : Value :=
  .map [("base", .map [("ci", .map [("depth", .atom (.string "x"))])]),
    ("profiles", .map [("ci", .map [("depth", .atom (.string "x"))])])]

/-- What is reported of the document. -/
def aliasedReports : List Diagnostic :=
  reportsOf configSchema "" (some aliasedProfiles) aliasedValue "cfg.yml" [0, 9, 15, 28, 41]

/-- Every node of the document covers a stretch of text. -/
theorem hasSpans_aliasedProfiles : aliasedProfiles.HasSpans := by
  simp [aliasedProfiles, Node.hasSpans_map_iff, Node.hasSpans_alias_iff, Yaml.Head.atSpan]

/-- What is rejected behind the alias is reported without a range. -/
theorem ranges_of_aliasedReports : aliasedReports.map (fun d => (d.message, d.range)) =
    [("Unknown field \"base\".", some ⟨⟨2, 3, 11⟩, ⟨4, 1, 28⟩⟩),
      ("Unknown field \"profiles.ci.depth\".", none)] := by
  decide +kernel

/-- So one of the reports has no range. -/
theorem exists_aliasedReport_without_range : ∃ d ∈ aliasedReports, d.range = none := by
  have hmem : ("Unknown field \"profiles.ci.depth\".", none) ∈
      aliasedReports.map fun d => (d.message, d.range) := by
    rw [ranges_of_aliasedReports]
    exact List.mem_cons_of_mem _ (List.mem_singleton_self _)
  obtain ⟨d, hd, heq⟩ := List.mem_map.mp hmem
  exact ⟨d, hd, congrArg Prod.snd heq⟩

/-- Some map in which something is rejected there has no node. -/
theorem ranges_of_reports_aliased : aliasedProfiles.HasSpans ∧
    ¬ ∀ visit ∈ rejectedVisits configSchema "" aliasedValue,
      (nodeUnder (some aliasedProfiles) visit.container).isSome := by
  obtain ⟨-, hall⟩ :=
    ranges_of_reports configSchema "" hasSpans_aliasedProfiles aliasedValue "cfg.yml"
    [0, 9, 15, 28, 41]
  refine ⟨hasSpans_aliasedProfiles, ?_⟩
  rw [← hall]
  intro hranges
  obtain ⟨d, hd, hnone⟩ := exists_aliasedReport_without_range
  have hsome := hranges d hd
  rw [hnone] at hsome
  cases hsome

/-- Not every report has a range where every node covers a stretch of text. -/
theorem not_all_reports_have_ranges :
    ¬ ∀ (schema : Schema) (root : Node) (value : Value) (file : String) (starts : LineStarts),
    root.HasSpans →
      ∀ d ∈ reportsOf schema "" (some root) value file starts, d.range.isSome := by
  intro h
  obtain ⟨d, hd, hnone⟩ := exists_aliasedReport_without_range
  have hsome := h configSchema aliasedProfiles aliasedValue "cfg.yml" [0, 9, 15, 28, 41]
    hasSpans_aliasedProfiles d hd
  rw [hnone] at hsome
  cases hsome

end Alias

end LineSum
