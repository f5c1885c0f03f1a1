import LineSum.Proofs.Config.Ranges
import LineSum.Proofs.Source.Coordinates

/-!
# Reports on a tree that mirrors the value

A tree of nodes mirrors a value if each map in the value has a node with one pair for each of its
entries, in any order, and the nodes of the values mirror them in turn. What is visited in the value
then has exactly one node under its names, and this is the one to which a report about it points.
-/

namespace LineSum

open Yaml (Node NodePair)

/-! ## Trees that mirror values -/

/-- The node mirrors the value. What is no map can be mirrored by every node, and
null by none at all. -/
inductive Mirrors : Value → Node → Prop
  | plain {value : Value} {node : Node} (hvalue : ∀ entries, value ≠ .map entries) :
      Mirrors value node
  | map {entries : List (String × Value)} {head : Yaml.Head} {isSet : Bool} {pairs : List NodePair}
    (hnames : (entries.map Prod.fst).Nodup)
    (hkeys : (pairs.map (·.1.name?)).Perm (entries.map (some ·.1)))
    (hnodes : ∀ entry ∈ entries, ∀ pair ∈ pairs, pair.1.name? = some entry.1 →
      ∀ node, pair.2 = some node → Mirrors entry.2 node)
    (hnone : ∀ entry ∈ entries, ∀ pair ∈ pairs, pair.1.name? = some entry.1 →
      pair.2 = none → entry.2.type = .null) :
    Mirrors (.map entries) (.map head isSet pairs)

/-- The node that stands under names in a tree. Where a pair has no value, its key stands for it. -/
inductive NodeAt : Node → List String → Node → Prop
  | whole (node : Node) : NodeAt node [] node
  | value {head : Yaml.Head} {isSet : Bool} {pairs : List NodePair} {key node target : Node}
      {name : String}
    {names : List String} (hpair : (key, some node) ∈ pairs) (hname : key.name? = some name)
    (h : NodeAt node names target) : NodeAt (.map head isSet pairs) (name :: names) target
  | key {head : Yaml.Head} {isSet : Bool} {pairs : List NodePair} {key : Node} {name : String}
    (hpair : (key, none) ∈ pairs) (hname : key.name? = some name) :
    NodeAt (.map head isSet pairs) [name] key

/-- The node of an entry is that of its pair, if there is only one of its name. -/
theorem child?_of_unique {head : Yaml.Head} {isSet : Bool} {pairs : List NodePair} {pair : NodePair}
    {name : String} (hpair : pair ∈ pairs) (hname : pair.1.name? = some name)
    (hunique : ∀ other ∈ pairs, other.1.name? = some name → other = pair) :
    (Node.map head isSet pairs).child? name = some (pair.2.getD pair.1) := by
  have hfind : (pairs.find? fun pair => pair.1.name? = some name) = some pair := by
    have hsome : (pairs.find? fun pair => pair.1.name? = some name).isSome :=
      List.find?_isSome.mpr ⟨pair, hpair, decide_eq_true hname⟩
    obtain ⟨found, hfound⟩ := Option.isSome_iff_exists.mp hsome
    have hfoundName : found.1.name? = some name := by
      simpa using List.find?_some hfound
    rw [hfound, hunique found (List.mem_of_find?_eq_some hfound) hfoundName]
  exact congrArg (Option.map fun pair => pair.2.getD pair.1) hfind

/-- In a tree that mirrors a map, each entry has one pair, and the value of the pair mirrors that of
the entry or is left out for null. -/
theorem Mirrors.exists_pair {entries : List (String × Value)} {root : Node}
    (h : Mirrors (.map entries) root) {entry : String × Value} (hentry : entry ∈ entries) :
    ∃ head isSet pairs pair, root = .map head isSet pairs ∧ pair ∈ pairs ∧
      pair.1.name? = some entry.1 ∧
      (∀ other ∈ pairs, other.1.name? = some entry.1 → other = pair) ∧
      (∀ node, pair.2 = some node → Mirrors entry.2 node) ∧
      (pair.2 = none → entry.2.type = .null) := by
  cases h with
  | plain hvalue => exact absurd rfl (hvalue entries)
  | @map _ head isSet pairs hnames hkeys hnodes hnone =>
    have hkey : some entry.1 ∈ pairs.map (·.1.name?) :=
      hkeys.mem_iff.mpr (List.mem_map.mpr ⟨entry, hentry, rfl⟩)
    obtain ⟨pair, hpair, hname⟩ := List.mem_map.mp hkey
    -- The names of the entries are distinct, so those of the pairs are.
    have hnodup : (pairs.map (·.1.name?)).Nodup := by
      refine hkeys.nodup_iff.mpr ?_
      have hsome := hnames.map (Option.some_injective String)
      rwa [List.map_map] at hsome
    have hunique : ∀ other ∈ pairs, other.1.name? = some entry.1 → other = pair := by
      intro other hother heq
      exact List.inj_on_of_nodup_map hnodup hother hpair (heq.trans hname.symm)
    exact ⟨head, isSet, pairs, pair, rfl, hpair, hname, hunique,
      hnodes entry hentry pair hpair hname,
      hnone entry hentry pair hpair hname⟩

/-- In null there is nothing. -/
theorem ValueAt.names_eq_nil {value inner : Value} {names : List String}
    (h : ValueAt value names inner) (hnull : value.type = .null) : names = [] := by
  cases h with
  | whole _ => rfl
  | inside _ _ => cases hnull

/-- Names lead on from the node of an entry. -/
theorem nodeUnder_cons {root child : Node} {name : String} (h : root.child? name = some child)
    (names : List String) :
    nodeUnder (some root) (name :: names) = nodeUnder (some child) names := by
  unfold nodeUnder
  rw [List.foldl_cons, entryNode, Option.bind_some, h]

/-- **What stands in a mirrored value has one node under its names**, and the names lead to it. -/
theorem Mirrors.exists_nodeAt {value inner : Value} {names : List String}
    (hvalue : ValueAt value names inner) {root : Node} (h : Mirrors value root) :
    ∃ node, nodeUnder (some root) names = some node ∧ NodeAt root names node ∧
      ∀ other, NodeAt root names other → other = node := by
  -- The induction follows the names into the value, and the tree goes along.
  induction hvalue generalizing root with
  | whole value =>
    refine ⟨root, rfl, .whole root, ?_⟩
    rintro other ⟨⟩
    rfl
  | @inside entries entry names inner hentry hinside ih =>
    obtain ⟨head, isSet, pairs, ⟨key, node?⟩, rfl, hpair, hname, hunique, hnode, hnull⟩ :=
      h.exists_pair hentry
    have hchild : (Node.map head isSet pairs).child? entry.1 = some (node?.getD key) :=
      child?_of_unique hpair hname hunique
    cases node? with
    | some node =>
      obtain ⟨target, htarget, hat, honly⟩ := ih (hnode node rfl)
      refine ⟨target, ?_, .value hpair hname hat, ?_⟩
      · rw [nodeUnder_cons hchild]
        exact htarget
      · intro other hother
        cases hother with
        | value hpair' hname' hother =>
          cases hunique _ hpair' hname'
          exact honly other hother
        | key hpair' hname' => cases hunique _ hpair' hname'
    | none =>
      -- The value is null, so the names end here.
      obtain rfl := hinside.names_eq_nil (hnull rfl)
      refine ⟨key, ?_, .key hpair hname, ?_⟩
      · rw [nodeUnder_cons hchild]
        rfl
      · intro other hother
        cases hother with
        | value hpair' hname' _ => cases hunique _ hpair' hname'
        | key hpair' hname' =>
          cases hunique _ hpair' hname'
          rfl

/-! ## Reports -/

/-- **Each report points to the node of what is rejected.** On a tree of nodes with spans that
mirrors the value, the reports belong to the rejected visits, in their order. Each is a warning that
names the problem of its visit, and its range is that of the one node that stands under the names of
the visit: it goes from the offset at which the node begins to the one at which it ends, with the
lines and columns of these. -/
theorem reports_point_to_nodes (schema : Schema) (path : String) {value : Value} {root : Node}
    (hmirrors : Mirrors value root) (hspans : root.HasSpans) (file : String) (starts : LineStarts) :
    List.Forall₂ (fun visit d => ValueAt value visit.names visit.value ∧
        (∃ problem, visit.problem? path = some problem ∧ d.message = problem.message) ∧
        (d.code = .configInvalidField ∧ d.severity = .warning ∧ d.file = file) ∧
        ∃ node span range, NodeAt root visit.names node ∧
          (∀ other, NodeAt root visit.names other → other = node) ∧
          node.span = some span ∧ d.range = some range ∧ range.Spans starts span)
      (rejectedVisits schema path value) (reportsOf schema path (some root) value file starts) := by
  refine forall₂_rejectedVisits fun visit hvisit problem hproblem => ?_
  obtain ⟨-, names, hnames, hvalue⟩ := places_of_mem_visitsOf .whole hvisit
  obtain rfl : visit.names = names := hnames
  obtain ⟨node, hnode, hat, honly⟩ := hmirrors.exists_nodeAt hvalue
  obtain ⟨span, hspan⟩ := hspans.exists_span hnode
  refine ⟨hvalue, ⟨problem, hproblem, rfl⟩, ⟨rfl, rfl, rfl⟩, node, span, starts.range span,
    hat, honly, hspan, ?_, starts.spans_range span⟩
  rw [range_of_finding, Visit.place, hnode, Option.some_or, Option.bind_some, hspan,
    Option.map_some]

/-! ## Profiles in another order -/

section Swapped

/-- Two profiles, the second of which has a number for its name, and a key that has no value. -/
def swappedText : String := "profiles:\n  b: x\n  \"1\":\n    trace: x\n? extra\n"

/-- A profile with a trace that is no truth value. -/
def tracedProfile : Node :=
  .map (.atSpan (some ⟨28, 37⟩)) false [(plainNode 28 33 "trace", some (plainNode 35 36 "x"))]

/-- The number in quotes. -/
def quotedDigit : Node :=
  .scalar (.atSpan (some ⟨19, 22⟩)) .doubleQuoted "1" (.of (.atom (.string "1")))

/-- The two profiles of the text. -/
def swappedProfiles : Node :=
  .map (.atSpan (some ⟨12, 37⟩)) false
    [(plainNode 12 13 "b", some (plainNode 15 16 "x")), (quotedDigit, some tracedProfile)]

/-- The document of the text. -/
def swappedDocument : Node :=
  .map (.atSpan (some ⟨0, 45⟩)) false
    [(plainNode 0 8 "profiles", some swappedProfiles), (plainNode 39 44 "extra", none)]

/-- What the document says: of the names of profiles, the number comes first. -/
def swappedValue : Value :=
  .map [("profiles",
      .map [("1", .map [("trace", .atom (.string "x"))]), ("b", .atom (.string "x"))]),
    ("extra", .atom .null)]

/-- The document mirrors what it says. -/
theorem mirrors_swapped : Mirrors swappedValue swappedDocument := by
  have hname : quotedDigit.name? = some "1" := rfl
  have htraced : Mirrors (.map [("trace", .atom (.string "x"))]) tracedProfile :=
    .map (by decide) (by decide) (by simp [Mirrors.plain]) (by simp)
  have hprofiles : Mirrors
      (.map [("1", .map [("trace", .atom (.string "x"))]), ("b", .atom (.string "x"))])
        swappedProfiles :=
    .map (by decide) (by decide) (by simp [hname, htraced, Mirrors.plain]) (by simp)
  exact .map (by decide) (by decide) (by simp [hprofiles]) (by simp [Value.type])

/-- Every node of the document covers a stretch of text. -/
theorem hasSpans_swappedDocument : swappedDocument.HasSpans := by
  simp [swappedDocument, swappedProfiles, tracedProfile, quotedDigit, Node.hasSpans_map_iff,
    Node.hasSpans_scalar_iff, Yaml.Head.atSpan]

/-- The lexemes of the text. -/
theorem lexemes_swappedText : Yaml.Lexeme.ofText swappedText.toList =
    [.documentMark, .scalar "profiles".toList, .text [':'], .text ['\n'], .text [' ', ' '],
      .scalar ['b'], .text [':'], .text [' '], .scalar ['x'], .text ['\n'], .text [' ', ' '],
      .text ['\x22', '1', '\x22'], .text [':'], .text ['\n'], .text [' ', ' ', ' ', ' '],
      .scalar "trace".toList, .text [':'], .text [' '], .scalar ['x'], .text ['\n'], .text ['?'],
      .text [' '], .scalar "extra".toList, .text ['\n']] := by
  cbv

/-- The lines of the document start where those of its text do. -/
theorem starts_swappedText : (Yaml.Document.ofText swappedText.toList).starts =
    LineStarts.ofText unitSize swappedText.toList := by
  unfold Yaml.Document.ofText Yaml.Nest.ofText
  dsimp only
  rw [lexemes_swappedText]
  decide +kernel

/-- Three values are rejected, and each report has the range of its own node: that of the trace, in
the order of the names, comes before that of the profile above it. -/
theorem reports_point_to_swapped_nodes :
    let starts := LineStarts.ofText unitSize swappedText.toList
    let reports := reportsOf configSchema "" (some swappedDocument) swappedValue "cfg.yml" starts
    (Yaml.Document.ofText swappedText.toList).starts = starts ∧
    Mirrors swappedValue swappedDocument ∧ swappedDocument.HasSpans ∧ starts.BeginsOnce ∧
    (rejectedVisits configSchema "" swappedValue).map Visit.names =
      [["profiles", "1", "trace"], ["profiles", "b"], ["extra"]] ∧
    reports =
      [⟨.configInvalidField, "Field \"profiles.1.trace\" must be a boolean, got string.", .warning,
          "cfg.yml", some ⟨⟨4, 12, 35⟩, ⟨4, 13, 36⟩⟩, none⟩,
        ⟨.configInvalidField, "\"profiles.b\" must be a map.", .warning, "cfg.yml",
          some ⟨⟨2, 6, 15⟩, ⟨2, 7, 16⟩⟩, none⟩,
        ⟨.configInvalidField, "Unknown field \"extra\".", .warning, "cfg.yml",
          some ⟨⟨5, 3, 39⟩, ⟨5, 8, 44⟩⟩, none⟩] ∧
    List.Forall₂ (fun visit d => ∃ node span range, NodeAt swappedDocument visit.names node ∧
        node.span = some span ∧ d.range = some range ∧ range.Spans starts span)
      (rejectedVisits configSchema "" swappedValue) reports := by
  intro starts reports
  refine ⟨starts_swappedText, mirrors_swapped, hasSpans_swappedDocument,
    LineStarts.beginsOnce_ofText _, by decide +kernel, by decide +kernel, ?_⟩
  refine (reports_point_to_nodes configSchema "" mirrors_swapped hasSpans_swappedDocument "cfg.yml"
    starts).imp ?_
  rintro visit d ⟨-, -, -, node, span, range, hat, -, hspan, hrange, hspans⟩
  exact ⟨node, span, range, hat, hspan, hrange, hspans⟩

end Swapped

end LineSum
