import Mathlib.Order.Basic
import LineSum.Yaml.Node.Meaning

/-!
# The parts of a node

A node is a part of another one if it lies in it or is it. The parts of a node are no higher than
it, and the nodes with anchors in it are parts of it.
-/

namespace LineSum.Yaml.Node

/-- Whether the node is an alias. -/
def isAlias : Node → Bool
  | .alias _ _ => true
  | _ => false

/-- The first node is a part of the second one. -/
inductive IsPart (part : Node) : Node → Prop
  | self : IsPart part part
  | item {head : Head} {items : List Node} {item : Node} (hitem : item ∈ items)
    (h : IsPart part item) : IsPart part (.list head items)
  | pairKey {head : Head} {ordered : Bool} {items : List NodePair} {pair : NodePair}
    (hpair : pair ∈ items) (h : IsPart part pair.1) : IsPart part (.pairs head ordered items)
  | pairValue {head : Head} {ordered : Bool} {items : List NodePair} {pair : NodePair}
      {value : Node}
    (hpair : pair ∈ items) (hvalue : pair.2 = some value) (h : IsPart part value) :
    IsPart part (.pairs head ordered items)
  | key {head : Head} {isSet : Bool} {entries : List NodePair} {pair : NodePair}
    (hpair : pair ∈ entries) (h : IsPart part pair.1) : IsPart part (.map head isSet entries)
  | value {head : Head} {isSet : Bool} {entries : List NodePair} {pair : NodePair} {value : Node}
    (hpair : pair ∈ entries) (hvalue : pair.2 = some value) (h : IsPart part value) :
    IsPart part (.map head isSet entries)

/-- The parts of parts are parts. -/
theorem IsPart.trans {a b c : Node} (hab : IsPart a b) (hbc : IsPart b c) : IsPart a c := by
  induction hbc with
  | self => exact hab
  | item hitem _ ih => exact .item hitem ih
  | pairKey hpair _ ih => exact .pairKey hpair ih
  | pairValue hpair hvalue _ ih => exact .pairValue hpair hvalue ih
  | key hpair _ ih => exact .key hpair ih
  | value hpair hvalue _ ih => exact .value hpair hvalue ih

/-! ## Heights -/

/-- An item is no higher than the highest one. -/
theorem height_le_heightOfItems {item : Node} {items : List Node} (h : item ∈ items) :
    item.height ≤ heightOfItems items := by
  induction items with
  | nil => cases h
  | cons first rest ih =>
    rw [heightOfItems]
    rcases List.mem_cons.mp h with rfl | hrest
    · omega
    · have := ih hrest
      omega

/-- A key is no higher than the highest key or value. -/
theorem height_le_heightOfPairs {pair : NodePair} {pairs : List NodePair} (h : pair ∈ pairs) :
    pair.1.height ≤ heightOfPairs pairs := by
  induction pairs with
  | nil => cases h
  | cons first rest ih =>
    obtain ⟨key, _ | value⟩ := first <;> rw [heightOfPairs]
    all_goals
      rcases List.mem_cons.mp h with rfl | hrest
      · dsimp only
        omega
      · have := ih hrest
        omega

/-- A value is no higher than the highest key or value. -/
theorem value_height_le {pair : NodePair} {pairs : List NodePair} (h : pair ∈ pairs) {value : Node}
    (hvalue : pair.2 = some value) : value.height ≤ heightOfPairs pairs := by
  induction pairs with
  | nil => cases h
  | cons first rest ih =>
    rcases List.mem_cons.mp h with rfl | hrest
    · obtain ⟨key, value?⟩ := pair
      dsimp only at hvalue
      subst hvalue
      rw [heightOfPairs]
      omega
    · have := ih hrest
      obtain ⟨key, _ | other⟩ := first <;> rw [heightOfPairs] <;> omega

/-- A part is no higher than the whole. -/
theorem IsPart.height_le {part node : Node} (h : IsPart part node) : part.height ≤ node.height := by
  induction h with
  | self => exact Nat.le_refl _
  | item hitem _ ih =>
    have := height_le_heightOfItems hitem
    rw [height]
    omega
  | pairKey hpair _ ih | key hpair _ ih =>
    have := height_le_heightOfPairs hpair
    rw [height]
    omega
  | pairValue hpair hvalue _ ih | value hpair hvalue _ ih =>
    have := value_height_le hpair hvalue
    rw [height]
    omega

/-! ## Nodes with anchors -/

/-- The nodes with anchors among items are those of the items. -/
theorem mem_anchoredItems {node : Node} {items : List Node} :
    node ∈ anchoredItems items ↔ ∃ item ∈ items, node ∈ item.anchored := by
  induction items with
  | nil => simp [anchoredItems]
  | cons item rest ih => simp [anchoredItems, ih]

/-- The nodes with anchors among pairs are those of the keys and of the values. -/
theorem mem_anchoredPairs {node : Node} {pairs : List NodePair} :
    node ∈ anchoredPairs pairs ↔ ∃ pair ∈ pairs, node ∈ pair.1.anchored ∨
      ∃ value, pair.2 = some value ∧ node ∈ value.anchored := by
  induction pairs with
  | nil => simp [anchoredPairs]
  | cons pair rest ih =>
    obtain ⟨key, _ | value⟩ := pair <;> simp [anchoredPairs, ih, or_assoc]

/-- The node itself is the only one with an anchor, unless there are others in it. -/
theorem mem_own {part node : Node} :
    part ∈ (if node.head.anchor.isSome then [node] else []) ↔
      part = node ∧ node.head.anchor.isSome := by
  split <;> simp [*]

/-- The nodes with anchors that are found in a node are parts of it, have
anchors and are no aliases. -/
theorem of_mem_anchored {part node : Node} (h : part ∈ node.anchored) :
    IsPart part node ∧ part.head.anchor.isSome ∧ part.isAlias = false := by
  -- By induction on the height: the lists in a node get in the way of an induction on the node.
  induction hheight : node.height using Nat.strongRecOn generalizing node with
  | ind n ih =>
    subst hheight
    have hpairs {pairs : List NodePair} (hlow : heightOfPairs pairs < node.height)
        (hmem : part ∈ anchoredPairs pairs) : ∃ pair ∈ pairs,
          (IsPart part pair.1 ∨ ∃ value, pair.2 = some value ∧ IsPart part value) ∧
            part.head.anchor.isSome ∧ part.isAlias = false := by
      obtain ⟨pair, hpair, hkey | ⟨value, hvalue, hin⟩⟩ := mem_anchoredPairs.mp hmem
      · have hheight := height_le_heightOfPairs hpair
        obtain ⟨hpart, hrest⟩ := ih _ (by omega) hkey rfl
        exact ⟨pair, hpair, .inl hpart, hrest⟩
      · have hheight := value_height_le hpair hvalue
        obtain ⟨hpart, hrest⟩ := ih _ (by omega) hin rfl
        exact ⟨pair, hpair, .inr ⟨value, hvalue, hpart⟩, hrest⟩
    cases node with
    | scalar head style source reading =>
      obtain ⟨rfl, hanchor⟩ := mem_own.mp h
      exact ⟨.self, hanchor, rfl⟩
    | list head items =>
      rcases List.mem_append.mp h with hown | hinner
      · obtain ⟨rfl, hanchor⟩ := mem_own.mp hown
        exact ⟨.self, hanchor, rfl⟩
      · obtain ⟨item, hitem, hin⟩ := mem_anchoredItems.mp hinner
        have hheight := height_le_heightOfItems hitem
        obtain ⟨hpart, hrest⟩ := ih _ (by rw [height]; omega) hin rfl
        exact ⟨.item hitem hpart, hrest⟩
    | pairs head ordered items =>
      rcases List.mem_append.mp h with hown | hinner
      · obtain ⟨rfl, hanchor⟩ := mem_own.mp hown
        exact ⟨.self, hanchor, rfl⟩
      · obtain ⟨pair, hpair, hkey | ⟨value, hvalue, hin⟩, hrest⟩ :=
          hpairs (by rw [height]; omega) hinner
        · exact ⟨.pairKey hpair hkey, hrest⟩
        · exact ⟨.pairValue hpair hvalue hin, hrest⟩
    | map head isSet entries =>
      rcases List.mem_append.mp h with hown | hinner
      · obtain ⟨rfl, hanchor⟩ := mem_own.mp hown
        exact ⟨.self, hanchor, rfl⟩
      · obtain ⟨pair, hpair, hkey | ⟨value, hvalue, hin⟩, hrest⟩ :=
          hpairs (by rw [height]; omega) hinner
        · exact ⟨.key hpair hkey, hrest⟩
        · exact ⟨.value hpair hvalue hin, hrest⟩
    | _ => cases h

end LineSum.Yaml.Node
