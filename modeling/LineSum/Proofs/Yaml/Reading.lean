import Mathlib.Data.Finset.Card
import Mathlib.Tactic.Ring
import LineSum.Proofs.Yaml.Account

/-!
# When a node has a value

A node of lists, and of maps with scalars for keys, always has a value unless its aliases keep it
from having one: an alias stands for no node before it, or the aliases say too much. In particular,
the steps that are allowed for reading suffice. Reading goes down a path of the node, and an alias
may send it to another node, but only to one whose anchor has not been passed yet, and every anchor
is passed once.
-/

namespace LineSum.Yaml

/-! ## Ordinary nodes -/

/-- All that a node consists of is scalars, lists, maps with scalars for keys, none of which asks
for the entries of other maps, and aliases. -/
def Node.IsOrdinary (version : Version) (root : Node) : Prop :=
  ∀ part, IsPart part root →
    match part with
    | .pairs _ _ _ => False
    | .map _ isSet entries =>
      isSet = false ∧ ∀ pair ∈ entries, pair.1.isScalar ∧ pair.1.isMergeKey version = false
    | _ => True

namespace Node

/-- The node that an alias in a document stands for. -/
def aliasTarget? (root : Node) (head : Head) (name : String) : Option Node :=
  resolveAlias root.anchored name (Node.alias head name).offset

/-- Every alias in a part of a document stands for a node. -/
def Resolves (root part : Node) : Prop :=
  ∀ head name, IsPart (.alias head name) part → root.aliasTarget? head name ≠ none

/-- What the aliases of a document can keep it from: one of them stands for no node,
or they say too much. -/
inductive IsAliasError (root : Node) : NodeError → Prop
  | unresolved {head : Head} {name : String} (h : IsPart (.alias head name) root)
    (hnone : root.aliasTarget? head name = none) : root.IsAliasError (.unresolvedAlias name)
  | excessive {head : Head} {name : String} (h : IsPart (.alias head name) root) :
    root.IsAliasError .excessiveAliases

variable {root : Node}

/-- There are no aliases in a scalar. -/
theorem resolves_scalar (head : Head) (style : Style) (source : String) (reading : Reading) :
    root.Resolves (.scalar head style source reading) := by
  intro _ _ h
  cases h

/-- The aliases of a list are those of its items. -/
theorem resolves_list {head : Head} {items : List Node} (h : ∀ item ∈ items, root.Resolves item) :
    root.Resolves (.list head items) := by
  intro _ _ hpart
  cases hpart with
  | item hitem hpart => exact h _ hitem _ _ hpart

/-- The aliases of a map are those of its keys and values. -/
theorem resolves_map {head : Head} {isSet : Bool} {entries : List NodePair}
    (h : ∀ pair ∈ entries,
      root.Resolves pair.1 ∧ ∀ value, pair.2 = some value → root.Resolves value) :
    root.Resolves (.map head isSet entries) := by
  intro _ _ hpart
  cases hpart with
  | key hpair hpart => exact (h _ hpair).1 _ _ hpart
  | value hpair hvalue hpart => exact (h _ hpair).2 _ hvalue _ _ hpart

end Node

namespace Setting

variable {s : Setting}

/-! ## Anchors that are still to be passed -/

/-- How many places of anchors have not been passed. -/
def pending (s : Setting) (uses : Uses) : Nat :=
  ((s.anchored.map Node.anchorOffset).toFinset \ uses.offsets.toFinset).card

/-- The more has been passed, the less is still to be passed. -/
theorem pending_mono {before after : Uses} (h : before.offsets ⊆ after.offsets) :
    s.pending after ≤ s.pending before := by
  refine Finset.card_le_card (Finset.sdiff_subset_sdiff (Finset.Subset.refl _) ?_)
  intro offset hoffset
  exact List.mem_toFinset.mpr (h (List.mem_toFinset.mp hoffset))

/-- Coming to a node with a new anchor leaves less to be passed. -/
theorem pending_enter_lt {uses : Uses} {target : Node} (htarget : target ∈ s.anchored)
    (hanchor : target.head.anchor.isSome) (hnew : target.anchorOffset ∉ uses.offsets) :
    s.pending (uses.enter target.head) < s.pending uses := by
  obtain ⟨anchor, heq⟩ := Option.isSome_iff_exists.mp hanchor
  have hoffset : target.anchorOffset = anchor.offset := by
    unfold Node.anchorOffset
    rw [heq]
    rfl
  refine Finset.card_lt_card (Finset.ssubset_iff_of_subset ?_ |>.mpr ?_)
  · refine Finset.sdiff_subset_sdiff (Finset.Subset.refl _) ?_
    intro offset h
    exact List.mem_toFinset.mpr (uses.subset_enter _ (List.mem_toFinset.mp h))
  · refine ⟨target.anchorOffset, ?_, ?_⟩
    · simp only [Finset.mem_sdiff, List.mem_toFinset]
      exact ⟨List.mem_map_of_mem htarget, hnew⟩
    · have hmem := uses.mem_offsets_enter heq
      rw [← hoffset] at hmem
      simp [hmem]

/-- No more anchors are to be passed than there are. -/
theorem pending_le (uses : Uses) : s.pending uses ≤ s.anchored.length := by
  calc s.pending uses ≤ (s.anchored.map Node.anchorOffset).toFinset.card :=
        Finset.card_le_card Finset.sdiff_subset
    _ ≤ (s.anchored.map Node.anchorOffset).length := List.toFinset_card_le _
    _ = s.anchored.length := List.length_map _

end Setting

/-- The account with which what is in a node is read. An alias has no anchor of its own. -/
def Node.entered (uses : Uses) (node : Node) : Uses :=
  if node.isAlias then uses else uses.enter node.head

/-- Coming to a node forgets no anchor. -/
theorem Node.subset_entered (uses : Uses) (node : Node) :
    uses.offsets ⊆ (node.entered uses).offsets := by
  unfold entered
  split
  · exact List.Subset.refl _
  · exact uses.subset_enter _

/-- What an alias stands for is read with the account that is there. -/
theorem Node.entered_alias (head : Head) (name : String) (uses : Uses) :
    (Node.alias head name).entered uses = uses := rfl

/-- Only an alias has no account of its own. -/
theorem Node.entered_of_not_alias {node : Node} (h : node.isAlias = false) (uses : Uses) :
    node.entered uses = uses.enter node.head :=
  if_neg (h ▸ Bool.false_ne_true)

namespace Setting

open Account

/-! ## Reading ordinary nodes -/

section Ordinary

variable {s : Setting} {root : Node} (hanchored : s.anchored = root.anchored)
  (hordinary : root.IsOrdinary s.script.schema.version)

/-- The steps that suffice for reading a node of a document: two for each level of it, and as many
as the whole document needs for each anchor that is still to be passed. -/
def stepsFor (s : Setting) (root node : Node) (uses : Uses) : Nat :=
  2 * node.height + 2 * root.height * s.pending (node.entered uses)

/-- With the given steps, every part of the document is read or an alias fails. -/
def ReadsParts (s : Setting) (root : Node) (depth : Nat) : Prop :=
  ∀ node, Node.IsPart node root → ∀ uses, s.stepsFor root node uses ≤ depth →
    Ends (s.content depth node) uses
      (fun _ after => uses.offsets ⊆ after.offsets ∧ root.Resolves node) (root.IsAliasError)

/-- A part that lies below another one takes fewer steps, once that one has been come to. -/
theorem stepsFor_le {node : Node} {before after : Uses} {height depth : Nat}
    (hheight : node.height ≤ height) (huses : before.offsets ⊆ after.offsets)
    (hsteps : 2 * height + 2 * root.height * s.pending before ≤ depth) :
    s.stepsFor root node after ≤ depth := by
  have hpending : s.pending (node.entered after) ≤ s.pending before :=
    pending_mono (List.Subset.trans huses (node.subset_entered after))
  have := Nat.mul_le_mul_left (2 * root.height) hpending
  unfold stepsFor
  omega

/-- What is read for an alias once its node has been passed. -/
def mentioned (s : Setting) (target : Node) : Account Content := do
  match (← get).at? target.anchorOffset with
  | none => return .missing
  | some use =>
    set (← (← get).mention s.anchored target use)
    return use.content.getD (.enclosing use.offset target.enclosingName)

/-- Mentioning a node forgets no anchor, and fails only because the document says too much. -/
theorem ends_mentioned (target : Node) {uses : Uses} {bad : NodeError → Prop}
    (hbad : bad .excessiveAliases) :
    Ends (s.mentioned target) uses (fun _ after => uses.offsets ⊆ after.offsets) bad := by
  unfold mentioned
  simp only [ends_bind, ends_get]
  cases uses.at? target.anchorOffset with
  | none => exact List.Subset.refl _
  | some use =>
    simp only [ends_bind, ends_get]
    rcases uses.mention_cases s.anchored target use with ⟨after, hafter, hsubset⟩ | herror
    · refine ends_lift_of_ok hafter ?_
      simp only [ends_set, ends_pure]
      exact hsubset
    · exact ends_lift_of_error herror hbad

include hanchored in
/-- An alias stands for a part of the document, and sends reading there if its anchor
is still to be passed. -/
theorem ends_alias {depth : Nat} (ih : s.ReadsParts root depth) {head : Head} {name : String}
    (hpart : Node.IsPart (.alias head name) root) {uses : Uses}
    (hsteps : s.stepsFor root (.alias head name) uses ≤ depth + 1) :
    Ends (s.content (depth + 1) (.alias head name)) uses
      (fun _ after => uses.offsets ⊆ after.offsets ∧ root.Resolves (.alias head name))
      (root.IsAliasError) := by
  have hsame : s.target? (.alias head name) = root.aliasTarget? head name := by
    rw [target?, hanchored]
    rfl
  rw [content, hsame]
  cases htarget : root.aliasTarget? head name with
  | none => exact .unresolved hpart htarget
  | some target =>
    have hmem : target ∈ root.anchored :=
      List.mem_reverse.mp (List.mem_of_find?_eq_some htarget)
    have hresolves : root.Resolves (.alias head name) := by
      intro _ _ h
      cases h
      rw [htarget]
      exact Option.some_ne_none _
    -- What follows once the target has been passed, at the latest by reading it now.
    have hrest (after : Uses) (hafter : uses.offsets ⊆ after.offsets) :
        Ends (s.mentioned target) after
          (fun _ last => uses.offsets ⊆ last.offsets ∧ root.Resolves (.alias head name))
          root.IsAliasError :=
      (ends_mentioned target (.excessive hpart)).mono
        fun _ _ hlast => ⟨List.Subset.trans hafter hlast, hresolves⟩
    rw [ends_bind, ends_get]
    dsimp only
    split
    · next hnew =>
      obtain ⟨hin, hanchor, halias⟩ := Node.of_mem_anchored hmem
      have htargetSteps : s.stepsFor root target uses ≤ depth := by
        have hless := pending_enter_lt (hanchored ▸ hmem) hanchor
          (Uses.at?_eq_none_iff.mp (Option.isNone_iff_eq_none.mp hnew))
        have hcost := Nat.mul_le_mul_left (2 * root.height) hless
        have hheight := hin.height_le
        rw [Nat.mul_succ] at hcost
        rw [stepsFor, Node.height, Node.entered_alias] at hsteps
        rw [stepsFor, Node.entered_of_not_alias halias]
        omega
      rw [ends_bind, ends_discard]
      refine (ih target hin uses htargetSteps).mono ?_
      rintro _ after ⟨hafter, -⟩
      exact hrest after hafter
    · exact hrest uses (List.Subset.refl _)

/-- A scalar that is a key has a name, whatever it stands for. -/
theorem ends_entryName {key : Node} (hkey : key.isScalar) (found : Content) {uses : Uses}
    {bad : NodeError → Prop} :
    Ends (s.entryName key found) uses (fun _ after => after = uses) bad := by
  unfold entryName
  split
  case h_5 hother =>
    cases key with
    | scalar head style source reading => exact absurd rfl (hother _ _ _ _)
    | _ => cases hkey
  all_goals rfl

include hordinary in
/-- The entries of a map are read if its values are. -/
theorem ends_members {depth : Nat} (ih : s.ReadsParts root depth) {head : Head} {isSet : Bool}
    {entries : List NodePair} (hpart : Node.IsPart (.map head isSet entries) root)
    {pair : NodePair} (hpair : pair ∈ entries) {uses : Uses}
    (hsteps : 2 * Node.heightOfPairs entries + 2 * root.height * s.pending uses ≤ depth) :
    Ends (s.members (depth + 1) .record pair) uses
      (fun _ after => uses.offsets ⊆ after.offsets ∧
        root.Resolves pair.1 ∧ ∀ value, pair.2 = some value → root.Resolves value)
      (root.IsAliasError) := by
  obtain ⟨-, hentries⟩ := hordinary _ hpart
  obtain ⟨hkey, hmerge⟩ := hentries pair hpair
  have hkeyPart : Node.IsPart pair.1 root := (Node.IsPart.key hpair .self).trans hpart
  have hkeyHeight := Node.height_le_heightOfPairs hpair
  obtain ⟨key, value?⟩ := pair
  rw [members]
  simp only [hmerge, Bool.false_eq_true, if_false, if_true, ends_bind]
  refine (ih key hkeyPart uses
    (stepsFor_le hkeyHeight (List.Subset.refl _) hsteps)).mono ?_
  rintro keyContent after ⟨hafter, hkeyResolves⟩
  refine (ends_entryName hkey keyContent).mono ?_
  rintro name _ rfl
  cases value? with
  | none =>
    simp only [ends_bind, ends_pure]
    refine ⟨hafter, hkeyResolves, ?_⟩
    rintro _ ⟨⟩
  | some value =>
    simp only [ends_bind, ends_pure]
    have hvaluePart : Node.IsPart value root := (Node.IsPart.value hpair rfl .self).trans hpart
    have hvalueHeight := Node.value_height_le hpair rfl
    refine (ih value hvaluePart _ (stepsFor_le hvalueHeight hafter hsteps)).mono ?_
    rintro _ last ⟨hlast, hvalueResolves⟩
    refine ⟨List.Subset.trans hafter hlast, hkeyResolves, ?_⟩
    rintro _ ⟨⟩
    exact hvalueResolves

include hanchored hordinary in
/-- **Ordinary nodes are read.** If every part needs no more steps than there are, it is
read, and then all of its aliases stand for nodes, or one of the document's aliases
keeps it from being read. -/
theorem readsParts (depth : Nat) : s.ReadsParts root depth := by
  -- The induction is a strong one, as reading a map takes two steps on the way to a key or a value.
  induction depth using Nat.strongRecOn with
  | ind depth ih =>
    intro node hpart uses hsteps
    cases depth with
    | zero =>
      cases node <;> simp [stepsFor, Node.height] at hsteps
    | succ depth =>
      cases node with
      | scalar head style source reading =>
        rw [content]
        · simp only [ends_bind, ends_modify, ends_pure, Uses.offsets_leave]
          exact ⟨uses.subset_enter _, Node.resolves_scalar _ _ _ _⟩
        · rintro _ _ ⟨⟩
      | list head items =>
        rw [stepsFor, Node.height, Node.entered_of_not_alias rfl, Node.head] at hsteps
        have hitems : ∀ item ∈ items, ∀ before, (uses.enter head).offsets ⊆ before.offsets →
            Ends (s.content depth item) before
              (fun _ after => before.offsets ⊆ after.offsets ∧ root.Resolves item)
              (root.IsAliasError) := by
          intro item hitem before hbefore
          exact ih depth (Nat.lt_succ_self _) item ((Node.IsPart.item hitem .self).trans hpart)
            before (stepsFor_le (Node.height_le_heightOfItems hitem) hbefore (by omega))
        rw [content]
        · simp only [ends_bind, ends_modify, ends_pure, ends_map, Uses.offsets_leave]
          refine (ends_mapM_subset items hitems).mono ?_
          rintro _ after ⟨hafter, hresolves⟩
          exact ⟨List.Subset.trans (uses.subset_enter _) hafter, Node.resolves_list hresolves⟩
        · rintro _ _ ⟨⟩
      | pairs head ordered items => exact (hordinary _ hpart).elim
      | map head isSet entries =>
        obtain ⟨rfl, -⟩ := hordinary _ hpart
        rw [stepsFor, Node.height, Node.entered_of_not_alias rfl, Node.head] at hsteps
        obtain ⟨depth, rfl⟩ : ∃ below, depth = below + 1 := ⟨depth - 1, by omega⟩
        have hentries : ∀ pair ∈ entries, ∀ before, (uses.enter head).offsets ⊆ before.offsets →
            Ends (s.members (depth + 1) .record pair) before
              (fun _ after => before.offsets ⊆ after.offsets ∧
                root.Resolves pair.1 ∧ ∀ value, pair.2 = some value → root.Resolves value)
              (root.IsAliasError) := by
          intro pair hpair before hbefore
          have hpending : s.pending before ≤ s.pending (uses.enter head) := pending_mono hbefore
          have hcost := Nat.mul_le_mul_left (2 * root.height) hpending
          exact ends_members hordinary (ih depth (by omega)) hpart hpair (by omega)
        rw [content]
        · simp only [ends_bind, ends_modify, ends_pure, Uses.offsets_leave]
          refine (ends_mapM_subset entries hentries).mono ?_
          rintro _ after ⟨hafter, hresolves⟩
          exact ⟨List.Subset.trans (uses.subset_enter _) hafter, Node.resolves_map hresolves⟩
        · rintro _ _ ⟨⟩
      | _ => exact ends_alias hanchored (ih depth (Nat.lt_succ_self _)) hpart hsteps

end Ordinary

/-- The steps that are allowed suffice for a whole document. -/
theorem stepsFor_le_stepLimit {s : Setting} {root : Node} (uses : Uses) :
    s.stepsFor root root uses ≤ s.stepLimit root := by
  have hpending := Nat.mul_le_mul_left (2 * root.height) (s.pending_le (root.entered uses))
  calc s.stepsFor root root uses ≤ 2 * root.height + 2 * root.height * s.anchored.length := by
        unfold stepsFor
        omega
    _ = 2 * root.height * (s.anchored.length + 1) := by ring
    _ ≤ 8 * (root.height + 1) * (s.anchored.length + 2) := Nat.mul_le_mul (by omega) (by omega)
    _ ≤ 8 * (root.height + 1) * (s.anchored.length + 2) * (aliasLimit + 2) :=
        Nat.le_mul_of_pos_right _ (Nat.succ_pos _)

end Setting

/-- **An ordinary node has a value unless an alias keeps it from having one.** If it has a value,
all of its aliases stand for nodes. -/
theorem Node.value_of_isOrdinary {directives : Directives} {root : Node}
    (hordinary : root.IsOrdinary directives.version) :
    (∃ value, root.value directives = .ok value) ∧ root.Resolves root ∨
      ∃ e, root.value directives = .error e ∧ root.IsAliasError e := by
  have hends : Account.Ends ((root.setting directives).content
      ((root.setting directives).stepLimit root) root) [] (fun _ _ => root.Resolves root)
      root.IsAliasError :=
    (Setting.readsParts rfl hordinary _ root .self [] (Setting.stepsFor_le_stepLimit [])).mono
      fun _ _ h => h.2
  rcases Node.value_of_ends (fun _ => root.Resolves root) hends with
    ⟨value, hvalue, hresolves⟩ | herror
  · exact .inl ⟨⟨value, hvalue⟩, hresolves⟩
  · exact .inr herror

end LineSum.Yaml
