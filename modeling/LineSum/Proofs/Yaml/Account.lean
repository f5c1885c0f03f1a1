import LineSum.Proofs.Yaml.Parts

/-!
# Keeping account of anchors

Reading a node either ends with content and a new account of the anchors, or fails. `Account.Ends`
says what holds in both cases, and follows the steps of a computation one by one. An anchor that has
been passed stays in the account.
-/

namespace LineSum.Yaml

/-! ## What has been passed -/

namespace Uses

/-- The places of the anchors that have been passed. -/
def offsets (uses : Uses) : List Nat :=
  uses.map Use.offset

/-- Noting a use adds its anchor to the others, if it is not there. -/
theorem offsets_note (uses : Uses) (use : Use) :
    (uses.note use).offsets =
      if use.offset ∈ uses.offsets then uses.offsets else uses.offsets ++ [use.offset] := by
  have hany : (uses.any (·.offset = use.offset) = true) ↔ use.offset ∈ uses.offsets := by
    rw [List.any_eq_true, offsets, List.mem_map]
    simp only [decide_eq_true_eq]
  unfold note
  split
  · next h =>
    rw [if_pos (hany.mp h), offsets, List.map_map]
    refine List.map_congr_left ?_
    intro other hother
    dsimp only [Function.comp_apply]
    split
    · next heq => exact heq.symm
    · rfl
  · next h =>
    rw [if_neg (mt hany.mpr h), offsets, List.map_append]
    rfl

/-- Noting a use forgets no anchor. -/
theorem subset_note (uses : Uses) (use : Use) : uses.offsets ⊆ (uses.note use).offsets := by
  rw [offsets_note]
  split
  · exact List.Subset.refl _
  · exact List.subset_append_left _ _

/-- Coming to a node forgets no anchor. -/
theorem subset_enter (uses : Uses) (head : Head) : uses.offsets ⊆ (uses.enter head).offsets := by
  unfold enter
  split
  · exact uses.subset_note _
  · exact List.Subset.refl _

/-- A node that one has come to has its anchor in the account. -/
theorem mem_offsets_enter (uses : Uses) {head : Head} {anchor : Anchor}
    (h : head.anchor = some anchor) : anchor.offset ∈ (uses.enter head).offsets := by
  unfold enter
  rw [h]
  dsimp only
  rw [offsets_note]
  split
  · next hmem => exact hmem
  · exact List.mem_append_right _ List.mem_cons_self

/-- Leaving a node changes no anchor. -/
theorem offsets_leave (uses : Uses) (head : Head) (content : Content) :
    (uses.leave head content).offsets = uses.offsets := by
  unfold leave offsets
  split
  · rw [List.map_map]
    refine List.map_congr_left ?_
    intro use _
    dsimp only [Function.comp_apply]
    split <;> rfl
  · rfl

/-- Mentioning an anchor forgets none, and can only fail because the document says too much. -/
theorem mention_cases (uses : Uses) (anchored : List Node) (target : Node) (use : Use) :
    (∃ after, uses.mention anchored target use = .ok after ∧ uses.offsets ⊆ after.offsets) ∨
      uses.mention anchored target use = .error .excessiveAliases := by
  unfold mention
  dsimp only
  generalize (if use.cost = 0 then _ else use.cost) = cost
  split
  · exact .inr rfl
  · exact .inl ⟨_, rfl, uses.subset_note _⟩

/-- An anchor is in the account exactly if there is a use of it. -/
theorem at?_eq_none_iff {uses : Uses} {offset : Nat} :
    uses.at? offset = none ↔ offset ∉ uses.offsets := by
  simp [at?, offsets]

end Uses

/-! ## How a computation ends -/

/-- From the given account, the computation ends with a result and an account of which `good` holds,
or in an error of which `bad` holds. -/
def Account.Ends {α : Type} (x : Account α) (uses : Uses) (good : α → Uses → Prop)
    (bad : NodeError → Prop) : Prop :=
  match x.run uses with
  | .ok (a, after) => good a after
  | .error e => bad e

namespace Account

variable {α β : Type} {uses : Uses} {bad : NodeError → Prop}

/-- What holds at the end can be weakened. -/
theorem Ends.mono {x : Account α} {good good' : α → Uses → Prop} (h : Ends x uses good bad)
    (himp : ∀ a after, good a after → good' a after) : Ends x uses good' bad := by
  unfold Ends at h ⊢
  split
  · next heq =>
    rw [heq] at h
    exact himp _ _ h
  · next heq =>
    rw [heq] at h
    exact h

/-- A value alone leaves the account as it is. -/
@[simp] theorem ends_pure {a : α} {good : α → Uses → Prop} :
    Ends (pure a) uses good bad ↔ good a uses :=
  Iff.rfl

/-- A change of the account ends in the account that is changed. -/
@[simp] theorem ends_modify {f : Uses → Uses} {good : PUnit → Uses → Prop} :
    Ends (modify f) uses good bad ↔ good ⟨⟩ (f uses) :=
  Iff.rfl

/-- The account that is read is the one that is there. -/
@[simp] theorem ends_get {good : Uses → Uses → Prop} :
    Ends get uses good bad ↔ good uses uses :=
  Iff.rfl

/-- An account that is put in the place of another one is there afterwards. -/
@[simp] theorem ends_set {after : Uses} {good : PUnit → Uses → Prop} :
    Ends (set after) uses good bad ↔ good ⟨⟩ after :=
  Iff.rfl

/-- Of two computations, the second one ends as it should from where the first one ends. -/
@[simp] theorem ends_bind {x : Account α} {f : α → Account β} {good : β → Uses → Prop} :
    Ends (x >>= f) uses good bad ↔
      Ends x uses (fun a after => Ends (f a) after good bad) bad := by
  unfold Ends
  rw [StateT.run_bind]
  cases x.run uses <;> rfl

/-- A function of the result leaves the account as it is. -/
@[simp] theorem ends_map {x : Account α} {f : α → β} {good : β → Uses → Prop} :
    Ends (f <$> x) uses good bad ↔ Ends x uses (fun a => good (f a)) bad := by
  unfold Ends
  rw [StateT.run_map]
  cases x.run uses <;> rfl

/-- A result that is not needed leaves the account as it is. -/
@[simp] theorem ends_discard {x : Account α} {good : PUnit → Uses → Prop} :
    Ends (discard x) uses good bad ↔ Ends x uses (fun _ => good ⟨⟩) bad :=
  ends_map

/-- A computation without an account changes none. -/
theorem ends_lift_of_ok {x : Except NodeError α} {a : α} {good : α → Uses → Prop}
    (hx : x = .ok a) (h : good a uses) : Ends (liftM x) uses good bad := by
  subst hx
  exact h

/-- A computation without an account that fails. -/
theorem ends_lift_of_error {x : Except NodeError α} {e : NodeError} {good : α → Uses → Prop}
    (hx : x = .error e) (h : bad e) : Ends (liftM x) uses good bad := by
  subst hx
  exact h

/-- If reading any item of a list keeps what holds of the account, so does reading all of them, and
what holds of each item and of each result holds of all. -/
theorem ends_mapM {f : α → Account β} {kept : Uses → Prop} {holds : α → Prop} {gives : β → Prop}
    (items : List α)
    (hitem : ∀ item ∈ items, ∀ before, kept before →
      Ends (f item) before (fun b after => kept after ∧ holds item ∧ gives b) bad)
    (huses : kept uses) :
    Ends (items.mapM f) uses
      (fun bs after => kept after ∧ (∀ item ∈ items, holds item) ∧ ∀ b ∈ bs, gives b) bad := by
  induction items generalizing uses with
  | nil => simpa using huses
  | cons item rest ih =>
    rw [List.mapM_cons]
    simp only [ends_bind, ends_pure]
    refine (hitem item List.mem_cons_self uses huses).mono ?_
    rintro b after ⟨hafter, hholds, hgives⟩
    refine (ih (fun other hother => hitem other (List.mem_cons_of_mem _ hother)) hafter).mono ?_
    rintro bs last ⟨hlast, hitems, hresults⟩
    exact ⟨hlast, List.forall_mem_cons.mpr ⟨hholds, hitems⟩,
      List.forall_mem_cons.mpr ⟨hgives, hresults⟩⟩

/-- If no item of a list forgets an anchor, whatever has been passed before it, then nor do all of
them, and what holds of each item holds of all. -/
theorem ends_mapM_subset {f : α → Account β} {holds : α → Prop} (items : List α)
    (hitem : ∀ item ∈ items, ∀ before, uses.offsets ⊆ before.offsets →
      Ends (f item) before (fun _ after => before.offsets ⊆ after.offsets ∧ holds item) bad) :
    Ends (items.mapM f) uses
      (fun _ after => uses.offsets ⊆ after.offsets ∧ ∀ item ∈ items, holds item) bad := by
  have hkept : ∀ item ∈ items, ∀ before, uses.offsets ⊆ before.offsets →
      Ends (f item) before
        (fun _ after => uses.offsets ⊆ after.offsets ∧ holds item ∧ True) bad := by
    intro item hmem before hbefore
    refine (hitem item hmem before hbefore).mono ?_
    rintro _ after ⟨hafter, hholds⟩
    exact ⟨List.Subset.trans hbefore hafter, hholds, trivial⟩
  refine (ends_mapM items hkept (List.Subset.refl _)).mono ?_
  rintro _ after ⟨hafter, hall, -⟩
  exact ⟨hafter, hall⟩

end Account

/-! ## The value of a node -/

/-- What the node of a document is read with. -/
def Node.setting (directives : Directives) (root : Node) : Setting :=
  ⟨⟨⟨directives.version, root.usedTypes⟩, directives.tags⟩, root.anchored⟩

/-- What holds at the end of reading a node holds of its value, or of the error
for which it has none. -/
theorem Node.value_of_ends {directives : Directives} {root : Node} (good : Value → Prop)
    {bad : NodeError → Prop}
    (h : Account.Ends ((root.setting directives).content
        ((root.setting directives).stepLimit root) root) []
      (fun content after => good (content.valueWithin after unrollLimit)) bad) :
    (∃ value, root.value directives = .ok value ∧ good value) ∨
      ∃ e, root.value directives = .error e ∧ bad e := by
  have hvalue : root.value directives =
      (((root.setting directives).content
          ((root.setting directives).stepLimit root) root).run [] >>=
        fun result => .ok (result.1.valueWithin result.2 unrollLimit)) := rfl
  unfold Account.Ends at h
  rw [hvalue]
  split at h
  · next heq =>
    rw [heq]
    exact .inl ⟨_, rfl, h⟩
  · next heq =>
    rw [heq]
    exact .inr ⟨_, rfl, h⟩

end LineSum.Yaml
