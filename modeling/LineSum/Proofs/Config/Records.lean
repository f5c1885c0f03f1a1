import Mathlib.Data.List.Nodup
import Mathlib.Data.List.Perm.Basic
import LineSum.Config.Value

/-!
# Records

A record whose names are distinct is a finite function from names: looking a name up finds an entry
exactly if the entry is there. Storing entries one after the other loses none of them as long as
their names differ; the order in which they are listed may change.
-/

namespace LineSum.Record

variable {α : Type}

/-! ## Looking up -/

/-- What is found under a name is an entry. -/
theorem mem_of_get?_eq_some {entries : Record α} {name : String} {value : α}
    (h : entries.get? name = some value) : (name, value) ∈ entries := by
  obtain ⟨⟨found, v⟩, hfind, hv⟩ := Option.map_eq_some_iff.mp h
  dsimp only at hv
  subst hv
  have hname : found = name := by simpa using List.find?_some hfind
  rw [← hname]
  exact List.mem_of_find?_eq_some hfind

/-- Among distinct names, exactly the entries are found. -/
theorem get?_eq_some_iff {entries : Record α} (hnames : (entries.map Prod.fst).Nodup)
    {name : String} {value : α} :
    entries.get? name = some value ↔ (name, value) ∈ entries := by
  refine ⟨mem_of_get?_eq_some, ?_⟩
  intro h
  induction entries with
  | nil => cases h
  | cons entry rest ih =>
    rw [List.map_cons, List.nodup_cons] at hnames
    rcases List.mem_cons.mp h with rfl | htail
    · simp [get?]
    · have hne : entry.1 ≠ name := by
        intro heq
        exact hnames.1 (heq ▸ List.mem_map_of_mem htail)
      have hrest := ih hnames.2 htail
      unfold get? at hrest ⊢
      rwa [List.find?_cons_of_neg (by simpa using hne)]

/-- Among distinct names, one entry at most has a given name. -/
theorem filter_name {entries : Record α} (hnames : (entries.map Prod.fst).Nodup) (name : String) :
    entries.filter (·.1 = name) = ((entries.get? name).map (name, ·)).toList := by
  induction entries with
  | nil => rfl
  | cons entry rest ih =>
    rw [List.map_cons, List.nodup_cons] at hnames
    obtain ⟨hfirst, hrest⟩ := hnames
    unfold get? at ih ⊢
    by_cases hname : entry.1 = name
    · subst hname
      have hnone : rest.filter (·.1 = entry.1) = [] := by
        rw [List.filter_eq_nil_iff]
        intro other hother heq
        exact hfirst (of_decide_eq_true heq ▸ List.mem_map_of_mem hother)
      simp [hnone]
    · simpa [hname] using ih hrest

/-! ## Storing -/

/-- A new entry is added to the others. -/
theorem perm_place (entries : Record α) (name : String) (value : α) :
    (entries.place name value).Perm ((name, value) :: entries) := by
  induction entries with
  | nil => rfl
  | cons entry rest ih =>
    obtain ⟨key, v⟩ := entry
    unfold place
    split
    · rfl
    · calc ((key, v) :: place name value rest).Perm ((key, v) :: (name, value) :: rest) :=
            ih.cons (key, v)
        _ |>.Perm ((name, value) :: (key, v) :: rest) := List.Perm.swap _ _ _

/-- Storing under a name that is not there adds an entry. -/
theorem perm_put {entries : Record α} {name : String} (hnew : name ∉ entries.map Prod.fst)
    (value : α) : (entries.put name value).Perm ((name, value) :: entries) := by
  have hany : entries.any (·.1 = name) = false := by
    rw [List.any_eq_false]
    intro entry hentry heq
    exact hnew (of_decide_eq_true heq ▸ List.mem_map_of_mem hentry)
  unfold put
  rw [hany]
  exact perm_place entries name value

/-- Storing keeps the names distinct. -/
theorem nodup_put {entries : Record α} (hnames : (entries.map Prod.fst).Nodup) (name : String)
    (value : α) : ((entries.put name value).map Prod.fst).Nodup := by
  by_cases hnew : name ∈ entries.map Prod.fst
  · obtain ⟨entry, hentry, rfl⟩ := List.mem_map.mp hnew
    have hany : entries.any (·.1 = entry.1) = true :=
      List.any_eq_true.mpr ⟨entry, hentry, decide_eq_true rfl⟩
    have hsame : (entries.put entry.1 value).map Prod.fst = entries.map Prod.fst := by
      unfold put
      rw [if_pos hany, List.map_map]
      refine List.map_congr_left ?_
      rintro ⟨key, v⟩ _
      dsimp only [Function.comp_apply]
      split <;> rfl
    rwa [hsame]
  · have hput := ((perm_put hnew value).map Prod.fst).nodup_iff
    exact hput.mpr (List.nodup_cons.mpr ⟨hnew, hnames⟩)

/-- What is stored is the new value, and what was there before. -/
theorem of_mem_put {entries : Record α} {name : String} {value : α} {entry : String × α}
    (h : entry ∈ entries.put name value) : entry.2 = value ∨ entry ∈ entries := by
  unfold put at h
  split at h
  · obtain ⟨⟨key, v⟩, hmem, rfl⟩ := List.mem_map.mp h
    dsimp only
    split
    · exact .inl rfl
    · exact .inr hmem
  · rcases List.mem_cons.mp ((perm_place entries name value).mem_iff.mp h) with rfl | hmem
    · exact .inl rfl
    · exact .inr hmem

/-- Entries with distinct new names are all added. -/
theorem perm_foldl_put (pairs entries : Record α)
    (hnames : ((entries ++ pairs).map Prod.fst).Nodup) :
    (pairs.foldl (fun entries (name, value) => entries.put name value) entries).Perm
      (entries ++ pairs) := by
  induction pairs generalizing entries with
  | nil => simp
  | cons pair rest ih =>
    obtain ⟨name, value⟩ := pair
    have hnew : name ∉ entries.map Prod.fst := by
      rw [List.map_append, List.nodup_append] at hnames
      intro hmem
      exact hnames.2.2 _ hmem name (by simp) rfl
    have hput : (entries.put name value ++ rest).Perm (entries ++ (name, value) :: rest) :=
      ((perm_put hnew value).append_right rest).trans List.perm_middle.symm
    rw [List.foldl_cons]
    refine (ih (entries.put name value) ?_).trans hput
    exact ((hput.map Prod.fst).nodup_iff).mpr hnames

/-- **Entries with distinct names are all stored**, each as it is. -/
theorem perm_ofPairs {pairs : Record α} (hnames : (pairs.map Prod.fst).Nodup) :
    (ofPairs pairs).Perm pairs :=
  perm_foldl_put pairs [] hnames

/-! ## The order of the entries -/

/-- The entries stand in the order in which a map lists them: their names are distinct, and none of
them is listed before one that stands in front of it. -/
def InOrder (entries : Record α) : Prop :=
  (entries.map Prod.fst).Pairwise fun a b => a ≠ b ∧ listedBefore b a = false

/-- An entry that is listed before no other one is placed behind them. -/
theorem place_eq_append {entries : Record α} {name : String}
    (h : ∀ entry ∈ entries, listedBefore name entry.1 = false) (value : α) :
    entries.place name value = entries ++ [(name, value)] := by
  induction entries with
  | nil => rfl
  | cons entry rest ih =>
    rw [List.forall_mem_cons] at h
    unfold place
    rw [h.1, ih h.2]
    rfl

/-- A new entry that is listed before no other one is stored behind them. -/
theorem put_eq_append {entries : Record α} {name : String}
    (h : ∀ entry ∈ entries, entry.1 ≠ name ∧ listedBefore name entry.1 = false) (value : α) :
    entries.put name value = entries ++ [(name, value)] := by
  have hany : entries.any (·.1 = name) = false := by
    rw [List.any_eq_false]
    intro entry hentry heq
    exact (h entry hentry).1 (of_decide_eq_true heq)
  unfold put
  rw [hany]
  exact place_eq_append (fun entry hentry => (h entry hentry).2) value

/-- Entries in order are stored behind those that stand in front of them. -/
theorem foldl_put_of_inOrder {entries pairs : Record α} (h : InOrder (entries ++ pairs)) :
    pairs.foldl (fun entries (name, value) => entries.put name value) entries =
      entries ++ pairs := by
  induction pairs generalizing entries with
  | nil => rw [List.foldl_nil, List.append_nil]
  | cons pair rest ih =>
    obtain ⟨name, value⟩ := pair
    have hlast : ∀ entry ∈ entries, entry.1 ≠ name ∧ listedBefore name entry.1 = false := by
      intro entry hentry
      unfold InOrder at h
      rw [List.map_append, List.pairwise_append] at h
      exact h.2.2 _ (List.mem_map_of_mem hentry) name List.mem_cons_self
    have hsame : entries ++ (name, value) :: rest = (entries ++ [(name, value)]) ++ rest := by
      rw [List.append_assoc, List.singleton_append]
    rw [hsame] at h ⊢
    show List.foldl _ (entries.put name value) rest = _
    rw [put_eq_append hlast value]
    exact ih h

/-- **Entries in order are stored as they stand.** -/
theorem ofPairs_of_inOrder {pairs : Record α} (h : InOrder pairs) : ofPairs pairs = pairs :=
  @foldl_put_of_inOrder α [] pairs h

end LineSum.Record
