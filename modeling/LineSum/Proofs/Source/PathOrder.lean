import Mathlib.Data.List.Sort
import LineSum.Source.Loading

/-!
# Paths in order

Paths are sorted by their texts, and a path that comes again is passed over. Both can be done before
or after other paths are left out: paths with the same text keep the order in which they came.
-/

namespace LineSum

/-! ## First occurrences -/

section FirstOccurrences

variable {α : Type} [BEq α] [LawfulBEq α]

/-- Without later repetitions, no element comes twice. -/
theorem nodup_eraseDups (l : List α) : l.eraseDups.Nodup := by
  match l with
  | [] => exact List.nodup_nil
  | a :: rest =>
    rw [List.eraseDups_cons, List.nodup_cons]
    refine ⟨?_, nodup_eraseDups _⟩
    intro hmem
    simpa using (List.mem_filter.mp (List.mem_eraseDups.mp hmem)).2
termination_by l.length
decreasing_by exact Nat.lt_succ_of_le (List.length_filter_le _ _)

/-- It does not matter whether elements are left out before or after later repetitions are. -/
theorem eraseDups_filter (p : α → Bool) (l : List α) :
    (l.filter p).eraseDups = l.eraseDups.filter p := by
  match l with
  | [] => rfl
  | a :: rest =>
    have ih := eraseDups_filter p (rest.filter (!· == a))
    cases ha : p a with
    | true =>
      rw [List.filter_cons_of_pos ha, List.eraseDups_cons, List.eraseDups_cons,
        List.filter_cons_of_pos ha, ← ih, List.filter_filter, List.filter_filter]
      simp only [Bool.and_comm]
    | false =>
      have hrest : (rest.filter (!· == a)).filter p = rest.filter p := by
        rw [List.filter_filter]
        refine List.filter_congr fun b _ => ?_
        by_cases hb : b = a
        · rw [hb, ha, Bool.false_and]
        · simp [hb]
      rw [List.filter_cons_of_neg (by simp [ha]), List.eraseDups_cons,
        List.filter_cons_of_neg (by simp [ha]), ← ih, hrest]
termination_by l.length
decreasing_by exact Nat.lt_succ_of_le (List.length_filter_le _ _)

end FirstOccurrences

/-! ## Sorted lists -/

section Sorting

variable {α : Type} {le : α → α → Bool}
  (htrans : ∀ a b c, le a b = true → le b c = true → le a c = true)
  (htotal : ∀ a b, (le a b || le b a) = true)

include htrans htotal

/-- In a sorted list, a new first element comes between those that are strictly
smaller and all others. -/
theorem mergeSort_cons_split (a : α) (l : List α) :
    let smaller := (l.mergeSort le).filter (!le a ·)
    let others := (l.mergeSort le).filter (le a ·)
    (a :: l).mergeSort le = smaller ++ a :: others ∧ l.mergeSort le = smaller ++ others := by
  obtain ⟨l₁, l₂, hcons, hl, hbefore⟩ := List.mergeSort_cons htrans htotal a l
  have hbehind : ∀ b ∈ l₂, le a b = true := by
    have hsorted := List.pairwise_mergeSort htrans htotal (a :: l)
    rw [hcons] at hsorted
    exact (List.pairwise_cons.mp (List.pairwise_append.mp hsorted).2.1).1
  have hsmaller : (l₁ ++ l₂).filter (!le a ·) = l₁ := by
    rw [List.filter_append, List.filter_eq_self.mpr hbefore,
      List.filter_eq_nil_iff.mpr fun b hb => by simp [hbehind b hb], List.append_nil]
  have hothers : (l₁ ++ l₂).filter (le a ·) = l₂ := by
    rw [List.filter_append, List.filter_eq_self.mpr hbehind,
      List.filter_eq_nil_iff.mpr fun b hb => by simpa using hbefore b hb, List.nil_append]
  dsimp only
  rw [hcons, hl, hsmaller, hothers]
  exact ⟨rfl, rfl⟩

/-- Elements can be left out before or after a list is sorted, also where the order does
not tell them apart. -/
theorem mergeSort_filter (p : α → Bool) (l : List α) :
    (l.filter p).mergeSort le = (l.mergeSort le).filter p := by
  induction l with
  | nil => simp
  | cons a l ih =>
    obtain ⟨hcons, hl⟩ := mergeSort_cons_split htrans htotal a l
    rw [hcons, List.filter_append]
    cases ha : p a with
    | false =>
      rw [List.filter_cons_of_neg (by simp [ha]), List.filter_cons_of_neg (by simp [ha]),
        ← List.filter_append, ← hl, ih]
    | true =>
      have hswap (q : α → Bool) :
          ((l.mergeSort le).filter p).filter q = ((l.mergeSort le).filter q).filter p := by
        rw [List.filter_filter, List.filter_filter]
        simp only [Bool.and_comm]
      rw [List.filter_cons_of_pos ha, List.filter_cons_of_pos ha,
        (mergeSort_cons_split htrans htotal a (l.filter p)).1, ih, hswap, hswap]

end Sorting

/-- A text comes before another one or at the same place exactly if its units do. -/
theorem unitsLe_iff {a b : String} : unitsLe a b = true ↔ ¬ units b.toList < units a.toList := by
  simp [unitsLe]

/-- The order of texts is transitive. -/
theorem unitsLe_trans (a b c : String) (hab : unitsLe a b = true) (hbc : unitsLe b c = true) :
    unitsLe a c = true :=
  unitsLe_iff.mpr (List.le_trans (List.not_lt.mp (unitsLe_iff.mp hab))
    (List.not_lt.mp (unitsLe_iff.mp hbc)))

/-- Of two texts, one comes before the other or at the same place. -/
theorem unitsLe_total (a b : String) : (unitsLe a b || unitsLe b a) = true := by
  rw [Bool.or_eq_true, unitsLe_iff, unitsLe_iff, List.not_lt, List.not_lt]
  exact List.le_total _ _

/-! ## Paths -/

/-- The order of paths is that of their texts. -/
def pathLe (a b : Path) : Bool := unitsLe a.text b.text

/-- The order of paths is transitive. -/
theorem pathLe_trans (a b c : Path) : pathLe a b = true → pathLe b c = true → pathLe a c = true :=
  unitsLe_trans a.text b.text c.text

/-- Of two paths, one comes before the other or at the same place. -/
theorem pathLe_total (a b : Path) : (pathLe a b || pathLe b a) = true :=
  unitsLe_total a.text b.text

/-- Paths are sorted by this order. -/
theorem sortPaths_eq (paths : List Path) : sortPaths paths = paths.mergeSort pathLe :=
  rfl

/-- Sorting changes the order of paths and nothing else. -/
theorem sortPaths_perm (paths : List Path) : (sortPaths paths).Perm paths :=
  List.mergeSort_perm paths _

/-- Sorting loses no path and adds none. -/
@[simp]
theorem mem_sortPaths_iff {paths : List Path} {path : Path} :
    path ∈ sortPaths paths ↔ path ∈ paths :=
  (sortPaths_perm paths).mem_iff

/-- Sorted paths stand in the order of their texts. -/
theorem sortPaths_pairwise (paths : List Path) :
    (sortPaths paths).Pairwise fun a b => pathLe a b = true := by
  rw [sortPaths_eq]
  exact List.pairwise_mergeSort pathLe_trans pathLe_total paths

/-- Paths can be left out before or after the others are sorted. -/
theorem sortPaths_filter (p : Path → Bool) (paths : List Path) :
    sortPaths (paths.filter p) = (sortPaths paths).filter p := by
  rw [sortPaths_eq, sortPaths_eq]
  exact mergeSort_filter pathLe_trans pathLe_total p paths

end LineSum
