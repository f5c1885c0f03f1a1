import LineSum.Files.Tree
import LineSum.Proofs.Text
import Mathlib.Data.List.Basic

/-!
# Relative paths

A path is shown in a directory by the way to it without a detour: up to where the two part, and down
from there. This text leads back to the path. A text that was typed is shown as it is exactly if it
is such a way already: it makes no stop, does not climb above the root, and does not go down again
to where it came from.
-/

namespace LineSum

/-! ## Names between slashes -/

/-- A slash ends one name and begins the next one. -/
theorem splitSlashes_eq_splitOn (cs : List Char) : splitSlashes cs = cs.splitOn '/' :=
  eq_splitOn rfl (fun _ _ => rfl) cs

/-- Names that are joined by slashes are what stands between the slashes. -/
theorem splitSlashes_intercalate {names : List String} (hne : names ≠ [])
    (hslash : ∀ name ∈ names, '/' ∉ name.toList) :
    (splitSlashes ("/".intercalate names).toList).map String.ofList = names := by
  have hparts : ∀ part ∈ names.map String.toList, '/' ∉ part := by
    simpa using hslash
  rw [splitSlashes_eq_splitOn, String.toList_intercalate]
  show ((['/'].intercalate (names.map String.toList)).splitOn '/').map String.ofList = names
  rw [List.splitOn_intercalate '/' hparts (by simpa using hne), List.map_map]
  simp

/-- A name that leads down: it stands for itself between slashes. -/
structure LeadsDown (name : String) : Prop where
  ne_empty : name ≠ ""
  ne_point : name ≠ "."
  ne_points : name ≠ ".."
  no_slash : '/' ∉ name.toList

namespace Path

/-! ## Going to names -/

variable {directory : Path}

/-- A name that leads down is put behind the others. -/
theorem enter_of_leadsDown {name : String} (h : LeadsDown name) (path : Path) :
    path.enter name = ⟨path.names ++ [name]⟩ := by
  have hstay : ¬ (name = "" || name = ".") = true := by
    simp [h.ne_empty, h.ne_point]
  unfold enter
  rw [if_neg hstay, if_neg h.ne_points]

/-- Names that lead down are put behind the others. -/
theorem foldl_enter_of_leadsDown {names : List String} (h : ∀ name ∈ names, LeadsDown name)
    (path : Path) : names.foldl enter path = ⟨path.names ++ names⟩ := by
  induction names generalizing path with
  | nil => rw [List.foldl_nil, List.append_nil]
  | cons name names ih =>
    rw [List.forall_mem_cons] at h
    rw [List.foldl_cons, enter_of_leadsDown h.1, ih h.2, List.append_assoc]
    rfl

/-- Two points lead to the directory above, and nowhere from the root. -/
theorem foldl_enter_up (up : Nat) (path : Path) :
    (List.replicate up "..").foldl enter path = ⟨path.names.take (path.names.length - up)⟩ := by
  induction up generalizing path with
  | zero => rw [List.replicate_zero, List.foldl_nil, Nat.sub_zero, List.take_length]
  | succ up ih =>
    have hup : path.enter ".." = ⟨path.names.dropLast⟩ := rfl
    rw [List.replicate_succ, List.foldl_cons, hup, ih, List.length_dropLast, List.dropLast_eq_take,
      List.take_take, Nat.min_eq_left (by omega), Nat.sub_sub, Nat.add_comm 1 up]

/-- A path keeps the first names of a directory and goes down from there. -/
def IsBranchOf (path directory : Path) : Prop :=
  ∃ kept names, kept ≤ directory.names.length ∧ (∀ name ∈ names, LeadsDown name) ∧
    path.names = directory.names.take kept ++ names

/-- Whatever name is entered, the path goes down from some directory above. -/
theorem IsBranchOf.enter {path : Path} {name : String} (h : path.IsBranchOf directory)
    (hslash : '/' ∉ name.toList) : (path.enter name).IsBranchOf directory := by
  obtain ⟨kept, names, hkept, hnames, hpath⟩ := h
  unfold Path.enter
  split
  · exact ⟨kept, names, hkept, hnames, hpath⟩
  · next hstay =>
    rw [Bool.or_eq_true, decide_eq_true_iff, decide_eq_true_iff, not_or] at hstay
    split
    · -- what is left out is the last of the names, or the last one that was kept
      rw [hpath]
      cases names with
      | nil =>
        refine ⟨kept - 1, [], by omega, List.forall_mem_nil _, ?_⟩
        rw [List.append_nil, List.append_nil, List.dropLast_eq_take, List.take_take,
          List.length_take, Nat.min_eq_left hkept, Nat.min_eq_left (by omega)]
      | cons first names =>
        refine ⟨kept, (first :: names).dropLast, hkept, ?_, ?_⟩
        · intro name hname
          exact hnames name ((List.dropLast_sublist _).subset hname)
        · exact List.dropLast_append_of_ne_nil (List.cons_ne_nil first names)
    · next hpoints =>
      refine ⟨kept, names ++ [name], hkept, ?_, ?_⟩
      · rw [List.forall_mem_append, List.forall_mem_singleton]
        exact ⟨hnames, hstay.1, hstay.2, hpoints, hslash⟩
      · rw [hpath, List.append_assoc]

/-- Whatever text is resolved, the path goes down from some directory above. -/
theorem isBranchOf_resolve (directory : Path) (text : String) :
    (directory.resolve text).IsBranchOf directory := by
  have hslash : ∀ name ∈ (splitSlashes text.toList).map String.ofList, '/' ∉ name.toList := by
    rw [List.forall_mem_map, splitSlashes_eq_splitOn]
    intro part hpart
    rw [String.toList_ofList]
    exact notMem_of_mem_splitOn part hpart
  have hfold : ∀ (names : List String) (start : Path), (∀ name ∈ names, '/' ∉ name.toList) →
      start.IsBranchOf directory → (names.foldl Path.enter start).IsBranchOf directory := by
    intro names
    induction names with
    | nil =>
      intro start _ hstart
      exact hstart
    | cons name names ih =>
      intro start hnames hstart
      rw [List.forall_mem_cons] at hnames
      exact ih (start.enter name) hnames.2 (hstart.enter hnames.1)
  unfold resolve
  apply hfold _ _ hslash
  split
  · exact ⟨0, [], Nat.zero_le _, List.forall_mem_nil _, rfl⟩
  · exact ⟨directory.names.length, [], Nat.le_refl _, List.forall_mem_nil _, by simp⟩

/-! ## The names in common -/

/-- What two lists have in common is the same in both. -/
theorem take_commonLength (as bs : List String) :
    as.take (commonLength as bs) = bs.take (commonLength as bs) := by
  fun_induction commonLength as bs with
  | case1 a as bs ih => rw [List.take_succ_cons, List.take_succ_cons, ih]
  | case2 a as b bs hne => rfl
  | case3 as bs h => rfl

/-- Two lists have no more in common than the first one has. -/
theorem commonLength_le (as bs : List String) : commonLength as bs ≤ as.length := by
  fun_induction commonLength as bs with
  | case1 a as bs ih => exact Nat.succ_le_succ ih
  | case2 a as b bs hne => exact Nat.zero_le _
  | case3 as bs h => exact Nat.zero_le _

/-- Behind what they have in common two lists do not go on alike. -/
theorem getElem?_commonLength_ne (as bs : List String) {name : String}
    (h : bs[commonLength as bs]? = some name) : as[commonLength as bs]? ≠ some name := by
  fun_induction commonLength as bs with
  | case1 a as bs ih =>
    rw [List.getElem?_cons_succ] at h ⊢
    exact ih h
  | case2 a as b bs hne =>
    rw [List.getElem?_cons_zero, Option.some.injEq] at h
    rw [List.getElem?_cons_zero, ne_eq, Option.some.injEq, ← h]
    exact hne
  | case3 as bs hnil =>
    cases as with
    | nil => exact (Option.some_ne_none name).symm
    | cons a as =>
      cases bs with
      | nil => cases h
      | cons b bs => exact (hnil a as b bs rfl rfl).elim

/-- A list that begins with names of another one has them in common with it. -/
theorem commonLength_take_append {as : List String} {kept : Nat} (h : kept ≤ as.length)
    (bs : List String) :
    commonLength as (as.take kept ++ bs) = commonLength (as.drop kept) bs + kept := by
  induction as generalizing kept with
  | nil =>
    obtain rfl : kept = 0 := Nat.le_zero.mp h
    rfl
  | cons a as ih =>
    cases kept with
    | zero => rfl
    | succ kept =>
      rw [List.take_succ_cons, List.cons_append, commonLength, if_pos rfl,
        ih (Nat.le_of_succ_le_succ h), List.drop_succ_cons, Nat.add_assoc]

/-- Lists that do not begin alike have nothing in common. -/
theorem commonLength_eq_zero {as bs : List String}
    (h : ∀ name, bs.head? = some name → as.head? ≠ some name) : commonLength as bs = 0 := by
  cases as with
  | nil => rfl
  | cons a as =>
    cases bs with
    | nil => rfl
    | cons b bs =>
      have hne : ¬ a = b := fun heq => h b rfl (congrArg some heq)
      exact if_neg hne

/-! ## Ways -/

/-- The text of a way that goes up and then down. -/
def wayText (up : Nat) (names : List String) : String :=
  "/".intercalate (List.replicate up ".." ++ names)

/-- A way from a directory without a detour: it does not climb above the root, and from where it
turns it does not go down to where it came from. -/
structure IsWay (directory : Path) (up : Nat) (names : List String) : Prop where
  up_le : up ≤ directory.names.length
  down : ∀ name ∈ names, LeadsDown name
  turns : ∀ name, names.head? = some name →
    directory.names[directory.names.length - up]? ≠ some name

/-- The text of a way does not begin at the root. -/
theorem IsWay.head?_ne_slash {up : Nat} {names : List String} (h : directory.IsWay up names) :
    (wayText up names).toList.head? ≠ some '/' := by
  have hfirst : ∀ name ∈ List.replicate up ".." ++ names, name ≠ "" ∧ '/' ∉ name.toList := by
    rw [List.forall_mem_append]
    refine ⟨?_, fun name hname => ⟨(h.down name hname).ne_empty, (h.down name hname).no_slash⟩⟩
    intro name hname
    rw [List.eq_of_mem_replicate hname]
    decide
  unfold wayText
  cases hall : List.replicate up ".." ++ names with
  | nil => exact (Option.some_ne_none '/').symm
  | cons first rest =>
    rw [hall, List.forall_mem_cons] at hfirst
    obtain ⟨⟨hne, hslash⟩, -⟩ := hfirst
    obtain ⟨c, cs, hchars⟩ := List.exists_cons_of_ne_nil (mt String.toList_eq_nil_iff.mp hne)
    have hbegin : ∃ more, "/".intercalate (first :: rest) = first ++ more := by
      cases rest with
      | nil => exact ⟨"", by simp⟩
      | cons second rest => exact ⟨_, by rw [String.intercalate_cons_cons, String.append_assoc]⟩
    obtain ⟨more, hmore⟩ := hbegin
    rw [hmore, String.toList_append, hchars, List.cons_append, List.head?_cons, ne_eq,
      Option.some.injEq]
    rintro rfl
    rw [hchars] at hslash
    exact hslash List.mem_cons_self

/-- A way leads up from the directory and then down. -/
theorem IsWay.resolve_wayText {up : Nat} {names : List String} (h : directory.IsWay up names) :
    directory.resolve (wayText up names) =
      ⟨directory.names.take (directory.names.length - up) ++ names⟩ := by
  have hslash : ∀ name ∈ List.replicate up ".." ++ names, '/' ∉ name.toList := by
    rw [List.forall_mem_append]
    refine ⟨?_, fun name hname => (h.down name hname).no_slash⟩
    intro name hname
    rw [List.eq_of_mem_replicate hname]
    decide
  have hsteps : ((splitSlashes (wayText up names).toList).map String.ofList).foldl enter directory =
      (List.replicate up ".." ++ names).foldl enter directory := by
    by_cases hnil : List.replicate up ".." ++ names = []
    · -- the empty text is one empty name, which leads nowhere
      unfold wayText
      rw [hnil]
      rfl
    · unfold wayText
      rw [splitSlashes_intercalate hnil hslash]
  unfold resolve
  dsimp only
  rw [if_neg h.head?_ne_slash, hsteps, List.foldl_append, foldl_enter_up,
    foldl_enter_of_leadsDown h.down]

/-- A path that is reached by a way is shown by it. -/
theorem IsWay.relativeTo_eq {up : Nat} {names : List String} (h : directory.IsWay up names) :
    (⟨directory.names.take (directory.names.length - up) ++ names⟩ : Path).relativeTo directory =
      wayText up names := by
  have hcommon : commonLength directory.names
      (directory.names.take (directory.names.length - up) ++ names) =
        directory.names.length - up := by
    rw [commonLength_take_append (Nat.sub_le _ _), commonLength_eq_zero, Nat.zero_add]
    intro name hname
    rw [List.head?_drop]
    exact h.turns name hname
  have hlength : (directory.names.take (directory.names.length - up)).length =
      directory.names.length - up := List.length_take_of_le (Nat.sub_le _ _)
  unfold relativeTo
  dsimp only
  rw [hcommon, Nat.sub_sub_self h.up_le, List.drop_left' hlength]
  rfl

/-- **Whatever is typed is shown as a way.** -/
theorem exists_way_of_resolve (directory : Path) (text : String) :
    ∃ up names, directory.IsWay up names ∧
      directory.resolve text = ⟨directory.names.take (directory.names.length - up) ++ names⟩ := by
  obtain ⟨kept, down, hkept, hdown, hpath⟩ := isBranchOf_resolve directory text
  generalize directory.resolve text = path at hpath ⊢
  have hle := commonLength_le directory.names path.names
  have htake := take_commonLength directory.names path.names
  have hturn : ∀ name, path.names[commonLength directory.names path.names]? = some name →
      directory.names[commonLength directory.names path.names]? ≠ some name :=
    fun _ => getElem?_commonLength_ne directory.names path.names
  -- the names that were kept are in common, so what is shown goes down
  have hcommon : kept ≤ commonLength directory.names path.names := by
    rw [hpath, commonLength_take_append hkept]
    exact Nat.le_add_left _ _
  generalize commonLength directory.names path.names = common at hle htake hturn hcommon
  have hup : directory.names.length - (directory.names.length - common) = common := by omega
  refine ⟨directory.names.length - common, path.names.drop common,
    ⟨Nat.sub_le _ _, ?_, ?_⟩, ?_⟩
  · intro name hname
    apply hdown
    have hlength : (directory.names.take kept).length ≤ common :=
      Nat.le_trans (List.length_take_le _ _) hcommon
    rw [hpath, List.drop_append, List.drop_eq_nil_of_le hlength] at hname
    exact List.mem_of_mem_drop hname
  · intro name hname
    rw [List.head?_drop] at hname
    rw [hup]
    exact hturn name hname
  · rw [hup, htake, List.take_append_drop]

/-! ## What is shown -/

/-- A text is a way without a detour to what it stands for. -/
def IsDirect (directory : Path) (text : String) : Prop :=
  ∃ up names, directory.IsWay up names ∧ text = wayText up names

/-- What is shown leads back to the path. -/
theorem resolve_relativeTo_resolve (directory : Path) (text : String) :
    directory.resolve ((directory.resolve text).relativeTo directory) = directory.resolve text := by
  obtain ⟨up, names, hway, hpath⟩ := exists_way_of_resolve directory text
  rw [hpath, hway.relativeTo_eq, hway.resolve_wayText]

/-- **A text is shown as it is exactly if it is the way already.** -/
theorem relativeTo_resolve_eq_self_iff {text : String} :
    (directory.resolve text).relativeTo directory = text ↔ directory.IsDirect text := by
  constructor
  · intro h
    obtain ⟨up, names, hway, hpath⟩ := exists_way_of_resolve directory text
    rw [hpath, hway.relativeTo_eq] at h
    exact ⟨up, names, hway, h.symm⟩
  · rintro ⟨up, names, hway, rfl⟩
    rw [hway.resolve_wayText, hway.relativeTo_eq]

end Path

end LineSum
