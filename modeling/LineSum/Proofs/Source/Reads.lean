import LineSum.Proofs.Source.Loading
import LineSum.Proofs.Source.PathOrder

/-!
# Every file is read once

Loading takes the patterns in turn and, for each, its files in the order of their paths. A file is
read where it comes first. So what is read, and what is made of it, depends on the list of all files
without later repetitions alone. `loading_in_turn` says what this comes to, and what follows for
patterns that are added or change places, and for files that cannot be read. A file that can be read
but has more expressions than can be taken over at once is reported like one that cannot:
`not_loading_of_long_file`.
-/

namespace LineSum

/-! ## What is to be done -/

namespace LoadStep

/-- The file that is read. -/
def path? : LoadStep → Option Path
  | unmatched _ => none
  | load path => some path

/-- The pattern that is reported. -/
def pattern? : LoadStep → Option String
  | unmatched pattern => some pattern
  | load _ => none

end LoadStep

section InTurn

variable (matched : String → List Path)

/-- The files that patterns stand for, in the order of the patterns and, for each, of the paths.
Each file is listed where it comes first. -/
def foundPaths (patterns : List String) : List Path :=
  (patterns.flatMap fun pattern => sortPaths (matched pattern)).eraseDups

/-- What is to be done for a pattern behind others: it is reported if it stands for no file, and
otherwise those of its files are read that no earlier pattern stands for. -/
def turn (before : List String) (pattern : String) : List LoadStep :=
  if matched pattern = [] then [.unmatched pattern]
  else (freshPaths (before.flatMap matched) (matched pattern)).map .load

/-- What is to be done for patterns behind others, one pattern after the other. -/
def turns (before : List String) : List String → List LoadStep
  | [] => []
  | pattern :: patterns => turn matched before pattern ++ turns (before ++ [pattern]) patterns

variable {matched}

/-- A file is found exactly if some pattern stands for it. -/
theorem mem_foundPaths_iff {patterns : List String} {path : Path} :
    path ∈ foundPaths matched patterns ↔ ∃ pattern ∈ patterns, path ∈ matched pattern := by
  unfold foundPaths
  rw [List.mem_eraseDups, List.mem_flatMap]
  simp only [mem_sortPaths_iff]

/-- The order of the patterns does not matter for the files that are found. -/
theorem foundPaths_perm {patterns others : List String} (h : others.Perm patterns) :
    (foundPaths matched others).Perm (foundPaths matched patterns) := by
  refine (List.perm_ext_iff_of_nodup (nodup_eraseDups _) (nodup_eraseDups _)).mpr fun path => ?_
  change path ∈ foundPaths matched others ↔ path ∈ foundPaths matched patterns
  rw [mem_foundPaths_iff, mem_foundPaths_iff]
  simp only [h.mem_iff]

/-- Files that no pattern stands for any more are not found, and all others are
found in the same order. -/
theorem foundPaths_filter (p : Path → Bool) (patterns : List String) :
    foundPaths (fun pattern => (matched pattern).filter p) patterns =
      (foundPaths matched patterns).filter p := by
  unfold foundPaths
  rw [← eraseDups_filter, List.filter_flatMap]
  simp only [sortPaths_filter]

/-- It only matters which files have been read, not in which order. -/
theorem freshPaths_congr {seen others : List Path} (h : ∀ path, path ∈ seen ↔ path ∈ others)
    (paths : List Path) : freshPaths seen paths = freshPaths others paths := by
  unfold freshPaths
  refine List.filter_congr fun path _ => ?_
  rw [Bool.eq_iff_iff]
  simp [h path]

/-- It does not matter whether files that have been read are passed over before or
after repetitions are. -/
theorem freshPaths_eq (seen paths : List Path) :
    freshPaths seen paths = ((sortPaths paths).filter (!seen.contains ·)).eraseDups :=
  (eraseDups_filter _ _).symm

/-- What is read for a pattern are its files that no earlier pattern stands for. -/
theorem filterMap_path?_turn (before : List String) (pattern : String) :
    (turn matched before pattern).filterMap LoadStep.path? =
      freshPaths (before.flatMap matched) (matched pattern) := by
  unfold turn
  split
  · next hnone =>
    rw [hnone]
    simp [LoadStep.path?, freshPaths, sortPaths]
  · rw [List.filterMap_map]
    exact List.filterMap_some

/-- What is read for patterns behind others are their files that none of those stands for, each
where it comes first. -/
theorem filterMap_path?_turns_behind (before patterns : List String) :
    (turns matched before patterns).filterMap LoadStep.path? =
      ((patterns.flatMap fun pattern => sortPaths (matched pattern)).filter
        (!(before.flatMap matched).contains ·)).eraseDups := by
  induction patterns generalizing before with
  | nil => rfl
  | cons pattern patterns ih =>
    rw [turns, List.filterMap_append, filterMap_path?_turn, ih, freshPaths_eq, List.flatMap_cons,
      List.filter_append, List.eraseDups_append]
    unfold List.removeAll
    rw [List.filter_filter]
    -- Behind the pattern, its own files count as read as well.
    have hbehind (path : Path) : (!((before ++ [pattern]).flatMap matched).contains path) =
        (!((sortPaths (matched pattern)).filter (!(before.flatMap matched).contains ·)).elem path &&
          !(before.flatMap matched).contains path) := by
      by_cases hmem : path ∈ matched pattern <;> simp [hmem]
    simp only [hbehind]

/-- **The files that are found are read, each once and in their order.** -/
theorem filterMap_path?_turns (patterns : List String) :
    (turns matched [] patterns).filterMap LoadStep.path? = foundPaths matched patterns := by
  rw [filterMap_path?_turns_behind]
  simp [foundPaths]

/-- The patterns that stand for no file are reported, each as often as it
comes and in their order. -/
theorem filterMap_pattern?_turns (before patterns : List String) :
    (turns matched before patterns).filterMap LoadStep.pattern? =
      patterns.filter (matched · = []) := by
  induction patterns generalizing before with
  | nil => rfl
  | cons pattern patterns ih =>
    rw [turns, List.filterMap_append, ih]
    unfold turn
    split
    · next hnone => simp [LoadStep.pattern?, hnone]
    · next hsome => simp [LoadStep.pattern?, hsome, Function.comp_def]

/-- Patterns behind others come after them. -/
theorem turns_append (before patterns others : List String) :
    turns matched before (patterns ++ others) =
      turns matched before patterns ++ turns matched (before ++ patterns) others := by
  induction patterns generalizing before with
  | nil => simp [turns]
  | cons pattern patterns ih => simp [turns, ih]

/-- Nothing is to be done for a pattern with files that earlier patterns stand for. -/
theorem turn_eq_nil {before : List String} {pattern : String} (hsome : matched pattern ≠ [])
    (hcovered : ∀ path ∈ matched pattern, ∃ earlier ∈ before, path ∈ matched earlier) :
    turn matched before pattern = [] := by
  unfold turn
  rw [if_neg hsome, List.map_eq_nil_iff, List.eq_nil_iff_forall_not_mem]
  intro path hpath
  obtain ⟨hmem, hnew⟩ := mem_freshPaths_iff.mp hpath
  exact hnew (List.mem_flatMap.mpr (hcovered path hmem))

/-- **What is done is what is to be done in turn**, if all patterns can be searched for. -/
theorem loadSteps_eq_turns {find : String → Except PatternError (List Path)}
    {patterns : List String} (hfind : ∀ pattern ∈ patterns, find pattern = .ok (matched pattern))
    {seen : List Path} {before : List String}
    (hseen : ∀ path, path ∈ seen ↔ path ∈ before.flatMap matched) :
    loadSteps find seen patterns = .ok (turns matched before patterns) := by
  induction patterns generalizing seen before with
  | nil => rfl
  | cons pattern patterns ih =>
    obtain ⟨hpattern, hrest⟩ := List.forall_mem_cons.mp hfind
    rw [loadSteps, hpattern, turns]
    unfold turn
    cases hpaths : matched pattern with
    | nil =>
      -- Nothing more has been read, and nothing more has been found.
      have hnext : ∀ path, path ∈ seen ↔ path ∈ (before ++ [pattern]).flatMap matched := by
        intro path
        simp [hseen, hpaths]
      dsimp only
      rw [ih hrest hnext]
      rfl
    | cons first paths =>
      have hnext : ∀ path, path ∈ seen ++ freshPaths seen (first :: paths) ↔
          path ∈ (before ++ [pattern]).flatMap matched := by
        intro path
        rw [List.mem_append, mem_freshPaths_iff, hseen, List.flatMap_append, List.mem_append,
          List.flatMap_singleton, hpaths]
        tauto
      dsimp only
      change (loadSteps find (seen ++ freshPaths seen (first :: paths)) patterns).map
        ((freshPaths seen (first :: paths)).map .load ++ ·) = _
      rw [ih hrest hnext, freshPaths_congr hseen, if_neg (List.cons_ne_nil _ _)]
      rfl

end InTurn

/-! ## What comes of it -/

section Reports

variable (read : Path → Except ReadError String) (directory : Path)

/-- The expressions that a file holds: those of its text if it can be read, and none otherwise. -/
def expressionsAt (path : Path) : List Expression :=
  match read path with
  | .ok text => Expression.ofFile text (path.relativeTo directory)
  | .error _ => []

/-- The report that a file cannot be read. -/
def unreadable? (path : Path) : Option Diagnostic :=
  match read path with
  | .ok _ => none
  | .error e =>
    some ⟨.fileReadError, s!"Failed to read {path.relativeTo directory}: {e.message}", .error,
      path.relativeTo directory, none, none⟩

end Reports

/-- What a step reports: that a pattern has no files, or what there is to report of a file. -/
def LoadStep.report? (file? : Path → Option Diagnostic) : LoadStep → Option Diagnostic
  | unmatched pattern =>
    some ⟨.noExpressions, s!"No files matched \"{pattern}\"", .warning, pattern, none, none⟩
  | load path => file? path

/-- Apart from their order, the reports are those of the patterns and those of the files. -/
theorem filterMap_report?_perm (file? : Path → Option Diagnostic) (steps : List LoadStep) :
    (steps.filterMap (LoadStep.report? file?)).Perm
      ((steps.filterMap LoadStep.pattern?).map unmatchedPattern ++
        (steps.filterMap LoadStep.path?).filterMap file?) := by
  induction steps with
  | nil => rfl
  | cons step steps ih =>
    cases step with
    | unmatched pattern => exact ih.cons _
    | load path =>
      have hpath : (LoadStep.load path :: steps).filterMap LoadStep.path? =
          path :: steps.filterMap LoadStep.path? := rfl
      have hpattern : (LoadStep.load path :: steps).filterMap LoadStep.pattern? =
          steps.filterMap LoadStep.pattern? := rfl
      rw [hpath, hpattern]
      cases hfile : file? path with
      | none =>
        have hreport : LoadStep.report? file? (.load path) = none := hfile
        rw [List.filterMap_cons_none hfile, List.filterMap_cons_none hreport]
        exact ih
      | some d =>
        have hreport : LoadStep.report? file? (.load path) = some d := hfile
        rw [List.filterMap_cons_some hfile, List.filterMap_cons_some hreport]
        exact (ih.cons d).trans List.perm_middle.symm

section Performing

variable (files : FileSystem) (directory : Path)

/-- A file holds more expressions than can be taken over at once. -/
def IsOverlong (path : Path) : Prop :=
  files.capacity < (expressionsAt files.read directory path).length

instance : DecidablePred (IsOverlong files directory) := fun path =>
  inferInstanceAs (Decidable (files.capacity < (expressionsAt files.read directory path).length))

/-- The expressions that are taken over from a file: all that it holds, and none of them if there
are too many. -/
def takenAt (path : Path) : List Expression :=
  if IsOverlong files directory path then [] else expressionsAt files.read directory path

/-- The report that nothing is taken over from a file. -/
def untaken? (path : Path) : Option Diagnostic :=
  if IsOverlong files directory path then
    some ⟨.fileReadError,
      s!"Failed to read {path.relativeTo directory}: Maximum call stack size exceeded", .error,
      path.relativeTo directory, none, none⟩
  else unreadable? files.read directory path

variable {files directory} in
/-- A file that cannot be read holds no expressions, so it does not hold too many. -/
theorem not_isOverlong_of_read {path : Path} {e : ReadError} (hread : files.read path = .error e) :
    ¬ IsOverlong files directory path := by
  unfold IsOverlong expressionsAt
  rw [hread]
  exact Nat.not_lt_zero _

/-- What comes of reading a file: what is taken over from it, and the report
that this is nothing. -/
theorem perform_load (path : Path) : (LoadStep.load path).perform files directory =
    ⟨takenAt files directory path, (untaken? files directory path).toList⟩ := by
  unfold LoadStep.perform takenAt untaken?
  dsimp only
  cases hread : files.read path with
  | error e =>
    have hfailed : files.expressions path (path.relativeTo directory) = .error e :=
      FileSystem.expressions_eq_error_iff.mpr (.inl hread)
    rw [hfailed, if_neg (not_isOverlong_of_read hread), if_neg (not_isOverlong_of_read hread)]
    unfold expressionsAt unreadable?
    rw [hread]
    rfl
  | ok text =>
    have hheld : expressionsAt files.read directory path =
        Expression.ofFile text (path.relativeTo directory) := by
      unfold expressionsAt
      rw [hread]
    by_cases hmany : IsOverlong files directory path
    · have hfailed : files.expressions path (path.relativeTo directory) = .error .tooLong := by
        refine FileSystem.expressions_eq_error_iff.mpr (.inr ⟨text, hread, ?_, rfl⟩)
        rw [← hheld]
        exact hmany
      rw [hfailed, if_pos hmany, if_pos hmany]
      dsimp only
      rw [unreadableFile_tooLong]
      rfl
    · have htaken : files.expressions path (path.relativeTo directory) =
          .ok (expressionsAt files.read directory path) := by
        unfold FileSystem.expressions
        rw [hread, hheld]
        exact if_pos (hheld ▸ Nat.le_of_not_lt hmany)
      rw [htaken, if_neg hmany, if_neg hmany]
      unfold unreadable?
      rw [hread]
      rfl

/-- What comes of steps: what is taken over from the files that are read, and
what the steps report. -/
theorem foldr_append_perform (steps : List LoadStep) :
    (steps.map (LoadStep.perform files directory)).foldr LoadedExpressions.append
        LoadedExpressions.empty =
      ⟨(steps.filterMap LoadStep.path?).flatMap (takenAt files directory),
        steps.filterMap (LoadStep.report? (untaken? files directory))⟩ := by
  induction steps with
  | nil => rfl
  | cons step steps ih =>
    rw [List.map_cons, List.foldr_cons, ih]
    cases step with
    | unmatched pattern => rfl
    | load path =>
      have hpath : (LoadStep.load path :: steps).filterMap LoadStep.path? =
          path :: steps.filterMap LoadStep.path? := rfl
      rw [hpath, List.flatMap_cons, perform_load]
      unfold LoadedExpressions.append
      cases huntaken : untaken? files directory path <;> simp [LoadStep.report?, huntaken]

end Performing

/-! ## Files that are too long -/

/-- If no part of one concatenation is longer than that of another one, both are equal exactly if
all parts are. -/
theorem flatMap_eq_flatMap_iff {α β : Type} {f g : α → List β}
    (hle : ∀ a, (f a).length ≤ (g a).length) (l : List α) :
    l.flatMap f = l.flatMap g ↔ ∀ a ∈ l, f a = g a := by
  refine ⟨?_, List.flatMap_congr⟩
  induction l with
  | nil => exact fun _ => List.forall_mem_nil _
  | cons a l ih =>
    intro h
    have hrest : (l.flatMap f).length ≤ (l.flatMap g).length := by
      rw [List.length_flatMap, List.length_flatMap]
      exact List.sum_le_sum fun b _ => hle b
    have hlength := congrArg List.length h
    rw [List.flatMap_cons, List.flatMap_cons, List.length_append, List.length_append] at hlength
    have hfirst := hle a
    obtain ⟨ha, hl⟩ := List.append_inj h (by omega)
    exact List.forall_mem_cons.mpr ⟨ha, ih hl⟩

/-- An option is known from the list of what it holds. -/
theorem toList_inj {α : Type} {a b : Option α} : a.toList = b.toList ↔ a = b := by
  cases a <;> cases b <;> simp

section Overlong

variable (files : FileSystem) (directory : Path)

/-- What a file holds is taken over exactly if it is not too much. -/
theorem takenAt_eq_iff (path : Path) :
    takenAt files directory path = expressionsAt files.read directory path ↔
      ¬ IsOverlong files directory path := by
  unfold takenAt
  by_cases hmany : IsOverlong files directory path
  · rw [if_pos hmany]
    refine iff_of_false ?_ (not_not_intro hmany)
    intro hnil
    unfold IsOverlong at hmany
    rw [← hnil] at hmany
    exact Nat.not_lt_zero _ hmany
  · rw [if_neg hmany]
    exact iff_of_true rfl hmany

/-- A file that can be read is reported exactly if it holds too much. -/
theorem untaken?_eq_iff (path : Path) :
    untaken? files directory path = unreadable? files.read directory path ↔
      ¬ IsOverlong files directory path := by
  unfold untaken?
  by_cases hmany : IsOverlong files directory path
  · rw [if_pos hmany]
    refine iff_of_false ?_ (not_not_intro hmany)
    unfold unreadable?
    cases hread : files.read path with
    | ok text => exact Option.some_ne_none _
    | error e => exact absurd hmany (not_isOverlong_of_read hread)
  · rw [if_neg hmany]
    exact iff_of_true rfl hmany

/-- Everything that files hold is taken over exactly if none of them holds too much. -/
theorem flatMap_takenAt_eq_iff (paths : List Path) :
    paths.flatMap (takenAt files directory) = paths.flatMap (expressionsAt files.read directory) ↔
      ∀ path ∈ paths, ¬ IsOverlong files directory path := by
  rw [flatMap_eq_flatMap_iff]
  · exact forall₂_congr fun path _ => takenAt_eq_iff files directory path
  · intro path
    unfold takenAt
    split
    · exact Nat.zero_le _
    · exact le_rfl

/-- Only files that cannot be read are reported exactly if no file that is read holds too much. -/
theorem filterMap_report?_eq_iff (steps : List LoadStep) :
    steps.filterMap (LoadStep.report? (untaken? files directory)) =
        steps.filterMap (LoadStep.report? (unreadable? files.read directory)) ↔
      ∀ path ∈ steps.filterMap LoadStep.path?, ¬ IsOverlong files directory path := by
  have hstep (step : LoadStep) : step.report? (untaken? files directory) =
      step.report? (unreadable? files.read directory) ↔
        ∀ path, step.path? = some path → ¬ IsOverlong files directory path := by
    cases step with
    | unmatched pattern => exact iff_of_true rfl fun _ => nofun
    | load path =>
      unfold LoadStep.report? LoadStep.path?
      simp [untaken?_eq_iff]
  rw [List.filterMap_eq_flatMap_toList, List.filterMap_eq_flatMap_toList,
    eq_comm, flatMap_eq_flatMap_iff]
  · simp only [toList_inj, eq_comm.trans (hstep _), List.mem_filterMap]
    exact ⟨fun h path ⟨step, hmem, hpath⟩ => h step hmem path hpath,
      fun h step hmem path hpath => h path ⟨step, hmem, hpath⟩⟩
  · intro step
    cases step with
    | unmatched pattern => exact le_rfl
    | load path =>
      show (unreadable? files.read directory path).toList.length ≤
        (untaken? files directory path).toList.length
      unfold untaken?
      split
      · exact Option.length_toList_le
      · exact le_rfl

end Overlong

section Loading

variable {files : FileSystem} {directory : Path} {ignore patterns : List String}
  {matched : String → List Path}

/-- What loading gives if all patterns can be searched for. -/
theorem loadExpressions_eq
    (hfind : ∀ pattern ∈ patterns, files.find ignore pattern = .ok (matched pattern)) :
    loadExpressions files directory ignore patterns =
      .ok ⟨(foundPaths matched patterns).flatMap (takenAt files directory),
        (turns matched [] patterns).filterMap (LoadStep.report? (untaken? files directory))⟩ := by
  unfold loadExpressions
  have hsteps : loadSteps (files.find ignore) [] patterns = .ok (turns matched [] patterns) :=
    loadSteps_eq_turns hfind fun _ => Iff.rfl
  rw [hsteps, ← filterMap_path?_turns]
  exact congrArg Except.ok (foldr_append_perform files directory _)

/-- Nothing is taken over from a file that cannot be read, so it can be left out. -/
theorem flatMap_takenAt_filter {path : Path} {e : ReadError} (hread : files.read path = .error e)
    (directory : Path) (paths : List Path) :
    (paths.filter (· ≠ path)).flatMap (takenAt files directory) =
      paths.flatMap (takenAt files directory) := by
  induction paths with
  | nil => rfl
  | cons other paths ih =>
    by_cases hother : other = path
    · subst hother
      have hnone : takenAt files directory other = [] := by
        unfold takenAt
        rw [if_neg (not_isOverlong_of_read hread)]
        unfold expressionsAt
        rw [hread]
      rw [List.filter_cons_of_neg (by simp), ih, List.flatMap_cons, hnone, List.nil_append]
    · rw [List.filter_cons_of_pos (by simpa using hother), List.flatMap_cons, List.flatMap_cons, ih]

/-- Without a file that cannot be read, loading gives the same expressions. -/
theorem loadExpressions_without {without : FileSystem} {path : Path} {e : ReadError}
    (hread : files.read path = .error e)
    (hfind : ∀ pattern ∈ patterns,
      without.find ignore pattern = .ok ((matched pattern).filter (· ≠ path)))
    (hothers : ∀ other, other ≠ path → without.read other = files.read other)
    (hcapacity : without.capacity = files.capacity) :
    ∃ rest, loadExpressions without directory ignore patterns = .ok rest ∧
      rest.expressions = (foundPaths matched patterns).flatMap (takenAt files directory) := by
  refine ⟨_, loadExpressions_eq hfind, ?_⟩
  dsimp only
  rw [foundPaths_filter, ← flatMap_takenAt_filter hread]
  refine List.flatMap_congr fun other hother => ?_
  have hheld : expressionsAt without.read directory other =
      expressionsAt files.read directory other := by
    unfold expressionsAt
    rw [hothers other (by simpa using (List.mem_filter.mp hother).2)]
  have hmany : IsOverlong without directory other ↔ IsOverlong files directory other := by
    unfold IsOverlong
    rw [hheld, hcapacity]
  unfold takenAt
  simp only [hmany, hheld]

end Loading

/-- **What loading comes to.** If all patterns can be searched for, the patterns are taken in turn:
of the files that they stand for, sorted pattern by pattern, each is read once, where it comes
first. The expressions are those of the files, in this order, and the reports are one for each
pattern without files and one for each file that cannot be read, exactly if no file has more
expressions than can be taken over at once; of a file that has, nothing is taken over, and it is
reported as well. Nothing changes when a pattern is added behind the others all of whose files are
found already, patterns that change places do not change what is read and reported but for the
order, and a file that cannot be read does not matter for the expressions of the others. -/
theorem loading_in_turn (files : FileSystem) (directory : Path) (ignore patterns : List String)
    (matched : String → List Path)
    (hfind : ∀ pattern ∈ patterns, files.find ignore pattern = .ok (matched pattern)) :
    let found := foundPaths matched patterns
    let steps := turns matched [] patterns
    (∀ pattern, (sortPaths (matched pattern)).Perm (matched pattern) ∧
      (sortPaths (matched pattern)).Pairwise fun a b => unitsLe a.text b.text = true) ∧
    loadSteps (files.find ignore) [] patterns = .ok steps ∧
    steps.filterMap LoadStep.path? = found ∧ found.Nodup ∧
    steps.filterMap LoadStep.pattern? = patterns.filter (matched · = []) ∧
    ∃ loaded, loadExpressions files directory ignore patterns = .ok loaded ∧
      loaded.expressions = found.flatMap (takenAt files directory) ∧
      loaded.diagnostics = steps.filterMap (LoadStep.report? (untaken? files directory)) ∧
      (loaded.expressions = found.flatMap (expressionsAt files.read directory) ↔
        ∀ path ∈ found, ¬ IsOverlong files directory path) ∧
      (loaded.diagnostics =
          steps.filterMap (LoadStep.report? (unreadable? files.read directory)) ↔
        ∀ path ∈ found, ¬ IsOverlong files directory path) ∧
      (∀ pattern, files.find ignore pattern = .ok (matched pattern) → matched pattern ≠ [] →
        (∀ path ∈ matched pattern, ∃ earlier ∈ patterns, path ∈ matched earlier) →
        loadExpressions files directory ignore (patterns ++ [pattern]) = .ok loaded) ∧
      (∀ others, others.Perm patterns →
        (foundPaths matched others).Perm found ∧
        ∃ again, loadExpressions files directory ignore others = .ok again ∧
          again.expressions.Perm loaded.expressions ∧
          again.diagnostics.Perm loaded.diagnostics) ∧
      ∀ path e, files.read path = .error e → ∀ without : FileSystem,
        (∀ pattern ∈ patterns,
          without.find ignore pattern = .ok ((matched pattern).filter (· ≠ path))) →
        (∀ other, other ≠ path → without.read other = files.read other) →
        without.capacity = files.capacity →
        ∃ rest, loadExpressions without directory ignore patterns = .ok rest ∧
          rest.expressions = loaded.expressions := by
  intro found steps
  refine ⟨fun pattern => ⟨sortPaths_perm _, sortPaths_pairwise _⟩,
    loadSteps_eq_turns hfind fun _ => Iff.rfl, filterMap_path?_turns patterns, nodup_eraseDups _,
    filterMap_pattern?_turns [] patterns, _, loadExpressions_eq hfind, rfl, rfl,
    flatMap_takenAt_eq_iff files directory found, ?_, ?_, ?_, ?_⟩
  · refine (filterMap_report?_eq_iff files directory steps).trans ?_
    rw [filterMap_path?_turns]
  · -- A pattern all of whose files are found already adds no step.
    intro pattern hpattern hsome hcovered
    have hall : ∀ p ∈ patterns ++ [pattern], files.find ignore p = .ok (matched p) :=
      List.forall_mem_append.mpr ⟨hfind, List.forall_mem_singleton.mpr hpattern⟩
    have hsame : turns matched [] (patterns ++ [pattern]) = steps := by
      rw [turns_append, List.nil_append, turns, turns, turn_eq_nil hsome hcovered, List.append_nil,
        List.append_nil]
    rw [loadExpressions_eq hall, ← filterMap_path?_turns, hsame, filterMap_path?_turns]
  · intro others hperm
    have hfound : (foundPaths matched others).Perm found := foundPaths_perm hperm
    refine ⟨hfound, _, loadExpressions_eq fun p hp => hfind p (hperm.mem_iff.mp hp),
      hfound.flatMap_right _, ?_⟩
    -- In whatever order, the reports are those of the patterns and those of the files, and both
    -- only move.
    have hreports (l : List String) :=
      filterMap_report?_perm (untaken? files directory) (turns matched [] l)
    simp only [filterMap_pattern?_turns, filterMap_path?_turns] at hreports
    refine (hreports others).trans (List.Perm.trans ?_ (hreports patterns).symm)
    exact ((hperm.filter _).map _).append (hfound.filterMap _)
  · intro path e hread without hwithout hothers hcapacity
    exact loadExpressions_without hread hwithout hothers hcapacity

/-- What the patterns of a small file system stand for: one for two files, another one
for the second of them in the order of finding, a third one for a file of its own, and
all others for none. -/
def overlappingMatches (pattern : String) : List Path :=
  if pattern = "*" then [⟨["b"]⟩, ⟨["a"]⟩]
  else if pattern = "a" then [⟨["a"]⟩]
  else if pattern = "two" then [⟨["two"]⟩]
  else []

/-- A file system with overlapping patterns, a file that cannot be read and a file with two
expressions, where only one can be taken over at once. -/
def overlapping : FileSystem where
  has _ := true
  read path :=
    if path = ⟨["b"]⟩ then .error .missing
    else if path = ⟨["two"]⟩ then .ok "2 + 2\n3 + 3"
    else .ok "1 + 1"
  find _ pattern := .ok (overlappingMatches pattern)
  capacity := 1

/-- The file that can be read gives its expression, the other two are reported, and so is a pattern
without files as often as it comes. A pattern that finds the same files again adds nothing, the
order of the patterns does not change what is reported, and the expression is the same without the
unreadable file. -/
theorem loading_in_turn_overlapping :
    (∀ pattern ∈ ["c", "a", "*", "c", "two"],
        overlapping.find [] pattern = .ok (overlappingMatches pattern)) ∧
      ∃ loaded, loadExpressions overlapping ⟨[]⟩ [] ["c", "a", "*", "c", "two"] = .ok loaded ∧
        loaded.expressions = [⟨"1 + 1", "a", 1⟩] ∧
        loaded.diagnostics =
          [⟨.noExpressions, "No files matched \"c\"", .warning, "c", none, none⟩,
            ⟨.fileReadError, "Failed to read b: ENOENT: no such file or directory",
              .error, "b", none, none⟩,
            ⟨.noExpressions, "No files matched \"c\"", .warning, "c", none, none⟩,
            ⟨.fileReadError, "Failed to read two: Maximum call stack size exceeded", .error,
              "two", none, none⟩] ∧
        loadExpressions overlapping ⟨[]⟩ [] ["c", "a", "*", "c", "two", "*"] = .ok loaded ∧
        (∃ again, loadExpressions overlapping ⟨[]⟩ [] ["two", "*", "c", "a", "c"] = .ok again ∧
          again.expressions.Perm loaded.expressions ∧
          again.diagnostics.Perm loaded.diagnostics) ∧
        ∃ rest, loadExpressions
            { overlapping with
              find := fun _ pattern => .ok ((overlappingMatches pattern).filter (· ≠ ⟨["b"]⟩)) }
            ⟨[]⟩ [] ["c", "a", "*", "c", "two"] = .ok rest ∧
          rest.expressions = loaded.expressions := by
  have hfind : ∀ pattern ∈ ["c", "a", "*", "c", "two"],
      overlapping.find [] pattern = .ok (overlappingMatches pattern) := fun _ _ => rfl
  obtain ⟨-, -, -, -, -, loaded, hloaded, hexpressions, hdiagnostics, -, -, hadded, hmoved,
    hwithout⟩ :=
    loading_in_turn overlapping ⟨[]⟩ [] ["c", "a", "*", "c", "two"] overlappingMatches hfind
  obtain ⟨-, again, hagain, hsame, hreports⟩ := hmoved ["two", "*", "c", "a", "c"] (by decide)
  refine ⟨hfind, loaded, hloaded, hexpressions.trans ?_, hdiagnostics.trans ?_,
    hadded "*" rfl (by decide) (by decide), ⟨again, hagain, hsame, hreports⟩,
    hwithout ⟨["b"]⟩ .missing rfl _ (fun _ _ => rfl) (fun _ _ => rfl) rfl⟩
  · cbv
  · cbv

/-! ## A file with too many lines -/

/-- So many lines with the same digit on each. -/
def onesOn : Nat → List Char
  | 0 => []
  | n + 1 => '1' :: '\n' :: onesOn n

/-- Each of these lines is an expression, and what stands behind the last newline is none. -/
theorem length_ofLines_onesOn (file : String) (first n : Nat) :
    (Expression.ofLines file first (splitLines (onesOn n))).length = n := by
  induction n generalizing first with
  | zero => rfl
  | succ n ih =>
    have hlines : splitLines (onesOn (n + 1)) = ['1'] :: splitLines (onesOn n) := by
      rw [onesOn, splitLines, if_neg (by decide), splitLines, if_pos rfl]
    have hkept : isSkipped (dropReturn ['1']) = false := by decide
    rw [hlines, Expression.ofLines, hkept]
    exact congrArg Nat.succ (ih (first + 1))

/-- A text with a letter on its first line and a digit on each of the following lines. -/
def longText (n : Nat) : String :=
  String.ofList ('x' :: '\n' :: onesOn n)

/-- Each line of the text is an expression. -/
theorem length_ofFile_longText (file : String) (n : Nat) :
    (Expression.ofFile (longText n) file).length = n + 1 := by
  have hlines : splitLines (dropMark ('x' :: '\n' :: onesOn n)) =
      ['x'] :: splitLines (onesOn n) := by
    rw [dropMark, if_neg (by decide), splitLines, if_neg (by decide), splitLines, if_pos rfl]
  have hkept : isSkipped (dropReturn ['x']) = false := by decide
  unfold Expression.ofFile longText
  rw [String.toList_ofList, hlines, Expression.ofLines, hkept]
  exact congrArg Nat.succ (length_ofLines_onesOn file 2 n)

/-- A single file with this text, which every pattern finds. -/
def longFile (n : Nat) : FileSystem :=
  ⟨fun _ => true, fun _ => .ok (longText n), fun _ _ => .ok [⟨["big.txt"]⟩], usualCapacity⟩

/-- If there are too many lines, nothing is taken over, and a file that can be read is reported as
one that cannot. -/
theorem loadExpressions_longFile {n : Nat} (h : usualCapacity ≤ n) :
    loadExpressions (longFile n) ⟨[]⟩ [] ["big.txt"] =
      .ok ⟨[], [⟨.fileReadError, "Failed to read big.txt: Maximum call stack size exceeded", .error,
        "big.txt", none, none⟩]⟩ := by
  have hlong (path : Path) : IsOverlong (longFile n) ⟨[]⟩ path := by
    show usualCapacity < (Expression.ofFile (longText n) _).length
    rw [length_ofFile_longText]
    exact Nat.lt_succ_of_le h
  have htaken : takenAt (longFile n) ⟨[]⟩ = fun _ => [] := funext fun path => if_pos (hlong path)
  have huntaken : untaken? (longFile n) ⟨[]⟩ = fun path =>
      some ⟨.fileReadError,
        s!"Failed to read {path.relativeTo ⟨[]⟩}: Maximum call stack size exceeded", .error,
        path.relativeTo ⟨[]⟩, none, none⟩ := funext fun path => if_pos (hlong path)
  have hfind : ∀ pattern ∈ ["big.txt"],
      (longFile n).find [] pattern = .ok ((fun _ => [⟨["big.txt"]⟩]) pattern) := fun _ _ => rfl
  rw [loadExpressions_eq hfind, htaken, huntaken]
  cbv

/-- None of its 130001 expressions is taken over from a file that can be read, and it is reported as
one that cannot be read. -/
theorem not_loading_of_long_file :
    (longFile 130000).read ⟨["big.txt"]⟩ = .ok (longText 130000) ∧
    (Expression.ofFile (longText 130000) "big.txt").length = 130001 ∧
    loadExpressions (longFile 130000) ⟨[]⟩ [] ["big.txt"] =
      .ok ⟨[], [⟨.fileReadError, "Failed to read big.txt: Maximum call stack size exceeded", .error,
        "big.txt", none, none⟩]⟩ :=
  ⟨rfl, length_ofFile_longText "big.txt" 130000, loadExpressions_longFile (by decide)⟩

end LineSum
