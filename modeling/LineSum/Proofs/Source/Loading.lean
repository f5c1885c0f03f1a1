import LineSum.Proofs.Config.Outcome
import LineSum.Proofs.Config.Profiles
import LineSum.Proofs.Files.Searchable
import LineSum.Proofs.Session.Diagnostics

/-!
# Loading the files of settings

Loading goes through the patterns one by one. What goes wrong with a pattern that can be searched
for is reported: that it has no files, or that one of its files cannot be read or has too many
expressions. A pattern that cannot be searched for ends the loading without a report, and the schema
of a configuration takes one such pattern, the empty text.
-/

namespace LineSum

/-- A pattern stands for a file at a path. -/
def Finds (find : String → Except PatternError (List Path)) (pattern : String) (path : Path) :
    Prop :=
  ∃ paths, find pattern = .ok paths ∧ path ∈ paths

/-- The files of a pattern that have not been read before, in the order of their paths. -/
def freshPaths (seen paths : List Path) : List Path :=
  ((sortPaths paths).eraseDups).filter (!seen.contains ·)

/-- Sorting and passing over what has been read loses no other file. -/
theorem mem_freshPaths_iff {seen paths : List Path} {path : Path} :
    path ∈ freshPaths seen paths ↔ path ∈ paths ∧ path ∉ seen := by
  unfold freshPaths sortPaths
  rw [List.mem_filter, List.mem_eraseDups, List.mem_mergeSort]
  simp

section Steps

variable {find : String → Except PatternError (List Path)} {patterns : List String}

/-- There is something to be done exactly if all patterns can be searched for. -/
theorem exists_loadSteps_iff (seen : List Path) :
    (∃ steps, loadSteps find seen patterns = .ok steps) ↔
      ∀ pattern ∈ patterns, ∃ paths, find pattern = .ok paths := by
  induction patterns generalizing seen with
  | nil => exact iff_of_true ⟨[], rfl⟩ (List.forall_mem_nil _)
  | cons pattern patterns ih =>
    rw [List.forall_mem_cons, loadSteps]
    cases find pattern with
    | error e =>
      refine iff_of_false ?_ ?_
      · rintro ⟨_, ⟨⟩⟩
      · rintro ⟨⟨_, ⟨⟩⟩, -⟩
    | ok paths =>
      cases paths with
      | nil => simpa [map_eq_ok_iff] using ih seen
      | cons path paths => simpa [map_eq_ok_iff] using ih _

/-- A pattern is reported exactly if it stands for no file. -/
theorem unmatched_mem_iff {seen : List Path} {steps : List LoadStep}
    (h : loadSteps find seen patterns = .ok steps) (pattern : String) :
    .unmatched pattern ∈ steps ↔ pattern ∈ patterns ∧ find pattern = .ok [] := by
  induction patterns generalizing seen steps with
  | nil =>
    cases h
    simp
  | cons first patterns ih =>
    rw [loadSteps] at h
    cases hfind : find first with
    | error e =>
      rw [hfind] at h
      cases h
    | ok paths =>
      rw [hfind] at h
      cases paths with
      | nil =>
        obtain ⟨rest, hrest, rfl⟩ := map_eq_ok_iff.mp h
        rw [List.mem_cons, ih hrest, List.mem_cons, LoadStep.unmatched.injEq]
        constructor
        · rintro (rfl | ⟨hmem, hnone⟩)
          · exact ⟨.inl rfl, hfind⟩
          · exact ⟨.inr hmem, hnone⟩
        · rintro ⟨rfl | hmem, hnone⟩
          · exact .inl rfl
          · exact .inr ⟨hmem, hnone⟩
      | cons path paths =>
        obtain ⟨rest, hrest, rfl⟩ := map_eq_ok_iff.mp h
        rw [List.mem_append, ih hrest, List.mem_cons]
        constructor
        · rintro (hload | ⟨hmem, hnone⟩)
          · obtain ⟨_, -, ⟨⟩⟩ := List.mem_map.mp hload
          · exact ⟨.inr hmem, hnone⟩
        · rintro ⟨rfl | hmem, hnone⟩
          · rw [hfind] at hnone
            cases hnone
          · exact .inr ⟨hmem, hnone⟩

/-- A file is read exactly if some pattern stands for it and it has not been read before. -/
theorem load_mem_iff {seen : List Path} {steps : List LoadStep}
    (h : loadSteps find seen patterns = .ok steps) (path : Path) :
    .load path ∈ steps ↔ path ∉ seen ∧ ∃ pattern ∈ patterns, Finds find pattern path := by
  induction patterns generalizing seen steps with
  | nil =>
    cases h
    simp
  | cons first patterns ih =>
    rw [loadSteps] at h
    cases hfind : find first with
    | error e =>
      rw [hfind] at h
      cases h
    | ok paths =>
      rw [hfind] at h
      have hfirst : Finds find first path ↔ path ∈ paths := by
        unfold Finds
        rw [hfind]
        simp
      cases paths with
      | nil =>
        obtain ⟨rest, hrest, rfl⟩ := map_eq_ok_iff.mp h
        rw [List.mem_cons, ih hrest]
        simp [hfirst]
      | cons next paths =>
        obtain ⟨rest, hrest, rfl⟩ := map_eq_ok_iff.mp h
        have hload : LoadStep.load path ∈ (freshPaths seen (next :: paths)).map LoadStep.load ↔
            path ∈ freshPaths seen (next :: paths) := by
          simp
        change LoadStep.load path ∈ (freshPaths seen (next :: paths)).map .load ++ rest ↔ _
        rw [List.mem_append, ih hrest, hload]
        change _ ∨ path ∉ seen ++ freshPaths seen (next :: paths) ∧ _ ↔ _
        rw [List.mem_append, mem_freshPaths_iff, List.exists_mem_cons_iff, hfirst]
        -- A file that an earlier pattern has found counts as read for the later ones.
        by_cases hseen : path ∈ seen <;> by_cases hnew : path ∈ next :: paths <;> simp [hseen, hnew]

end Steps

/-- The expressions of a file are missing if it cannot be read, or if it has more of them than can
be taken over at once. -/
theorem FileSystem.expressions_eq_error_iff {files : FileSystem} {path : Path} {name : String}
    {e : ReadError} :
    files.expressions path name = .error e ↔ files.read path = .error e ∨
      ∃ text, files.read path = .ok text ∧
        files.capacity < (Expression.ofFile text name).length ∧ e = .tooLong := by
  unfold FileSystem.expressions
  cases files.read path with
  | error e' => simp
  | ok text =>
    dsimp only
    split
    · next hfew => simp [hfew]
    · next hmany => simp [Nat.lt_of_not_le hmany, eq_comm]

/-- A file with too many expressions is reported as a file that cannot be read. -/
theorem unreadableFile_tooLong (file : String) : unreadableFile file .tooLong =
    ⟨.fileReadError, s!"Failed to read {file}: Maximum call stack size exceeded", .error,
      file, none, none⟩ := by
  have hreason : ": " ++ ReadError.tooLong.message = ": Maximum call stack size exceeded" := by
    decide
  have hmessage : "Failed to read " ++ file ++ ": " ++ ReadError.tooLong.message =
      "Failed to read " ++ file ++ ": Maximum call stack size exceeded" := by
    rw [String.append_assoc, hreason]
  exact congrArg (fun message => Diagnostic.mk .fileReadError message .error file none none)
    hmessage

section Loading

variable {files : FileSystem} {directory : Path} {ignore patterns : List String}

/-- Loading succeeds exactly if all patterns can be searched for. -/
theorem exists_loadExpressions_iff :
    (∃ loaded, loadExpressions files directory ignore patterns = .ok loaded) ↔
      ∀ pattern ∈ patterns, ∃ paths, files.find ignore pattern = .ok paths := by
  rw [← exists_loadSteps_iff []]
  unfold loadExpressions
  constructor
  · rintro ⟨loaded, h⟩
    obtain ⟨steps, hsteps, -⟩ := map_eq_ok_iff.mp h
    exact ⟨steps, hsteps⟩
  · rintro ⟨steps, hsteps⟩
    exact ⟨_, map_eq_ok_iff.mpr ⟨steps, hsteps, rfl⟩⟩

variable (files directory ignore patterns) in
/-- What loading has to report: that a pattern stands for no file, or that a file that a pattern
stands for cannot be read, or can be read but has too many expressions. -/
inductive IsLoadReport : Diagnostic → Prop
  | unmatched {pattern : String} (hmem : pattern ∈ patterns)
    (hnone : files.find ignore pattern = .ok []) :
    IsLoadReport ⟨.noExpressions, s!"No files matched \"{pattern}\"", .warning, pattern, none, none⟩
  | unreadable {pattern : String} {path : Path} {e : ReadError} (hmem : pattern ∈ patterns)
    (hfinds : Finds (files.find ignore) pattern path) (hread : files.read path = .error e) :
    IsLoadReport ⟨.fileReadError,
      s!"Failed to read {path.relativeTo directory}: {e.message}", .error,
      path.relativeTo directory, none, none⟩
  | overlong {pattern : String} {path : Path} {text : String} (hmem : pattern ∈ patterns)
    (hfinds : Finds (files.find ignore) pattern path) (hread : files.read path = .ok text)
    (hmany : files.capacity < (Expression.ofFile text (path.relativeTo directory)).length) :
    IsLoadReport ⟨.fileReadError,
      s!"Failed to read {path.relativeTo directory}: Maximum call stack size exceeded", .error,
      path.relativeTo directory, none, none⟩

/-- **Loading reports what there is to report, and nothing else.** -/
theorem mem_diagnostics_iff_of_loadExpressions {loaded : LoadedExpressions}
    (h : loadExpressions files directory ignore patterns = .ok loaded) (d : Diagnostic) :
    d ∈ loaded.diagnostics ↔ IsLoadReport files directory ignore patterns d := by
  obtain ⟨steps, hsteps, rfl⟩ := map_eq_ok_iff.mp h
  rw [mem_diagnostics_foldr_append]
  constructor
  · rintro ⟨p, hp, hd⟩
    obtain ⟨step, hstep, rfl⟩ := List.mem_map.mp hp
    cases step with
    | unmatched pattern =>
      obtain ⟨hmem, hnone⟩ := (unmatched_mem_iff hsteps pattern).mp hstep
      rw [List.mem_singleton.mp hd]
      exact .unmatched hmem hnone
    | load path =>
      obtain ⟨-, pattern, hmem, hfinds⟩ := (load_mem_iff hsteps path).mp hstep
      unfold LoadStep.perform at hd
      dsimp only at hd
      split at hd
      · cases hd
      · next e hfailed =>
        rw [List.mem_singleton.mp hd]
        rcases FileSystem.expressions_eq_error_iff.mp hfailed with hread | ⟨_, hread, hmany, rfl⟩
        · exact .unreadable hmem hfinds hread
        · rw [unreadableFile_tooLong]
          exact .overlong hmem hfinds hread hmany
  · have hload {pattern : String} {path : Path} {e : ReadError} (hmem : pattern ∈ patterns)
        (hfinds : Finds (files.find ignore) pattern path)
        (hfailed : files.expressions path (path.relativeTo directory) = .error e) :
        ∃ p ∈ steps.map (LoadStep.perform files directory),
          unreadableFile (path.relativeTo directory) e ∈ p.diagnostics := by
      have hstep := (load_mem_iff hsteps _).mpr ⟨List.not_mem_nil, _, hmem, hfinds⟩
      refine ⟨_, List.mem_map_of_mem hstep, ?_⟩
      unfold LoadStep.perform
      dsimp only
      rw [hfailed]
      exact List.mem_singleton_self _
    rintro (⟨hmem, hnone⟩ | ⟨hmem, hfinds, hread⟩ | ⟨hmem, hfinds, hread, hmany⟩)
    · have hstep := (unmatched_mem_iff hsteps _).mpr ⟨hmem, hnone⟩
      exact ⟨_, List.mem_map_of_mem hstep, List.mem_singleton_self _⟩
    · exact hload hmem hfinds (FileSystem.expressions_eq_error_iff.mpr (.inl hread))
    · rw [← unreadableFile_tooLong]
      exact hload hmem hfinds
        (FileSystem.expressions_eq_error_iff.mpr (.inr ⟨_, hread, hmany, rfl⟩))

end Loading

/-- **When the files of settings can be loaded.** If every pattern but the empty one can be searched
for, loading succeeds exactly if no layer of the settings has an empty pattern. In a tree it
succeeds exactly if every pattern is not empty and can be searched for. And when it succeeds, it
reports exactly the patterns without files and the files that cannot be read or have too many
expressions. -/
theorem loading_of_settings (files : FileSystem) (directory : Path) (config : Option Config)
    (profile : Option String) (overrides : Fields) (configFile : String) :
    let settings := (resolveSettings config profile overrides configFile).1
    let load := loadExpressions files directory settings.ignore settings.files
    ((∀ pattern ∈ settings.files,
        (∃ paths, files.find settings.ignore pattern = .ok paths) ↔ pattern ≠ "") →
      ((∃ loaded, load = .ok loaded) ↔
        ∀ layer ∈ settingLayers config profile overrides, "" ∉ layer.files.getD [])) ∧
    (∀ tree, files = FileTree.system tree directory →
      ((∃ loaded, load = .ok loaded) ↔
        ∀ pattern ∈ settings.files, pattern ≠ "" ∧ IsSearchable settings.ignore pattern)) ∧
    ∀ loaded, load = .ok loaded → ∀ d,
      d ∈ loaded.diagnostics ↔ IsLoadReport files directory settings.ignore settings.files d := by
  intro settings load
  have hload : (∃ loaded, load = .ok loaded) ↔ _ := exists_loadExpressions_iff
  refine ⟨?_, ?_, fun loaded h => mem_diagnostics_iff_of_loadExpressions h⟩
  · intro hfind
    rw [hload, forall₂_congr hfind]
    have hfiles : settings.files = _ := files_resolveSettings config profile overrides configFile
    rw [hfiles]
    constructor
    · intro h layer hlayer hempty
      exact h "" (List.mem_flatMap.mpr ⟨layer, hlayer, hempty⟩) rfl
    · rintro h _ hpattern rfl
      obtain ⟨layer, hlayer, hempty⟩ := List.mem_flatMap.mp hpattern
      exact h layer hlayer hempty
  · rintro tree rfl
    rw [hload]
    exact forall₂_congr fun pattern _ => tree.exists_find_iff directory settings.ignore pattern

/-- A pattern that stands for a file, and one that stands for none. -/
theorem loading_of_settings_plain :
    let directory : Path := ⟨["work"]⟩
    let tree : FileTree := ⟨[(⟨["work", "sums.txt"]⟩, .file "1 + 1")], []⟩
    let flags : Fields := { Fields.empty with files := some ["sums.txt", "more/*.txt"] }
    let settings := (resolveSettings none none flags "").1
    (∀ pattern ∈ settings.files,
        (∃ paths, (tree.system directory).find settings.ignore pattern = .ok paths) ↔
          pattern ≠ "") ∧
      ∃ loaded, loadExpressions (tree.system directory) directory settings.ignore settings.files =
          .ok loaded ∧
        ⟨.noExpressions, "No files matched \"more/*.txt\"", .warning, "more/*.txt", none, none⟩ ∈
          loaded.diagnostics := by
  intro directory tree flags settings
  have husable : ∀ pattern ∈ settings.files,
      pattern ≠ "" ∧ IsSearchable settings.ignore pattern := by
    refine List.forall_mem_cons.mpr
      ⟨⟨by decide, ?_⟩, List.forall_mem_singleton.mpr ⟨by decide, ?_⟩⟩
    · exact isSearchable_of_no_brace (by decide) (by decide) (by decide +kernel)
    · exact isSearchable_of_no_brace (by decide) (by decide) (by decide +kernel)
  have hfind : ∀ pattern ∈ settings.files,
      (∃ paths, (tree.system directory).find settings.ignore pattern = .ok paths) ↔
        pattern ≠ "" := by
    intro pattern hpattern
    refine iff_of_true ?_ (husable pattern hpattern).1
    exact (tree.exists_find_iff directory _ pattern).mpr (husable pattern hpattern)
  have hnone : (tree.find directory settings.ignore "more/*.txt").toOption = some [] := by
    decide +kernel
  obtain ⟨hloads, -, hreports⟩ :=
    loading_of_settings (tree.system directory) directory none none flags ""
  obtain ⟨loaded, hloaded⟩ := (hloads hfind).mpr (by decide)
  have hmem : "more/*.txt" ∈ settings.files := by decide
  exact ⟨hfind, loaded, hloaded, (hreports loaded hloaded _).mpr
    (.unmatched hmem (eq_ok_of_toOption hnone))⟩

/-- The lexemes of a text with an empty pattern. -/
theorem lexemes_empty_pattern : Yaml.Lexeme.ofText (configChars "files: [\x22\x22]\n") =
    [.documentMark, .scalar "files".toList, .text [':'], .text [' '], .text ['['],
      .text ['\x22', '\x22'], .text [']'], .text ['\n']] := by
  cbv

/-- An empty pattern is accepted without a warning, and ends the loading. -/
theorem loading_of_empty_pattern :
    let directory : Path := ⟨["work"]⟩
    let tree : FileTree := ⟨[], []⟩
    ∃ config, readConfig "files: [\x22\x22]\n" "cfg.yml" = .ok ⟨some config, []⟩ ∧
      let settings := (resolveSettings (some config) none .empty "cfg.yml").1
      loadExpressions (tree.system directory) directory settings.ignore settings.files =
        .error .empty := by
  intro directory tree
  have hobserved : (readConfig "files: [\x22\x22]\n" "cfg.yml").toOption.map (fun loaded =>
      (loaded.diagnostics, loaded.config.map fun config =>
        (resolveSettings (some config) none .empty "cfg.yml").1.files)) = some ([], some [""]) := by
    unfold readConfig Yaml.Document.ofText Yaml.Nest.ofText
    dsimp only
    rw [lexemes_empty_pattern]
    decide +kernel
  obtain ⟨⟨_, _⟩, hread, hcontent⟩ := Option.map_eq_some_iff.mp hobserved
  obtain ⟨rfl, hconfig⟩ := Prod.mk.inj hcontent
  obtain ⟨config, rfl, hfiles⟩ := Option.map_eq_some_iff.mp hconfig
  refine ⟨config, eq_ok_of_toOption hread, ?_⟩
  dsimp only
  rw [hfiles]
  rfl

end LineSum
