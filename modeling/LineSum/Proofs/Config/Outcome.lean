import LineSum.Run
import LineSum.Proofs.Yaml.Reading

/-!
# What becomes of a configuration file

A text that breaks the rules of YAML is reported and gives no configuration. Every other text gives
one, perhaps with warnings, if its document has a value. A document without a value is neither
reported nor read: reading fails, and with it loading the file and the whole run. An ordinary
document fails only by its aliases.
-/

namespace LineSum

/-- There is a configuration, or an error is reported, but not both. -/
def LoadedConfig.IsSettled (loaded : LoadedConfig) : Prop :=
  loaded.config.isSome ↔ ¬ ∃ d ∈ loaded.diagnostics, d.severity = .error

namespace Yaml.Document

/-- The node of the document, if it has one, consists of scalars, lists, maps with scalars for keys,
and aliases. -/
def IsOrdinary (document : Document) : Prop :=
  ∀ root, document.root = some root → root.IsOrdinary document.directives.version

/-- Every alias of the document stands for a node before it. -/
def Resolves (document : Document) : Prop :=
  ∀ root, document.root = some root → root.Resolves root

/-- What the aliases of the document can keep it from. -/
def IsAliasError (document : Document) (e : NodeError) : Prop :=
  ∃ root, document.root = some root ∧ root.IsAliasError e

/-- An ordinary document has a value unless an alias keeps it from having one. -/
theorem value_of_isOrdinary {document : Document} (h : document.IsOrdinary) :
    (∃ value, document.value = .ok value) ∧ document.Resolves ∨
      ∃ e, document.value = .error e ∧ document.IsAliasError e := by
  unfold Document.value
  cases hroot : document.root with
  | none =>
    refine .inl ⟨⟨_, rfl⟩, ?_⟩
    intro root h
    rw [hroot] at h
    cases h
  | some root =>
    rcases Node.value_of_isOrdinary (h root hroot) with ⟨hvalue, hresolves⟩ | ⟨e, hvalue, he⟩
    · refine .inl ⟨hvalue, ?_⟩
      intro other hother
      rw [hroot, Option.some.injEq] at hother
      exact hother ▸ hresolves
    · exact .inr ⟨e, hvalue, root, hroot, he⟩

end Yaml.Document

/-- The document of a configuration file. -/
def configDocument (text : String) : Yaml.Document :=
  .ofText (configChars text)

section Text

variable (text file : String)

/-- A text that breaks the rules of YAML gives no configuration, and the rules it
breaks are reported. -/
theorem readConfig_of_reports (h : (configDocument text).reports ≠ []) :
    readConfig text file =
      .ok ⟨none, (configDocument text).diagnostics (configChars text) file⟩ := by
  refine if_neg ?_
  rwa [List.isEmpty_iff]

/-- A text that breaks no rule gives what its value gives. -/
theorem readConfig_of_no_reports (h : (configDocument text).reports = []) :
    readConfig text file = (configDocument text).value.map fun value =>
      let (fields, findings) := checkMap configSchema "" (configDocument text).root value
      ⟨some (.ofRecord fields), findings.map (·.diagnostic file (configDocument text).starts)⟩ := by
  refine (if_pos (List.isEmpty_iff.mpr h)).trans ?_
  show _ = (configDocument text).value.map _
  unfold configDocument
  cases (Yaml.Document.ofText (configChars text)).value <;> rfl

/-- What is read is settled. -/
theorem isSettled_of_readConfig {loaded : LoadedConfig} (h : readConfig text file = .ok loaded) :
    loaded.IsSettled := by
  unfold LoadedConfig.IsSettled
  by_cases hreports : (configDocument text).reports = []
  · rw [readConfig_of_no_reports text file hreports] at h
    cases hvalue : (configDocument text).value with
    | error e =>
      rw [hvalue] at h
      cases h
    | ok value =>
      rw [hvalue] at h
      cases h
      -- There is a configuration, and all that checking finds are warnings.
      refine iff_of_true rfl ?_
      rintro ⟨d, hd, hseverity⟩
      obtain ⟨finding, -, rfl⟩ := List.mem_map.mp hd
      cases hseverity
  · rw [readConfig_of_reports text file hreports] at h
    cases h
    obtain ⟨report, hreport⟩ := List.exists_mem_of_ne_nil _ hreports
    refine iff_of_false Bool.false_ne_true (not_not_intro ?_)
    exact ⟨_, List.mem_map_of_mem hreport, rfl⟩

/-- **When a configuration is read.** What is read is settled: a configuration, or errors. A text is
read exactly if it breaks a rule or its document has a value. If it breaks none and its document is
ordinary, it is read unless an alias of the document keeps it from that, and if it is read, all
aliases stand for nodes. -/
theorem readConfig_outcome :
    (∀ loaded, readConfig text file = .ok loaded → loaded.IsSettled) ∧
      ((∃ loaded, readConfig text file = .ok loaded) ↔
        (configDocument text).reports ≠ [] ∨ ∃ value, (configDocument text).value = .ok value) ∧
      ((configDocument text).reports = [] → (configDocument text).IsOrdinary →
        (∃ loaded, readConfig text file = .ok loaded) ∧ (configDocument text).Resolves ∨
          ∃ e, readConfig text file = .error e ∧ (configDocument text).IsAliasError e) := by
  refine ⟨fun loaded h => isSettled_of_readConfig text file h, ?_, ?_⟩
  · by_cases hreports : (configDocument text).reports = []
    · rw [readConfig_of_no_reports text file hreports]
      cases (configDocument text).value with
      | error e => simp [hreports, Except.map]
      | ok value => simp [hreports, Except.map]
    · exact iff_of_true ⟨_, readConfig_of_reports text file hreports⟩ (.inl hreports)
  · intro hreports hordinary
    rw [readConfig_of_no_reports text file hreports]
    rcases Yaml.Document.value_of_isOrdinary hordinary with
      ⟨⟨value, hvalue⟩, hresolves⟩ | ⟨e, hvalue, he⟩
    · rw [hvalue]
      exact .inl ⟨⟨_, rfl⟩, hresolves⟩
    · rw [hvalue]
      exact .inr ⟨e, rfl, he⟩

end Text

/-- The lexemes of a text with an alias that has no anchor. -/
theorem lexemes_dangling_alias : Yaml.Lexeme.ofText (configChars "files: *x\n") =
    [.documentMark, .scalar "files".toList, .text [':'], .text [' '], .text ['*', 'x'],
      .text ['\n']] := by
  cbv

/-- The error of a computation that fails. -/
def failure? {ε α : Type} : Except ε α → Option ε
  | .error e => some e
  | .ok _ => none

/-- A computation that has an error fails with it. -/
theorem eq_error_of_failure? {ε α : Type} {x : Except ε α} {e : ε} (h : failure? x = some e) :
    x = .error e := by
  cases x with
  | error e => exact congrArg Except.error (Option.some.inj h)
  | ok a => cases h

/-- A computation that has a result succeeds with it. -/
theorem eq_ok_of_toOption {ε α : Type} {x : Except ε α} {a : α} (h : x.toOption = some a) :
    x = .ok a := by
  cases x with
  | error e => cases h
  | ok b => exact congrArg Except.ok (Option.some.inj h)

/-- An alias without an anchor breaks no rule, and the text is not read. -/
theorem readConfig_dangling_alias :
    readConfig "files: *x\n" "cfg.yml" = .error (.unresolvedAlias "x") := by
  refine eq_error_of_failure? ?_
  unfold readConfig Yaml.Document.ofText Yaml.Nest.ofText
  dsimp only
  rw [lexemes_dangling_alias]
  decide +kernel

/-! ## Loading the file, and the run -/

/-- Loading a configuration file fails exactly if its text can be got and is not read. -/
theorem loadConfig_eq_error_iff {files : FileSystem} {directory : Path} {name : Option String}
    {e : Yaml.NodeError} :
    loadConfig files directory name = .error e ↔
      let path := directory.resolve (name.getD defaultConfigFile)
      files.has path = true ∧ ∃ text, files.read path = .ok text ∧
        readConfig text (path.relativeTo directory) = .error e := by
  unfold loadConfig
  dsimp only
  cases files.has (directory.resolve (name.getD defaultConfigFile)) with
  | false => simp
  | true =>
    cases files.read (directory.resolve (name.getD defaultConfigFile)) with
    | error e => simp
    | ok text => simp

/-- A session fails to start for its configuration file exactly if the file fails to load. -/
theorem start_eq_node_error_iff {files : FileSystem} {directory : Path} {options : Options}
    {texts : List String} {e : Yaml.NodeError} :
    Session.start files directory options texts = .error (.node e) ↔
      loadConfig files directory options.config = .error e := by
  unfold Session.start Session.configure
  cases loadConfig files directory options.config with
  | error e => simp
  | ok loaded =>
    dsimp only
    unfold Session.collect
    split <;> simp

/-- **A run fails for what a document says exactly if its configuration file fails to load**, and
then it is a run that evaluates. -/
theorem run_eq_node_error_iff {world : Surroundings} {arguments : List String}
    {e : Yaml.NodeError} :
    run world arguments = .error (.node e) ↔
      ∃ options texts, CommandLine.ofArguments arguments = .evaluate options texts ∧
        loadConfig world.files world.directory options.config = .error e := by
  unfold run
  cases CommandLine.ofArguments arguments with
  | showVersion | showHelp | reject error => simp [CommandLine.run]
  | evaluate options texts =>
    have hrun : (CommandLine.evaluate options texts).run world = .error (.node e) ↔
        Session.start world.files world.directory options texts = .error (.node e) := by
      rw [CommandLine.run]
      cases Session.start world.files world.directory options texts <;> simp
    rw [hrun, start_eq_node_error_iff]
    constructor
    · intro h
      exact ⟨options, texts, rfl, h⟩
    · rintro ⟨_, _, ⟨⟩, h⟩
      exact h

end LineSum
