import LineSum.Proofs.Session.Outcome

/-!
# The diagnostics of a session

What is reported before anything is evaluated has one of a few causes: it concerns the
configuration, a profile or a source of expressions as a whole. No source line is shown with it, and
its kind is one of a fixed list.
-/

namespace LineSum

/-- A diagnostic that concerns no line of input: no source line is shown with it, and its kind is
one of those that have a name of their own. -/
structure Diagnostic.IsGeneral (d : Diagnostic) : Prop where
  source_eq : d.source = none
  code_ne : ∀ name, d.code ≠ .named name

/-! ## Causes -/

/-- What can be wrong before anything is evaluated. -/
inductive Cause where
  /-- A configuration file that is named is not there. -/
  | missingConfig (file : String)
  /-- A configuration file cannot be read. -/
  | unreadableConfig (file : String) (error : ReadError)
  /-- The text of a configuration file breaks a rule of YAML. -/
  | brokenRule (file : String) (text : List Char) (report : Yaml.Report)
  /-- An entry of a configuration does not conform. -/
  | wrongField (file : String) (starts : LineStarts) (finding : Finding)
  /-- A profile is not defined. -/
  | unknownProfile (name file : String)
  /-- A pattern stands for no file. -/
  | unmatchedPattern (pattern : String)
  /-- A file of expressions cannot be read. -/
  | unreadableFile (file : String) (error : ReadError)
  /-- There is nothing to evaluate. -/
  | noExpressions

namespace Cause

/-- The diagnostic that reports what is wrong. -/
def diagnostic : Cause → Diagnostic
  | missingConfig file => LineSum.missingConfig file
  | unreadableConfig file error => LineSum.unreadableConfig file error
  | brokenRule file text report =>
    { code := .configSyntaxError
      message := (Yaml.Document.ofText text).message text report
      severity := .error
      file := file
      range := some ((Yaml.Document.ofText text).starts.range report.span)
      source := none }
  | wrongField file starts finding => finding.diagnostic file starts
  | unknownProfile name file => LineSum.unknownProfile name file
  | unmatchedPattern pattern => LineSum.unmatchedPattern pattern
  | unreadableFile file error => LineSum.unreadableFile file error
  | noExpressions => LineSum.noExpressions

/-- Whatever is wrong, it concerns no line of input. -/
theorem isGeneral (cause : Cause) : cause.diagnostic.IsGeneral := by
  cases cause <;> exact ⟨rfl, fun _ => Code.noConfusion⟩

end Cause

/-- The configuration file that could not be loaded as it is, if this is what is wrong, under the
name that is shown of it. -/
def Cause.configFile? : Cause → Option String
  | missingConfig file | unreadableConfig file _ | brokenRule file _ _
  | wrongField file _ _ => some file
  | unknownProfile _ _ | unmatchedPattern _ | unreadableFile _ _ | noExpressions => none

/-- What is wrong with a configuration file is reported under its name, and not
as an unknown profile. -/
theorem Cause.file_of_configFile? {cause : Cause} {file : String}
    (h : cause.configFile? = some file) :
    cause.diagnostic.file = file ∧ cause.diagnostic.code ≠ .configUnknownProfile := by
  cases cause <;> cases h <;> exact ⟨rfl, Code.noConfusion⟩

/-- A diagnostic reports one of the causes. -/
def Diagnostic.HasCause (d : Diagnostic) : Prop :=
  ∃ cause : Cause, d = cause.diagnostic

/-! ## The configuration -/

/-- The diagnostics of a configuration's text are caused by its file. -/
theorem exists_cause_of_readConfig {text file : String} {loaded : LoadedConfig}
    (h : readConfig text file = .ok loaded) {d : Diagnostic} (hd : d ∈ loaded.diagnostics) :
    ∃ cause : Cause, cause.configFile? = some file ∧ d = cause.diagnostic := by
  unfold readConfig at h
  dsimp only at h
  split at h
  · split at h
    · cases h
    · cases h
      obtain ⟨finding, -, rfl⟩ := List.mem_map.mp hd
      exact ⟨.wrongField file _ finding, rfl, rfl⟩
  · cases h
    obtain ⟨report, -, rfl⟩ := List.mem_map.mp hd
    exact ⟨.brokenRule file (configChars text) report, rfl, rfl⟩

/-- The diagnostics of a configuration file are caused by this file. -/
theorem exists_cause_of_loadConfig {files : FileSystem} {directory : Path} {name : Option String}
    {loaded : LoadedConfig} (h : loadConfig files directory name = .ok loaded) {d : Diagnostic}
    (hd : d ∈ loaded.diagnostics) :
    ∃ cause : Cause, cause.configFile? =
        some ((directory.resolve (name.getD defaultConfigFile)).relativeTo directory) ∧
      d = cause.diagnostic := by
  unfold loadConfig at h
  dsimp only at h
  split at h
  · split at h
    · exact exists_cause_of_readConfig h hd
    · next error _ =>
      cases h
      rw [List.mem_singleton] at hd
      exact ⟨.unreadableConfig _ error, rfl, hd⟩
  · cases h
    cases hname : name.isSome with
    | false =>
      rw [hname] at hd
      cases hd
    | true =>
      rw [hname] at hd
      exact ⟨.missingConfig _, rfl, List.mem_singleton.mp hd⟩

/-- The diagnostics of a configuration file have their causes. -/
theorem hasCause_of_loadConfig {files : FileSystem} {directory : Path} {name : Option String}
    {loaded : LoadedConfig} (h : loadConfig files directory name = .ok loaded) {d : Diagnostic}
    (hd : d ∈ loaded.diagnostics) : d.HasCause := by
  obtain ⟨cause, -, hcause⟩ := exists_cause_of_loadConfig h hd
  exact ⟨cause, hcause⟩

/-- What is wrong with a profile is that it is not defined. -/
theorem hasCause_of_resolveSettings {config : Option Config} {profile : Option String}
    {overrides : Fields} {configFile : String} {d : Diagnostic}
    (hd : d ∈ (resolveSettings config profile overrides configFile).2) : d.HasCause := by
  unfold resolveSettings at hd
  dsimp only at hd
  split at hd
  · cases hd
  · next name =>
    split at hd
    · cases hd
    · exact ⟨.unknownProfile name configFile, List.mem_singleton.mp hd⟩

/-! ## The sources -/

/-- What one step of loading reports has its cause. -/
theorem hasCause_of_perform {files : FileSystem} {directory : Path} {step : LoadStep}
    {d : Diagnostic} (hd : d ∈ (step.perform files directory).diagnostics) : d.HasCause := by
  cases step with
  | unmatched pattern => exact ⟨.unmatchedPattern pattern, List.mem_singleton.mp hd⟩
  | load path =>
    unfold LoadStep.perform at hd
    dsimp only at hd
    split at hd
    · cases hd
    · next error _ => exact ⟨.unreadableFile _ error, List.mem_singleton.mp hd⟩

/-- What is reported in the end is reported by one of the parts. -/
theorem mem_diagnostics_foldr_append {parts : List LoadedExpressions} {d : Diagnostic} :
    d ∈ (parts.foldr LoadedExpressions.append LoadedExpressions.empty).diagnostics ↔
      ∃ p ∈ parts, d ∈ p.diagnostics := by
  induction parts with
  | nil => simp [LoadedExpressions.empty]
  | cons p parts ih => simp [LoadedExpressions.append, ih]

/-- The diagnostics of loading expressions have their causes. -/
theorem hasCause_of_loadExpressions {files : FileSystem} {directory : Path}
    {ignore patterns : List String} {loaded : LoadedExpressions}
    (h : loadExpressions files directory ignore patterns = .ok loaded) {d : Diagnostic}
    (hd : d ∈ loaded.diagnostics) : d.HasCause := by
  unfold loadExpressions at h
  cases hsteps : loadSteps (files.find ignore) [] patterns with
  | error e =>
    rw [hsteps] at h
    cases h
  | ok steps =>
    rw [hsteps] at h
    cases h
    obtain ⟨p, hp, hd⟩ := mem_diagnostics_foldr_append.mp hd
    obtain ⟨step, -, rfl⟩ := List.mem_map.mp hp
    exact hasCause_of_perform hd

/-! ## The whole session -/

namespace Loaded

variable {world : Surroundings} {options : Options} (l : Loaded world options) (texts : List String)
  {d : Diagnostic}

/-- The diagnostics of a session have their causes. -/
theorem hasCause (hd : d ∈ (l.session texts).diagnostics) : d.HasCause := by
  rw [l.session_diagnostics, Loaded.diagnostics, List.mem_append, List.mem_append,
    List.mem_append] at hd
  rcases hd with ((hconfig | hprofile) | hsources) | hmissing
  · exact hasCause_of_loadConfig l.config_eq hconfig
  · have hresolved : d ∈ (resolveSettings l.config.config options.profile options.fields
        (options.config.getD defaultConfigFile)).2 := by
      rw [l.settings_eq]
      exact hprofile
    exact hasCause_of_resolveSettings hresolved
  · exact hasCause_of_loadExpressions l.sources_eq hsources
  · split at hmissing
    · exact ⟨.noExpressions, List.mem_singleton.mp hmissing⟩
    · cases hmissing

/-- The diagnostics of a session concern no line of input. -/
theorem isGeneral (hd : d ∈ (l.session texts).diagnostics) : d.IsGeneral := by
  obtain ⟨cause, rfl⟩ := l.hasCause texts hd
  exact cause.isGeneral

end Loaded

end LineSum
