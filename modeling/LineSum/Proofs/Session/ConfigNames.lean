import LineSum.Proofs.Config.Layers
import LineSum.Proofs.Files.RelativePaths
import LineSum.Proofs.Session.Diagnostics

/-!
# The name of the configuration file

What is wrong with the configuration file is reported under its path relative to the directory,
however the file was named. That a profile is not defined is reported under the name as it was
typed. The two are the same name if the typed one is a way without a detour, which the default one
always is.
-/

namespace LineSum

/-- Every profile that is asked for is defined. -/
def HasProfiles (config : Option Config) (profile : Option String) : Prop :=
  ∀ name ∈ profile, ∃ layer, HasProfile config name layer

/-- The default name is a way without a detour in every directory. -/
theorem isDirect_defaultConfigFile (directory : Path) : directory.IsDirect defaultConfigFile := by
  have hname : LeadsDown defaultConfigFile := ⟨by decide, by decide, by decide, by decide⟩
  refine ⟨0, [defaultConfigFile],
    ⟨Nat.zero_le _, List.forall_mem_singleton.mpr hname, ?_⟩, by decide⟩
  intro name _
  rw [Nat.sub_zero, List.getElem?_eq_none le_rfl]
  exact (Option.some_ne_none name).symm

/-- A report about profiles is that one is not defined, under the name that
is given for the file. -/
theorem of_mem_reports {config : Option Config} {profile : Option String} {overrides : Fields}
    {configFile : String} {d : Diagnostic}
    (hd : d ∈ (resolveSettings config profile overrides configFile).2) :
    d.file = configFile ∧ d.code = .configUnknownProfile := by
  by_cases hprofiles : HasProfiles config profile
  · rw [(reports_eq_nil_iff overrides configFile profile).mpr hprofiles] at hd
    cases hd
  · cases profile with
    | none => exact absurd (fun name hname => absurd hname (Option.not_mem_none name)) hprofiles
    | some name =>
      have hunknown : ∀ layer, ¬ HasProfile config name layer := by
        intro layer hlayer
        apply hprofiles
        rintro _ ⟨⟩
        exact ⟨layer, hlayer⟩
      rw [resolveSettings_of_unknown overrides configFile hunknown] at hd
      rw [List.mem_singleton.mp hd]
      exact ⟨rfl, rfl⟩

/-- **The configuration file has one name, but for a profile that is not defined.** What is wrong
with the file is reported under its relative path, which leads to the file, and a profile that is
not defined under the name as it was typed. All reports have the relative path exactly if each
profile that is asked for is defined or the typed name is a way without a detour. So they do if no
file was named. -/
theorem files_of_configDiagnostics {world : Surroundings} {options : Options} {texts : List String}
    {s : Session} (h : Session.start world.files world.directory options texts = .ok s) :
    let typed := options.config.getD defaultConfigFile
    let shown := (world.directory.resolve typed).relativeTo world.directory
    (∀ d ∈ s.configDiagnostics, d.file = if d.code = .configUnknownProfile then typed else shown) ∧
    world.directory.resolve shown = world.directory.resolve typed ∧
    (∃ loaded, loadConfig world.files world.directory options.config = .ok loaded ∧
      ((∀ d ∈ s.configDiagnostics, d.file = shown) ↔
        HasProfiles loaded.config options.profile ∨ world.directory.IsDirect typed)) ∧
    (options.config = none → ∀ d ∈ s.configDiagnostics, d.file = defaultConfigFile) := by
  intro typed shown
  obtain ⟨l, rfl⟩ := exists_loaded h
  have hprofiles : l.profileDiagnostics =
      (resolveSettings l.config.config options.profile options.fields typed).2 := by
    rw [l.settings_eq]
  have hmem : ∀ d, d ∈ (l.session texts).configDiagnostics ↔
      d ∈ l.config.diagnostics ∨ d ∈ l.profileDiagnostics := fun d => List.mem_append
  have hloaded : ∀ d ∈ l.config.diagnostics, d.file = shown ∧ d.code ≠ .configUnknownProfile := by
    intro d hd
    obtain ⟨cause, hfile, rfl⟩ := exists_cause_of_loadConfig l.config_eq hd
    exact cause.file_of_configFile? hfile
  have hunknown : ∀ d ∈ l.profileDiagnostics, d.file = typed ∧ d.code = .configUnknownProfile := by
    intro d hd
    rw [hprofiles] at hd
    exact of_mem_reports hd
  have hfile : ∀ d ∈ (l.session texts).configDiagnostics,
      d.file = if d.code = .configUnknownProfile then typed else shown := by
    intro d hd
    rcases (hmem d).mp hd with hd | hd
    · rw [if_neg (hloaded d hd).2, (hloaded d hd).1]
    · rw [if_pos (hunknown d hd).2, (hunknown d hd).1]
  have hshown : shown = typed ↔ world.directory.IsDirect typed :=
    Path.relativeTo_resolve_eq_self_iff
  refine ⟨hfile, Path.resolve_relativeTo_resolve _ _, ⟨l.config, l.config_eq, ?_⟩, ?_⟩
  · rw [HasProfiles, ← reports_eq_nil_iff options.fields typed, ← hprofiles, ← hshown]
    constructor
    · intro hall
      cases hreports : l.profileDiagnostics with
      | nil => exact .inl rfl
      | cons d ds =>
        have hd : d ∈ l.profileDiagnostics := hreports ▸ List.mem_cons_self
        exact .inr ((hall d ((hmem d).mpr (.inr hd))).symm.trans (hunknown d hd).1)
    · rintro (hnil | hsame) d hd
      · rcases (hmem d).mp hd with hd | hd
        · exact (hloaded d hd).1
        · rw [hnil] at hd
          cases hd
      · rw [hfile d hd, hsame, ite_self]
  · intro hnone d hd
    have htyped : typed = defaultConfigFile := by
      show options.config.getD defaultConfigFile = _
      rw [hnone, Option.getD_none]
    rw [hfile d hd, hshown.mpr (htyped ▸ isDirect_defaultConfigFile _), ite_self, htyped]

/-- Surroundings without files, in a directory below the root. -/
def emptyWorld : Surroundings where
  files := (FileTree.mk [] []).system ⟨["home"]⟩
  directory := ⟨["home"]⟩
  terminal := ⟨false, false, false⟩
  clock := ⟨[0]⟩
  version := "1.0.0"

/-- Options that name a configuration file and a profile. -/
def profileOptions (config : String) : Options :=
  { Options.none with config := some config, profile := some "ci" }

/-- What is loaded when the configuration file is not there, and hence not the profile either. -/
def missingLoaded : Loaded emptyWorld (profileOptions "../cfg.yml") where
  config := ⟨none, [missingConfig "../cfg.yml"]⟩
  settings := Settings.default
  profileDiagnostics := [unknownProfile "ci" "../cfg.yml"]
  sources := .empty
  config_eq := rfl
  settings_eq := rfl
  sources_eq := rfl

/-- In the directory above, the configuration file and the profile are reported
under the same name. -/
theorem files_of_configDiagnostics_above : ∃ s,
    Session.start emptyWorld.files emptyWorld.directory (profileOptions "../cfg.yml") ["1"] =
      .ok s ∧
    s.configDiagnostics.map Diagnostic.code = [.fileReadError, .configUnknownProfile] ∧
    ∀ d ∈ s.configDiagnostics, d.file = "../cfg.yml" := by
  have hstart := missingLoaded.start_eq ["1"]
  obtain ⟨-, -, ⟨_, _, hnames⟩, -⟩ := files_of_configDiagnostics hstart
  have hdirect : emptyWorld.directory.IsDirect "../cfg.yml" := by
    refine ⟨1, ["cfg.yml"], ⟨by decide, ?_, ?_⟩, by decide⟩
    · rw [List.forall_mem_singleton]
      exact ⟨by decide, by decide, by decide, by decide⟩
    · rintro _ ⟨⟩
      decide
  have hshown := hnames.mpr (.inr hdirect)
  refine ⟨_, hstart, rfl, ?_⟩
  intro d hd
  rw [hshown d hd]
  exact Path.relativeTo_resolve_eq_self_iff.mpr hdirect

/-- A file that is named with a point in front is reported under its path, and the profile under the
name as it was typed. -/
theorem configFile_has_two_names :
    (emptyWorld.directory.resolve "./cfg.yml").relativeTo emptyWorld.directory = "cfg.yml" ∧
    ∃ s,
      Session.start emptyWorld.files emptyWorld.directory (profileOptions "./cfg.yml") ["1"] =
        .ok s ∧
      s.configDiagnostics = [missingConfig "cfg.yml", unknownProfile "ci" "./cfg.yml"] ∧
      ¬ ∀ d ∈ s.configDiagnostics, d.file = "cfg.yml" := by
  refine ⟨by decide, _, rfl, rfl, ?_⟩
  intro hnames
  have hsame : "./cfg.yml" = "cfg.yml" :=
    hnames (unknownProfile "ci" "./cfg.yml") (List.mem_cons_of_mem _ (List.mem_singleton_self _))
  exact absurd hsame (by decide)

end LineSum
