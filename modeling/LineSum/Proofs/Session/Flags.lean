import LineSum.Run

/-!
# What a flag changes

The flags are the last layer of the settings. A flag that changes one setting, and neither the
patterns nor what is ignored, changes this setting of a session and nothing else of it.
-/

namespace LineSum

/-- Below the flags the settings do not depend on them, and neither does what is reported. -/
theorem exists_below_flags (config : Option Config) (profile : Option String)
    (configFile : String) :
    ∃ (below : Settings) (diagnostics : List Diagnostic), ∀ overrides : Fields,
      resolveSettings config profile overrides configFile =
        (below.apply overrides, diagnostics) := by
  unfold resolveSettings
  cases profile with
  | none => exact ⟨_, _, fun _ => rfl⟩
  | some name =>
    dsimp only
    cases Config.profile? config name with
    | none => exact ⟨_, _, fun _ => rfl⟩
    | some layer => exact ⟨_, _, fun _ => rfl⟩

namespace Session

/-- The session with other settings, the same in everything else. -/
def mapSettings (change : Settings → Settings) (s : Session) : Session :=
  { s with settings := change s.settings }

/-- The session that differs in whether it has colours. -/
def withColor (mode : ColorMode) (s : Session) : Session :=
  s.mapSettings fun settings => { settings with color := mode }

/-- The session that differs in whether it traces tokens. -/
def withTrace (trace : Bool) (s : Session) : Session :=
  s.mapSettings fun settings => { settings with trace }

/-- Flags that make a change to the settings, apart from what is searched for, start the session
with this change, or fail in the same way. -/
theorem start_of_flags {options options' : Options} {change : Settings → Settings}
    (hconfig : options'.config = options.config) (hprofile : options'.profile = options.profile)
    (hfields : ∀ below : Settings,
      below.apply options'.fields = change (below.apply options.fields))
    (hsearch : ∀ settings, (change settings).files = settings.files ∧
      (change settings).ignore = settings.ignore)
    (files : FileSystem) (directory : Path) (texts : List String) :
    start files directory options' texts =
      (start files directory options texts).map (mapSettings change) := by
  unfold start configure
  rw [hconfig, hprofile]
  cases loadConfig files directory options.config with
  | error e => rfl
  | ok loaded =>
    obtain ⟨below, diagnostics, hbelow⟩ := exists_below_flags loaded.config options.profile
      (options.config.getD defaultConfigFile)
    dsimp only
    rw [hbelow, hbelow, hfields]
    dsimp only
    unfold collect
    rw [(hsearch _).1, (hsearch _).2]
    cases loadExpressions files directory (below.apply options.fields).ignore
        (below.apply options.fields).files with
    | error e => rfl
    | ok sources => rfl

variable (files : FileSystem) (directory : Path) (options : Options) (texts : List String)

/-- A mode that is asked for on the command line is the one of the session. -/
theorem start_color (mode : ColorMode) :
    start files directory { options with color := some mode } texts =
      (start files directory options texts).map (withColor mode) := by
  apply start_of_flags
  · rfl
  · rfl
  · exact fun _ => rfl
  · exact fun _ => ⟨rfl, rfl⟩

/-- Tokens that are asked for on the command line are traced by the session. -/
theorem start_trace :
    start files directory { options with trace := true } texts =
      (start files directory options texts).map (withTrace true) := by
  apply start_of_flags
  · rfl
  · rfl
  · exact fun _ => rfl
  · exact fun _ => ⟨rfl, rfl⟩

end Session

end LineSum
