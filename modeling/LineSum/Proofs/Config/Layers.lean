import LineSum.Proofs.Config.Profiles

/-!
# Which layer decides

The settings come out of a stack of layers: the defaults, the file, the chosen profile and the
flags, if they are there. Of the single values the last layer that has one decides, also if what it
has is `false`, and the lists are put one behind the other. A profile that does not exist is no
layer; it is reported, and nothing else is.
-/

namespace LineSum

/-! ## The layers -/

/-- The layer that leaves nothing open. -/
def Settings.layer (s : Settings) : Fields :=
  ⟨some s.format, some s.color, some s.trace, some s.failFast, some s.files, some s.ignore⟩

/-- A configuration has a layer under a name: it stands in the first entry of that name. -/
def HasProfile (config : Option Config) (name : String) (layer : Fields) : Prop :=
  ∃ c before after, config = some c ∧ c.profiles = before ++ (name, layer) :: after ∧
    name ∉ before.map Prod.fst

/-- The layers over the defaults, the lowest one first. -/
inductive HasLayers (config : Option Config) (overrides : Fields) :
    Option String → List Fields → Prop where
  | unnamed : HasLayers config overrides none ((config.map Config.fields).toList ++ [overrides])
  | known {name : String} {layer : Fields} (h : HasProfile config name layer) :
    HasLayers config overrides (some name)
      ((config.map Config.fields).toList ++ [layer, overrides])
  | unknown {name : String} (h : ∀ layer, ¬ HasProfile config name layer) :
    HasLayers config overrides (some name) ((config.map Config.fields).toList ++ [overrides])

/-- A value is what the last of the layers says that say anything about it. -/
def IsLastSaid {α : Type} (said : Fields → Option α) (layers : List Fields) (value : α) : Prop :=
  ∃ before layer after, layers = before ++ layer :: after ∧ said layer = some value ∧
    ∀ later ∈ after, said later = none

/-- The profile of a name is the one that is found. -/
theorem profile?_eq_some_iff_hasProfile {config : Option Config} {name : String} {layer : Fields} :
    Config.profile? config name = some layer ↔ HasProfile config name layer := by
  unfold HasProfile
  cases config with
  | none => simp [Config.profile?]
  | some c =>
    show (c.profiles.find? _).map _ = some layer ↔ _
    rw [Option.map_eq_some_iff]
    constructor
    · rintro ⟨⟨found, _⟩, hfind, rfl⟩
      obtain ⟨hname, before, after, hsplit, hbefore⟩ := List.find?_eq_some_iff_append.mp hfind
      obtain rfl : found = name := of_decide_eq_true hname
      refine ⟨c, before, after, rfl, hsplit, ?_⟩
      intro hmem
      obtain ⟨entry, hentry, hfound⟩ := List.mem_map.mp hmem
      simpa [hfound] using hbefore entry hentry
    · rintro ⟨_, before, after, ⟨⟩, hsplit, hbefore⟩
      refine ⟨(name, layer), List.find?_eq_some_iff_append.mpr ?_, rfl⟩
      refine ⟨decide_eq_true rfl, before, after, hsplit, ?_⟩
      intro entry hentry
      have hother : entry.1 ≠ name := by
        rintro rfl
        exact hbefore (List.mem_map_of_mem hentry)
      simpa using hother

/-- The layers of a call are those that are put over the defaults. -/
theorem hasLayers_settingLayers (config : Option Config) (profile : Option String)
    (overrides : Fields) :
    HasLayers config overrides profile (settingLayers config profile overrides) := by
  unfold settingLayers
  cases profile with
  | none =>
    rw [Option.bind_none, Option.toList_none, List.append_nil]
    exact .unnamed
  | some name =>
    rw [Option.bind_some]
    cases hprofile : Config.profile? config name with
    | none =>
      rw [Option.toList_none, List.append_nil]
      apply HasLayers.unknown
      intro layer hlayer
      rw [profile?_eq_some_iff_hasProfile.mpr hlayer] at hprofile
      cases hprofile
    | some layer =>
      rw [List.append_assoc]
      exact .known (profile?_eq_some_iff_hasProfile.mp hprofile)

/-! ## Single values and lists -/

section Values

variable {α : Type} {said : Fields → Option α}

/-- A layer on top decides if it says anything. -/
theorem isLastSaid_concat_some (layers : List Fields) {layer : Fields} {value : α}
    (h : said layer = some value) : IsLastSaid said (layers ++ [layer]) value :=
  ⟨layers, layer, [], rfl, h, fun _ hmem => absurd hmem List.not_mem_nil⟩

/-- A layer on top that says nothing decides nothing. -/
theorem IsLastSaid.concat_none {layers : List Fields} {layer : Fields} {value : α}
    (hlast : IsLastSaid said layers value) (h : said layer = none) :
    IsLastSaid said (layers ++ [layer]) value := by
  obtain ⟨before, deciding, after, rfl, hsaid, hafter⟩ := hlast
  refine ⟨before, deciding, after ++ [layer], ?_, hsaid, ?_⟩
  · rw [List.append_assoc, List.cons_append]
  · intro later hlater
    rcases List.mem_append.mp hlater with hmem | hmem
    · exact hafter later hmem
    · rw [List.mem_singleton.mp hmem, h]

/-- A single value that each layer replaces if it says anything is what the last such layer says. -/
theorem isLastSaid_foldl_apply (read : Settings → α) (said : Fields → Option α) {base : Settings}
    (hbase : said base.layer = some (read base))
    (happly : ∀ s layer, read (Settings.apply s layer) = (said layer).getD (read s))
    (layers : List Fields) :
    IsLastSaid said (base.layer :: layers) (read (layers.foldl Settings.apply base)) := by
  -- the layers are added from the lowest one up, so the induction takes the last one off
  induction layers using List.reverseRecOn with
  | nil => exact isLastSaid_concat_some [] hbase
  | append_singleton layers layer ih =>
    rw [List.foldl_concat, happly, ← List.cons_append]
    cases hsaid : said layer with
    | none => exact ih.concat_none hsaid
    | some value => exact isLastSaid_concat_some _ hsaid

end Values

/-! ## What is reported -/

section Reports

variable {config : Option Config} {name : String} (overrides : Fields) (configFile : String)

/-- A profile that does not exist is reported, and the settings are those without a profile. -/
theorem resolveSettings_of_unknown (h : ∀ layer, ¬ HasProfile config name layer) :
    resolveSettings config (some name) overrides configFile =
      ((resolveSettings config none overrides configFile).1, [unknownProfile name configFile]) := by
  have hnone : Config.profile? config name = none := by
    rw [Option.eq_none_iff_forall_ne_some]
    intro layer hlayer
    exact h layer (profile?_eq_some_iff_hasProfile.mp hlayer)
  simp [resolveSettings, hnone]

/-- Nothing is reported of a profile that exists. -/
theorem reports_of_hasProfile {layer : Fields} (h : HasProfile config name layer) :
    (resolveSettings config (some name) overrides configFile).2 = [] := by
  simp [resolveSettings, profile?_eq_some_iff_hasProfile.mpr h]

/-- Nothing is reported exactly if there is no profile that is asked for and does not exist. -/
theorem reports_eq_nil_iff (profile : Option String) :
    (resolveSettings config profile overrides configFile).2 = [] ↔
      ∀ name ∈ profile, ∃ layer, HasProfile config name layer := by
  cases profile with
  | none => exact iff_of_true rfl fun name hname => absurd hname (Option.not_mem_none name)
  | some name =>
    constructor
    · rintro hnil _ ⟨⟩
      by_contra hunknown
      rw [not_exists] at hunknown
      rw [resolveSettings_of_unknown overrides configFile hunknown] at hnil
      cases hnil
    · intro hknown
      obtain ⟨layer, hlayer⟩ := hknown name rfl
      exact reports_of_hasProfile overrides configFile hlayer

end Reports

/-- **The last layer that says anything decides.** The settings of a call come from the defaults,
the file, the chosen profile and the flags, in this order and as far as they are there. Each single
value is what the last layer says that says anything about it, and each list is made of the lists of
the layers, one behind the other. Nothing is reported unless a profile is asked for that does not
exist; then there is one report, which is an error, and the settings are those of the same call
without a profile. -/
theorem resolveSettings_by_layers (config : Option Config) (profile : Option String)
    (overrides : Fields) (configFile : String) :
    let resolved := resolveSettings config profile overrides configFile
    ∃ layers, HasLayers config overrides profile layers ∧
      (IsLastSaid Fields.format (Settings.default.layer :: layers) resolved.1.format ∧
        IsLastSaid Fields.color (Settings.default.layer :: layers) resolved.1.color ∧
        IsLastSaid Fields.trace (Settings.default.layer :: layers) resolved.1.trace ∧
        IsLastSaid Fields.failFast (Settings.default.layer :: layers) resolved.1.failFast) ∧
      resolved.1.files = layers.flatMap (·.files.getD []) ∧
      resolved.1.ignore = layers.flatMap (·.ignore.getD []) ∧
      (resolved.2 = [] ↔ ∀ name ∈ profile, ∃ layer, HasProfile config name layer) ∧
      ∀ name, profile = some name → (∀ layer, ¬ HasProfile config name layer) →
        resolved.1 = (resolveSettings config none overrides configFile).1 ∧
        ∃ report, resolved.2 = [report] ∧ report.severity = .error ∧
          report.code = .configUnknownProfile := by
  intro resolved
  have hsettings : resolved.1 = _ := resolveSettings_eq_foldl config profile overrides configFile
  have hfiles : resolved.1.files = _ := files_resolveSettings config profile overrides configFile
  have hignore : resolved.1.ignore = _ := ignore_resolveSettings config profile overrides configFile
  have hreports : resolved.2 = [] ↔ _ := reports_eq_nil_iff overrides configFile profile
  have hunknown : ∀ name, profile = some name → (∀ layer, ¬ HasProfile config name layer) →
      resolved =
        ((resolveSettings config none overrides configFile).1,
          [unknownProfile name configFile]) := by
    rintro name rfl h
    exact resolveSettings_of_unknown overrides configFile h
  refine ⟨settingLayers config profile overrides, hasLayers_settingLayers config profile overrides,
    ⟨?_, ?_, ?_, ?_⟩, hfiles, hignore, hreports, ?_⟩
  · rw [hsettings]
    exact isLastSaid_foldl_apply Settings.format Fields.format rfl (fun _ _ => rfl) _
  · rw [hsettings]
    exact isLastSaid_foldl_apply Settings.color Fields.color rfl (fun _ _ => rfl) _
  · rw [hsettings]
    exact isLastSaid_foldl_apply Settings.trace Fields.trace rfl (fun _ _ => rfl) _
  · rw [hsettings]
    exact isLastSaid_foldl_apply Settings.failFast Fields.failFast rfl (fun _ _ => rfl) _
  · intro name hname h
    rw [hunknown name hname h]
    exact ⟨rfl, _, rfl, rfl, rfl⟩

/-- A profile switches off what the file switches on and adds a pattern that the file has already;
another profile does not exist. -/
theorem resolveSettings_by_layers_switched :
    let own : Fields := { Fields.empty with trace := some true, files := some ["*.sums"] }
    let ci : Fields := { Fields.empty with trace := some false, files := some ["*.sums", "b"] }
    let config : Config := ⟨own, [("ci", ci)]⟩
    let flags : Fields := { Fields.empty with color := some .never, ignore := some [] }
    (HasProfile (some config) "ci" ci ∧ ∀ layer, ¬ HasProfile (some config) "cd" layer) ∧
    (resolveSettings (some config) (some "ci") flags "cfg.yml").1.files =
      ["*.sums", "*.sums", "b"] ∧
    (resolveSettings (some config) (some "ci") flags "cfg.yml").2 = [] ∧
    (resolveSettings (some config) (some "cd") flags "cfg.yml").1 =
      (resolveSettings (some config) none flags "cfg.yml").1 := by
  intro own ci config flags
  have hci : HasProfile (some config) "ci" ci := ⟨config, [], [], rfl, rfl, List.not_mem_nil⟩
  have hcd : ∀ layer, ¬ HasProfile (some config) "cd" layer := by
    intro layer hlayer
    have hnone : Config.profile? (some config) "cd" = none := rfl
    rw [profile?_eq_some_iff_hasProfile.mpr hlayer] at hnone
    cases hnone
  obtain ⟨layers, hlayers, -, hfiles, -, hreports, -⟩ :=
    resolveSettings_by_layers (some config) (some "ci") flags "cfg.yml"
  obtain ⟨_, _, -, -, -, -, hunknown⟩ :=
    resolveSettings_by_layers (some config) (some "cd") flags "cfg.yml"
  refine ⟨⟨hci, hcd⟩, ?_, ?_, (hunknown "cd" rfl hcd).1⟩
  · cases hlayers with
    | known hlayer =>
      have hfound := (profile?_eq_some_iff_hasProfile.mpr hlayer).symm.trans
        (profile?_eq_some_iff_hasProfile.mpr hci)
      obtain rfl := Option.some.inj hfound
      exact hfiles
    | unknown h => exact absurd hci (h ci)
  · refine hreports.mpr ?_
    rintro _ ⟨⟩
    exact ⟨ci, hci⟩

end LineSum
