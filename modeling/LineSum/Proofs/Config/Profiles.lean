import LineSum.Proofs.Config.Outcome
import LineSum.Proofs.Config.Settings
import LineSum.Proofs.Yaml.Names

/-!
# Looking up a profile

The name of a profile goes through three maps: the one of the file, the one that checking keeps, and
the one that the configuration stores. Each of them holds all names of the one before, with a single
exception: under one name nothing can be stored, so a profile of that name is lost although the file
has it.
-/

namespace LineSum

open Yaml (Node)

/-! ## Names that can be stored -/

namespace Value

/-- The value without the entry that cannot be stored, if it is a map. -/
def storable : Value → Value
  | map entries => map (entries.filter (·.1 ≠ unstorableName))
  | value => value

/-- An entry of a configuration without the profile that cannot be stored. -/
def storableEntry (entry : String × Value) : String × Value :=
  if entry.1 = "profiles" then (entry.1, entry.2.storable) else entry

/-- The value without the profile that cannot be stored, if it is a map. -/
def withStorableProfiles : Value → Value
  | map entries => map (entries.map storableEntry)
  | value => value

/-- What can be stored of the entries. -/
theorem entries_storable (value : Value) :
    value.storable.entries = value.entries.filter (·.1 ≠ unstorableName) := by
  cases value <;> rfl

/-- Leaving a profile out changes no name. -/
@[simp] theorem storableEntry_fst (entry : String × Value) : (storableEntry entry).1 = entry.1 := by
  unfold storableEntry
  split <;> rfl

/-- The entries of a value without the profile that cannot be stored. -/
theorem entries_withStorableProfiles (value : Value) :
    value.withStorableProfiles.entries = value.entries.map storableEntry := by
  cases value <;> rfl

/-- The entries of a layer are none of the profiles. -/
theorem mem_withStorableProfiles_iff {value : Value} {entry : String × Value}
    (h : IsLayerEntry entry) :
    entry ∈ value.withStorableProfiles.entries ↔ entry ∈ value.entries := by
  have hsame : storableEntry entry = entry := if_neg h.name_ne
  rw [entries_withStorableProfiles]
  constructor
  · intro hmem
    obtain ⟨original, horiginal, rfl⟩ := List.mem_map.mp hmem
    have hname : original.1 ≠ "profiles" := by
      rw [← storableEntry_fst]
      exact h.name_ne
    have horiginal' : storableEntry original = original := if_neg hname
    rwa [horiginal']
  · intro hmem
    rw [← hsame]
    exact List.mem_map_of_mem hmem

/-- The profiles are those that can be stored. -/
theorem profiles_withStorableProfiles (value : Value) :
    value.withStorableProfiles.profiles = value.profiles.filter (·.1 ≠ unstorableName) := by
  have hget : Record.get? value.withStorableProfiles.entries "profiles" =
      (Record.get? value.entries "profiles").map storable := by
    rw [entries_withStorableProfiles]
    unfold Record.get?
    rw [List.find?_map]
    have hsame : (fun entry : String × Value => decide (entry.1 = "profiles")) ∘ storableEntry =
        fun entry => decide (entry.1 = "profiles") := by
      funext entry
      simp
    rw [hsame]
    cases hfind : value.entries.find? fun entry => decide (entry.1 = "profiles") with
    | none => rfl
    | some entry =>
      have hname : entry.1 = "profiles" := by simpa using List.find?_some hfind
      simp [storableEntry, hname]
  unfold profiles
  rw [hget]
  cases Record.get? value.entries "profiles" with
  | none => rfl
  | some under => exact entries_storable under

namespace HasDistinctNames

variable {value : Value}

/-- Leaving an entry out keeps the names distinct. -/
theorem storable (h : value.HasDistinctNames) : value.storable.HasDistinctNames := by
  cases value with
  | map entries =>
    refine .map (h.names.sublist (List.filter_sublist.map Prod.fst)) ?_
    intro entry hentry
    exact h.of_mem (List.mem_filter.mp hentry).1
  | _ => exact h

/-- Leaving a profile out keeps the names distinct. -/
theorem withStorableProfiles (h : value.HasDistinctNames) :
    value.withStorableProfiles.HasDistinctNames := by
  cases value with
  | map entries =>
    refine .map ?_ (List.forall_mem_map.mpr ?_)
    · have hfst : Prod.fst ∘ storableEntry = Prod.fst := funext storableEntry_fst
      rw [List.map_map, hfst]
      exact h.names
    · intro entry hentry
      unfold storableEntry
      split
      · exact (h.of_mem hentry).storable
      · exact h.of_mem hentry
  | _ => exact h

end HasDistinctNames

end Value

/-! ## What checking keeps of the profiles -/

/-- Nothing is kept of an entry that cannot be stored. -/
theorem checkEntries_storable (schema : Schema) (path : String) (node : Option Node)
    (entries : List (String × Value)) :
    (checkEntries schema path node entries).1 =
      (checkEntries schema path node (entries.filter (·.1 ≠ unstorableName))).1 := by
  induction entries with
  | nil => rfl
  | cons entry rest ih =>
    obtain ⟨name, value⟩ := entry
    by_cases hname : name = unstorableName
    · rw [List.filter_cons_of_neg (by simpa using hname), ← ih, checkEntries]
      exact if_pos hname
    · rw [List.filter_cons_of_pos (by simpa using hname), checkEntries, checkEntries]
      dsimp only
      rw [ih]

/-- Of the profiles, what a layer may have is kept if they can be stored. -/
theorem checkEntries_profileSchema (path : String) (node : Option Node)
    (profiles : List (String × Value)) :
    (checkEntries profileSchema path node profiles).1 =
      keptProfiles (profiles.filter (·.1 ≠ unstorableName)) := by
  have hnames : unstorableName ∉
      (profiles.filter (·.1 ≠ unstorableName)).map Prod.fst := by
    simp
  rw [checkEntries_storable]
  exact (profileSchema_isFlat.checkEntries_eq path node hnames).1

/-- A map of profiles is kept with the profiles that can be stored. -/
theorem checkFields_profiles (path : String) (node : Option Node)
    (profiles rest : List (String × Value)) :
    (checkFields configSchema path node (("profiles", .map profiles) :: rest)).1 =
      ("profiles", .map (keptProfiles (profiles.filter (·.1 ≠ unstorableName)))) ::
        (checkFields configSchema path node rest).1 := by
  have hfield : configSchema.lookup "profiles" =
      .declared (.mk .map none none (some profileSchema)) := rfl
  obtain ⟨_, _, hstep⟩ :=
    checkFields_of_map path node rest hfield (Field.mismatch?_map.mpr ⟨profiles, rfl⟩) rfl
  rw [hstep, keep_of_ne (by decide), checkEntries_profileSchema]

/-- What is not taken is no map of profiles, so that nothing is left out of it. -/
theorem storableEntry_of_not_takes {entry : String × Value}
    (h : configSchema.takes entry = false) : Value.storableEntry entry = entry := by
  obtain ⟨name, value⟩ := entry
  unfold Value.storableEntry
  split
  · next hname =>
    dsimp only at hname
    subst hname
    cases value with
    | map profiles =>
      rw [configSchema_takes_iff.mpr (.profiles profiles)] at h
      cases h
    | _ => rfl
  · rfl

/-- Of a configuration the same is kept without the profile that cannot be stored. -/
theorem checkFields_storable (path : String) (node : Option Node)
    (entries : List (String × Value)) :
    (checkFields configSchema path node entries).1 =
      (checkFields configSchema path node (entries.map Value.storableEntry)).1 := by
  induction entries with
  | nil => rfl
  | cons entry rest ih =>
    obtain ⟨name, value⟩ := entry
    rw [List.map_cons]
    cases htakes : configSchema.takes (name, value) with
    | false =>
      obtain ⟨_, hstep⟩ := checkFields_of_not_takes path node rest htakes
      obtain ⟨_, hstep'⟩ :=
        checkFields_of_not_takes path node (rest.map Value.storableEntry) htakes
      rw [storableEntry_of_not_takes htakes, hstep, hstep', ih]
    | true =>
      obtain ⟨field, hfield, hvalue, hplain | hprofiles⟩ := configSchema_of_takes htakes
      · obtain ⟨hother, -, hentries⟩ := hplain
        have hsame : Value.storableEntry (name, value) = (name, value) := if_neg hother
        rw [hsame, checkFields_of_plain path node rest hfield hvalue hentries,
          checkFields_of_plain path node _ hfield hvalue hentries, ih]
      · obtain ⟨rfl, hentries, profiles, rfl⟩ := hprofiles
        have hsame : Value.storableEntry ("profiles", .map profiles) =
            ("profiles", .map (profiles.filter (·.1 ≠ unstorableName))) := rfl
        rw [hsame, checkFields_profiles, checkFields_profiles, ih]
        simp

/-- Of a value the same is kept without the profile that cannot be stored. -/
theorem checkMap_withStorableProfiles (path : String) (node : Option Node) (value : Value) :
    (checkMap configSchema path node value).1 =
      (checkMap configSchema path node value.withStorableProfiles).1 := by
  cases value with
  | map entries => exact checkFields_storable path node entries
  | _ => rfl

/-- What is kept of a value is what is kept of its entries without the profile
that cannot be stored. -/
theorem checkMap_eq_keptEntries (path : String) (node : Option Node) {value : Value}
    (h : value.HasDistinctNames) :
    (checkMap configSchema path node value).1 =
      keptEntries value.withStorableProfiles.entries := by
  have hstorable : unstorableName ∉ value.withStorableProfiles.profiles.map Prod.fst := by
    rw [Value.profiles_withStorableProfiles]
    simp
  rw [checkMap_withStorableProfiles]
  exact (checkMap_configSchema path node h.withStorableProfiles hstorable).1

/-! ## The configuration -/

/-- The profiles of a value that can be stored, each with the layer that it holds. -/
def storedProfiles (value : Value) : Record Fields :=
  (value.profiles.filter (·.1 ≠ unstorableName)).map fun profile =>
    (profile.1, Fields.ofRecord (profile.2.entries.filter profileSchema.takes))

/-- A profile is stored with what a layer may have of it, unless it cannot be stored. -/
theorem mem_storedProfiles_iff {value : Value} {name : String} {layer : Fields} :
    (name, layer) ∈ storedProfiles value ↔
      name ≠ unstorableName ∧ ∃ profile, (name, profile) ∈ value.profiles ∧
        layer = Fields.ofRecord (profile.entries.filter profileSchema.takes) := by
  unfold storedProfiles
  rw [List.mem_map]
  constructor
  · rintro ⟨⟨found, profile⟩, hmem, heq⟩
    obtain ⟨hmem, hstorable⟩ := List.mem_filter.mp hmem
    obtain ⟨rfl, rfl⟩ := Prod.mk.inj heq
    exact ⟨of_decide_eq_true hstorable, profile, hmem, rfl⟩
  · rintro ⟨hstorable, profile, hmem, rfl⟩
    exact ⟨(name, profile), List.mem_filter.mpr ⟨hmem, decide_eq_true hstorable⟩, rfl⟩

section Config

variable {value : Value} (h : value.HasDistinctNames) (path : String) (node : Option Node)

include h

/-- The fields of the configuration are read off the value. -/
theorem fields_isReadFrom :
    (Config.ofRecord (checkMap configSchema path node value).1).fields.IsReadFrom
      value.entries := by
  rw [checkMap_eq_keptEntries path node h]
  have hnames := nodup_keptEntries h.withStorableProfiles.names
  refine (Fields.isReadFrom_ofRecord hnames fun _ => isConfigEntry_of_mem_keptEntries).congr ?_
  intro entry hlayer
  exact (mem_keptEntries_iff_of_layer hlayer).trans (Value.mem_withStorableProfiles_iff hlayer)

/-- The names of the profiles that can be stored are distinct. -/
theorem nodup_storedProfiles : ((storedProfiles value).map Prod.fst).Nodup := by
  unfold storedProfiles
  rw [List.map_map]
  exact h.profiles.names.sublist (List.filter_sublist.map Prod.fst)

/-- The profiles of the configuration are those of the value that can be stored. -/
theorem perm_storedProfiles :
    (Config.ofRecord (checkMap configSchema path node value).1).profiles.Perm
      (storedProfiles value) := by
  rw [checkMap_eq_keptEntries path node h, profiles_ofRecord h.withStorableProfiles,
    Value.profiles_withStorableProfiles]
  exact Record.perm_ofPairs (nodup_storedProfiles h)

/-- **A profile is found exactly if the value has it and it can be stored**, and it is found with
what a layer may have of it. -/
theorem profile?_eq_some_iff {name : String} {layer : Fields} :
    Record.get? (Config.ofRecord (checkMap configSchema path node value).1).profiles name =
        some layer ↔
      name ≠ unstorableName ∧ ∃ profile, (name, profile) ∈ value.profiles ∧
        layer = Fields.ofRecord (profile.entries.filter profileSchema.takes) := by
  have hperm := perm_storedProfiles h path node
  have hnames := ((hperm.map Prod.fst).nodup_iff).mpr (nodup_storedProfiles h)
  rw [Record.get?_eq_some_iff hnames, hperm.mem_iff, mem_storedProfiles_iff]

/-- A profile is not found exactly if the value does not have it or it cannot be stored. -/
theorem profile?_eq_none_iff {name : String} :
    Record.get? (Config.ofRecord (checkMap configSchema path node value).1).profiles name = none ↔
      name ∉ value.profiles.map Prod.fst ∨ name = unstorableName := by
  rw [Option.eq_none_iff_forall_ne_some]
  constructor
  · intro hnone
    by_contra hcontra
    rw [not_or, not_not] at hcontra
    obtain ⟨hmem, hstorable⟩ := hcontra
    obtain ⟨⟨_, profile⟩, hprofile, rfl⟩ := List.mem_map.mp hmem
    exact hnone _ ((profile?_eq_some_iff h path node).mpr ⟨hstorable, profile, hprofile, rfl⟩)
  · rintro hlost layer hsome
    obtain ⟨hstorable, profile, hprofile, -⟩ := (profile?_eq_some_iff h path node).mp hsome
    rcases hlost with hmissing | hname
    · exact hmissing (List.mem_map_of_mem hprofile)
    · exact hstorable hname

end Config

/-! ## Layers -/

/-- The layers over the defaults, the lowest one first: the file, the chosen profile, the flags. -/
def settingLayers (config : Option Config) (profile : Option String) (overrides : Fields) :
    List Fields :=
  (config.map Config.fields).toList ++ (profile.bind (Config.profile? config)).toList ++ [overrides]

/-- A layer that says nothing changes nothing. -/
@[simp] theorem Settings.apply_empty (settings : Settings) : settings.apply .empty = settings := by
  simp [Settings.apply, Fields.empty]

/-- The settings are the defaults under all layers. -/
theorem resolveSettings_eq_foldl (config : Option Config) (profile : Option String)
    (overrides : Fields) (configFile : String) :
    (resolveSettings config profile overrides configFile).1 =
      (settingLayers config profile overrides).foldl Settings.apply .default := by
  have hbase : Settings.default.apply ((config.map Config.fields).getD .empty) =
      (config.map Config.fields).toList.foldl Settings.apply .default := by
    cases config with
    | none => exact Settings.apply_empty _
    | some config => rfl
  unfold resolveSettings settingLayers
  dsimp only
  rw [hbase, List.foldl_append, List.foldl_append]
  cases profile with
  | none => rfl
  | some name =>
    dsimp only [Option.bind_some]
    cases Config.profile? config name <;> rfl

/-- What the layers append to a list comes behind what was there. -/
theorem foldl_apply_eq_append (read : Settings → List String) (said : Fields → Option (List String))
    (happly : ∀ settings layer,
      read (Settings.apply settings layer) = read settings ++ (said layer).getD [])
    (settings : Settings) (layers : List Fields) :
    read (layers.foldl Settings.apply settings) =
      read settings ++ layers.flatMap fun layer => (said layer).getD [] := by
  induction layers generalizing settings with
  | nil => simp
  | cons layer layers ih =>
    rw [List.foldl_cons, ih, happly, List.append_assoc]
    rfl

/-- What the layers say that is to be searched for. -/
theorem files_resolveSettings (config : Option Config) (profile : Option String)
    (overrides : Fields) (configFile : String) :
    (resolveSettings config profile overrides configFile).1.files =
      (settingLayers config profile overrides).flatMap (·.files.getD []) := by
  rw [resolveSettings_eq_foldl,
    foldl_apply_eq_append Settings.files Fields.files (fun _ _ => rfl)]
  rfl

/-- What the layers say that is to be left out of the search. -/
theorem ignore_resolveSettings (config : Option Config) (profile : Option String)
    (overrides : Fields) (configFile : String) :
    (resolveSettings config profile overrides configFile).1.ignore =
      (settingLayers config profile overrides).flatMap (·.ignore.getD []) := by
  rw [resolveSettings_eq_foldl,
    foldl_apply_eq_append Settings.ignore Fields.ignore (fun _ _ => rfl)]
  rfl

/-! ## Resolving settings with a profile -/

section Resolving

variable {config : Config} {name : String} (overrides : Fields) (configFile : String)

/-- A profile that is found is put between the file's own fields and the flags. -/
theorem resolveSettings_of_profile {layer : Fields}
    (h : Record.get? config.profiles name = some layer) :
    resolveSettings (some config) (some name) overrides configFile =
      (((Settings.default.apply config.fields).apply layer).apply overrides, []) := by
  simp [resolveSettings, Config.profile?, h]

/-- A profile that is not found is reported. -/
theorem resolveSettings_of_no_profile (h : Record.get? config.profiles name = none) :
    resolveSettings (some config) (some name) overrides configFile =
      ((Settings.default.apply config.fields).apply overrides,
        [unknownProfile name configFile]) := by
  simp [resolveSettings, Config.profile?, h]

/-- An unknown profile is reported exactly if it is not found. -/
theorem reports_unknownProfile_iff :
    (∃ d ∈ (resolveSettings (some config) (some name) overrides configFile).2,
        d.code = .configUnknownProfile) ↔
      Record.get? config.profiles name = none := by
  cases hget : Record.get? config.profiles name with
  | none =>
    rw [resolveSettings_of_no_profile overrides configFile hget]
    exact iff_of_true ⟨_, List.mem_singleton_self _, rfl⟩ rfl
  | some layer =>
    rw [resolveSettings_of_profile overrides configFile hget]
    simp

end Resolving

/-- **When a profile is unknown, and what a known one does.** If a text breaks no rule of YAML and
its value has a map of profiles, it gives a configuration whose own fields are read off the value. A
name is reported as an unknown profile exactly if it is no key of the map, or the name under which
nothing can be stored. Under every other key the valid fields of the profile are applied over those
of the file, and nothing is reported. -/
theorem resolveSettings_of_document {text : String} {value : Value} {profiles : Record Value}
    (hreports : (configDocument text).reports = [])
    (hvalue : (configDocument text).value = .ok value)
    (hprofiles : Record.get? value.entries "profiles" = some (.map profiles)) (file : String) :
    ∃ config diagnostics, readConfig text file = .ok ⟨some config, diagnostics⟩ ∧
      config.fields.IsReadFrom value.entries ∧
      ∀ name overrides configFile,
        let resolved := resolveSettings (some config) (some name) overrides configFile
        ((∃ d ∈ resolved.2, d.code = .configUnknownProfile) ↔
          name ∉ profiles.map Prod.fst ∨ name = unstorableName) ∧
        ∀ profile, (name, profile) ∈ profiles → name ≠ unstorableName →
          ∃ layer : Fields, layer.IsReadFrom profile.entries ∧
            resolved =
              (((Settings.default.apply config.fields).apply layer).apply overrides, []) := by
  have hnames := Yaml.Document.value_hasDistinctNames hvalue
  have hread := readConfig_of_no_reports text file hreports
  rw [hvalue] at hread
  have hsame : value.profiles = profiles := by
    unfold Value.profiles
    rw [hprofiles]
    rfl
  refine ⟨_, _, hread, fields_isReadFrom hnames _ _, ?_⟩
  intro name overrides configFile resolved
  constructor
  · rw [reports_unknownProfile_iff, profile?_eq_none_iff hnames, hsame]
  · intro profile hprofile hname
    rw [← hsame] at hprofile
    have hget := (profile?_eq_some_iff hnames "" (configDocument text).root).mpr
      ⟨hname, profile, hprofile, rfl⟩
    exact ⟨_, isReadFrom_filter (hnames.profiles.of_mem hprofile).names,
      resolveSettings_of_profile overrides configFile hget⟩

/-- The map of profiles of a document, if its value has one. -/
def Yaml.Document.profiles? (document : Yaml.Document) : Option (Record Value) :=
  document.value.toOption.bind fun value =>
    (Record.get? value.entries "profiles").bind Value.map?

/-- The map of profiles is what stands under their name. -/
theorem Yaml.Document.exists_value_of_profiles? {document : Yaml.Document}
    {profiles : Record Value} (h : document.profiles? = some profiles) :
    ∃ value, document.value = .ok value ∧
      Record.get? value.entries "profiles" = some (.map profiles) := by
  obtain ⟨value, hvalue, hunder⟩ := Option.bind_eq_some_iff.mp h
  obtain ⟨under, hget, hmap⟩ := Option.bind_eq_some_iff.mp hunder
  refine ⟨value, eq_ok_of_toOption hvalue, ?_⟩
  rw [hget]
  cases under with
  | map entries => exact congrArg (some <| Value.map ·) (Option.some.inj hmap)
  | _ => cases hmap

/-- The lexemes of a text with one profile. -/
theorem lexemes_one_profile :
    Yaml.Lexeme.ofText (configChars "profiles:\n  ci:\n    trace: true\n") =
      [.documentMark, .scalar "profiles".toList, .text [':'], .text ['\n'], .text [' ', ' '],
        .scalar "ci".toList, .text [':'], .text ['\n'], .text [' ', ' ', ' ', ' '],
        .scalar "trace".toList, .text [':'], .text [' '], .scalar "true".toList, .text ['\n']] := by
  cbv

/-- With one profile that traces tokens, a run that names it traces them, and a run that names
another one is told so. -/
theorem resolveSettings_of_one_profile :
    let text := "profiles:\n  ci:\n    trace: true\n"
    ∃ value profiles config diagnostics, (configDocument text).reports = [] ∧
      (configDocument text).value = .ok value ∧
      Record.get? value.entries "profiles" = some (.map profiles) ∧
      readConfig text "cfg.yml" = .ok ⟨some config, diagnostics⟩ ∧
      (resolveSettings (some config) (some "ci") .empty "cfg.yml").1.trace = true ∧
      ∃ d ∈ (resolveSettings (some config) (some "cd") .empty "cfg.yml").2,
        d.code = .configUnknownProfile := by
  intro text
  have hreports : (configDocument text).reports = [] := by
    unfold configDocument Yaml.Document.ofText Yaml.Nest.ofText
    dsimp only
    rw [lexemes_one_profile]
    decide +kernel
  have hobserved : (configDocument text).profiles?.map (fun profiles => profiles.map fun profile =>
      (profile.1, (Record.get? profile.2.entries "trace").bind Value.bool?)) =
      some [("ci", some true)] := by
    unfold configDocument Yaml.Document.ofText Yaml.Nest.ofText
    dsimp only
    rw [lexemes_one_profile]
    decide +kernel
  obtain ⟨profiles, hprofiles, hcontent⟩ := Option.map_eq_some_iff.mp hobserved
  obtain ⟨value, hvalue, hget⟩ := Yaml.Document.exists_value_of_profiles? hprofiles
  obtain ⟨config, diagnostics, hread, -, hresolve⟩ :=
    resolveSettings_of_document hreports hvalue hget "cfg.yml"
  obtain ⟨⟨name, profile⟩, rfl, hprofile⟩ := List.map_eq_singleton_iff.mp hcontent
  obtain ⟨rfl, htrace⟩ := Prod.mk.inj hprofile
  obtain ⟨found, hfound, hbool⟩ := Option.bind_eq_some_iff.mp htrace
  obtain rfl := Value.bool?_eq_some_iff.mp hbool
  obtain ⟨layer, hlayer, hresolved⟩ :=
    (hresolve "ci" .empty "cfg.yml").2 profile (List.mem_singleton_self _) (by decide)
  refine ⟨value, _, config, diagnostics, hreports, hvalue, hget, hread, ?_, ?_⟩
  · have hset : layer.trace = some true :=
      (hlayer.trace true).mpr (Record.mem_of_get?_eq_some hfound)
    rw [hresolved]
    simp [Settings.apply, Fields.empty, hset]
  · exact (hresolve "cd" .empty "cfg.yml").1.mpr (.inl (by simp))

/-- The lexemes of a text with a profile that cannot be stored. -/
theorem lexemes_unstorable_profile :
    Yaml.Lexeme.ofText (configChars "profiles:\n  __proto__:\n    format: plain\n") =
      [.documentMark, .scalar "profiles".toList, .text [':'], .text ['\n'], .text [' ', ' '],
        .scalar "__proto__".toList, .text [':'], .text ['\n'], .text [' ', ' ', ' ', ' '],
        .scalar "format".toList, .text [':'], .text [' '], .scalar "plain".toList,
        .text ['\n']] := by
  cbv

/-- A profile under the name that cannot be stored is a key of the map, and yet it is unknown. -/
theorem unstorable_profile_is_unknown :
    let text := "profiles:\n  __proto__:\n    format: plain\n"
    ∃ value profiles config diagnostics, (configDocument text).reports = [] ∧
      (configDocument text).value = .ok value ∧
      Record.get? value.entries "profiles" = some (.map profiles) ∧
      "__proto__" ∈ profiles.map Prod.fst ∧
      readConfig text "cfg.yml" = .ok ⟨some config, diagnostics⟩ ∧
      resolveSettings (some config) (some "__proto__") .empty "cfg.yml" =
        (Settings.default, [unknownProfile "__proto__" "cfg.yml"]) := by
  intro text
  have hreports : (configDocument text).reports = [] := by
    unfold configDocument Yaml.Document.ofText Yaml.Nest.ofText
    dsimp only
    rw [lexemes_unstorable_profile]
    decide +kernel
  have hnames : (configDocument text).profiles?.map (·.map Prod.fst) = some ["__proto__"] := by
    unfold configDocument Yaml.Document.ofText Yaml.Nest.ofText
    dsimp only
    rw [lexemes_unstorable_profile]
    decide +kernel
  have hresolved : ((readConfig text "cfg.yml").toOption.bind LoadedConfig.config).map
      (fun config => resolveSettings (some config) (some "__proto__") .empty "cfg.yml") =
      some (Settings.default, [unknownProfile "__proto__" "cfg.yml"]) := by
    unfold readConfig Yaml.Document.ofText Yaml.Nest.ofText
    dsimp only
    rw [lexemes_unstorable_profile]
    decide +kernel
  obtain ⟨profiles, hprofiles, hkeys⟩ := Option.map_eq_some_iff.mp hnames
  obtain ⟨value, hvalue, hget⟩ := Yaml.Document.exists_value_of_profiles? hprofiles
  have hread := readConfig_of_no_reports text "cfg.yml" hreports
  rw [hvalue] at hread
  rw [hread] at hresolved
  refine ⟨value, profiles, _, _, hreports, hvalue, hget, ?_, hread, Option.some.inj hresolved⟩
  rw [hkeys]
  exact List.mem_singleton_self _

end LineSum
