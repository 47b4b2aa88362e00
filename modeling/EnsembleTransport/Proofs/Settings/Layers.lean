import EnsembleTransport.Proofs.Settings.Overlay
import EnsembleTransport.Settings.Load

/-!
# The layers of the settings

A setting is what the last of the overrides gives for it, else what the last of its variables spells,
else what the file says, else its default. A file may write a section as a list of its settings; one
variable of a setting in this section takes the whole list away. Apart from this no layer touches a
setting other than the one it is about.
-/

namespace EnsembleTransport

theorem lowered_append (front rest : String) : lowered (front ++ rest) = lowered front ++ lowered rest := by
  apply String.toList_injective
  simp [lowered]

namespace SettingKey

def all : List SettingKey :=
  [host, port, maxMessageSize, timestamps, frameSync, policy, outputPath, logLevel]

theorem mem_all (key : SettingKey) : key ∈ all := by
  cases key <;> decide

def path (key : SettingKey) : String := key.sectionName ++ "." ++ key.name

theorem pathOf_path (key : SettingKey) :
    Setting.pathOf key.path = [.member key.sectionName, .member key.name] := by
  cases key <;> decide +kernel

end SettingKey

namespace Environment

def variableName (stem : String) (key : SettingKey) : String :=
  stem ++ "_" ++ (key.sectionName ++ separator ++ key.name)

/-- The setting that a variable is of, whatever the case of its name. -/
def keyOf? (stem name : String) : Option SettingKey :=
  SettingKey.all.find? fun key =>
    (lowered name).toList == (lowered (variableName stem key)).toList

/-- Every variable that counts is one of a setting. -/
def NamesSettings (stem : String) (environment : List (String × String)) : Prop :=
  ∀ entry ∈ environment, (settingName? stem entry.1).isSome →
    ∃ key, lowered entry.1 = lowered (variableName stem key)

def assignments (stem : String) (environment : List (String × String)) :
    List (SettingKey × Setting) :=
  environment.filterMap fun (name, text) => (keyOf? stem name).map fun key => (key, valueOf text)

theorem pointed_lowered (key : SettingKey) :
    pointed separator.toList (lowered (key.sectionName ++ separator ++ key.name)).toList =
      key.path.toList := by
  cases key <;> decide +kernel

theorem settingName?_of_variable {stem name : String} {key : SettingKey}
    (h : lowered name = lowered (variableName stem key)) :
    settingName? stem name = some key.path := by
  have hmark : lowered "_" = "_" := by decide +kernel
  have hname : (lowered name).toList = (lowered stem ++ "_").toList ++
      (lowered (key.sectionName ++ separator ++ key.name)).toList := by
    rw [h, variableName, lowered_append, lowered_append, hmark, String.toList_append]
  rw [settingName?, hname, if_pos (List.isPrefixOf_iff_prefix.mpr (List.prefix_append _ _)),
    List.drop_left, pointed_lowered, String.ofList_toList]

theorem keyOf?_eq_some {stem name : String} {key : SettingKey} (h : keyOf? stem name = some key) :
    lowered name = lowered (variableName stem key) := by
  have hkey := List.find?_some h
  exact String.toList_injective (beq_iff_eq.mp hkey)

theorem exists_keyOf? {stem name : String}
    (h : ∃ key, lowered name = lowered (variableName stem key)) :
    ∃ key, keyOf? stem name = some key := by
  obtain ⟨key, hkey⟩ := h
  apply Option.isSome_iff_exists.mp
  rw [keyOf?, List.find?_isSome]
  exact ⟨key, key.mem_all, beq_iff_eq.mpr (congrArg String.toList hkey)⟩

theorem namesSettings_of_keyOf? {stem : String} {environment : List (String × String)}
    (h : ∀ entry ∈ environment, (settingName? stem entry.1).isSome →
      (keyOf? stem entry.1).isSome) : NamesSettings stem environment := by
  intro entry hentry hcounts
  obtain ⟨key, hkey⟩ := Option.isSome_iff_exists.mp (h entry hentry hcounts)
  exact ⟨key, keyOf?_eq_some hkey⟩

theorem valueOf_isLeaf (text : String) : (valueOf text).IsLeaf := by
  unfold valueOf
  split
  · exact .boolean true
  · split
    · exact .boolean false
    · split
      · exact .integer _
      · split
        · exact .float _
        · exact .string text

theorem assignments_isLeaf (stem : String) (environment : List (String × String)) :
    ∀ assignment ∈ assignments stem environment, assignment.2.IsLeaf := by
  intro assignment h
  obtain ⟨⟨name, text⟩, _, h⟩ := List.mem_filterMap.mp h
  obtain ⟨key, _, rfl⟩ := Option.map_eq_some_iff.mp h
  exact valueOf_isLeaf text

theorem overlay_layer {stem : String} {environment : List (String × String)}
    (h : NamesSettings stem environment) (tree : Setting) : tree.overlay (layer stem environment) =
      (assignments stem environment).foldl
        (fun tree assignment => Setting.assign assignment.1 assignment.2 tree) tree := by
  induction environment generalizing tree with
  | nil => rfl
  | cons entry environment ih =>
    obtain ⟨name, text⟩ := entry
    obtain ⟨hentry, h⟩ := List.forall_mem_cons.mp h
    cases hkey : keyOf? stem name with
    | some key =>
      have hname := settingName?_of_variable (keyOf?_eq_some hkey)
      rw [layer, assignments, List.filterMap_cons, List.filterMap_cons]
      simp only [hname, hkey, Option.map_some]
      rw [Setting.overlay, List.foldl_cons, List.foldl_cons]
      simp only [SettingKey.pathOf_path]
      exact ih h _
    | none =>
      have hname : settingName? stem name = none := by
        rw [← Option.not_isSome_iff_eq_none]
        intro hcounts
        obtain ⟨key, hsome⟩ := exists_keyOf? (hentry hcounts)
        cases hkey.symm.trans hsome
      rw [layer, assignments, List.filterMap_cons, List.filterMap_cons]
      simp only [hname, hkey, Option.map_none]
      exact ih h _

end Environment

namespace SettingsFile

def document? (file : SettingsFile) : Option Toml.Table := do
  let text ← file.contents
  if extension? file.name = some "toml" then Toml.parse? text else none

def tree? (file : Option SettingsFile) : Option Setting :=
  ((file.map layer?).getD (some [])).map (Setting.table []).overlay

theorem layer?_eq (file : SettingsFile) :
    file.layer? = file.document?.map fun document => Setting.ofTomlEntries document.entries := by
  rw [layer?, document?]
  cases file.contents with
  | none => rfl
  | some text =>
    by_cases htoml : extension? file.name = some "toml"
    · simp only [htoml, if_true, Option.bind_eq_bind, Option.bind_some]
      cases Toml.parse? text <;> rfl
    · simp [htoml]

theorem distinct_of_document? {file : SettingsFile} {document : Toml.Table}
    (h : file.document? = some document) : document.Distinct := by
  obtain ⟨text, _, h⟩ := Option.bind_eq_some_iff.mp h
  split at h
  · exact Toml.distinct_of_parse? h
  · cases h

/-- A document with plain keys is its own tree. -/
theorem tree?_of_plain {file : SettingsFile} {document : Toml.Table}
    (h : file.document? = some document) (hplain : document.Plain) :
    tree? (some file) = some (.table (Setting.ofTomlEntries document.entries)) := by
  rw [tree?, Option.map_some, Option.getD_some, layer?_eq, h, Option.map_some, Option.map_some,
    Setting.overlay_of_plain (distinct_of_document? h) hplain]

end SettingsFile

namespace Settings

open Environment SettingsFile

variable {file : Option SettingsFile} {stem : String} {environment : List (String × String)}
  {loaded : Settings}

theorem settings_of_load (h : load file stem environment = .ok loaded) :
    ∃ tree, tree? file = some tree ∧
      Setting.lenient.settings (tree.overlay (layer stem environment)) = some loaded := by
  unfold load at h
  split at h
  · cases h
  · rename_i fromFile hfile
    refine ⟨(Setting.table []).overlay fromFile, ?_, ?_⟩
    · rw [tree?, hfile, Option.map_some]
    · dsimp only at h
      split at h
      · rename_i settings hsettings
        cases h
        exact hsettings
      · cases h

/-- What is loaded is told by what the file and the variables give for each setting. -/
theorem read_of_load (hnames : NamesSettings stem environment)
    (h : load file stem environment = .ok loaded) :
    ∃ tree, tree? file = some tree ∧ ∀ key,
      Setting.read (tree.layered? (assignments stem environment) key) key = some (loaded.value key) := by
  obtain ⟨tree, htree, hsettings⟩ := settings_of_load h
  refine ⟨tree, htree, fun key => ?_⟩
  have hroot : ∃ entries, tree = .table entries := by
    obtain ⟨fromFile, _, rfl⟩ := Option.map_eq_some_iff.mp htree
    exact Setting.exists_overlay ⟨[], rfl⟩ fromFile
  obtain ⟨entries, hentries⟩ := Setting.exists_overlay hroot (layer stem environment)
  rw [hentries] at hsettings
  have hread := Setting.read_given?_of_settings hsettings key
  rwa [← hentries, overlay_layer hnames,
    Setting.given?_foldl_assign (assignments_isLeaf stem environment)] at hread

/-- Overrides that are applied to what was loaded come first. -/
theorem value_of_read {given : Option Setting} {key : SettingKey}
    (h : Setting.read given key = some (loaded.value key)) (overrides : List Overrides) :
    (Overrides.last? overrides key).or (Setting.read given key) =
      some ((overrides.foldl apply loaded).value key) := by
  rw [h, value_foldl_apply]
  cases Overrides.last? overrides key <;> rfl

theorem value_foldl_of_none (key : SettingKey) (h : ∀ one : Overrides, one.value? key = none)
    (settings : Settings) (overrides : List Overrides) :
    (overrides.foldl apply settings).value key = settings.value key := by
  have hlast : Overrides.last? overrides key = none := by
    rw [Overrides.last?, List.filterMap_eq_nil_iff.mpr fun one _ => h one]
    rfl
  rw [value_foldl_apply, hlast, Option.getD_none]

theorem frameSync_of_read {given : Option Setting} {settings : Settings}
    (h : Setting.read given .frameSync = some settings.diagnostics.frameSync) :
    (∀ value, given = some value →
      value.toFlag? = some settings.diagnostics.options.frameSync) ∧
    (given = none →
      settings.diagnostics.options.frameSync = settings.diagnostics.timestamps) := by
  constructor
  · rintro value rfl
    obtain ⟨flag, hflag, hsome⟩ := Option.map_eq_some_iff.mp h
    simp [DiagnosticSettings.options, DiagnosticSettings.frameSyncEnabled, ← hsome, hflag]
  · rintro rfl
    have hnone : settings.diagnostics.frameSync = none := (Option.some.inj h).symm
    simp [DiagnosticSettings.options, DiagnosticSettings.frameSyncEnabled, hnone]

/-- A setting is what the last of the overrides gives, else what the last of its variables spells, else
what the file gives, else its default. No override touches the greatest message size and the check of
frame synchronisation; this check is on as file or variables say, and else follows the timestamps.
Settings that are given the same on every layer are the same, whatever becomes of the others, unless
their section is a list that is given up. -/
theorem load_layers (hnames : NamesSettings stem environment)
    (hload : load file stem environment = .ok loaded) (overrides : List Overrides) :
    let final := overrides.foldl apply loaded
    let given := assignments stem environment
    ∃ tree, tree? file = some tree ∧
      (∀ document, file.bind document? = some document → document.Plain →
        tree = .table (Setting.ofTomlEntries document.entries)) ∧
      (∀ key, (Overrides.last? overrides key).or (Setting.read (tree.layered? given key) key) =
        some (final.value key)) ∧
      final.source.maxMessageSize = loaded.source.maxMessageSize ∧
      final.diagnostics.frameSync = loaded.diagnostics.frameSync ∧
      (∀ value, tree.layered? given .frameSync = some value →
        value.toFlag? = some final.diagnostics.options.frameSync) ∧
      (tree.layered? given .frameSync = none →
        final.diagnostics.options.frameSync = final.diagnostics.timestamps) ∧
      ∀ {file' : Option SettingsFile} {environment' : List (String × String)} {loaded' : Settings}
        {tree' : Setting} (overrides' : List Overrides) (key : SettingKey),
        let given' := assignments stem environment'
        NamesSettings stem environment' → load file' stem environment' = .ok loaded' →
        tree? file' = some tree' → tree'.given? key = tree.given? key →
        Setting.lastAssigned? given' key = Setting.lastAssigned? given key →
        Overrides.last? overrides' key = Overrides.last? overrides key →
        ¬ tree.GivenUp given key → ¬ tree'.GivenUp given' key →
        (overrides'.foldl apply loaded').value key = final.value key := by
  intro final given
  obtain ⟨tree, htree, hread⟩ := read_of_load hnames hload
  have hframeSync : final.diagnostics.frameSync = loaded.diagnostics.frameSync :=
    value_foldl_of_none .frameSync (fun _ => rfl) loaded overrides
  have hcheck := frameSync_of_read (hframeSync ▸ hread .frameSync :
    Setting.read (tree.layered? given .frameSync) .frameSync = some final.diagnostics.frameSync)
  refine ⟨tree, htree, ?_, ?_, ?_, hframeSync, hcheck.1, hcheck.2, ?_⟩
  · intro document hdocument hplain
    obtain ⟨one, rfl, hone⟩ := Option.bind_eq_some_iff.mp hdocument
    exact Option.some.inj (htree.symm.trans (tree?_of_plain hone hplain))
  · intro key
    exact value_of_read (hread key) overrides
  · exact value_foldl_of_none .maxMessageSize (fun _ => rfl) loaded overrides
  · intro file' environment' loaded' tree' overrides' key given' hnames' hload' htree' hfile hgiven
      hoverrides hkept hkept'
    obtain ⟨other, hother, hread'⟩ := read_of_load hnames' hload'
    cases htree'.symm.trans hother
    have hlayered : tree'.layered? given' key = tree.layered? given key := by
      rw [Setting.layered?, Setting.layered?, hgiven, if_neg hkept, if_neg hkept', hfile]
    have hvalue := value_of_read (hread key) overrides
    have hvalue' := value_of_read (hread' key) overrides'
    rw [hlayered, hoverrides] at hvalue'
    exact Option.some.inj (hvalue'.symm.trans hvalue)

theorem eq_ok_of_toOption {outcome : Except LoadFault Settings}
    (h : outcome.toOption = some loaded) : outcome = .ok loaded := by
  cases outcome with
  | error fault => cases h
  | ok settings =>
    cases h
    rfl

/-- The host is the file's, the port a variable's and the policy the overrides'. The host stays when
another variable is set instead. -/
theorem load_layers_of_all :
    let file : Option SettingsFile :=
      some ⟨"receiver.toml", some "[source]\nhost = \"mux\"\nport = 9100\n"⟩
    let environment := [("ETI_RX_SOURCE__PORT", "9200"), ("HOME", "/root")]
    let loaded : Settings := { source := { host := "mux", port := 9200 } }
    let loaded' : Settings :=
      { source := { host := "mux", port := 9100 }, diagnostics := { timestamps := true } }
    let overrides : List Overrides := [{ strict := true }]
    load file "ETI_RX" environment = .ok loaded ∧
      (∃ tree, tree? file = some tree ∧ ∀ key, (Overrides.last? overrides key).or
        (Setting.read (tree.layered? (assignments "ETI_RX" environment) key) key) =
          some ((overrides.foldl apply loaded).value key)) ∧
      load file "ETI_RX" [("eti_rx_diagnostics__timestamps", "on")] = .ok loaded' ∧
      loaded'.value .host = (overrides.foldl apply loaded).value .host := by
  intro file environment loaded loaded' overrides
  have hnames : NamesSettings "ETI_RX" environment := namesSettings_of_keyOf? (by decide +kernel)
  have hnames' : NamesSettings "ETI_RX" [("eti_rx_diagnostics__timestamps", "on")] :=
    namesSettings_of_keyOf? (by decide +kernel)
  have hload : load file "ETI_RX" environment = .ok loaded :=
    eq_ok_of_toOption (by decide +kernel)
  have hload' : load file "ETI_RX" [("eti_rx_diagnostics__timestamps", "on")] = .ok loaded' :=
    eq_ok_of_toOption (by decide +kernel)
  obtain ⟨tree, htree, -, hvalue, -, -, -, -, hsame⟩ := load_layers hnames hload overrides
  have hlisted : tree.isListed "source" = false := by
    have hfile : (tree? file).map (·.isListed "source") = some false := by decide +kernel
    rw [htree] at hfile
    exact Option.some.inj hfile
  have hkept (given : List (SettingKey × Setting)) : ¬ tree.GivenUp given .host := by
    intro h
    cases hlisted.symm.trans h.1
  have hgiven : Setting.lastAssigned? (assignments "ETI_RX" environment) .host = none :=
    Option.isNone_iff_eq_none.mp (by decide +kernel)
  have hgiven' : Setting.lastAssigned?
      (assignments "ETI_RX" [("eti_rx_diagnostics__timestamps", "on")]) .host = none :=
    Option.isNone_iff_eq_none.mp (by decide +kernel)
  exact ⟨hload, ⟨tree, htree, hvalue⟩, hload', hsame [] .host hnames' hload' htree rfl
    (hgiven'.trans hgiven.symm) rfl (hkept _) (hkept _)⟩

/-- A file gives host and port in a list, and a variable sets the port. The host is then the default,
although neither the variable nor anything else is about it. -/
theorem list_given_up_for_port :
    let file : Option SettingsFile :=
      some ⟨"receiver.toml", some "source = [\"mux\", 9100]\n"⟩
    let environment := [("ETI_RX_SOURCE__PORT", "9200")]
    NamesSettings "ETI_RX" environment ∧
      load file "ETI_RX" [] = .ok { source := { host := "mux", port := 9100 } } ∧
      load file "ETI_RX" environment = .ok { source := { host := "localhost", port := 9200 } } := by
  intro file environment
  exact ⟨namesSettings_of_keyOf? (by decide +kernel), eq_ok_of_toOption (by decide +kernel),
    eq_ok_of_toOption (by decide +kernel)⟩

end Settings

end EnsembleTransport
