import EnsembleTransport.Proofs.Toml.Keys
import EnsembleTransport.Settings.Tree

/-!
# The settings one by one

The settings of a receiver are eight, each in one of five sections. Each has a name in its section, a
type, a default, and a way in which a value of the tree is converted to it. What is decoded from a tree
and what is left by overrides is told for each setting by itself.
-/

namespace EnsembleTransport

inductive SettingKey where
  | host
  | port
  | maxMessageSize
  | timestamps
  | frameSync
  | policy
  | outputPath
  | logLevel
deriving DecidableEq, Repr

namespace SettingKey

def sectionName : SettingKey → String
  | host | port | maxMessageSize => "source"
  | timestamps | frameSync => "diagnostics"
  | policy => "errors"
  | outputPath => "output"
  | logLevel => "logging"

def name : SettingKey → String
  | host => "host"
  | port => "port"
  | maxMessageSize => "max_message_size"
  | timestamps => "timestamps"
  | frameSync => "frame_sync"
  | policy => "policy"
  | outputPath => "path"
  | logLevel => "level"

def names : SettingKey → List String
  | host | port | maxMessageSize => ["host", "port", "max_message_size"]
  | timestamps | frameSync => ["timestamps", "frame_sync"]
  | policy => ["policy"]
  | outputPath => ["path"]
  | logLevel => ["level"]

def Value : SettingKey → Type
  | host | logLevel => String
  | port | maxMessageSize => Nat
  | timestamps => Bool
  | frameSync => Option Bool
  | policy => ErrorPolicy
  | outputPath => Option String

theorem name_injective : Function.Injective name := by
  intro key other h
  cases key <;> cases other <;> first | rfl | exact absurd h (by decide)

theorem name_mem_names (key : SettingKey) : key.name ∈ key.names := by
  cases key <;> decide

end SettingKey

namespace Settings

def value (settings : Settings) : (key : SettingKey) → key.Value
  | .host => settings.source.host
  | .port => settings.source.port
  | .maxMessageSize => settings.source.maxMessageSize
  | .timestamps => settings.diagnostics.timestamps
  | .frameSync => settings.diagnostics.frameSync
  | .policy => settings.policy
  | .outputPath => settings.outputPath
  | .logLevel => settings.logLevel

end Settings

namespace Overrides

/-- What overrides give for a setting. A flag gives something only when it is set. -/
def value? (overrides : Overrides) : (key : SettingKey) → Option key.Value
  | .host => overrides.host
  | .port => overrides.port
  | .timestamps => if overrides.timestamps then some true else none
  | .policy => if overrides.strict then some .abort else none
  | .outputPath => overrides.outputPath.map some
  | .logLevel => overrides.logLevel
  | .maxMessageSize | .frameSync => none

/-- What the last of the overrides gives that gives anything for a setting. -/
def last? (overrides : List Overrides) (key : SettingKey) : Option key.Value :=
  (overrides.filterMap (·.value? key)).getLast?

end Overrides

namespace Settings

theorem value_apply (settings : Settings) (overrides : Overrides) (key : SettingKey) :
    (settings.apply overrides).value key = (overrides.value? key).getD (settings.value key) := by
  cases key with
  | timestamps => cases h : overrides.timestamps <;> simp only [value, apply, Overrides.value?, h] <;> rfl
  | policy => cases h : overrides.strict <;> simp only [value, apply, Overrides.value?, h] <;> rfl
  | outputPath => cases h : overrides.outputPath <;> simp only [value, apply, Overrides.value?, h] <;> rfl
  | _ => rfl

/-- Of all that overrides give for a setting the last counts. -/
theorem value_foldl_apply (settings : Settings) (overrides : List Overrides) (key : SettingKey) :
    (overrides.foldl apply settings).value key =
      (Overrides.last? overrides key).getD (settings.value key) := by
  induction overrides generalizing settings with
  | nil => rfl
  | cons one overrides ih =>
    rw [List.foldl_cons, ih, value_apply, Overrides.last?, Overrides.last?, List.filterMap_cons]
    cases one.value? key with
    | none => rfl
    | some given =>
      rw [List.getLast?_cons]
      cases (List.filterMap (·.value? key) overrides).getLast? <;> rfl

end Settings

theorem Conversion.find?_named {α : Type} {names : List String} {name : String}
    (hname : name ∈ names) (entries : List (String × α)) :
    Toml.find? (named names entries) name = Toml.find? entries name := by
  induction entries with
  | nil => rfl
  | cons entry entries ih =>
    rw [named, List.filter_cons, Toml.find?_cons]
    by_cases hentry : entry.1 = name
    · rw [if_pos hentry, hentry, if_pos (List.contains_iff_mem.mpr hname), Toml.find?_cons,
        if_pos hentry]
    · rw [if_neg hentry, ← ih]
      by_cases hnamed : names.contains entry.1
      · rw [if_pos hnamed, Toml.find?_cons, if_neg hentry]
        rfl
      · rw [if_neg hnamed]
        rfl

namespace Setting

def convert (value : Setting) : (key : SettingKey) → Option key.Value
  | .host | .logLevel => value.toText?
  | .port => lenient.port value
  | .maxMessageSize => value.toCount?
  | .timestamps => value.toFlag?
  | .frameSync => value.toFlag?.map some
  | .policy => value.toPolicy?
  | .outputPath => value.toText?.map some

def read (given : Option Setting) (key : SettingKey) : Option key.Value :=
  match given with
  | some value => value.convert key
  | none => some (({} : Settings).value key)

/-- The member of a table under a name, or of a list in the place that the name has. -/
def member? (names : List String) (name : String) : Setting → Option Setting
  | table entries => Toml.find? entries name
  | list items => Toml.find? (names.zip items) name
  | nothing | boolean _ | integer _ | float _ | string _ => none

/-- What a tree gives for a setting. A place that was only made for the sake of those behind it gives
nothing. -/
def given? (tree : Setting) (key : SettingKey) : Option Setting :=
  ((Toml.find? tree.entries key.sectionName).bind (member? key.names key.name)).filter
    fun value => !lenient.isNothing value

def decode (value : Setting) : (key : SettingKey) → Option key.Value
  | .host | .logLevel => lenient.text value
  | .port => lenient.port value
  | .maxMessageSize => lenient.count value
  | .timestamps => lenient.flag value
  | .frameSync => lenient.maybe lenient.flag value
  | .policy => lenient.policy value
  | .outputPath => lenient.maybe lenient.text value

/-- A place without a value decodes to the default or to nothing at all. -/
theorem decode_of_isNothing {value : Setting} (h : lenient.isNothing value = true)
    {key : SettingKey} {found : key.Value} (hfound : value.decode key = some found) :
    ({} : Settings).value key = found := by
  cases value with
  | nothing =>
    cases key with
    | frameSync | outputPath => exact Option.some.inj hfound
    | _ => cases hfound
  | _ => cases h

theorem decode_eq_convert {value : Setting} (h : lenient.isNothing value = false)
    (key : SettingKey) : value.decode key = value.convert key := by
  cases key with
  | frameSync | outputPath =>
    simp only [decode, convert, Conversion.maybe, h, Bool.false_eq_true, if_false]
    rfl
  | _ => rfl

theorem find?_of_members {names : List String} {value : Setting}
    {values : List (String × Setting)} (h : lenient.members names value = some values)
    {name : String} (hname : name ∈ names) :
    Toml.find? values name = member? names name value := by
  cases value with
  | table entries =>
    cases h
    exact Conversion.find?_named hname entries
  | list items =>
    cases h
    rfl
  | _ => cases h

def memberValue (value : Setting) (key : SettingKey) : Option key.Value :=
  (member? key.names key.name value).elim (some (({} : Settings).value key)) (decode · key)

theorem memberValue_of_members (key : SettingKey) {value : Setting}
    {values : List (String × Setting)} (h : lenient.members key.names value = some values) :
    value.memberValue key = Conversion.member values key.name (({} : Settings).value key)
      (decode · key) := by
  rw [memberValue, ← find?_of_members h key.name_mem_names, Conversion.member]
  cases Toml.find? values key.name <;> rfl

theorem memberValue_of_source {value : Setting} {source : SourceSettings}
    (h : lenient.sourceSettings value = some source) :
    value.memberValue .host = some source.host ∧ value.memberValue .port = some source.port ∧
      value.memberValue .maxMessageSize = some source.maxMessageSize := by
  obtain ⟨values, hvalues, h⟩ := Option.bind_eq_some_iff.mp h
  obtain ⟨host, hhost, h⟩ := Option.bind_eq_some_iff.mp h
  obtain ⟨port, hport, h⟩ := Option.bind_eq_some_iff.mp h
  obtain ⟨size, hsize, h⟩ := Option.bind_eq_some_iff.mp h
  cases h
  exact ⟨(memberValue_of_members .host hvalues).trans hhost,
    (memberValue_of_members .port hvalues).trans hport,
    (memberValue_of_members .maxMessageSize hvalues).trans hsize⟩

theorem memberValue_of_diagnostics {value : Setting} {diagnostics : DiagnosticSettings}
    (h : lenient.diagnosticSettings value = some diagnostics) :
    value.memberValue .timestamps = some diagnostics.timestamps ∧
      value.memberValue .frameSync = some diagnostics.frameSync := by
  obtain ⟨values, hvalues, h⟩ := Option.bind_eq_some_iff.mp h
  obtain ⟨timestamps, htimestamps, h⟩ := Option.bind_eq_some_iff.mp h
  obtain ⟨frameSync, hframeSync, h⟩ := Option.bind_eq_some_iff.mp h
  cases h
  exact ⟨(memberValue_of_members .timestamps hvalues).trans htimestamps,
    (memberValue_of_members .frameSync hvalues).trans hframeSync⟩

theorem memberValue_of_policy {value : Setting} {policy : ErrorPolicy}
    (h : lenient.policySetting value = some policy) : value.memberValue .policy = some policy := by
  obtain ⟨values, hvalues, h⟩ := Option.bind_eq_some_iff.mp h
  exact (memberValue_of_members .policy hvalues).trans h

theorem memberValue_of_output {value : Setting} {path : Option String}
    (h : lenient.outputSetting value = some path) : value.memberValue .outputPath = some path := by
  obtain ⟨values, hvalues, h⟩ := Option.bind_eq_some_iff.mp h
  exact (memberValue_of_members .outputPath hvalues).trans h

theorem memberValue_of_level {value : Setting} {level : String}
    (h : lenient.levelSetting value = some level) : value.memberValue .logLevel = some level := by
  obtain ⟨values, hvalues, h⟩ := Option.bind_eq_some_iff.mp h
  exact (memberValue_of_members .logLevel hvalues).trans h

/-- A setting of a section is what is given for it, or else its default; the default too where there is
no such section. -/
theorem read_of_section (key : SettingKey) {σ : Type} (part : σ → key.Value) {tree : Setting}
    {fallback found : σ} {convertSection : Setting → Option σ} {sections : List (String × Setting)}
    (hsections : Toml.find? sections key.sectionName = Toml.find? tree.entries key.sectionName)
    (hfound : Conversion.member sections key.sectionName fallback convertSection = some found)
    (hfallback : part fallback = ({} : Settings).value key)
    (hpart : ∀ {value : Setting} {found : σ}, convertSection value = some found →
      value.memberValue key = some (part found)) :
    read (tree.given? key) key = some (part found) := by
  rw [Conversion.member, hsections] at hfound
  rw [given?]
  cases hvalue : Toml.find? tree.entries key.sectionName with
  | none =>
    rw [hvalue] at hfound
    cases hfound
    exact congrArg some hfallback.symm
  | some value =>
    rw [hvalue] at hfound
    have hmember := hpart hfound
    rw [memberValue] at hmember
    rw [Option.bind_some]
    cases hgiven : member? key.names key.name value with
    | none =>
      rw [hgiven] at hmember
      exact hmember
    | some given =>
      rw [hgiven] at hmember
      cases hnothing : lenient.isNothing given with
      | true =>
        rw [Option.filter_some, hnothing]
        exact congrArg some (decode_of_isNothing hnothing hmember)
      | false =>
        rw [Option.filter_some, hnothing]
        exact (decode_eq_convert hnothing key).symm.trans hmember

/-- Settings that are decoded from a tree are told by what the tree gives for each of them. -/
theorem read_given?_of_settings {entries : List (String × Setting)} {settings : Settings}
    (h : lenient.settings (table entries) = some settings) (key : SettingKey) :
    read ((table entries).given? key) key = some (settings.value key) := by
  obtain ⟨source, hsource, h⟩ := Option.bind_eq_some_iff.mp h
  obtain ⟨diagnostics, hdiagnostics, h⟩ := Option.bind_eq_some_iff.mp h
  obtain ⟨policy, hpolicy, h⟩ := Option.bind_eq_some_iff.mp h
  obtain ⟨path, hpath, h⟩ := Option.bind_eq_some_iff.mp h
  obtain ⟨level, hlevel, h⟩ := Option.bind_eq_some_iff.mp h
  cases h
  have hsections {name : String}
      (hname : name ∈ ["source", "diagnostics", "errors", "output", "logging"]) :=
    Conversion.find?_named hname entries
  cases key with
  | host =>
    exact read_of_section .host SourceSettings.host (hsections (by decide)) hsource rfl
      fun h => (memberValue_of_source h).1
  | port =>
    exact read_of_section .port SourceSettings.port (hsections (by decide)) hsource rfl
      fun h => (memberValue_of_source h).2.1
  | maxMessageSize =>
    exact read_of_section .maxMessageSize SourceSettings.maxMessageSize (hsections (by decide))
      hsource rfl fun h => (memberValue_of_source h).2.2
  | timestamps =>
    exact read_of_section .timestamps DiagnosticSettings.timestamps (hsections (by decide))
      hdiagnostics rfl fun h => (memberValue_of_diagnostics h).1
  | frameSync =>
    exact read_of_section .frameSync DiagnosticSettings.frameSync (hsections (by decide))
      hdiagnostics rfl fun h => (memberValue_of_diagnostics h).2
  | policy =>
    exact read_of_section .policy id (hsections (by decide)) hpolicy rfl memberValue_of_policy
  | outputPath =>
    exact read_of_section .outputPath id (hsections (by decide)) hpath rfl memberValue_of_output
  | logLevel =>
    exact read_of_section .logLevel id (hsections (by decide)) hlevel rfl memberValue_of_level

end Setting

end EnsembleTransport
