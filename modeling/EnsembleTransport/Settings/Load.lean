import EnsembleTransport.Settings.Tree
import EnsembleTransport.Toml.Document

/-!
# Loading settings

Settings come from three layers: defaults, a file, and the variables of the environment. A variable
counts when its name starts with the stem of the receiver; what follows names a section and a
setting, parted by two underscores. `fromFile` reads a file alone, with values of the right type.
-/

namespace EnsembleTransport

inductive LoadFault where
  | unreadable (path : String)
  | unparsable (path : String)
  | notBuilt
  | notDecoded
deriving DecidableEq, Repr

namespace LoadFault

def message : LoadFault → String
  | unreadable path => s!"Failed to read config file {path}"
  | unparsable path => s!"Failed to parse config file {path}"
  | notBuilt => "Failed to build configuration"
  | notDecoded => "Failed to deserialize configuration"

end LoadFault

namespace Environment

def stem : String := "ETI_RX"

def separator : String := "__"

/-- Writes a point wherever the mark stands in a text. -/
def pointed (mark : List Char) : List Char → List Char
  | [] => []
  | c :: text =>
    if mark.isPrefixOf (c :: text) then '.' :: pointed mark (text.drop (mark.length - 1))
    else c :: pointed mark text
termination_by text => text.length

/-- What follows the stem in the name of a variable, in the notation of paths. -/
def settingName? (stem name : String) : Option String :=
  let start := (lowered stem ++ "_").toList
  let name := (lowered name).toList
  if start.isPrefixOf name then
    some (String.ofList (pointed separator.toList (name.drop start.length)))
  else none

def valueOf (text : String) : Setting :=
  if lowered text = "true" then .boolean true
  else if lowered text = "false" then .boolean false
  else match Setting.parseInteger? text with
    | some n => .integer n
    | none => match Binary64.parse? text with
      | some x => .float x
      | none => .string text

def layer (stem : String) (environment : List (String × String)) : List (String × Setting) :=
  environment.filterMap fun (name, text) =>
    (settingName? stem name).map fun name => (name, valueOf text)

end Environment

structure SettingsFile where
  name : String
  contents : Option String
deriving DecidableEq, Repr

namespace SettingsFile

/-- What follows the last point of a name that does not start with it. -/
def extension? (name : String) : Option String :=
  let backwards := name.toList.reverse.takeWhile (· != '/')
  match backwards.dropWhile (· != '.') with
  | _ :: _ :: _ => some (String.ofList (backwards.takeWhile (· != '.')).reverse)
  | _ => none

/-- The settings of the file, which has to be one of TOML by its name. -/
def layer? (file : SettingsFile) : Option (List (String × Setting)) := do
  let text ← file.contents
  if extension? file.name = some "toml" then
    let document ← Toml.parse? text
    return Setting.ofTomlEntries document.entries
  else none

end SettingsFile

namespace Settings

def load (file : Option SettingsFile) (stem : String) (environment : List (String × String)) :
    Except LoadFault Settings :=
  match (file.map SettingsFile.layer?).getD (some []) with
  | none => .error .notBuilt
  | some fromFile =>
    let tree := ((Setting.table []).overlay fromFile).overlay (Environment.layer stem environment)
    match Setting.lenient.settings tree with
    | some settings => .ok settings
    | none => .error .notDecoded

/-- Reads one file, whatever its name, and takes values of the right type only. -/
def fromFile (path : String) (contents : Option String) : Except LoadFault Settings :=
  match contents with
  | none => .error (.unreadable path)
  | some text =>
    match (Toml.parse? text).bind fun document => Toml.strict.settings document.toValue with
    | some settings => .ok settings
    | none => .error (.unparsable path)

end Settings

end EnsembleTransport
