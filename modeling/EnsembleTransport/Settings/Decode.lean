import EnsembleTransport.Settings.Basic
import EnsembleTransport.Toml.Value

/-!
# Settings from values

Settings are read from a table of sections. A section that is missing, and a member that is
missing in its section, keeps its default; a member without a meaning is passed over. How a single
value is converted is left open: `strict` takes TOML values of the right type only.
-/

namespace EnsembleTransport

/-- How values of a type become settings. -/
structure Conversion (α : Type) where
  /-- The values of the named members; a list gives them by position. -/
  members : List String → α → Option (List (String × α))
  isNothing : α → Bool
  text : α → Option String
  flag : α → Option Bool
  count : α → Option Nat
  policy : α → Option ErrorPolicy

namespace Conversion

variable {α : Type}

/-- A member, if it is there, and the default otherwise. -/
def member {β : Type} (values : List (String × α)) (name : String) (fallback : β)
    (convert : α → Option β) : Option β :=
  match Toml.find? values name with
  | some value => convert value
  | none => some fallback

def maybe {β : Type} (c : Conversion α) (convert : α → Option β) (value : α) : Option (Option β) :=
  if c.isNothing value then some none else (convert value).map some

def port (c : Conversion α) (value : α) : Option Nat := do
  let n ← c.count value
  if n < 65536 then some n else none

def sourceSettings (c : Conversion α) (value : α) : Option SourceSettings := do
  let values ← c.members ["host", "port", "max_message_size"] value
  let host ← member values "host" ({} : SourceSettings).host c.text
  let port ← member values "port" ({} : SourceSettings).port c.port
  let maxMessageSize ←
    member values "max_message_size" ({} : SourceSettings).maxMessageSize c.count
  return { host, port, maxMessageSize }

def diagnosticSettings (c : Conversion α) (value : α) : Option DiagnosticSettings := do
  let values ← c.members ["timestamps", "frame_sync"] value
  let timestamps ← member values "timestamps" ({} : DiagnosticSettings).timestamps c.flag
  let frameSync ←
    member values "frame_sync" ({} : DiagnosticSettings).frameSync (c.maybe c.flag)
  return { timestamps, frameSync }

def policySetting (c : Conversion α) (value : α) : Option ErrorPolicy := do
  let values ← c.members ["policy"] value
  member values "policy" ({} : Settings).policy c.policy

def outputSetting (c : Conversion α) (value : α) : Option (Option String) := do
  let values ← c.members ["path"] value
  member values "path" ({} : Settings).outputPath (c.maybe c.text)

def levelSetting (c : Conversion α) (value : α) : Option String := do
  let values ← c.members ["level"] value
  member values "level" ({} : Settings).logLevel c.text

def settings (c : Conversion α) (value : α) : Option Settings := do
  let values ← c.members ["source", "diagnostics", "errors", "output", "logging"] value
  let source ← member values "source" ({} : Settings).source c.sourceSettings
  let diagnostics ← member values "diagnostics" ({} : Settings).diagnostics c.diagnosticSettings
  let policy ← member values "errors" ({} : Settings).policy c.policySetting
  let outputPath ← member values "output" ({} : Settings).outputPath c.outputSetting
  let logLevel ← member values "logging" ({} : Settings).logLevel c.levelSetting
  return { source, diagnostics, policy, outputPath, logLevel }

def named (names : List String) (entries : List (String × α)) : List (String × α) :=
  entries.filter fun entry => names.contains entry.1

end Conversion

namespace Toml

/-- Whether a value stands for the absence of anything, in the place of a policy's payload. -/
def isVoid : Value → Bool
  | .array items | .tables items => items.isEmpty
  | .table _ entries => entries.isEmpty
  | .string _ | .integer _ | .float _ | .boolean _ | .moment _ => false

/-- A policy named by a text, or by the one key of a table. -/
def policy? : Value → Option ErrorPolicy
  | .string name => ErrorPolicy.ofName? name
  | .table origin ((name, value) :: others) =>
    if (origin.isInline ∧ !others.isEmpty) ∨ !isVoid value then none else ErrorPolicy.ofName? name
  | _ => none

/-- Takes values of the right type only. -/
def strict : Conversion Value where
  members names
    | .table _ entries => some (Conversion.named names entries)
    | .array items | .tables items => some (names.zip items)
    | .moment _ => some []
    | .string _ | .integer _ | .float _ | .boolean _ => none
  isNothing _ := false
  text
    | .string text => some text
    | _ => none
  flag
    | .boolean b => some b
    | _ => none
  count
    | .integer n => if 0 ≤ n then some n.toNat else none
    | _ => none
  policy := policy?

end Toml

end EnsembleTransport
