import EnsembleTransport.Diagnosis
import EnsembleTransport.ErrorPolicy
import EnsembleTransport.Link.Source
import EnsembleTransport.Settings.Blank

/-!
# Settings of a receiver

Every setting has a default. Overrides come last: a value that is given wins, and a flag can only
be switched on. Settings are valid when they name a publisher and leave room for an envelope.
-/

namespace EnsembleTransport

structure SourceSettings where
  host : String := "localhost"
  /-- Zero means that no port has been set. -/
  port : Nat := 0
  /-- Longer messages are cut. -/
  maxMessageSize : Nat := Layout.defaultMaxMessageSize
deriving DecidableEq, Repr

structure DiagnosticSettings where
  timestamps : Bool := false
  /-- Follows `timestamps` when it is not set. -/
  frameSync : Option Bool := none
deriving DecidableEq, Repr

namespace DiagnosticSettings

def frameSyncEnabled (settings : DiagnosticSettings) : Bool :=
  settings.frameSync.getD settings.timestamps

def options (settings : DiagnosticSettings) : DiagnosticOptions :=
  ⟨settings.timestamps, settings.frameSyncEnabled⟩

end DiagnosticSettings

structure Settings where
  source : SourceSettings := {}
  diagnostics : DiagnosticSettings := {}
  policy : ErrorPolicy := .skip
  /-- Where frames go; to standard output when it is not set. -/
  outputPath : Option String := none
  logLevel : String := "info"
deriving DecidableEq, Repr

/-- What the command line sets. -/
structure Overrides where
  host : Option String := none
  port : Option Nat := none
  timestamps : Bool := false
  outputPath : Option String := none
  strict : Bool := false
  logLevel : Option String := none
deriving DecidableEq, Repr

inductive SettingsFault where
  | blankHost
  | portNotSet
  | messageSizeTooSmall
deriving DecidableEq, Repr

namespace SettingsFault

def message : SettingsFault → String
  | blankHost => "source.host must not be empty"
  | portNotSet => "source.port must be set to a non-zero port"
  | messageSizeTooSmall =>
    s!"source.max_message_size must be >= {Layout.headerSize} (envelope header size)"

end SettingsFault

namespace Settings

def apply (settings : Settings) (overrides : Overrides) : Settings where
  source := { settings.source with
    host := overrides.host.getD settings.source.host
    port := overrides.port.getD settings.source.port }
  diagnostics := { settings.diagnostics with
    timestamps := overrides.timestamps || settings.diagnostics.timestamps }
  policy := if overrides.strict then .abort else settings.policy
  outputPath := overrides.outputPath.or settings.outputPath
  logLevel := overrides.logLevel.getD settings.logLevel

def validate (settings : Settings) : Except SettingsFault Unit :=
  if isBlankText settings.source.host then .error .blankHost
  else if settings.source.port = 0 then .error .portNotSet
  else if settings.source.maxMessageSize < Layout.headerSize then .error .messageSizeTooSmall
  else .ok ()

def endpoint (settings : Settings) : String :=
  Subscription.endpointOf settings.source.host settings.source.port

def subscription (settings : Settings) : Subscription :=
  ⟨settings.endpoint, settings.source.maxMessageSize⟩

theorem apply_none (settings : Settings) : settings.apply {} = settings := rfl

end Settings

end EnsembleTransport
