import EnsembleTransport.CommandLine.Arguments
import EnsembleTransport.Link.Endpoint
import EnsembleTransport.LogFilter
import EnsembleTransport.Receiver.Run
import EnsembleTransport.Settings.Load

/-!
# A session of the command

A session reads its arguments, loads the settings, sets up the log, connects to the publisher and
runs a receiver until the source closes or an interrupt comes. What it leaves is an exit code, the
frames it put out, its log, and the error it ended with.
-/

namespace EnsembleTransport.CommandLine

structure Surroundings where
  environment : List (String × String) := []
  /-- The contents of files of settings, by path. -/
  settingsText : String → Option String := fun _ => none
  /-- Opens an output file. -/
  openOutput : String → Except LinkFault WriterSink := fun path =>
    .error (.io s!"cannot create {path}" "no such file or directory")
  /-- Standard output. -/
  standardOutput : WriterSink := { device := .limited none none false }
  /-- What the publisher sends; nothing when it is out of reach. -/
  publisher : Option (List (List Octets)) := none
  /-- After how many messages an interrupt comes. -/
  interruptAfter : Option Nat := none
  clock : Clock := fun _ => ⟨0⟩

/-- An error with the errors behind it. -/
structure Failure where
  text : String
  causes : List String := []
deriving DecidableEq, Repr

structure Outcome where
  exitCode : Nat
  standardOutput : Octets := []
  outputFile : Option Octets := none
  log : List Event := []
  failure : Option Failure := none
  /-- What the command says about itself or about its arguments. -/
  notice : Option String := none

def programName : String := "zmq-eti-receiver"

def programVersion : String := "0.1.0"

def versionText : String := programName ++ " " ++ programVersion

def helpText : String :=
  "\n".intercalate [
    "Connects to a DAB multiplexer's ETI output at tcp://host:port using a ZeroMQ SUB socket and "
      ++ "outputs raw ETI",
    "",
    "Usage: zmq-eti-receiver [OPTIONS] [HOST] [PORT]",
    "",
    "Arguments:",
    "  [HOST]  Publisher host",
    "  [PORT]  Publisher port",
    "",
    "Options:",
    "  -t, --timestamps             Enable TIST decoding and time delta calculation",
    "  -c, --config <CONFIG>        Path to a TOML configuration file",
    "  -o, --output <OUTPUT>        Write ETI to this file instead of stdout",
    "      --strict                 Stop on the first malformed message",
    "  -l, --log-level <LOG_LEVEL>  Log level (trace, debug, info, warn, error); RUST_LOG takes "
      ++ "precedence",
    "  -h, --help                   Print help",
    "  -V, --version                Print version"]

def usageText : Stop → String
  | .help => helpText
  | .version => versionText
  | .unknownArgument text => s!"error: unexpected argument '{text}' found"
  | .missingValue slot => s!"error: a value is required for '{slot.name}' but none was supplied"
  | .invalidValue slot text => s!"error: invalid value '{text}' for '{slot.name}'"
  | .unexpectedValue option text =>
    s!"error: unexpected value '{text}' for '{option}' found; no more were expected"
  | .repeated text => s!"error: the argument '{text}' cannot be used multiple times"

/-- The session that ends with its arguments. -/
def stopped (stop : Stop) : Outcome :=
  let text := usageText stop ++ "\n"
  match stop with
  | .help | .version => { exitCode := 0, standardOutput := text.toUTF8.toList }
  | _ => { exitCode := 2, notice := some text }

def failed (failure : Failure) (log : List Event) : Outcome :=
  { exitCode := 1, log, failure := some failure }

/-- The variable whose filter goes before the one of the settings. -/
def filterVariable : String := "RUST_LOG"

/-- The filter of the environment, if it has a good one, and otherwise that of the settings. -/
def logFilter? (environment : List (String × String)) (level : String) :
    Option (List LogFilter.Directive) :=
  (((environment.find? (·.1 == filterVariable)).map Prod.snd).bind LogFilter.parse?).orElse
    fun _ => LogFilter.parse? level

def event (level : Level) (text : String) (fields : List (String × FieldValue)) : Event :=
  ⟨level, .commandLine, text, fields⟩

def greeting (settings : Settings) : List Event := [
  event .info s!"ZMQ ETI receiver version {programVersion}" [],
  event .info
    s!"Connecting to {settings.endpoint}, show tist={settings.diagnostics.timestamps}" []]

def writingTo (path : String) : Event := event .info s!"Writing ETI to {path}" []

def farewell (summary : RunSummary) : Event :=
  event .info summary.text [("stop_reason", .word summary.stopReason.text)]

def receiverFailed (failure : RunFailure) : Failure :=
  ⟨"Receiver stopped", [failure.text, failure.cause]⟩

/-- Runs a receiver over a sink and adds what it comes to. -/
def receive (around : Surroundings) (settings : Settings) (source : MessageSource)
    (sink : WriterSink) (log : List Event) : Outcome × WriterSink :=
  let receiver := Receiver.fresh source sink settings.diagnostics.options settings.policy
  let (ran, last) := receiver.runUntil around.clock around.interruptAfter
  match ran.value with
  | .ok summary => ({ exitCode := 0, log := log ++ ran.events ++ [farewell summary] }, last.sink)
  | .error failure => (failed (receiverFailed failure) (log ++ ran.events), last.sink)

/-- Connects to the publisher, opens the output and receives. -/
def connected (around : Surroundings) (settings : Settings) : Outcome :=
  let subscription := settings.subscription
  let connection := subscription.connect around.publisher.isSome
  let log := greeting settings ++ connection.events
  match connection.value with
  | .error fault => failed ⟨"Failed to connect to publisher", [fault.message]⟩ log
  | .ok () =>
    let source := MessageSource.ofParts subscription (around.publisher.getD [])
    match settings.outputPath with
    | none =>
      let (outcome, sink) := receive around settings source around.standardOutput log
      { outcome with standardOutput := sink.device.content }
    | some path =>
      let log := log ++ [writingTo path]
      match around.openOutput path with
      | .error fault => failed ⟨"Failed to open output file", [fault.message]⟩ log
      | .ok sink =>
        let (outcome, sink) := receive around settings source sink log
        { outcome with outputFile := some sink.device.content }

/-- What a session does once its arguments and settings are in order. -/
structure Plan where
  settings : Settings
  filter : List LogFilter.Directive

def loadSettings (around : Surroundings) (arguments : Arguments) : Except LoadFault Settings := do
  let file := arguments.configPath.map fun path => ⟨path, around.settingsText path⟩
  let settings ← Settings.load file Environment.stem around.environment
  return settings.apply arguments.overrides

/-- Looks at valid settings and a good filter, in the order in which their faults count. -/
def plan (around : Surroundings) (settings : Settings) : Except Outcome Plan :=
  match logFilter? around.environment settings.logLevel with
  | none => .error (failed ⟨s!"Invalid log level '{settings.logLevel}'", []⟩ [])
  | some filter =>
    match settings.validate with
    | .ok () => .ok ⟨settings, filter⟩
    | .error fault =>
      let log := [event .error s!"Invalid configuration: {fault.message}" []]
      .error (failed ⟨fault.message, []⟩ (log.filter (LogFilter.passes filter)))

/-- Reads arguments and settings; gives what is left to do, or the outcome it already has. -/
def prepare (around : Surroundings) (arguments : List String) : Except Outcome Plan :=
  match read arguments with
  | .error stop => .error (stopped stop)
  | .ok arguments =>
    match loadSettings around arguments with
    | .error fault => .error (failed ⟨fault.message, []⟩ [])
    | .ok settings => plan around settings

/-- Runs a session; only events that pass the filter are in its log. -/
def run (around : Surroundings) (arguments : List String) : Outcome :=
  match prepare around arguments with
  | .error outcome => outcome
  | .ok plan =>
    let outcome := connected around plan.settings
    { outcome with log := outcome.log.filter (LogFilter.passes plan.filter) }

end EnsembleTransport.CommandLine
