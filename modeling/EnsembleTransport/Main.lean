import EnsembleTransport.CommandLine.Session
import Std.Time.Format

/-!
# The command

The outer layer of a session: it reads the surroundings, hands them to the session and writes out
what the session says. The publisher's messages come over standard input, each behind its length in
four octets, most significant first. Frames go out as soon as their message has been handled, and
the log goes to standard error.
-/

namespace EnsembleTransport.CommandLine

def environmentEntries : IO (List (String × String)) := do
  let text ← try IO.FS.readFile "/proc/self/environ" catch _ => pure ""
  return (text.splitOn "\x00").filterMap fun entry =>
    match entry.splitOn "=" with
    | name :: value :: more => some (name, "=".intercalate (value :: more))
    | _ => none

def fileText? (path : String) : IO (Option String) :=
  try some <$> IO.FS.readFile path catch _ => pure none

def wallClock : IO Instant := do
  return ⟨(← Std.Time.Timestamp.now).toNanosecondsSinceUnixEpoch.toInt⟩

def writeLog (filter : List LogFilter.Directive) (events : List Event) : IO Unit :=
  for event in events do
    if LogFilter.passes filter event then IO.eprintln event.line

def reportFailure (failure : Failure) : IO Unit := do
  IO.eprintln ("Error: " ++ failure.text)
  unless failure.causes.isEmpty do
    IO.eprintln "\nCaused by:"
    for (cause, index) in failure.causes.zipIdx do
      IO.eprintln s!"    {index}: {cause}"

/-- Writes out a session that ended before it connected. -/
def writeOutcome (outcome : Outcome) : IO UInt32 := do
  (← IO.getStdout).write ⟨outcome.standardOutput.toArray⟩
  for event in outcome.log do
    IO.eprintln event.line
  if let some notice := outcome.notice then IO.eprint notice
  if let some failure := outcome.failure then reportFailure failure
  return UInt32.ofNat outcome.exitCode

/-- As many octets as asked for, or all that are left. -/
partial def readUpTo (input : IO.FS.Stream) (count : Nat) (got : ByteArray) : IO ByteArray := do
  if count ≤ got.size then return got
  let more ← input.read (USize.ofNat (count - got.size))
  if more.isEmpty then return got
  readUpTo input count (got ++ more)

def readMessage (input : IO.FS.Stream) : IO (Option Octets) := do
  let size ← readUpTo input 4 .empty
  if size.size < 4 then return none
  let message ← readUpTo input (Octets.big size.toList) .empty
  return some message.toList

/-- Hands message after message to the receiver and writes out what it appends. -/
partial def receiveAll (filter : List LogFilter.Directive) (input output : IO.FS.Stream)
    (receiver : Receiver MemorySink) : IO UInt32 := do
  let message ← readMessage input
  let now ← wallClock
  let clock : Clock := fun _ => now
  match message with
  | none =>
    let (finished, _) := receiver.finish clock .sourceClosed
    output.flush
    writeLog filter finished.events
    match finished.value with
    | .ok summary =>
      writeLog filter [farewell summary]
      return 0
    | .error failure =>
      reportFailure (receiverFailed failure)
      return 1
  | some message =>
    let (taken, receiver) := receiver.take clock (.ok message) []
    output.write ⟨receiver.sink.data.toArray⟩
    writeLog filter taken.events
    match taken.value with
    | .ok _ => receiveAll filter input output { receiver with sink := {} }
    | .error failure =>
      reportFailure (receiverFailed failure)
      return 1

/-- Standard output, or the file of the settings, emptied. -/
def openOutput? (path : Option String) : IO (Except Failure IO.FS.Stream) := do
  match path with
  | none => return .ok (← IO.getStdout)
  | some path =>
    try return .ok (.ofHandle (← IO.FS.Handle.mk path .write))
    catch error => return .error ⟨"Failed to open output file", [toString error]⟩

def perform (plan : Plan) : IO UInt32 := do
  let settings := plan.settings
  let connection := settings.subscription.connect true
  writeLog plan.filter (greeting settings ++ connection.events)
  match connection.value with
  | .error fault =>
    reportFailure ⟨"Failed to connect to publisher", [fault.message]⟩
    return 1
  | .ok () =>
    if let some path := settings.outputPath then writeLog plan.filter [writingTo path]
    match ← openOutput? settings.outputPath with
    | .error failure =>
      reportFailure failure
      return 1
    | .ok output =>
      let source : MessageSource := { subscription := some settings.subscription }
      let receiver := Receiver.fresh source ({} : MemorySink) settings.diagnostics.options
        settings.policy
      writeLog plan.filter [receiver.started]
      receiveAll plan.filter (← IO.getStdin) output receiver

/-- Runs a session over the standard streams. -/
def performAll (arguments : List String) : IO UInt32 := do
  let environment ← environmentEntries
  let texts ← match read arguments with
    | .ok { configPath := some path, .. } => do pure [(path, ← fileText? path)]
    | _ => pure []
  let settingsText (path : String) : Option String :=
    (texts.find? (·.1 == path)).bind Prod.snd
  match prepare { environment, settingsText } arguments with
  | .error outcome => writeOutcome outcome
  | .ok plan => perform plan

end EnsembleTransport.CommandLine

def main (arguments : List String) : IO UInt32 :=
  EnsembleTransport.CommandLine.performAll arguments
