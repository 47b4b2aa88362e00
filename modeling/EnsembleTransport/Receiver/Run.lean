import EnsembleTransport.Diagnosis
import EnsembleTransport.ErrorPolicy
import EnsembleTransport.Link.Sink
import EnsembleTransport.Link.Source
import EnsembleTransport.Receiver.Counters
import EnsembleTransport.Throughput

/-!
# Runs of a receiver

A receiver takes one message after the other from its source, looks at it and appends its frames
to its sink, so that frames leave in the order their messages arrived. A run ends when the source
closes, when a shutdown is asked for, or at a fault. The sink is flushed at an orderly end only.
-/

namespace EnsembleTransport

structure Receiver (κ : Type) where
  source : MessageSource
  sink : κ
  processor : Processor
  policy : ErrorPolicy
  meter : ThroughputMeter := {}
  counters : Counters := {}

/-- The clock's reading at each count of received messages. -/
abbrev Clock := Nat → Instant

namespace Receiver

variable {κ : Type} [FrameSink κ]

def fresh {κ : Type} (source : MessageSource) (sink : κ) (options : DiagnosticOptions)
    (policy : ErrorPolicy) : Receiver κ :=
  { source, sink, processor := { options }, policy }

def started {κ : Type} (r : Receiver κ) : Event :=
  ⟨.info, .receiver, "Receiver started",
    [("policy", .word r.policy.name),
      ("timestamps", .word (toString r.processor.options.timestamps)),
      ("frame_sync", .word (toString r.processor.options.frameSync))]⟩

def reportEvent (report : ThroughputReport) : Event :=
  ⟨.info, .receiver, report.text,
    [("bytes", .number report.totalBytes), ("frames", .number report.totalFrames),
      ("elapsed_ms", .number report.elapsedMilliseconds)]⟩

def measure (meter : ThroughputMeter) (now : Instant) : List Nat → Logged ThroughputMeter
  | [] => ⟨meter, []⟩
  | length :: lengths =>
    let (report, meter) := meter.record now.nanoseconds length
    let others := measure meter now lengths
    ⟨others.value, (report.map reportEvent).toList ++ others.events⟩

def reject {κ : Type} (r : Receiver κ) (fault : MessageFault) :
    Logged (Except RunFailure Unit) × Receiver κ :=
  let index := r.counters.messagesReceived
  match r.policy with
  | .skip =>
    (⟨.ok (), [⟨.warn, .receiver, s!"Dropping malformed message: {fault.message}",
        [("message", .number index)]⟩]⟩,
      { r with counters.messagesDropped := r.counters.messagesDropped + 1 })
  | .abort =>
    (⟨.error (.message index fault), [⟨.error, .receiver, s!"Malformed message: {fault.message}",
        [("message", .number index)]⟩]⟩, r)

def write (r : Receiver κ) (now : Instant) (frames : FrameSet) :
    Logged (Except RunFailure Unit) × Receiver κ :=
  let metered := measure r.meter now (frames.frameList.mapIdx fun index _ =>
    frames.payloadLength index)
  let (result, sink) := FrameSink.append r.sink frames.bytes
  let r := { r with meter := metered.value, sink }
  match result with
  | .error fault => (⟨.error (.link fault), metered.events⟩, r)
  | .ok () =>
    (⟨.ok (), metered.events⟩,
      { r with
        counters.framesWritten := r.counters.framesWritten + frames.frameCount
        counters.messagesWritten := r.counters.messagesWritten + 1 })

/-- Counts what the diagnosis found; a strict policy ends the run at a diagnostic fault. -/
def consider {κ : Type} (r : Receiver κ) (diagnosis : Diagnosis) :
    Logged (Except RunFailure Unit) × Receiver κ :=
  let index := r.counters.messagesReceived
  let r := { r with
    counters.syncErrors := r.counters.syncErrors + diagnosis.syncErrors
    counters.diagnosticErrors := r.counters.diagnosticErrors + diagnosis.faults.length }
  match diagnosis.faults.head?, r.policy with
  | some fault, .abort =>
    (⟨.error (.message index fault), [⟨.error, .receiver,
        s!"Aborting on diagnostic error: {fault.message}", [("message", .number index)]⟩]⟩, r)
  | _, _ => (⟨.ok (), []⟩, r)

/-- Goes on with a message that has been looked at. -/
def pursue (r : Receiver κ) (now : Instant) (diagnosis : Diagnosis) :
    Logged (Except RunFailure Unit) × Receiver κ :=
  let (considered, r) := r.consider diagnosis
  match considered.value with
  | .error failure => (⟨.error failure, considered.events⟩, r)
  | .ok () =>
    let (written, r) := r.write now diagnosis.frames
    (⟨written.value, considered.events ++ written.events⟩, r)

def accept (r : Receiver κ) (clock : Clock) (message : Octets) :
    Logged (Except RunFailure Unit) × Receiver κ :=
  let r := { r with counters.messagesReceived := r.counters.messagesReceived + 1 }
  let now := clock r.counters.messagesReceived
  let (processed, processor) := r.processor.process now message
  let r := { r with processor }
  match processed.value with
  | .error fault =>
    let (rejected, r) := r.reject fault
    (⟨rejected.value, processed.events ++ rejected.events⟩, r)
  | .ok diagnosis =>
    let (pursued, r) := r.pursue now diagnosis
    (⟨pursued.value, processed.events ++ pursued.events⟩, r)

def summary {κ : Type} (r : Receiver κ) (stopReason : StopReason) : RunSummary :=
  ⟨r.counters, r.meter.totalBytes, stopReason⟩

def stopEvent : StopReason → Event
  | .sourceClosed => ⟨.info, .receiver, "Source closed", []⟩
  | .shutdown => ⟨.info, .receiver, "Shutdown requested", []⟩

def finish (r : Receiver κ) (clock : Clock) (stopReason : StopReason) :
    Logged (Except RunFailure RunSummary) × Receiver κ :=
  let (result, sink) := FrameSink.flush r.sink
  let r := { r with sink }
  match result with
  | .error fault => (⟨.error (.link fault), [stopEvent stopReason]⟩, r)
  | .ok () =>
    let report := r.meter.summary (clock r.counters.messagesReceived).nanoseconds
    (⟨.ok (r.summary stopReason), stopEvent stopReason :: (report.map reportEvent).toList⟩, r)

/-- What one arrival does: nothing to stop for, an orderly stop, or a failure. -/
def handle (r : Receiver κ) (clock : Clock) :
    Arrival → Logged (Except RunFailure (Option StopReason)) × Receiver κ
  | .ok message =>
    let (accepted, r) := r.accept clock message
    (⟨accepted.value.map fun _ => none, accepted.events⟩, r)
  | .error fault =>
    if fault.isRetryable then
      (⟨.ok none, []⟩, { r with counters.interruptions := r.counters.interruptions + 1 })
    else if fault.isClosed then (⟨.ok (some .sourceClosed), []⟩, r)
    else (⟨.error (.link fault),
      [⟨.error, .receiver, s!"Receive failed: {fault.message}", []⟩]⟩, r)

def take (r : Receiver κ) (clock : Clock) (arrival : Arrival) (pending : List Arrival) :
    Logged (Except RunFailure (Option StopReason)) × Receiver κ :=
  let (delivered, source) := r.source.deliver arrival pending
  let (handled, r) := { r with source }.handle clock delivered.value
  (⟨handled.value, delivered.events ++ handled.events⟩, r)

/-- Takes the pending arrivals in order, at most as many as there are looks at the shutdown signal
before it is raised. -/
def drain (clock : Clock) (r : Receiver κ) :
    (shutdownAfter : Option Nat) → (pending : List Arrival) →
      Logged (Except RunFailure RunSummary) × Receiver κ
  | some 0, _ => r.finish clock .shutdown
  | _, [] => r.finish clock .sourceClosed
  | shutdownAfter, arrival :: pending =>
    let (taken, r) := r.take clock arrival pending
    match taken.value with
    | .error failure => (⟨.error failure, taken.events⟩, r)
    | .ok (some stopReason) =>
      let (finished, r) := r.finish clock stopReason
      (⟨finished.value, taken.events ++ finished.events⟩, r)
    | .ok none =>
      let (drained, r) := drain clock r (shutdownAfter.map (· - 1)) pending
      (⟨drained.value, taken.events ++ drained.events⟩, r)

/-- Runs until the source closes, a fault comes up, or a shutdown is asked for after so many
receives. -/
def runUntil (r : Receiver κ) (clock : Clock) (shutdownAfter : Option Nat) :
    Logged (Except RunFailure RunSummary) × Receiver κ :=
  let (drained, last) := drain clock r shutdownAfter r.source.pending
  (⟨drained.value, r.started :: drained.events⟩, last)

def run (r : Receiver κ) (clock : Clock) : Logged (Except RunFailure RunSummary) × Receiver κ :=
  r.runUntil clock none

end Receiver

end EnsembleTransport
