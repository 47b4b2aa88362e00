import EnsembleTransport.Digits
import EnsembleTransport.FrameSync
import EnsembleTransport.FrameTiming
import EnsembleTransport.Reassembly

/-!
# Diagnosis of a message

A message that can be taken apart gives four frames and one diagnosis for each. Two checks can be
switched on: the synchronisation word of every frame that carries data, and the timing of every
frame. A frame gets a timing while the records of all frames up to it can be read; the first
unreadable group ends the timing, an unreadable timestamp does not.
-/

namespace EnsembleTransport

/-- The checks made on every message. -/
structure DiagnosticOptions where
  timestamps : Bool := false
  frameSync : Bool := false
deriving DecidableEq, Repr

/-- What the timing records and the timestamp say about one frame. -/
structure FrameClocking where
  metadata : Option FrameMetadata := none
  timestamp : Option Timestamp := none
  timing : Option FrameTiming := none
deriving DecidableEq, Repr

structure FrameDiagnosis where
  clocking : FrameClocking := {}
  sync : Option FrameSync := none
deriving DecidableEq, Repr

namespace SyncCheck

/-- The synchronisation of a frame; a frame without payload is passed over. -/
def inspect (frames : FrameSet) (index : Nat) (frame : Octets) :
    Option (Except MessageFault FrameSync) :=
  if frames.payloadLength index = 0 then none else some (FrameSync.ofFrame frame)

def isError : Except MessageFault FrameSync → Bool
  | .ok sync => !sync.synchronised
  | .error _ => true

def event? (index : Nat) : Except MessageFault FrameSync → Option Event
  | .ok sync =>
    if sync.synchronised then none
    else some ⟨.warn, .processor, "Frame is not synchronised",
      [("frame", .number index), ("fsync", .word sync.word.text)]⟩
  | .error fault =>
    some ⟨.warn, .processor, s!"Cannot read frame sync: {fault.message}",
      [("frame", .number index)]⟩

/-- What the check finds frame by frame, or nothing at all where it is switched off. -/
def findings (enabled : Bool) (frames : FrameSet) : List (Option (Except MessageFault FrameSync)) :=
  frames.frameList.mapIdx fun index frame =>
    if enabled then inspect frames index frame else none

def errorCount (findings : List (Option (Except MessageFault FrameSync))) : Nat :=
  findings.countP (·.any isError)

def events (findings : List (Option (Except MessageFault FrameSync))) : List Event :=
  (findings.mapIdx fun index finding => finding.bind (event? index)).filterMap id

end SyncCheck

/-- The clockings of some frames, with the faults and events met on the way. -/
structure ClockingReport where
  entries : List FrameClocking := []
  faults : List MessageFault := []
  events : List Event := []
deriving DecidableEq, Repr

namespace Clocking

def timingEvent (metadata : FrameMetadata) (timestamp : Timestamp) (timing : FrameTiming) : Event :=
  ⟨.info, .processor,
    s!"Metadata: DLFC={Digits.blankFilled 5 metadata.dlfc.toNat} "
      ++ s!"UTCO={Digits.blankFilled 3 metadata.utcOffset.toInt} "
      ++ s!"EDI_TIME={Digits.blankFilled 10 metadata.ediTime.toNat}, "
      ++ s!"TIST {timestamp.ppsOffset.fixed 3} ms, Delta={timing.deltaMilliseconds} ms",
    [("dlfc", .number metadata.dlfc.toNat), ("utco", .number metadata.utcOffset.toInt),
      ("edi_time", .number metadata.ediTime.toNat), ("tist_ms", .real timestamp.ppsOffset),
      ("t_frame", .word timing.frameTime.text), ("delta_ms", .number timing.deltaMilliseconds)]⟩

def timestampFailed (index : Nat) (metadata : FrameMetadata) (fault : MessageFault) : Event :=
  ⟨.warn, .processor, s!"TIST decoding failed: {fault.message}",
    [("frame", .number index), ("dlfc", .number metadata.dlfc.toNat)]⟩

def metadataFailed (index : Nat) (fault : MessageFault) : Event :=
  ⟨.warn, .processor, s!"Metadata decoding failed: {fault.message}", [("frame", .number index)]⟩

def ofMetadata (now : Instant) (index : Nat) (frame : Octets) (metadata : FrameMetadata) :
    ClockingReport :=
  let events := Timestamp.events frame metadata.dlfc
  match Timestamp.ofFrame frame metadata.dlfc with
  | .ok timestamp =>
    let timing := FrameTiming.align metadata timestamp.ppsOffset now
    { entries := [⟨some metadata, some timestamp, timing⟩]
      events := events ++ (timing.map (timingEvent metadata timestamp)).toList }
  | .error fault =>
    { entries := [⟨some metadata, none, none⟩]
      faults := [fault]
      events := events ++ [timestampFailed index metadata fault] }

/-- Reads one group for each frame, the first of which has number `index`. -/
def report (now : Instant) : GroupReader → (index : Nat) → List Octets → ClockingReport
  | _, _, [] => {}
  | reader, index, frame :: frames =>
    let (read, reader) := reader.next
    match read.value with
    | .error fault =>
      { entries := List.replicate (frames.length + 1) {}
        faults := [fault]
        events := read.events ++ [metadataFailed index fault] }
    | .ok metadata =>
      let first := ofMetadata now index frame metadata
      let others := report now reader (index + 1) frames
      { entries := first.entries ++ others.entries
        faults := first.faults ++ others.faults
        events := read.events ++ first.events ++ others.events }

def ofFrames (enabled : Bool) (now : Instant) (block : Octets) (frames : List Octets) :
    ClockingReport :=
  if enabled then report now { block } 0 frames
  else { entries := List.replicate frames.length {} }

end Clocking

/-- A message that has been taken apart and looked at. -/
structure Diagnosis where
  frames : FrameSet
  entries : List FrameDiagnosis
  /-- Unreadable records and timestamps, in frame order. -/
  faults : List MessageFault
  /-- Frames with data and without a valid synchronisation word. -/
  syncErrors : Nat
deriving DecidableEq, Repr

namespace Diagnosis

def ofFrames (options : DiagnosticOptions) (now : Instant) (frames : FrameSet) (block : Octets) :
    Logged Diagnosis :=
  let findings := SyncCheck.findings options.frameSync frames
  let clockings := Clocking.ofFrames options.timestamps now block frames.frameList
  let sync := findings.map fun finding => finding.bind Except.toOption
  ⟨{ frames
     entries := clockings.entries.zipWith (fun clocking sync => ⟨clocking, sync⟩) sync
     faults := clockings.faults
     syncErrors := SyncCheck.errorCount findings },
    SyncCheck.events findings ++ clockings.events⟩

end Diagnosis

structure Processor where
  options : DiagnosticOptions := {}
  reassembler : Reassembler := {}
deriving DecidableEq, Repr

namespace Processor

def process (p : Processor) (now : Instant) (message : Octets) :
    Logged (Except MessageFault Diagnosis) × Processor :=
  let (result, reassembler) := p.reassembler.reassemble message
  let p := { p with reassembler }
  match result with
  | .error fault => (⟨.error fault, []⟩, p)
  | .ok parts =>
    let looked := Diagnosis.ofFrames p.options now reassembler.frames parts.metadata
    (⟨.ok looked.value, looked.events⟩, p)

end Processor

end EnsembleTransport
