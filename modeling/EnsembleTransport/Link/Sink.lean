import EnsembleTransport.Link.Fault
import EnsembleTransport.Octets

/-!
# Sinks of frames

A sink takes frames in order and is flushed when a run ends. `MemorySink` keeps everything,
`FailingSink` refuses some operations, and `WriterSink` drives a device that may take its octets
in pieces and may fill up: what a full device took of a batch stays on it.
-/

namespace EnsembleTransport

/-- Something frames are appended to. A refused operation may change it too. -/
class FrameSink (κ : Type) where
  append : κ → Octets → Except LinkFault Unit × κ
  flush : κ → Except LinkFault Unit × κ

namespace LinkFault

def writeFailed (cause : String) : LinkFault := io "frame write failed" cause

def flushFailed (cause : String) : LinkFault := io "frame flush failed" cause

end LinkFault

structure MemorySink where
  data : Octets := []
  appends : Nat := 0
  flushes : Nat := 0
deriving DecidableEq, Repr

namespace MemorySink

def append (sink : MemorySink) (batch : Octets) : MemorySink :=
  { sink with data := sink.data ++ batch, appends := sink.appends + 1 }

def flush (sink : MemorySink) : MemorySink := { sink with flushes := sink.flushes + 1 }

instance : FrameSink MemorySink where
  append sink batch := (.ok (), sink.append batch)
  flush sink := (.ok (), sink.flush)

end MemorySink

/-- A memory sink that takes so many batches, and may refuse to be flushed. -/
structure FailingSink where
  memory : MemorySink := {}
  appendLimit : Option Nat := none
  flushFails : Bool := false
deriving DecidableEq, Repr

namespace FailingSink

def isFull (sink : FailingSink) : Bool := sink.appendLimit.any (· ≤ sink.memory.appends)

instance : FrameSink FailingSink where
  append sink batch :=
    if sink.isFull then (.error (.writeFailed "append refused"), sink)
    else (.ok (), { sink with memory := sink.memory.append batch })
  flush sink :=
    if sink.flushFails then (.error (.flushFailed "flush refused"), sink)
    else (.ok (), { sink with memory := sink.memory.flush })

end FailingSink

structure Device where
  content : Octets := []
  /-- How many octets the device takes at once when it holds so many; at zero it is full. -/
  capacity : Nat → Nat
  flushFails : Bool := false

namespace Device

/-- A device that takes at most `chunk` octets at once and `limit` in all. -/
def limited (chunk limit : Option Nat) (flushFails : Bool) : Device where
  capacity held :=
    let room := match limit with
      | some limit => limit - held
      | none => held + 1
    match chunk with
    | some chunk => min chunk room
    | none => room
  flushFails

/-- How many of `size` octets go in, one piece after the other. -/
def fit (capacity : Nat → Nat) (held size : Nat) : Nat :=
  let piece := min (capacity held) size
  if piece = 0 then 0 else piece + fit capacity (held + piece) (size - piece)
termination_by size
decreasing_by omega

def write (device : Device) (batch : Octets) : Nat × Device :=
  let count := fit device.capacity device.content.length batch.length
  (count, { device with content := device.content ++ batch.take count })

theorem fit_le (capacity : Nat → Nat) (held size : Nat) : fit capacity held size ≤ size := by
  fun_induction fit capacity held size with
  | case1 => omega
  | case2 held size piece _ ih =>
    have : piece ≤ size := Nat.min_le_right _ _
    omega

end Device

structure WriterSink where
  device : Device
  /-- Octets of the batches that went in whole. -/
  bytesWritten : Nat := 0

namespace WriterSink

def append (sink : WriterSink) (batch : Octets) : Except LinkFault Unit × WriterSink :=
  let (count, device) := sink.device.write batch
  if count = batch.length then
    (.ok (), { device, bytesWritten := sink.bytesWritten + batch.length })
  else (.error (.writeFailed "device full"), { sink with device })

def flush (sink : WriterSink) : Except LinkFault Unit × WriterSink :=
  if sink.device.flushFails then (.error (.flushFailed "device refuses to flush"), sink)
  else (.ok (), sink)

instance : FrameSink WriterSink where
  append := append
  flush := flush

end WriterSink

namespace FileName

/-- Octets that a name in a directory may have. -/
def maxLength : Nat := 255

def isDirectoryName (name : String) : Bool := name == "" || name == "." || name == ".."

def canCreate (path : String) : Bool :=
  match (path.splitOn "/").reverse with
  | [] => false
  | name :: parents =>
    !isDirectoryName name && name.utf8ByteSize ≤ maxLength && !name.contains '\x00' &&
      parents.all isDirectoryName

end FileName

namespace WriterSink

/-- A sink over the file of a name in a directory; an old file of that name is emptied. -/
def create (directory name : String) : Except LinkFault WriterSink :=
  if FileName.canCreate name then .ok { device := .limited none none false }
  else .error (.io s!"cannot create {directory}/{name}" "no such file or directory")

end WriterSink

end EnsembleTransport
