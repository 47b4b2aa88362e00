import EnsembleTransport.Calendar
import EnsembleTransport.Metadata.Group
import EnsembleTransport.Timestamp

/-!
# The absolute time of a frame

Timing attributes and timestamp together give the instant at which a frame is to be transmitted,
to the microsecond. Its distance from the clock is exact and positive while the frame lies ahead.
-/

namespace EnsembleTransport

structure FrameTiming where
  frameTime : Instant
  /-- Nanoseconds from the clock to the frame. -/
  delta : Int
deriving DecidableEq, Repr

namespace FrameTiming

/-- Start of the year 2000 in seconds from the start of 1970. -/
def ediEpochUnixSeconds : Int := 946684800

def unixSeconds (metadata : FrameMetadata) : Int :=
  ediEpochUnixSeconds + metadata.ediTime.toNat - metadata.utcOffset.toInt

/-- Microseconds of an offset in milliseconds, within 64 bits. -/
def microseconds (ppsOffset : Binary64) : Int :=
  (ppsOffset.product (.ofNat 1000)).roundWithin Int64.minValue.toInt Int64.maxValue.toInt

def frameTimeOf (metadata : FrameMetadata) (ppsOffset : Binary64) : Instant :=
  ⟨(unixSeconds metadata * 1000000 + microseconds ppsOffset) * 1000⟩

/-- The timing of a frame against a clock, unless the frame lies outside the calendar. -/
def align (metadata : FrameMetadata) (ppsOffset : Binary64) (now : Instant) : Option FrameTiming :=
  let frameTime := frameTimeOf metadata ppsOffset
  if frameTime.inCalendar then
    some ⟨frameTime, frameTime.nanoseconds - now.nanoseconds⟩
  else none

/-- Whole milliseconds of the distance, toward zero. -/
def deltaMilliseconds (timing : FrameTiming) : Int := timing.delta.tdiv 1000000

def deltaSeconds (timing : FrameTiming) : Int := timing.delta.tdiv Instant.nanosPerSecond

def deltaNanoseconds (timing : FrameTiming) : Int := timing.delta.tmod Instant.nanosPerSecond

end FrameTiming

end EnsembleTransport
