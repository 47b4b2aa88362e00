import EnsembleTransport.Binary64

/-!
# Throughput reports

A meter counts frames and their payload octets from the first frame on. The first frame that
arrives in a later whole second than every report so far brings a report, which covers the frames
before it.
-/

namespace EnsembleTransport

structure ThroughputReport where
  /-- Nanoseconds since the first frame. -/
  elapsed : Nat
  totalBytes : Nat
  totalFrames : Nat
deriving DecidableEq, Repr

namespace ThroughputReport

def elapsedMilliseconds (report : ThroughputReport) : Nat :=
  report.elapsed / 1000000 % UInt64.size

/-- Whole seconds and the rest, each as a number of its own. -/
def elapsedSeconds (report : ThroughputReport) : Binary64 :=
  .sum (.ofNat (report.elapsed / 1000000000))
    (.quotient (.ofNat (report.elapsed % 1000000000)) (.ofNat 1000000000))

def milliseconds (report : ThroughputReport) : Binary64 :=
  .product report.elapsedSeconds (.ofNat 1000)

def bytesPerSecond (report : ThroughputReport) : Binary64 :=
  if report.milliseconds.isPositive then
    .product (.quotient (.ofNat report.totalBytes) report.milliseconds) (.ofNat 1000)
  else .ofNat 0

def millisecondsPerFrame (report : ThroughputReport) : Binary64 :=
  if report.totalFrames = 0 then .ofNat 0
  else .quotient report.milliseconds (.ofNat report.totalFrames)

def text (report : ThroughputReport) : String :=
  s!"Received {report.totalBytes} bytes, {report.totalFrames} frames in "
    ++ s!"{report.elapsedMilliseconds} ms: {report.bytesPerSecond.fixed 1} bytes/s, "
    ++ s!"{report.millisecondsPerFrame.fixed 3} ms/frame"

end ThroughputReport

structure ThroughputMeter where
  /-- Instant of the first frame, in nanoseconds. -/
  start : Option Int := none
  /-- Whole seconds at the last report. -/
  reportedSeconds : Nat := 0
  totalBytes : Nat := 0
  totalFrames : Nat := 0
deriving DecidableEq, Repr

namespace ThroughputMeter

def snapshot (meter : ThroughputMeter) (elapsed : Nat) : ThroughputReport :=
  ⟨elapsed, meter.totalBytes, meter.totalFrames⟩

/-- Counts one frame after the report, if there is one, has been taken. -/
def record (meter : ThroughputMeter) (now : Int) (payloadLength : Nat) :
    Option ThroughputReport × ThroughputMeter :=
  let start := meter.start.getD now
  let elapsed := (now - start).toNat
  let seconds := elapsed / 1000000000
  let due := meter.reportedSeconds < seconds
  (if due then some (meter.snapshot elapsed) else none,
    { start := some start
      reportedSeconds := if due then seconds else meter.reportedSeconds
      totalBytes := meter.totalBytes + payloadLength
      totalFrames := meter.totalFrames + 1 })

/-- The counters after the frames so far, once there is one. -/
def summary (meter : ThroughputMeter) (now : Int) : Option ThroughputReport :=
  meter.start.map fun start => meter.snapshot (now - start).toNat

end ThroughputMeter

end EnsembleTransport
