import EnsembleTransport.FrameTiming
import EnsembleTransport.Proofs.Binary64.Exact

/-!
# Exact frame times

The offset of a timestamp is a whole number of ticks, and neither its milliseconds nor its
microseconds are rounded before the last step. A frame time lies well inside the calendar, whatever
the timing attributes and the timestamp are.
-/

namespace EnsembleTransport

namespace Timestamp

theorem ticks_lt (timestamp : Timestamp) : timestamp.ticks < 2 ^ 24 :=
  Nat.mod_lt _ (by decide)

theorem denotes_ppsOffset (timestamp : Timestamp) :
    timestamp.ppsOffset.Denotes ((timestamp.ticks : ℚ) / 16384) := by
  have hticks := timestamp.ticks_lt
  have hnum : Binary64.Denotes (.ofNat timestamp.ticks) timestamp.ticks :=
    Binary64.denotes_ofNat (by omega)
  have hden : Binary64.Denotes (.ofNat ticksPerMillisecond) (16384 : ℚ) :=
    Binary64.denotes_ofNat (by decide)
  have hpower : (16384 : ℚ) = 2 ^ 14 := by norm_num
  refine hnum.quotient hden (by norm_num) ?_
  rw [hpower]
  exact .of_div (by omega) (by decide)

end Timestamp

namespace Instant

theorem inCalendar_iff (t : Instant) :
    t.inCalendar = true ↔
      -8334601228800000000000 ≤ t.nanoseconds ∧ t.nanoseconds < 8210266876800000000000 := by
  have hfirst : first.nanoseconds = -8334601228800000000000 := rfl
  have hlimit : limit.nanoseconds = 8210266876800000000000 := rfl
  rw [inCalendar, hfirst, hlimit, Bool.and_eq_true, decide_eq_true_eq, decide_eq_true_eq]

end Instant

namespace FrameTiming

theorem roundHalfUp_ticks_le (timestamp : Timestamp) :
    roundHalfUp (1000 * timestamp.ticks) 16384 ≤ 1024000 := by
  have hticks := timestamp.ticks_lt
  rw [roundHalfUp]
  split <;> omega

/-- The offset in whole microseconds, a tie upward. -/
theorem microseconds_ppsOffset (timestamp : Timestamp) :
    microseconds timestamp.ppsOffset = roundHalfUp (1000 * timestamp.ticks) 16384 := by
  have hticks := timestamp.ticks_lt
  have hthousand : Binary64.Denotes (.ofNat 1000) (1000 : ℚ) := Binary64.denotes_ofNat (by decide)
  have hvalue : (timestamp.ticks : ℚ) / 16384 * 1000 =
      ((1000 * timestamp.ticks : ℕ) : ℚ) / (16384 : ℕ) := by
    push_cast
    ring
  have hpower : ((16384 : ℕ) : ℚ) = 2 ^ 14 := by norm_num
  have hproduct : (timestamp.ppsOffset.product (.ofNat 1000)).Denotes
      (((1000 * timestamp.ticks : ℕ) : ℚ) / (16384 : ℕ)) := by
    rw [← hvalue]
    refine timestamp.denotes_ppsOffset.product hthousand ?_
    rw [hvalue, hpower]
    exact .of_div (by omega) (by decide)
  have hlow : Int64.minValue.toInt ≤ 0 := by decide
  have hhigh : 1024001 ≤ Int64.maxValue.toInt := by decide
  have hbound := roundHalfUp_ticks_le timestamp
  rw [microseconds, hproduct.roundWithin (by decide)]
  omega

theorem microseconds_ppsOffset_bounds (timestamp : Timestamp) :
    0 ≤ microseconds timestamp.ppsOffset ∧ microseconds timestamp.ppsOffset ≤ 1024000 := by
  have hbound := roundHalfUp_ticks_le timestamp
  rw [microseconds_ppsOffset]
  omega

/-- Whole seconds lie between the years 1970 and 2160. -/
theorem unixSeconds_bounds (metadata : FrameMetadata) :
    0 < unixSeconds metadata ∧ unixSeconds metadata < 6000000000 := by
  have hediTime := metadata.ediTime.toNat_lt
  have hutcLow := metadata.utcOffset.le_toInt
  have hutcHigh := metadata.utcOffset.toInt_lt
  rw [unixSeconds, ediEpochUnixSeconds]
  omega

theorem inCalendar_frameTimeOf (metadata : FrameMetadata) (timestamp : Timestamp) :
    (frameTimeOf metadata timestamp.ppsOffset).inCalendar = true := by
  obtain ⟨hlow, hhigh⟩ := microseconds_ppsOffset_bounds timestamp
  obtain ⟨hsecondsLow, hsecondsHigh⟩ := unixSeconds_bounds metadata
  rw [Instant.inCalendar_iff, frameTimeOf]
  simp only
  omega

theorem align_ppsOffset (metadata : FrameMetadata) (timestamp : Timestamp) (now : Instant) :
    align metadata timestamp.ppsOffset now =
      some ⟨frameTimeOf metadata timestamp.ppsOffset,
        (frameTimeOf metadata timestamp.ppsOffset).nanoseconds - now.nanoseconds⟩ := by
  simp only [align, inCalendar_frameTimeOf, if_true]

end FrameTiming

end EnsembleTransport
