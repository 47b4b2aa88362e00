import EnsembleTransport.Proofs.Binary64.Rounding
import EnsembleTransport.Proofs.Frame.Layout
import EnsembleTransport.Proofs.Frame.Timing

/-!
# Frame times within bounds

Every number on the way to a frame time has a range: seconds fit a word of 64 bits, a span fits such
a word in milliseconds, and an instant lies in the calendar. Taken step by step, each step refused
where its result is out of range, an alignment comes to what it comes to without the ranges, and with
a timestamp it is never refused. The frame time is exact to the microsecond.
-/

namespace EnsembleTransport

/-- The number itself, where a signed word of 64 bits holds it. -/
def word64? (n : ℤ) : Option ℤ :=
  if Int64.minValue.toInt ≤ n ∧ n ≤ Int64.maxValue.toInt then some n else none

theorem word64?_eq_some {n : ℤ} (hlow : Int64.minValue.toInt ≤ n)
    (hhigh : n ≤ Int64.maxValue.toInt) : word64? n = some n := if_pos ⟨hlow, hhigh⟩

def spanReach : ℤ := Int64.maxValue.toInt * 1000000

/-- A length of time, forward or backward. -/
structure Span where
  nanoseconds : ℤ
  inReach : -spanReach ≤ nanoseconds ∧ nanoseconds ≤ spanReach

namespace Span

def ofNanoseconds? (n : ℤ) : Option Span :=
  if h : -spanReach ≤ n ∧ n ≤ spanReach then some ⟨n, h⟩ else none

def ofSeconds? (seconds : ℤ) : Option Span := ofNanoseconds? (seconds * Instant.nanosPerSecond)

def ofMicroseconds? (microseconds : ℤ) : Option Span := ofNanoseconds? (microseconds * 1000)

theorem spanReach_eq : spanReach = 9223372036854775807000000 := rfl

theorem exists_ofNanoseconds? {n : ℤ} (h : -spanReach ≤ n ∧ n ≤ spanReach) :
    ∃ span, ofNanoseconds? n = some span ∧ span.nanoseconds = n := ⟨⟨n, h⟩, dif_pos h, rfl⟩

theorem exists_ofSeconds? {seconds : ℤ} (hlow : -9223372036854775 ≤ seconds)
    (hhigh : seconds ≤ 9223372036854775) :
    ∃ span, ofSeconds? seconds = some span ∧ span.nanoseconds = seconds * 1000000000 := by
  refine exists_ofNanoseconds? ?_
  rw [spanReach_eq, Instant.nanosPerSecond]
  omega

theorem exists_ofMicroseconds? {microseconds : ℤ} (hlow : Int64.minValue.toInt ≤ microseconds)
    (hhigh : microseconds ≤ Int64.maxValue.toInt) :
    ∃ span, ofMicroseconds? microseconds = some span ∧
      span.nanoseconds = microseconds * 1000 := by
  have hmin : Int64.minValue.toInt = -9223372036854775808 := rfl
  have hmax : Int64.maxValue.toInt = 9223372036854775807 := rfl
  refine exists_ofNanoseconds? ?_
  rw [spanReach_eq]
  omega

end Span

namespace Instant

def add? (t : Instant) (span : Span) : Option Instant :=
  let moved : Instant := ⟨t.nanoseconds + span.nanoseconds⟩
  if moved.inCalendar then some moved else none

def since? (t u : Instant) : Option Span := Span.ofNanoseconds? (t.nanoseconds - u.nanoseconds)

theorem add?_eq {t : Instant} {span : Span} {n : ℤ} (h : span.nanoseconds = n) :
    t.add? span =
      if (⟨t.nanoseconds + n⟩ : Instant).inCalendar then some ⟨t.nanoseconds + n⟩ else none := by
  rw [add?, h]

/-- No instant of the calendar is farther from another than a span reaches. -/
theorem exists_since? {t u : Instant} (ht : t.inCalendar = true) (hu : u.inCalendar = true) :
    ∃ span, t.since? u = some span ∧ span.nanoseconds = t.nanoseconds - u.nanoseconds := by
  rw [inCalendar_iff] at ht hu
  refine Span.exists_ofNanoseconds? ?_
  rw [Span.spanReach_eq]
  omega

end Instant

namespace FrameTiming

def alignStepwise (metadata : FrameMetadata) (ppsOffset : Binary64) (now : Instant) :
    Option FrameTiming := do
  let fraction ← Span.ofMicroseconds? (microseconds ppsOffset)
  let atomic ← word64? (ediEpochUnixSeconds + metadata.ediTime.toNat)
  let civil ← word64? (atomic - metadata.utcOffset.toInt)
  let whole ← Span.ofSeconds? civil
  let second ← (⟨0⟩ : Instant).add? whole
  let frameTime ← second.add? fraction
  let delta ← frameTime.since? now
  return ⟨frameTime, delta.nanoseconds⟩

theorem microseconds_bounds (ppsOffset : Binary64) :
    Int64.minValue.toInt ≤ microseconds ppsOffset ∧
      microseconds ppsOffset ≤ Int64.maxValue.toInt :=
  Binary64.roundWithin_bounds (by decide) (by decide) _

/-- Only the frame time itself can be out of range: no step before it is, and no instant of the
calendar is too far from another. -/
theorem alignStepwise_eq (metadata : FrameMetadata) (ppsOffset : Binary64) {now : Instant}
    (hnow : now.inCalendar = true) :
    alignStepwise metadata ppsOffset now = align metadata ppsOffset now := by
  obtain ⟨hlow, hhigh⟩ := unixSeconds_bounds metadata
  have hediTime := metadata.ediTime.toNat_lt
  have hmin : Int64.minValue.toInt = -9223372036854775808 := rfl
  have hmax : Int64.maxValue.toInt = 9223372036854775807 := rfl
  have hepoch : ediEpochUnixSeconds = 946684800 := rfl
  obtain ⟨fraction, hfraction, hfractionNanos⟩ := Span.exists_ofMicroseconds?
    (microseconds_bounds ppsOffset).1 (microseconds_bounds ppsOffset).2
  have hatomic : word64? (ediEpochUnixSeconds + metadata.ediTime.toNat) =
      some (ediEpochUnixSeconds + metadata.ediTime.toNat) :=
    word64?_eq_some (by omega) (by omega)
  have hcivil : word64? (ediEpochUnixSeconds + metadata.ediTime.toNat - metadata.utcOffset.toInt) =
      some (unixSeconds metadata) :=
    word64?_eq_some (n := unixSeconds metadata) (by omega) (by omega)
  obtain ⟨whole, hwhole, hwholeNanos⟩ : ∃ span, Span.ofSeconds? (unixSeconds metadata) = some span ∧
      span.nanoseconds = unixSeconds metadata * 1000000000 :=
    Span.exists_ofSeconds? (by omega) (by omega)
  have hsecond : (⟨0⟩ : Instant).add? whole = some ⟨0 + unixSeconds metadata * 1000000000⟩ := by
    rw [Instant.add?_eq hwholeNanos, if_pos]
    rw [Instant.inCalendar_iff]
    simp only
    omega
  have hframeTime : (⟨0 + unixSeconds metadata * 1000000000 + microseconds ppsOffset * 1000⟩ :
      Instant) = frameTimeOf metadata ppsOffset := by
    rw [frameTimeOf, Instant.mk.injEq]
    omega
  simp only [alignStepwise, hfraction, hatomic, hcivil, hwhole, hsecond, Option.bind_eq_bind,
    Option.bind_some, Instant.add?_eq hfractionNanos, hframeTime, align]
  split
  · rename_i hinCalendar
    obtain ⟨delta, hdelta, hdeltaNanos⟩ := Instant.exists_since? hinCalendar hnow
    simp only [Option.bind_some, hdelta, hdeltaNanos]
    rfl
  · rfl

theorem isAdvisory_iff (timestamp : Timestamp) :
    timestamp.isAdvisory = true ↔ 16384000 ≤ timestamp.ticks := by
  have hthousand : ((1000 : ℕ) : ℚ) * 16384 = (16384000 : ℕ) := by norm_num
  rw [Timestamp.isAdvisory, timestamp.denotes_ppsOffset.atLeast_iff, le_div_iff₀ (by norm_num),
    hthousand, Nat.cast_le]

/-- Whatever the timing attributes and the timestamp of a frame are, its time is exact to the
microsecond and no step on the way to it goes out of range. -/
theorem frameTime_exact (metadata : FrameMetadata) (timestamp : Timestamp) {now : Instant}
    (hnow : now.inCalendar = true) :
    ∃ timing : FrameTiming,
      align metadata timestamp.ppsOffset now = some timing ∧
      alignStepwise metadata timestamp.ppsOffset now = some timing ∧
      timing.frameTime.nanoseconds = 1000 * (1000000 *
        (946684800 + metadata.ediTime.toNat - metadata.utcOffset.toInt) +
          microseconds timestamp.ppsOffset) ∧
      RoundsAway (1000 * (timestamp.raw.toNat % 2 ^ 24 : ℕ) / 16384)
        (microseconds timestamp.ppsOffset) ∧
      0 ≤ microseconds timestamp.ppsOffset ∧ microseconds timestamp.ppsOffset ≤ 1024000 ∧
      timing.delta = timing.frameTime.nanoseconds - now.nanoseconds ∧
      TruncatesTo ((timing.delta : ℚ) / 1000000) timing.deltaMilliseconds ∧
      (timestamp.isAdvisory = true ↔ 16384000 ≤ timestamp.raw.toNat % 2 ^ 24) := by
  obtain ⟨hlow, hhigh⟩ := microseconds_ppsOffset_bounds timestamp
  have haligned := align_ppsOffset metadata timestamp now
  have hrounds : RoundsAway (1000 * (timestamp.raw.toNat % 2 ^ 24 : ℕ) / 16384)
      (microseconds timestamp.ppsOffset) := by
    rw [microseconds_ppsOffset]
    exact_mod_cast roundsAway_roundHalfUp (1000 * timestamp.ticks) (show 0 < 16384 by decide)
  refine ⟨_, haligned, ?_, ?_, hrounds, hlow, hhigh, rfl, ?_, isAdvisory_iff timestamp⟩
  · rw [alignStepwise_eq metadata timestamp.ppsOffset hnow, haligned]
  · rw [frameTimeOf, unixSeconds, ediEpochUnixSeconds]
    ring
  · exact truncatesTo_tdiv _ (show 0 < 1000000 by decide)

/-- Half a microsecond is rounded up, and the distance of a frame that is late is cut toward zero. -/
theorem frameTime_exact_of_late :
    (⟨1700000000123456789⟩ : Instant).inCalendar = true ∧
      (Timestamp.told 0 1 [] 0 0xABFFFC00 0).isAdvisory = true ∧
      ∃ timing : FrameTiming,
        align ⟨-5, 700000000, 0⟩ (Timestamp.told 0 1 [] 0 0xABFFFC00 0).ppsOffset
          ⟨1700000000123456789⟩ = some timing ∧
        timing.frameTime.nanoseconds = 1646684806023938000 ∧
        timing.deltaMilliseconds = -53315194099 := by
  have hnow : (⟨1700000000123456789⟩ : Instant).inCalendar = true := by decide
  obtain ⟨timing, haligned, -, htime, -, -, -, hdelta, -, hadvisory⟩ :=
    frameTime_exact ⟨-5, 700000000, 0⟩ (.told 0 1 [] 0 0xABFFFC00 0) hnow
  have hfraction : microseconds (Timestamp.told 0 1 [] 0 0xABFFFC00 0).ppsOffset = 1023938 := by
    rw [microseconds_ppsOffset]
    decide
  have hediTime : (700000000 : UInt32).toNat = 700000000 := rfl
  have hutcOffset : (-5 : Int16).toInt = -5 := rfl
  have hnanoseconds : timing.frameTime.nanoseconds = 1646684806023938000 := by
    rw [htime, hfraction, hediTime, hutcOffset]
    norm_num
  refine ⟨hnow, hadvisory.mpr (by decide), timing, haligned, hnanoseconds, ?_⟩
  rw [deltaMilliseconds, hdelta, hnanoseconds]
  rfl

end FrameTiming

end EnsembleTransport
