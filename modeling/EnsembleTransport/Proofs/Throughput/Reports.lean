import EnsembleTransport.Throughput
import Mathlib.Data.List.Basic
import Mathlib.Data.List.MinMax

/-!
# Reports of a meter

A meter is asked to record frames and to sum up, in any order and with clocks that may go back. What
it answers is told from the frames recorded before: a frame brings a report when its whole seconds
since the first frame are more than those of every frame before it.
-/

namespace EnsembleTransport

namespace ThroughputReport

def wholeSeconds (report : ThroughputReport) : Nat := report.elapsed / 1000000000

end ThroughputReport

namespace ThroughputMeter

structure Arrival where
  /-- Nanoseconds on the clock. -/
  instant : Int
  payloadLength : Nat
deriving DecidableEq, Repr

/-- Nanoseconds since the first of some frames; none while there is no frame, or with a clock that
has gone back behind it. -/
def sinceFirst (frames : List Arrival) (instant : Int) : Nat :=
  (instant - (frames.head?.map Arrival.instant).getD instant).toNat

def secondsSinceFirst (frames : List Arrival) (instant : Int) : Nat :=
  sinceFirst frames instant / 1000000000

def tally (frames : List Arrival) (instant : Int) : ThroughputReport :=
  ⟨sinceFirst frames instant, (frames.map Arrival.payloadLength).sum, frames.length⟩

/-- The report that a frame brings behind some others. It does not cover the frame itself. -/
def reportDue (earlier : List Arrival) (frame : Arrival) : Option ThroughputReport :=
  if 0 < secondsSinceFirst earlier frame.instant ∧
      ∀ other ∈ earlier,
        secondsSinceFirst earlier other.instant < secondsSinceFirst earlier frame.instant then
    some (tally earlier frame.instant)
  else none

/-- A meter that has recorded these frames. -/
structure Counts (meter : ThroughputMeter) (frames : List Arrival) : Prop where
  start_eq : meter.start = frames.head?.map Arrival.instant
  reported_lt_iff (seconds : Nat) : meter.reportedSeconds < seconds ↔
    0 < seconds ∧ ∀ frame ∈ frames, secondsSinceFirst frames frame.instant < seconds
  totalBytes_eq : meter.totalBytes = (frames.map Arrival.payloadLength).sum
  totalFrames_eq : meter.totalFrames = frames.length

theorem sinceFirst_concat {frames : List Arrival} {new frame : Arrival}
    (h : frame ∈ frames ++ [new]) :
    sinceFirst (frames ++ [new]) frame.instant = sinceFirst frames frame.instant := by
  cases frames with
  | nil =>
    rw [List.nil_append, List.mem_singleton] at h
    rw [h]
    rfl
  | cons first frames => rfl

variable {meter : ThroughputMeter} {frames : List Arrival}

theorem counts_new : Counts {} [] where
  start_eq := rfl
  reported_lt_iff seconds := by simp
  totalBytes_eq := rfl
  totalFrames_eq := rfl

theorem Counts.elapsed_eq (h : Counts meter frames) (instant : Int) :
    (instant - meter.start.getD instant).toNat = sinceFirst frames instant := by
  rw [sinceFirst, h.start_eq]

theorem Counts.snapshot_eq (h : Counts meter frames) (instant : Int) :
    meter.snapshot (sinceFirst frames instant) = tally frames instant := by
  rw [snapshot, tally, h.totalBytes_eq, h.totalFrames_eq]

theorem Counts.fst_record (h : Counts meter frames) (frame : Arrival) :
    (meter.record frame.instant frame.payloadLength).1 = reportDue frames frame := by
  simp only [record, reportDue, h.elapsed_eq, h.snapshot_eq]
  exact if_congr (h.reported_lt_iff _) rfl rfl

/-- The last second reported is the latest whole second so far. -/
theorem Counts.reportedSeconds_record (h : Counts meter frames) (frame : Arrival) :
    (meter.record frame.instant frame.payloadLength).2.reportedSeconds =
      max meter.reportedSeconds (secondsSinceFirst frames frame.instant) := by
  simp only [record, h.elapsed_eq, secondsSinceFirst]
  split
  · omega
  · omega

theorem Counts.snd_record (h : Counts meter frames) (frame : Arrival) :
    Counts (meter.record frame.instant frame.payloadLength).2 (frames ++ [frame]) := by
  have hseconds (other : Arrival) (hother : other ∈ frames ++ [frame]) :
      secondsSinceFirst (frames ++ [frame]) other.instant =
        secondsSinceFirst frames other.instant := by
    rw [secondsSinceFirst, sinceFirst_concat hother, secondsSinceFirst]
  refine ⟨?_, fun seconds => ?_, ?_, ?_⟩
  · rw [record, h.start_eq]
    cases frames with
    | nil => rfl
    | cons first frames => rfl
  · have hall : (∀ other ∈ frames ++ [frame],
          secondsSinceFirst (frames ++ [frame]) other.instant < seconds) ↔
        (∀ other ∈ frames, secondsSinceFirst frames other.instant < seconds) ∧
          secondsSinceFirst frames frame.instant < seconds := by
      rw [forall₂_congr fun other hother => by rw [hseconds other hother]]
      simp only [List.forall_mem_append, List.forall_mem_singleton]
    rw [h.reportedSeconds_record, max_lt_iff, h.reported_lt_iff, hall, and_assoc]
  · rw [record, h.totalBytes_eq, List.map_append, List.sum_append]
    simp
  · rw [record, h.totalFrames_eq, List.length_append]
    rfl

inductive Call where
  | record (frame : Arrival)
  | summary (instant : Int)
deriving DecidableEq, Repr

def Call.frame? : Call → Option Arrival
  | record frame => some frame
  | summary _ => none

def framesOf (calls : List Call) : List Arrival := calls.filterMap Call.frame?

def perform (meter : ThroughputMeter) : Call → Option ThroughputReport × ThroughputMeter
  | .record frame => meter.record frame.instant frame.payloadLength
  | .summary instant => (meter.summary instant, meter)

def performAll (meter : ThroughputMeter) :
    List Call → List (Option ThroughputReport) × ThroughputMeter
  | [] => ([], meter)
  | call :: calls =>
    let next := (meter.perform call).2
    ((meter.perform call).1 :: (next.performAll calls).1, (next.performAll calls).2)

theorem snd_performAll_cons (meter : ThroughputMeter) (call : Call) (calls : List Call) :
    (meter.performAll (call :: calls)).2 = ((meter.perform call).2.performAll calls).2 := rfl

/-- The answer to a call behind others that recorded these frames. -/
def answerTo (earlier : List Arrival) : Call → Option ThroughputReport
  | .record frame => reportDue earlier frame
  | .summary instant => if earlier = [] then none else some (tally earlier instant)

theorem Counts.perform (h : Counts meter frames) (call : Call) :
    (meter.perform call).1 = answerTo frames call ∧
      Counts (meter.perform call).2 (frames ++ framesOf [call]) := by
  cases call with
  | record frame => exact ⟨h.fst_record frame, h.snd_record frame⟩
  | summary instant =>
    have hframes : frames ++ framesOf [.summary instant] = frames := List.append_nil frames
    rw [hframes]
    refine ⟨?_, h⟩
    have hsnapshot := h.snapshot_eq instant
    cases frames with
    | nil => simp [ThroughputMeter.perform, summary, answerTo, h.start_eq]
    | cons first frames =>
      rw [ThroughputMeter.perform, summary, h.start_eq]
      exact congrArg some hsnapshot

theorem Counts.performAll (h : Counts meter frames) (calls : List Call) :
    (meter.performAll calls).1 =
        calls.mapIdx (fun k call => answerTo (frames ++ framesOf (calls.take k)) call) ∧
      Counts (meter.performAll calls).2 (frames ++ framesOf calls) := by
  induction calls generalizing meter frames with
  | nil => exact ⟨rfl, by simpa [framesOf, ThroughputMeter.performAll] using h⟩
  | cons call calls ih =>
    obtain ⟨hanswer, hnext⟩ := h.perform call
    obtain ⟨hanswers, hlast⟩ := ih hnext
    have hframes (more : List Call) :
        frames ++ framesOf [call] ++ framesOf more = frames ++ framesOf (call :: more) := by
      rw [List.append_assoc, framesOf, framesOf, framesOf, ← List.filterMap_append]
      rfl
    simp only [hframes] at hanswers hlast
    refine ⟨?_, hlast⟩
    rw [List.mapIdx_cons, ThroughputMeter.performAll, hanswer, hanswers]
    simp [framesOf]

/-- A frame either brings no report, or one of a later second than all reports before. -/
theorem record_cases (meter : ThroughputMeter) (frame : Arrival) :
    (meter.perform (.record frame)).1 = none ∧
        (meter.perform (.record frame)).2.reportedSeconds = meter.reportedSeconds ∨
      ∃ report, (meter.perform (.record frame)).1 = some report ∧
        meter.reportedSeconds < report.wholeSeconds ∧
        (meter.perform (.record frame)).2.reportedSeconds = report.wholeSeconds := by
  simp only [perform, record]
  split
  · rename_i hdue
    exact .inr ⟨_, rfl, hdue, rfl⟩
  · exact .inl ⟨rfl, rfl⟩

def reports (meter : ThroughputMeter) (calls : List Call) : List ThroughputReport :=
  (calls.zip (meter.performAll calls).1).filterMap fun (call, answer) =>
    call.frame?.bind fun _ => answer

theorem reports_record (meter : ThroughputMeter) (frame : Arrival) (calls : List Call) :
    meter.reports (.record frame :: calls) =
      (meter.perform (.record frame)).1.toList ++
        (meter.perform (.record frame)).2.reports calls := by
  rw [reports, performAll, List.zip_cons_cons, List.filterMap_cons]
  cases (meter.perform (.record frame)).1 <;> rfl

theorem reports_summary (meter : ThroughputMeter) (instant : Int) (calls : List Call) :
    meter.reports (.summary instant :: calls) = meter.reports calls := rfl

/-- Reports come in later and later seconds, so there are no more of them than seconds. -/
theorem reports_increase (meter : ThroughputMeter) (calls : List Call) :
    ((meter.reports calls).map ThroughputReport.wholeSeconds).Pairwise (· < ·) ∧
      (∀ report ∈ meter.reports calls, meter.reportedSeconds < report.wholeSeconds) ∧
      meter.reportedSeconds + (meter.reports calls).length ≤
        (meter.performAll calls).2.reportedSeconds := by
  induction calls generalizing meter with
  | nil => exact ⟨List.Pairwise.nil, fun _ h => (List.not_mem_nil h).elim, le_rfl⟩
  | cons call calls ih =>
    cases call with
    | summary instant =>
      rw [reports_summary]
      exact ih meter
    | record frame =>
      obtain ⟨hpairwise, hlater, hcount⟩ := ih (meter.perform (.record frame)).2
      rw [reports_record, snd_performAll_cons]
      rcases meter.record_cases frame with ⟨hnone, hsame⟩ | ⟨report, hsome, hlt, hnext⟩
      · rw [hsame] at hlater hcount
        rw [hnone]
        exact ⟨hpairwise, hlater, hcount⟩
      · rw [hnext] at hlater hcount
        rw [hsome, Option.toList_some, List.singleton_append]
        refine ⟨?_, ?_, ?_⟩
        · rw [List.map_cons, List.pairwise_cons]
          exact ⟨List.forall_mem_map.mpr hlater, hpairwise⟩
        · rintro other (_ | ⟨_, hother⟩)
          · exact hlt
          · exact hlt.trans (hlater other hother)
        · rw [List.length_cons]
          omega

/-- Nanoseconds from the first of some frames to the latest. -/
def longest (frames : List Arrival) : Nat :=
  (frames.map fun frame => sinceFirst frames frame.instant).foldr max 0

theorem Counts.reportedSeconds_le (h : Counts meter frames) :
    meter.reportedSeconds ≤ longest frames / 1000000000 := by
  have hlongest (frame : Arrival) (hframe : frame ∈ frames) :
      sinceFirst frames frame.instant ≤ longest frames :=
    List.le_max_of_le' 0 (List.mem_map_of_mem hframe) le_rfl
  rw [← Nat.lt_succ_iff, h.reported_lt_iff]
  refine ⟨Nat.succ_pos _, fun frame hframe => Nat.lt_succ_of_le ?_⟩
  exact Nat.div_le_div_right (hlongest frame hframe)

theorem reportDue_nil (frame : Arrival) : reportDue [] frame = none := by
  simp [reportDue, secondsSinceFirst, sinceFirst]

theorem snd_performAll_framesOf (meter : ThroughputMeter) (calls : List Call) :
    (meter.performAll ((framesOf calls).map .record)).2 = (meter.performAll calls).2 := by
  induction calls generalizing meter with
  | nil => rfl
  | cons call calls ih =>
    cases call with
    | record frame => exact ih _
    | summary instant => exact ih meter

/-- A new meter answers every call from the frames recorded before it. The first frame brings no
report, summaries leave no trace, and the frames' reports come in later and later seconds, so there
are no more of them than whole seconds between the first frame and the latest. -/
theorem answers_from_frames (calls : List Call) :
    (performAll {} calls).1 =
        calls.mapIdx (fun k call => answerTo (framesOf (calls.take k)) call) ∧
      (∀ frame, reportDue [] frame = none) ∧
      (performAll {} ((framesOf calls).map .record)).2 = (performAll {} calls).2 ∧
      ((reports {} calls).map ThroughputReport.wholeSeconds).Pairwise (· < ·) ∧
      (reports {} calls).length ≤ longest (framesOf calls) / 1000000000 := by
  obtain ⟨hanswers, hcounts⟩ := counts_new.performAll calls
  obtain ⟨hpairwise, -, hlength⟩ := reports_increase {} calls
  refine ⟨hanswers, reportDue_nil, snd_performAll_framesOf {} calls, hpairwise, ?_⟩
  calc (reports {} calls).length
      ≤ (performAll {} calls).2.reportedSeconds := (Nat.le_add_left _ _).trans hlength
    _ ≤ longest (framesOf calls) / 1000000000 := hcounts.reportedSeconds_le

/-- A gap of five seconds, a clock that goes back, and a second that is not reported again. -/
example :
    (performAll {} [.record ⟨0, 10⟩, .record ⟨5200000000, 10⟩, .record ⟨-1, 7⟩, .summary (-5),
      .record ⟨5900000000, 1⟩, .record ⟨6000000000, 1⟩]).1 =
    [none, some ⟨5200000000, 10, 1⟩, none, some ⟨0, 27, 3⟩, none, some ⟨6000000000, 28, 4⟩] := by
  decide

end ThroughputMeter

end EnsembleTransport
