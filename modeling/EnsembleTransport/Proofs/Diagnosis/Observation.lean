import EnsembleTransport.Proofs.Diagnosis.Truncation

/-!
# What a diagnosis depends on

Neither check has a part in whether a message is accepted or in its frames. Each check depends on the
message and on its own switch alone, and the time of day shows in the distance to the frames and
nowhere else.
-/

namespace EnsembleTransport

open Layout

/-- The timing told by a clock that is ahead by so many nanoseconds. -/
def FrameTiming.ahead (nanoseconds : Int) (timing : FrameTiming) : FrameTiming :=
  { timing with delta := timing.delta - nanoseconds }

theorem FrameTiming.align_ahead (metadata : FrameMetadata) (ppsOffset : Binary64)
    (now later : Instant) : align metadata ppsOffset later =
      (align metadata ppsOffset now).map (ahead (later.nanoseconds - now.nanoseconds)) := by
  unfold align
  dsimp only
  split
  · simp only [ahead, Option.map_some, Option.some.injEq, mk.injEq, true_and]
    omega
  · rfl

def FrameClocking.ahead (nanoseconds : Int) (clocking : FrameClocking) : FrameClocking :=
  { clocking with timing := clocking.timing.map (FrameTiming.ahead nanoseconds) }

theorem Clocking.ofGroup?_ahead (now later : Instant) (frame : Octets)
    (group : Option FrameMetadata) : ofGroup? later frame group =
      (ofGroup? now frame group).ahead (later.nanoseconds - now.nanoseconds) := by
  cases group with
  | none => rfl
  | some metadata =>
    simp only [ofGroup?, Option.map_some, Option.getD_some, ofGroup, FrameClocking.ahead,
      FrameTiming.align_ahead metadata _ now later]
    cases (Timestamp.ofFrame frame metadata.dlfc).toOption <;> rfl

namespace Diagnosis

/-- How two diagnoses of one message stand to each other that are made at two times, each with
options of its own. -/
structure AgreesWith (one other : Diagnosis) (options others : DiagnosticOptions)
    (now later : Instant) : Prop where
  frames_eq : one.frames = other.frames
  sync_eq : options.frameSync = others.frameSync →
    one.entries.map (·.sync) = other.entries.map (·.sync)
  syncErrors_eq : options.frameSync = others.frameSync → one.syncErrors = other.syncErrors
  metadata_eq : options.timestamps = others.timestamps →
    one.entries.map (·.clocking.metadata) = other.entries.map (·.clocking.metadata)
  timestamp_eq : options.timestamps = others.timestamps →
    one.entries.map (·.clocking.timestamp) = other.entries.map (·.clocking.timestamp)
  faults_eq : options.timestamps = others.timestamps → one.faults = other.faults
  frameTime_eq : options.timestamps = others.timestamps →
    one.entries.map (·.clocking.timing.map FrameTiming.frameTime) =
      other.entries.map (·.clocking.timing.map FrameTiming.frameTime)
  delta_eq : options.timestamps = others.timestamps →
    other.entries.map (·.clocking.timing.map FrameTiming.delta) =
      one.entries.map (·.clocking.timing.map fun timing =>
        timing.delta - (later.nanoseconds - now.nanoseconds))

variable (options others : DiagnosticOptions) (now later : Instant) (frames : FrameSet)
  (block : Octets)

theorem clockings_ahead (h : options.timestamps = others.timestamps) :
    (ofFrames others later frames block).value.entries.map (·.clocking) =
      (ofFrames options now frames block).value.entries.map fun entry =>
        entry.clocking.ahead (later.nanoseconds - now.nanoseconds) := by
  have hone := clockings_ofFrames options now frames block
  have hmap := congrArg
    (List.map (FrameClocking.ahead (later.nanoseconds - now.nanoseconds))) hone
  rw [List.map_map] at hmap
  rw [clockings_ofFrames, ← h]
  refine Eq.trans ?_ hmap.symm
  simp only [List.mapIdx_eq_zipIdx_map, List.map_map, Clocking.ofGroup?_ahead now later]
  rfl

theorem agreesWith_ofFrames : (ofFrames options now frames block).value.AgreesWith
    (ofFrames others later frames block).value options others now later := by
  have hpart {α : Type} (part : FrameClocking → α) (h : options.timestamps = others.timestamps) :
      (ofFrames others later frames block).value.entries.map (fun entry => part entry.clocking) =
        (ofFrames options now frames block).value.entries.map fun entry =>
          part (entry.clocking.ahead (later.nanoseconds - now.nanoseconds)) := by
    have hmap := congrArg (List.map part) (clockings_ahead options others now later frames block h)
    rwa [List.map_map, List.map_map] at hmap
  exact {
    frames_eq := rfl
    sync_eq := fun h => by rw [sync_ofFrames, sync_ofFrames, h]
    syncErrors_eq := fun h => by
      change SyncCheck.errorCount (SyncCheck.findings options.frameSync frames) =
        SyncCheck.errorCount (SyncCheck.findings others.frameSync frames)
      rw [h]
    metadata_eq := fun h => (hpart FrameClocking.metadata h).symm
    timestamp_eq := fun h => (hpart FrameClocking.timestamp h).symm
    faults_eq := fun h => by rw [faults_ofFrames, faults_ofFrames, h]
    frameTime_eq := fun h => by
      rw [hpart (·.timing.map FrameTiming.frameTime) h]
      simp only [FrameClocking.ahead, Option.map_map]
      rfl
    delta_eq := fun h => by
      rw [hpart (·.timing.map FrameTiming.delta) h]
      simp only [FrameClocking.ahead, Option.map_map]
      rfl }

end Diagnosis

/-- Two processors refuse a message for one reason, or they both accept it, and their diagnoses
differ only where their options or their times do. -/
theorem Processor.process_agrees (p q : Processor) (now later : Instant) (message : Octets) :
    (∃ fault, (p.process now message).1.value = .error fault ∧
      (q.process later message).1.value = .error fault) ∨
    (∃ one other, (p.process now message).1.value = .ok one ∧
      (q.process later message).1.value = .ok other ∧
      one.AgreesWith other p.options q.options now later) := by
  cases hsplit : SplitMessage.ofMessage message with
  | error fault =>
    exact .inl ⟨fault, p.process_of_fault now hsplit, q.process_of_fault later hsplit⟩
  | ok parts =>
    obtain ⟨frames, hframes, hone⟩ := p.process_of_parts now hsplit
    obtain ⟨others, hothers, hother⟩ := q.process_of_parts later hsplit
    rw [← hframes.unique hothers] at hother
    exact .inr ⟨_, _, hone, hother,
      Diagnosis.agreesWith_ofFrames p.options q.options now later frames parts.metadata⟩

end EnsembleTransport
