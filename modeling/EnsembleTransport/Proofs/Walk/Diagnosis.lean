import EnsembleTransport.Proofs.Walk.Frame
import EnsembleTransport.Proofs.Walk.Group

/-!
# Processing through a cursor

The walks over a message, its groups and its frames make up the processing of a message. No answer to
a refused read shows in what a message comes to, whatever was processed before it.
-/

namespace EnsembleTransport

open Layout

theorem FrameSet.length_of_mem_frameList {frames : FrameSet} {frame : Octets}
    (h : frame ∈ frames.frameList) : frame.length = frameSize := by
  obtain ⟨i, hi⟩ := List.mem_iff_getElem?.mp h
  rw [← frame?_eq_getElem?] at hi
  exact length_of_frame? hi

namespace SyncCheck

def walk (fb : Fallbacks) (frames : FrameSet) (index : Nat) (frame : Octets) :
    Option FrameSync × Nat :=
  if frames.payloadLength index = 0 then (none, 0)
  else match FrameSync.walk fb frame with
    | .ok sync => (some sync, if sync.synchronised then 0 else 1)
    | .error fault => fb.sync fault

/-- The frames in their order; where the check is switched off, none is looked at. -/
def walkFrames (fb : Fallbacks) (enabled : Bool) (frames : FrameSet) :
    List (Option FrameSync × Nat) :=
  frames.frameList.mapIdx fun index frame =>
    if enabled then walk fb frames index frame else (none, 0)

/-- What an entry shows and counts of a finding. -/
def outcome (finding : Option (Except MessageFault FrameSync)) : Option FrameSync × Nat :=
  (finding.bind Except.toOption, if finding.any isError then 1 else 0)

variable (fb : Fallbacks)

theorem walk_eq {frames : FrameSet} {index : Nat} {frame : Octets} (h : 4 ≤ frame.length) :
    walk fb frames index frame = outcome (inspect frames index frame) := by
  unfold walk inspect
  split
  · rfl
  · rw [FrameSync.walk_eq fb h, FrameSync.ofFrame_eq_ok h]
    cases hsync : (⟨frame[0], .ofOctets (Octets.window frame 1 3)⟩ : FrameSync).synchronised <;>
      simp [outcome, isError, hsync, Except.toOption]

theorem walkFrames_eq (enabled : Bool) (frames : FrameSet) :
    walkFrames fb enabled frames = (findings enabled frames).map outcome := by
  rw [walkFrames, findings, List.mapIdx_eq_zipIdx_map, List.mapIdx_eq_zipIdx_map, List.map_map]
  apply List.map_congr_left
  rintro ⟨frame, i⟩ hmember
  have hframe : frames.frame? i = some frame := by
    rw [FrameSet.frame?_eq_getElem?]
    exact List.mem_zipIdx_iff_getElem?.mp hmember
  cases enabled with
  | false => rfl
  | true => exact walk_eq fb (FrameSet.four_le_length hframe)

theorem sum_outcome (findings : List (Option (Except MessageFault FrameSync))) :
    ((findings.map outcome).map Prod.snd).sum = errorCount findings := by
  induction findings with
  | nil => rfl
  | cons finding findings ih =>
    rw [List.map_cons, List.map_cons, List.sum_cons, ih, errorCount, errorCount, List.countP_cons,
      Nat.add_comm]
    rfl

end SyncCheck

namespace Clocking

/-- The clockings of some frames and the faults met on the way, read group by group. -/
def walk (fb : Fallbacks) (now : Instant) :
    GroupReader → List Octets → List FrameClocking × List MessageFault
  | _, [] => ([], [])
  | reader, frame :: frames =>
    match Metadata.walkGroup fb reader.block reader.consumed with
    | .error fault => (List.replicate (frames.length + 1) {}, [fault])
    | .ok (metadata, consumed) =>
      let (clockings, faults) := walk fb now { reader with consumed } frames
      match Timestamp.walk fb frame metadata.dlfc with
      | .ok timestamp =>
        (⟨some metadata, some timestamp, FrameTiming.align metadata timestamp.ppsOffset now⟩ ::
          clockings, faults)
      | .error fault => (⟨some metadata, none, none⟩ :: clockings, fault :: faults)

/-- From a place inside the block, the walk over frames of full size is the report on them. -/
theorem walk_eq (fb : Fallbacks) (now : Instant) {reader : GroupReader} {frames : List Octets}
    (hreader : reader.consumed ≤ reader.block.length)
    (hframes : ∀ frame ∈ frames, frame.length = frameSize) (index : Nat) :
    walk fb now reader frames =
      ((report now reader index frames).entries, (report now reader index frames).faults) := by
  induction frames generalizing reader index with
  | nil => rfl
  | cons frame frames ih =>
    rw [walk, Metadata.walkGroup_eq fb hreader, report]
    cases hgroup : (Metadata.decodeGroup reader.block reader.consumed).value with
    | error fault => simp only [GroupReader.next, hgroup]
    | ok pair =>
      obtain ⟨metadata, stop⟩ := pair
      have hstop : ({ reader with consumed := stop } : GroupReader).consumed ≤ reader.block.length :=
        Metadata.stop_le_of_decodeGroup hgroup
      have hothers := ih hstop
        (fun other hother => hframes other (List.mem_cons_of_mem _ hother)) (index + 1)
      have hframe : frameSize ≤ frame.length :=
        Nat.le_of_eq (hframes frame List.mem_cons_self).symm
      simp only [GroupReader.next, hgroup, Timestamp.walk_eq fb hframe, ofMetadata, hothers]
      cases Timestamp.ofFrame frame metadata.dlfc <;> rfl

end Clocking

namespace Diagnosis

def walk (fb : Fallbacks) (options : DiagnosticOptions) (now : Instant) (frames : FrameSet)
    (block : Octets) : Diagnosis :=
  let checks := SyncCheck.walkFrames fb options.frameSync frames
  let (clockings, faults) :=
    if options.timestamps then Clocking.walk fb now { block } frames.frameList
    else (List.replicate frames.frameList.length {}, [])
  { frames
    entries := clockings.zipWith (fun clocking check => ⟨clocking, check.1⟩) checks
    faults
    syncErrors := (checks.map Prod.snd).sum }

theorem walk_eq (fb : Fallbacks) (options : DiagnosticOptions) (now : Instant) (frames : FrameSet)
    (block : Octets) :
    walk fb options now frames block = (ofFrames options now frames block).value := by
  have hclockings : (if options.timestamps then Clocking.walk fb now { block } frames.frameList
      else (List.replicate frames.frameList.length {}, [])) =
        ((Clocking.ofFrames options.timestamps now block frames.frameList).entries,
          (Clocking.ofFrames options.timestamps now block frames.frameList).faults) := by
    cases options.timestamps with
    | false => rfl
    | true =>
      exact Clocking.walk_eq fb now (Nat.zero_le _)
        (fun _ hframe => FrameSet.length_of_mem_frameList hframe) 0
  simp only [walk, ofFrames, hclockings, SyncCheck.walkFrames_eq, SyncCheck.sum_outcome,
    List.zipWith_map_right]
  rfl

end Diagnosis

namespace Processor

def walk (fb : Fallbacks) (p : Processor) (now : Instant) (message : Octets) :
    Except MessageFault Diagnosis := do
  let parts ← SplitMessage.walk fb message
  let frames := (p.reassembler.frames.load? parts.payloads).getD p.reassembler.frames
  return Diagnosis.walk fb p.options now frames parts.metadata

/-- No answer to a refused read shows in what a message comes to. -/
theorem walk_eq (fb : Fallbacks) (p : Processor) (now : Instant) (message : Octets) :
    p.walk fb now message = (p.process now message).1.value := by
  rw [walk, SplitMessage.walk_eq, process, Reassembler.reassemble]
  cases SplitMessage.ofMessage message with
  | error fault => rfl
  | ok parts =>
    simp only [Fallible.ok_bind, Diagnosis.walk_eq]
    rfl

end Processor

end EnsembleTransport
