import EnsembleTransport.Diagnosis
import EnsembleTransport.Proofs.Message.Reassembly
import EnsembleTransport.Proofs.Metadata.Reader

/-!
# Diagnoses frame by frame

The entry of a frame is a matter of the frame, of its place and of the group with the same place
among the groups that can be read. The faults are those of the timestamps, in frame order, and then
the one that ends the reading of groups.
-/

namespace EnsembleTransport

namespace Timestamp

def fault? (frame : Octets) (dlfc : UInt16) : Option MessageFault :=
  match ofFrame frame dlfc with
  | .ok _ => none
  | .error fault => some fault

end Timestamp

namespace Clocking

def ofGroup (now : Instant) (frame : Octets) (metadata : FrameMetadata) : FrameClocking :=
  let timestamp := (Timestamp.ofFrame frame metadata.dlfc).toOption
  ⟨some metadata, timestamp, timestamp.bind fun t => FrameTiming.align metadata t.ppsOffset now⟩

def ofGroup? (now : Instant) (frame : Octets) (metadata : Option FrameMetadata) : FrameClocking :=
  (metadata.map (ofGroup now frame)).getD {}

/-- The groups that the timing check reads for so many frames, and the fault that ends it. -/
def groups (enabled : Bool) (block : Octets) (count : Nat) :
    List FrameMetadata × Option MessageFault :=
  if enabled then ({ block } : GroupReader).leading count else ([], none)

theorem entries_ofMetadata (now : Instant) (index : Nat) (frame : Octets)
    (metadata : FrameMetadata) :
    (ofMetadata now index frame metadata).entries = [ofGroup now frame metadata] := by
  unfold ofMetadata ofGroup
  cases Timestamp.ofFrame frame metadata.dlfc <;> rfl

theorem faults_ofMetadata (now : Instant) (index : Nat) (frame : Octets)
    (metadata : FrameMetadata) :
    (ofMetadata now index frame metadata).faults =
      (Timestamp.fault? frame metadata.dlfc).toList := by
  unfold ofMetadata Timestamp.fault?
  cases Timestamp.ofFrame frame metadata.dlfc <;> rfl

theorem mapIdx_ofGroup?_nil (now : Instant) (frames : List Octets) :
    (frames.mapIdx fun i frame => ofGroup? now frame ([] : List FrameMetadata)[i]?) =
      List.replicate frames.length {} := by
  refine List.ext_getElem (by rw [List.length_mapIdx, List.length_replicate]) fun i _ _ => ?_
  rw [List.getElem_mapIdx, List.getElem_replicate]
  rfl

theorem entries_report (now : Instant) (reader : GroupReader) (index : Nat)
    (frames : List Octets) :
    (report now reader index frames).entries = frames.mapIdx fun i frame =>
      ofGroup? now frame (reader.leading frames.length).1[i]? := by
  induction frames generalizing reader index with
  | nil => rfl
  | cons frame frames ih =>
    rw [report, List.length_cons, GroupReader.leading]
    rcases reader.next with ⟨⟨fault | metadata, events⟩, next⟩
    · exact (mapIdx_ofGroup?_nil now (frame :: frames)).symm
    · simp only [entries_ofMetadata, ih, List.mapIdx_cons, List.getElem?_cons_zero,
        List.getElem?_cons_succ, List.singleton_append]
      rfl

theorem faults_report (now : Instant) (reader : GroupReader) (index : Nat)
    (frames : List Octets) :
    (report now reader index frames).faults =
      (frames.zip (reader.leading frames.length).1).filterMap
        (fun pair => Timestamp.fault? pair.1 pair.2.dlfc) ++
      (reader.leading frames.length).2.toList := by
  induction frames generalizing reader index with
  | nil => rfl
  | cons frame frames ih =>
    rw [report, List.length_cons, GroupReader.leading]
    rcases reader.next with ⟨⟨fault | metadata, events⟩, next⟩
    · rfl
    · simp only [faults_ofMetadata, ih, List.zip_cons_cons, List.filterMap_cons]
      cases Timestamp.fault? frame metadata.dlfc <;> rfl

theorem entries_ofFrames (enabled : Bool) (now : Instant) (block : Octets)
    (frames : List Octets) :
    (ofFrames enabled now block frames).entries = frames.mapIdx fun i frame =>
      ofGroup? now frame (groups enabled block frames.length).1[i]? := by
  cases enabled with
  | true => exact entries_report now { block } 0 frames
  | false => exact (mapIdx_ofGroup?_nil now frames).symm

theorem faults_ofFrames (enabled : Bool) (now : Instant) (block : Octets)
    (frames : List Octets) :
    (ofFrames enabled now block frames).faults =
      (frames.zip (groups enabled block frames.length).1).filterMap
        (fun pair => Timestamp.fault? pair.1 pair.2.dlfc) ++
      (groups enabled block frames.length).2.toList := by
  cases enabled with
  | true => exact faults_report now { block } 0 frames
  | false => simp [ofFrames, groups]

end Clocking

namespace SyncCheck

def sync? (enabled : Bool) (frames : FrameSet) (index : Nat) (frame : Octets) : Option FrameSync :=
  (if enabled then inspect frames index frame else none).bind Except.toOption

end SyncCheck

namespace Diagnosis

/-- Every frame has one entry, from its group and from the check of its synchronisation. -/
theorem entries_ofFrames (options : DiagnosticOptions) (now : Instant) (frames : FrameSet)
    (block : Octets) :
    (ofFrames options now frames block).value.entries = frames.frameList.mapIdx fun i frame =>
      ⟨Clocking.ofGroup? now frame
        (Clocking.groups options.timestamps block frames.frameList.length).1[i]?,
        SyncCheck.sync? options.frameSync frames i frame⟩ := by
  simp only [ofFrames, Clocking.entries_ofFrames, SyncCheck.findings]
  apply List.ext_getElem
  · simp
  · intro i hi _
    rw [List.getElem_zipWith, List.getElem_map, List.getElem_mapIdx, List.getElem_mapIdx,
      List.getElem_mapIdx]
    rfl

theorem faults_ofFrames (options : DiagnosticOptions) (now : Instant) (frames : FrameSet)
    (block : Octets) :
    (ofFrames options now frames block).value.faults =
      let read := Clocking.groups options.timestamps block frames.frameList.length
      (frames.frameList.zip read.1).filterMap
        (fun pair => Timestamp.fault? pair.1 pair.2.dlfc) ++ read.2.toList :=
  Clocking.faults_ofFrames options.timestamps now block frames.frameList

theorem faults_of_holds {frames : FrameSet} {payloads : List Octets} (h : frames.Holds payloads)
    (options : DiagnosticOptions) (now : Instant) (block : Octets) :
    (ofFrames options now frames block).value.faults =
      let read := Clocking.groups options.timestamps block Layout.framesPerMessage
      ((payloads.map FrameSet.pad).zip read.1).filterMap
        (fun pair => Timestamp.fault? pair.1 pair.2.dlfc) ++ read.2.toList := by
  rw [faults_ofFrames, FrameSet.length_frameList, h.frameList_eq]

end Diagnosis

namespace Processor

variable (p : Processor) (now : Instant) {message : Octets}

theorem process_of_reassembly {envelope : Envelope} {metadata : Octets}
    (h : (p.reassembler.reassemble message).1 = .ok ⟨envelope, metadata⟩) :
    (p.process now message).1.value = .ok (Diagnosis.ofFrames p.options now
      (p.reassembler.reassemble message).2.frames metadata).value := by
  unfold process
  rcases hreassembled : p.reassembler.reassemble message with ⟨answer, after⟩
  rw [hreassembled] at h
  cases h
  rfl

theorem process_of_parts {parts : SplitMessage} (h : SplitMessage.ofMessage message = .ok parts) :
    ∃ frames : FrameSet, frames.Holds parts.payloads ∧ (p.process now message).1.value =
      .ok (Diagnosis.ofFrames p.options now frames parts.metadata).value := by
  obtain ⟨hanswer, hholds⟩ := p.reassembler.reassemble_of_parts h
  exact ⟨_, hholds, p.process_of_reassembly now hanswer⟩

theorem process_of_fault {fault : MessageFault}
    (h : SplitMessage.ofMessage message = .error fault) :
    (p.process now message).1.value = .error fault := by
  simp only [process, (p.reassembler.reassemble_of_fault h).1]

end Processor

end EnsembleTransport
