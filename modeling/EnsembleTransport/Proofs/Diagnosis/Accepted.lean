import EnsembleTransport.Proofs.Diagnosis.Entries
import EnsembleTransport.Proofs.Frame.Timing

/-!
# The diagnosis of an accepted message

Every accepted message has four entries. The two checks fill them independently of each other: the
timing goes on past a timestamp that cannot be read and stops at a group that cannot be read, the
synchronisation is looked at wherever a frame came with data.
-/

namespace EnsembleTransport

open Layout

namespace FrameSet

theorem length_of_frame? {frames : FrameSet} {i : Nat} {frame : Octets}
    (h : frames.frame? i = some frame) : frame.length = frameSize := by
  unfold frame? at h
  split at h
  · rename_i hfits
    cases h
    rw [Nat.succ_mul] at hfits
    exact Octets.length_window_of_le hfits
  · cases h

theorem four_le_length {frames : FrameSet} {i : Nat} {frame : Octets}
    (h : frames.frame? i = some frame) : 4 ≤ frame.length := by
  rw [length_of_frame? h]
  decide

end FrameSet

namespace FrameSync

theorem ofFrame_eq_ok {frame : Octets} (h : 4 ≤ frame.length) :
    ofFrame frame = .ok ⟨frame[0], .ofOctets (Octets.window frame 1 3)⟩ := by
  have hoctet : (Cursor.start frame).readOctet = .ok (frame[0], ⟨frame, 1⟩) :=
    Cursor.readOctet_eq_ok (List.getElem?_eq_getElem (by simp only [Cursor.start]; omega))
  have hword : (⟨frame, 1⟩ : Cursor).take 3 = .ok (Octets.window frame 1 3, ⟨frame, 4⟩) :=
    Cursor.take_eq_ok h
  rw [ofFrame, hoctet]
  simp only [readField, Fallible.ok_bind, hword]
  rfl

theorem synchronised_ofOctets (errorOctet : UInt8) (word : Octets) :
    (⟨errorOctet, .ofOctets word⟩ : FrameSync).synchronised = true ↔
      word = SyncWord.evenOctets ∨ word = SyncWord.oddOctets := by
  unfold SyncWord.ofOctets
  split
  · simp [synchronised, *]
  · split <;> simp [synchronised, *]

end FrameSync

namespace SyncCheck

theorem isError_ofFrame {frame : Octets} (h : 4 ≤ frame.length) :
    isError (FrameSync.ofFrame frame) = true ↔
      Octets.window frame 1 3 ≠ [0x07, 0x3A, 0xB6] ∧
        Octets.window frame 1 3 ≠ [0xF8, 0xC5, 0x49] := by
  rw [FrameSync.ofFrame_eq_ok h, isError, Bool.not_eq_true', ← Bool.not_eq_true,
    FrameSync.synchronised_ofOctets, not_or]
  rfl

theorem sync?_eq_some_iff {frames : FrameSet} {i : Nat} {frame : Octets} {sync : FrameSync} :
    sync? true frames i frame = some sync ↔
      0 < frames.payloadLength i ∧ FrameSync.ofFrame frame = .ok sync := by
  rw [sync?, if_pos rfl, inspect]
  split
  · rename_i hempty
    simp [hempty]
  · rename_i hdata
    cases FrameSync.ofFrame frame <;> simp [Except.toOption, Nat.pos_of_ne_zero hdata]

/-- The number of frames with data that open with neither synchronisation word. -/
theorem errorCount_findings (frames : FrameSet) :
    errorCount (findings true frames) = frames.frameList.zipIdx.countP
      fun (frame, i) => 0 < frames.payloadLength i ∧
        Octets.window frame 1 3 ≠ [0x07, 0x3A, 0xB6] ∧
        Octets.window frame 1 3 ≠ [0xF8, 0xC5, 0x49] := by
  rw [errorCount, findings, List.mapIdx_eq_zipIdx_map, List.countP_map]
  apply List.countP_congr
  rintro ⟨frame, i⟩ hmember
  have hframe : frames.frame? i = some frame := by
    rw [FrameSet.frame?_eq_getElem?]
    exact List.mem_zipIdx_iff_getElem?.mp hmember
  simp only [Function.comp_apply, if_true, inspect, decide_eq_true_eq]
  rw [← isError_ofFrame (FrameSet.four_le_length hframe)]
  split
  · simp [*]
  · simp [Nat.pos_of_ne_zero, *]

end SyncCheck

structure FrameClocking.Tells (clocking : FrameClocking) (now : Instant) (frame : Octets)
    (group : Option FrameMetadata) : Prop where
  metadata_eq : clocking.metadata = group
  timestamp_iff : ∀ timestamp, clocking.timestamp = some timestamp ↔
    ∃ metadata, group = some metadata ∧ Timestamp.ofFrame frame metadata.dlfc = .ok timestamp
  timing_iff : clocking.timing.isSome ↔ clocking.timestamp.isSome
  timing_eq : ∀ metadata timestamp, clocking.metadata = some metadata →
    clocking.timestamp = some timestamp →
    clocking.timing = FrameTiming.align metadata timestamp.ppsOffset now

/-- The frame time never leaves the calendar, so no timestamp is without a timing. -/
theorem Clocking.tells_ofGroup? (now : Instant) (frame : Octets) (group : Option FrameMetadata) :
    (ofGroup? now frame group).Tells now frame group := by
  cases group with
  | none => exact ⟨rfl, by simp [ofGroup?], by simp [ofGroup?], by simp [ofGroup?]⟩
  | some metadata =>
    simp only [ofGroup?, Option.map_some, Option.getD_some, ofGroup]
    cases htimestamp : Timestamp.ofFrame frame metadata.dlfc with
    | error fault =>
      exact {
        metadata_eq := rfl
        timestamp_iff := by simp [Except.toOption, htimestamp]
        timing_iff := by simp [Except.toOption]
        timing_eq := by simp [Except.toOption] }
    | ok timestamp =>
      have htiming := FrameTiming.align_ppsOffset metadata timestamp now
      exact {
        metadata_eq := rfl
        timestamp_iff := by simp [Except.toOption, htimestamp]
        timing_iff := by simp [Except.toOption, htiming]
        timing_eq := by simp [Except.toOption] }

namespace Diagnosis

/-- What a diagnosis with timing says, told from the groups of the metadata and the fault that ends
them. -/
structure Clocked (diagnosis : Diagnosis) (now : Instant) (groups : List FrameMetadata)
    (fault? : Option MessageFault) : Prop where
  length_groups_le : groups.length ≤ 4
  fault?_iff : fault?.isSome ↔ groups.length < 4
  entry : ∀ i frame entry, diagnosis.frames.frame? i = some frame →
    diagnosis.entries[i]? = some entry → entry.clocking.Tells now frame groups[i]?
  faults_eq : diagnosis.faults = (diagnosis.frames.frameList.zip groups).filterMap
    (fun (frame, metadata) => Timestamp.fault? frame metadata.dlfc) ++ fault?.toList

/-- What a diagnosis with a look at the synchronisation says. -/
structure SyncChecked (diagnosis : Diagnosis) : Prop where
  sync_iff : ∀ i entry, diagnosis.entries[i]? = some entry →
    (entry.sync.isSome ↔ 0 < diagnosis.frames.payloadLength i)
  sync_eq : ∀ i frame entry sync, diagnosis.frames.frame? i = some frame →
    diagnosis.entries[i]? = some entry → entry.sync = some sync → FrameSync.ofFrame frame = .ok sync
  syncErrors_eq : diagnosis.syncErrors = diagnosis.frames.frameList.zipIdx.countP
    fun (frame, i) => 0 < diagnosis.frames.payloadLength i ∧
      Octets.window frame 1 3 ≠ [0x07, 0x3A, 0xB6] ∧ Octets.window frame 1 3 ≠ [0xF8, 0xC5, 0x49]

variable (options : DiagnosticOptions) (now : Instant) (frames : FrameSet) (block : Octets)

theorem getElem?_entries (i : Nat) :
    (ofFrames options now frames block).value.entries[i]? = (frames.frame? i).map fun frame =>
      ⟨Clocking.ofGroup? now frame
        (Clocking.groups options.timestamps block framesPerMessage).1[i]?,
        SyncCheck.sync? options.frameSync frames i frame⟩ := by
  rw [entries_ofFrames, List.getElem?_mapIdx, FrameSet.frame?_eq_getElem?,
    FrameSet.length_frameList]

theorem exists_of_mem_entries {entry : FrameDiagnosis}
    (h : entry ∈ (ofFrames options now frames block).value.entries) :
    ∃ i frame, entry = ⟨Clocking.ofGroup? now frame
      (Clocking.groups options.timestamps block framesPerMessage).1[i]?,
      SyncCheck.sync? options.frameSync frames i frame⟩ := by
  obtain ⟨i, hi⟩ := List.mem_iff_getElem?.mp h
  rw [getElem?_entries] at hi
  obtain ⟨frame, _, rfl⟩ := Option.map_eq_some_iff.mp hi
  exact ⟨i, frame, rfl⟩

theorem length_entries : (ofFrames options now frames block).value.entries.length = 4 := by
  rw [entries_ofFrames, List.length_mapIdx, FrameSet.length_frameList]
  rfl

theorem clocked_ofFrames (h : options.timestamps = true) :
    (ofFrames options now frames block).value.Clocked now
      (({ block } : GroupReader).leading 4).1 (({ block } : GroupReader).leading 4).2 where
  length_groups_le := GroupReader.length_leading_le _ 4
  fault?_iff := GroupReader.isSome_leading_iff _ 4
  entry i frame entry hframe hentry := by
    have hframe : frames.frame? i = some frame := hframe
    rw [getElem?_entries, hframe, h] at hentry
    cases hentry
    exact Clocking.tells_ofGroup? now frame _
  faults_eq := by
    rw [faults_ofFrames, FrameSet.length_frameList, h]
    rfl

theorem syncChecked_ofFrames (h : options.frameSync = true) :
    (ofFrames options now frames block).value.SyncChecked where
  sync_iff i entry hentry := by
    rw [getElem?_entries, h] at hentry
    obtain ⟨frame, hframe, rfl⟩ := Option.map_eq_some_iff.mp hentry
    simp only [Option.isSome_iff_exists, SyncCheck.sync?_eq_some_iff,
      FrameSync.ofFrame_eq_ok (FrameSet.four_le_length hframe)]
    exact ⟨fun ⟨_, hdata, _⟩ => hdata, fun hdata => ⟨_, hdata, rfl⟩⟩
  sync_eq i frame entry sync hframe hentry hsync := by
    have hframe : frames.frame? i = some frame := hframe
    rw [getElem?_entries, hframe, h] at hentry
    cases hentry
    exact (SyncCheck.sync?_eq_some_iff.mp hsync).2
  syncErrors_eq := by
    change SyncCheck.errorCount (SyncCheck.findings options.frameSync frames) = _
    rw [h]
    exact SyncCheck.errorCount_findings frames

theorem unclocked_ofFrames (h : options.timestamps = false) :
    (∀ entry ∈ (ofFrames options now frames block).value.entries, entry.clocking = {}) ∧
      (ofFrames options now frames block).value.faults = [] := by
  constructor
  · intro entry hentry
    obtain ⟨i, frame, rfl⟩ := exists_of_mem_entries options now frames block hentry
    rw [h]
    rfl
  · simp [faults_ofFrames, h, Clocking.groups]

theorem unchecked_ofFrames (h : options.frameSync = false) :
    (∀ entry ∈ (ofFrames options now frames block).value.entries, entry.sync = none) ∧
      (ofFrames options now frames block).value.syncErrors = 0 := by
  constructor
  · intro entry hentry
    obtain ⟨i, frame, rfl⟩ := exists_of_mem_entries options now frames block hentry
    rw [h]
    rfl
  · change SyncCheck.errorCount (SyncCheck.findings options.frameSync frames) = 0
    rw [h, SyncCheck.errorCount, List.countP_eq_zero]
    intro finding hfinding
    obtain ⟨_, _, rfl⟩ := List.mem_mapIdx.mp hfinding
    exact Bool.false_ne_true

end Diagnosis

namespace Processor

/-- An accepted message is diagnosed with four entries over its frames, whatever came before it.
Each check fills its part of them, and one that is switched off leaves its part empty. -/
theorem diagnosis_of_accepted (p : Processor) (now : Instant) {message : Octets}
    {envelope : Envelope} {metadata : Octets}
    (h : (p.reassembler.reassemble message).1 = .ok ⟨envelope, metadata⟩) :
    ∃ diagnosis, (p.process now message).1.value = .ok diagnosis ∧
      diagnosis.frames = (p.reassembler.reassemble message).2.frames ∧
      diagnosis.entries.length = 4 ∧
      (p.options.timestamps = true →
        let read := ({ block := metadata } : GroupReader).leading 4
        diagnosis.Clocked now read.1 read.2) ∧
      (p.options.timestamps = false →
        (∀ entry ∈ diagnosis.entries, entry.clocking = {}) ∧ diagnosis.faults = []) ∧
      (p.options.frameSync = true → diagnosis.SyncChecked) ∧
      (p.options.frameSync = false →
        (∀ entry ∈ diagnosis.entries, entry.sync = none) ∧ diagnosis.syncErrors = 0) := by
  refine ⟨_, p.process_of_reassembly now h, rfl, ?_, ?_, ?_, ?_, ?_⟩
  · exact Diagnosis.length_entries p.options now _ metadata
  · exact Diagnosis.clocked_ofFrames p.options now _ metadata
  · exact Diagnosis.unclocked_ofFrames p.options now _ metadata
  · exact Diagnosis.syncChecked_ofFrames p.options now _ metadata
  · exact Diagnosis.unchecked_ofFrames p.options now _ metadata

/-- A message with two groups before a record that is cut short, and with a frame whose timestamp
cannot be read. -/
theorem diagnosis_of_two_groups :
    let p : Processor := { options := ⟨true, true⟩ }
    let metadata := Metadata.encodeGroup ⟨37, 800000000, 4711⟩ ++
      Metadata.encodeGroup ⟨37, 800000000, 4712⟩ ++ [2, 0]
    let message := Envelope.encode
      [[0xFF, 0x07, 0x3A, 0xB6, 123, 0x80, 0], [0xFF, 0xF8, 0xC5, 0x49, 124, 0], [], [1, 2]]
      metadata
    ∃ diagnosis, (p.process ⟨0⟩ message).1.value = .ok diagnosis ∧
      diagnosis.entries.length = 4 ∧
      diagnosis.Clocked ⟨0⟩ [⟨37, 800000000, 4711⟩, ⟨37, 800000000, 4712⟩]
        (some (.truncatedMetadata none 40 3 2)) ∧
      diagnosis.SyncChecked := by
  intro p metadata message
  have haccepted : (p.reassembler.reassemble message).1 = .ok ⟨⟨1, [7, 6, 0, 2]⟩, metadata⟩ := rfl
  have hread : ({ block := metadata } : GroupReader).leading 4 =
      ([⟨37, 800000000, 4711⟩, ⟨37, 800000000, 4712⟩],
        some (.truncatedMetadata none 40 3 2)) := by decide +kernel
  obtain ⟨diagnosis, hprocess, -, hlength, hclocked, -, hchecked, -⟩ :=
    p.diagnosis_of_accepted ⟨0⟩ haccepted
  rw [hread] at hclocked
  exact ⟨diagnosis, hprocess, hlength, hclocked rfl, hchecked rfl⟩

end Processor

end EnsembleTransport
