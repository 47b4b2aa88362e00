import EnsembleTransport.Link.Source
import EnsembleTransport.Proofs.Diagnosis.Accepted
import EnsembleTransport.Proofs.Message.Truncation

/-!
# Diagnoses of messages that were cut short

A subscription hands out the front of a message that is too long. Either this is refused, or it
comes to the same frames and to the timing of the first of them, never to another timing.
-/

namespace EnsembleTransport

open Layout

namespace Clocking

/-- The groups in the front of a block are those that the whole block begins with. -/
theorem groups_append (enabled : Bool) (block more : Octets) (count : Nat) :
    (groups enabled block count).1 <+: (groups enabled (block ++ more) count).1 := by
  cases enabled with
  | false => exact List.nil_prefix
  | true => exact ({ block } : GroupReader).leading_extend more count

/-- With fewer groups there are the first of the clockings, each with its group, and empty ones
behind them. -/
theorem exists_told (now : Instant) (frames : List Octets) {few all : List FrameMetadata}
    (h : few <+: all) :
    ∃ told : List FrameClocking,
      told <+: (frames.mapIdx fun i frame => ofGroup? now frame all[i]?) ∧
      (∀ clocking ∈ told, clocking.metadata.isSome) ∧
      (frames.mapIdx fun i frame => ofGroup? now frame few[i]?) =
        told ++ List.replicate (frames.length - told.length) ({} : FrameClocking) := by
  induction few generalizing frames all with
  | nil => exact ⟨[], List.nil_prefix, by simp, mapIdx_ofGroup?_nil now frames⟩
  | cons group few ih =>
    obtain ⟨rest, rfl⟩ := h
    cases frames with
    | nil => exact ⟨[], List.nil_prefix, by simp, rfl⟩
    | cons frame frames =>
      obtain ⟨told, hprefix, htold, hfew⟩ := ih frames (List.prefix_append few rest)
      refine ⟨ofGroup now frame group :: told, ?_, ?_, ?_⟩
      · rw [List.mapIdx_cons]
        exact (List.prefix_cons_inj _).mpr hprefix
      · rintro clocking (_ | ⟨_, hclocking⟩)
        · rfl
        · exact htold clocking hclocking
      · rw [List.mapIdx_cons]
        simpa using ⟨rfl, hfew⟩

end Clocking

/-- How the diagnosis of a message that was cut short stands to that of the whole message. -/
structure Diagnosis.CutShort (short whole : Diagnosis) : Prop where
  frames_eq : short.frames = whole.frames
  sync_eq : short.entries.map (·.sync) = whole.entries.map (·.sync)
  syncErrors_eq : short.syncErrors = whole.syncErrors
  clockings : ∃ told : List FrameClocking, told <+: whole.entries.map (·.clocking) ∧
    (∀ clocking ∈ told, clocking.metadata.isSome) ∧
    short.entries.map (·.clocking) = told ++ List.replicate (4 - told.length) ({} : FrameClocking)

namespace Diagnosis

variable (options : DiagnosticOptions) (now : Instant) (frames : FrameSet) (block : Octets)

theorem clockings_ofFrames : (ofFrames options now frames block).value.entries.map (·.clocking) =
    frames.frameList.mapIdx fun i frame => Clocking.ofGroup? now frame
      (Clocking.groups options.timestamps block framesPerMessage).1[i]? := by
  rw [entries_ofFrames, FrameSet.length_frameList, List.mapIdx_eq_zipIdx_map, List.map_map,
    List.mapIdx_eq_zipIdx_map]
  rfl

theorem sync_ofFrames : (ofFrames options now frames block).value.entries.map (·.sync) =
    frames.frameList.mapIdx fun i frame => SyncCheck.sync? options.frameSync frames i frame := by
  rw [entries_ofFrames, List.mapIdx_eq_zipIdx_map, List.map_map, List.mapIdx_eq_zipIdx_map]
  rfl

theorem cutShort_ofFrames (more : Octets) :
    (ofFrames options now frames block).value.CutShort
      (ofFrames options now frames (block ++ more)).value where
  frames_eq := rfl
  sync_eq := by rw [sync_ofFrames, sync_ofFrames]
  syncErrors_eq := rfl
  clockings := by
    rw [clockings_ofFrames, clockings_ofFrames]
    have h := Clocking.exists_told now frames.frameList
      (Clocking.groups_append options.timestamps block more framesPerMessage)
    rwa [FrameSet.length_frameList] at h

end Diagnosis

theorem MessageSource.receive_ofParts (subscription : Subscription) (parts : List Octets)
    (others : List (List Octets)) (messagesReceived bytesReceived : Nat) :
    let source := { ofParts subscription (parts :: others) with messagesReceived, bytesReceived }
    source.receive.1.value = .ok (parts.flatten.take subscription.maxMessageSize) := by
  intro source
  rw [← Multipart.flatten_eq, ← Subscription.limit_value]
  rfl

namespace Processor

/-- A cut behind the payloads leaves the diagnosis as it is, but for frames at the end that lose
their timing. -/
theorem process_take_of_parts (options : DiagnosticOptions) (r s : Reassembler) (now : Instant)
    {message : Octets} {parts : SplitMessage} (h : SplitMessage.ofMessage message = .ok parts)
    {limit : Nat} (hlimit : parts.envelope.payloadEnd ≤ limit) :
    ∃ short whole,
      ((⟨options, s⟩ : Processor).process now (message.take limit)).1.value = .ok short ∧
      ((⟨options, r⟩ : Processor).process now message).1.value = .ok whole ∧
      short.CutShort whole := by
  obtain ⟨frames, hframes, hwhole⟩ := (⟨options, r⟩ : Processor).process_of_parts now h
  obtain ⟨others, hothers, hshort⟩ :=
    (⟨options, s⟩ : Processor).process_of_parts now (SplitMessage.ofMessage_take h hlimit)
  cases hframes.unique hothers
  have hcut := Diagnosis.cutShort_ofFrames options now frames
    (parts.metadata.take (limit - parts.envelope.payloadEnd))
    (parts.metadata.drop (limit - parts.envelope.payloadEnd))
  rw [List.take_append_drop] at hcut
  exact ⟨_, _, hshort, hwhole, hcut⟩

/-- What a subscriber hands out of a message is its front, up to the limit. A message that is
refused is refused in this form too. One that is accepted keeps its frames and loses the timing of some
frames at the end, or it is refused for the very reason that it was cut. -/
theorem process_of_delivered (endpoint : String) (limit : Nat) (parts : List Octets)
    (others : List (List Octets)) (messagesReceived bytesReceived : Nat)
    (options : DiagnosticOptions) (r s : Reassembler) (now : Instant) :
    let source := { MessageSource.ofParts ⟨endpoint, limit⟩ (parts :: others) with
      messagesReceived, bytesReceived }
    let message := parts.flatten
    let delivered := message.take limit
    let whole := ((⟨options, r⟩ : Processor).process now message).1.value
    let short := ((⟨options, s⟩ : Processor).process now delivered).1.value
    source.receive.1.value = .ok delivered ∧
    delivered.length = min limit message.length ∧
    (∀ fault, whole = .error fault → ∃ fault, short = .error fault) ∧
    (∀ envelope metadata, (r.reassemble message).1 = .ok ⟨envelope, metadata⟩ →
      (envelope.payloadEnd ≤ limit →
        (∃ less, less <+: metadata ∧ (s.reassemble delivered).1 = .ok ⟨envelope, less⟩) ∧
        ∃ found all, short = .ok found ∧ whole = .ok all ∧ found.CutShort all) ∧
      (limit < envelope.payloadEnd →
        (limit < 12 → short = .error (.shortMessage 12 limit)) ∧
        (12 ≤ limit → ∃ i length, envelope.lengths[i]? = some length ∧
          let offset := 12 + (envelope.lengths.take i).sum
          offset ≤ limit ∧ limit < offset + length ∧
            short = .error (.payloadOverrun i offset length limit)))) := by
  intro source message delivered whole short
  refine ⟨MessageSource.receive_ofParts .., List.length_take, ?_, ?_⟩
  · intro fault hwhole
    cases hsplit : SplitMessage.ofMessage message with
    | error fault =>
      obtain ⟨fault, hshort⟩ := SplitMessage.exists_fault_take hsplit limit
      exact ⟨fault, process_of_fault _ now hshort⟩
    | ok parts =>
      obtain ⟨_, _, hok⟩ := (⟨options, r⟩ : Processor).process_of_parts now hsplit
      cases hwhole.symm.trans hok
  · intro envelope metadata hanswer
    cases hsplit : SplitMessage.ofMessage message with
    | error fault => cases (r.reassemble_of_fault hsplit).1.symm.trans hanswer
    | ok parts =>
      cases (r.reassemble_of_parts hsplit).1.symm.trans hanswer
      refine ⟨fun hlimit => ⟨?_, process_take_of_parts options r s now hsplit hlimit⟩,
        fun hlimit => ⟨fun hheader => ?_, fun hheader => ?_⟩⟩
      · have hshort := SplitMessage.ofMessage_take hsplit hlimit
        exact ⟨_, List.take_prefix _ _, (s.reassemble_of_parts hshort).1⟩
      · have hend := (SplitMessage.parts_of_ofMessage hsplit).payloadEnd_le
        exact process_of_fault _ now
          (SplitMessage.ofMessage_take_of_lt_header message hheader (by omega))
      · obtain ⟨i, length, hlength, hbegin, hover, hshort⟩ :=
          SplitMessage.ofMessage_take_of_lt_payloadEnd hsplit hheader hlimit
        exact ⟨i, length, hlength, hbegin, hover, process_of_fault _ now hshort⟩

/-- A message in two parts, cut inside the second of its groups. -/
theorem process_of_delivered_second_group :
    let metadata := Metadata.encodeGroup ⟨37, 800000000, 4711⟩ ++
      Metadata.encodeGroup ⟨37, 800000000, 4712⟩
    let parts := [Envelope.header [1, 1, 1, 1] ++ [1, 2], [3, 4] ++ metadata]
    let source := { MessageSource.ofParts ⟨"tcp://localhost:9100", 41⟩ [parts] with
      messagesReceived := 1, bytesReceived := 25612 }
    source.receive.1.value = .ok (parts.flatten.take 41) ∧
    ∃ found all,
      ((⟨⟨true, true⟩, {}⟩ : Processor).process ⟨0⟩ (parts.flatten.take 41)).1.value = .ok found ∧
      ((⟨⟨true, true⟩, {}⟩ : Processor).process ⟨0⟩ parts.flatten).1.value = .ok all ∧
      found.CutShort all := by
  intro metadata parts source
  obtain ⟨hdelivered, -, -, haccepted⟩ :=
    process_of_delivered "tcp://localhost:9100" 41 parts [] 1 25612 ⟨true, true⟩ {} {} ⟨0⟩
  have hanswer : (({} : Reassembler).reassemble parts.flatten).1 =
      .ok ⟨⟨1, [1, 1, 1, 1]⟩, metadata⟩ := rfl
  have hend : (⟨1, [1, 1, 1, 1]⟩ : Envelope).payloadEnd ≤ 41 := by decide
  obtain ⟨hkept, -⟩ := haccepted _ _ hanswer
  exact ⟨hdelivered, (hkept hend).2⟩

end Processor

end EnsembleTransport
