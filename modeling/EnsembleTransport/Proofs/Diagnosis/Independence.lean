import EnsembleTransport.Proofs.Diagnosis.Accepted
import EnsembleTransport.Proofs.Message.RoundTrip

/-!
# Frames do not influence each other

Four frames share a message, a buffer, the octets behind the payloads and a list of faults. The
diagnosis of one of them is nevertheless told from its own payload, its place and these octets. What
the other payloads are, how long they are and what is wrong with them has no part in it.
-/

namespace EnsembleTransport

open Layout

/-- The diagnosis of a frame, told from its place, its payload and the octets behind the payloads. -/
def FrameDiagnosis.ofPayload (options : DiagnosticOptions) (now : Instant) (block : Octets)
    (i : Nat) (payload : Octets) : FrameDiagnosis where
  clocking := Clocking.ofGroup? now (FrameSet.pad payload)
    (Clocking.groups options.timestamps block framesPerMessage).1[i]?
  sync :=
    if options.frameSync ∧ payload ≠ [] then (FrameSync.ofFrame (FrameSet.pad payload)).toOption
    else none

variable {frames : FrameSet} {payloads : List Octets}

theorem SyncCheck.sync?_of_holds (h : frames.Holds payloads) {i : Nat} {payload : Octets}
    (hi : payloads[i]? = some payload) (enabled : Bool) (frame : Octets) :
    sync? enabled frames i frame =
      if enabled ∧ payload ≠ [] then (FrameSync.ofFrame frame).toOption else none := by
  have hlength : frames.payloadLength i = payload.length := by
    rw [h.payloadLength_eq, hi]
    rfl
  rw [sync?, inspect, hlength]
  cases enabled <;> cases payload <;> rfl

theorem Diagnosis.getElem?_entries_of_holds (h : frames.Holds payloads)
    (options : DiagnosticOptions) (now : Instant) (block : Octets) (i : Nat) :
    (ofFrames options now frames block).value.entries[i]? =
      payloads[i]?.map (FrameDiagnosis.ofPayload options now block i) := by
  rw [getElem?_entries, h.frame?_eq, Option.map_map]
  cases hi : payloads[i]? with
  | none => rfl
  | some payload =>
    simp only [Option.map_some, Function.comp_apply, SyncCheck.sync?_of_holds h hi]
    rfl

namespace Processor

/-- An accepted message has the frame of each payload and its diagnosis at the place of the payload,
whatever the processor took apart before. -/
theorem process_at (p : Processor) (now : Instant) {message : Octets} {parts : SplitMessage}
    (h : SplitMessage.ofMessage message = .ok parts) :
    ∃ diagnosis, (p.process now message).1.value = .ok diagnosis ∧ ∀ i,
      diagnosis.frames.frame? i = parts.payloads[i]?.map FrameSet.pad ∧
      diagnosis.frames.payloadLength i = (parts.payloads[i]?.map List.length).getD 0 ∧
      diagnosis.entries[i]? =
        parts.payloads[i]?.map (FrameDiagnosis.ofPayload p.options now parts.metadata i) := by
  obtain ⟨frames, hframes, hprocess⟩ := p.process_of_parts now h
  refine ⟨_, hprocess, fun i => ⟨hframes.frame?_eq i, hframes.payloadLength_eq i, ?_⟩⟩
  exact Diagnosis.getElem?_entries_of_holds hframes p.options now parts.metadata i

/-- Two accepted messages with one payload in common, at the same place, and with the same octets
behind the payloads. Their other payloads and what was processed before them may differ in any way. The
frames at this place are the same, and so are their diagnoses. -/
theorem frame_independent (p q : Processor) (hoptions : p.options = q.options) (now : Instant)
    {message other : Octets} {parts others : SplitMessage}
    (hmessage : SplitMessage.ofMessage message = .ok parts)
    (hother : SplitMessage.ofMessage other = .ok others) {i : Nat} (hi : i < 4)
    (hpayload : parts.payloads[i]? = others.payloads[i]?)
    (hmetadata : parts.metadata = others.metadata) :
    ∃ one two frame entry, (p.process now message).1.value = .ok one ∧
      (q.process now other).1.value = .ok two ∧
      one.frames.frame? i = some frame ∧ two.frames.frame? i = some frame ∧
      one.frames.payloadLength i = two.frames.payloadLength i ∧
      one.entries[i]? = some entry ∧ two.entries[i]? = some entry := by
  obtain ⟨one, hone, hat⟩ := p.process_at now hmessage
  obtain ⟨two, htwo, hotherAt⟩ := q.process_at now hother
  obtain ⟨hframe, hlength, hentry⟩ := hat i
  obtain ⟨hotherFrame, hotherLength, hotherEntry⟩ := hotherAt i
  have hcount := (SplitMessage.parts_of_ofMessage hmessage).length_payloads
  obtain ⟨payload, hsome⟩ : ∃ payload, parts.payloads[i]? = some payload :=
    ⟨_, List.getElem?_eq_getElem (Nat.lt_of_lt_of_eq hi hcount.symm)⟩
  rw [← hpayload] at hotherFrame hotherLength hotherEntry
  rw [← hoptions, ← hmetadata] at hotherEntry
  rw [hsome] at hframe hentry hotherFrame hotherEntry
  exact ⟨one, two, _, _, hone, htwo, hframe, hotherFrame, hlength.trans hotherLength.symm, hentry,
    hotherEntry⟩

/-- The second frame, once behind three octets and once behind an empty frame. -/
theorem frame_independent_second_frame :
    let payload : Octets := [0xFF, 0x07, 0x3A, 0xB6, 212, 0x80, 0]
    let metadata := Metadata.encodeGroup ⟨37, 800000000, 4711⟩ ++
      Metadata.encodeGroup ⟨37, 800000000, 4712⟩ ++ [2, 0]
    let message := Envelope.encode [[1, 2, 3], payload, [], []] metadata
    let other := Envelope.encode [[], payload, [9], [8, 7]] metadata
    let p : Processor := { options := ⟨true, true⟩ }
    let q : Processor := { options := ⟨true, true⟩, reassembler := ({} : Reassembler).feed [message] }
    ∃ one two frame entry, (p.process ⟨0⟩ message).1.value = .ok one ∧
      (q.process ⟨0⟩ other).1.value = .ok two ∧
      one.frames.frame? 1 = some frame ∧ two.frames.frame? 1 = some frame ∧
      one.frames.payloadLength 1 = two.frames.payloadLength 1 ∧
      one.entries[1]? = some entry ∧ two.entries[1]? = some entry := by
  intro payload metadata message other p q
  have hmessage : SplitMessage.ofMessage message =
      .ok ⟨⟨1, [3, 7, 0, 0]⟩, [[1, 2, 3], payload, [], []], metadata⟩ :=
    SplitMessage.ofMessage_encode metadata rfl (by decide)
  have hother : SplitMessage.ofMessage other =
      .ok ⟨⟨1, [0, 7, 1, 2]⟩, [[], payload, [9], [8, 7]], metadata⟩ :=
    SplitMessage.ofMessage_encode metadata rfl (by decide)
  exact frame_independent p q rfl ⟨0⟩ hmessage hother (by decide) rfl rfl

end Processor

end EnsembleTransport
