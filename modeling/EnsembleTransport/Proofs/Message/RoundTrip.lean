import EnsembleTransport.Proofs.Message.Reassembly

/-!
# Messages written and read back

An encoded message is accepted and taken apart into what it was made of. An accepted message is the
encoding of what it is taken apart into, so none of its octets is lost, doubled or moved.
-/

namespace EnsembleTransport

open Layout

namespace Envelope

theorem signed16_ofLittle {length : Nat} (h : length ≤ frameSize) :
    Word.signed16 (Octets.little (Octets.ofLittle 2 length)) = length := by
  have hsize : frameSize = 6144 := rfl
  have hmod : length % 256 ^ 2 = length := Nat.mod_eq_of_lt (by omega)
  rw [Octets.little_ofLittle, hmod, Word.signed16, if_pos (by omega)]

theorem ofLittle_of_signed16 {field : Octets} {length : Nat} (hfield : field.length = 2)
    (h : Word.signed16 (Octets.little field) = length) : Octets.ofLittle 2 length = field := by
  have hlt := Octets.little_lt field
  rw [hfield] at hlt
  have hlittle : Octets.little field = length := by
    unfold Word.signed16 at h
    split at h <;> omega
  have hwritten := Octets.ofLittle_little field
  rwa [hfield, hlittle] at hwritten

theorem length_flatten_fields (lengths : List Nat) :
    (lengths.map (Octets.ofLittle 2)).flatten.length = 2 * lengths.length := by
  induction lengths with
  | nil => rfl
  | cons length lengths ih =>
    rw [List.map_cons, List.flatten_cons, List.length_append, Octets.length_ofLittle, ih,
      List.length_cons]
    omega

theorem header_eq (lengths : List Nat) :
    header lengths =
      Octets.ofLittle 4 envelopeVersion ++ (lengths.map (Octets.ofLittle 2)).flatten := by
  rw [header, List.flatMap_def]

theorem length_header {lengths : List Nat} (h : lengths.length = framesPerMessage) :
    (header lengths).length = headerSize := by
  rw [header_eq, List.length_append, Octets.length_ofLittle, length_flatten_fields, h]
  rfl

/-- A message that opens with the header of some lengths announces them. -/
theorem announces_header {lengths : List Nat} (hcount : lengths.length = framesPerMessage)
    (hfits : ∀ length ∈ lengths, length ≤ frameSize) (rest : Octets) :
    Announces (header lengths ++ rest) ⟨envelopeVersion, lengths⟩ where
  complete := by
    rw [List.length_append, length_header hcount]
    omega
  version := by
    have hwindow : Octets.window (header lengths ++ rest) 0 4 =
        Octets.ofLittle 4 envelopeVersion := by
      rw [header_eq, List.append_assoc, Octets.window_append_left (by simp)]
      rfl
    rw [declaredVersion, hwindow, Octets.little_ofLittle]
    rfl
  length_lengths := hcount
  declared i (hi : i < lengths.length) := by
    have hle : lengths[i] ≤ frameSize := hfits _ (List.getElem_mem hi)
    have hwindow : Octets.window (header lengths ++ rest) (4 + 2 * i) 2 =
        Octets.ofLittle 2 lengths[i] := by
      have hfield : i < (lengths.map (Octets.ofLittle 2)).length := by rwa [List.length_map]
      have hfields : Octets.window (lengths.map (Octets.ofLittle 2)).flatten (i * 2) 2 =
          (lengths.map (Octets.ofLittle 2))[i] :=
        Octets.window_flatten (by simp) hfield
      rw [List.getElem_map] at hfields
      rw [header_eq, List.append_assoc, Octets.window_append_right (by simp),
        Octets.length_ofLittle, Nat.add_sub_cancel_left, Octets.window_append_left, Nat.mul_comm,
        hfields]
      rw [length_flatten_fields]
      omega
    exact ⟨by rw [declaredLength, hwindow, signed16_ofLittle hle], hle⟩

theorem header_of_announces {message : Octets} {envelope : Envelope}
    (h : Announces message envelope) : header envelope.lengths = message.take headerSize := by
  have hcomplete : 12 ≤ message.length := h.complete
  have hversion : Octets.ofLittle 4 envelopeVersion = message.take 4 := by
    have hwritten := Octets.ofLittle_little (message.take 4)
    rw [List.length_take, Nat.min_eq_left (by omega)] at hwritten
    rw [← hwritten, ← h.version]
    rfl
  have hfields : envelope.lengths.map (Octets.ofLittle 2) =
      (List.range framesPerMessage).map fun i =>
        Octets.window (Octets.window message 4 8) (i * 2) 2 := by
    apply List.ext_getElem
    · rw [List.length_map, List.length_map, List.length_range, h.length_lengths]
    · intro i hi _
      rw [List.length_map] at hi
      have hfour : i < 4 := Nat.lt_of_lt_of_eq hi h.length_lengths
      rw [List.getElem_map, List.getElem_map, List.getElem_range,
        Octets.window_window (by omega), Nat.mul_comm]
      exact ofLittle_of_signed16 (Octets.length_window_of_le (by omega)) (h.declared i hi).1
  have hwindow : (Octets.window message 4 8).length = framesPerMessage * 2 :=
    Octets.length_window_of_le (by omega)
  rw [header_eq, hversion, hfields, Octets.flatten_windows hwindow]
  exact Octets.take_append_window message 4 8

end Envelope

namespace SplitMessage

theorem flatten_slices (message : Octets) (offset : Nat) (lengths : List Nat) :
    (slices message offset lengths).flatten = Octets.window message offset lengths.sum := by
  induction lengths generalizing offset with
  | nil => rfl
  | cons length lengths ih =>
    rw [slices, List.flatten_cons, ih, List.sum_cons, Octets.window_add]

theorem slices_of_payloads (front rest : Octets) (payloads : List Octets) :
    slices (front ++ (payloads.flatten ++ rest)) front.length (payloads.map List.length) =
      payloads := by
  induction payloads generalizing front with
  | nil => rfl
  | cons payload payloads ih =>
    have hfirst : Octets.window (front ++ ((payload :: payloads).flatten ++ rest)) front.length
        payload.length = payload := by
      rw [Octets.window, List.drop_left, List.flatten_cons, List.append_assoc, List.take_left]
    have hrest := ih (front ++ payload)
    rw [List.length_append] at hrest
    rw [List.map_cons, slices, hfirst, List.flatten_cons]
    simpa using hrest

/-- An encoded message is taken apart into what it was made of. -/
theorem ofMessage_encode {payloads : List Octets} (trailer : Octets)
    (hcount : payloads.length = framesPerMessage)
    (hfits : ∀ payload ∈ payloads, payload.length ≤ frameSize) :
    ofMessage (Envelope.encode payloads trailer) =
      .ok ⟨⟨envelopeVersion, payloads.map List.length⟩, payloads, trailer⟩ := by
  have hlengths : (payloads.map List.length).length = framesPerMessage := by
    rw [List.length_map, hcount]
  have hheader := Envelope.length_header hlengths
  have hsum : (payloads.map List.length).sum = payloads.flatten.length := List.length_flatten.symm
  have hannounces := Envelope.announces_header hlengths (by simpa using hfits)
    (payloads.flatten ++ trailer)
  have hsplit := ofMessage_of_announces hannounces rfl (by
    simp only [Envelope.payloadEnd, Envelope.payloadLength, List.length_append, hheader, hsum]
    omega)
  rw [← hheader, slices_of_payloads] at hsplit
  rw [Envelope.encode, List.append_assoc, hsplit, Envelope.payloadEnd, Envelope.payloadLength, hsum,
    ← hheader, ← List.length_append, ← List.append_assoc, List.drop_left]

/-- An accepted message is the encoding of its payloads and its metadata. -/
theorem Parts.encode_eq {message : Octets} {parts : SplitMessage} (h : Parts message parts) :
    Envelope.encode parts.payloads parts.metadata = message := by
  rw [Envelope.encode, h.map_length_payloads, Envelope.header_of_announces h.announces,
    h.payloads_eq, flatten_slices, Octets.take_append_window, h.metadata_eq]
  exact List.take_append_drop _ _

end SplitMessage

namespace FrameSet

def payloads (frames : FrameSet) : List Octets :=
  frames.frameList.mapIdx fun i frame => frame.take (frames.payloadLength i)

theorem Holds.payloads_eq {frames : FrameSet} {payloads : List Octets}
    (h : frames.Holds payloads) : frames.payloads = payloads := by
  apply List.ext_getElem?
  intro i
  rw [FrameSet.payloads, List.getElem?_mapIdx, h.frameList_eq, List.getElem?_map,
    h.payloadLength_eq]
  cases payloads[i]? with
  | none => rfl
  | some payload =>
    rw [Option.map_some, Option.map_some, Option.map_some, Option.getD_some, pad, List.take_left]

end FrameSet

namespace Reassembler

/-- Four payloads that fit their frames and any trailer are read back from their encoding, and an
accepted message is the encoding of what its frames and its trailer hold, after any history. -/
theorem reassembly_round_trip :
    (∀ (r : Reassembler) (payloads : List Octets) (trailer : Octets), payloads.length = 4 →
      (∀ payload ∈ payloads, payload.length ≤ 6144) →
      let message := Envelope.encode payloads trailer
      let frames := (r.reassemble message).2.frames
      (r.reassemble message).1 = .ok ⟨⟨1, payloads.map List.length⟩, trailer⟩ ∧
      frames.payloads = payloads ∧ frames.payloadLengths = payloads.map List.length) ∧
    (∀ (r : Reassembler) (message : Octets) (envelope : Envelope) (metadata : Octets),
      (r.reassemble message).1 = .ok ⟨envelope, metadata⟩ →
      let frames := (r.reassemble message).2.frames
      frames.payloadLengths = envelope.lengths ∧
      Envelope.header frames.payloadLengths ++ frames.payloads.flatten ++ metadata = message) := by
  constructor
  · intro r payloads trailer hcount hfits
    have hsplit := SplitMessage.ofMessage_encode trailer hcount hfits
    obtain ⟨hanswer, hframes⟩ := r.reassemble_of_parts hsplit
    exact ⟨hanswer, hframes.payloads_eq, hframes.payloadLengths_eq⟩
  · intro r message envelope metadata hanswer frames
    cases hsplit : SplitMessage.ofMessage message with
    | error fault => cases (r.reassemble_of_fault hsplit).1.symm.trans hanswer
    | ok parts =>
      obtain ⟨hok, hframes⟩ := r.reassemble_of_parts hsplit
      cases hok.symm.trans hanswer
      have hparts := SplitMessage.parts_of_ofMessage hsplit
      rw [hframes.payloads_eq, hframes.payloadLengths_eq]
      exact ⟨hparts.map_length_payloads, hparts.encode_eq⟩

/-- A payload of filler octets and one without octets are told from the filler behind them. -/
theorem reassembly_round_trip_filler :
    let payloads : List Octets := [[0xFF, 0x07], [], [0x55, 0x55], [1]]
    let frames := (({} : Reassembler).reassemble (Envelope.encode payloads [0, 0, 0])).2.frames
    frames.payloads = payloads ∧ frames.payloadLengths = [2, 0, 2, 1] := by
  intro payloads frames
  obtain ⟨-, hpayloads, hlengths⟩ :=
    reassembly_round_trip.1 {} payloads [0, 0, 0] rfl (by decide)
  exact ⟨hpayloads, hlengths⟩

end Reassembler

end EnsembleTransport
