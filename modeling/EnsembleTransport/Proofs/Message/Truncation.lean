import EnsembleTransport.Proofs.Message.RoundTrip

/-!
# Messages that were cut short

A cut behind the payloads costs octets of the metadata and nothing else. A cut in front of the end
of the payloads is always found out: the header is incomplete, or a payload runs over the end.
-/

namespace EnsembleTransport

open Layout

namespace Envelope

theorem parse_take {message : Octets} {envelope : Envelope} (h : parse message = .ok envelope)
    {limit : Nat} (hlimit : headerSize ≤ limit) : parse (message.take limit) = .ok envelope := by
  have hannounces := announces_of_parse h
  have hversion := version_of_parse h
  have hheader : header envelope.lengths ++ (message.take limit).drop headerSize =
      message.take limit := by
    have htake : (message.take limit).take headerSize = message.take headerSize := by
      rw [List.take_take, Nat.min_eq_left hlimit]
    rw [header_of_announces hannounces, ← htake, List.take_append_drop]
  have hshort := announces_header hannounces.length_lengths hannounces.le_frameSize
    ((message.take limit).drop headerSize)
  rw [hheader] at hshort
  cases envelope
  cases hversion
  exact parse_of_announces hshort rfl

end Envelope

namespace SplitMessage

/-- A message that ends in front of the end of its payloads is refused at the payload in which it
ends. -/
theorem cut_of_overrun {message : Octets} {index offset : Nat} {lengths : List Nat}
    (hoffset : offset ≤ message.length) (hover : message.length < offset + lengths.sum) :
    ∃ i length, lengths[i]? = some length ∧ offset + (lengths.take i).sum ≤ message.length ∧
      message.length < offset + (lengths.take i).sum + length ∧
      cut message index offset lengths = .error
        (.payloadOverrun (index + i) (offset + (lengths.take i).sum) length message.length) := by
  induction lengths generalizing index offset with
  | nil =>
    rw [List.sum_nil] at hover
    omega
  | cons length lengths ih =>
    by_cases hfits : offset + length ≤ message.length
    · rw [List.sum_cons] at hover
      obtain ⟨i, found, hfound, hbegin, hend, hcut⟩ := @ih (index + 1) _ hfits (by omega)
      refine ⟨i + 1, found, hfound, ?_, ?_, ?_⟩
      · rwa [List.take_succ_cons, List.sum_cons, ← Nat.add_assoc]
      · rwa [List.take_succ_cons, List.sum_cons, ← Nat.add_assoc]
      · rw [cut, if_pos hfits, hcut, List.take_succ_cons, List.sum_cons, ← Nat.add_assoc offset,
          Nat.add_comm i 1, ← Nat.add_assoc index]
        rfl
    · refine ⟨0, length, rfl, hoffset, by simpa using hfits, ?_⟩
      rw [cut, if_neg hfits]
      rfl

namespace Parts

variable {message : Octets} {parts : SplitMessage}

theorem envelope_eq (h : Parts message parts) :
    parts.envelope = ⟨envelopeVersion, parts.payloads.map List.length⟩ := by
  rw [h.map_length_payloads, ← Envelope.version_of_parse h.parse]

theorem ofMessage_encode (h : Parts message parts) (metadata : Octets) :
    ofMessage (Envelope.encode parts.payloads metadata) = .ok { parts with metadata } := by
  rw [SplitMessage.ofMessage_encode metadata h.length_payloads h.fits, ← h.envelope_eq]

theorem append_eq (h : Parts message parts) (more : Octets) :
    message ++ more = Envelope.encode parts.payloads (parts.metadata ++ more) := by
  rw [Envelope.encode, ← List.append_assoc]
  exact congrArg (· ++ more) h.encode_eq.symm

theorem take_eq (h : Parts message parts) {limit : Nat}
    (hlimit : parts.envelope.payloadEnd ≤ limit) :
    message.take limit = Envelope.encode parts.payloads
      (parts.metadata.take (limit - parts.envelope.payloadEnd)) := by
  have hfront : (Envelope.header (parts.payloads.map List.length) ++
      parts.payloads.flatten).length = parts.envelope.payloadEnd := by
    rw [List.length_append, Envelope.length_header, List.length_flatten, h.map_length_payloads]
    · rfl
    · rw [List.length_map, h.length_payloads]
  have htake := congrArg (List.take limit) h.encode_eq
  rw [Envelope.encode, List.take_append, hfront, List.take_of_length_le (by omega)]
    at htake
  exact htake.symm

end Parts

variable {message : Octets} {parts : SplitMessage}

theorem ofMessage_append (h : ofMessage message = .ok parts) (more : Octets) :
    ofMessage (message ++ more) = .ok { parts with metadata := parts.metadata ++ more } := by
  have hparts := parts_of_ofMessage h
  rw [hparts.append_eq, hparts.ofMessage_encode]

/-- A cut behind the payloads shortens the metadata. -/
theorem ofMessage_take (h : ofMessage message = .ok parts) {limit : Nat}
    (hlimit : parts.envelope.payloadEnd ≤ limit) : ofMessage (message.take limit) =
      .ok { parts with metadata := parts.metadata.take (limit - parts.envelope.payloadEnd) } := by
  have hparts := parts_of_ofMessage h
  rw [hparts.take_eq hlimit, hparts.ofMessage_encode]

/-- No cut makes a message acceptable. -/
theorem exists_fault_take {fault : MessageFault} (h : ofMessage message = .error fault)
    (limit : Nat) : ∃ fault, ofMessage (message.take limit) = .error fault := by
  cases hshort : ofMessage (message.take limit) with
  | error fault => exact ⟨fault, rfl⟩
  | ok parts =>
    have hwhole := ofMessage_append hshort (message.drop limit)
    rw [List.take_append_drop, h] at hwhole
    cases hwhole

theorem ofMessage_take_of_lt_header (message : Octets) {limit : Nat} (hlimit : limit < headerSize)
    (hlength : limit ≤ message.length) :
    ofMessage (message.take limit) = .error (.shortMessage headerSize limit) := by
  have hshort : (message.take limit).length = limit := by
    rw [List.length_take, Nat.min_eq_left hlength]
  rw [ofMessage, Envelope.parse, if_pos (by omega), hshort]
  rfl

theorem ofMessage_take_of_lt_payloadEnd (h : ofMessage message = .ok parts) {limit : Nat}
    (hheader : headerSize ≤ limit) (hlimit : limit < parts.envelope.payloadEnd) :
    ∃ i length, parts.envelope.lengths[i]? = some length ∧
      headerSize + (parts.envelope.lengths.take i).sum ≤ limit ∧
      limit < headerSize + (parts.envelope.lengths.take i).sum + length ∧
      ofMessage (message.take limit) = .error
        (.payloadOverrun i (headerSize + (parts.envelope.lengths.take i).sum) length limit) := by
  have hparts := parts_of_ofMessage h
  have hshort : (message.take limit).length = limit := by
    have hend := hparts.payloadEnd_le
    rw [List.length_take, Nat.min_eq_left (by omega)]
  have hover : (message.take limit).length < headerSize + parts.envelope.lengths.sum := by
    rw [hshort]
    exact hlimit
  obtain ⟨i, length, hlength, hbegin, hend, hcut⟩ :=
    @cut_of_overrun _ 0 _ _ (by omega) hover
  rw [hshort] at hbegin hend hcut
  refine ⟨i, length, hlength, hbegin, hend, ?_⟩
  rw [ofMessage, Envelope.parse_take hparts.parse hheader, Fallible.ok_bind, hcut, Nat.zero_add]
  rfl

end SplitMessage

end EnsembleTransport
