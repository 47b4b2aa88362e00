import EnsembleTransport.Reassembly

/-!
# Accepted messages

A message is accepted when its header is and the payloads it announces lie inside it. The payloads
are then consecutive slices behind the header, and the metadata is everything behind them.
-/

namespace EnsembleTransport

open Layout

namespace Fallible

variable {ε α β : Type}

@[simp] theorem ok_bind (a : α) (f : α → Except ε β) : (.ok a >>= f) = f a := rfl

theorem bind_eq_ok_iff {x : Except ε α} {f : α → Except ε β} {b : β} :
    (x >>= f) = .ok b ↔ ∃ a, x = .ok a ∧ f a = .ok b := by
  cases x with
  | error e => simp [bind, Except.bind]
  | ok a => simp [bind, Except.bind]

theorem mapM_eq_ok_iff {f : α → Except ε β} {members : List α} {results : List β} :
    members.mapM f = .ok results ↔ members.map f = results.map .ok := by
  induction members generalizing results with
  | nil => cases results <;> simp [pure, Except.pure]
  | cons member members ih =>
    rw [List.mapM_cons, bind_eq_ok_iff]
    constructor
    · rintro ⟨result, hresult, hrest⟩
      obtain ⟨rest, hmembers, hresults⟩ := bind_eq_ok_iff.mp hrest
      cases hresults
      rw [List.map_cons, List.map_cons, hresult, ih.mp hmembers]
    · intro h
      cases results with
      | nil => simp at h
      | cons result rest =>
        rw [List.map_cons, List.map_cons, List.cons.injEq] at h
        exact ⟨result, h.1, bind_eq_ok_iff.mpr ⟨rest, ih.mpr h.2, rfl⟩⟩

end Fallible

namespace Envelope

theorem checkLength_eq_ok {message : Octets} {index length : Nat}
    (h : checkLength message index = .ok length) :
    declaredLength message index = length ∧ length ≤ frameSize := by
  simp only [checkLength] at h
  split at h
  · cases h
    omega
  · cases h

/-- What an accepted header says. -/
structure Announces (message : Octets) (envelope : Envelope) : Prop where
  complete : headerSize ≤ message.length
  version : declaredVersion message = envelopeVersion
  length_lengths : envelope.lengths.length = framesPerMessage
  declared : ∀ i (h : i < envelope.lengths.length),
    declaredLength message i = envelope.lengths[i] ∧ envelope.lengths[i] ≤ frameSize

theorem announces_of_parse {message : Octets} {envelope : Envelope}
    (h : parse message = .ok envelope) : Announces message envelope := by
  unfold parse at h
  split at h
  · cases h
  · rename_i hcomplete
    split at h
    · cases h
    · rename_i hversion
      obtain ⟨lengths, hlengths, henvelope⟩ := Fallible.bind_eq_ok_iff.mp h
      cases henvelope
      have hchecked := Fallible.mapM_eq_ok_iff.mp hlengths
      have hcount : lengths.length = framesPerMessage := by
        simpa using (congrArg List.length hchecked).symm
      refine ⟨Nat.le_of_not_lt hcomplete, Decidable.of_not_not hversion, hcount, ?_⟩
      intro i hi
      have hentry : checkLength message i = .ok lengths[i] := by
        have := congrArg (·[i]?) hchecked
        simpa [List.getElem?_range, hi, ← hcount] using this
      exact checkLength_eq_ok hentry

theorem checkLength_of_declared {message : Octets} {index length : Nat}
    (h : declaredLength message index = length) (hle : length ≤ frameSize) :
    checkLength message index = .ok length := by
  have hbounds : 0 ≤ (length : Int) ∧ (length : Int) ≤ frameSize := by omega
  simp only [checkLength, h, if_pos hbounds, Int.toNat_natCast]

theorem parse_of_announces {message : Octets} {envelope : Envelope}
    (h : Announces message envelope) (hversion : envelope.version = envelopeVersion) :
    parse message = .ok envelope := by
  have hlengths : (List.range framesPerMessage).mapM (checkLength message) =
      .ok envelope.lengths := by
    rw [Fallible.mapM_eq_ok_iff, ← h.length_lengths]
    apply List.ext_getElem
    · rw [List.length_map, List.length_map, List.length_range]
    · intro i _ hi
      rw [List.length_map] at hi
      obtain ⟨hdeclared, hle⟩ := h.declared i hi
      rw [List.getElem_map, List.getElem_map, List.getElem_range]
      exact checkLength_of_declared hdeclared hle
  have haccepted : ¬ declaredVersion message ≠ envelopeVersion := fun hne => hne h.version
  rw [parse, if_neg (Nat.not_lt.mpr h.complete), if_neg haccepted, hlengths, h.version,
    ← hversion]
  rfl

theorem version_of_parse {message : Octets} {envelope : Envelope}
    (h : parse message = .ok envelope) : envelope.version = envelopeVersion := by
  have hversion := (announces_of_parse h).version
  unfold parse at h
  split at h
  · cases h
  · split at h
    · cases h
    · obtain ⟨_, _, henvelope⟩ := Fallible.bind_eq_ok_iff.mp h
      cases henvelope
      exact hversion

theorem Announces.le_frameSize {message : Octets} {envelope : Envelope}
    (h : Announces message envelope) : ∀ length ∈ envelope.lengths, length ≤ frameSize := by
  intro length hlength
  obtain ⟨i, hi, rfl⟩ := List.getElem_of_mem hlength
  exact (h.declared i hi).2

end Envelope

namespace SplitMessage

/-- Consecutive slices of a message of the given lengths. -/
def slices (message : Octets) : (offset : Nat) → List Nat → List Octets
  | _, [] => []
  | offset, length :: lengths =>
    Octets.window message offset length :: slices message (offset + length) lengths

theorem length_slices (message : Octets) (offset : Nat) (lengths : List Nat) :
    (slices message offset lengths).length = lengths.length := by
  induction lengths generalizing offset with
  | nil => rfl
  | cons length lengths ih => rw [slices, List.length_cons, ih, List.length_cons]

theorem getElem?_slices (message : Octets) (offset : Nat) (lengths : List Nat) (i : Nat) :
    (slices message offset lengths)[i]? =
      lengths[i]?.map (Octets.window message (offset + (lengths.take i).sum)) := by
  induction lengths generalizing offset i with
  | nil => rfl
  | cons length lengths ih =>
    cases i with
    | zero => simp [slices]
    | succ i =>
      simp only [slices, List.getElem?_cons_succ, List.take_succ_cons, List.sum_cons]
      rw [ih, Nat.add_assoc]

theorem map_length_slices {message : Octets} {offset : Nat} {lengths : List Nat}
    (h : offset + lengths.sum ≤ message.length) :
    (slices message offset lengths).map List.length = lengths := by
  induction lengths generalizing offset with
  | nil => rfl
  | cons length lengths ih =>
    rw [List.sum_cons] at h
    have hfirst : (Octets.window message offset length).length = length := by
      simp only [Octets.window, List.length_take, List.length_drop]
      omega
    rw [slices, List.map_cons, hfirst, ih (by omega)]

/-- Cutting succeeds exactly when all payloads lie inside the message. -/
theorem cut_eq_ok_iff {message metadata : Octets} {index offset : Nat} {lengths : List Nat}
    {payloads : List Octets} (hoffset : offset ≤ message.length) :
    cut message index offset lengths = .ok (payloads, metadata) ↔
      offset + lengths.sum ≤ message.length ∧ payloads = slices message offset lengths ∧
        metadata = message.drop (offset + lengths.sum) := by
  induction lengths generalizing index offset payloads metadata with
  | nil => simp [cut, slices, hoffset, eq_comm]
  | cons length lengths ih =>
    rw [cut, List.sum_cons]
    by_cases hfits : offset + length ≤ message.length
    · rw [if_pos hfits, Fallible.bind_eq_ok_iff]
      constructor
      · rintro ⟨⟨rest, behind⟩, hrest, hpair⟩
        cases hpair
        obtain ⟨hle, rfl, rfl⟩ := (ih hfits).mp hrest
        exact ⟨by omega, rfl, by rw [Nat.add_assoc]⟩
      · rintro ⟨hle, rfl, rfl⟩
        rw [← Nat.add_assoc] at hle ⊢
        exact ⟨_, (ih hfits).mpr ⟨hle, rfl, rfl⟩, rfl⟩
    · rw [if_neg hfits]
      constructor
      · intro h
        cases h
      · rintro ⟨hle, _⟩
        omega

/-- How an accepted message is taken apart. -/
structure Parts (message : Octets) (parts : SplitMessage) : Prop where
  parse : Envelope.parse message = .ok parts.envelope
  announces : Envelope.Announces message parts.envelope
  payloadEnd_le : parts.envelope.payloadEnd ≤ message.length
  payloads_eq : parts.payloads = slices message headerSize parts.envelope.lengths
  metadata_eq : parts.metadata = message.drop parts.envelope.payloadEnd

theorem parts_of_ofMessage {message : Octets} {parts : SplitMessage}
    (h : ofMessage message = .ok parts) : Parts message parts := by
  obtain ⟨envelope, hparse, h⟩ := Fallible.bind_eq_ok_iff.mp h
  obtain ⟨⟨payloads, metadata⟩, hcut, h⟩ := Fallible.bind_eq_ok_iff.mp h
  cases h
  have hannounces := Envelope.announces_of_parse hparse
  obtain ⟨hle, hpayloads, hmetadata⟩ := (cut_eq_ok_iff hannounces.complete).mp hcut
  exact ⟨hparse, hannounces, hle, hpayloads, hmetadata⟩

theorem ofMessage_of_announces {message : Octets} {envelope : Envelope}
    (h : Envelope.Announces message envelope) (hversion : envelope.version = envelopeVersion)
    (hend : envelope.payloadEnd ≤ message.length) :
    ofMessage message = .ok
      ⟨envelope, slices message headerSize envelope.lengths, message.drop envelope.payloadEnd⟩ := by
  have hcut : cut message 0 headerSize envelope.lengths = .ok
      (slices message headerSize envelope.lengths, message.drop envelope.payloadEnd) :=
    (cut_eq_ok_iff h.complete).mpr ⟨hend, rfl, rfl⟩
  exact Fallible.bind_eq_ok_iff.mpr ⟨envelope, Envelope.parse_of_announces h hversion,
    Fallible.bind_eq_ok_iff.mpr ⟨_, hcut, rfl⟩⟩

namespace Parts

variable {message : Octets} {parts : SplitMessage}

theorem map_length_payloads (h : Parts message parts) :
    parts.payloads.map List.length = parts.envelope.lengths := by
  rw [h.payloads_eq]
  exact map_length_slices h.payloadEnd_le

theorem length_payloads (h : Parts message parts) : parts.payloads.length = framesPerMessage := by
  rw [h.payloads_eq, length_slices, h.announces.length_lengths]

theorem fits (h : Parts message parts) :
    ∀ payload ∈ parts.payloads, payload.length ≤ frameSize := by
  intro payload hpayload
  apply h.announces.le_frameSize
  rw [← h.map_length_payloads]
  exact List.mem_map_of_mem hpayload

end Parts

end SplitMessage

end EnsembleTransport
