import EnsembleTransport.Proofs.Message.Acceptance
import EnsembleTransport.Proofs.Message.Windows

/-!
# Reassembly over a buffer in use

The frames of a reassembler are written over what earlier messages left. A frame set that holds
some payloads has exactly these payloads and filler in it, and every operation on a reassembler
ends in such a frame set. What a message comes to is therefore a matter of this message alone.
-/

namespace EnsembleTransport

open Layout

namespace FrameSet

/-- A payload followed by filler, as long as a frame. -/
def pad (payload : Octets) : Octets :=
  payload ++ List.replicate (frameSize - payload.length) filler

theorem length_pad {payload : Octets} (h : payload.length ≤ frameSize) :
    (pad payload).length = frameSize := by
  rw [pad, List.length_append, List.length_replicate]
  omega

theorem pad_nil : pad [] = List.replicate frameSize filler := rfl

theorem getElem?_pad {payload : Octets} {j : Nat} (hpayload : payload.length ≤ j)
    (hj : j < frameSize) : (pad payload)[j]? = some filler := by
  rw [pad, List.getElem?_append_right hpayload, List.getElem?_replicate, if_pos (by omega)]

/-- The frames hold these payloads and nothing but filler behind each of them. -/
structure Holds (frames : FrameSet) (payloads : List Octets) : Prop where
  length_payloads : payloads.length = framesPerMessage
  fits : ∀ payload ∈ payloads, payload.length ≤ frameSize
  bytes_eq : frames.bytes = (payloads.map pad).flatten
  payloadLengths_eq : frames.payloadLengths = payloads.map List.length

theorem refill?_eq {frame payload : Octets} (hframe : frame.length = frameSize)
    (hfits : payload.length ≤ frameSize) : refill? frame payload = some (pad payload) := by
  have hwritten : Octets.overwrite? frame payload =
      some (payload ++ frame.drop payload.length) := by
    rw [Octets.overwrite?, if_pos (by omega)]
  rw [refill?, hwritten]
  simp only [Option.bind_eq_bind, Option.bind_some, Octets.fillFrom?, List.length_append,
    List.length_drop, Nat.le_add_right, if_true, List.take_left, pad, Option.some.injEq,
    List.append_cancel_left_eq]
  congr 1
  omega

theorem refillAll?_eq {buffer : Octets} {payloads : List Octets} {lengths : List Nat}
    (hbuffer : buffer.length = payloads.length * frameSize)
    (hlengths : lengths.length = payloads.length)
    (hfits : ∀ payload ∈ payloads, payload.length ≤ frameSize) :
    refillAll? buffer payloads lengths =
      some ((payloads.map pad).flatten, payloads.map List.length) := by
  induction payloads generalizing buffer lengths with
  | nil =>
    rw [List.length_nil, Nat.zero_mul] at hbuffer
    simp [refillAll?, List.length_eq_zero_iff.mp hbuffer, List.length_eq_zero_iff.mp hlengths]
  | cons payload payloads ih =>
    cases lengths with
    | nil => cases hlengths
    | cons length lengths =>
      rw [List.length_cons, Nat.succ_mul] at hbuffer
      have hframe : frameSize ≤ buffer.length := by omega
      have hfirst : refill? (buffer.take frameSize) payload = some (pad payload) :=
        refill?_eq (by rw [List.length_take]; omega) (hfits payload List.mem_cons_self)
      have hdrop : (buffer.drop frameSize).length = payloads.length * frameSize := by
        rw [List.length_drop]
        omega
      have hbehind := ih hdrop (Nat.succ.inj hlengths)
        (fun p hp => hfits p (List.mem_cons_of_mem _ hp))
      rw [refillAll?, if_pos hframe, hfirst, Option.bind_eq_bind, Option.bind_some, hbehind]
      rfl

/-- Payloads that fit are written without a slice out of bounds, over frames in any state. -/
theorem load?_eq_some (frames : FrameSet) {payloads : List Octets}
    (hcount : payloads.length = framesPerMessage)
    (hfits : ∀ payload ∈ payloads, payload.length ≤ frameSize) :
    ∃ loaded, frames.load? payloads = some loaded ∧ loaded.Holds payloads := by
  have hall := refillAll?_eq (frames.length_bytes.trans (by rw [hcount]))
    (frames.length_payloadLengths.trans hcount.symm) hfits
  unfold load?
  split
  · rename_i hnone
    rw [hall] at hnone
    cases hnone
  · rename_i bytes lengths hsome
    rw [hall] at hsome
    cases hsome
    exact ⟨_, rfl, hcount, hfits, rfl, rfl⟩

theorem holds_nothing {frames : FrameSet}
    (hbytes : frames.bytes = List.replicate (framesPerMessage * frameSize) filler)
    (hlengths : frames.payloadLengths = List.replicate framesPerMessage 0) :
    frames.Holds (List.replicate framesPerMessage []) := by
  refine ⟨List.length_replicate, ?_, ?_, ?_⟩
  · intro payload hpayload
    rw [List.eq_of_mem_replicate hpayload]
    exact Nat.zero_le _
  · rw [hbytes, List.map_replicate, pad_nil, List.flatten_replicate_replicate]
  · rw [hlengths, List.map_replicate]
    rfl

theorem empty_holds : empty.Holds (List.replicate framesPerMessage []) := holds_nothing rfl rfl

theorem reset_holds (frames : FrameSet) :
    frames.reset.Holds (List.replicate framesPerMessage []) :=
  holds_nothing (congrArg (List.replicate · filler) frames.length_bytes) rfl

namespace Holds

variable {frames : FrameSet} {payloads : List Octets}

theorem unique {other : FrameSet} (h : frames.Holds payloads) (hother : other.Holds payloads) :
    frames = other := by
  cases frames
  cases other
  rw [mk.injEq]
  exact ⟨h.bytes_eq.trans hother.bytes_eq.symm,
    h.payloadLengths_eq.trans hother.payloadLengths_eq.symm⟩

theorem frameList_eq (h : frames.Holds payloads) : frames.frameList = payloads.map pad := by
  apply frameList_of_flatten h.bytes_eq
  · rw [List.length_map, h.length_payloads]
  · intro piece hpiece
    obtain ⟨payload, hpayload, rfl⟩ := List.mem_map.mp hpiece
    exact length_pad (h.fits payload hpayload)

theorem frame?_eq (h : frames.Holds payloads) (i : Nat) :
    frames.frame? i = payloads[i]?.map pad := by
  rw [frame?_eq_getElem?, h.frameList_eq, List.getElem?_map]

theorem payloadLength_eq (h : frames.Holds payloads) (i : Nat) :
    frames.payloadLength i = (payloads[i]?.map List.length).getD 0 := by
  rw [payloadLength, h.payloadLengths_eq, List.getD_eq_getElem?_getD, List.getElem?_map]

end Holds

/-- What is true of the frames at any time. -/
structure Canonical (frames : FrameSet) : Prop where
  length_bytes : frames.bytes.length = 4 * 6144
  bytes_eq : ∃ a b c d, frames.frame? 0 = some a ∧ frames.frame? 1 = some b ∧
    frames.frame? 2 = some c ∧ frames.frame? 3 = some d ∧ frames.bytes = a ++ b ++ c ++ d
  frame?_isSome : ∀ i, (frames.frame? i).isSome ↔ i < 4
  length_frame : ∀ i frame, frames.frame? i = some frame → frame.length = 6144
  payloadLength_le : ∀ i, frames.payloadLength i ≤ 6144
  filler_behind : ∀ i frame, frames.frame? i = some frame →
    ∀ j, frames.payloadLength i ≤ j → j < 6144 → frame[j]? = some 0x55

theorem Holds.canonical {frames : FrameSet} {payloads : List Octets} (h : frames.Holds payloads) :
    frames.Canonical where
  length_bytes := frames.length_bytes
  bytes_eq := by
    have hlist := length_frameList frames
    obtain ⟨a, b, c, d, habcd⟩ : ∃ a b c d, frames.frameList = [a, b, c, d] := by
      match frames.frameList, hlist with
      | [a, b, c, d], _ => exact ⟨a, b, c, d, rfl⟩
    refine ⟨a, b, c, d, ?_, ?_, ?_, ?_, ?_⟩
    all_goals simp [frame?_eq_getElem?, habcd, ← flatten_frameList]
  frame?_isSome i := by
    rw [frame?_eq_getElem?, isSome_getElem?, length_frameList]
    exact Iff.rfl
  length_frame i frame hframe := by
    rw [h.frame?_eq] at hframe
    obtain ⟨payload, hpayload, rfl⟩ := Option.map_eq_some_iff.mp hframe
    exact length_pad (h.fits payload (List.mem_of_getElem? hpayload))
  payloadLength_le i := by
    rw [h.payloadLength_eq]
    cases hpayload : payloads[i]? with
    | none => exact Nat.zero_le _
    | some payload => exact h.fits payload (List.mem_of_getElem? hpayload)
  filler_behind i frame hframe j hj hsize := by
    rw [h.frame?_eq] at hframe
    obtain ⟨payload, hpayload, rfl⟩ := Option.map_eq_some_iff.mp hframe
    rw [h.payloadLength_eq, hpayload] at hj
    exact getElem?_pad hj hsize

end FrameSet

namespace Reassembler

variable {message : Octets}

/-- An accepted message leaves its payloads, over any earlier state. -/
theorem reassemble_of_parts (r : Reassembler) {parts : SplitMessage}
    (h : SplitMessage.ofMessage message = .ok parts) :
    (r.reassemble message).1 = .ok ⟨parts.envelope, parts.metadata⟩ ∧
      (r.reassemble message).2.frames.Holds parts.payloads := by
  have hparts := SplitMessage.parts_of_ofMessage h
  obtain ⟨loaded, hload, hholds⟩ := r.frames.load?_eq_some hparts.length_payloads hparts.fits
  simp only [reassemble, h, hload, Option.getD_some, true_and]
  exact hholds

/-- A refused message leaves nothing but filler, over any earlier state. -/
theorem reassemble_of_fault (r : Reassembler) {fault : MessageFault}
    (h : SplitMessage.ofMessage message = .error fault) :
    (r.reassemble message).1 = .error fault ∧
      (r.reassemble message).2.frames.Holds (List.replicate framesPerMessage []) := by
  simp only [reassemble, h, true_and]
  exact r.frames.reset_holds

theorem reassemble_congr (r other : Reassembler) (message : Octets) :
    r.reassemble message = other.reassemble message := by
  cases hsplit : SplitMessage.ofMessage message with
  | error fault =>
    obtain ⟨hr, hrframes⟩ := r.reassemble_of_fault hsplit
    obtain ⟨hother, hotherframes⟩ := other.reassemble_of_fault hsplit
    exact Prod.ext (hr.trans hother.symm)
      (congrArg Reassembler.mk (hrframes.unique hotherframes))
  | ok parts =>
    obtain ⟨hr, hrframes⟩ := r.reassemble_of_parts hsplit
    obtain ⟨hother, hotherframes⟩ := other.reassemble_of_parts hsplit
    exact Prod.ext (hr.trans hother.symm)
      (congrArg Reassembler.mk (hrframes.unique hotherframes))

theorem reassemble_holds (r : Reassembler) (message : Octets) :
    ∃ payloads, (r.reassemble message).2.frames.Holds payloads := by
  cases hsplit : SplitMessage.ofMessage message with
  | error fault => exact ⟨_, (r.reassemble_of_fault hsplit).2⟩
  | ok parts => exact ⟨_, (r.reassemble_of_parts hsplit).2⟩

theorem feed_holds {r : Reassembler} (hr : ∃ payloads, r.frames.Holds payloads)
    (messages : List Octets) : ∃ payloads, (r.feed messages).frames.Holds payloads := by
  induction messages generalizing r with
  | nil => exact hr
  | cons message messages ih => exact ih (r.reassemble_holds message)

/-- The frames that an accepted message is to leave, told from the message and its header. -/
structure Delivered (message : Octets) (envelope : Envelope) (metadata : Octets)
    (frames : FrameSet) : Prop where
  parse : Envelope.parse message = .ok envelope
  length_lengths : envelope.lengths.length = 4
  payloadEnd_le : envelope.payloadEnd ≤ message.length
  frame : ∀ i (h : i < envelope.lengths.length), frames.frame? i = some
    (Octets.window message (12 + (envelope.lengths.take i).sum) envelope.lengths[i] ++
      List.replicate (6144 - envelope.lengths[i]) 0x55)
  payloadLengths_eq : frames.payloadLengths = envelope.lengths
  totalPayload_eq : frames.totalPayload = envelope.payloadLength
  metadata_eq : metadata = message.drop envelope.payloadEnd

theorem delivered_of_parts {parts : SplitMessage} {frames : FrameSet}
    (h : SplitMessage.Parts message parts) (hframes : frames.Holds parts.payloads) :
    Delivered message parts.envelope parts.metadata frames where
  parse := h.parse
  length_lengths := h.announces.length_lengths
  payloadEnd_le := h.payloadEnd_le
  frame i hi := by
    have hpayload := SplitMessage.getElem?_slices message headerSize parts.envelope.lengths i
    rw [← h.payloads_eq, List.getElem?_eq_getElem hi, Option.map_some] at hpayload
    have hlength := congrArg (·[i]?) h.map_length_payloads
    simp only [List.getElem?_map, hpayload, List.getElem?_eq_getElem hi, Option.map_some,
      Option.some.injEq] at hlength
    rw [hframes.frame?_eq, hpayload, Option.map_some, FrameSet.pad, hlength]
    rfl
  payloadLengths_eq := hframes.payloadLengths_eq.trans h.map_length_payloads
  totalPayload_eq := by
    rw [FrameSet.totalPayload, hframes.payloadLengths_eq, h.map_length_payloads]
    rfl
  metadata_eq := h.metadata_eq

/-- After any history, the answer to a message and the frames it leaves depend on this message
alone. At any time the frames are canonical, and no slice ever goes out of bounds. -/
theorem reassemble_after_history (history : List Octets) (message : Octets) :
    let before := feed {} history
    let answer := (before.reassemble message).1
    let after := (before.reassemble message).2.frames
    (∀ other : Reassembler, other.reassemble message = before.reassemble message) ∧
    (∀ envelope metadata, answer = .ok ⟨envelope, metadata⟩ →
      Delivered message envelope metadata after) ∧
    (∀ fault, answer = .error fault →
      after.bytes = List.replicate 24576 0x55 ∧ after.payloadLengths = [0, 0, 0, 0]) ∧
    before.frames.Canonical ∧
    (∀ parts, SplitMessage.ofMessage message = .ok parts →
      (before.frames.load? parts.payloads).isSome) := by
  intro before answer after
  refine ⟨fun other => other.reassemble_congr before message, ?_, ?_, ?_, ?_⟩
  · intro envelope metadata hanswer
    cases hsplit : SplitMessage.ofMessage message with
    | error fault =>
      obtain ⟨hfault, _⟩ := before.reassemble_of_fault hsplit
      cases hfault.symm.trans hanswer
    | ok parts =>
      obtain ⟨hok, hframes⟩ := before.reassemble_of_parts hsplit
      cases hok.symm.trans hanswer
      exact delivered_of_parts (SplitMessage.parts_of_ofMessage hsplit) hframes
  · intro fault hanswer
    cases hsplit : SplitMessage.ofMessage message with
    | error _ =>
      obtain ⟨_, hframes⟩ := before.reassemble_of_fault hsplit
      exact ⟨hframes.bytes_eq.trans (by
        rw [List.map_replicate, FrameSet.pad_nil, List.flatten_replicate_replicate]; rfl),
        hframes.payloadLengths_eq⟩
    | ok parts =>
      obtain ⟨hok, _⟩ := before.reassemble_of_parts hsplit
      cases hok.symm.trans hanswer
  · obtain ⟨payloads, hpayloads⟩ := feed_holds ⟨_, FrameSet.empty_holds⟩ history
    exact hpayloads.canonical
  · intro parts hsplit
    have hparts := SplitMessage.parts_of_ofMessage hsplit
    obtain ⟨loaded, hload, _⟩ :=
      before.frames.load?_eq_some hparts.length_payloads hparts.fits
    rw [hload]
    rfl

end Reassembler

end EnsembleTransport
