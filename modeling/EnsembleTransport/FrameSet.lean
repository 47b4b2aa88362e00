import EnsembleTransport.Envelope

/-!
# The frames of one message

A frame set holds four canonical frames back to back in one buffer, which is kept from message to
message. A load rewrites it frame by frame: the payload goes over the front of the frame, filler
over everything behind it. A reset leaves nothing but filler.
-/

namespace EnsembleTransport

open Layout

structure FrameSet where
  /-- All frames back to back, as they are written out. -/
  bytes : Octets
  payloadLengths : List Nat
  length_bytes : bytes.length = framesPerMessage * frameSize
  length_payloadLengths : payloadLengths.length = framesPerMessage
deriving DecidableEq, Repr

namespace FrameSet

def empty : FrameSet where
  bytes := List.replicate (framesPerMessage * frameSize) filler
  payloadLengths := List.replicate framesPerMessage 0
  length_bytes := List.length_replicate
  length_payloadLengths := List.length_replicate

/-- Every octet becomes filler, and no frame has a payload. -/
def reset (frames : FrameSet) : FrameSet where
  bytes := List.replicate frames.bytes.length filler
  payloadLengths := List.replicate framesPerMessage 0
  length_bytes := List.length_replicate.trans frames.length_bytes
  length_payloadLengths := List.length_replicate

/-- Rewrites a frame with a payload and filler; none where the payload does not fit. -/
def refill? (frame payload : Octets) : Option Octets := do
  let written ← Octets.overwrite? frame payload
  Octets.fillFrom? written payload.length filler

/-- Rewrites the buffer frame by frame and the lengths along with it, until the frames, the
payloads or the lengths come to an end. -/
def refillAll? : (buffer : Octets) → List Octets → List Nat → Option (Octets × List Nat)
  | buffer, payload :: payloads, length :: lengths =>
    if frameSize ≤ buffer.length then do
      let frame ← refill? (buffer.take frameSize) payload
      let (behind, rest) ← refillAll? (buffer.drop frameSize) payloads lengths
      return (frame ++ behind, payload.length :: rest)
    else some (buffer, length :: lengths)
  | buffer, _, lengths => some (buffer, lengths)

theorem length_refill? {frame payload refilled : Octets}
    (h : refill? frame payload = some refilled) :
    refilled.length = frame.length := by
  simp only [refill?, Octets.overwrite?, Octets.fillFrom?, Option.bind_eq_bind,
    Option.bind_eq_some_iff, Option.ite_none_right_eq_some, Option.some.injEq] at h
  obtain ⟨written, ⟨hfits, rfl⟩, _, rfl⟩ := h
  simp only [List.length_append, List.length_take, List.length_drop, List.length_replicate]
  omega

/-- Neither the buffer nor the list of lengths grows or shrinks. -/
theorem length_refillAll? {buffer bytes : Octets} {payloads : List Octets} {lengths rest : List Nat}
    (h : refillAll? buffer payloads lengths = some (bytes, rest)) :
    bytes.length = buffer.length ∧ rest.length = lengths.length := by
  induction payloads generalizing buffer bytes lengths rest with
  | nil =>
    simp only [refillAll?, Option.some.injEq, Prod.mk.injEq] at h
    exact ⟨congrArg _ h.1.symm, congrArg _ h.2.symm⟩
  | cons payload payloads ih =>
    cases lengths with
    | nil =>
      simp only [refillAll?, Option.some.injEq, Prod.mk.injEq] at h
      exact ⟨congrArg _ h.1.symm, congrArg _ h.2.symm⟩
    | cons length lengths =>
      rw [refillAll?] at h
      split at h
      · rename_i hframe
        simp only [Option.bind_eq_bind, Option.bind_eq_some_iff, Option.pure_def, Option.some.injEq,
          Prod.mk.injEq, Prod.exists] at h
        obtain ⟨frame, hfirst, behind, others, hothers, rfl, rfl⟩ := h
        have hfirst := length_refill? hfirst
        obtain ⟨hbehind, hrest⟩ := ih hothers
        simp only [List.length_append, List.length_take, List.length_drop, List.length_cons] at *
        omega
      · simp only [Option.some.injEq, Prod.mk.injEq] at h
        exact ⟨congrArg _ h.1.symm, congrArg _ h.2.symm⟩

def load? (frames : FrameSet) (payloads : List Octets) : Option FrameSet :=
  match h : refillAll? frames.bytes payloads frames.payloadLengths with
  | none => none
  | some (bytes, payloadLengths) => some {
      bytes, payloadLengths
      length_bytes := (length_refillAll? h).1.trans frames.length_bytes
      length_payloadLengths := (length_refillAll? h).2.trans frames.length_payloadLengths }

def frame? (frames : FrameSet) (index : Nat) : Option Octets :=
  if (index + 1) * frameSize ≤ frames.bytes.length then
    some (Octets.window frames.bytes (index * frameSize) frameSize)
  else none

def frameCount (frames : FrameSet) : Nat := frames.bytes.length / frameSize

def frameList (frames : FrameSet) : List Octets :=
  (List.range frames.frameCount).map fun index =>
    Octets.window frames.bytes (index * frameSize) frameSize

/-- Declared payload length of frame `index`, zero where there is no such frame. -/
def payloadLength (frames : FrameSet) (index : Nat) : Nat := frames.payloadLengths.getD index 0

def totalPayload (frames : FrameSet) : Nat := frames.payloadLengths.sum

/-- The part of frame `index` that came with the message. -/
def payload (frames : FrameSet) (index : Nat) : Octets :=
  Octets.window frames.bytes (index * frameSize) (frames.payloadLength index)

end FrameSet

end EnsembleTransport
