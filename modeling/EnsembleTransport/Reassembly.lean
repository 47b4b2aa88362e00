import EnsembleTransport.FrameSet

/-!
# Reassembling a message

`SplitMessage.ofMessage` cuts a message into envelope, payloads and trailer. A reassembler writes
every message into the same frames, over what earlier messages left there; a refused message
leaves nothing but filler.
-/

namespace EnsembleTransport

open Layout

structure SplitMessage where
  envelope : Envelope
  payloads : List Octets
  /-- The octets behind the payloads. -/
  metadata : Octets
deriving DecidableEq, Repr

namespace SplitMessage

/-- Cuts payloads of the given lengths off, starting with frame `index` at `offset`. -/
def cut (message : Octets) : (index offset : Nat) → List Nat →
    Except MessageFault (List Octets × Octets)
  | _, offset, [] => .ok ([], message.drop offset)
  | index, offset, length :: lengths =>
    if offset + length ≤ message.length then do
      let (payloads, rest) ← cut message (index + 1) (offset + length) lengths
      return (Octets.window message offset length :: payloads, rest)
    else .error (.payloadOverrun index offset length message.length)

def ofMessage (message : Octets) : Except MessageFault SplitMessage := do
  let envelope ← Envelope.parse message
  let (payloads, metadata) ← cut message 0 headerSize envelope.lengths
  return ⟨envelope, payloads, metadata⟩

end SplitMessage

/-- What a message was taken apart into, besides its frames. -/
structure Reassembly where
  envelope : Envelope
  metadata : Octets
deriving DecidableEq, Repr

structure Reassembler where
  frames : FrameSet := FrameSet.empty
deriving DecidableEq, Repr

namespace Reassembler

/-- Rebuilds the frames from a message. Payloads that did not fit would leave the frames alone. -/
def reassemble (r : Reassembler) (message : Octets) :
    Except MessageFault Reassembly × Reassembler :=
  match SplitMessage.ofMessage message with
  | .ok parts =>
    (.ok ⟨parts.envelope, parts.metadata⟩, ⟨(r.frames.load? parts.payloads).getD r.frames⟩)
  | .error fault => (.error fault, ⟨r.frames.reset⟩)

def feed (r : Reassembler) (messages : List Octets) : Reassembler :=
  messages.foldl (fun r message => (r.reassemble message).2) r

end Reassembler

end EnsembleTransport
