import EnsembleTransport.Octets.Cursor

/-!
# Faults of a received message

A layout fault concerns the envelope or the payloads and costs the whole message. A diagnostic
fault concerns the timing records or the timestamp of one frame and leaves the frames valid.
-/

namespace EnsembleTransport

inductive MessageFault where
  | shortMessage (need got : Nat)
  | unsupportedVersion (version supported : Nat)
  | invalidSubframeLength (index : Nat) (length : Int) (capacity : Nat)
  | payloadOverrun (index offset length messageSize : Nat)
  | truncatedMetadata (tag : Option Nat) (offset need remaining : Nat)
  | incompleteMetadata (missing : List String) (offset : Nat)
  | missingFic (fct : Nat)
  | fieldOutOfBounds (field : String) (offset need bufferSize : Nat)
deriving DecidableEq, Repr

namespace MessageFault

/-- A tag in the text of a truncation, or the absence of one. -/
def tagText : Option Nat → String
  | none => "None"
  | some tag => s!"Some({tag})"

def message : MessageFault → String
  | shortMessage need got =>
    s!"Short message: need {need} bytes for envelope header, got {got}"
  | unsupportedVersion version supported =>
    s!"Unsupported envelope version {version}: supported version is {supported}"
  | invalidSubframeLength index length capacity =>
    s!"Invalid length {length} for sub-frame {index}: must be within 0..={capacity}"
  | payloadOverrun index offset length messageSize =>
    s!"Payload overrun in sub-frame {index}: {length} bytes at offset {offset} exceed message of {messageSize} bytes"
  | truncatedMetadata tag offset need remaining =>
    s!"Truncated metadata: need {need} bytes for tag {tagText tag} at offset {offset}, {remaining} remaining"
  | incompleteMetadata missing offset =>
    "Incomplete metadata: missing " ++ ", ".intercalate missing
      ++ s!" before separation marker at offset {offset}"
  | missingFic fct => s!"No FIC in data stream (FCT={fct})"
  | fieldOutOfBounds field offset need bufferSize =>
    s!"Field {field} out of bounds: need {need} bytes at offset {offset}, buffer has {bufferSize}"

/-- Whether the fault leaves the frames of its message valid. -/
def isDiagnostic : MessageFault → Bool
  | shortMessage .. | unsupportedVersion .. | invalidSubframeLength .. | payloadOverrun .. => false
  | truncatedMetadata .. | incompleteMetadata .. | missingFic .. | fieldOutOfBounds .. => true

/-- The fault with its offset moved by `n`, for a block that starts `n` octets later. -/
def shift (n : Nat) : MessageFault → MessageFault
  | payloadOverrun index offset length messageSize =>
    payloadOverrun index (offset + n) length messageSize
  | truncatedMetadata tag offset need remaining =>
    truncatedMetadata tag (offset + n) need remaining
  | incompleteMetadata missing offset => incompleteMetadata missing (offset + n)
  | fieldOutOfBounds field offset need bufferSize =>
    fieldOutOfBounds field (offset + n) need bufferSize
  | fault => fault

end MessageFault

def BoundsFault.inField (fault : BoundsFault) (field : String) : MessageFault :=
  .fieldOutOfBounds field fault.offset fault.need fault.available

/-- Passes a read on, naming its field where it was refused. -/
def readField {α : Type} (field : String) : Except BoundsFault α → Except MessageFault α
  | .ok value => .ok value
  | .error fault => .error (fault.inField field)

end EnsembleTransport
