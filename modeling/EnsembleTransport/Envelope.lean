import EnsembleTransport.MessageFault

/-!
# The envelope of a message

A message packs four frames: a version word, four signed 16-bit payload lengths, the payloads and
whatever trails them. All header fields are little-endian.
-/

namespace EnsembleTransport

namespace Layout

def framesPerMessage : Nat := 4

/-- Octets of one canonical frame. -/
def frameSize : Nat := 6144

/-- Fills a frame behind its payload. -/
def filler : UInt8 := 0x55

def envelopeVersion : Nat := 1

def headerSize : Nat := 4 + 2 * framesPerMessage

def maxPayloadMessageSize : Nat := headerSize + framesPerMessage * frameSize

/-- Room for a full message and its timing records. -/
def defaultMaxMessageSize : Nat := maxPayloadMessageSize + 1024

end Layout

structure Envelope where
  version : Nat
  /-- Declared payload lengths, one per frame. -/
  lengths : List Nat
deriving DecidableEq, Repr

namespace Envelope

open Layout

def payloadLength (envelope : Envelope) : Nat := envelope.lengths.sum

def payloadEnd (envelope : Envelope) : Nat := headerSize + envelope.payloadLength

def declaredVersion (message : Octets) : Nat := Octets.little (Octets.window message 0 4)

/-- The signed length field of frame `index`. -/
def declaredLength (message : Octets) (index : Nat) : Int :=
  Word.signed16 (Octets.little (Octets.window message (4 + 2 * index) 2))

def checkLength (message : Octets) (index : Nat) : Except MessageFault Nat :=
  let length := declaredLength message index
  if 0 ≤ length ∧ length ≤ frameSize then .ok length.toNat
  else .error (.invalidSubframeLength index length frameSize)

def parse (message : Octets) : Except MessageFault Envelope :=
  if message.length < headerSize then
    .error (.shortMessage headerSize message.length)
  else if declaredVersion message ≠ envelopeVersion then
    .error (.unsupportedVersion (declaredVersion message) envelopeVersion)
  else do
    let lengths ← (List.range framesPerMessage).mapM (checkLength message)
    return ⟨declaredVersion message, lengths⟩

/-- The header that announces payloads of the given lengths. -/
def header (lengths : List Nat) : Octets :=
  Octets.ofLittle 4 envelopeVersion ++ lengths.flatMap (Octets.ofLittle 2)

def encode (payloads : List Octets) (trailer : Octets) : Octets :=
  header (payloads.map List.length) ++ payloads.flatten ++ trailer

end Envelope

end EnsembleTransport
