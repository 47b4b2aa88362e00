import EnsembleTransport.MessageFault

/-!
# Frame synchronisation

A frame opens with an error octet and a 24-bit synchronisation word. The word alternates between
two values from frame to frame; anything else means the frame is not synchronised.
-/

namespace EnsembleTransport

inductive SyncWord where
  | even
  | odd
  | invalid (word : Octets)
deriving DecidableEq, Repr

namespace SyncWord

def evenOctets : Octets := [0x07, 0x3A, 0xB6]

def oddOctets : Octets := [0xF8, 0xC5, 0x49]

def ofOctets (word : Octets) : SyncWord :=
  if word = evenOctets then even else if word = oddOctets then odd else invalid word

def toOctets : SyncWord → Octets
  | even => evenOctets
  | odd => oddOctets
  | invalid word => word

def text : SyncWord → String
  | even => "Even"
  | odd => "Odd"
  | invalid word => "Invalid([" ++ ", ".intercalate (word.map fun b => toString b.toNat) ++ "])"

theorem toOctets_ofOctets (word : Octets) : (ofOctets word).toOctets = word := by
  unfold ofOctets
  split
  · simp_all [toOctets]
  · split <;> simp_all [toOctets]

end SyncWord

structure FrameSync where
  errorOctet : UInt8
  word : SyncWord
deriving DecidableEq, Repr

namespace FrameSync

/-- Error octet of a frame without error. -/
def noError : UInt8 := 0xFF

def synchronised (sync : FrameSync) : Bool :=
  match sync.word with
  | .invalid _ => false
  | .even | .odd => true

def errorFree (sync : FrameSync) : Bool := sync.errorOctet == noError

def ofFrame (frame : Octets) : Except MessageFault FrameSync := do
  let (errorOctet, cursor) ← readField "ERR" (Cursor.start frame).readOctet
  let (word, _) ← readField "FSYNC" (cursor.take 3)
  return ⟨errorOctet, .ofOctets word⟩

end FrameSync

end EnsembleTransport
