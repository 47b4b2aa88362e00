import EnsembleTransport.Binary64
import EnsembleTransport.Event
import EnsembleTransport.MessageFault

/-!
# The timestamp of a frame

The timestamp stands behind the parts of a frame whose sizes the frame itself announces: the
stream descriptors, the fast information channel of the transmission mode and the main service
channel. It counts ticks of 1/16384 ms since the last pulse of the second.
-/

namespace EnsembleTransport

structure StreamDescriptor where
  scid : BitVec 6
  startAddress : BitVec 10
  tpl : BitVec 6
  /-- Length in words of 64 bits. -/
  streamLength : BitVec 10
deriving DecidableEq, Repr

namespace StreamDescriptor

/-- The four fields, first to last from the high end of a 32-bit word. -/
def ofWord (word : BitVec 32) : StreamDescriptor :=
  ⟨word.extractLsb' 26 6, word.extractLsb' 16 10, word.extractLsb' 10 6, word.extractLsb' 0 10⟩

def toWord (stream : StreamDescriptor) : BitVec 32 :=
  stream.scid ++ stream.startAddress ++ stream.tpl ++ stream.streamLength

def ofOctets (entry : Octets) : StreamDescriptor := ofWord (BitVec.ofNat 32 (Octets.big entry))

def toOctets (stream : StreamDescriptor) : Octets := Octets.ofBig 4 stream.toWord.toNat

def dataLength (stream : StreamDescriptor) : Nat := stream.streamLength.toNat * 8

theorem ofWord_toWord (stream : StreamDescriptor) : ofWord stream.toWord = stream := by
  obtain ⟨scid, startAddress, tpl, streamLength⟩ := stream
  simp only [ofWord, toWord, mk.injEq]
  refine ⟨?_, ?_, ?_, BitVec.extractLsb'_append_eq_right⟩
  · rw [BitVec.extractLsb'_append_eq_of_le (by decide),
      BitVec.extractLsb'_append_eq_of_le (by decide)]
    exact BitVec.extractLsb'_append_eq_left
  · rw [BitVec.extractLsb'_append_eq_of_le (by decide),
      BitVec.extractLsb'_append_eq_of_le (by decide)]
    exact BitVec.extractLsb'_append_eq_right
  · rw [BitVec.extractLsb'_append_eq_of_le (by decide)]
    exact BitVec.extractLsb'_append_eq_right

theorem toWord_ofWord (word : BitVec 32) : (ofWord word).toWord = word := by
  simp only [ofWord, toWord]
  rw [BitVec.extractLsb'_append_extractLsb'_eq_extractLsb' (by decide),
    BitVec.extractLsb'_append_extractLsb'_eq_extractLsb' (by decide),
    BitVec.extractLsb'_append_extractLsb'_eq_extractLsb' (by decide)]
  exact BitVec.extractLsb'_eq_self

end StreamDescriptor

/-- What the layout of a frame says on the way to its timestamp. -/
structure Timestamp where
  fct : UInt8
  /-- What the frame counter should have been. -/
  expectedFct : UInt8
  ficPresent : Bool
  nst : Nat
  /-- Fast information channel, in words of 32 bits. -/
  ficWords : Nat
  mnsc : UInt16
  streams : List StreamDescriptor
  /-- Octets of the main service channel. -/
  dataLength : Nat
  /-- Offset of the timestamp in the frame. -/
  offset : Nat
  raw : UInt32
deriving DecidableEq, Repr

namespace Timestamp

/-- The frame counter wraps at this value. -/
def fctModulus : Nat := 250

def ticksPerMillisecond : Nat := 16384

/-- The timestamp takes the low 24 bits of its word. -/
def tickModulus : Nat := 0x1000000

def fctOffset : Nat := 4

def streamsOffset : Nat := 8

def streamEntrySize : Nat := 4

/-- Multiplex network channel and header checksum. -/
def endOfHeaderSize : Nat := 4

/-- Frame checksum and reserved octets. -/
def endOfFrameSize : Nat := 4

def ficWordsOfMode (mode : Nat) : Nat := if mode = 3 then 32 else 24

def ticks (timestamp : Timestamp) : Nat := timestamp.raw.toNat % tickModulus

/-- Milliseconds since the last pulse of the second. -/
def ppsOffset (timestamp : Timestamp) : Binary64 :=
  .quotient (.ofNat timestamp.ticks) (.ofNat ticksPerMillisecond)

def fctMatches (timestamp : Timestamp) : Bool := timestamp.fct == timestamp.expectedFct

/-- The frame reaches into the next second. -/
def isAdvisory (timestamp : Timestamp) : Bool := timestamp.ppsOffset.atLeast 1000

def expectedFctOf (dlfc : UInt16) : UInt8 := UInt8.ofNat (dlfc.toNat % fctModulus)

def offsetOf (nst ficWords dataLength : Nat) : Nat :=
  streamsOffset + streamEntrySize * nst + endOfHeaderSize + ficWords * 4 + dataLength
    + endOfFrameSize

def readStreams : Nat → Cursor → Except MessageFault (List StreamDescriptor × Cursor)
  | 0, cursor => .ok ([], cursor)
  | count + 1, cursor => do
    let (entry, cursor) ← readField "STC" (cursor.take streamEntrySize)
    let (streams, cursor) ← readStreams count cursor
    return (.ofOctets entry :: streams, cursor)

def readRaw (frame : Octets) (offset : Nat) : Except BoundsFault UInt32 := do
  let cursor ← Cursor.ofPosition frame offset
  let (word, _) ← cursor.take 4
  return UInt32.ofNat (Octets.big word)

def readFct (frame : Octets) : Except MessageFault (UInt8 × Cursor) := do
  let cursor ← readField "FCT" (Cursor.ofPosition frame fctOffset)
  readField "FCT" cursor.readOctet

/-- Walks the layout of a frame to its timestamp. -/
def ofFrame (frame : Octets) (dlfc : UInt16) : Except MessageFault Timestamp := do
  let (fct, cursor) ← readFct frame
  let (ficfNst, cursor) ← readField "FICF/NST" cursor.readOctet
  let (fpMid, cursor) ← readField "MID" cursor.readOctet
  let nst := ficfNst.toNat % 128
  let ficWords := ficWordsOfMode (fpMid.toNat / 8 % 4)
  if ficfNst.toNat < 128 then .error (.missingFic fct.toNat) else
  let cursor ← readField "STC" (cursor.seek streamsOffset)
  let (streams, cursor) ← readStreams nst cursor
  let (mnsc, _) ← readField "MNSC" (cursor.take 2)
  let dataLength := (streams.map StreamDescriptor.dataLength).sum
  let offset := offsetOf nst ficWords dataLength
  let raw ← readField "TIST" (readRaw frame offset)
  return {
    fct, expectedFct := expectedFctOf dlfc, ficPresent := true, nst, ficWords
    mnsc := UInt16.ofNat (Octets.big mnsc), streams, dataLength, offset, raw }

/-- A frame counter that can be read and differs from the expected one is reported. -/
def events (frame : Octets) (dlfc : UInt16) : List Event :=
  match readFct frame with
  | .ok (fct, _) =>
    if fct = expectedFctOf dlfc then []
    else [⟨.warn, .timestamp,
      s!"Frame FCT={fct.toNat} does not correspond to DLFC={dlfc.toNat}", []⟩]
  | .error _ => []

end Timestamp

end EnsembleTransport
