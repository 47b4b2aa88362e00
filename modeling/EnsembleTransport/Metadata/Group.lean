import EnsembleTransport.Event
import EnsembleTransport.MessageFault
import EnsembleTransport.Metadata.Record

/-!
# Record groups

The timing records of one frame form a group that a separation marker ends. A group is complete
when it holds each required tag; of several records with one tag the last counts. A known tag with
a wrong declared length costs a warning and nothing else.
-/

namespace EnsembleTransport

structure FrameMetadata where
  /-- Seconds between atomic and civil time. -/
  utcOffset : Int16
  /-- Atomic seconds since the start of the year 2000. -/
  ediTime : UInt32
  dlfc : UInt16
deriving DecidableEq, Repr

namespace Metadata

/-- A known tag whose record declares another length than its own. -/
structure LengthMismatch where
  tag : Tag
  declared : Nat
deriving DecidableEq, Repr

namespace LengthMismatch

def event (m : LengthMismatch) : Event :=
  ⟨.warn, .metadata,
    s!"Invalid length {m.declared} for metadata: {m.tag.name} (expected {m.tag.valueSize})", []⟩

end LengthMismatch

def mismatch? (tag : UInt8) (declared : Nat) : Option LengthMismatch :=
  (Tag.ofOctet? tag).bind fun known =>
    if known.valueSize = declared then none else some ⟨known, declared⟩

def lastValue? (records : List Record) (tag : Tag) : Option Octets :=
  ((records.filter (·.tag == tag.toOctet)).getLast?).map Record.value

def missing (records : List Record) : List String :=
  (Tag.required.filter fun tag => (lastValue? records tag).isNone).map Tag.name

/-- The attributes that complete records give. -/
def attributes? (records : List Record) : Option FrameMetadata := do
  let utcOffset ← lastValue? records .utcOffset
  let ediTime ← lastValue? records .ediTime
  let dlfc ← lastValue? records .dlfc
  return ⟨(UInt16.ofNat (Octets.big utcOffset)).toInt16, UInt32.ofNat (Octets.big ediTime),
    UInt16.ofNat (Octets.big dlfc)⟩

/-- The fault at offset `place`, where no complete record stands. -/
def Shortage.fault (place : Nat) : Shortage → MessageFault
  | .header left => .truncatedMetadata none place recordHeaderSize left
  | .value tag declared left =>
    .truncatedMetadata (some tag.toNat) place (recordHeaderSize + valueSize tag declared.toNat) left

/-- The attributes of a scanned group that starts at offset `start`, and the offset behind it. -/
def conclude (start : Nat) (records : List Record) :
    Ending → Except MessageFault (FrameMetadata × Nat)
  | .marker _ _ =>
    let place := start + totalSize records
    match attributes? records with
    | some metadata => .ok (metadata, place + recordHeaderSize)
    | none => .error (.incompleteMetadata (missing records) place)
  | .cut shortage => .error (shortage.fault (start + totalSize records))

/-- The wrong lengths met while a group is scanned, in record order. -/
def mismatches (records : List Record) (ending : Ending) : List LengthMismatch :=
  records.filterMap (fun r => mismatch? r.tag r.declared.toNat) ++
    match ending with
    | .marker declared _ => (mismatch? Tag.separationMarker.toOctet declared.toNat).toList
    | .cut (.value tag declared _) => (mismatch? tag declared.toNat).toList
    | .cut (.header _) => []

def decodeGroup (block : Octets) (start : Nat) :
    Logged (Except MessageFault (FrameMetadata × Nat)) :=
  let (records, ending) := scan (block.drop start)
  ⟨conclude start records ending, (mismatches records ending).map LengthMismatch.event⟩

/-- The canonical group of a frame: each required record once, then the marker. -/
def encodeGroup (metadata : FrameMetadata) : Octets :=
  (Record.ofTag .utcOffset (Octets.ofBig 2 metadata.utcOffset.toUInt16.toNat)).encode ++
  (Record.ofTag .ediTime (Octets.ofBig 4 metadata.ediTime.toNat)).encode ++
  (Record.ofTag .dlfc (Octets.ofBig 2 metadata.dlfc.toNat)).encode ++
  (Record.ofTag .separationMarker []).encode

end Metadata

/-- Reads the groups of one block in order and stays where it is at a faulty one. -/
structure GroupReader where
  block : Octets
  consumed : Nat := 0
deriving DecidableEq, Repr

namespace GroupReader

def next (reader : GroupReader) : Logged (Except MessageFault FrameMetadata) × GroupReader :=
  let decoded := Metadata.decodeGroup reader.block reader.consumed
  match decoded.value with
  | .ok (metadata, consumed) => (⟨.ok metadata, decoded.events⟩, { reader with consumed })
  | .error fault => (⟨.error fault, decoded.events⟩, reader)

/-- The next `count` groups, or the first fault among them. -/
def nextGroups (reader : GroupReader) : Nat → Logged (Except MessageFault (List FrameMetadata))
  | 0 => ⟨.ok [], []⟩
  | count + 1 =>
    let (first, reader) := reader.next
    match first.value with
    | .error fault => ⟨.error fault, first.events⟩
    | .ok metadata =>
      let others := nextGroups reader count
      ⟨others.value.map (metadata :: ·), first.events ++ others.events⟩

end GroupReader

namespace Metadata

def decodeGroups (block : Octets) (count : Nat) :
    Logged (Except MessageFault (List FrameMetadata)) :=
  GroupReader.nextGroups { block } count

end Metadata

end EnsembleTransport
