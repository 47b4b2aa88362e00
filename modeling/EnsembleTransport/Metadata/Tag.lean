import EnsembleTransport.Octets

/-!
# Tags of the timing records

Four tags are known. Each has a fixed value size, whatever a record declares; a record with any
other tag is as long as it says.
-/

namespace EnsembleTransport.Metadata

/-- Tag octet and 16-bit length. -/
def recordHeaderSize : Nat := 3

inductive Tag where
  /-- Ends the group of one frame. -/
  | separationMarker
  /-- Seconds between atomic and civil time. -/
  | utcOffset
  /-- Seconds since the start of the year 2000. -/
  | ediTime
  /-- Frame counter of the data link layer. -/
  | dlfc
deriving DecidableEq, Repr

namespace Tag

def toOctet : Tag → UInt8
  | separationMarker => 0
  | utcOffset => 1
  | ediTime => 2
  | dlfc => 3

def ofOctet? (octet : UInt8) : Option Tag :=
  match octet.toNat with
  | 0 => some separationMarker
  | 1 => some utcOffset
  | 2 => some ediTime
  | 3 => some dlfc
  | _ => none

def valueSize : Tag → Nat
  | separationMarker => 0
  | utcOffset => 2
  | ediTime => 4
  | dlfc => 2

def recordSize (tag : Tag) : Nat := recordHeaderSize + tag.valueSize

def name : Tag → String
  | separationMarker => "separation_marker"
  | utcOffset => "utc_offset"
  | ediTime => "edi_time"
  | dlfc => "dlfc"

/-- The tags a group needs before its marker. -/
def required : List Tag := [utcOffset, ediTime, dlfc]

theorem ofOctet?_toOctet (tag : Tag) : ofOctet? tag.toOctet = some tag := by
  cases tag <;> rfl

theorem toOctet_of_ofOctet? {octet : UInt8} {tag : Tag} (h : ofOctet? octet = some tag) :
    tag.toOctet = octet := by
  unfold ofOctet? at h
  split at h <;> cases h <;> apply UInt8.toNat_inj.mp <;> simp_all [toOctet]

theorem ofOctet?_eq_none_iff {octet : UInt8} : ofOctet? octet = none ↔ 4 ≤ octet.toNat := by
  unfold ofOctet?
  split <;> simp_all
  omega

end Tag

/-- Size of the value in a record with this tag octet and declared length. -/
def valueSize (tag : UInt8) (declared : Nat) : Nat :=
  match Tag.ofOctet? tag with
  | some known => known.valueSize
  | none => declared

end EnsembleTransport.Metadata
