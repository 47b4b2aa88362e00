import EnsembleTransport.Metadata.Tag

/-!
# Timing records on the wire

A record is a tag octet, a 16-bit big-endian length and a value. `scan` cuts a block into complete
records up to the first separation marker, or up to the place where no complete record stands.
Putting the records and the ending back together gives the block again.
-/

namespace EnsembleTransport.Metadata

structure Record where
  tag : UInt8
  declared : UInt16
  value : Octets
deriving DecidableEq, Repr

namespace Record

def encode (r : Record) : Octets := r.tag :: Octets.ofBig 2 r.declared.toNat ++ r.value

def WellFormed (r : Record) : Prop := r.value.length = valueSize r.tag r.declared.toNat

instance (r : Record) : Decidable r.WellFormed := inferInstanceAs (Decidable (_ = _))

def size (r : Record) : Nat := recordHeaderSize + r.value.length

def isMarker (r : Record) : Bool := r.tag == Tag.separationMarker.toOctet

/-- The record of a known tag with its honest length. -/
def ofTag (tag : Tag) (value : Octets) : Record :=
  ⟨tag.toOctet, UInt16.ofNat value.length, value⟩

end Record

/-- Why no complete record stands at a place. -/
inductive Shortage where
  /-- Too few octets for a record header. -/
  | header (left : Nat)
  /-- The header is there and its value is cut off; `left` counts the header too. -/
  | value (tag : UInt8) (declared : UInt16) (left : Nat)
deriving DecidableEq, Repr

def readRecord : Octets → Except Shortage (Record × Octets)
  | tag :: high :: low :: rest =>
    let declared := UInt16.ofNat (Octets.big [high, low])
    let value := rest.take (valueSize tag declared.toNat)
    if value.length = valueSize tag declared.toNat then
      .ok (⟨tag, declared, value⟩, rest.drop (valueSize tag declared.toNat))
    else .error (.value tag declared (recordHeaderSize + rest.length))
  | short => .error (.header short.length)

theorem length_lt_of_readRecord {bytes rest : Octets} {r : Record}
    (h : readRecord bytes = .ok (r, rest)) : rest.length < bytes.length := by
  unfold readRecord at h
  split at h
  · dsimp only at h
    split at h
    · simp only [Except.ok.injEq, Prod.mk.injEq] at h
      rw [← h.2]
      simp only [List.length_drop, List.length_cons]
      omega
    · cases h
  · cases h

/-- How a run of records ends. -/
inductive Ending where
  /-- A separation marker, with the octets behind it. -/
  | marker (declared : UInt16) (rest : Octets)
  | cut (shortage : Shortage)
deriving DecidableEq, Repr

/-- The complete records before the first marker, and what stands behind them. -/
def scan (bytes : Octets) : List Record × Ending :=
  match _h : readRecord bytes with
  | .error shortage => ([], .cut shortage)
  | .ok (r, rest) =>
    if r.isMarker then ([], .marker r.declared rest)
    else
      let (records, ending) := scan rest
      (r :: records, ending)
termination_by bytes.length
decreasing_by exact length_lt_of_readRecord _h

def totalSize (records : List Record) : Nat := (records.map Record.size).sum

end EnsembleTransport.Metadata
