import EnsembleTransport.Octets

/-!
# A reading position in an octet string

A cursor moves forward by what it delivers and stays where it is when a request does not fit.
Every refusal names the offset, the octets asked for and the octets there are.
-/

namespace EnsembleTransport

/-- A request for octets past the end of a buffer. -/
structure BoundsFault where
  offset : Nat
  need : Nat
  available : Nat
deriving DecidableEq, Repr

namespace BoundsFault

def message (fault : BoundsFault) : String :=
  s!"need {fault.need} bytes at offset {fault.offset}, buffer has {fault.available}"

end BoundsFault

namespace Octets

def checkBounds (buffer : Octets) (offset size : Nat) : Except BoundsFault Unit :=
  if offset + size ≤ buffer.length then .ok () else .error ⟨offset, size, buffer.length⟩

/-- The `size` octets from `offset` on, all of them or none. -/
def slice (buffer : Octets) (offset size : Nat) : Except BoundsFault Octets :=
  if offset + size ≤ buffer.length then .ok (window buffer offset size)
  else .error ⟨offset, size, buffer.length⟩

theorem slice_eq_ok_iff {buffer part : Octets} {offset size : Nat} :
    slice buffer offset size = .ok part ↔
      offset + size ≤ buffer.length ∧ part = window buffer offset size := by
  unfold slice
  split
  · simp [*, eq_comm]
  · simp only [reduceCtorEq, false_iff, not_and]
    omega

theorem slice_eq_error_iff {buffer : Octets} {offset size : Nat} {fault : BoundsFault} :
    slice buffer offset size = .error fault ↔
      buffer.length < offset + size ∧ fault = ⟨offset, size, buffer.length⟩ := by
  unfold slice
  split
  · simp only [reduceCtorEq, false_iff, not_and]
    omega
  · simp only [Except.error.injEq, eq_comm, iff_and_self]
    omega

end Octets

inductive Word where
  | u8
  | u16Big
  | i16Big
  | u32Big
  | i16Little
  | u32Little
deriving DecidableEq, Repr

namespace Word

def size : Word → Nat
  | u8 => 1
  | u16Big | i16Big | i16Little => 2
  | u32Big | u32Little => 4

/-- Two's complement value of a 16-bit pattern. -/
def signed16 (n : Nat) : Int := if n < 32768 then n else (n : Int) - 65536

def value : Word → Octets → Int
  | u8, bytes | u16Big, bytes | u32Big, bytes => Octets.big bytes
  | i16Big, bytes => signed16 (Octets.big bytes)
  | i16Little, bytes => signed16 (Octets.little bytes)
  | u32Little, bytes => Octets.little bytes

end Word

structure Cursor where
  buffer : Octets
  position : Nat
deriving DecidableEq, Repr

namespace Cursor

def start (buffer : Octets) : Cursor := ⟨buffer, 0⟩

/-- The end of the buffer is a position; anything past it is not. -/
def seek (c : Cursor) (position : Nat) : Except BoundsFault Cursor :=
  if position ≤ c.buffer.length then .ok { c with position }
  else .error ⟨position, 0, c.buffer.length⟩

def ofPosition (buffer : Octets) (position : Nat) : Except BoundsFault Cursor :=
  (start buffer).seek position

def remaining (c : Cursor) : Nat := c.buffer.length - c.position

def exhausted (c : Cursor) : Bool := c.remaining == 0

/-- The octets not yet delivered. -/
def rest (c : Cursor) : Octets := c.buffer.drop c.position

def advance (c : Cursor) (n : Nat) : Cursor := { c with position := c.position + n }

def take (c : Cursor) (n : Nat) : Except BoundsFault (Octets × Cursor) := do
  let bytes ← Octets.slice c.buffer c.position n
  return (bytes, c.advance n)

def skip (c : Cursor) (n : Nat) : Except BoundsFault Cursor := do
  let (_, next) ← c.take n
  return next

def read (c : Cursor) (word : Word) : Except BoundsFault (Int × Cursor) := do
  let (bytes, next) ← c.take word.size
  return (word.value bytes, next)

def readOctet (c : Cursor) : Except BoundsFault (UInt8 × Cursor) := do
  let (bytes, next) ← c.take 1
  return (Octets.octet bytes 0, next)

theorem length_rest (c : Cursor) : c.rest.length = c.remaining := by
  rw [rest, List.length_drop, remaining]

theorem rest_advance (c : Cursor) (n : Nat) : (c.advance n).rest = c.rest.drop n := by
  rw [rest, rest, List.drop_drop, advance]

theorem window_eq_take_rest (c : Cursor) (n size : Nat) :
    Octets.window c.buffer (c.position + n) size = (c.rest.drop n).take size := by
  rw [Octets.window, rest, List.drop_drop]

theorem seek_eq_ok {c : Cursor} {position : Nat} (h : position ≤ c.buffer.length) :
    c.seek position = .ok { c with position } := if_pos h

theorem seek_eq_error {c : Cursor} {position : Nat} (h : c.buffer.length < position) :
    c.seek position = .error ⟨position, 0, c.buffer.length⟩ := if_neg (Nat.not_le.mpr h)

theorem take_eq_ok {c : Cursor} {n : Nat} (h : c.position + n ≤ c.buffer.length) :
    c.take n = .ok (Octets.window c.buffer c.position n, c.advance n) := by
  rw [take, Octets.slice_eq_ok_iff.mpr ⟨h, rfl⟩]
  rfl

theorem take_eq_error {c : Cursor} {n : Nat} (h : c.buffer.length < c.position + n) :
    c.take n = .error ⟨c.position, n, c.buffer.length⟩ := by
  rw [take, Octets.slice_eq_error_iff.mpr ⟨h, rfl⟩]
  rfl

theorem read_eq_ok {c : Cursor} {word : Word} (h : c.position + word.size ≤ c.buffer.length) :
    c.read word =
      .ok (word.value (Octets.window c.buffer c.position word.size), c.advance word.size) := by
  rw [read, take_eq_ok h]
  rfl

theorem readOctet_eq_ok {c : Cursor} {b : UInt8} (h : c.buffer[c.position]? = some b) :
    c.readOctet = .ok (b, c.advance 1) := by
  obtain ⟨hlt, hb⟩ := List.getElem?_eq_some_iff.mp h
  have hwindow : Octets.window c.buffer c.position 1 = [b] := by
    rw [Octets.window, List.drop_eq_getElem_cons hlt, hb]
    rfl
  rw [readOctet, take_eq_ok hlt, hwindow]
  rfl

inductive Request where
  | read (word : Word)
  | take (n : Nat)
  | skip (n : Nat)
  | seek (position : Nat)
  | rest
deriving DecidableEq, Repr

inductive Reply where
  | number (n : Int)
  | octets (bytes : Octets)
  | moved
  | refused (fault : BoundsFault)
deriving DecidableEq, Repr

/-- Answers a request; a refused one leaves the cursor as it was. -/
def perform (c : Cursor) : Request → Reply × Cursor
  | .read word => match c.read word with
    | .ok (n, next) => (.number n, next)
    | .error fault => (.refused fault, c)
  | .take n => match c.take n with
    | .ok (bytes, next) => (.octets bytes, next)
    | .error fault => (.refused fault, c)
  | .skip n => match c.skip n with
    | .ok next => (.moved, next)
    | .error fault => (.refused fault, c)
  | .seek position => match c.seek position with
    | .ok next => (.moved, next)
    | .error fault => (.refused fault, c)
  | .rest => (.octets c.rest, c)

end Cursor

end EnsembleTransport
