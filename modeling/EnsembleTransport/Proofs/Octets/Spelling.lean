import EnsembleTransport.Octets.Cursor

/-!
# Words bit by bit

The octets of a word put side by side are its bits: most significant octet first or last, with the
top bit as a sign or not. The numbers that a cursor reads are the numbers of these bits.
-/

namespace EnsembleTransport

namespace Word

/-- The number that the bits of a word make, none for octets that are too few or too many. -/
def spelled? : Word → Octets → Option Int
  | u8, [a] => some a.toBitVec.toNat
  | u16Big, [a, b] => some (a.toBitVec ++ b.toBitVec).toNat
  | i16Big, [a, b] => some (a.toBitVec ++ b.toBitVec).toInt
  | u32Big, [a, b, c, d] =>
    some (a.toBitVec ++ b.toBitVec ++ c.toBitVec ++ d.toBitVec).toNat
  | i16Little, [a, b] => some (b.toBitVec ++ a.toBitVec).toInt
  | u32Little, [a, b, c, d] =>
    some (d.toBitVec ++ c.toBitVec ++ b.toBitVec ++ a.toBitVec).toNat
  | _, _ => none

/-- An octet behind other bits is their last digit to the base 256. -/
theorem toNat_append_octet {w : Nat} (bits : BitVec w) (b : UInt8) :
    (bits ++ b.toBitVec).toNat = b.toNat + 256 * bits.toNat := by
  rw [BitVec.toNat_append, ← Nat.shiftLeft_add_eq_or_of_lt b.toBitVec.isLt, Nat.shiftLeft_eq,
    Nat.mul_comm, Nat.add_comm]
  rfl

theorem toInt_append_octet (a b : UInt8) :
    (a.toBitVec ++ b.toBitVec).toInt = signed16 (b.toNat + 256 * a.toNat) := by
  rw [BitVec.toInt_eq_toNat_cond, toNat_append_octet, UInt8.toNat_toBitVec, signed16]
  split
  · rw [if_pos (by omega)]
  · rw [if_neg (by omega)]
    rfl

/-- Octets of the right number make the number that a cursor reads. -/
theorem spelled?_eq_some {word : Word} {bytes : Octets} (h : bytes.length = word.size) :
    word.spelled? bytes = some (word.value bytes) := by
  match word, bytes, h with
  | u8, [a], _ => rfl
  | u16Big, [a, b], _ =>
    rw [spelled?, toNat_append_octet]
    rfl
  | i16Big, [a, b], _ =>
    rw [spelled?, toInt_append_octet]
    rfl
  | i16Little, [a, b], _ =>
    rw [spelled?, toInt_append_octet]
    rfl
  | u32Big, [a, b, c, d], _ =>
    rw [spelled?, toNat_append_octet, toNat_append_octet, toNat_append_octet]
    rfl
  | u32Little, [a, b, c, d], _ =>
    rw [spelled?, toNat_append_octet, toNat_append_octet, toNat_append_octet]
    rfl

end Word

end EnsembleTransport
