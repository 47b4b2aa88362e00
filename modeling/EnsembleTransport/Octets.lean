/-!
# Octet strings and the numbers they spell

Everything the receiver handles is a list of octets. `little` and `big` read a whole list as an
unsigned number, `ofLittle` and `ofBig` write one in a fixed width. Reading undoes writing below
`256 ^ width`, and writing undoes reading at the width of the list. Powers and sums over lists are
those of the core library, whatever else is imported.
-/

namespace EnsembleTransport

attribute [scoped instance (high)] instPowNat Zero.ofOfNat0

abbrev Octets := List UInt8

namespace Octets

/-- The number spelled with the least significant octet first. -/
def little : Octets → Nat
  | [] => 0
  | b :: rest => b.toNat + 256 * little rest

/-- The number spelled with the most significant octet first. -/
def big (bytes : Octets) : Nat := little bytes.reverse

/-- The low `width` octets of a number, least significant first. -/
def ofLittle : Nat → Nat → Octets
  | 0, _ => []
  | width + 1, n => UInt8.ofNat (n % 256) :: ofLittle width (n / 256)

/-- The low `width` octets of a number, most significant first. -/
def ofBig (width n : Nat) : Octets := (ofLittle width n).reverse

/-- Octet `i`, or zero past the end. -/
def octet (bytes : Octets) (i : Nat) : UInt8 := bytes.getD i 0

/-- The `size` octets from `offset` on; fewer where the list ends. -/
def window (bytes : Octets) (offset size : Nat) : Octets := (bytes.drop offset).take size

/-- The octets with a source written over their front; none where the source is longer. -/
def overwrite? (target source : Octets) : Option Octets :=
  if source.length ≤ target.length then some (source ++ target.drop source.length) else none

/-- The octets with one octet written everywhere from `offset` on; none past the end. -/
def fillFrom? (target : Octets) (offset : Nat) (octet : UInt8) : Option Octets :=
  if offset ≤ target.length then
    some (target.take offset ++ List.replicate (target.length - offset) octet)
  else none

@[simp] theorem little_nil : little [] = 0 := rfl

@[simp] theorem little_cons (b : UInt8) (rest : Octets) :
    little (b :: rest) = b.toNat + 256 * little rest := rfl

@[simp] theorem length_ofLittle (width n : Nat) : (ofLittle width n).length = width := by
  induction width generalizing n with
  | zero => rfl
  | succ width ih => simp [ofLittle, ih]

@[simp] theorem length_ofBig (width n : Nat) : (ofBig width n).length = width := by
  simp [ofBig]

theorem little_lt (bytes : Octets) : little bytes < 256 ^ bytes.length := by
  induction bytes with
  | nil => simp
  | cons b rest ih =>
    have hb := b.toNat_lt
    rw [little_cons, List.length_cons, Nat.pow_succ]
    omega

theorem big_lt (bytes : Octets) : big bytes < 256 ^ bytes.length := by
  simpa [big] using little_lt bytes.reverse

theorem little_ofLittle (width n : Nat) : little (ofLittle width n) = n % 256 ^ width := by
  induction width generalizing n with
  | zero => simp [ofLittle, Nat.mod_one]
  | succ width ih =>
    have hb : (UInt8.ofNat (n % 256)).toNat = n % 256 := by
      simp
    rw [ofLittle, little_cons, ih, hb, Nat.pow_succ, Nat.mul_comm (256 ^ width), Nat.mod_mul]

theorem big_ofBig (width n : Nat) : big (ofBig width n) = n % 256 ^ width := by
  simp [big, ofBig, little_ofLittle]

theorem ofLittle_little (bytes : Octets) : ofLittle bytes.length (little bytes) = bytes := by
  induction bytes with
  | nil => rfl
  | cons b rest ih =>
    have hb : b.toNat < 256 := b.toNat_lt
    have hmod : (b.toNat + 256 * little rest) % 256 = b.toNat := by omega
    have hdiv : (b.toNat + 256 * little rest) / 256 = little rest := by omega
    simp only [List.length_cons, ofLittle, little_cons, hmod, hdiv, ih]
    simp

theorem ofBig_big (bytes : Octets) : ofBig bytes.length (big bytes) = bytes := by
  have h := ofLittle_little bytes.reverse
  rw [List.length_reverse] at h
  simp [ofBig, big, h]

end Octets

end EnsembleTransport
