import EnsembleTransport.Digits
import EnsembleTransport.Octets

/-!
# Numbers of the binary64 format

A finite number is a mantissa scaled by a power of two. Every operation takes the exact result, as
a fraction, to the nearest representable number; a tie goes to the even mantissa. A fraction that
is representable is therefore its own result.
-/

namespace EnsembleTransport

/-- The whole number nearest to a fraction; a tie goes to the even one. -/
def roundHalfEven (num den : Nat) : Nat :=
  if 2 * (num % den) < den then num / den
  else if den < 2 * (num % den) then num / den + 1
  else num / den + num / den % 2

/-- The whole number nearest to a fraction; a tie goes up. -/
def roundHalfUp (num den : Nat) : Nat :=
  if 2 * (num % den) < den then num / den else num / den + 1

theorem roundHalfEven_mul (n : Nat) {den : Nat} (h : 0 < den) : roundHalfEven (n * den) den = n := by
  unfold roundHalfEven
  rw [Nat.mul_mod_left, Nat.mul_zero, if_pos h, Nat.mul_div_cancel n h]

theorem roundHalfUp_mul (n : Nat) {den : Nat} (h : 0 < den) : roundHalfUp (n * den) den = n := by
  unfold roundHalfUp
  rw [Nat.mul_mod_left, Nat.mul_zero, if_pos h, Nat.mul_div_cancel n h]

inductive Binary64 where
  | notANumber
  | infinite (negative : Bool)
  | finite (negative : Bool) (mantissa : Nat) (exponent : Int)
deriving DecidableEq, Repr

namespace Binary64

/-- Bits of a mantissa without the leading one. -/
def fractionBits : Nat := 52

def signPlace : Nat := 63

/-- Exponent of the subnormal numbers. -/
def minExponent : Int := -1074

def maxExponent : Int := 971

/-- Numerator of `mantissa * 2 ^ exponent`. -/
def numerator (mantissa : Nat) (exponent : Int) : Nat := mantissa * 2 ^ exponent.toNat

def denominator (exponent : Int) : Nat := 2 ^ (-exponent).toNat

/-- The largest power of two that is at most a positive fraction. -/
def binaryExponent (num den : Nat) : Int :=
  let guess : Int := (num.log2 : Int) - den.log2
  if den * 2 ^ guess.toNat ≤ num * 2 ^ (-guess).toNat then guess else guess - 1

/-- The number nearest to a fraction, with the given sign. -/
def nearest (negative : Bool) (num den : Nat) : Binary64 :=
  if num = 0 then finite negative 0 minExponent
  else
    let exponent := max (binaryExponent num den - fractionBits) minExponent
    let mantissa := roundHalfEven (num * 2 ^ (-exponent).toNat) (den * 2 ^ exponent.toNat)
    if mantissa < 2 ^ (fractionBits + 1) then
      if exponent ≤ maxExponent then finite negative mantissa exponent else infinite negative
    else
      if exponent < maxExponent then finite negative (2 ^ fractionBits) (exponent + 1)
      else infinite negative

def ofNat (n : Nat) : Binary64 := nearest false n 1

def product : Binary64 → Binary64 → Binary64
  | notANumber, _ | _, notANumber => notANumber
  | infinite s, infinite t => infinite (s != t)
  | infinite s, finite t m _ | finite t m _, infinite s =>
    if m = 0 then notANumber else infinite (s != t)
  | finite s m e, finite t n f =>
    nearest (s != t) (numerator (m * n) (e + f)) (denominator (e + f))

def quotient : Binary64 → Binary64 → Binary64
  | notANumber, _ | _, notANumber => notANumber
  | infinite _, infinite _ => notANumber
  | infinite s, finite t _ _ => infinite (s != t)
  | finite s _ _, infinite t => finite (s != t) 0 minExponent
  | finite s m e, finite t n f =>
    if n = 0 then (if m = 0 then notANumber else infinite (s != t))
    else nearest (s != t) (numerator m (e - f)) (n * denominator (e - f))

/-- The signed whole number that a finite number is a multiple `2 ^ exponent` of. -/
def scaled (negative : Bool) (mantissa : Nat) (exponent unit : Int) : Int :=
  let magnitude : Int := mantissa * 2 ^ (exponent - unit).toNat
  if negative then -magnitude else magnitude

def sum : Binary64 → Binary64 → Binary64
  | notANumber, _ | _, notANumber => notANumber
  | infinite s, infinite t => if s = t then infinite s else notANumber
  | infinite s, finite .. | finite .., infinite s => infinite s
  | finite s m e, finite t n f =>
    let unit := min e f
    let total := scaled s m e unit + scaled t n f unit
    if total = 0 then finite (s && t) 0 minExponent
    else nearest (total < 0) (numerator total.natAbs unit) (denominator unit)

def atLeast (n : Nat) : Binary64 → Bool
  | notANumber => false
  | infinite negative => !negative
  | finite negative m e => (!negative || m == 0) && n * denominator e ≤ numerator m e

def isPositive : Binary64 → Bool
  | notANumber => false
  | infinite negative => !negative
  | finite negative m _ => !negative && m != 0

/-- The nearest whole number within bounds; a tie goes away from zero. -/
def roundWithin (low high : Int) : Binary64 → Int
  | notANumber => 0
  | infinite negative => if negative then low else high
  | finite negative m e =>
    let magnitude : Int := roundHalfUp (numerator m e) (denominator e)
    max low (min high (if negative then -magnitude else magnitude))

def ofBits (bits : UInt64) : Binary64 :=
  let n := bits.toNat
  let negative := 2 ^ signPlace ≤ n
  let biased := n / 2 ^ fractionBits % 2048
  let fraction := n % 2 ^ fractionBits
  if biased = 2047 then if fraction = 0 then infinite negative else notANumber
  else if biased = 0 then finite negative fraction minExponent
  else finite negative (2 ^ fractionBits + fraction) (biased - 1075)

def signBit (negative : Bool) : Nat := if negative then 2 ^ signPlace else 0

def toBits : Binary64 → UInt64
  | notANumber => .ofNat (2047 * 2 ^ fractionBits + 2 ^ (fractionBits - 1))
  | infinite negative => .ofNat (signBit negative + 2047 * 2 ^ fractionBits)
  | finite negative m e =>
    if m < 2 ^ fractionBits then .ofNat (signBit negative + m)
    else .ofNat (signBit negative + (e + 1074).toNat * 2 ^ fractionBits + m)

def signText (negative : Bool) : String := if negative then "-" else ""

/-- The number `n / 10 ^ places` with all its places. -/
def placesText (n places : Nat) : String :=
  toString (n / 10 ^ places) ++ "." ++ Digits.zeroFilled places (n % 10 ^ places)

/-- The number to a positive count of decimal places; a tie of the exact value goes to the even
digit. -/
def fixed (places : Nat) : Binary64 → String
  | notANumber => "NaN"
  | infinite negative => signText negative ++ "inf"
  | finite negative m e =>
    signText negative ++
      placesText (roundHalfEven (numerator m e * 10 ^ places) (denominator e)) places

end Binary64

end EnsembleTransport
