import EnsembleTransport.Binary64

/-!
# Decimal notation of binary64 numbers

`parse?` reads a decimal and takes it to the nearest number. `shortest` writes the fewest digits
that read back as the same number, without an exponent.
-/

namespace EnsembleTransport.Binary64

/-- A decimal: digits as a whole number, scaled by a power of ten. -/
structure Decimal where
  digits : Nat
  exponent : Int
deriving DecidableEq, Repr

namespace Decimal

def numerator (d : Decimal) : Nat := d.digits * 10 ^ d.exponent.toNat

def denominator (d : Decimal) : Nat := 10 ^ (-d.exponent).toNat

def width (n : Nat) : Nat := (toString n).length

/-- Beyond these powers of ten every number is infinite or zero. -/
def reach : Int := 400

def toBinary (negative : Bool) (d : Decimal) : Binary64 :=
  if d.digits = 0 then .finite negative 0 minExponent
  else if reach < d.exponent + width d.digits then .infinite negative
  else if d.exponent + width d.digits < -reach then .finite negative 0 minExponent
  else nearest negative d.numerator d.denominator

end Decimal

def parseExponent? : List Char → Option Int
  | [] => some 0
  | c :: rest =>
    if c = 'e' ∨ c = 'E' then Digits.integer? rest else none

/-- Digits with an optional point and exponent; at least one digit. -/
def parseDecimal? (text : List Char) : Option Decimal :=
  let whole := text.takeWhile Char.isDigit
  let (fraction, rest) := match text.dropWhile Char.isDigit with
    | '.' :: rest => (rest.takeWhile Char.isDigit, rest.dropWhile Char.isDigit)
    | rest => ([], rest)
  if whole.isEmpty ∧ fraction.isEmpty then none
  else (parseExponent? rest).map fun exponent =>
    ⟨Digits.numberOf 10 (whole ++ fraction), exponent - fraction.length⟩

/-- Reads a decimal, an infinity or the word for no number, with an optional sign. -/
def parse? (text : String) : Option Binary64 :=
  let (negative, rest) := Digits.splitSign text.toList
  let word := String.ofList (rest.map Char.toLower)
  if word = "nan" then some .notANumber
  else if word = "inf" ∨ word = "infinity" then some (.infinite negative)
  else (parseDecimal? rest).map (Decimal.toBinary negative)

/-- The numbers that read back as `mantissa * 2 ^ exponent` lie between these two, in quarters of
`2 ^ exponent`; the ends belong to them when the mantissa is even. -/
def neighbourhood (mantissa : Nat) (exponent : Int) : Nat × Nat :=
  if mantissa = 2 ^ fractionBits ∧ minExponent < exponent then (4 * mantissa - 1, 4 * mantissa + 2)
  else (4 * mantissa - 2, 4 * mantissa + 2)

/-- Whether a decimal reads back as `mantissa * 2 ^ exponent`. -/
def readsBack (mantissa : Nat) (exponent : Int) (d : Decimal) : Bool :=
  let (low, high) := neighbourhood mantissa exponent
  let value := d.numerator * denominator (exponent - 2)
  let low := Binary64.numerator low (exponent - 2) * d.denominator
  let high := Binary64.numerator high (exponent - 2) * d.denominator
  if mantissa % 2 = 0 then low ≤ value && value ≤ high else low < value && value < high

/-- The power of ten just above a positive fraction. -/
def decimalExponent (num den : Nat) : Int :=
  if den ≤ num then Decimal.width (num / den)
  else Int.negOfNat (((List.range 400).find? fun j => den ≤ num * 10 ^ (j + 1)).getD 0)

/-- The better of the two decimals next to a number whose last digit counts `10 ^ unit`, if one of
them reads back. -/
def candidate? (mantissa : Nat) (exponent unit : Int) : Option Decimal :=
  let num := Binary64.numerator mantissa exponent * 10 ^ (-unit).toNat
  let den := Binary64.denominator exponent * 10 ^ unit.toNat
  let below : Decimal := ⟨num / den, unit⟩
  let above : Decimal := ⟨num / den + 1, unit⟩
  match readsBack mantissa exponent below, readsBack mantissa exponent above with
  | true, true => if 2 * (num % den) ≤ den then some below else some above
  | true, false => some below
  | false, true => some above
  | false, false => none

/-- The decimal of fewest digits that reads back; seventeen always do. -/
def shortestDecimal (mantissa : Nat) (exponent : Int) : Decimal :=
  let top := decimalExponent (Binary64.numerator mantissa exponent) (Binary64.denominator exponent)
  let counts := List.range 17
  (counts.findSome? fun n => candidate? mantissa exponent (top - (n + 1 : Nat))).getD ⟨0, 0⟩

def dropZeros (text : List Char) : List Char := (text.reverse.dropWhile (· == '0')).reverse

/-- A decimal written without an exponent. -/
def positional (d : Decimal) : String :=
  let digits := toString d.digits
  if 0 ≤ d.exponent then digits.pushn '0' d.exponent.toNat
  else
    let places := (-d.exponent).toNat
    let filled := Digits.filled '0' (places + 1) digits
    let whole := filled.toList.take (filled.length - places)
    let fraction := dropZeros (filled.toList.drop (filled.length - places))
    String.ofList (if fraction.isEmpty then whole else whole ++ '.' :: fraction)

/-- The fewest digits that read back, without an exponent. -/
def shortest : Binary64 → String
  | notANumber => "NaN"
  | infinite negative => signText negative ++ "inf"
  | finite negative m e =>
    signText negative ++ if m = 0 then "0" else positional (shortestDecimal m e)

end EnsembleTransport.Binary64
