/-!
# Digits

A number is spelled with the digits of a base. A text that holds decimal digits and nothing else is
a number, behind a sign where one may stand. Texts of a fixed width are filled up in front.
-/

namespace EnsembleTransport.Digits

def value? (c : Char) : Option Nat :=
  if c.isDigit then some (c.toNat - '0'.toNat)
  else if 'a' ≤ c ∧ c ≤ 'f' then some (c.toNat - 'a'.toNat + 10)
  else if 'A' ≤ c ∧ c ≤ 'F' then some (c.toNat - 'A'.toNat + 10)
  else none

def numberOf (base : Nat) (digits : List Char) : Nat :=
  digits.foldl (fun n c => base * n + (value? c).getD 0) 0

/-- A sign, if there is one, and what follows it. -/
def splitSign : List Char → Bool × List Char
  | '-' :: rest => (true, rest)
  | '+' :: rest => (false, rest)
  | text => (false, text)

def natural? (text : List Char) : Option Nat :=
  if text.isEmpty ∨ text.any (!·.isDigit) then none else some (numberOf 10 text)

/-- Digits with an optional plus sign. -/
def unsigned? : List Char → Option Nat
  | '+' :: digits => natural? digits
  | digits => natural? digits

/-- Digits with an optional sign. -/
def integer? (text : List Char) : Option Int :=
  let (negative, digits) := splitSign text
  (natural? digits).map fun n => if negative then -n else n

def filled (fill : Char) (width : Nat) (text : String) : String :=
  "".pushn fill (width - text.length) ++ text

def zeroFilled (width n : Nat) : String := filled '0' width (toString n)

def blankFilled (width : Nat) (n : Int) : String := filled ' ' width (toString n)

end EnsembleTransport.Digits
