import EnsembleTransport.Binary64.Decimal
import EnsembleTransport.Digits
import EnsembleTransport.Toml.Text
import EnsembleTransport.Toml.Value

/-!
# Numbers, dates and times of TOML

Digits may be parted by single underscores. Whole numbers fit in 64 bits. A date has to exist, and
its canonical text cuts seconds at nine places.
-/

namespace EnsembleTransport.Toml

/-- Whether every underscore stands between two other characters. -/
def isParted : List Char → Bool
  | [] => false
  | [c] => c != '_'
  | c :: d :: rest => c != '_' && (if d = '_' then isParted rest else isParted (d :: rest))

def readDigits (isDigit : Char → Bool) : Reader (List Char) := fun text =>
  let run := text.takeWhile fun c => isDigit c || c == '_'
  if isParted run then some (run.filter (· != '_'), text.drop run.length) else none

/-- Digits without a needless zero in front. -/
def readWhole : Reader (List Char) := fun text => do
  let (digits, rest) ← readDigits Char.isDigit text
  if digits.head? = some '0' ∧ 1 < digits.length then none else some (digits, rest)

/-- A sign, if there is one, as it is written. -/
def readSign (text : List Char) : List Char × List Char :=
  match text with
  | '+' :: rest => (['+'], rest)
  | '-' :: rest => (['-'], rest)
  | _ => ([], text)

def readFraction (text : List Char) : Option (List Char × List Char) :=
  match text with
  | '.' :: rest =>
    (readDigits Char.isDigit rest).map fun (digits, rest) => ('.' :: digits, rest)
  | _ => some ([], text)

def readExponent (text : List Char) : Option (List Char × List Char) :=
  match text with
  | [] => some ([], text)
  | c :: rest =>
    if c = 'e' ∨ c = 'E' then
      let (sign, rest) := readSign rest
      (readDigits Char.isDigit rest).map fun (digits, rest) => ('e' :: sign ++ digits, rest)
    else some ([], text)

def integer? (n : Int) : Option Value :=
  if Int64.minValue.toInt ≤ n ∧ n ≤ Int64.maxValue.toInt then some (.integer n) else none

def readBased (base : Nat) : Reader Value := fun text => do
  let isDigit (c : Char) : Bool := (Digits.value? c).any (· < base)
  let (digits, rest) ← readDigits isDigit text
  return (← integer? (Digits.numberOf base digits), rest)

/-- A decimal that is too large is refused, one that is too small a number is not. -/
def float? (text : List Char) : Option Value := do
  let x ← Binary64.parse? (String.ofList text)
  if x = .infinite false then none else some (.float x)

def readDecimal : Reader Value := fun text => do
  let (sign, rest) := readSign text
  let (whole, rest) ← readWhole rest
  let (fraction, rest) ← readFraction rest
  let (exponent, rest) ← readExponent rest
  if fraction.isEmpty ∧ exponent.isEmpty then
    let n : Int := Digits.numberOf 10 whole
    return (← integer? (if sign = ['-'] then -n else n), rest)
  else return (← float? (sign ++ whole ++ fraction ++ exponent), rest)

def readNumber : Reader Value := fun text =>
  match text with
  | '0' :: 'x' :: rest => readBased 16 rest
  | '0' :: 'o' :: rest => readBased 8 rest
  | '0' :: 'b' :: rest => readBased 2 rest
  | _ =>
    let (sign, rest) := readSign text
    match rest with
    | 'i' :: 'n' :: 'f' :: rest => some (.float (.infinite (sign == ['-'])), rest)
    | 'n' :: 'a' :: 'n' :: rest => some (.float .notANumber, rest)
    | _ => readDecimal text

def readFixed (width : Nat) : Reader Nat := fun text =>
  let digits := text.take width
  if digits.length = width ∧ digits.all Char.isDigit then
    some (Digits.numberOf 10 digits, text.drop width)
  else none

def readMark (mark : Char) : Reader Unit
  | c :: rest => if c = mark then some ((), rest) else none
  | [] => none

def isLeapYear (year : Nat) : Bool := year % 4 == 0 && (year % 100 != 0 || year % 400 == 0)

def daysInMonth (year month : Nat) : Nat :=
  if month = 2 then (if isLeapYear year then 29 else 28)
  else if month ∈ [4, 6, 9, 11] then 30
  else 31

def readDate : Reader String := fun text => do
  let (year, rest) ← readFixed 4 text
  let ((), rest) ← readMark '-' rest
  let (month, rest) ← readFixed 2 rest
  let ((), rest) ← readMark '-' rest
  let (day, rest) ← readFixed 2 rest
  if 1 ≤ month ∧ month ≤ 12 ∧ 1 ≤ day ∧ day ≤ daysInMonth year month then
    some (s!"{Digits.zeroFilled 4 year}-{Digits.zeroFilled 2 month}-"
      ++ Digits.zeroFilled 2 day, rest)
  else none

/-- The places of a second that count, without zeros at the end. -/
def secondFraction (digits : List Char) : String :=
  let places := Binary64.dropZeros (digits.take 9)
  if places.isEmpty then "" else String.ofList ('.' :: places)

def readSecondFraction (text : List Char) : Option (String × List Char) :=
  match text with
  | '.' :: rest =>
    let digits := rest.takeWhile Char.isDigit
    if digits.isEmpty then none
    else some (secondFraction digits, rest.dropWhile Char.isDigit)
  | _ => some ("", text)

def readTime : Reader String := fun text => do
  let (hour, rest) ← readFixed 2 text
  let ((), rest) ← readMark ':' rest
  let (minute, rest) ← readFixed 2 rest
  let ((), rest) ← readMark ':' rest
  let (second, rest) ← readFixed 2 rest
  let (fraction, rest) ← readSecondFraction rest
  if hour < 24 ∧ minute < 60 ∧ second ≤ 60 then
    some (s!"{Digits.zeroFilled 2 hour}:{Digits.zeroFilled 2 minute}:"
      ++ Digits.zeroFilled 2 second ++ fraction, rest)
  else none

/-- The distance from universal time; at zero hours and minutes its sign is a plus. -/
def readOffset : Reader String := fun text =>
  match text with
  | [] => none
  | c :: rest =>
    if c = 'Z' ∨ c = 'z' then some ("Z", rest)
    else if c = '+' ∨ c = '-' then do
      let (hour, rest) ← readFixed 2 rest
      let ((), rest) ← readMark ':' rest
      let (minute, rest) ← readFixed 2 rest
      let sign := if c = '-' ∧ (0 < hour ∨ 0 < minute) then "-" else "+"
      if hour < 24 ∧ minute < 60 then
        some (sign ++ s!"{Digits.zeroFilled 2 hour}:{Digits.zeroFilled 2 minute}", rest)
      else none
    else none

def isTimeMark (c : Char) : Bool := c == 'T' || c == 't' || c == ' '

def readTimeOfDate (date : String) (text : List Char) : String × List Char :=
  match text with
  | [] => (date, text)
  | c :: rest =>
    match if isTimeMark c then readTime rest else none with
    | none => (date, text)
    | some (time, rest) =>
      match readOffset rest with
      | some (offset, rest) => (date ++ "T" ++ time ++ offset, rest)
      | none => (date ++ "T" ++ time, rest)

def readMoment : Reader Value := fun text =>
  match readDate text with
  | some (date, rest) =>
    let (moment, rest) := readTimeOfDate date rest
    some (.moment moment, rest)
  | none => (readTime text).map fun (time, rest) => (.moment time, rest)

/-- A value that holds no other values. -/
def readScalar : Reader Value := fun text =>
  match text with
  | [] => none
  | c :: _ =>
    if c = '"' ∨ c = '\'' then (readString text).map fun (s, rest) => (.string s, rest)
    else
      match text with
      | 't' :: 'r' :: 'u' :: 'e' :: rest => some (.boolean true, rest)
      | 'f' :: 'a' :: 'l' :: 's' :: 'e' :: rest => some (.boolean false, rest)
      | _ => (readMoment text).orElse fun _ => readNumber text

end EnsembleTransport.Toml
