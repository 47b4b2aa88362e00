import EnsembleTransport.Digits

/-!
# Instants and their calendar text

An instant counts nanoseconds from the start of 1970, leap seconds left out. Its text gives date,
time of day and as many fraction digits, in threes, as are needed to be exact.
-/

namespace EnsembleTransport

structure Date where
  year : Int
  month : Nat
  day : Nat
deriving DecidableEq, Repr

namespace Date

/-- Days of a 400-year cycle. -/
def cycleDays : Int := 146097

/-- Days from the first of March of the year 0 to the start of 1970. -/
def epochShift : Int := 719468

/-- The date `days` days after the start of 1970. Years are counted from March, so that the leap
day comes last. -/
def ofDays (days : Int) : Date :=
  let shifted := days + epochShift
  let cycle := shifted.fdiv cycleDays
  let dayOfCycle := (shifted.fmod cycleDays).toNat
  let yearOfCycle :=
    (dayOfCycle - dayOfCycle / 1460 + dayOfCycle / 36524 - dayOfCycle / 146096) / 365
  let dayOfYear := dayOfCycle - (365 * yearOfCycle + yearOfCycle / 4 - yearOfCycle / 100)
  let monthFromMarch := (5 * dayOfYear + 2) / 153
  let day := dayOfYear - (153 * monthFromMarch + 2) / 5 + 1
  let month := if monthFromMarch < 10 then monthFromMarch + 3 else monthFromMarch - 9
  let year := cycle * 400 + yearOfCycle
  ⟨if month ≤ 2 then year + 1 else year, month, day⟩

def toDays (date : Date) : Int :=
  let year := if date.month ≤ 2 then date.year - 1 else date.year
  let cycle := year.fdiv 400
  let yearOfCycle := (year.fmod 400).toNat
  let monthFromMarch := if date.month ≤ 2 then date.month + 9 else date.month - 3
  let dayOfYear := (153 * monthFromMarch + 2) / 5 + date.day - 1
  let dayOfCycle := yearOfCycle * 365 + yearOfCycle / 4 - yearOfCycle / 100 + dayOfYear
  cycle * cycleDays + dayOfCycle - epochShift

end Date

structure Instant where
  nanoseconds : Int
deriving DecidableEq, Repr

namespace Instant

def nanosPerSecond : Int := 1000000000

def secondsPerDay : Int := 86400

def ofSeconds (seconds : Int) (nanoseconds : Nat) : Instant :=
  ⟨seconds * nanosPerSecond + nanoseconds⟩

def first : Instant := .ofSeconds ((Date.toDays ⟨-262143, 1, 1⟩) * secondsPerDay) 0

/-- The first instant past the calendar. -/
def limit : Instant := .ofSeconds ((Date.toDays ⟨262143, 1, 1⟩) * secondsPerDay) 0

def inCalendar (t : Instant) : Bool :=
  first.nanoseconds ≤ t.nanoseconds && t.nanoseconds < limit.nanoseconds

/-- Four digits; outside the years 0 to 9999 with a sign. -/
def yearText (year : Int) : String :=
  if 0 ≤ year ∧ year ≤ 9999 then Digits.zeroFilled 4 year.toNat
  else (if year < 0 then "-" else "+") ++ Digits.zeroFilled 4 year.natAbs

/-- Nothing, or a point and three, six or nine digits. -/
def fractionText (nanoseconds : Nat) : String :=
  if nanoseconds = 0 then ""
  else if nanoseconds % 1000000 = 0 then "." ++ Digits.zeroFilled 3 (nanoseconds / 1000000)
  else if nanoseconds % 1000 = 0 then "." ++ Digits.zeroFilled 6 (nanoseconds / 1000)
  else "." ++ Digits.zeroFilled 9 nanoseconds

/-- Date and time of day in universal time. -/
def text (t : Instant) : String :=
  let seconds := t.nanoseconds.fdiv nanosPerSecond
  let date := Date.ofDays (seconds.fdiv secondsPerDay)
  let second := (seconds.fmod secondsPerDay).toNat
  yearText date.year ++ "-" ++ Digits.zeroFilled 2 date.month
    ++ "-" ++ Digits.zeroFilled 2 date.day ++ "T"
    ++ Digits.zeroFilled 2 (second / 3600) ++ ":" ++ Digits.zeroFilled 2 (second / 60 % 60) ++ ":"
    ++ Digits.zeroFilled 2 (second % 60)
    ++ fractionText (t.nanoseconds.fmod nanosPerSecond).toNat ++ "+00:00"

end Instant

end EnsembleTransport
