import PercentFormat.Bytes

/-! Dates of the proleptic Gregorian calendar, and instants of universal time. -/

namespace PercentFormat

/-- A date. Nothing in the type says that month and day are in range. -/
structure Date where
  year : Nat
  month : Nat
  day : Nat
  deriving DecidableEq, Repr

namespace Date

def daysOfCycle : Nat := 146097

/-- The year of a day within its cycle. Years start in March, so that the leap day comes last. -/
def yearOfCycle (dayOfCycle : Nat) : Nat :=
  (dayOfCycle - dayOfCycle / 1460 + dayOfCycle / 36524 - dayOfCycle / 146096) / 365

def dayOfYear (dayOfCycle : Nat) : Nat :=
  let year := yearOfCycle dayOfCycle
  dayOfCycle - (365 * year + year / 4 - year / 100)

def monthOfYear (dayOfYear : Nat) : Nat := (5 * dayOfYear + 2) / 153

/-- The date that is `days` days after the first of January 1970. -/
def ofDays (days : Nat) : Date :=
  let shifted := days + 719468
  let dayOfCycle := shifted % daysOfCycle
  let dayOfYear := dayOfYear dayOfCycle
  let fromMarch := monthOfYear dayOfYear
  let month := if fromMarch < 10 then fromMarch + 3 else fromMarch - 9
  { year := yearOfCycle dayOfCycle + shifted / daysOfCycle * 400 + if month ≤ 2 then 1 else 0
    month
    day := dayOfYear - (153 * fromMarch + 2) / 5 + 1 }

def yearOfCycle? (dayOfCycle : Nat) : Option Nat := do
  let fewer ← difference? dayOfCycle (dayOfCycle / 1460)
  let more ← sized? (fewer + dayOfCycle / 36524)
  let whole ← difference? more (dayOfCycle / 146096)
  return whole / 365

/-- The day of the given year of a cycle, with every step checked. -/
def dayOfYear? (dayOfCycle year : Nat) : Option Nat := do
  let common ← sized? (365 * year)
  let leap ← sized? (common + year / 4)
  let before ← difference? leap (year / 100)
  difference? dayOfCycle before

/-- The month of a day of the year, March being zero, with every step checked. -/
def monthOfYear? (dayOfYear : Nat) : Option Nat := do
  let scaled ← sized? (5 * dayOfYear)
  let shifted ← sized? (scaled + 2)
  return shifted / 153

/-- The day of a month that is counted from March, with every step checked. -/
def dayOfMonth? (dayOfYear fromMarch : Nat) : Option Nat := do
  let scaled ← sized? (153 * fromMarch)
  let shifted ← sized? (scaled + 2)
  let passed ← difference? dayOfYear (shifted / 5)
  sized? (passed + 1)

/-- The number of a month that is counted from March, with every step checked. -/
def monthNumber? (fromMarch : Nat) : Option Nat :=
  if fromMarch < 10 then sized? (fromMarch + 3) else difference? fromMarch 9

/-- The date that is `days` days after the first of January 1970, computed in 64 bits. There is no
result if one of the steps leaves their range. -/
def ofDays? (days : Nat) : Option Date := do
  let shifted ← sized? (days + 719468)
  let yearOfCycle ← yearOfCycle? (shifted % daysOfCycle)
  let dayOfYear ← dayOfYear? (shifted % daysOfCycle) yearOfCycle
  let fromMarch ← monthOfYear? dayOfYear
  let day ← dayOfMonth? dayOfYear fromMarch
  let month ← monthNumber? fromMarch
  let cycles ← sized? (shifted / daysOfCycle * 400)
  let fromYear ← sized? (yearOfCycle + cycles)
  let year ← sized? (fromYear + if month ≤ 2 then 1 else 0)
  return { year, month, day }

end Date

def zeroPadded (width n : Nat) : List Char :=
  let digits := Nat.toDigits 10 n
  List.replicate (width - digits.length) '0' ++ digits

/-- An instant: seconds since the start of 1970, and milliseconds. -/
structure Instant where
  seconds : Nat
  millis : Nat
  deriving DecidableEq, Repr

namespace Instant

/-- What a clock shows as an instant. Milliseconds are cut off, and a time before 1970 counts as its
start. -/
def ofClock (seconds : Int) (nanos : Nat) : Instant :=
  match seconds with
  | .ofNat s => ⟨s, nanos / 1000000⟩
  | .negSucc _ => ⟨0, 0⟩

def chars (i : Instant) : List Char :=
  let date := Date.ofDays (i.seconds / 86400)
  zeroPadded 4 date.year ++ '-' :: zeroPadded 2 date.month ++ '-' :: zeroPadded 2 date.day
    ++ 'T' :: zeroPadded 2 (i.seconds % 86400 / 3600)
    ++ ':' :: zeroPadded 2 (i.seconds % 3600 / 60)
    ++ ':' :: zeroPadded 2 (i.seconds % 60)
    ++ '.' :: zeroPadded 3 i.millis ++ ['Z']

def text (i : Instant) : String := String.ofList i.chars

end Instant

end PercentFormat
