/-!
# Instants

Points in time to the nanosecond, counted from the start of 1970 in Coordinated Universal Time, and
their text: a date, `T`, a time of day with as many triples of decimals as it needs, and the offset
`+00:00`. Years between 0 and 9999 have four digits; others have a sign and at least four. The calendar
has the years from `firstYear` to `lastYear` and no others.
-/
namespace CrewFlow.Time

/-- A point in time. The nanoseconds of a leap second count on beyond a whole second. -/
structure Instant where
  seconds : Int
  nanos : Nat
  deriving DecidableEq, Repr, Inhabited

def isLeapYear (year : Int) : Bool := year % 4 == 0 && (year % 100 != 0 || year % 400 == 0)

def daysInMonth (year : Int) (month : Nat) : Nat :=
  if month = 2 then (if isLeapYear year then 29 else 28)
  else if month = 4 ∨ month = 6 ∨ month = 9 ∨ month = 11 then 30
  else 31

def daysBeforeYear (year : Int) : Int :=
  let past := year - 1
  365 * past + past / 4 - past / 100 + past / 400

def daysBeforeMonth (year : Int) (month : Nat) : Nat :=
  (List.range (month - 1)).foldr (fun m days => daysInMonth year (m + 1) + days) 0

/-- The days from the start of the year 1 to the start of 1970. -/
def epochDay : Int := 719162

structure Date where
  year : Int
  month : Nat
  day : Nat
  deriving DecidableEq, Repr

def firstYear : Int := -262143

def lastYear : Int := 262142

namespace Date

def isCounted (d : Date) : Bool := firstYear ≤ d.year && d.year ≤ lastYear

def isValid (d : Date) : Bool :=
  d.isCounted && 1 ≤ d.month && d.month ≤ 12 && 1 ≤ d.day && d.day ≤ daysInMonth d.year d.month

def toDays (d : Date) : Int :=
  daysBeforeYear d.year + daysBeforeMonth d.year d.month + d.day - 1 - epochDay

/-- Month and day of the day that is `rest` days behind the start of a month. -/
def inYear (year : Int) (month : Nat) : Nat → Nat → Date
  | _, 0 => ⟨year, month, 1⟩
  | rest, fuel + 1 =>
    let length := daysInMonth year month
    if rest < length then ⟨year, month, rest + 1⟩ else inYear year (month + 1) (rest - length) fuel

/-- The day that is so many days behind the start of 1970. -/
def ofDays (days : Int) : Date :=
  let count := days + epochDay
  let guess := 400 * count / 146097 + 1
  let year :=
    if count < daysBeforeYear guess then guess - 1
    else if daysBeforeYear (guess + 1) ≤ count then guess + 1
    else guess
  inYear year 1 (count - daysBeforeYear year).toNat 12

example : ofDays 0 = ⟨1970, 1, 1⟩ ∧ ofDays (-1) = ⟨1969, 12, 31⟩ := by decide

example : toDays ⟨2024, 2, 29⟩ = 19782 ∧ ofDays 19782 = ⟨2024, 2, 29⟩ := by decide

end Date

def padded (width n : Nat) : String :=
  let digits := toString n
  String.ofList (List.replicate (width - digits.length) '0') ++ digits

def yearText (year : Int) : String :=
  if 0 ≤ year ∧ year ≤ 9999 then padded 4 year.toNat
  else (if year < 0 then "-" else "+") ++ padded 4 year.natAbs

/-- A fraction of a second: none, or three, six or nine decimals. -/
def fractionText (nanos : Nat) : String :=
  if nanos = 0 then ""
  else if nanos % 1000000 = 0 then "." ++ padded 3 (nanos / 1000000)
  else if nanos % 1000 = 0 then "." ++ padded 6 (nanos / 1000)
  else "." ++ padded 9 nanos

namespace Instant

def nanosPerSecond : Nat := 1000000000

def secondsPerDay : Int := 86400

def date (t : Instant) : Date := Date.ofDays (t.seconds / secondsPerDay)

def text (t : Instant) : String :=
  let date := t.date
  let clock := (t.seconds % secondsPerDay).toNat
  let leap := t.nanos / nanosPerSecond
  yearText date.year ++ "-" ++ padded 2 date.month ++ "-" ++ padded 2 date.day ++ "T" ++
    padded 2 (clock / 3600) ++ ":" ++ padded 2 (clock / 60 % 60) ++ ":" ++
    padded 2 (clock % 60 + leap) ++ fractionText (t.nanos % nanosPerSecond) ++ "+00:00"

def hasPlainYear (t : Instant) : Bool := 0 ≤ t.date.year && t.date.year ≤ 9999

def ofMillis (ms : Nat) : Instant := ⟨(ms / 1000 : Nat), ms % 1000 * 1000000⟩

end Instant

end CrewFlow.Time
