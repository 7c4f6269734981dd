import CrewFlow.Decimal.Notation
import CrewFlow.Text.Search
import CrewFlow.Time.Instant
/-!
# Reading instants

An instant is read from a date, a `T` or a blank, a time of day with an optional fraction, and an
offset, which is `Z`, `UTC` or signed hours and minutes. White space may stand before every number
and around the offset. The calendar has to have the day both where the offset holds and in Coordinated
Universal Time.
-/
namespace CrewFlow.Time

open Text (isBlank)

def number? (most : Nat) (s : List Char) : Option (Nat × List Char) :=
  let digits := (s.take most).takeWhile Char.isDigit
  if digits.isEmpty then none else some (Decimal.digitsValue digits, s.drop digits.length)

def skipBlanks (s : List Char) : List Char := s.dropWhile isBlank

def field? (most : Nat) (s : List Char) : Option (Nat × List Char) := number? most (skipBlanks s)

def mark? (c : Char) (s : List Char) : Option (List Char) :=
  match skipBlanks s with
  | d :: rest => if d = c then some rest else none
  | [] => none

/-- A year: up to four digits, or a sign and any number of digits. -/
def year? (s : List Char) : Option (Int × List Char) :=
  match skipBlanks s with
  | '-' :: rest => (number? rest.length rest).map fun (n, rest) => (-(n : Int), rest)
  | '+' :: rest => (number? rest.length rest).map fun (n, rest) => ((n : Int), rest)
  | rest => (number? 4 rest).map fun (n, rest) => ((n : Int), rest)

def date? (s : List Char) : Option (Date × List Char) := do
  let (year, s) ← year? s
  let s ← mark? '-' s
  let (month, s) ← field? 2 s
  let s ← mark? '-' s
  let (day, s) ← field? 2 s
  return (⟨year, month, day⟩, s)

/-- The nanoseconds of a fraction; of more than nine decimals the rest does not count. -/
def fraction? : List Char → Option (Nat × List Char)
  | '.' :: s =>
    let digits := (s.take 9).takeWhile Char.isDigit
    if digits.isEmpty then none
    else
      some (Decimal.digitsValue digits * Nat.pow 10 (9 - digits.length), s.dropWhile Char.isDigit)
  | s => some (0, s)

def clock? (s : List Char) : Option ((Nat × Nat) × List Char) := do
  let (hour, s) ← field? 2 s
  let s ← mark? ':' s
  let (minute, s) ← field? 2 s
  let s ← mark? ':' s
  let (second, s) ← field? 2 s
  let (nanos, s) ← fraction? s
  if 24 ≤ hour || 60 ≤ minute || 61 ≤ second then none
  else
    let leap := second / 60
    return ((hour * 3600 + minute * 60 + (second - leap), nanos + leap * Instant.nanosPerSecond), s)

def twoDigits? : List Char → Option (Nat × List Char)
  | a :: b :: rest =>
    if a.isDigit && b.isDigit then some (Decimal.digitsValue [a, b], rest) else none
  | _ => none

def offset? (s : List Char) : Option (Int × List Char) := do
  match s with
  | [] => none
  | c :: rest =>
    if String.ofList ((s.take 3).map Char.toUpper) = "UTC" then some (0, s.drop 3)
    else if c = 'Z' ∨ c = 'z' then some (0, rest)
    else if c = '+' ∨ c = '-' ∨ c = '\u2212' then do
      let (hours, rest) ← twoDigits? rest
      let (minutes, rest) ← twoDigits? (rest.dropWhile fun x => x == ':' || isBlank x)
      if 60 ≤ minutes || 24 ≤ hours then none
      else
        let seconds : Int := hours * 3600 + minutes * 60
        return (if c = '+' then seconds else -seconds, rest)
    else none

def Instant.read? (text : String) : Option Instant := do
  let (date, s) ← date? text.toList
  let s ← match s with
    | c :: rest => if c = 'T' ∨ c = 't' ∨ c = ' ' then some rest else none
    | [] => none
  let ((seconds, nanos), s) ← clock? s
  let (offset, s) ← offset? (skipBlanks s)
  if !date.isValid || !(skipBlanks s).isEmpty then none
  else
    let t : Instant := ⟨date.toDays * Instant.secondsPerDay + seconds - offset, nanos⟩
    if t.date.isCounted then some t else none

end CrewFlow.Time
