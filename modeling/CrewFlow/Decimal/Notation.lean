import CrewFlow.Decimal.Shortest
/-!
# Decimal texts of doubles

The text of a double: positional from `1e-5` up to, but not including, `1e16`, with `.0` behind a
whole number, and in powers of ten elsewhere. The layouts differ in the sign of a positive power.
Beside it: texts with a fixed number of places, and the reading of decimal numerals.
-/
namespace CrewFlow.Decimal

/-- How powers of ten are written. -/
structure Layout where
  plusSign : Bool
  deriving DecidableEq, Repr

/-- A positive power carries a plus sign: `1e+16`. -/
def Layout.signed : Layout := ⟨true⟩

/-- A positive power is written bare: `1e16`. -/
def Layout.bare : Layout := ⟨false⟩

def Digits.text (layout : Layout) (d : Digits) : String :=
  let digits := toString d.digits
  let point : Int := digits.length + d.exponent
  if -5 < point ∧ point ≤ 16 then
    if 0 ≤ d.exponent then
      digits ++ String.ofList (List.replicate d.exponent.toNat '0') ++ ".0"
    else if 0 < point then
      String.ofList (digits.toList.take point.toNat) ++ "." ++
        String.ofList (digits.toList.drop point.toNat)
    else "0." ++ String.ofList (List.replicate (-point).toNat '0') ++ digits
  else
    let tail := String.ofList (digits.toList.drop 1)
    let power := point - 1
    String.ofList (digits.toList.take 1) ++ (if tail.isEmpty then "" else "." ++ tail) ++ "e" ++
      (if power < 0 then "-" else if layout.plusSign then "+" else "") ++ toString power.natAbs

/-- The text of a finite double; none for an infinity or a NaN. -/
def text? (layout : Layout) (x : Float) : Option String :=
  match parts x with
  | .finite negative m q denseBelow =>
    let body := if m = 0 then "0.0" else (shortest m q denseBelow).text layout
    some (if negative then "-" ++ body else body)
  | _ => none

/-- A quotient of natural numbers rounded to the nearest one, ties to even. -/
def roundQuotient (num den : Nat) : Nat :=
  let low := num / den
  match compare (2 * (num % den)) den with
  | .lt => low
  | .gt => low + 1
  | .eq => low + low % 2

/-- The exact value of a double rounded to `places` decimal places, ties to even. -/
def fixed (places : Nat) (x : Float) : String :=
  match parts x with
  | .finite negative m q _ =>
    let unit := Nat.pow 10 places
    let scaled := (Quotient.mk (m * unit) 1).scale 2 q
    let n := roundQuotient scaled.num scaled.den
    let fraction := toString (n % unit)
    let fraction :=
      String.ofList (List.replicate (places - fraction.length) '0') ++ fraction
    (if negative then "-" else "") ++ toString (n / unit) ++
      (if places = 0 then "" else "." ++ fraction)
  | .infinite negative => if negative then "-inf" else "inf"
  | .nan => "NaN"

/-- The double nearest to `digits * 10 ^ exponent`: an infinity when that is too large, zero when
it is too small. -/
def nearest (digits : Nat) (exponent : Int) : Float :=
  let size : Int := (toString digits).length + exponent
  if digits = 0 ∨ size < -400 then 0.0
  else if 400 < size then 1.0 / 0.0
  else Float.ofScientific digits (exponent < 0) exponent.natAbs

def digitsValue (cs : List Char) : Nat := cs.foldl (fun n c => n * 10 + (c.toNat - 48)) 0

def takeSign : List Char → Bool × List Char
  | '+' :: cs => (false, cs)
  | '-' :: cs => (true, cs)
  | cs => (false, cs)

/-- A power of ten: `e` or `E`, an optional sign and at least one digit, to the end of the text.
The empty text is the power zero. -/
def power? : List Char → Option Int
  | [] => some 0
  | c :: cs =>
    if c = 'e' ∨ c = 'E' then
      let (negative, ds) := takeSign cs
      if ds.isEmpty || !ds.all Char.isDigit then none
      else some (if negative then -(digitsValue ds : Int) else digitsValue ds)
    else none

/-- Reads a decimal numeral: an optional sign, digits with an optional point among them and an
optional power of ten, at least one digit before the power. The value is the nearest double. -/
def read? (cs : List Char) : Option Float :=
  let (negative, cs) := takeSign cs
  let whole := cs.takeWhile Char.isDigit
  let cs := cs.drop whole.length
  let (fraction, cs) :=
    match cs with
    | '.' :: r => (r.takeWhile Char.isDigit, r.dropWhile Char.isDigit)
    | _ => ([], cs)
  if whole.isEmpty && fraction.isEmpty then none
  else
    (power? cs).map fun p =>
      let x := nearest (digitsValue (whole ++ fraction)) (p - fraction.length)
      if negative then -x else x

end CrewFlow.Decimal
