import CrewFlow.Decimal.Word
/-!
# Shortest decimal of a binary fraction

A positive double is `m * 2 ^ q`. Among the decimals that round back to it, the one with the fewest
digits is chosen, and of those the nearest. The search tests, for 1 to 17 digits, the two
neighbours of the exact value on that decimal grid, in exact integer arithmetic.
-/
namespace CrewFlow.Decimal

/-- A positive decimal `digits * 10 ^ exponent`. -/
structure Digits where
  digits : Nat
  exponent : Int
  deriving DecidableEq, Repr

/-- A positive rational number as a quotient. -/
structure Quotient where
  num : Nat
  den : Nat

def Quotient.scale (r : Quotient) (base : Nat) (e : Int) : Quotient :=
  if 0 ≤ e then ⟨r.num * Nat.pow base e.toNat, r.den⟩
  else ⟨r.num, r.den * Nat.pow base (-e).toNat⟩

/-- The greatest `k` with `10 ^ k` at most the quotient, found from a first guess by `fuel`
corrections by one. -/
def Quotient.magnitude (r : Quotient) (guess : Int) : Nat → Int
  | 0 => guess
  | fuel + 1 =>
    let scaled := r.scale 10 (-guess)
    if scaled.num < scaled.den then r.magnitude (guess - 1) fuel
    else if scaled.den * 10 ≤ scaled.num then r.magnitude (guess + 1) fuel
    else guess

/-- The numbers that round to a double, as multiples of a quarter of its unit: the ends belong to
the interval when `closed`. -/
structure Interval where
  low : Nat
  high : Nat
  closed : Bool

/-- The interval around `m`; below a power of two the doubles lie twice as dense. -/
def Interval.around (m : Nat) (denseBelow : Bool) : Interval :=
  ⟨4 * m - (if denseBelow then 1 else 2), 4 * m + 2, m % 2 == 0⟩

/-- Whether `digits * 10 ^ e` lies in the interval, whose quarters of a unit are `2 ^ (q - 2)`. -/
def Interval.holds (i : Interval) (q e : Int) (digits : Nat) : Bool :=
  let x := (Quotient.mk digits 1).scale 10 e |>.scale 2 (2 - q)
  let low := compare (i.low * x.den) x.num
  let high := compare x.num (i.high * x.den)
  (low == .lt || (i.closed && low == .eq)) && (high == .lt || (i.closed && high == .eq))

/-- The neighbours of `m * 2 ^ q` on the grid of step `10 ^ e`, the nearer first; a tie puts the
even one first. -/
def neighbours (m : Nat) (q e : Int) : List Nat :=
  let x := (Quotient.mk m 1).scale 2 q |>.scale 10 (-e)
  let low := x.num / x.den
  match compare (2 * (x.num % x.den)) x.den with
  | .lt => [low, low + 1]
  | .gt => [low + 1, low]
  | .eq => if low % 2 = 0 then [low, low + 1] else [low + 1, low]

/-- Moves trailing zeros of the digits into the exponent. -/
def Digits.normalize (d : Digits) : Nat → Digits
  | 0 => d
  | fuel + 1 =>
    if d.digits % 10 = 0 ∧ d.digits ≠ 0 then
      Digits.normalize ⟨d.digits / 10, d.exponent + 1⟩ fuel
    else d

/-- Tries `18 - fuel` digits and more; `k` is the magnitude of the value. -/
def searchDigits (i : Interval) (m : Nat) (q k : Int) : Nat → Digits
  | 0 => ⟨m, 0⟩
  | fuel + 1 =>
    let e := k - (16 - (fuel : Int))
    match (neighbours m q e).find? (fun d => d ≠ 0 && i.holds q e d) with
    | some d => Digits.normalize ⟨d, e⟩ 20
    | none => searchDigits i m q k fuel

/-- The shortest decimal that reads back as `m * 2 ^ q`. -/
def shortest (m : Nat) (q : Int) (denseBelow : Bool) : Digits :=
  let guess := ((m.log2 : Int) + q) * 30103 / 100000
  let k := ((Quotient.mk m 1).scale 2 q).magnitude guess 4
  searchDigits (.around m denseBelow) m q k 17

/-- A double taken apart. -/
inductive Parts where
  | finite (negative : Bool) (m : Nat) (q : Int) (denseBelow : Bool)
  | infinite (negative : Bool)
  | nan
  deriving Repr

def parts (x : Float) : Parts :=
  let bits := x.toBits.toNat
  let negative : Bool := Word.size 63 ≤ bits
  let field : Nat := bits / Word.size 52 % Word.size 11
  let fraction : Nat := bits % Word.size 52
  if field = 2047 then (if fraction = 0 then .infinite negative else .nan)
  else if field = 0 then .finite negative fraction (-1074) false
  else .finite negative (fraction + Word.size 52) ((field : Int) - 1075) (fraction = 0 && 1 < field)

end CrewFlow.Decimal
