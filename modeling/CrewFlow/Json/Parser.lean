import CrewFlow.Decimal.Notation
import CrewFlow.Json.Basic
/-!
# Reading JSON texts

A reader for one JSON value with nothing but white space around it. Nesting is limited, a repeated
field keeps its first place and its last value, and a number is an integer when its text has no
point and no power and its value fits in 64 bits, signed or unsigned.

Doubles are read in two steps. The digits are gathered into a 64-bit integer, which keeps as many
leading digits as fit; its nearest double is then multiplied or divided by the double nearest to the
power of ten.
-/
namespace CrewFlow.Json

def nestingLimit : Nat := 127

def maxWord : Nat := Decimal.Word.size 64 - 1

def isJsonSpace (c : Char) : Bool := c == ' ' || c == '\n' || c == '\r' || c == '\t'

def skipSpace (cs : List Char) : List Char := cs.dropWhile isJsonSpace

def hexValue? (c : Char) : Option Nat :=
  if '0' ≤ c ∧ c ≤ '9' then some (c.toNat - 48)
  else if 'a' ≤ c ∧ c ≤ 'f' then some (c.toNat - 87)
  else if 'A' ≤ c ∧ c ≤ 'F' then some (c.toNat - 55)
  else none

def hexQuad? : List Char → Option (Nat × List Char)
  | a :: b :: c :: d :: rest => do
    let a ← hexValue? a
    let b ← hexValue? b
    let c ← hexValue? c
    let d ← hexValue? d
    return (a * 4096 + b * 256 + c * 16 + d, rest)
  | _ => none

/-- The character of an escape `\u`, whose four digits come first: a surrogate needs its partner
behind it. -/
def unicodeEscape? (cs : List Char) : Option (Char × List Char) := do
  let (high, rest) ← hexQuad? cs
  if 0xD800 ≤ high ∧ high < 0xDC00 then
    match rest with
    | '\\' :: 'u' :: rest =>
      let (low, rest) ← hexQuad? rest
      if 0xDC00 ≤ low ∧ low < 0xE000 then
        return (Char.ofNat (0x10000 + (high - 0xD800) * 0x400 + (low - 0xDC00)), rest)
      else none
    | _ => none
  else if 0xDC00 ≤ high ∧ high < 0xE000 then none
  else return (Char.ofNat high, rest)

def simpleEscape? (c : Char) : Option Char :=
  if c = '"' then some '"'
  else if c = '\\' then some '\\'
  else if c = '/' then some '/'
  else if c = 'b' then some '\x08'
  else if c = 'f' then some '\x0c'
  else if c = 'n' then some '\n'
  else if c = 'r' then some '\r'
  else if c = 't' then some '\t'
  else none

/-- The characters of a string up to its closing quote, put behind `seen`, last first. -/
def stringTail? (seen : List Char) : Nat → List Char → Option (String × List Char)
  | 0, _ => none
  | _, [] => none
  | fuel + 1, c :: cs =>
    if c = '"' then some (String.ofList seen.reverse, cs)
    else if c = '\\' then
      match cs with
      | 'u' :: rest => do
        let (d, rest) ← unicodeEscape? rest
        stringTail? (d :: seen) fuel rest
      | e :: rest => do
        let d ← simpleEscape? e
        stringTail? (d :: seen) fuel rest
      | [] => none
    else if c.toNat < 0x20 then none
    else stringTail? (c :: seen) fuel cs

/-- A number read so far: `significand * 10 ^ exponent`, where `full` says that further digits no
longer fit into the significand. -/
structure Gathered where
  significand : Nat
  exponent : Int
  full : Bool

/-- Takes one more digit; behind the point it moves the exponent. A digit that does not fit raises
the exponent before the point and is ignored behind it. -/
def Gathered.digit (g : Gathered) (c : Char) (behindPoint : Bool) : Gathered :=
  let n := g.significand * 10 + (c.toNat - 48)
  if g.full || maxWord < n then
    { g with full := true, exponent := if behindPoint then g.exponent else g.exponent + 1 }
  else { g with significand := n, exponent := if behindPoint then g.exponent - 1 else g.exponent }

def wordToFloat (n : Nat) : Float := Decimal.nearest n 0

/-- Divides by `10 ^ 308` until the power of ten that is left has a double. -/
def scaleDown (x : Float) (e : Nat) : Nat → Float
  | 0 => x
  | fuel + 1 =>
    if e ≤ 308 then x / Decimal.nearest 1 e
    else if x == 0.0 then x
    else scaleDown (x / Decimal.nearest 1 308) (e - 308) fuel

/-- The double of gathered digits; none when it is too large. -/
def Gathered.float? (g : Gathered) : Option Float :=
  let x := wordToFloat g.significand
  if 0 ≤ g.exponent then
    if g.exponent ≤ 308 then
      let y := x * Decimal.nearest 1 g.exponent
      if y.isFinite then some y else none
    else if x == 0.0 then some x else none
  else some (scaleDown x g.exponent.natAbs 4)

def maxPower : Nat := Decimal.Word.size 31 - 1

def exponent? (cs : List Char) : Option (Bool × Nat × List Char) :=
  let (negative, cs) := Decimal.takeSign cs
  let digits := cs.takeWhile Char.isDigit
  if digits.isEmpty then none
  else some (negative, Decimal.digitsValue digits, cs.drop digits.length)

def finishFloat? (negative : Bool) (g : Gathered) (cs : List Char) :
    Option (Number × List Char) := do
  let signed (x : Float) := Number.float (if negative then -x else x)
  match cs with
  | c :: rest =>
    if c = 'e' ∨ c = 'E' then
      let (down, power, rest) ← exponent? rest
      if maxPower < power then
        -- A power too large to compute with: upwards only zero has a value, downwards all is zero.
        if g.significand ≠ 0 ∧ !down then none else return (signed 0.0, rest)
      else
        let exponent := if down then g.exponent - power else g.exponent + power
        let x ← Gathered.float? { g with exponent }
        return (signed x, rest)
    else
      let x ← g.float?
      return (signed x, cs)
  | [] =>
    let x ← g.float?
    return (signed x, [])

/-- An integer as a number: one out of range, and minus zero, is a double. -/
def ofWord (negative : Bool) (n : Nat) : Number :=
  if negative then
    if n = 0 ∨ Decimal.Word.size 63 < n then .float (-(wordToFloat n)) else .int (-n)
  else .int n

def number? (negative : Bool) (cs : List Char) : Option (Number × List Char) := do
  let whole := cs.takeWhile Char.isDigit
  let rest := cs.drop whole.length
  if whole.isEmpty || (whole.head? == some '0' && whole.length ≠ 1) then none
  let g := whole.foldl (fun (g : Gathered) c => g.digit c false) ⟨0, 0, false⟩
  match rest with
  | '.' :: fraction =>
    let digits := fraction.takeWhile Char.isDigit
    if digits.isEmpty then none
    else
      -- A digit behind the point may fit where the last one in front of it did not.
      let start := { g with full := false }
      let g := digits.foldl (fun (g : Gathered) c => g.digit c true) start
      finishFloat? negative g (fraction.drop digits.length)
  | c :: _ =>
    if g.full || c == 'e' || c == 'E' then finishFloat? negative g rest
    else return (ofWord negative g.significand, rest)
  | [] => if g.full then finishFloat? negative g rest else return (ofWord negative g.significand, [])

def literal? (word : List Char) (v : Value) (cs : List Char) : Option (Value × List Char) :=
  if word.isPrefixOf cs then some (v, cs.drop word.length) else none

mutual

/-- A value at the front of a text, and what follows it. `depth` counts the levels of nesting that
are left. -/
def value? (fuel depth : Nat) (cs : List Char) : Option (Value × List Char) :=
  match fuel with
  | 0 => none
  | fuel + 1 =>
    match skipSpace cs with
    | [] => none
    | c :: rest =>
      if c = 'n' then literal? "null".toList .null (c :: rest)
      else if c = 't' then literal? "true".toList (.bool true) (c :: rest)
      else if c = 'f' then literal? "false".toList (.bool false) (c :: rest)
      else if c = '-' then (number? true rest).map fun (n, r) => (.num n, r)
      else if c.isDigit then (number? false (c :: rest)).map fun (n, r) => (.num n, r)
      else if c = '"' then
        (stringTail? [] (rest.length + 1) rest).map fun (s, r) => (.str s, r)
      else if c = '[' then
        match depth with
        | 0 => none
        | depth + 1 =>
          match skipSpace rest with
          | ']' :: rest => some (.arr [], rest)
          | rest => (items? fuel depth rest).map fun (vs, r) => (.arr vs, r)
      else if c = '{' then
        match depth with
        | 0 => none
        | depth + 1 =>
          match skipSpace rest with
          | '}' :: rest => some (.obj [], rest)
          | rest => (fields? fuel depth [] rest).map fun (fs, r) => (.obj fs, r)
      else none

def items? (fuel depth : Nat) (cs : List Char) : Option (List Value × List Char) :=
  match fuel with
  | 0 => none
  | fuel + 1 => do
    let (v, rest) ← value? fuel depth cs
    match skipSpace rest with
    | ',' :: rest =>
      let (vs, rest) ← items? fuel depth rest
      return (v :: vs, rest)
    | ']' :: rest => return ([v], rest)
    | _ => none

/-- The fields of an object up to its closing brace, written into `seen`. -/
def fields? (fuel depth : Nat) (seen : Fields) (cs : List Char) : Option (Fields × List Char) :=
  match fuel with
  | 0 => none
  | fuel + 1 => do
    match skipSpace cs with
    | '"' :: rest =>
      let (key, rest) ← stringTail? [] (rest.length + 1) rest
      match skipSpace rest with
      | ':' :: rest =>
        let (v, rest) ← value? fuel depth rest
        let seen := seen.insert key v
        match skipSpace rest with
        | ',' :: rest => fields? fuel depth seen rest
        | '}' :: rest => return (seen, rest)
        | _ => none
      | _ => none
    | _ => none

end

def parse? (s : String) : Option Value :=
  let cs := s.toList
  match value? (2 * cs.length + 2) nestingLimit cs with
  | some (v, rest) => if (skipSpace rest).isEmpty then some v else none
  | none => none

end CrewFlow.Json
