import CrewFlow.Decimal.Notation
import CrewFlow.Json.Basic
import CrewFlow.Yaml.Token
/-!
# Values of plain scalars

A plain scalar is null, a Boolean, an integer, a double or a string, by its text alone. Integers are
decimal, hexadecimal, octal or binary with an optional sign; a text of digits that starts with a
superfluous zero is a string.
-/
namespace CrewFlow.Yaml

/-- The value of a scalar. -/
inductive Plain where
  | null
  | bool (b : Bool)
  | num (n : Json.Number)
  | str (s : String)

namespace Plain

def isNull (cs : List Char) : Bool :=
  ["null", "Null", "NULL", "~"].any fun s => s.toList == cs

def bool? (cs : List Char) : Option Bool :=
  if ["true", "True", "TRUE"].any fun s => s.toList == cs then some true
  else if ["false", "False", "FALSE"].any fun s => s.toList == cs then some false
  else none

def digit? (base : Nat) (c : Char) : Option Nat :=
  let value :=
    if '0' ≤ c ∧ c ≤ '9' then c.toNat - 48
    else if 'a' ≤ c ∧ c ≤ 'f' then c.toNat - 87
    else if 'A' ≤ c ∧ c ≤ 'F' then c.toNat - 55
    else 16
  if value < base then some value else none

def natural? (base : Nat) (cs : List Char) : Option Nat :=
  if cs.isEmpty then none
  else cs.foldlM (fun n c => (digit? base c).map fun d => n * base + d) 0

def based : List Char → Nat × List Char
  | '0' :: 'x' :: cs => (16, cs)
  | '0' :: 'o' :: cs => (8, cs)
  | '0' :: 'b' :: cs => (2, cs)
  | cs => (10, cs)

/-- Whether a text is a run of digits, with a sign or not, that starts with a superfluous zero. -/
def hasLeadingZero (cs : List Char) : Bool :=
  let (_, digits) := Decimal.takeSign cs
  1 < digits.length && digits.head? == some '0' && digits.all Char.isDigit

def integer? (cs : List Char) : Option Int :=
  if hasLeadingZero cs then none
  else
    let (negative, digits) := Decimal.takeSign cs
    let (base, digits) := based digits
    (natural? base digits).map fun n => if negative then -(n : Int) else n

/-- The double of a text, infinities and NaN included; a numeral out of range has none. -/
def float? (cs : List Char) : Option Float :=
  let unsigned := if cs.head? = some '+' then cs.drop 1 else cs
  if cs.head? = some '+' ∧ (unsigned.head? = some '+' ∨ unsigned.head? = some '-') then none
  else if [".inf", ".Inf", ".INF"].any fun s => s.toList == unsigned then some (1.0 / 0.0)
  else if ["-.inf", "-.Inf", "-.INF"].any fun s => s.toList == cs then some (-1.0 / 0.0)
  else if [".nan", ".NaN", ".NAN"].any fun s => s.toList == cs then some (0.0 / 0.0)
  else (Decimal.read? unsigned).filter Float.isFinite

def isWord (n : Int) : Bool := Decimal.Word.least 64 ≤ n && n < Decimal.Word.size 64

/-- Whether an integer fits in 128 bits, signed or unsigned. -/
def isDoubleWord (n : Int) : Bool := Decimal.Word.least 128 ≤ n && n < Decimal.Word.size 128

/-- The number of a text: none when it is not an integer, and an error for an integer that fits in
128 bits but not in 64. -/
def integerNumber? (cs : List Char) : Option (Option Json.Number) :=
  match integer? cs with
  | some n =>
    if isWord n then some (some (.int n)) else if isDoubleWord n then none else some none
  | none => some none

def read? (cs : List Char) : Option Plain :=
  if cs.isEmpty || isNull cs then some .null
  else
    match bool? cs with
    | some b => some (.bool b)
    | none =>
      match integerNumber? cs with
      | none => none
      | some (some n) => some (.num n)
      | some none =>
        if hasLeadingZero cs then some (.str (String.ofList cs))
        else
          match float? cs with
          | some x => some (.num (.float x))
          | none => some (.str (String.ofList cs))

/-- The value of a scalar without a tag: only a plain one is more than a string. -/
def readStyled? (cs : List Char) (style : Style) : Option Plain :=
  if style = .plain then read? cs else some (.str (String.ofList cs))

def coreTag (kind : String) : Address := ("tag:yaml.org,2002:" ++ kind).toUTF8.toList

/-- The value of a scalar with a tag: by a tag of the core schema a number, a Boolean and null must
be spelled as such; a tag of the application says nothing, and by any other tag it is a string. -/
def readTagged? (tag : Address) (cs : List Char) (style : Style) : Option Plain :=
  if tag = coreTag "bool" then (bool? cs).map .bool
  else if tag = coreTag "int" then (integerNumber? cs).join.map .num
  else if tag = coreTag "float" then (float? cs).map fun x => .num (.float x)
  else if tag = coreTag "null" then if isNull cs then some .null else none
  else if tag.head? = some 0x21 then readStyled? cs style
  else some (.str (String.ofList cs))

end Plain

end CrewFlow.Yaml
