/-!
# JSON values

Values with ordered objects. A number is an integer or a double, and the two are never confused:
`1` and `1.0` are different values. Objects are lists of fields in insertion order; a field that is
written again keeps its place and takes the new value.
-/
namespace CrewFlow.Json

inductive Number where
  | int (n : Int)
  | float (x : Float)
  deriving Repr

/-- Equality of doubles is that of their bits, so a value equals itself. -/
def Number.same : Number → Number → Bool
  | .int m, .int n => m == n
  | .float x, .float y => x.toBits == y.toBits
  | _, _ => false

instance : BEq Number := ⟨Number.same⟩

instance : Inhabited Number := ⟨.int 0⟩

def Number.toFloat : Number → Float
  | .int n => if n < 0 then -(Float.ofNat n.natAbs) else Float.ofNat n.natAbs
  | .float x => x

inductive Value where
  | null
  | bool (b : Bool)
  | num (n : Number)
  | str (s : String)
  | arr (items : List Value)
  | obj (fields : List (String × Value))
  deriving Inhabited, Repr

abbrev Fields := List (String × Value)

namespace Fields

def get? (fields : Fields) (key : String) : Option Value := fields.lookup key

def has (fields : Fields) (key : String) : Bool := fields.any fun f => f.1 == key

/-- Writes a field: in its place when it is there, else at the end. -/
def insert : Fields → String → Value → Fields
  | [], key, v => [(key, v)]
  | f :: rest, key, v => if f.1 = key then (key, v) :: rest else f :: insert rest key v

def erase (fields : Fields) (key : String) : Fields := fields.filter fun f => f.1 ≠ key

def ofList (entries : List (String × Value)) : Fields :=
  entries.foldl (fun fields e => fields.insert e.1 e.2) []

end Fields

namespace Value

def int (n : Int) : Value := .num (.int n)

/-- A double; JSON has no infinities and no NaN, they become null. -/
def ofFloat (x : Float) : Value := if x.isFinite then .num (.float x) else .null

def ofText? : Option String → Value
  | some s => .str s
  | none => .null

def ofInt? : Option Int → Value
  | some n => .int n
  | none => .null

def ofTexts (items : List String) : Value := .arr (items.map .str)

def text? : Value → Option String
  | .str s => some s
  | _ => none

def int? : Value → Option Int
  | .num (.int n) => some n
  | _ => none

def bool? : Value → Option Bool
  | .bool b => some b
  | _ => none

def items? : Value → Option (List Value)
  | .arr items => some items
  | _ => none

def fields? : Value → Option Fields
  | .obj fields => some fields
  | _ => none

def get? (v : Value) (key : String) : Option Value := v.fields?.bind (·.get? key)

def isNull : Value → Bool
  | .null => true
  | _ => false

def kind : Value → String
  | .null => "null"
  | .bool _ => "boolean"
  | .num _ => "number"
  | .str _ => "string"
  | .arr _ => "list"
  | .obj _ => "mapping"

mutual

def same : Value → Value → Bool
  | .null, .null => true
  | .bool a, .bool b => a == b
  | .num a, .num b => a == b
  | .str a, .str b => a == b
  | .arr a, .arr b => sameItems a b
  | .obj a, .obj b => sameFields a b
  | _, _ => false

def sameItems : List Value → List Value → Bool
  | [], [] => true
  | a :: as, b :: bs => same a b && sameItems as bs
  | _, _ => false

def sameFields : List (String × Value) → List (String × Value) → Bool
  | [], [] => true
  | (k, a) :: as, (l, b) :: bs => k == l && same a b && sameFields as bs
  | _, _ => false

end

instance : BEq Value := ⟨same⟩

mutual

def sorted : Value → Value
  | .arr items => .arr (sortedItems items)
  | .obj fields => .obj ((sortedFields fields).mergeSort fun a b => !(b.1 < a.1))
  | v => v

def sortedItems : List Value → List Value
  | [] => []
  | v :: vs => sorted v :: sortedItems vs

def sortedFields : List (String × Value) → List (String × Value)
  | [] => []
  | (k, v) :: fs => (k, sorted v) :: sortedFields fs

end

end Value

end CrewFlow.Json
