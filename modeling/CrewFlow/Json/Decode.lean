import CrewFlow.Json.Printer
import CrewFlow.Text.Quoted
/-!
# Decoding JSON values

Why a value is not of the expected form, and the decoders of the simple forms. In an object the
fields are checked in the order in which they stand; missing fields are told after that. A record
may also be given as a list of its fields in their order.
-/
namespace CrewFlow.Json

/-- Why a value could not be decoded. -/
inductive DecodeError where
  | missingField (name : String)
  | unknownVariant (word : String) (known : List String)
  | invalidType (got : Value) (expected : String)
  | invalidValue (got : Value) (expected : String)
  | invalidLength (count : Nat) (expected : String)
  deriving Repr

def Value.described : Value → String
  | .null => "null"
  | .bool b => "boolean `" ++ (if b then "true" else "false") ++ "`"
  | .num (.int n) => "integer `" ++ toString n ++ "`"
  | .num (.float x) => "floating point `" ++ (Number.float x).text ++ "`"
  | .str s => "string " ++ Text.quoted s
  | .arr _ => "sequence"
  | .obj _ => "map"

def DecodeError.message : DecodeError → String
  | .missingField name => "missing field `" ++ name ++ "`"
  | .unknownVariant word known =>
    "unknown variant `" ++ word ++ "`, expected one of " ++
      ", ".intercalate (known.map fun k => "`" ++ k ++ "`")
  | .invalidType got expected => "invalid type: " ++ got.described ++ ", expected " ++ expected
  | .invalidValue got expected => "invalid value: " ++ got.described ++ ", expected " ++ expected
  | .invalidLength count expected =>
    "invalid length " ++ toString count ++ ", expected " ++ expected

abbrev Decoded (α : Type) := Except DecodeError α

namespace Decode

def text : Value → Decoded String
  | .str s => .ok s
  | v => .error (.invalidType v "a string")

def bool : Value → Decoded Bool
  | .bool b => .ok b
  | v => .error (.invalidType v "a boolean")

def float : Value → Decoded Float
  | .num n => .ok n.toFloat
  | v => .error (.invalidType v "f64")

def int (low high : Int) (expected : String) : Value → Decoded Int
  | .num (.int n) =>
    if low ≤ n ∧ n ≤ high then .ok n else .error (.invalidValue (.int n) expected)
  | v => .error (.invalidType v expected)

def fields : Value → Decoded Fields
  | .obj fields => .ok fields
  | v => .error (.invalidType v "a map")

/-- A record: its name, and its fields in order. -/
structure Layout where
  name : String
  fields : List String

/-- The fields of a record, given as an object, or as a list with at least `least` of them. -/
def record (layout : Layout) (least : Nat) : Value → Decoded Fields
  | .obj fields => .ok fields
  | .arr items =>
    if items.length < least then
      .error (.invalidLength items.length
        (layout.name ++ " with " ++ toString layout.fields.length ++ " elements"))
    else if layout.fields.length < items.length then
      .error (.invalidLength items.length "fewer elements in array")
    else .ok (layout.fields.zip items)
  | v => .error (.invalidType v layout.name)

/-- A word of a closed list, by itself or as the only field of an object, with null. -/
def variant {α : Type} (known : List (String × α)) : Value → Decoded α
  | .str word => find word
  | .obj [(word, v)] => do
    let a ← find word
    match v with
    | .null => return a
    | v => throw (.invalidType v "unit")
  | v@(.obj _) => .error (.invalidValue v "map with a single key")
  | v => .error (.invalidType v "string or map")
where
  /-- The word's meaning. -/
  find (word : String) : Decoded α :=
    match known.lookup word with
    | some a => .ok a
    | none => .error (.unknownVariant word (known.map (·.1)))

def items {α : Type} (item : Value → Decoded α) : Value → Decoded (List α)
  | .arr vs => vs.mapM item
  | v => .error (.invalidType v "a sequence")

def optional {α : Type} (decode : Value → Decoded α) : Value → Decoded (Option α)
  | .null => .ok none
  | v => (decode v).map some

/-- Any value; null counts as none. -/
def any : Value → Decoded (Option Value)
  | .null => .ok none
  | v => .ok (some v)

def required {α : Type} (fs : Fields) (name : String) (decode : Value → Decoded α) : Decoded α :=
  match fs.get? name with
  | some v => decode v
  | none => .error (.missingField name)

def defaulted {α : Type} (fs : Fields) (name : String) (decode : Value → Decoded α) (value : α) :
    Decoded α :=
  match fs.get? name with
  | some v => decode v
  | none => .ok value

/-- Checks every field, in the order in which they stand, by what is asked of its name. -/
def check (fs : Fields) (asked : String → Option (Value → Decoded Unit)) : Decoded Unit :=
  fs.forM fun (name, v) =>
    match asked name with
    | some test => test v
    | none => .ok ()

def test {α : Type} (decode : Value → Decoded α) (v : Value) : Decoded Unit :=
  (decode v).map fun _ => ()

end Decode

end CrewFlow.Json
