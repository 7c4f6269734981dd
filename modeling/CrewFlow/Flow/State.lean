import CrewFlow.Json.Parser
import CrewFlow.Json.Printer
import CrewFlow.Spec.Document
/-!
# Flow state

What the steps of one run share: declared fields, a completion flag for every step and the results
of crews. The text that a crew yields is converted to the type of the field that takes it.
-/
namespace CrewFlow.Flow

open Json (Value Fields)
open Spec (FieldSpec FieldType)

inductive CoerceError where
  | notInteger (text : String)
  | notNumber (text : String)
  | notBoolean (text : String)
  | notObject
  deriving DecidableEq, Repr

def CoerceError.message : CoerceError → String
  | .notInteger text => "'" ++ text ++ "' is not an integer"
  | .notNumber text => "'" ++ text ++ "' is not a number"
  | .notBoolean text => "'" ++ text ++ "' is not a boolean"
  | .notObject => "expected a JSON object"

/-- Reads a signed 64-bit integer: an optional sign and digits. -/
def readInteger? (s : String) : Option Int :=
  let (negative, digits) := Decimal.takeSign s.toList
  if digits.isEmpty || !digits.all Char.isDigit then none
  else
    let n : Int := Decimal.digitsValue digits
    let n := if negative then -n else n
    if Decimal.Word.least 64 ≤ n ∧ n ≤ Decimal.Word.greatest 64 then some n else none

/-- Reads a decimal numeral, or the name of an infinity or of NaN in any case. -/
def readDecimal? (s : String) : Option Float :=
  let (negative, word) := Decimal.takeSign s.toList
  let word := String.ofList (word.map Char.toLower)
  let signed (x : Float) : Float := if negative then -x else x
  if word = "inf" ∨ word = "infinity" then some (signed (1.0 / 0.0))
  else if word = "nan" then some (signed (0.0 / 0.0))
  else Decimal.read? s.toList

/-- Converts a text to a type. A list that is no JSON list is the list of the one text; a number
that JSON cannot hold becomes null. -/
def coerce (type : FieldType) (raw : String) : Except CoerceError Value :=
  let text := Text.trim raw
  match type with
  | .text => .ok (.str raw)
  | .integer =>
    match readInteger? text with
    | some n => .ok (.int n)
    | none => .error (.notInteger text)
  | .decimal =>
    match readDecimal? text with
    | some x => .ok (.ofFloat x)
    | none => .error (.notNumber text)
  | .boolean =>
    let word := Text.lowerAscii text
    if ["true", "yes", "y", "1"].contains word then .ok (.bool true)
    else if ["false", "no", "n", "0"].contains word then .ok (.bool false)
    else .error (.notBoolean text)
  | .list =>
    match Json.parse? text with
    | some (.arr items) => .ok (.arr items)
    | _ => .ok (.arr [.str raw])
  | .map =>
    match Json.parse? text with
    | some (.obj fields) => .ok (.obj fields)
    | _ => .error .notObject

def truthy : Value → Bool
  | .null => false
  | .bool b => b
  | .num (.int n) => n ≠ 0
  | .num (.float x) => x != 0.0
  | .str s =>
    let word := Text.lowerAscii (Text.trim s)
    !(word = "" || word = "false" || word = "0" || word = "no")
  | .arr items => !items.isEmpty
  | .obj fields => !fields.isEmpty

/-- The state of one run. Completion flags are kept by step name. -/
structure State where
  id : String
  workflowId : Option String
  fields : Fields
  types : List (String × FieldType)
  completed : List (String × Bool)
  results : List String

namespace State

def setFlag (flags : List (String × Bool)) (step : String) (done : Bool) : List (String × Bool) :=
  (step, done) :: flags.filter fun f => f.1 ≠ step

def start (id : String) (declared : List FieldSpec) (steps : List String)
    (workflowId : Option String) : State :=
  { id, workflowId
    fields := Fields.ofList (declared.map fun f => (f.name, f.initial))
    -- Lookups take the first entry; of several declarations the last one is to count.
    types := declared.reverse.map fun f => (f.name, f.type)
    completed := steps.foldl (fun flags s => setFlag flags s false) []
    results := [] }

/-- The value of a field. The id is no field. -/
def get? (s : State) (field : String) : Option Value :=
  if field = "id" then none else s.fields.get? field

def put (s : State) (field : String) (v : Value) : State :=
  { s with fields := s.fields.insert field v }

/-- Stores a text, converted to the type of the field; a field without a type takes the text. -/
def setText (s : State) (field raw : String) : Except CoerceError State :=
  match s.types.lookup field with
  | some type => do return s.put field (← coerce type raw)
  | none => .ok (s.put field (.str raw))

def mark (s : State) (step : String) : State :=
  { s with completed := setFlag s.completed step true }

def isCompleted (s : State) (step : String) : Bool := (s.completed.lookup step).getD false

/-- Whether a field counts as true; a missing one does not. -/
def isTruthy (s : State) (field : String) : Bool := ((s.fields.get? field).map truthy).getD false

def pushResult (s : State) (raw : String) : State := { s with results := s.results ++ [raw] }

def flags (s : State) : List (String × Bool) := s.completed.mergeSort fun a b => !(b.1 < a.1)

/-- The flat view: id, workflow id, fields, completion flags and results under their keys. -/
def toFields (s : State) : Fields :=
  let head : List (String × Value) :=
    ("id", .str s.id) :: (s.workflowId.map fun w => ("workflow_id", .str w)).toList
  let flagFields : List (String × Value) :=
    s.flags.map fun f => (f.1 ++ Spec.completedSuffix, .bool f.2)
  Fields.ofList (head ++ s.fields ++ flagFields ++ [("results", .ofTexts s.results)])

def toJson (s : State) : Value := .obj s.toFields

end State

end CrewFlow.Flow
