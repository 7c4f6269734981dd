import CrewFlow.Yaml.Node
/-!
# From YAML to JSON

A YAML tree as a JSON value: tags are dropped, and scalar keys become texts. A repeated text keeps
the place of the first key and the value of the last.
-/
namespace CrewFlow.Yaml

/-- What has no counterpart in JSON. -/
inductive Unsupported where
  | number (text : String)
  | key
  deriving DecidableEq, Repr

def Unsupported.message : Unsupported → String
  | .number text => "unsupported number " ++ text
  | .key => "unsupported mapping key"

def numberText : Json.Number → String
  | .int n => toString n
  | .float x =>
    if x.isNaN then ".nan"
    else if x.isInf then (if x < 0 then "-.inf" else ".inf")
    else (Decimal.text? .bare x).getD ""

namespace Node

def keyText : Node → Except Unsupported String
  | .str s => .ok s
  | .bool b => .ok (if b then "true" else "false")
  | .num n => .ok (numberText n)
  | .null => .ok "null"
  | _ => .error .key

mutual

def toJson : Node → Except Unsupported Json.Value
  | .null => .ok .null
  | .bool b => .ok (.bool b)
  | .num (.int n) => .ok (.int n)
  | .num (.float x) =>
    if x.isFinite then .ok (.num (.float x)) else .error (.number (numberText (.float x)))
  | .str s => .ok (.str s)
  | .seq items => do return .arr (← toJsonItems items)
  | .map entries => do return .obj (← toJsonFields [] entries)
  | .tagged _ n => toJson n

def toJsonItems : List Node → Except Unsupported (List Json.Value)
  | [] => .ok []
  | n :: ns => do
    let v ← toJson n
    let vs ← toJsonItems ns
    return v :: vs

/-- The fields of entries, written into `seen`. -/
def toJsonFields (seen : Json.Fields) :
    List (Node × Node) → Except Unsupported Json.Fields
  | [] => .ok seen
  | (k, n) :: rest => do
    let key ← keyText k
    let v ← toJson n
    toJsonFields (seen.insert key v) rest

end

end Node

end CrewFlow.Yaml
