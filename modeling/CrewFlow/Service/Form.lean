import CrewFlow.Json.Skip
/-!
# Forms

A form says which fields a request has and what each may hold. It is filled in from a JSON value, or
from a JSON text that is read from left to right: the first fault that is met counts, and nothing
behind the form is looked at. Fields may also be given as a list in the order of the form; then those
at the end may be left out unless they are required.
-/
namespace CrewFlow.Service

open Json (Value Fields)

/-- What a field of a form may hold. -/
inductive EntryKind where
  | text
  | optionalText
  | mapping
  deriving DecidableEq, Repr

structure Entry where
  name : String
  kind : EntryKind
  isRequired : Bool
  deriving DecidableEq, Repr

abbrev Form := List Entry

def EntryKind.accepts : EntryKind → Value → Bool
  | .text, .str _ => true
  | .optionalText, .str _ => true
  | .optionalText, .null => true
  | .mapping, .obj _ => true
  | _, _ => false

namespace Form

def entry? (form : Form) (name : String) : Option Entry := form.find? fun e => e.name == name

def isComplete (form : Form) (fields : Fields) : Bool :=
  form.all fun e => !e.isRequired || Json.Fields.has fields e.name

/-- Fills a form in from a value. Other fields of an object do not count. -/
def ofValue? (form : Form) : Value → Option Fields
  | .obj given =>
    let fields := given.filter fun f => (form.entry? f.1).isSome
    if fields.all (fun f => (form.entry? f.1).all fun e => e.kind.accepts f.2) &&
      form.isComplete fields then some fields else none
  | .arr given =>
    let fields := (form.zip given).map fun (e, v) => (e.name, v)
    if given.length ≤ form.length && (form.zip given).all (fun (e, v) => e.kind.accepts v) &&
      form.isComplete fields then some fields else none
  | _ => none

end Form

/-- Why a text does not fill a form in: it is no JSON up to there, or not of the form. -/
inductive FormFault where
  | malformed
  | wrongShape
  deriving DecidableEq, Repr

namespace Form

/-- The fault of a value that is of another kind than asked for. A list or an object is not looked
into. -/
def mismatch {α : Type} (cs : List Char) : Except FormFault α :=
  match cs with
  | '[' :: _ => .error .wrongShape
  | '{' :: _ => .error .wrongShape
  | _ => if (Json.value? 1 0 cs).isSome then .error .wrongShape else .error .malformed

def orMalformed {α : Type} : Option α → Except FormFault α
  | some x => .ok x
  | none => .error .malformed

def fieldDepth : Nat := Json.nestingLimit - 1

def readText (cs : List Char) : Except FormFault (Value × List Char) := do
  let (s, rest) ← orMalformed (Json.stringTail? [] (cs.length + 1) cs)
  return (.str s, rest)

def readValue (kind : EntryKind) (cs : List Char) : Except FormFault (Value × List Char) :=
  match kind, Json.skipSpace cs with
  | .text, '"' :: rest => readText rest
  | .optionalText, '"' :: rest => readText rest
  | .optionalText, 'n' :: rest => orMalformed (Json.value? 1 0 ('n' :: rest))
  | .mapping, '{' :: rest => orMalformed (Json.value? (2 * rest.length + 4) fieldDepth ('{' :: rest))
  | _, cs => mismatch cs

def afterColon (cs : List Char) : Except FormFault (List Char) :=
  match Json.skipSpace cs with
  | ':' :: rest => .ok rest
  | _ => .error .malformed

/-- Reads a field behind its name: what is to be kept of it, if anything. A field that is there twice
is a fault of the form. -/
def readField (form : Form) (seen : Fields) (name : String) (cs : List Char) :
    Except FormFault (Fields × List Char) :=
  match form.entry? name with
  | none => do return (seen, ← orMalformed (Json.skipValue? (← afterColon cs)))
  | some e =>
    if Json.Fields.has seen name then .error .wrongShape
    else do
      let (v, rest) ← readValue e.kind (← afterColon cs)
      return (seen ++ [(name, v)], rest)

def readFields (form : Form) (seen : Fields) : Nat → List Char → Except FormFault Fields
  | 0, _ => .error .malformed
  | fuel + 1, cs =>
    match Json.skipSpace cs with
    | '"' :: rest => do
      let (name, rest) ← orMalformed (Json.stringTail? [] (rest.length + 1) rest)
      let (seen, rest) ← readField form seen name rest
      match Json.skipSpace rest with
      | ',' :: rest => readFields form seen fuel rest
      | '}' :: _ => .ok seen
      | _ => .error .malformed
    | _ => .error .malformed

/-- Reads the fields of a list, each in its turn. `first` says that no field has been read. -/
def readItems (seen : Fields) (first : Bool) : Form → List Char → Except FormFault Fields
  | [], cs =>
    match Json.skipSpace cs with
    | ']' :: _ => .ok seen
    | _ => .error .malformed
  | e :: form, cs =>
    match Json.skipSpace cs, first with
    | ']' :: _, _ => .ok seen
    | cs, true => do
      let (v, rest) ← readValue e.kind cs
      readItems (seen ++ [(e.name, v)]) false form rest
    | ',' :: rest, false =>
      match Json.skipSpace rest with
      | ']' :: _ => .error .malformed
      | cs => do
        let (v, rest) ← readValue e.kind cs
        readItems (seen ++ [(e.name, v)]) false form rest
    | _, false => .error .malformed

def readGiven (form : Form) (cs : List Char) : Except FormFault Fields :=
  match cs with
  | '{' :: rest =>
    match Json.skipSpace rest with
    | '}' :: _ => .ok []
    | rest => readFields form [] (rest.length + 1) rest
  | '[' :: rest => readItems [] true form rest
  | cs => mismatch cs

def read (form : Form) (text : String) : Except FormFault Fields := do
  let fields ← readGiven form (Json.skipSpace text.toList)
  if form.isComplete fields then return fields else throw .wrongShape

end Form

end CrewFlow.Service
