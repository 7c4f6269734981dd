import CrewFlow.Spec.Checked
/-!
# Checks of single fields

A field is checked where it stands: the section that is blamed, the path of its entry and its key.
Texts lose the white space around them. A null field counts as missing.
-/
namespace CrewFlow.Spec

open Json (Value Fields)

/-- An entry of the document under check. -/
structure Entry where
  area : Section
  path : Path
  fields : Fields

namespace Entry

def pathTo (e : Entry) (key : String) : Path := e.path ++ [.key key]

/-- The value of a field, unless it is missing or null. -/
def get? (e : Entry) (key : String) : Option Value :=
  (Fields.get? e.fields key).filter fun v => !v.isNull

def reject {α : Type} (e : Entry) (key : String) (reason : Reason) : Checked (Option α) :=
  Checked.reject e.area (e.pathTo key) reason

def requiredText (e : Entry) (key : String) : Checked (Option String) :=
  match e.get? key with
  | some (.str s) =>
    if Text.isBlankText s then e.reject key .empty else pure (some (Text.trim s))
  | none => e.reject key .missing
  | some v => e.reject key (.wrongKind "a string" v.kind)

def optionalText (e : Entry) (key : String) : Checked (Option String) :=
  match e.get? key with
  | none => pure none
  | some (.str s) => pure (if Text.isBlankText s then none else some (Text.trim s))
  | some v => e.reject key (.wrongKind "a string" v.kind)

def optionalBool (e : Entry) (key : String) : Checked Bool :=
  match e.get? key with
  | none => pure false
  | some (.bool b) => pure b
  | some v => do
    Checked.report e.area (e.pathTo key) (.wrongKind "a boolean" v.kind)
    return false

def maxInt : Int := Decimal.Word.greatest 64

def maxCount : Nat := Decimal.Word.size 32 - 1

/-- A whole number, at least `least` when that is given. -/
def optionalInt (e : Entry) (key : String) (least : Option Int) : Checked (Option Int) :=
  match e.get? key with
  | none => pure none
  | some (.num (.int n)) =>
    if n ≤ maxInt ∧ least.all (· ≤ n) then pure (some n)
    else e.reject key (.notInteger least (.int n))
  | some v => e.reject key (.notInteger least v)

def optionalPositive (e : Entry) (key : String) : Checked (Option Nat) := do
  let n ← e.optionalInt key (some 1)
  return n.map Int.toNat

/-- A positive whole number of 32 bits. -/
def optionalCount (e : Entry) (key : String) : Checked (Option Nat) := do
  match ← e.optionalInt key (some 1) with
  | none => return none
  | some n =>
    if n ≤ maxCount then return some n.toNat
    else e.reject key (.tooLarge maxCount n)

/-- The items of a list of names from position `i` on. Blank items and items of another kind are
blamed and left out. -/
def nameItems (e : Entry) (key : String) (i : Nat) : List Value → Checked (List String)
  | [] => pure []
  | v :: vs => do
    match v with
    | .str s =>
      if Text.isBlankText s then
        Checked.report e.area (e.pathTo key ++ [.item i]) .blankItem
        nameItems e key (i + 1) vs
      else
        let rest ← nameItems e key (i + 1) vs
        return Text.trim s :: rest
    | _ =>
      Checked.report e.area (e.pathTo key ++ [.item i]) .blankItem
      nameItems e key (i + 1) vs

/-- A list of names; a lone text is a list of one. -/
def nameList (e : Entry) (key : String) : Checked (Option (List String)) := do
  match e.get? key with
  | none => return none
  | some (.arr items) =>
    let names ← e.nameItems key 0 items
    return some names
  | some (.str s) => return some [Text.trim s]
  | some v => e.reject key (.wrongKind "a list of strings" v.kind)

/-- The tool declarations from position `i` on. A faulty one is blamed and left out. -/
def toolItems (e : Entry) (i : Nat) : List Value → Checked (List ToolSpec)
  | [] => pure []
  | v :: vs => do
    let fault? : Except ToolFault ToolSpec := do
      let spec ← ToolSpec.declared v
      match spec.blankField? with
      | some fault => throw fault
      | none => return spec
    match fault? with
    | .ok spec =>
      let rest ← toolItems e (i + 1) vs
      return spec :: rest
    | .error fault =>
      Checked.report .tools (e.pathTo "tools" ++ [.item i]) (.tool fault)
      toolItems e (i + 1) vs

def tools (e : Entry) : Checked (List ToolSpec) := do
  match e.get? "tools" with
  | none => return []
  | some (.arr items) => e.toolItems 0 items
  | some v =>
    Checked.report .tools (e.pathTo "tools") (.wrongKind "a list" v.kind)
    return []

/-- A word of a vocabulary, with a value to take when it is missing or unknown. -/
def word {α : Type} (e : Entry) (key : String) (read : String → Except UnknownWord α) (other : α) :
    Checked α := do
  match ← e.optionalText key with
  | none => return other
  | some s =>
    match read s with
    | .ok a => return a
    | .error u =>
      Checked.report e.area (e.pathTo key) (.unknownWord u)
      return other

def llmAsked (name : String) : Option (Value → Json.Decoded Unit) :=
  if name = "model" then some (Json.Decode.test (Json.Decode.optional Json.Decode.text))
  else if name = "temperature" then
    some (Json.Decode.test (Json.Decode.optional Json.Decode.float))
  else none

end Entry

/-- Decodes a language model: model and temperature, and every other field beside them. -/
def LlmSpec.ofFields (fields : Fields) : Json.Decoded LlmSpec := do
  Json.Decode.check fields Entry.llmAsked
  let model ← Json.Decode.defaulted fields "model" (Json.Decode.optional Json.Decode.text) none
  let temperature ←
    Json.Decode.defaulted fields "temperature" (Json.Decode.optional Json.Decode.float) none
  return ⟨model, temperature, fields.filter fun f => f.1 ≠ "model" ∧ f.1 ≠ "temperature"⟩

def RouteTable.ofFields (fields : Fields) : Json.Decoded RouteTable := do
  let target := Json.Decode.optional Json.Decode.text
  Json.Decode.check fields fun name =>
    if ["true", "false", "default"].contains name then some (Json.Decode.test target) else none
  let onTrue ← Json.Decode.defaulted fields "true" target none
  let onFalse ← Json.Decode.defaulted fields "false" target none
  let otherwise ← Json.Decode.defaulted fields "default" target none
  return ⟨onTrue, onFalse, otherwise⟩

namespace Entry

def llm (e : Entry) : Checked (Option LlmSpec) :=
  match e.get? "llm" with
  | none => pure none
  | some (.str model) => pure (some ⟨some model, none, []⟩)
  | some (.obj fields) =>
    match LlmSpec.ofFields fields with
    | .ok llm => pure (some llm)
    | .error cause => e.reject "llm" (.malformed cause)
  | some v => e.reject "llm" (.wrongKind "a model name or a mapping" v.kind)

def routes (e : Entry) : Checked RouteTable := do
  match e.get? "routes" with
  | none => return .empty
  | some (.obj fields) =>
    match RouteTable.ofFields fields with
    | .ok routes => return routes
    | .error cause =>
      Checked.report e.area (e.pathTo "routes") (.malformed cause)
      return .empty
  | some v =>
    Checked.report e.area (e.pathTo "routes") (.wrongKind "a mapping" v.kind)
    return .empty

end Entry

end CrewFlow.Spec
