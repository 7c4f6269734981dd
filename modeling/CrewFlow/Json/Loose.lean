import CrewFlow.Json.Printer
/-!
# Loose reading

Fields of an object that may be missing. Null is the same as missing, and so is a value of another kind
than the one that is asked for.
-/
namespace CrewFlow.Json.Loose

def opt (v : Value) (key : String) : Option Value :=
  match v.get? key with
  | some .null => none
  | found => found

def textOpt (v : Value) (key : String) : Option String := (opt v key).bind Value.text?

def textOr (v : Value) (key other : String) : String := (textOpt v key).getD other

def textOf (v : Value) (key : String) : String := textOr v key ""

def listOf (v : Value) (key : String) : List Value := ((opt v key).bind Value.items?).getD []

def textsOf (v : Value) (key : String) : List String := (listOf v key).filterMap Value.text?

def fieldsOf (v : Value) (key : String) : Fields := ((opt v key).bind Value.fields?).getD []

/-- A whole number, if there is one; a negative one counts as zero. -/
def natOpt (v : Value) (key : String) : Option Nat := ((opt v key).bind Value.int?).map Int.toNat

def natOr (v : Value) (key : String) (other : Nat) : Nat := (natOpt v key).getD other

def floatOpt (v : Value) (key : String) : Option Float :=
  match opt v key with
  | some (.num n) => some n.toFloat
  | _ => none

def boolOf (v : Value) (key : String) : Bool := ((opt v key).bind Value.bool?).getD false

end CrewFlow.Json.Loose
