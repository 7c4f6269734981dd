import CrewFlow.Json.Basic
import CrewFlow.Text.Search
/-!
# Words of a workflow document

The small vocabularies of a document: kinds of orchestration, processes, kinds of flow methods, joins
and types of state fields. Words are read without regard to white space around them and to the case
of ASCII letters.
-/
namespace CrewFlow.Spec

/-- A vocabulary of the document. -/
inductive Vocabulary where
  | process
  | method
  | join
  | fieldType
  | status
  deriving DecidableEq, Repr

/-- A word that its vocabulary does not have. -/
structure UnknownWord where
  vocabulary : Vocabulary
  word : String
  deriving DecidableEq, Repr

def UnknownWord.message (u : UnknownWord) : String :=
  match u.vocabulary with
  | .process => "unknown process '" ++ u.word ++ "' (expected sequential or hierarchical)"
  | .method => "unknown method type '" ++ u.word ++ "' (expected start, listen or router)"
  | .join => "unknown logic '" ++ u.word ++ "' (expected AND or OR)"
  | .fieldType => "unknown state type '" ++ u.word ++ "'"
  | .status => "unknown execution status '" ++ u.word ++ "'"

def lowerWord (s : String) : String := Text.lowerAscii (Text.trim s)

def upperWord (s : String) : String := Text.upperAscii (Text.trim s)

/-- What a document describes. -/
inductive Orchestration where
  | crew
  | flow
  deriving DecidableEq, Repr

def Orchestration.text : Orchestration → String
  | .crew => "crew"
  | .flow => "flow"

/-- Reads an orchestration; an unknown word is given back as it was read. -/
def Orchestration.ofText (s : String) : Except String Orchestration :=
  let word := lowerWord s
  if word = "crew" ∨ word = "crews" then .ok .crew
  else if word = "flow" ∨ word = "flows" then .ok .flow
  else .error word

/-- How a crew hands out its tasks. -/
inductive CrewProcess where
  | sequential
  | hierarchical
  deriving DecidableEq, Repr

def CrewProcess.text : CrewProcess → String
  | .sequential => "sequential"
  | .hierarchical => "hierarchical"

def CrewProcess.ofText (s : String) : Except UnknownWord CrewProcess :=
  let word := lowerWord s
  if word = "sequential" then .ok .sequential
  else if word = "hierarchical" then .ok .hierarchical
  else .error ⟨.process, word⟩

/-- The kind of a flow method. -/
inductive MethodKind where
  | start
  | listen
  | router
  deriving DecidableEq, Repr

def MethodKind.text : MethodKind → String
  | .start => "start"
  | .listen => "listen"
  | .router => "router"

def MethodKind.ofText (s : String) : Except UnknownWord MethodKind :=
  let word := lowerWord s
  if word = "start" then .ok .start
  else if word = "listen" then .ok .listen
  else if word = "router" then .ok .router
  else .error ⟨.method, word⟩

/-- How a step joins its predecessors: all of them must complete, or any one. -/
inductive Join where
  | all
  | any
  deriving DecidableEq, Repr

def Join.text : Join → String
  | .all => "AND"
  | .any => "OR"

def Join.ofText (s : String) : Except UnknownWord Join :=
  let word := upperWord s
  if word = "AND" then .ok .all
  else if word = "OR" then .ok .any
  else .error ⟨.join, word⟩

/-- The type of a state field. -/
inductive FieldType where
  | text
  | integer
  | decimal
  | boolean
  | list
  | map
  deriving DecidableEq, Repr

namespace FieldType

def word : FieldType → String
  | .text => "text"
  | .integer => "integer"
  | .decimal => "decimal"
  | .boolean => "boolean"
  | .list => "list"
  | .map => "map"

def title : FieldType → String
  | .text => "Text"
  | .integer => "Integer"
  | .decimal => "Decimal"
  | .boolean => "Boolean"
  | .list => "List"
  | .map => "Map"

def ofText (s : String) : Except UnknownWord FieldType :=
  let word := lowerWord s
  if ["text", "str", "string"].contains word then .ok .text
  else if ["integer", "int"].contains word then .ok .integer
  else if ["decimal", "float", "number"].contains word then .ok .decimal
  else if ["boolean", "bool"].contains word then .ok .boolean
  else if ["list", "array"].contains word then .ok .list
  else if ["map", "dict", "object"].contains word then .ok .map
  else .error ⟨.fieldType, word⟩

def zero : FieldType → Json.Value
  | .text => .str ""
  | .integer => .int 0
  | .decimal => .num (.float 0.0)
  | .boolean => .bool false
  | .list => .arr []
  | .map => .obj []

/-- Whether a value has the type; an integer is a decimal too. -/
def accepts : FieldType → Json.Value → Bool
  | .text, .str _ => true
  | .integer, .num (.int _) => true
  | .decimal, .num _ => true
  | .boolean, .bool _ => true
  | .list, .arr _ => true
  | .map, .obj _ => true
  | _, _ => false

/-- The type of a bare default; null has none. -/
def infer : Json.Value → Option FieldType
  | .str _ => some .text
  | .bool _ => some .boolean
  | .num (.int _) => some .integer
  | .num (.float _) => some .decimal
  | .arr _ => some .list
  | .obj _ => some .map
  | .null => none

theorem accepts_zero (t : FieldType) : t.accepts t.zero = true := by cases t <;> rfl

theorem accepts_of_infer {v : Json.Value} {t : FieldType} (h : infer v = some t) :
    t.accepts v = true := by
  unfold infer at h
  split at h <;> simp_all <;> subst h <;> rfl

end FieldType

end CrewFlow.Spec
