import CrewFlow.Spec.Document
/-!
# Issues of a document

What validation finds wrong: the section, the place in the document and the reason, each as data,
with the wording of all of them.
-/
namespace CrewFlow.Spec

inductive Section where
  | agents
  | tasks
  | crews
  | tools
  | state
  | methods
  deriving DecidableEq, Repr

def Section.key : Section → String
  | .agents => "agents"
  | .tasks => "tasks"
  | .crews => "crews"
  | .tools => "tools"
  | .state => "state"
  | .methods => "flow_methods"

def Section.hint : Section → String
  | .agents =>
    "each agent needs non-empty 'role', 'goal' and 'backstory' strings, and roles must be unique"
  | .tasks =>
    "each task needs non-empty 'name', 'description' and 'expected_output' strings, and names must be unique"
  | .crews =>
    "declare 'crews' as a list (or a single 'crew' mapping) with a unique 'name'; 'process' is 'sequential' or 'hierarchical'"
  | .tools =>
    "a tool is a bare name string or a mapping with 'type' one of native, custom, hosted, server and that variant's fields"
  | .methods =>
    "each method needs a unique 'name' and 'type' (start, listen, router); listen and router need 'listen_to' naming declared methods"
  | .state =>
    "state fields are mappings with 'type' one of text, integer, decimal, boolean, list, map and an optional matching 'default'"

def Section.sorted : List Section := [.agents, .crews, .methods, .state, .tasks, .tools]

def hintFor (key : String) : String :=
  match Section.sorted.find? fun s => s.key == key with
  | some s => s.hint
  | none => "check the document structure against the workflow format"

/-- A step on the way to a place in the document. -/
inductive PathStep where
  | key (name : String)
  | item (i : Nat)
  deriving DecidableEq, Repr

abbrev Path := List PathStep

/-- The text of a path: keys behind points, items in brackets. -/
def Path.text (path : Path) : String :=
  let step : PathStep → String
    | .key name => "." ++ name
    | .item i => "[" ++ toString i ++ "]"
  match path with
  | .key name :: rest => name ++ String.join (rest.map step)
  | _ => String.join (path.map step)

/-- What is wrong. -/
inductive Reason where
  | noEntries
  | sectionMissing
  | wrongKind (expected got : String)
  | empty
  | missing
  | notInteger (least : Option Int) (got : Json.Value)
  | tooLarge (limit : Nat) (got : Int)
  | blankItem
  | notString
  | duplicateRole (role : String)
  | duplicateName (name : String)
  | duplicateMethod (name : String)
  | tool (fault : ToolFault)
  | malformed (cause : Json.DecodeError)
  | unknownWord (word : UnknownWord)
  | unknownAgent (task role : String)
  | reservedField
  | needsType
  | defaultMismatch (default : Json.Value) (type : FieldType)
  | noPredecessor
  | noCondition
  | noRoute
  | unknownCrew (name : String)
  | unknownField (name : String)
  | unknownMethod (name : String)
  | listenCycle (names : List String)
  | modelUnavailable (cause : String)
  deriving Repr

def Reason.message : Reason → String
  | .noEntries => "at least one entry is required"
  | .sectionMissing => "section is required"
  | .wrongKind expected got => "must be " ++ expected ++ ", got " ++ got
  | .empty => "must not be empty"
  | .missing => "is required"
  | .notInteger none got => "must be an integer, got " ++ got.text
  | .notInteger (some least) got =>
    "must be an integer >= " ++ toString least ++ ", got " ++ got.text
  | .tooLarge limit got => "must be at most " ++ toString limit ++ ", got " ++ toString got
  | .blankItem => "must be a non-empty string"
  | .notString => "must be a string"
  | .duplicateRole role => "duplicate role '" ++ role ++ "'"
  | .duplicateName name => "duplicate name '" ++ name ++ "'"
  | .duplicateMethod name => "duplicate method name '" ++ name ++ "'"
  | .tool fault => fault.message
  | .malformed cause => cause.message
  | .unknownWord word => word.message
  | .unknownAgent task role =>
    "task '" ++ task ++ "' references unknown agent '" ++ role ++ "'"
  | .reservedField => "field name is reserved"
  | .needsType => "needs a 'type' or a default value"
  | .defaultMismatch default type =>
    "default " ++ default.text ++ " does not match type " ++ type.title
  | .noPredecessor => "listen and router methods need at least one predecessor"
  | .noCondition => "router methods need a condition state field"
  | .noRoute => "router methods need at least one route"
  | .unknownCrew name => "unknown crew '" ++ name ++ "'"
  | .unknownField name => "unknown state field '" ++ name ++ "'"
  | .unknownMethod name => "unknown method '" ++ name ++ "'"
  | .listenCycle names => "listen cycle " ++ " -> ".intercalate names
  | .modelUnavailable cause => "model unavailable: " ++ cause

/-- One thing that is wrong with a document. -/
structure Issue where
  area : Section
  path : Path
  reason : Reason
  deriving Repr

/-- An issue as it is told: the texts of its parts. -/
structure Notice where
  area : String
  path : String
  reason : String
  deriving DecidableEq, Repr

def Issue.notice (i : Issue) : Notice := ⟨i.area.key, i.path.text, i.reason.message⟩

def Notice.line (n : Notice) : String :=
  "[" ++ n.area ++ "] " ++ n.path ++ ": " ++ n.reason

/-- The sections of notices, each once, in the order of their first notice. -/
def noticedSections (notices : List Notice) : List String :=
  (notices.map (·.area)).eraseDups

/-- All notices in one text, followed by a hint for each section in the order of the keys. -/
def noticesText (notices : List Notice) : String :=
  let sections := (noticedSections notices).mergeSort fun a b => !(b < a)
  "; ".intercalate (notices.map Notice.line ++
    sections.map fun s => "hint (" ++ s ++ "): " ++ hintFor s)

end CrewFlow.Spec
