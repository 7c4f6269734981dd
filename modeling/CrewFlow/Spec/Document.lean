import CrewFlow.Spec.Tool
import CrewFlow.Spec.Vocabulary
/-!
# Workflow documents

The typed form of a document: agents, tasks and crews, and for flows state fields and methods. All
that comes after validation works on these types.
-/
namespace CrewFlow.Spec

/-- The language model of an agent, with settings that only its provider knows. -/
structure LlmSpec where
  model : Option String
  temperature : Option Float
  extra : Json.Fields
  deriving Repr

structure AgentSpec where
  role : String
  goal : String
  backstory : String
  tools : List ToolSpec
  llm : Option LlmSpec
  maxIter : Option Nat
  maxExecutionTime : Option Nat
  maxRpm : Option Nat
  allowCodeExecution : Bool
  deriving Repr

/-- A declared task. Its context names the tasks whose output it uses. -/
structure TaskSpec where
  name : String
  description : String
  expectedOutput : String
  agent : Option String
  tools : List ToolSpec
  context : List String
  executionNumber : Option Int
  asyncExecution : Bool
  deriving Repr

/-- A declared crew: roles of agents and names of tasks. -/
structure CrewSpec where
  name : String
  agents : List String
  tasks : List String
  process : CrewProcess
  manager : Option String
  memory : Bool
  deriving Repr, DecidableEq

/-- The targets of a router by the outcome of its condition. -/
structure RouteTable where
  onTrue : Option String
  onFalse : Option String
  otherwise : Option String
  deriving Repr, DecidableEq

def RouteTable.empty : RouteTable := ⟨none, none, none⟩

/-- Every target once, in the order true, false, otherwise. -/
def RouteTable.targets (r : RouteTable) : List String :=
  ([r.onTrue, r.onFalse, r.otherwise].filterMap id).eraseDups

def RouteTable.choose (r : RouteTable) (outcome : Bool) : Option String :=
  (if outcome then r.onTrue else r.onFalse).or r.otherwise

structure MethodSpec where
  name : String
  kind : MethodKind
  crew : Option String
  listenTo : List String
  join : Join
  condition : Option String
  routes : RouteTable
  output : Option String
  deriving Repr, DecidableEq

structure FieldSpec where
  name : String
  type : FieldType
  default? : Option Json.Value
  deriving Repr

/-- The value of a field at the start: its default, else the zero of its type. -/
def FieldSpec.initial (f : FieldSpec) : Json.Value := f.default?.getD f.type.zero

structure Workflow where
  orchestration : Orchestration
  name : Option String
  agents : List AgentSpec
  tasks : List TaskSpec
  crews : List CrewSpec
  state : List FieldSpec
  methods : List MethodSpec
  deriving Repr

namespace Workflow

def anonymous : String := "workflow"

def displayName (w : Workflow) : String := w.name.getD anonymous

def agent? (w : Workflow) (role : String) : Option AgentSpec :=
  w.agents.find? fun a => a.role == role

def task? (w : Workflow) (name : String) : Option TaskSpec :=
  w.tasks.find? fun t => t.name == name

def field? (w : Workflow) (name : String) : Option FieldSpec :=
  w.state.find? fun f => f.name == name

end Workflow

/-- The state keys that only runs write. -/
def reservedFields : List String := ["id", "workflow_id", "results"]

def completedSuffix : String := "_completed"

/-- Whether a state field would collide with a key that runs write. -/
def isReservedField (name : String) : Bool :=
  reservedFields.contains name || completedSuffix.toList.isSuffixOf name.toList

end CrewFlow.Spec
