import CrewFlow.Spec.FieldCheck
/-!
# JSON form of a workflow

A workflow as JSON, every field written, and read back. Tools carry their `type`, the extra settings
of a language model stand beside its own, and joins are written in capitals.
-/
namespace CrewFlow.Spec

open Json (Value Fields Decoded)
open Json.Decode (defaulted optional record required variant)

def LlmSpec.toJson (l : LlmSpec) : Value :=
  .obj (("model", .ofText? l.model) ::
    ("temperature", (l.temperature.map Value.ofFloat).getD .null) :: l.extra)

def LlmSpec.ofJson (v : Value) : Decoded LlmSpec := do LlmSpec.ofFields (← Json.Decode.fields v)

def countJson (n : Option Nat) : Value := .ofInt? (n.map Int.ofNat)

def AgentSpec.toJson (a : AgentSpec) : Value :=
  .obj [("role", .str a.role), ("goal", .str a.goal), ("backstory", .str a.backstory),
    ("tools", .arr (a.tools.map ToolSpec.toJson)),
    ("llm", (a.llm.map LlmSpec.toJson).getD .null), ("max_iter", countJson a.maxIter),
    ("max_execution_time", countJson a.maxExecutionTime), ("max_rpm", countJson a.maxRpm),
    ("allow_code_execution", .bool a.allowCodeExecution)]

def count32 (v : Value) : Decoded Nat :=
  (Json.Decode.int 0 (Decimal.Word.size 32 - 1) "u32" v).map Int.toNat

def count64 (v : Value) : Decoded Nat :=
  (Json.Decode.int 0 (Decimal.Word.size 64 - 1) "u64" v).map Int.toNat

def AgentSpec.ofJson (v : Value) : Decoded AgentSpec := do
  let fs ← record ⟨"struct AgentSpec", ["role", "goal", "backstory", "tools", "llm", "max_iter",
    "max_execution_time", "max_rpm", "allow_code_execution"]⟩ 3 v
  let role ← required fs "role" Json.Decode.text
  let goal ← required fs "goal" Json.Decode.text
  let backstory ← required fs "backstory" Json.Decode.text
  let tools ← defaulted fs "tools" (Json.Decode.items ToolSpec.ofJson) []
  let llm ← defaulted fs "llm" (optional LlmSpec.ofJson) none
  let maxIter ← defaulted fs "max_iter" (optional count32) none
  let maxExecutionTime ← defaulted fs "max_execution_time" (optional count64) none
  let maxRpm ← defaulted fs "max_rpm" (optional count32) none
  let allowCodeExecution ← defaulted fs "allow_code_execution" Json.Decode.bool false
  return { role, goal, backstory, tools, llm, maxIter, maxExecutionTime, maxRpm,
           allowCodeExecution }

def TaskSpec.toJson (t : TaskSpec) : Value :=
  .obj [("name", .str t.name), ("description", .str t.description),
    ("expected_output", .str t.expectedOutput), ("agent", .ofText? t.agent),
    ("tools", .arr (t.tools.map ToolSpec.toJson)), ("context", .ofTexts t.context),
    ("execution_number", .ofInt? t.executionNumber),
    ("async_execution", .bool t.asyncExecution)]

def int64 (v : Value) : Decoded Int :=
  Json.Decode.int (Decimal.Word.least 64) (Decimal.Word.greatest 64) "i64" v

def TaskSpec.ofJson (v : Value) : Decoded TaskSpec := do
  let fs ← record ⟨"struct TaskSpec", ["name", "description", "expected_output", "agent", "tools",
    "context", "execution_number", "async_execution"]⟩ 3 v
  let name ← required fs "name" Json.Decode.text
  let description ← required fs "description" Json.Decode.text
  let expectedOutput ← required fs "expected_output" Json.Decode.text
  let agent ← defaulted fs "agent" (optional Json.Decode.text) none
  let tools ← defaulted fs "tools" (Json.Decode.items ToolSpec.ofJson) []
  let context ← defaulted fs "context" (Json.Decode.items Json.Decode.text) []
  let executionNumber ← defaulted fs "execution_number" (optional int64) none
  let asyncExecution ← defaulted fs "async_execution" Json.Decode.bool false
  return { name, description, expectedOutput, agent, tools, context, executionNumber,
           asyncExecution }

def CrewSpec.toJson (c : CrewSpec) : Value :=
  .obj [("name", .str c.name), ("agents", .ofTexts c.agents), ("tasks", .ofTexts c.tasks),
    ("process", .str c.process.text), ("manager", .ofText? c.manager), ("memory", .bool c.memory)]

def CrewSpec.ofJson (v : Value) : Decoded CrewSpec := do
  let fs ← record
    ⟨"struct CrewSpec", ["name", "agents", "tasks", "process", "manager", "memory"]⟩ 3 v
  let name ← required fs "name" Json.Decode.text
  let agents ← required fs "agents" (Json.Decode.items Json.Decode.text)
  let tasks ← required fs "tasks" (Json.Decode.items Json.Decode.text)
  let process ← defaulted fs "process"
    (variant ([CrewProcess.sequential, .hierarchical].map fun p => (p.text, p))) .sequential
  let manager ← defaulted fs "manager" (optional Json.Decode.text) none
  let memory ← defaulted fs "memory" Json.Decode.bool false
  return { name, agents, tasks, process, manager, memory }

def FieldSpec.toJson (f : FieldSpec) : Value :=
  .obj [("name", .str f.name), ("type", .str f.type.word), ("default", f.default?.getD .null)]

def fieldTypes : List (String × FieldType) :=
  [FieldType.text, .integer, .decimal, .boolean, .list, .map].map fun t => (t.word, t)

def FieldSpec.ofJson (v : Value) : Decoded FieldSpec := do
  let fs ← record ⟨"struct StateFieldSpec", ["name", "type", "default"]⟩ 2 v
  let name ← required fs "name" Json.Decode.text
  let type ← required fs "type" (variant fieldTypes)
  let default? ← defaulted fs "default" Json.Decode.any none
  return { name, type, default? }

def RouteTable.toJson (r : RouteTable) : Value :=
  .obj [("true", .ofText? r.onTrue), ("false", .ofText? r.onFalse),
    ("default", .ofText? r.otherwise)]

def RouteTable.ofJson (v : Value) : Decoded RouteTable := do
  RouteTable.ofFields (← record ⟨"struct RouteTable", ["true", "false", "default"]⟩ 0 v)

def MethodSpec.toJson (m : MethodSpec) : Value :=
  .obj [("name", .str m.name), ("type", .str m.kind.text), ("crew", .ofText? m.crew),
    ("listen_to", .ofTexts m.listenTo), ("logic", .str m.join.text),
    ("condition", .ofText? m.condition), ("routes", m.routes.toJson), ("output", .ofText? m.output)]

def MethodSpec.ofJson (v : Value) : Decoded MethodSpec := do
  let fs ← record ⟨"struct FlowMethodSpec", ["name", "type", "crew", "listen_to", "logic",
    "condition", "routes", "output"]⟩ 2 v
  let name ← required fs "name" Json.Decode.text
  let kind ← required fs "type"
    (variant ([MethodKind.start, .listen, .router].map fun k => (k.text, k)))
  let crew ← defaulted fs "crew" (optional Json.Decode.text) none
  let listenTo ← defaulted fs "listen_to" (Json.Decode.items Json.Decode.text) []
  let join ← defaulted fs "logic" (variant ([Join.all, .any].map fun j => (j.text, j))) .all
  let condition ← defaulted fs "condition" (optional Json.Decode.text) none
  let routes ← defaulted fs "routes" RouteTable.ofJson .empty
  let output ← defaulted fs "output" (optional Json.Decode.text) none
  return { name, kind, crew, listenTo, join, condition, routes, output }

def Workflow.toJson (w : Workflow) : Value :=
  .obj [("orchestration_type", .str w.orchestration.text), ("name", .ofText? w.name),
    ("agents", .arr (w.agents.map AgentSpec.toJson)), ("tasks", .arr (w.tasks.map TaskSpec.toJson)),
    ("crews", .arr (w.crews.map CrewSpec.toJson)), ("state", .arr (w.state.map FieldSpec.toJson)),
    ("flow_methods", .arr (w.methods.map MethodSpec.toJson))]

def Workflow.ofJson (v : Value) : Decoded Workflow := do
  let fs ← record ⟨"struct WorkflowSpec", ["orchestration_type", "name", "agents", "tasks", "crews",
    "state", "flow_methods"]⟩ 5 v
  let orchestration ← required fs "orchestration_type"
    (variant ([Orchestration.crew, .flow].map fun o => (o.text, o)))
  let name ← defaulted fs "name" (optional Json.Decode.text) none
  let agents ← required fs "agents" (Json.Decode.items AgentSpec.ofJson)
  let tasks ← required fs "tasks" (Json.Decode.items TaskSpec.ofJson)
  let crews ← required fs "crews" (Json.Decode.items CrewSpec.ofJson)
  let state ← defaulted fs "state" (Json.Decode.items FieldSpec.ofJson) []
  let methods ← defaulted fs "flow_methods" (Json.Decode.items MethodSpec.ofJson) []
  return { orchestration, name, agents, tasks, crews, state, methods }

def Notice.toJson (n : Notice) : Value :=
  .obj [("section", .str n.area), ("path", .str n.path), ("reason", .str n.reason)]

end CrewFlow.Spec
