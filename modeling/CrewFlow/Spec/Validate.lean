import CrewFlow.Spec.FieldCheck
import CrewFlow.Spec.ListenCycle
import CrewFlow.Spec.Source
/-!
# Validation

A parsed document becomes a workflow, or the list of everything that is wrong with it. Each section
is walked entry by entry; a faulty entry is left out and the walk goes on. References are checked
against the entries that were kept.
-/
namespace CrewFlow.Spec

open Json (Value Fields)

/-- The items of a section that must be a list with at least one entry. -/
def sectionItems (s : Section) (fields : Fields) : Checked (List Value) := do
  match (fields.get? s.key).filter fun v => !v.isNull with
  | some (.arr (v :: vs)) => return v :: vs
  | some (.arr []) =>
    Checked.report s [.key s.key] .noEntries
    return []
  | none =>
    Checked.report s [.key s.key] .sectionMissing
    return []
  | some v =>
    Checked.report s [.key s.key] (.wrongKind "a list" v.kind)
    return []

/-- The entry at place `i` of a section, which must be a mapping. -/
def entryAt (s : Section) (i : Nat) : Value → Checked (Option Entry)
  | .obj fields => pure (some ⟨s, [.key s.key, .item i], fields⟩)
  | v => Checked.reject s [.key s.key, .item i] (.wrongKind "a mapping" v.kind)

/-- Walks the entries of a section from place `i` on. `read` yields the name of an entry, if it has
one, and the entry itself, if nothing is missing in it; `finish` takes the entry once its name is
known to be new. Entries that repeat a name are blamed at `key`. -/
def walk {α β : Type} (s : Section) (key : String) (repeated : String → Reason)
    (read : Nat → Entry → Checked (Option String × Option α))
    (finish : Entry → α → Checked β) :
    List String → Nat → List Value → Checked (List β)
  | _, _, [] => pure []
  | seen, i, v :: vs => do
    match ← entryAt s i v with
    | none => walk s key repeated read finish seen (i + 1) vs
    | some entry =>
      let (name, item) ← read i entry
      match name with
      | none => walk s key repeated read finish seen (i + 1) vs
      | some name =>
        if seen.contains name then
          Checked.report s (entry.pathTo key) (repeated name)
          walk s key repeated read finish seen (i + 1) vs
        else
          -- A name is taken even when something else is missing in its entry.
          match item with
          | none => walk s key repeated read finish (name :: seen) (i + 1) vs
          | some item =>
            let kept ← finish entry item
            let rest ← walk s key repeated read finish (name :: seen) (i + 1) vs
            return kept :: rest

def readAgent (_ : Nat) (e : Entry) : Checked (Option String × Option AgentSpec) := do
  let role ← e.requiredText "role"
  let goal ← e.requiredText "goal"
  let backstory ← e.requiredText "backstory"
  let tools ← e.tools
  let llm ← e.llm
  let maxIter ← e.optionalCount "max_iter"
  let maxExecutionTime ← e.optionalPositive "max_execution_time"
  let maxRpm ← e.optionalCount "max_rpm"
  let allowCodeExecution ← e.optionalBool "allow_code_execution"
  let agent : Option AgentSpec := do
    let role ← role
    let goal ← goal
    let backstory ← backstory
    return { role, goal, backstory, tools, llm, maxIter, maxExecutionTime, maxRpm,
             allowCodeExecution }
  return (role, agent)

def readTask (_ : Nat) (e : Entry) : Checked (Option String × Option TaskSpec) := do
  let name ← e.requiredText "name"
  let description ← e.requiredText "description"
  let expectedOutput ← e.requiredText "expected_output"
  let agent ← e.optionalText "agent"
  let tools ← e.tools
  let context ← e.nameList "context"
  let executionNumber ← e.optionalInt "execution_number" none
  let asyncExecution ← e.optionalBool "async_execution"
  let task : Option TaskSpec := do
    let name ← name
    let description ← description
    let expectedOutput ← expectedOutput
    return { name, description, expectedOutput, agent, tools, context := context.getD [],
             executionNumber, asyncExecution }
  return (name, task)

/-- A crew. Without a name it is numbered; without lists it has every agent and every task. -/
def readCrew (agents : List AgentSpec) (tasks : List TaskSpec) (i : Nat) (e : Entry) :
    Checked (Option String × Option CrewSpec) := do
  let name ← e.optionalText "name"
  let name := name.getD ("crew_" ++ toString (i + 1))
  let crewAgents ← e.nameList "agents"
  let crewTasks ← e.nameList "tasks"
  let process ← e.word "process" CrewProcess.ofText .sequential
  let manager ← e.optionalText "manager"
  let memory ← e.optionalBool "memory"
  let crew : CrewSpec :=
    { name, agents := crewAgents.getD (agents.map (·.role)),
      tasks := crewTasks.getD (tasks.map (·.name)), process, manager, memory }
  return (some name, some crew)

def readAgents (fields : Fields) : Checked (List AgentSpec) := do
  let items ← sectionItems .agents fields
  walk .agents "role" .duplicateRole readAgent (fun _ a => pure a) [] 0 items

def readTasks (fields : Fields) : Checked (List TaskSpec) := do
  let items ← sectionItems .tasks fields
  walk .tasks "name" .duplicateName readTask (fun _ t => pure t) [] 0 items

def readCrews (agents : List AgentSpec) (tasks : List TaskSpec) (fields : Fields) :
    Checked (List CrewSpec) := do
  let items ← sectionItems .crews fields
  walk .crews "name" .duplicateName (readCrew agents tasks) (fun _ c => pure c) [] 0 items

/-- In a flow a task must name a declared agent when it names one at all. -/
def checkOwners (agents : List AgentSpec) (i : Nat) : List TaskSpec → Checked Unit
  | [] => pure ()
  | t :: ts => do
    match t.agent with
    | some role =>
      Checked.reportIf (!agents.any fun a => a.role == role) .tasks
        [.key Section.tasks.key, .item i, .key "agent"] (.unknownAgent t.name role)
    | none => pure ()
    checkOwners agents (i + 1) ts

/-- Type and default of a state field: a mapping with a `type`, or a bare default. -/
def readFieldType (path : Path) (decl : Value) :
    Checked (Option (FieldType × Option Value)) :=
  match decl with
  | .obj spec =>
    match Fields.get? spec "type" with
    | some (.str word) =>
      match FieldType.ofText word with
      | .ok t => pure (some (t, (Fields.get? spec "default").filter fun d => !d.isNull))
      | .error u => Checked.reject .state (path ++ [.key "type"]) (.unknownWord u)
    | some _ => Checked.reject .state (path ++ [.key "type"]) .notString
    -- Without a type the mapping itself is the default.
    | none => pure (some (.map, some decl))
  | .null => Checked.reject .state path .needsType
  | bare => pure ((FieldType.infer bare).map fun t => (t, some bare))

def readField (name : String) (decl : Value) : Checked (Option FieldSpec) := do
  let path : Path := [.key Section.state.key, .key name]
  if isReservedField name then Checked.reject .state path .reservedField
  else
    match ← readFieldType path decl with
    | none => return none
    | some (type, some default) =>
      if type.accepts default then return some ⟨name, type, some default⟩
      else Checked.reject .state (path ++ [.key "default"]) (.defaultMismatch default type)
    | some (type, none) => return some ⟨name, type, none⟩

def readFields : List (String × Value) → Checked (List FieldSpec)
  | [] => pure []
  | (name, decl) :: rest => do
    let field ← readField name decl
    let fields ← readFields rest
    return field.toList ++ fields

def readState (fields : Fields) : Checked (List FieldSpec) := do
  match (fields.get? Section.state.key).filter fun v => !v.isNull with
  | none => return []
  | some (.obj decls) => readFields decls
  | some v =>
    Checked.report .state [.key Section.state.key] (.wrongKind "a mapping" v.kind)
    return []

def readMethod (_ : Nat) (e : Entry) : Checked (Option String × Option MethodSpec) := do
  let name ← e.requiredText "name"
  let kindText ← e.requiredText "type"
  let kind : Option MethodKind ← match kindText with
    | none => pure none
    | some s =>
      match MethodKind.ofText s with
      | .ok kind => pure (some kind)
      | .error u => e.reject "type" (.unknownWord u)
  let crew ← e.optionalText "crew"
  let listenTo ← e.nameList "listen_to"
  let join ← e.word "logic" Join.ofText .all
  let condition ← e.optionalText "condition"
  let routes ← e.routes
  let output ← e.optionalText "output"
  let method : Option MethodSpec := do
    let name ← name
    let kind ← kind
    return { name, kind, crew, listenTo := listenTo.getD [], join, condition, routes, output }
  -- Unlike agents and tasks, a method that is left out does not take its name.
  return (method.bind fun _ => name, method)

/-- Checks what a method needs by its kind, and its crew and output. -/
def finishMethod (crews : List CrewSpec) (state : List FieldSpec) (e : Entry) (m : MethodSpec) :
    Checked MethodSpec := do
  Checked.reportIf (m.kind ≠ .start && m.listenTo.isEmpty) .methods (e.pathTo "listen_to")
    .noPredecessor
  Checked.reportIf (m.kind = .router && m.condition.isNone) .methods (e.pathTo "condition")
    .noCondition
  Checked.reportIf (m.kind = .router && m.routes.targets.isEmpty) .methods (e.pathTo "routes") .noRoute
  match m.crew with
  | some crew =>
    Checked.reportIf (!crews.any fun c => c.name == crew) .methods (e.pathTo "crew") (.unknownCrew crew)
  | none => pure ()
  match m.output with
  | some output =>
    Checked.reportIf (!state.any fun f => f.name == output) .methods (e.pathTo "output")
      (.unknownField output)
  | none => pure ()
  return m

/-- Every name that a method listens to or routes to must be declared. -/
def checkTargets (names : List String) (i : Nat) : List MethodSpec → Checked Unit
  | [] => pure ()
  | m :: ms => do
    let path (key : String) : Path := [.key Section.methods.key, .item i, .key key]
    m.listenTo.forM fun p =>
      Checked.reportIf (!names.contains p) .methods (path "listen_to") (.unknownMethod p)
    m.routes.targets.forM fun t =>
      Checked.reportIf (!names.contains t) .methods (path "routes") (.unknownMethod t)
    checkTargets names (i + 1) ms

/-- The methods of a flow. None declared means that a chain over the crews is made up. -/
def readMethods (crews : List CrewSpec) (state : List FieldSpec) (fields : Fields) :
    Checked (List MethodSpec) := do
  match (fields.get? Section.methods.key).filter fun v => !v.isNull with
  | none => return []
  | some (.arr items) =>
    let methods ←
      walk .methods "name" .duplicateMethod readMethod (finishMethod crews state) [] 0 items
    checkTargets (methods.map (·.name)) 0 methods
    match listenCycle? methods with
    | some cycle => Checked.report .methods [.key Section.methods.key] (.listenCycle cycle)
    | none => pure ()
    return methods
  | some v =>
    Checked.report .methods [.key Section.methods.key] (.wrongKind "a list or mapping" v.kind)
    return []

def checkDocument (doc : Parsed) : Checked Workflow := do
  let agents ← readAgents doc.fields
  let tasks ← readTasks doc.fields
  let crews ← readCrews agents tasks doc.fields
  let name := (doc.fields.get? "name").bind Value.text?
  match doc.orchestration with
  | .flow =>
    checkOwners agents 0 tasks
    let state ← readState doc.fields
    let methods ← readMethods crews state doc.fields
    return ⟨.flow, name, agents, tasks, crews, state, methods⟩
  -- State and methods of a crew document are not even looked at.
  | .crew => return ⟨.crew, name, agents, tasks, crews, [], []⟩

def validate (doc : Parsed) : Except ConfigError Workflow :=
  let checked := checkDocument doc
  if checked.issues.isEmpty then .ok checked.value else .error (.schema checked.issues)

def check (text : String) (wish : Option String) : Except ConfigError Workflow := do
  validate (← parse text wish)

end CrewFlow.Spec
