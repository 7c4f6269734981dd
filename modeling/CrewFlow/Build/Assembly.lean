import CrewFlow.Crew.Basic
import CrewFlow.Tool.Gate
/-!
# Building workflows

Turns a validated workflow into agents, tasks and crews. Every declared tool passes the gate first;
only then are models and embedders asked for. A build yields everything or nothing.
-/
namespace CrewFlow.Build

open Spec (AgentSpec ConfigError CrewProcess CrewSpec LlmSpec TaskSpec ToolSpec Workflow)
open Tool (Granted LocalTool Owner Request ToolError)

/-- What a build needs from outside: tools for declarations, models for agents and, if there is a
provider, embedders for crews. -/
structure Collaborators (m : Type → Type) where
  resolve : ToolSpec → m (Except ToolError (List LocalTool))
  modelFor : Option LlmSpec → m (Except String Agent.ChatModel)
  embedderFor : Option (String → m (Except String Memory.Embedder))

structure Built where
  agents : List Agent
  tasks : List CrewTask
  crews : List Crew

namespace Built

def crew? (b : Built) (name : String) : Option Crew := b.crews.find? fun c => c.name == name

end Built

/-- The agent with a role; of several, the last. -/
def agentOf? (agents : List Agent) (role : String) : Option Agent :=
  agents.reverse.find? fun a => a.role == role

/-- The task with a name; of several, the last. -/
def taskOf? (tasks : List CrewTask) (name : String) : Option CrewTask :=
  tasks.reverse.find? fun t => t.name == name

def requests (w : Workflow) : List Request :=
  let asked := (w.agents.map fun a => ⟨.agent a.role, Agent.effectiveTools a⟩) ++
    w.tasks.map fun t => ⟨.task t.name, t.tools⟩
  asked.filter fun r => !r.specs.isEmpty

def agentOf (spec : AgentSpec) (model : Agent.ChatModel) (tools : List LocalTool) : Agent :=
  { role := spec.role, goal := spec.goal, backstory := spec.backstory, model, tools
    limits := Agent.limitsFor spec
    runsCode := Agent.executesCode spec }

def modelIssue (i : Nat) (cause : String) : Spec.Issue :=
  ⟨.agents, [.key "agents", .item i, .key "llm"], .modelUnavailable cause⟩

/-- Agents from their declarations, each with the model that was found for it. The tools of an owner
go to the first agent that has a model. -/
def agentsFrom (i : Nat) (granted : Granted) :
    List (AgentSpec × Except String Agent.ChatModel) → List Spec.Issue × List Agent × Granted
  | [] => ([], [], granted)
  | (spec, .ok model) :: rest =>
    let (tools, left) := granted.take (.agent spec.role)
    let (issues, agents, left) := agentsFrom (i + 1) left rest
    (issues, agentOf spec model tools :: agents, left)
  | (_, .error cause) :: rest =>
    let (issues, agents, left) := agentsFrom (i + 1) granted rest
    (modelIssue i cause :: issues, agents, left)

/-- The owner of a task. A crew document may name one that is not declared; the task then has none. -/
def ownerOf (kind : Spec.Orchestration) (agents : List Agent) (spec : TaskSpec) :
    Except ConfigError (Option String) :=
  match spec.agent with
  | none => .ok none
  | some role =>
    if (agentOf? agents role).isSome then .ok (some role)
    else
      match kind with
      | .flow => .error (.unknownAgent spec.name role)
      | .crew => .ok none

def contextOf (names : List String) (spec : TaskSpec) : List String :=
  spec.context.filter fun name => names.contains name && name ≠ spec.name

/-- Tasks from their declarations. A task may use the output of tasks declared after it. -/
def tasksFrom (kind : Spec.Orchestration) (agents : List Agent) (names : List String)
    (granted : Granted) : List TaskSpec → Except ConfigError (List CrewTask)
  | [] => .ok []
  | spec :: rest => do
    let agent ← ownerOf kind agents spec
    let (tools, left) := granted.take (.task spec.name)
    let task : CrewTask :=
      { name := spec.name, description := spec.description, expectedOutput := spec.expectedOutput
        agent, tools
        context := contextOf names spec
        executionNumber := spec.executionNumber
        isAsync := spec.asyncExecution }
    return task :: (← tasksFrom kind agents names left rest)

/-- The manager of a hierarchical crew and the pool without it. Without a manager in the pool the crew
is sequential. -/
def withManager (spec : CrewSpec) (pool : List Agent) : CrewProcess × Option Agent × List Agent :=
  match spec.process with
  | .sequential => (.sequential, none, pool)
  | .hierarchical =>
    match spec.manager.bind fun role => pool.findIdx? fun a => a.role == role with
    | some i => (.hierarchical, pool[i]?, pool.eraseIdx i)
    | none => (.sequential, none, pool)

/-- A crew from its declaration. Names that nothing has are left out. -/
def crewFrom (agents : List Agent) (tasks : List CrewTask) (embedder : Option Memory.Embedder)
    (spec : CrewSpec) : Crew :=
  let (process, manager, pool) := withManager spec (spec.agents.filterMap (agentOf? agents))
  { name := spec.name, agents := pool
    tasks := CrewTask.inOrder (spec.tasks.filterMap (taskOf? tasks))
    process, manager, embedder }

variable {m : Type → Type} [Monad m]

/-- The embedder of a crew: that of the provider, else the one that hashes words; none for a crew
without memory. -/
def embedderOf (c : Collaborators m) (spec : CrewSpec) : m (Option Memory.Embedder) := do
  if !spec.memory then return none
  match c.embedderFor with
  | none => return some Memory.Embedder.hashing
  | some provide =>
    match ← provide spec.name with
    | .ok embedder => return some embedder
    | .error _ => return some Memory.Embedder.hashing

def assemble (c : Collaborators m) (w : Workflow) (granted : Granted) :
    m (Except ConfigError Built) := do
  let models ← w.agents.mapM fun a => do return (a, ← c.modelFor a.llm)
  let (issues, agents, left) := agentsFrom 0 granted models
  -- All models have been asked for, so every one that is lacking is told.
  if !issues.isEmpty then return .error (.schema issues)
  match tasksFrom w.orchestration agents (w.tasks.map (·.name)) left w.tasks with
  | .error e => return .error e
  | .ok tasks =>
    let crews ← w.crews.mapM fun spec => do
      return crewFrom agents tasks (← embedderOf c spec) spec
    return .ok ⟨agents, tasks, crews⟩

def build (c : Collaborators m) (w : Workflow) : m (Except BuildError Built) := do
  match ← Tool.gate c.resolve (requests w) with
  | .error e => return .error (.connectivity e)
  | .ok granted => return (← assemble c w granted).mapError .config

end CrewFlow.Build
