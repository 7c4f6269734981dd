import CrewFlow.Agent.Basic
import CrewFlow.Crew.Task
import CrewFlow.Execution.Failure
import CrewFlow.Memory.ShortTerm
/-!
# Crews

A crew is a pool of agents with tasks in the order in which they are taken up. A hierarchical crew
has a manager besides, who takes the tasks that no agent of the pool owns.
-/
namespace CrewFlow

open Spec (CrewProcess)

/-- What a crew yielded: the text of its last task, and the outputs of its tasks in crew order. -/
structure CrewOutput where
  crew : String
  raw : String
  tasks : List TaskOutput
  deriving DecidableEq, Repr

namespace CrewOutput

def ofTasks (crew : String) (tasks : List TaskOutput) : CrewOutput :=
  ⟨crew, (tasks.getLast?.map (·.raw)).getD "", tasks⟩

def task? (o : CrewOutput) (name : String) : Option TaskOutput :=
  o.tasks.find? fun t => t.name == name

def toJson (o : CrewOutput) : Json.Value :=
  .obj [("crew", .str o.crew), ("raw", .str o.raw),
    ("tasks_output", .arr (o.tasks.map TaskOutput.toJson))]

end CrewOutput

/-- A crew that is ready to run. The manager is no member of the pool. With an embedder the crew
remembers what its tasks yield. -/
structure Crew where
  name : String
  agents : List Agent
  tasks : List CrewTask
  process : CrewProcess
  manager : Option Agent
  embedder : Option Memory.Embedder

namespace Crew

def keyParts (c : Crew) : List String :=
  c.agents.map (·.role) ++ (c.manager.map (·.role)).toList ++
    c.tasks.map fun t => t.name ++ ":" ++ t.key

def keySource (c : Crew) : String := "|".intercalate c.keyParts

def key (c : Crew) : String := Digest.md5 c.keySource

def failed (c : Crew) (message : String) : ExecutionError := .crew c.name message

def owner? (c : Crew) (t : CrewTask) : Option Agent :=
  t.agent.bind fun role => c.agents.find? fun a => a.role == role

/-- The agent that runs a task: its owner, else the manager of a hierarchical crew, else the first
agent of the pool. -/
def agentFor (c : Crew) (t : CrewTask) : Except ExecutionError Agent :=
  match c.owner? t, c.process, c.manager with
  | some agent, _, _ => .ok agent
  | none, .hierarchical, some manager => .ok manager
  | none, _, _ =>
    match c.agents.head? with
    | some agent => .ok agent
    | none => .error (c.failed ("no agent available for task '" ++ t.name ++ "'"))

/-- The tasks on which the task at a position depends: those of its context, else all before it. -/
def dependencies (c : Crew) (position : Nat) (t : CrewTask) : List String :=
  if t.context.isEmpty then (c.tasks.take position).map (·.name) else t.context

end Crew

end CrewFlow
