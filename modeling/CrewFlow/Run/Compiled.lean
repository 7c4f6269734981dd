import CrewFlow.Build.Assembly
import CrewFlow.Crew.Timeline
import CrewFlow.Flow.Walk
import CrewFlow.Spec.Validate
/-!
# Compiled workflows

From the text of a document to the result of a run: check, build, then run. The crews of a crew
document run side by side; a flow walks over its graph and runs one crew after the other.
-/
namespace CrewFlow.Run

open Agent (Call)
open Build (Built Collaborators)
open Crew (Limiters Rank)
open Json (Value)
open Spec (FieldSpec Workflow)
open Text (Inputs)

/-- The time of a run, the limiters of its agents and the requests that were answered; when its main
lines move, and what is left of their turn. -/
structure Clock where
  now : Nat
  limiters : Limiters
  calls : List Call
  rank : Rank
  left : Rate.Allowance

/-- What is left of the turn in which a run begins. One in line with others has written a checkpoint in
that turn, and has waited for it. -/
def opening : Rank → Rate.Allowance
  | .ahead => .full
  | .inLine => .full - 1

def Clock.ofAgents (agents : List Agent) (rank : Rank) (now : Nat) : Clock :=
  ⟨now, Limiters.ofAgents agents now, [], rank, opening rank⟩

/-- The error of a crew that cannot end. -/
def endless (c : Crew) : ExecutionError := c.failed "the run does not end"

def runSideBySide (crews : List Crew) (inputs : Inputs) (clock : Clock) :
    List (Except ExecutionError CrewOutput) × Clock :=
  match Crew.runAll crews inputs clock.now clock.limiters clock.rank clock.left with
  | some e =>
    (e.outcomes,
      { clock with
        now := e.now, limiters := e.limiters, calls := clock.calls ++ e.calls, left := e.left })
  | none => (crews.map fun c => .error (endless c), clock)

def runCrew (crew : Crew) (inputs : Inputs) (clock : Clock) :
    Except ExecutionError CrewOutput × Clock :=
  match runSideBySide [crew] inputs clock with
  | (result :: _, clock) => (result, clock)
  | ([], clock) => (.error (endless crew), clock)

/-- A workflow that is ready to run: crews of their own, or a flow over crews. -/
inductive Compiled where
  | parallel (crews : List Crew)
  | flow (graph : Flow.Graph) (crews : List Crew) (fields : List FieldSpec)

def Compiled.ofBuilt (w : Workflow) (b : Built) : Compiled :=
  match w.orchestration with
  | .crew => .parallel b.crews
  | .flow => .flow (Flow.Graph.ofWorkflow w) b.crews w.state

def compile {m : Type → Type} [Monad m] (c : Collaborators m) (text : String)
    (wish : Option String) : m (Except BuildError (Compiled × List Agent)) := do
  match Spec.check text wish with
  | .error e => return .error (.config e)
  | .ok w =>
    match ← Build.build c w with
    | .error e => return .error e
    | .ok b => return .ok (Compiled.ofBuilt w b, b.agents)

def failureTexts (outcomes : List (Except ExecutionError CrewOutput)) : List String :=
  outcomes.filterMap fun
    | .ok _ => none
    | .error e => some e.message

/-- The result of crews that ran side by side: the text of each under its name, or all errors. -/
def gathered (crews : List Crew) (outcomes : List (Except ExecutionError CrewOutput)) :
    Except ExecutionError Value :=
  match failureTexts outcomes with
  | [] =>
    let entries := (crews.zip outcomes).filterMap fun
      | (c, .ok o) => some (c.name, Value.str o.raw)
      | _ => none
    .ok (.obj (Json.Fields.ofList entries))
  | texts => .error (.other ("; ".intercalate texts))

/-- The result of a flow: its last output, its state and the steps that were done. -/
def walkResult {σ : Type} (w : Flow.Walk σ) : Value :=
  .obj [("output", .str w.output), ("state", w.state.toJson), ("steps", .ofTexts w.executed)]

/-- How a run ended: its result, the states that were saved and the clock. -/
structure Finish where
  result : Except ExecutionError Value
  saved : List Execution.Snapshot
  clock : Clock

/-- Runs a compiled workflow; `flowId` is the id of the state if it is a flow. -/
def Compiled.run (c : Compiled) (inputs : Inputs) (workflowId : Option String) (flowId : String)
    (clock : Clock) : Finish :=
  match c with
  | .parallel crews =>
    let (outcomes, clock) := runSideBySide crews inputs clock
    ⟨gathered crews outcomes, [], clock⟩
  | .flow graph crews fields =>
    let state := Flow.State.start flowId fields graph.stepNames workflowId
    match Flow.run runCrew crews graph inputs state clock with
    | (walk, none) => ⟨.ok (walkResult walk), walk.saved, walk.world⟩
    | (walk, some e) => ⟨.error e, walk.saved, walk.world⟩

/-- How the run of a text ended: its result or the error of its build, the states that were saved, the
time at the end and the requests that were answered. -/
structure Report where
  result : Except BuildError Value
  saved : List Execution.Snapshot
  now : Nat
  calls : List Call

def compileAndRun (c : Collaborators Id) (text : String) (wish : Option String) (inputs : Inputs)
    (workflowId : Option String) (flowId : String) (rank : Rank) (now : Nat) : Report :=
  match (compile c text wish).run with
  | .error e => ⟨.error e, [], now, []⟩
  | .ok (compiled, agents) =>
    let f := compiled.run inputs workflowId flowId (Clock.ofAgents agents rank now)
    ⟨f.result.mapError .execution, f.saved, f.clock.now, f.clock.calls⟩

end CrewFlow.Run
