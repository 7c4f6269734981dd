import CrewFlow.Execution.Failure
import CrewFlow.Tool.Registry
/-!
# Tool gate

Before anything is built, every declared tool of every owner is resolved and every resolved
capability is validated. Either all of them pass and each owner gets its own, or all failures are
told and nobody gets anything: first those of resolution in the order of declaration, then those of
validation, stably sorted by the text of the owner.
-/
namespace CrewFlow.Tool

open Spec (ToolSpec)

/-- Who declared tools. An agent and a task of one name are different owners. -/
inductive Owner where
  | agent (role : String)
  | task (name : String)
  deriving DecidableEq, Repr

def Owner.text : Owner → String
  | .agent role => "agent '" ++ role ++ "'"
  | .task name => "task '" ++ name ++ "'"

/-- The tools that an owner asks for. -/
structure Request where
  owner : Owner
  specs : List ToolSpec

/-- The tools that passed, each with its owner, in the order of declaration. -/
abbrev Granted := List (Owner × LocalTool)

namespace Granted

def of (granted : Granted) (owner : Owner) : List LocalTool :=
  (granted.filter fun g => g.1 = owner).map (·.2)

/-- The tools of an owner, and what is left for the others. -/
def take (granted : Granted) (owner : Owner) : List LocalTool × Granted :=
  (granted.of owner, granted.filter fun g => g.1 ≠ owner)

end Granted

/-- What declaring a tool came to. -/
structure Resolution where
  owner : Owner
  spec : ToolSpec
  outcome : Except ToolError (List LocalTool)

def Resolution.failure? (r : Resolution) : Option ToolFailure :=
  match r.outcome with
  | .ok _ => none
  | .error e => some ⟨r.owner.text, r.spec.identifier, e.message, e.isLocal⟩

def Resolution.granted (r : Resolution) : Granted :=
  match r.outcome with
  | .ok tools => tools.map fun t => (r.owner, t)
  | .error _ => []

def declarations (requests : List Request) : List (Owner × ToolSpec) :=
  requests.flatMap fun r => r.specs.map fun s => (r.owner, s)

def invalid? (g : Owner × LocalTool) : Option ToolFailure :=
  match g.2.validate.run with
  | .ok _ => none
  | .error e => some ⟨g.1.text, g.2.name, e.message, e.isLocal⟩

/-- Failures stably sorted by the text of the owner. -/
def sortedByOwner (failures : List ToolFailure) : List ToolFailure :=
  failures.mergeSort fun a b => !(b.owner < a.owner)

def failuresOf (resolutions : List Resolution) : List ToolFailure :=
  resolutions.filterMap Resolution.failure? ++
    sortedByOwner ((resolutions.flatMap Resolution.granted).filterMap invalid?)

def verdict (resolutions : List Resolution) : Except ConnectivityError Granted :=
  let failures := failuresOf resolutions
  if failures.isEmpty then .ok (resolutions.flatMap Resolution.granted) else .error ⟨failures⟩

variable {m : Type → Type} [Monad m]

def gate (resolve : ToolSpec → m (Except ToolError (List LocalTool))) (requests : List Request) :
    m (Except ConnectivityError Granted) := do
  let resolutions ← (declarations requests).mapM fun (owner, spec) => do
    return ⟨owner, spec, ← resolve spec⟩
  return verdict resolutions

end CrewFlow.Tool
