import CrewFlow.Spec.Document
/-!
# Flow graphs

A flow is a list of steps, each with what triggers it and what it does. A document without methods
has a chain over its crews, closed by a step that joins the results.
-/
namespace CrewFlow.Flow

open Spec (Join RouteTable Workflow MethodSpec)

/-- What triggers a step; a router also reads a condition and has routes. -/
inductive StepKind where
  | start
  | listen (after : List String) (join : Join)
  | router (after : List String) (join : Join) (condition : String) (routes : RouteTable)
  deriving DecidableEq, Repr

/-- What a step does. -/
inductive StepAction where
  | runCrew (name : String)
  | finalize
  | noop
  deriving DecidableEq, Repr

/-- A step. `output` names the state field that takes the result of its crew. -/
structure Step where
  name : String
  kind : StepKind
  action : StepAction
  output : Option String
  deriving DecidableEq, Repr

namespace Step

/-- The predecessors of a step and how it joins them; a start step has none. -/
def trigger (s : Step) : List String × Join :=
  match s.kind with
  | .start => ([], .all)
  | .listen after join => (after, join)
  | .router after join _ _ => (after, join)

def isStart (s : Step) : Bool :=
  match s.kind with
  | .start => true
  | _ => false

def router? (s : Step) : Option (String × RouteTable) :=
  match s.kind with
  | .router _ _ condition routes => some (condition, routes)
  | _ => none

def listensTo (s : Step) (name : String) : Bool := s.trigger.1.contains name

end Step

structure Graph where
  name : String
  steps : List Step
  deriving DecidableEq, Repr

namespace Graph

/-- The step with a name; of several, the last. -/
def step? (g : Graph) (name : String) : Option Step := g.steps.reverse.find? fun s => s.name == name

def stepNames (g : Graph) : List String := g.steps.map (·.name)

def starts (g : Graph) : List Step := g.steps.filter Step.isStart

def listenersOf (g : Graph) (name : String) : List Step := g.steps.filter fun s => s.listensTo name

def crews (g : Graph) : List String :=
  g.steps.filterMap fun s =>
    match s.action with
    | .runCrew name => some name
    | _ => none

end Graph

def finalizeName : String := "finalize"

def chainKind : Option String → StepKind
  | none => .start
  | some previous => .listen [previous] .all

def chainFrom (previous : Option String) : List String → List Step
  | [] => [⟨finalizeName, chainKind previous, .finalize, none⟩]
  | crew :: crews =>
    let name := "run_" ++ crew
    ⟨name, chainKind previous, .runCrew crew, none⟩ :: chainFrom (some name) crews

/-- One step for each crew, each behind the one before, and the joining step at the end. -/
def defaultChain (crews : List String) : List Step := chainFrom none crews

def methodStep (promoted : Bool) (m : MethodSpec) : Step :=
  { name := m.name
    kind :=
      if promoted then .start
      else
        match m.kind with
        | .start => .start
        | .listen => .listen m.listenTo m.join
        | .router => .router m.listenTo m.join (m.condition.getD "") m.routes
    action := match m.crew with
      | some crew => .runCrew crew
      | none => .noop
    output := m.output }

/-- The steps of declared methods; where none is a start, the first is made one. -/
def declaredSteps (methods : List MethodSpec) : List Step :=
  let promote := !methods.any fun m => m.kind == .start
  methods.mapIdx fun i m => methodStep (promote && i == 0) m

def Graph.ofWorkflow (w : Workflow) : Graph :=
  ⟨w.displayName,
    if w.methods.isEmpty then defaultChain (w.crews.map (·.name)) else declaredSteps w.methods⟩

end CrewFlow.Flow
