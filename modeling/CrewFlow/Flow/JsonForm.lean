import CrewFlow.Flow.Graph
import CrewFlow.Spec.JsonForm
/-!
# JSON form of a graph

A graph as JSON: every step with its trigger, what it does and which steps listen to it.
-/
namespace CrewFlow.Flow

open Json (Value)

def Step.kindText (s : Step) : String :=
  match s.kind with
  | .start => "start"
  | .listen .. => "listen"
  | .router .. => "router"

def Step.actionText (s : Step) : String :=
  match s.action with
  | .runCrew name => "crew:" ++ name
  | .finalize => "finalize"
  | .noop => "noop"

def Step.routerJson (s : Step) : List (String × Value) :=
  match s.router? with
  | some (condition, routes) =>
    [("condition", .str condition), ("routes", routes.toJson), ("targets", .ofTexts routes.targets)]
  | none => []

def Graph.stepJson (g : Graph) (s : Step) : Value :=
  let (after, join) := s.trigger
  .obj ([("name", .str s.name), ("kind", .str s.kindText), ("after", .ofTexts after),
    ("logic", .str join.text), ("router", .bool s.router?.isSome), ("output", .ofText? s.output),
    ("action", .str s.actionText),
    ("listeners", .ofTexts ((g.listenersOf s.name).map (·.name)))] ++ s.routerJson)

def Graph.toJson (g : Graph) : Value :=
  .obj [("name", .str g.name), ("steps", .arr (g.steps.map g.stepJson)), ("crews", .ofTexts g.crews),
    ("step_names", .ofTexts g.stepNames), ("starts", .ofTexts (g.starts.map (·.name)))]

end CrewFlow.Flow
