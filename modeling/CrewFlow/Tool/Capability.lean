import CrewFlow.Json.Printer
/-!
# Capabilities

A capability is a resolved tool: a name and a description for the model, a check that it can be
used, and its call. Checks and calls may have effects of `m`; tools that only compute have none.
-/
namespace CrewFlow.Tool

inductive ToolError where
  | config (message : String)
  | connectivity (message : String)
  | invocation (message : String)
  deriving DecidableEq, Repr

def ToolError.message : ToolError → String
  | .config message => message
  | .connectivity message => message
  | .invocation message => message

def ToolError.isLocal : ToolError → Bool
  | .config _ => true
  | _ => false

/-- A resolved tool. -/
structure Capability (m : Type → Type) where
  name : String
  description : String
  validate : m (Except ToolError Unit)
  invoke : Json.Value → m (Except ToolError Json.Value)

abbrev LocalTool := Capability Id

end CrewFlow.Tool
