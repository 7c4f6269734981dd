import CrewFlow.Spec.Source
/-!
# Failures of builds and runs

A build or a run ends in one of three kinds of error: the document is wrong, tools could not be
resolved or validated, or a unit of work failed while it ran.
-/
namespace CrewFlow

/-- A tool that could not be resolved or validated. It is a local failure when the declaration names
something that this process does not provide. -/
structure ToolFailure where
  owner : String
  tool : String
  reason : String
  isLocal : Bool
  deriving DecidableEq, Repr

def ToolFailure.text (f : ToolFailure) : String :=
  f.owner ++ " -> " ++ f.tool ++ ": " ++ f.reason ++
    (if f.isLocal then " (local declaration)" else "")

/-- The failures of all tools of a build. -/
structure ConnectivityError where
  failures : List ToolFailure
  deriving DecidableEq, Repr

def ConnectivityError.localFailures (e : ConnectivityError) : List ToolFailure :=
  e.failures.filter (·.isLocal)

def ConnectivityError.message (e : ConnectivityError) : String :=
  let count := e.localFailures.length
  toString e.failures.length ++ " tool(s) failed" ++
    (if 0 < count then " (" ++ toString count ++ " local)" else "") ++ ": " ++
    "; ".intercalate (e.failures.map ToolFailure.text)

/-- A unit of work that failed. -/
inductive ExecutionError where
  | task (name message : String)
  | crew (name message : String)
  | flowStep (name message : String)
  | other (message : String)
  deriving DecidableEq, Repr

def ExecutionError.message : ExecutionError → String
  | .task name message => "task '" ++ name ++ "' failed: " ++ message
  | .crew name message => "crew '" ++ name ++ "' failed: " ++ message
  | .flowStep name message => "flow step '" ++ name ++ "' failed: " ++ message
  | .other message => message

inductive BuildError where
  | config (e : Spec.ConfigError)
  | connectivity (e : ConnectivityError)
  | execution (e : ExecutionError)
  deriving Repr

def BuildError.kind : BuildError → String
  | .config _ => "config"
  | .connectivity _ => "connectivity"
  | .execution _ => "execution"

def BuildError.message : BuildError → String
  | .config e => "configuration error: " ++ e.message
  | .connectivity e => "connectivity error: " ++ e.message
  | .execution e => "execution error: " ++ e.message

end CrewFlow
