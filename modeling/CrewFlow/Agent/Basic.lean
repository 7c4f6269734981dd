import CrewFlow.Spec.Document
import CrewFlow.Time.Span
import CrewFlow.Tool.Capability
/-!
# Agents

An agent is a role bound to a chat model and to tools, with limits on its turns, its time and the
rate of its requests.
-/
namespace CrewFlow

open Spec (AgentSpec ToolSpec)
open Tool (LocalTool)

namespace Agent

/-- Who speaks in a message. -/
inductive Speaker where
  | system
  | user
  | assistant
  deriving DecidableEq, Repr

def Speaker.text : Speaker → String
  | .system => "system"
  | .user => "user"
  | .assistant => "assistant"

/-- A message to or from a chat model. -/
structure Message where
  speaker : Speaker
  content : String
  deriving DecidableEq, Repr

/-- What a chat model does with a request: how many milliseconds it takes and what it replies, or
why it fails. -/
structure Answer where
  delay : Nat
  outcome : Except String String

structure ChatModel where
  name : String
  respond : List Message → Answer

/-- The limits of an agent: turns, milliseconds and requests per minute. -/
structure Limits where
  maxIter : Nat
  maxTime : Option Nat
  maxRpm : Option Nat
  deriving DecidableEq, Repr

def defaultMaxIter : Nat := 25

def codeMaxIter : Nat := 5

def codeMaxTime : Nat := 300000

def Limits.default : Limits := ⟨defaultMaxIter, none, none⟩

/-- The tools that a declared agent gets: its own, and the code interpreter when it may execute code
and does not list it. -/
def effectiveTools (spec : AgentSpec) : List ToolSpec :=
  if spec.allowCodeExecution && !spec.tools.any ToolSpec.isCodeInterpreter then
    spec.tools ++ [.native ToolSpec.codeInterpreter []]
  else spec.tools

def executesCode (spec : AgentSpec) : Bool :=
  spec.allowCodeExecution || spec.tools.any ToolSpec.isCodeInterpreter

/-- The limits of a declared agent. What it sets itself wins. -/
def limitsFor (spec : AgentSpec) : Limits :=
  let code := executesCode spec
  { maxIter := spec.maxIter.getD (if code then codeMaxIter else defaultMaxIter)
    maxTime := match spec.maxExecutionTime with
      | some seconds => some (seconds * 1000)
      | none => if code then some codeMaxTime else none
    maxRpm := spec.maxRpm }

end Agent

/-- An agent that is ready to work. -/
structure Agent where
  role : String
  goal : String
  backstory : String
  model : Agent.ChatModel
  tools : List LocalTool
  limits : Agent.Limits
  runsCode : Bool

namespace Agent

/-- Why an agent has no answer. -/
inductive AgentError where
  | timeout (role : String) (limit : Nat)
  | model (role cause : String)
  deriving DecidableEq, Repr

def AgentError.message : AgentError → String
  | .timeout role limit =>
    "agent '" ++ role ++ "' exceeded its time limit of " ++ Time.spanText limit
  | .model role cause => "agent '" ++ role ++ "' model call failed: " ++ cause

end Agent

end CrewFlow
