import CrewFlow.Agent.Basic
import CrewFlow.Agent.Reply
import CrewFlow.Json.Printer
/-!
# Dialogues with a model

An agent talks to its model in turns. Each reply is a final answer, or it is written down with what
came of it: what a tool returned, or advice on the format. When no turns are left, the model is told
so and its next reply decides the answer. Calls of tools may have effects of `m`; those of an agent
that is ready to work have none.
-/
namespace CrewFlow.Agent

open Json (Value)
open Tool (Capability LocalTool)

variable {m : Type → Type}

def toolNames (tools : List (Capability m)) : String := ", ".intercalate (tools.map (·.name))

def plainInstructions : String :=
  "\n\nTo give my best complete final answer to the task respond using the exact following format:\n\nThought: I now can give a great answer\nFinal Answer: Your final answer must be the great and the most complete as possible."

def toolInstructions (tools : List (Capability m)) : String :=
  let line (t : Capability m) : String :=
    "Tool Name: " ++ t.name ++ "\nTool Description: " ++ t.description ++ "\n"
  "\nYou ONLY have access to the following tools:\n\n" ++ String.join (tools.map line) ++
    "\nUse the following format:\n\nThought: you should always think about what to do\nAction: the action to take, only one name of [" ++
    toolNames tools ++
    "]\nAction Input: the input to the action, as a JSON object\nObservation: the result of the action\n\nOnce all necessary information is gathered:\n\nThought: I now know the final answer\nFinal Answer: the final answer to the original input question"

def systemPrompt (agent : Agent) (tools : List (Capability m)) : String :=
  "You are " ++ agent.role ++ ". " ++ agent.backstory ++ "\nYour personal goal is: " ++ agent.goal ++
    (if tools.isEmpty then plainInstructions else toolInstructions tools)

def lastChance : String :=
  "You have reached the maximum number of iterations. Give your best Final Answer now."

/-- The value that a tool gets: the JSON object or list that a text holds, else the text as the field
`input`. -/
def toolInput (raw : String) : Value :=
  match Json.parse? raw with
  | some (.obj fields) => .obj fields
  | some (.arr items) => .arr items
  | _ => .obj [("input", .str raw)]

def resultText (name : String) : Except Tool.ToolError Value → String
  | .ok value => value.plainText
  | .error e => "Tool '" ++ name ++ "' failed: " ++ e.message

def missingText (tools : List (Capability m)) (name : String) : String :=
  "Tool '" ++ name ++ "' does not exist. Available tools: " ++ toolNames tools

def observation [Monad m] (tools : List (Capability m)) (name input : String) : m String :=
  match tools.find? fun t => t.name == name with
  | some tool => resultText name <$> tool.invoke (toolInput input)
  | none => pure (missingText tools name)

structure Dialogue (m : Type → Type) where
  tools : List (Capability m)
  messages : List Message
  left : Nat

/-- What a reply leads to. -/
inductive Turn (m : Type → Type) where
  | again (d : Dialogue m)
  | answer (text : String)

def opening (agent : Agent) (tools : List (Capability m)) (prompt : String) : List Message :=
  [⟨.system, systemPrompt agent tools⟩, ⟨.user, prompt⟩]

namespace Dialogue

def equipped (agent : Agent) (tools : List (Capability m)) (prompt : String) : Dialogue m :=
  ⟨tools, opening agent tools prompt, agent.limits.maxIter⟩

/-- The dialogue of an agent about a prompt. Its own tools come before the added ones. -/
def start (agent : Agent) (extra : List LocalTool) (prompt : String) : Dialogue Id :=
  equipped agent (agent.tools ++ extra) prompt

def request (d : Dialogue m) : List Message :=
  if d.left = 0 then d.messages ++ [⟨.user, lastChance⟩] else d.messages

def requestsLeft (d : Dialogue m) : Nat := d.left + 1

def record (d : Dialogue m) (reply feedback : String) : Dialogue m :=
  { d with
    messages := d.messages ++ [⟨.assistant, reply⟩, ⟨.user, feedback⟩]
    left := d.left - 1 }

/-- Takes a reply. The last one is the answer even when it cannot be read; without tools any reply
that cannot be read is one. -/
def feed [Monad m] (d : Dialogue m) (reply : String) : m (Turn m) :=
  match Reply.read reply with
  | .ok (.finish _ output) => pure (.answer output)
  | .ok (.action _ tool input) =>
    -- Nobody would be told what the tool returned, so it is not called.
    if d.left = 0 then pure (.answer (Text.trim reply))
    else do
      let observed ← observation d.tools tool input
      return .again (d.record reply ("Observation: " ++ observed))
  | .error fault =>
    if d.left = 0 || d.tools.isEmpty then pure (.answer (Text.trim reply))
    else pure (.again (d.record reply fault.advice))

/-- The answer of a dialogue with a model that takes no time, within a number of requests. -/
def converse [Monad m] (ask : List Message → m (Except String String)) :
    Nat → Dialogue m → m (Option (Except String String))
  | 0, _ => pure none
  | n + 1, d => do
    match ← ask d.request with
    | .error cause => return some (.error cause)
    | .ok reply =>
      match ← d.feed reply with
      | .answer text => return some (.ok text)
      | .again d => converse ask n d

end Dialogue

end CrewFlow.Agent
