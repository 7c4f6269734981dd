import CrewFlow.Digest.Md5
import CrewFlow.Json.Basic
import CrewFlow.Text.Template
import CrewFlow.Tool.Capability
/-!
# Tasks

A task that is ready to run, its prompt, its output and the order in which a crew takes up tasks.
-/
namespace CrewFlow

open Text (Inputs interpolate)

/-- A task. Its context names the tasks whose output it uses. -/
structure CrewTask where
  name : String
  description : String
  expectedOutput : String
  agent : Option String
  tools : List Tool.LocalTool
  context : List String
  executionNumber : Option Int
  isAsync : Bool

/-- What a task yielded. The description is the one that the agent saw. -/
structure TaskOutput where
  name : String
  description : String
  expectedOutput : String
  agent : String
  raw : String
  deriving DecidableEq, Repr

def TaskOutput.summary (o : TaskOutput) : String := Text.summarize o.description 10

def TaskOutput.toJson (o : TaskOutput) : Json.Value :=
  .obj [("name", .str o.name), ("description", .str o.description),
    ("expected_output", .str o.expectedOutput), ("summary", .str o.summary), ("raw", .str o.raw),
    ("agent", .str o.agent)]

namespace CrewTask

def keySource (t : CrewTask) : String := t.description ++ "|" ++ t.expectedOutput

def key (t : CrewTask) : String := Digest.md5 t.keySource

def describe (t : CrewTask) (inputs : Inputs) : String := interpolate t.description inputs

def contextSeparator : String := "\n\n----------\n\n"

def contextPart (context : List TaskOutput) : String :=
  "This is the context you're working with:\n" ++
    contextSeparator.intercalate (context.map (·.raw))

def memoryPart (memories : List (String × String)) : String :=
  "Relevant memories:\n" ++
    "\n".intercalate (memories.map fun m => "- [" ++ m.1 ++ "] " ++ m.2)

def prompt (t : CrewTask) (inputs : Inputs) (context : List TaskOutput)
    (memories : List (String × String)) : String :=
  "\n".intercalate
    ([t.describe inputs, "Expected Output: " ++ interpolate t.expectedOutput inputs] ++
      (if context.isEmpty then [] else [contextPart context]) ++
      (if memories.isEmpty then [] else [memoryPart memories]))

/-- Whether a task may stand before another: by number and then by name, tasks without a number
behind all others. -/
def precedes (a b : CrewTask) : Bool :=
  match a.executionNumber, b.executionNumber with
  | some x, some y => x < y || (x == y && !(b.name < a.name))
  | some _, none => true
  | none, some _ => false
  | none, none => !(b.name < a.name)

/-- Orders tasks by their numbers. Where no task has one, the order stays. -/
def inOrder (tasks : List CrewTask) : List CrewTask :=
  if tasks.any fun t => t.executionNumber.isSome then tasks.mergeSort precedes else tasks

end CrewTask

end CrewFlow
