import CrewFlow.Build.Assembly
import CrewFlow.Text.Search
import CrewFlow.Tool.Registry
/-!
# Rehearsals

Scripted collaborators for trying a workflow out: models that follow rules, tools that return what
they are told, servers with a fixed offer and an embedder with given vectors.
-/
namespace CrewFlow.Rehearsal

open Agent (Answer ChatModel Message Speaker)
open Json (Value Fields)
open Spec (LlmSpec)
open Tool (LocalTool Registry ToolError)

/-- A rule of a scripted model: to which requests it applies, how long the model takes and whether it
fails, else what it replies. -/
structure Rule where
  turn : Option Nat
  contains : Option String
  first : Option String
  reply : String
  failure : Option String
  delay : Nat
  deriving Repr

def promptLine (messages : List Message) : String :=
  Text.firstLine ((messages[1]?.map (·.content)).getD "")

def lastText (messages : List Message) : String := (messages.getLast?.map (·.content)).getD ""

def turnsOf (messages : List Message) : Nat :=
  (messages.filter fun m => m.speaker = .assistant).length

def Rule.applies (r : Rule) (messages : List Message) : Bool :=
  r.turn.all (· == turnsOf messages) &&
    r.contains.all (Text.contains (lastText messages)) &&
    r.first.all (Text.contains (promptLine messages))

def fillReply (reply : String) (messages : List Message) : String :=
  Text.replaceAll (Text.replaceAll reply "<<first>>" (promptLine messages)) "<<last>>"
    (lastText messages)

def plainReply : String := "Final Answer: done <<first>>"

def scriptedModel (name : String) (rules : List Rule) : ChatModel where
  name := name
  respond messages :=
    match rules.find? fun r => r.applies messages with
    | some r =>
      match r.failure with
      | some cause => ⟨r.delay, .error cause⟩
      | none => ⟨r.delay, .ok (fillReply r.reply messages)⟩
    | none => ⟨0, .ok (fillReply plainReply messages)⟩

/-- A scripted tool. It returns its parameters, a given value or its input, unless one of the errors
is set. -/
structure ToolScript where
  name : Option String
  description : String
  returns : Option Value
  echoesParams : Bool
  failure : Option ToolError
  invalid : Option ToolError
  unresolvable : Option ToolError

def sortedParams (params : Fields) : Fields := params.mergeSort fun a b => !(b.1 < a.1)

def ToolScript.tool (s : ToolScript) (name : String) (params : Fields) : LocalTool where
  name := s.name.getD name
  description := s.description
  validate := pure (match s.invalid with
    | some e => .error e
    | none => .ok ())
  invoke input := pure (match s.failure with
    | some e => .error e
    | none =>
      if s.echoesParams then .ok (.obj (sortedParams params)) else .ok (s.returns.getD input))

def ToolScript.make (s : ToolScript) (name : String) (params : Fields) : Except ToolError LocalTool :=
  match s.unresolvable with
  | some e => .error e
  | none => .ok (s.tool name params)

/-- A model of a rehearsal: one that follows rules, or none for a reason. -/
inductive ModelScript where
  | rules (rules : List Rule)
  | unavailable (cause : String)

/-- An embedder of a rehearsal: none for a reason, or one that fails, gives no vectors or gives those
of a table. -/
inductive EmbedderScript where
  | unavailable (cause : String)
  | failing (cause : String)
  | empty
  | table (vectors : List (String × Memory.Vector32))

/-- What a rehearsal provides. -/
structure Stage where
  models : List (String × ModelScript)
  native : List (String × ToolScript)
  custom : List (String × ToolScript)
  servers : Option (List (String × List ToolScript))
  embedder : Option EmbedderScript

def defaultModel : String := "default"

namespace Stage

def modelFor (s : Stage) (llm : Option LlmSpec) : Except String ChatModel :=
  let name := (llm.bind (·.model)).getD defaultModel
  match s.models.lookup name with
  | some (.unavailable cause) => .error cause
  | some (.rules rules) => .ok (scriptedModel name rules)
  | none => .ok (scriptedModel name [])

def offer (servers : List (String × List ToolScript)) (host : String) :
    Except ToolError (List LocalTool) :=
  match servers.lookup host with
  | some tools => .ok (tools.map fun t => t.tool "" [])
  | none => .error (.connectivity ("unknown tool server '" ++ host ++ "'"))

def registry (s : Stage) : Registry Id where
  native name := (s.native.lookup name).map fun t params => t.make name params
  custom implementation := (s.custom.lookup implementation).map fun t name params =>
    t.make (name.getD implementation) params
  servers := s.servers.map fun servers host => pure (offer servers host)

end Stage

def EmbedderScript.provide : EmbedderScript → Except String Memory.Embedder
  | .unavailable cause => .error cause
  | .failing cause => .ok ⟨"script", fun _ => .error cause⟩
  | .empty => .ok ⟨"script", fun _ => .ok []⟩
  | .table vectors =>
    .ok ⟨"script", fun texts => .ok (texts.map fun t => (vectors.lookup t).getD [1])⟩

def Stage.collaborators (s : Stage) : Build.Collaborators Id where
  resolve spec := s.registry.resolve spec
  modelFor llm := pure (s.modelFor llm)
  embedderFor := s.embedder.map fun e _ => pure e.provide

end CrewFlow.Rehearsal
