import CrewFlow.Json.Loose
import CrewFlow.Rehearsal.Script
/-!
# Reading rehearsals

Rehearsals as JSON: the rules of models, the tools under their names, the offers of servers and the
embedder.
-/
namespace CrewFlow.Rehearsal

open Json (Value)
open Json.Loose (boolOf fieldsOf listOf natOpt natOr opt textOf textOpt)
open Tool (ToolError)

def readToolError (v : Value) : ToolError :=
  let message := textOf v "message"
  match textOf v "kind" with
  | "config" => .config message
  | "connectivity" => .connectivity message
  | _ => .invocation message

def ToolScript.ofJson (v : Value) : ToolScript where
  name := textOpt v "name"
  description := textOf v "description"
  returns := v.get? "returns"
  echoesParams := boolOf v "params"
  failure := (opt v "fails").map readToolError
  invalid := (opt v "invalid").map readToolError
  unresolvable := (opt v "unresolvable").map readToolError

def Rule.ofJson (v : Value) : Rule where
  turn := natOpt v "turn"
  contains := textOpt v "contains"
  first := textOpt v "first"
  reply := textOf v "reply"
  failure := textOpt v "error"
  delay := natOr v "delay_ms" 0

def ModelScript.ofJson : Value → ModelScript
  | .arr items => .rules (items.map Rule.ofJson)
  | v => .unavailable (textOf v "unavailable")

def readVector (v : Value) : Memory.Vector32 :=
  (v.items?.getD []).filterMap fun
    | .num n => some n.toFloat.toFloat32
    | _ => none

def EmbedderScript.ofJson (v : Value) : EmbedderScript :=
  match textOpt v "unavailable", textOpt v "embed_error" with
  | some cause, _ => .unavailable cause
  | none, some cause => .failing cause
  | none, none =>
    if boolOf v "none" then .empty
    else .table ((fieldsOf v "vectors").map fun f => (f.1, readVector f.2))

def Stage.ofJson (v : Value) : Stage where
  models := (fieldsOf v "models").map fun f => (f.1, .ofJson f.2)
  native := (fieldsOf v "native").map fun f => (f.1, .ofJson f.2)
  custom := (fieldsOf v "custom").map fun f => (f.1, .ofJson f.2)
  servers := (opt v "servers").map fun servers =>
    (servers.fields?.getD []).map fun f => (f.1, (f.2.items?.getD []).map ToolScript.ofJson)
  embedder := (opt v "embedder").map .ofJson

end CrewFlow.Rehearsal
