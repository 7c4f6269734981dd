import CrewFlow.Json.Parser
import CrewFlow.Spec.Issue
import CrewFlow.Yaml.ToJson
/-!
# Reading document texts

A text is read as YAML, and as JSON where that fails. The result is a mapping in which optional
parts have one shape: one list of crews, lists in place of missing or single names, and a list of
methods in place of a mapping.
-/
namespace CrewFlow.Spec

open Json (Value Fields)

/-- The format that a text appears to be written in. -/
inductive TextFormat where
  | json
  | yaml
  deriving DecidableEq, Repr

def TextFormat.text : TextFormat → String
  | .json => "JSON"
  | .yaml => "YAML"

/-- JSON when the text opens with a brace or a bracket. -/
def TextFormat.detect (text : String) : TextFormat :=
  match (Text.trimStart text.toList).head? with
  | some '{' => .json
  | some '[' => .json
  | _ => .yaml

inductive ParseFault where
  | malformed
  | unsupported (what : Yaml.Unsupported)
  | notMapping (kind : String)
  deriving DecidableEq, Repr

/-- The wording of a fault. Where a malformed text goes wrong is not told. -/
def ParseFault.message : ParseFault → String
  | .malformed => "<syntax>"
  | .unsupported what => what.message
  | .notMapping kind => "top level must be a mapping, got " ++ kind

/-- What is wrong with a document as a whole. -/
inductive ConfigError where
  | parse (format : TextFormat) (fault : ParseFault)
  | missingOrchestration
  | unknownOrchestration (word : String)
  | schema (issues : List Issue)
  | unknownAgent (task role : String)
  deriving Repr

namespace ConfigError

def issues : ConfigError → List Issue
  | .schema issues => issues
  | _ => []

def failedSections (e : ConfigError) : List String :=
  noticedSections (e.issues.map Issue.notice)

def message : ConfigError → String
  | .parse format fault => format.text ++ " parse error: " ++ fault.message
  | .missingOrchestration =>
    "orchestration type is not specified (expected \"crew\" or \"flow\")"
  | .unknownOrchestration word =>
    "unknown orchestration type '" ++ word ++ "' (expected \"crew\" or \"flow\")"
  | .schema issues => noticesText (issues.map Issue.notice)
  | .unknownAgent task role =>
    "task '" ++ task ++ "' references unknown agent '" ++ role ++
      "'; flows require every task to have a declared owner"

end ConfigError

def readMapping (text : String) : Except ConfigError Fields :=
  let format := TextFormat.detect text
  let value : Except ConfigError Value :=
    match Yaml.read? text with
    | some node =>
      match node.toJson with
      | .ok v => .ok v
      | .error what => .error (.parse .yaml (.unsupported what))
    | none =>
      match Json.parse? text with
      | some v => .ok v
      | none => .error (.parse format .malformed)
  match value with
  | .ok (.obj fields) => .ok fields
  | .ok v => .error (.parse format (.notMapping v.kind))
  | .error e => .error e

/-- The orchestration that is asked for, else the one that the document names. A blank wish is
none. -/
def orchestrationOf (fields : Fields) (wish : Option String) : Except ConfigError Orchestration :=
  let read (s : String) := (Orchestration.ofText s).mapError ConfigError.unknownOrchestration
  match wish.filter fun s => !Text.isBlankText s with
  | some s => read s
  | none =>
    match fields.get? "orchestration_type" with
    | some (.str s) => read s
    | none => .error .missingOrchestration
    | some .null => .error .missingOrchestration
    | some v => .error (.unknownOrchestration v.text)

def shown? : Option Value → Option String
  | some (.str s) => if Text.isBlankText s then none else some s
  | _ => none

/-- The name of a document: its own, else that of its flow. -/
def documentName? (fields : Fields) : Option String :=
  (shown? (fields.get? "name")).or
    (shown? ((fields.get? "flow").bind fun flow => flow.get? "flow_name"))

/-- The list under a key: empty when it is missing or null, of one item when it is a text. -/
def listDefault (key : String) (fields : Fields) : Fields :=
  match fields.get? key with
  | none => fields.insert key (.arr [])
  | some .null => fields.insert key (.arr [])
  | some (.str s) => fields.insert key (.arr [.str s])
  | some _ => fields

def mapEntries (change : Fields → Fields) : Value → Value
  | .arr items => .arr (items.map fun
    | .obj fields => .obj (change fields)
    | v => v)
  | v => v

def changeField (key : String) (change : Value → Value) (fields : Fields) : Fields :=
  match fields.get? key with
  | some v => fields.insert key (change v)
  | none => fields

def withName (fields : Fields) : Fields :=
  match documentName? fields with
  | some name => fields.insert "name" (.str name)
  | none => fields

def crewList : Value → Value
  | .arr items => .arr items
  | .null => .arr []
  | v => .arr [v]

/-- Takes `crew` away; where there are no `crews`, it takes their place. -/
def withCrews (fields : Fields) : Fields :=
  match fields.get? "crew" with
  | none => fields
  | some crew =>
    let rest := fields.erase "crew"
    match fields.get? "crews" with
    | none => rest.insert "crews" (crewList crew)
    | some .null => rest.insert "crews" (crewList crew)
    | some _ => rest

/-- Turns a mapping of methods into a list, each with its key as its name unless it has one. -/
def methodList : Value → Value
  | .obj methods => .arr (methods.map fun
    | (name, .obj fields) =>
      .obj (if Fields.has fields "name" then fields else Fields.insert fields "name" (.str name))
    | (_, v) => v)
  | v => v

def normalize (fields : Fields) : Fields :=
  let fields := withCrews (withName fields)
  let fields := changeField "agents" (mapEntries (listDefault "tools")) fields
  let fields :=
    changeField "tasks" (mapEntries fun task => listDefault "context" (listDefault "tools" task))
      fields
  let fields := changeField "flow_methods" methodList fields
  changeField "flow_methods" (mapEntries (listDefault "listen_to")) fields

/-- A document that has been read but not validated. -/
structure Parsed where
  fields : Fields
  orchestration : Orchestration
  deriving Repr

def parse (text : String) (wish : Option String) : Except ConfigError Parsed := do
  let fields ← readMapping text
  let orchestration ← orchestrationOf fields wish
  return ⟨normalize fields, orchestration⟩

def peekName? (text : String) : Option String :=
  match readMapping text with
  | .ok fields => documentName? fields
  | .error _ => none

end CrewFlow.Spec
