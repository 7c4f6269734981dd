import CrewFlow.Json.Basic
import CrewFlow.Text.Blank
import CrewFlow.Text.Count
import CrewFlow.Text.Search
import CrewFlow.Yaml.Raw
/-!
# Settings of the service

Where the service listens, where it keeps its records, which model it takes when an agent names none
and which tool servers it knows. Settings come from variables of the environment or from a YAML file.
-/
namespace CrewFlow.Service

open Json (Value)
open Text (CountFault isBlankText readCount trim)
open Yaml (Document Raw)

/-- Settings of one service. `toolServers` gives the address of each server, in the order of the
names. -/
structure Settings where
  port : Nat
  dbPath : String
  defaultModel : String
  apiKey : Option String
  baseUrl : Option String
  toolServers : List (String × String)
  deriving DecidableEq, Repr

def fallbackModel : String := "gpt-4o-mini"

namespace Settings

def default : Settings := ⟨8080, "crewforge.db", fallbackModel, none, none, []⟩

def bindAddress (s : Settings) : String := "0.0.0.0:" ++ toString s.port

def toJson (s : Settings) : Value :=
  .obj [("port", .int s.port), ("db_path", .str s.dbPath), ("default_model", .str s.defaultModel),
    ("openai_api_key", .ofText? s.apiKey), ("openai_base_url", .ofText? s.baseUrl),
    ("tool_servers", .obj (s.toolServers.map fun e => (e.1, .str e.2)))]

end Settings

/-! ## Variables -/

inductive VariableFault where
  | port (fault : CountFault)
  | toolServer (piece : String)
  deriving DecidableEq, Repr

def VariableFault.message : VariableFault → String
  | .port fault => "invalid value for PORT: " ++ fault.message
  | .toolServer piece =>
    "invalid value for CREWFORGE_TOOL_SERVERS: expected name=url, got '" ++ piece ++ "'"

/-- One more than the largest port. -/
def portBound : Nat := 65536

/-- Entries in the order of their names, the last one of each name. -/
def byName (entries : List (String × String)) : List (String × String) :=
  let last := entries.foldl (fun kept e => kept.filter (fun k => k.1 ≠ e.1) ++ [e]) []
  last.mergeSort fun a b => !(b.1 < a.1)

def readToolServer (piece : String) : Except VariableFault (String × String) :=
  match Text.splitOnce? piece "=" with
  | some (name, url) =>
    if isBlankText name || isBlankText url then .error (.toolServer piece)
    else .ok (trim name, String.ofList (Text.dropBack '/' (trim url).toList))
  | none => .error (.toolServer piece)

/-- The pieces between commas that are not blank, without white space around them. -/
def listPieces (text : String) : List String :=
  ((Text.pieces ',' text.toList).map fun p => trim (String.ofList p)).filter (· ≠ "")

def readToolServers (text : String) : Except VariableFault (List (String × String)) := do
  return byName (← (listPieces text).mapM readToolServer)

/-- Settings from variables; blank ones count as missing. -/
def Settings.ofVariables (lookup : String → Option String) : Except VariableFault Settings := do
  let value (name : String) : Option String := (lookup name).filter fun v => !isBlankText v
  let port ← match value "PORT" with
    | some text => (readCount portBound (trim text)).mapError .port
    | none => pure Settings.default.port
  let toolServers ← match value "CREWFORGE_TOOL_SERVERS" with
    | some text => readToolServers text
    | none => pure []
  return {
    port, toolServers
    dbPath := (value "CREWFORGE_DB_PATH").getD Settings.default.dbPath
    defaultModel := (value "CREWFORGE_DEFAULT_MODEL").getD Settings.default.defaultModel
    apiKey := value "OPENAI_API_KEY"
    baseUrl := value "OPENAI_BASE_URL" }

/-! ## Files -/

/-- Reads an entry of a settings file; what unknown keys hold does not matter. -/
def readEntry? (d : Document) (s : Settings) (key : String) (v : Raw) : Option Settings :=
  match key with
  | "port" => (v.natural? d portBound).map fun port => { s with port }
  | "db_path" => (v.text? d).map fun dbPath => { s with dbPath }
  | "default_model" => (v.text? d).map fun defaultModel => { s with defaultModel }
  | "openai_api_key" => (v.optionalText? d).map fun apiKey => { s with apiKey }
  | "openai_base_url" => (v.optionalText? d).map fun baseUrl => { s with baseUrl }
  | "tool_servers" => do
    let entries ← v.entries? d
    let servers ← entries.mapM fun (name, url) => do return (← name.text? d, ← url.text? d)
    return { s with toolServers := byName servers }
  | _ => some s

def settingKeys : List String :=
  ["port", "db_path", "default_model", "openai_api_key", "openai_base_url", "tool_servers"]

/-- Reads the entries of a settings file. No known key may be there twice. -/
def readEntries? (d : Document) (seen : List String) (s : Settings) :
    List (Raw × Raw) → Option Settings
  | [] => some s
  | (k, v) :: rest => do
    let key ← k.text? d
    if seen.contains key && settingKeys.contains key then none
    readEntries? d (key :: seen) (← readEntry? d s key v) rest

def Settings.ofFile? (text : String) : Option Settings := do
  let d ← Document.read? text
  readEntries? d [] Settings.default (← (← d.rawAt? 0).entries? d)

end CrewFlow.Service
