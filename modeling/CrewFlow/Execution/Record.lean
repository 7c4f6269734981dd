import CrewFlow.Json.Decode
import CrewFlow.Spec.Vocabulary
import CrewFlow.Time.Reader
/-!
# Execution records

A record tells how far a submitted run has come. Only a finished run has a result and the time at
which it finished.
-/
namespace CrewFlow.Execution

open Json (Value)
open Time (Instant)

/-- How far a run has come. `notFound` is only ever told, never stored. -/
inductive Status where
  | pending
  | running
  | completed
  | failed
  | notFound
  deriving DecidableEq, Repr

namespace Status

def text : Status → String
  | .pending => "PENDING"
  | .running => "RUNNING"
  | .completed => "COMPLETED"
  | .failed => "FAILED"
  | .notFound => "NOT_FOUND"

def all : List Status := [.pending, .running, .completed, .failed, .notFound]

def ofText (s : String) : Except Spec.UnknownWord Status :=
  match all.find? fun status => status.text == s with
  | some status => .ok status
  | none => .error ⟨.status, s⟩

def isTerminal : Status → Bool
  | .completed => true
  | .failed => true
  | _ => false

end Status

/-- One submitted run. A result that is null is not the same as none. -/
structure Record where
  id : String
  workflowId : Option String
  name : String
  status : Status
  result : Option Value
  createdAt : Instant
  updatedAt : Instant
  finishedAt : Option Instant
  deriving Repr

/-- The answer to the question for a status. -/
structure StatusReport where
  status : Status
  result : Option Value
  deriving Repr

def StatusReport.unknown : StatusReport := ⟨.notFound, none⟩

/-- A row of a listing. -/
structure Summary where
  executionId : String
  status : Status
  name : String
  createdAt : Instant
  updatedAt : Instant
  deriving Repr

namespace Record

def pending (id name : String) (workflowId : Option String) (now : Instant) : Record :=
  { id, workflowId, name, status := .pending, result := none, createdAt := now, updatedAt := now
    finishedAt := none }

/-- The record after a change of status. The result is kept only when the run is over. -/
def transition (r : Record) (status : Status) (result : Option Value) (now : Instant) : Record :=
  let moved := { r with status, updatedAt := now }
  if status.isTerminal then { moved with result, finishedAt := some now } else moved

def report (r : Record) : StatusReport := ⟨r.status, r.result⟩

def summary (r : Record) : Summary := ⟨r.id, r.status, r.name, r.createdAt, r.updatedAt⟩

def instant (v : Value) : Json.Decoded Instant := do
  let text ← Json.Decode.text v
  match Instant.read? text with
  | some t => return t
  | none => throw (.invalidValue v "a time")

def statusOf : Value → Json.Decoded Status :=
  Json.Decode.variant (Status.all.map fun status => (status.text, status))

def ofJson (v : Value) : Json.Decoded Record := do
  let fs ← Json.Decode.record ⟨"struct ExecutionRecord", ["id", "workflow_id", "name", "status",
    "result", "created_at", "updated_at", "finished_at"]⟩ 8 v
  let id ← Json.Decode.required fs "id" Json.Decode.text
  let workflowId ← Json.Decode.defaulted fs "workflow_id" (Json.Decode.optional Json.Decode.text) none
  let name ← Json.Decode.required fs "name" Json.Decode.text
  let status ← Json.Decode.required fs "status" statusOf
  let result ← Json.Decode.defaulted fs "result" Json.Decode.any none
  let createdAt ← Json.Decode.required fs "created_at" instant
  let updatedAt ← Json.Decode.required fs "updated_at" instant
  let finishedAt ← Json.Decode.defaulted fs "finished_at" (Json.Decode.optional instant) none
  return { id, workflowId, name, status, result, createdAt, updatedAt, finishedAt }

def toJson (r : Record) : Value :=
  .obj [("id", .str r.id), ("workflow_id", .ofText? r.workflowId), ("name", .str r.name),
    ("status", .str r.status.text), ("result", r.result.getD .null),
    ("created_at", .str r.createdAt.text), ("updated_at", .str r.updatedAt.text),
    ("finished_at", .ofText? (r.finishedAt.map (·.text)))]

end Record

end CrewFlow.Execution
