import CrewFlow.Service.MediaType
import CrewFlow.Service.Tracker
import CrewFlow.Spec.JsonForm
import CrewFlow.Text.Count
import CrewFlow.Text.Percent
/-!
# Routes

What the service answers over HTTP: a health check, submissions, the status of a run, its removal from
the cache, the runs of a workflow, and the check of a document. A request that does not fit its route
is answered with a status alone.
-/
namespace CrewFlow.Service

open Execution (Ledger StatusReport Summary)
open Json (Value)

/-- A request to the service. `path` may have a query behind it, and a scheme and an authority before
it. -/
structure Request where
  method : String
  path : String
  contentType : Option String
  body : String
  deriving DecidableEq, Repr

/-- An answer of the service. A body that is no JSON is left out. -/
structure Response where
  status : Nat
  body : Option Value
  deriving Repr

namespace Response

def bare (status : Nat) : Response := ⟨status, none⟩

def json (status : Nat) (v : Value) : Response := ⟨status, some v⟩

def error (status : Nat) (message : String) : Response := json status (.obj [("error", .str message)])

def ofFormFault : FormFault → Response
  | .malformed => bare 400
  | .wrongShape => bare 422

end Response

/-! ## Paths -/

/-- What a path leads to, with its variable parts as they are written. -/
inductive Place where
  | health
  | executions
  | execution (id : String)
  | cachedExecution (id : String)
  | validation
  | workflowExecutions (workflowId : String)
  deriving DecidableEq, Repr

/-- The place of a path without its query. A variable part at the end is not empty. -/
def Place.ofPath? (path : List Char) : Option Place :=
  match (Text.pieces '/' path).map String.ofList with
  | ["", "health"] => some .health
  | ["", "executions"] => some .executions
  | ["", "executions", id] => if id = "" then none else some (.execution id)
  | ["", "executions", id, "cache"] => some (.cachedExecution id)
  | ["", "workflows", "validate"] => some .validation
  | ["", "workflows", id, "executions"] => some (.workflowExecutions id)
  | _ => none

def Place.method : Place → String
  | .executions => "POST"
  | .validation => "POST"
  | .cachedExecution _ => "DELETE"
  | _ => "GET"

def isSchemeChar (c : Char) : Bool := c.isAlphanum || c == '+' || c == '-' || c == '.'

/-- An address without its scheme and authority, if it has them: the authority lasts until the path,
the query or the fragment begins. -/
def withoutAuthority (address : List Char) : List Char :=
  match address.dropWhile isSchemeChar with
  | ':' :: '/' :: '/' :: rest => rest.dropWhile fun c => c ≠ '/' && c ≠ '?' && c ≠ '#'
  | _ => address

/-- The path and the query of a request; what follows a number sign belongs to neither. -/
def Request.target (r : Request) : List Char × String :=
  let cs := (withoutAuthority r.path.toList).takeWhile (· ≠ '#')
  (cs.takeWhile (· ≠ '?'), String.ofList ((cs.dropWhile (· ≠ '?')).drop 1))

/-! ## Answers -/

def version : String := "0.4.0"

def serviceName : String := "crewforge"

def health : Response :=
  .json 200 (.obj [("status", .str "ok"), ("version", .str version), ("service", .str serviceName)])

def reportJson (r : StatusReport) : Value :=
  .obj [("status", .str r.status.text), ("result", r.result.getD .null)]

def summaryJson (s : Summary) : Value :=
  .obj [("execution_id", .str s.executionId), ("status", .str s.status.text), ("name", .str s.name),
    ("created_at", .str s.createdAt.text), ("updated_at", .str s.updatedAt.text)]

def bodyOf {α : Type} (r : Request) (read : String → Except FormFault α) : Except Response α :=
  if r.contentType.any isJsonMedia then (read r.body).mapError .ofFormFault else .error (.bare 415)

def answerSubmission (t : Tracker) (id : String) (s : Submission) : Tracker × Response :=
  if Text.isBlankText s.document then (t, .error 400 "'spec' must not be empty")
  else
    match t.submit id s with
    | .ok t => (t, .json 202 (.obj [("execution_id", .str id)]))
    | .error e => (t, .error 500 ("could not record execution: " ++ e.message))

/-- A limit is a count of 64 bits. -/
def limitBound : Nat := Decimal.Word.size 64

/-- The limit of a query: none when it is not given, a fault when it is no count or given twice. -/
def limitOf (query : String) : Except Unit (Option Nat) :=
  match (Text.queryEntries query).filter fun e => e.1 == some "limit" with
  | [] => .ok none
  | [(_, some text)] => ((Text.readCount limitBound text).map some).mapError fun _ => ()
  | _ => .error ()

def answerListing (t : Tracker) (workflowId query : String) : Response :=
  match limitOf query with
  | .error _ => .bare 400
  | .ok limit =>
    match t.list workflowId (limit.getD Ledger.defaultLimit) with
    | .ok rows => .json 200 (.arr (rows.map summaryJson))
    | .error e => .error 500 e.message

def validationForm : Form :=
  [⟨"spec", .text, true⟩, ⟨"orchestration_type", .optionalText, false⟩]

def answerValidation (fields : Json.Fields) : Response :=
  let document := ((fields.get? "spec").bind Value.text?).getD ""
  match Spec.check document ((fields.get? "orchestration_type").bind Value.text?) with
  | .ok w =>
    .json 200 (.obj [("valid", .bool true), ("orchestration_type", .str w.orchestration.text),
      ("name", .ofText? w.name)])
  | .error e =>
    let issues := match e with
      | .schema issues => issues.map fun i => Spec.Notice.toJson i.notice
      | _ => []
    .json 422 (.obj [("valid", .bool false), ("error", .str e.message),
      ("sections", .ofTexts e.failedSections), ("issues", .arr issues)])

/-- The answer at a place to a request with its method. A new run gets `id`. -/
def answerAt (t : Tracker) (id : String) (r : Request) (query : String) : Place → Tracker × Response
  | .health => (t, health)
  | .executions =>
    match bodyOf r Submission.read with
    | .ok s => answerSubmission t id s
    | .error response => (t, response)
  | .execution written =>
    match Text.percentDecode? written with
    | none => (t, .bare 400)
    | some id =>
      let (t, report) := t.status id
      (t, .json 200 (reportJson report))
  | .cachedExecution written =>
    match Text.percentDecode? written with
    | none => (t, .bare 400)
    | some id => (t.forget id, .bare 204)
  | .validation =>
    match bodyOf r validationForm.read with
    | .ok fields => (t, answerValidation fields)
    | .error response => (t, response)
  | .workflowExecutions written =>
    match Text.percentDecode? written with
    | none => (t, .bare 400)
    | some workflowId => (t, answerListing t workflowId query)

/-- Answers a request. The question for what is allowed is always answered, and a question for the
head of an answer is one for the answer without its body. -/
def answerRequest (t : Tracker) (id : String) (r : Request) : Tracker × Response :=
  let (path, query) := r.target
  if r.method = "OPTIONS" then (t, .bare 200)
  else
    match Place.ofPath? path with
    | none => (t, .bare 404)
    | some place =>
      if r.method = place.method then answerAt t id r query place
      else if r.method = "HEAD" ∧ place.method = "GET" then
        let (t, response) := answerAt t id r query place
        (t, .bare response.status)
      else (t, .bare 405)

end CrewFlow.Service
