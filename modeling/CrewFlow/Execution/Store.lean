import CrewFlow.Execution.Record
import CrewFlow.Json.Parser
/-!
# Execution store

The durable side of runs: a table of records and the snapshots of flow states. A record is written
once and then only its status, result and later times change. Listings go from the newest record to
the oldest. Results and states are kept as texts, so what is read back is what the text says.
-/
namespace CrewFlow.Execution

open Json (Value)
open Time (Instant)

/-- Why the store refuses. -/
inductive StoreError where
  | database
  | serialization
  | invalid (what : String)
  deriving DecidableEq, Repr

def StoreError.message : StoreError → String
  | .database => "database error"
  | .serialization => "serialization error"
  | .invalid what => "stored record is invalid: " ++ what

/-- A saved state of a flow. -/
structure Snapshot where
  flowId : String
  method : String
  state : Value
  deriving Repr

def latestState? (snapshots : List Snapshot) (flowId : String) : Option Value :=
  (snapshots.reverse.find? fun x => x.flowId == flowId).map (·.state)

/-- Records and snapshots, each in the order in which they were first written. -/
structure Store where
  records : List Record
  snapshots : List Snapshot
  deriving Repr

namespace Store

def empty : Store := ⟨[], []⟩

def record? (s : Store) (id : String) : Option Record := s.records.find? fun r => r.id == id

/-- Adds a record. An id is used once. -/
def insert (s : Store) (r : Record) : Except StoreError Store :=
  if (s.record? r.id).isSome then .error .database
  else .ok { s with records := s.records ++ [r] }

/-- A record with what may change taken from another. -/
def amended (old new : Record) : Record :=
  { old with
    status := new.status
    result := new.result
    updatedAt := new.updatedAt
    finishedAt := new.finishedAt }

def update (s : Store) (r : Record) : Except StoreError Store :=
  if (s.record? r.id).isSome then
    .ok { s with records := s.records.map fun old => if old.id = r.id then amended old r else old }
  else .error (.invalid ("no execution '" ++ r.id ++ "'"))

/-- A time that can be read back: one with a year of four digits. -/
def readTime (t : Instant) : Except StoreError Unit :=
  if t.hasPlainYear then .ok ()
  else .error (.invalid ("bad timestamp '" ++ t.text ++ "': input contains invalid characters"))

def readValue (v : Value) : Except StoreError Value :=
  match Json.parse? v.text with
  | some v => .ok v
  | none => .error .serialization

def read (r : Record) : Except StoreError Record := do
  let result ← r.result.mapM readValue
  readTime r.createdAt
  readTime r.updatedAt
  r.finishedAt.forM readTime
  return { r with result }

def get (s : Store) (id : String) : Except StoreError (Option Record) :=
  match s.record? id with
  | some r => (read r).map some
  | none => .ok none

/-- The records of a workflow, the newest first; of records of one time, the latest written first. -/
def newestFirst (s : Store) (workflowId : String) : List Record :=
  -- Times are compared as the texts that the store holds.
  (s.records.filter fun r => r.workflowId == some workflowId).reverse.mergeSort fun a b =>
    !(a.createdAt.text < b.createdAt.text)

def listByWorkflow (s : Store) (workflowId : String) (limit : Nat) :
    Except StoreError (List Record) :=
  ((s.newestFirst workflowId).take limit).mapM read

def saveState (s : Store) (flowId method : String) (state : Value) : Store :=
  { s with snapshots := s.snapshots ++ [⟨flowId, method, state⟩] }

def loadState (s : Store) (flowId : String) : Except StoreError (Option Value) :=
  (latestState? s.snapshots flowId).mapM readValue

end Store

end CrewFlow.Execution
