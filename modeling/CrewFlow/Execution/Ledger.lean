import CrewFlow.Execution.Cache
import CrewFlow.Execution.Store
/-!
# Ledger of runs

The store and the cache that status queries and background runs share. Both change in small steps: a
checkpoint is written to the store first and then put into the cache; a query looks into the cache,
then reads the store, then fills the cache unless a checkpoint has come in the meantime. Steps of
different runs and queries may interleave.
-/
namespace CrewFlow.Execution

open Time (Instant)

/-- Store and cache. -/
structure Ledger where
  store : Store
  cache : Cache
  deriving Repr

namespace Ledger

def empty : Ledger := ⟨.empty, .empty⟩

/-! ## Checkpoints -/

/-- The first step of a checkpoint. A refusal of the store changes nothing. -/
def persist (l : Ledger) (r : Record) : Ledger :=
  match l.store.update r with
  | .ok store => { l with store }
  | .error _ => l

/-- The second step of a checkpoint. -/
def publish (l : Ledger) (r : Record) : Ledger := { l with cache := l.cache.put r }

def submit (l : Ledger) (r : Record) : Except StoreError Ledger :=
  (l.store.insert r).map fun store => ⟨store, l.cache.put r⟩

def forget (l : Ledger) (id : String) : Ledger := { l with cache := l.cache.remove id }

end Ledger

/-! ## Queries -/

/-- How far a status query has come: it has been asked, has missed the cache, has found a record in the
store, or has been told. -/
inductive Query where
  | asked (id : String)
  | missed (id : String)
  | found (record : Record)
  | told (report : StatusReport)
  deriving Repr

/-- The next step of a query. A store that cannot be read tells nothing. -/
def Query.step (l : Ledger) : Query → Ledger × Query
  | .asked id =>
    match l.cache.get? id with
    | some r => (l, .told r.report)
    | none => (l, .missed id)
  | .missed id =>
    match l.store.get id with
    | .ok (some r) => (l, .found r)
    | _ => (l, .told .unknown)
  -- A checkpoint that came after the reading is newer than `r` and has to stay.
  | .found r => ({ l with cache := l.cache.putIfAbsent r }, .told r.report)
  | .told report => (l, .told report)

/-- Takes the steps of a query that nothing comes between; three are enough. -/
def Query.finish (l : Ledger) (q : Query) : Nat → Ledger × Query
  | 0 => (l, q)
  | n + 1 =>
    let (l, q) := q.step l
    q.finish l n

namespace Ledger

def status (l : Ledger) (id : String) : Ledger × StatusReport :=
  match (Query.asked id).finish l 3 with
  | (l, .told report) => (l, report)
  | (l, _) => (l, .unknown)

def defaultLimit : Nat := 20

def maxLimit : Nat := 200

/-- The newest runs of a workflow: at least one row is asked for, at most `maxLimit` are given. -/
def list (l : Ledger) (workflowId : String) (limit : Nat) : Except StoreError (List Summary) :=
  (l.store.listByWorkflow workflowId (min (max limit 1) maxLimit)).map fun rs =>
    rs.map Record.summary

end Ledger

end CrewFlow.Execution
