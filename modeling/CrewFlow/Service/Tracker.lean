import CrewFlow.Execution.Background
import CrewFlow.Run.Compiled
import CrewFlow.Service.Submission
/-!
# Tracker

The tracker records submissions, runs them in the background and answers for their status. Its time
only moves while somebody waits: a waiter looks every twenty milliseconds, and what the runs do between
two looks is seen by the second one.

A tracker may be replaced by a new one on the same store. The new one starts with an empty cache, and
runs that are already going go on with the old cache, which nobody reads any more.
-/
namespace CrewFlow.Service

open Agent (Call)
open Execution (Background Happening Ledger Record StatusReport StoreError Summary)
open Json (Value)
open Run (Report)
open Time (Instant)

/-- A submission that is run in the background. `isAttached` says that the cache of the tracker is
still its own. `report` is what its work comes to, once it is known. -/
structure Job where
  submission : Submission
  background : Background
  isAttached : Bool
  report : Option Report

/-- What a tracker holds: store and cache, its jobs in the order of submission, the time, how many
readings of the wall clock there were, and how many more connections to the store can be opened, if
there is a limit. -/
structure Tracker where
  ledger : Ledger
  jobs : List Job
  now : Nat
  readings : Nat
  connections : Option Nat

/-- How a submission is run: under which id the state of a flow is kept, and from when on. -/
abbrev Execute := Submission → String → Nat → Report

/-- The milliseconds between two looks of a waiter. -/
def pollInterval : Nat := 20

def refusal : StoreError := .invalid "connector refused"

def openConnection : Option Nat → Option (Option Nat)
  | none => some none
  | some 0 => none
  | some (n + 1) => some (some n)

namespace Tracker

/-- A tracker over an empty store. It needs a connection of its own. -/
def start (connections : Option Nat) : Except StoreError Tracker :=
  match openConnection connections with
  | some connections => .ok ⟨.empty, [], 0, 0, connections⟩
  | none => .error refusal

def restart (t : Tracker) : Except StoreError Tracker :=
  match openConnection t.connections with
  | some connections =>
    .ok { t with
      ledger := { t.ledger with cache := .empty }
      jobs := t.jobs.map fun j => { j with isAttached := false }
      connections }
  | none => .error refusal

/-- Reads the wall clock; every reading is later than the one before. -/
def tick (t : Tracker) : Instant × Tracker :=
  (.ofMillis (t.readings + 1), { t with readings := t.readings + 1 })

/-! ## Submitting and asking -/

def unnamed : String := "workflow"

/-- Records a submission under an id. Its run begins when somebody waits. -/
def submit (t : Tracker) (id : String) (s : Submission) : Except StoreError Tracker := do
  let (time, t) := t.tick
  let name := (Spec.peekName? s.document).getD unnamed
  let record := Record.pending id name s.effectiveWorkflowId time
  let ledger ← t.ledger.submit record
  return { t with ledger, jobs := t.jobs ++ [⟨s, .start record, true, none⟩] }

def status (t : Tracker) (id : String) : Tracker × StatusReport :=
  let (ledger, report) := t.ledger.status id
  ({ t with ledger }, report)

def forget (t : Tracker) (id : String) : Tracker := { t with ledger := t.ledger.forget id }

def list (t : Tracker) (workflowId : String) (limit : Nat) : Except StoreError (List Summary) :=
  t.ledger.list workflowId limit

/-! ## Waiting -/

/-- Lets a job take steps. Those of a job that is not attached leave the cache alone. -/
def advance (t : Tracker) (j : Job) (happenings : List Happening) : Tracker × Job :=
  let (time, t) := t.tick
  let (ledger, background) := j.background.steps t.ledger time happenings
  let ledger := if j.isAttached then ledger else { ledger with cache := t.ledger.cache }
  ({ t with ledger }, { j with background })

def flowId (runId : String) : String := "state of " ++ runId

def beginJob (execute : Execute) (t : Tracker) (j : Job) : Tracker × Job :=
  match openConnection t.connections with
  | some connections =>
    let (t, j) := { t with connections }.advance j [.connected, .persisted, .published]
    (t, { j with report := some (execute j.submission (flowId j.background.record.id) t.now) })
  | none => t.advance j [.refused refusal, .persisted, .published]

def finishJob (t : Tracker) (j : Job) (r : Report) : Tracker × Job :=
  let store := r.saved.foldl (fun s x => s.saveState x.flowId x.method x.state) t.ledger.store
  { t with ledger := { t.ledger with store } }.advance j [.finished r.result, .persisted, .published]

def moveJob (execute : Execute) (t : Tracker) (j : Job) (before : Nat) : Tracker × Job :=
  let (t, j) := if j.background.phase = .opening then beginJob execute t j else (t, j)
  match j.report with
  | some r =>
    -- What ends just when the waiter wakes is seen by its next look.
    if j.background.phase = .working && r.now < before then t.finishJob j r else (t, j)
  | none => (t, j)

def moveJobs (execute : Execute) (t : Tracker) (before : Nat) : List Job → Tracker × List Job
  | [] => (t, [])
  | j :: js =>
    let (t, j) := moveJob execute t j before
    let (t, js) := moveJobs execute t before js
    (t, j :: js)

def sleep (execute : Execute) (t : Tracker) : Tracker :=
  let wake := t.now + pollInterval
  let (t, jobs) := moveJobs execute t wake t.jobs
  { t with jobs, now := wake }

/-- Looks for the status of a run until it is over, or until a number of intervals has passed. -/
def poll (execute : Execute) (id : String) : Nat → Tracker → Tracker × StatusReport
  | 0, t => t.status id
  | n + 1, t =>
    let (t, report) := t.status id
    if report.status.isTerminal then (t, report) else poll execute id n (t.sleep execute)

def wait (execute : Execute) (t : Tracker) (id : String) (timeout : Nat) :
    Tracker × StatusReport :=
  poll execute id ((timeout + (pollInterval - 1)) / pollInterval) t

def calls (t : Tracker) : List Call :=
  t.jobs.flatMap fun j => (j.report.map (·.calls)).getD [] |>.filter fun c => c.time < t.now

end Tracker

end CrewFlow.Service
