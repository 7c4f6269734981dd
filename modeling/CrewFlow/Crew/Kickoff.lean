import CrewFlow.Crew.Basic
/-!
# Kickoffs

The run of a crew as a machine. Its main line takes up the tasks in crew order: an asynchronous task
becomes a job of its own, any other is worked on at once. Before a task is worked on, the outputs on
which it depends are gathered. Every move is small, and the machine does not say who moves next: the
clock that drives it does. Working on a task is left to the outside, which hands in the answer.
-/
namespace CrewFlow.Crew

open Text (Inputs)
open Memory (ShortTerm)

/-- A task that is being worked on: who does, and on which prompt. -/
structure Work where
  task : CrewTask
  agent : Agent
  description : String
  prompt : String

def Work.outcome (w : Work) (answer : Except String String) : Except ExecutionError TaskOutput :=
  match answer with
  | .ok raw => .ok ⟨w.task.name, w.description, w.task.expectedOutput, w.agent.role, raw⟩
  | .error message => .error (.task w.task.name message)

/-- Where a job stands: gathering the outputs of other jobs, being worked on, or over. -/
inductive JobPhase where
  | gathering (context : List TaskOutput) (awaited : List Nat)
  | working (work : Work)
  | finished (result : Except ExecutionError TaskOutput)

/-- An asynchronous task that has been handed out. `order` names its dependencies. -/
structure Job where
  task : CrewTask
  agent : Agent
  order : List String
  phase : JobPhase

/-- Where the main line stands: about to take up a task, gathering outputs for one, working on one,
waiting for the jobs that are left, or over. -/
inductive MainPhase where
  | taking (position : Nat)
  | gathering (position : Nat) (task : CrewTask) (agent : Agent) (context : List TaskOutput)
      (names : List String)
  | working (position : Nat) (work : Work)
  | closing (names : List String)
  | finished (result : Except ExecutionError CrewOutput)

/-- The run of a crew. `done` holds outputs by task name, `pending` the jobs whose output has not been
taken yet. -/
structure Kickoff where
  crew : Crew
  inputs : Inputs
  memory : Option ShortTerm
  done : List (String × TaskOutput)
  pending : List (String × Nat)
  jobs : List Job
  main : MainPhase

namespace Kickoff

def recallLimit : Nat := 3

def start (crew : Crew) (inputs : Inputs) : Kickoff :=
  ⟨crew, inputs, crew.embedder.map ShortTerm.empty, [], [], [], .taking 0⟩

/-- Writes an entry under a name, in place of an earlier one. -/
def setEntry {α : Type} (entries : List (String × α)) (name : String) (value : α) :
    List (String × α) :=
  if entries.any fun e => e.1 == name then
    entries.map fun e => if e.1 = name then (name, value) else e
  else entries ++ [(name, value)]

def phase? (k : Kickoff) (j : Nat) : Option JobPhase := (k.jobs[j]?).map (·.phase)

def jobResult? (k : Kickoff) (j : Nat) : Option (Except ExecutionError TaskOutput) :=
  match k.phase? j with
  | some (.finished result) => some result
  | _ => none

/-- What a task recalls. A memory that fails recalls nothing. -/
def recollect (k : Kickoff) (description : String) : List (String × String) :=
  match k.memory with
  | some m =>
    match m.search description recallLimit with
    | .ok found => found
    | .error _ => []
  | none => []

def work (k : Kickoff) (task : CrewTask) (agent : Agent) (context : List TaskOutput) : Work :=
  let description := task.describe k.inputs
  ⟨task, agent, description, task.prompt k.inputs context (k.recollect description)⟩

/-- Remembers what a task yielded. A memory that fails stays as it is. -/
def remember (k : Kickoff) (source raw : String) : Kickoff :=
  match k.memory with
  | some m =>
    match m.save source raw with
    | .ok m => { k with memory := some m }
    | .error _ => k
  | none => k

def rememberAnswer (k : Kickoff) (w : Work) (answer : Except String String) : Kickoff :=
  match answer with
  | .ok raw => k.remember w.task.name raw
  | .error _ => k

/-! ## The main line -/

/-- What the main line finds when it asks for the output of a task: one that it has, one that a
job has yielded, none at all, the failure of a job, or a job that is not over. -/
inductive Found where
  | output (o : TaskOutput)
  | yielded (o : TaskOutput)
  | nothing
  | failed (e : ExecutionError)
  | later (j : Nat)

/-- Looks for the output of a task: among those that are done, then among the pending jobs. A task of
another crew has none. -/
def find (k : Kickoff) (name : String) : Found :=
  match k.done.lookup name with
  | some o => .output o
  | none =>
    match k.pending.lookup name with
    | none => .nothing
    | some j =>
      match k.jobResult? j with
      | none => .later j
      | some (.ok o) => .yielded o
      | some (.error e) => .failed e

/-- Takes the output that a job has yielded: it is done from now on, and the job no longer pending. -/
def take (k : Kickoff) (name : String) (o : TaskOutput) : Kickoff :=
  { k with
    done := setEntry k.done name o
    pending := k.pending.filter fun p => p.1 ≠ name }

def fail (k : Kickoff) (e : ExecutionError) : Kickoff := { k with main := .finished (.error e) }

/-- The outputs that a job finds done when it is handed out, and the pending jobs that it waits for,
both in the order of its dependencies. -/
def handOut (k : Kickoff) (names : List String) : List TaskOutput × List Nat :=
  (names.filterMap fun n => k.done.lookup n, names.filterMap fun n => k.pending.lookup n)

def takeUp (k : Kickoff) (position : Nat) (task : CrewTask) : Kickoff :=
  match k.crew.agentFor task with
  | .error e => k.fail e
  | .ok agent =>
    let names := k.crew.dependencies position task
    -- A job gets outputs and pending jobs as they are now. The main line asks for one name after the
    -- other, and what it takes is no longer pending.
    if task.isAsync then
      let (context, awaited) := k.handOut names
      { k with
        jobs := k.jobs ++ [⟨task, agent, names, .gathering context awaited⟩]
        pending := setEntry k.pending task.name k.jobs.length
        main := .taking (position + 1) }
    else { k with main := .gathering position task agent [] names }

/-- The outputs of the crew's tasks that are done, in crew order. An output is given once. -/
def outputsOf (done : List (String × TaskOutput)) : List CrewTask → List TaskOutput
  | [] => []
  | t :: ts =>
    match done.lookup t.name with
    | some o => o :: outputsOf (done.filter fun e => e.1 ≠ t.name) ts
    | none => outputsOf done ts

def output (k : Kickoff) : CrewOutput := .ofTasks k.crew.name (outputsOf k.done k.crew.tasks)

def moveMain (k : Kickoff) : Option Kickoff :=
  match k.main with
  | .taking position =>
    match k.crew.tasks[position]? with
    | some task => some (k.takeUp position task)
    -- Nothing is left to take up; what is still pending is waited for in the order of handing out.
    | none => some { k with main := .closing (k.pending.map (·.1)) }
  | .gathering position task agent context [] =>
    some { k with main := .working position (k.work task agent context) }
  | .gathering position task agent context (name :: names) =>
    match k.find name with
    | .output o => some { k with main := .gathering position task agent (context ++ [o]) names }
    | .yielded o =>
      some { k.take name o with main := .gathering position task agent (context ++ [o]) names }
    | .nothing => some { k with main := .gathering position task agent context names }
    | .failed e => some (k.fail (k.crew.failed e.message))
    | .later _ => none
  | .closing [] => some { k with main := .finished (.ok k.output) }
  | .closing (name :: names) =>
    match k.find name with
    | .output _ => some { k with main := .closing names }
    | .yielded o => some { k.take name o with main := .closing names }
    | .nothing => some { k with main := .closing names }
    | .failed e => some (k.fail (k.crew.failed e.message))
    | .later _ => none
  | .working .. => none
  | .finished _ => none

/-- The job that has the output of a task, unless the output is done. -/
def jobFor? (k : Kickoff) (name : String) : Option Nat :=
  match k.done.lookup name with
  | some _ => none
  | none => k.pending.lookup name

def mainAwaits? (k : Kickoff) : Option Nat :=
  match k.main with
  | .gathering _ _ _ _ (name :: _) => k.jobFor? name
  | .closing (name :: _) => k.jobFor? name
  | _ => none

def mainWork? (k : Kickoff) : Option Work :=
  match k.main with
  | .working _ work => some work
  | _ => none

def answerMain (k : Kickoff) (answer : Except String String) : Kickoff :=
  match k.main with
  | .working position work =>
    let k := k.rememberAnswer work answer
    match work.outcome answer with
    | .ok o =>
      { k with done := setEntry k.done work.task.name o, main := .taking (position + 1) }
    | .error e => k.fail (k.crew.failed e.message)
  | _ => k

def openJobs (k : Kickoff) : List Nat :=
  (List.range k.jobs.length).filter fun j => (k.jobResult? j).isNone

def result? (k : Kickoff) : Option (Except ExecutionError CrewOutput) :=
  match k.main with
  | .finished result => some result
  | _ => none

/-! ## Jobs -/

def setPhase (k : Kickoff) (j : Nat) (phase : JobPhase) : Kickoff :=
  { k with jobs := k.jobs.modify j fun job => { job with phase } }

/-- Outputs in the order of the names of their tasks. -/
def arranged (order : List String) (context : List TaskOutput) : List TaskOutput :=
  let rank (o : TaskOutput) : Nat := order.idxOf o.name
  -- The sort is stable: outputs of one name stay in the order in which they came.
  context.mergeSort fun a b => rank a ≤ rank b

def moveJob (k : Kickoff) (j : Nat) : Option Kickoff :=
  match k.jobs[j]? with
  | some ⟨task, agent, order, .gathering context []⟩ =>
    some (k.setPhase j (.working (k.work task agent (arranged order context))))
  | some ⟨_, _, _, .gathering context (other :: awaited)⟩ =>
    match k.jobResult? other with
    | some (.ok o) => some (k.setPhase j (.gathering (context ++ [o]) awaited))
    -- The failure is handed on as it is: it names the task that failed, not the one that waits.
    | some (.error e) => some (k.setPhase j (.finished (.error e)))
    | none => none
  | _ => none

def jobAwaits? (k : Kickoff) (j : Nat) : Option Nat :=
  match k.phase? j with
  | some (.gathering _ (other :: _)) => some other
  | _ => none

def jobWork? (k : Kickoff) (j : Nat) : Option Work :=
  match k.phase? j with
  | some (.working work) => some work
  | _ => none

def answerJob (k : Kickoff) (j : Nat) (answer : Except String String) : Kickoff :=
  match k.jobWork? j with
  | some work => (k.rememberAnswer work answer).setPhase j (.finished (work.outcome answer))
  | none => k

end Kickoff

end CrewFlow.Crew
