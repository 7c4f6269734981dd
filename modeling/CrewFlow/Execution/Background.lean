import CrewFlow.Execution.Failure
import CrewFlow.Execution.Ledger
/-!
# Background runs

A run that was submitted opens its own connection to the store, writes a checkpoint when it begins and
one when it is over. Each of its steps is atomic; between them other runs and queries may come.
-/
namespace CrewFlow.Execution

open Json (Value)
open Time (Instant)

/-- Where a background run stands: it opens its connection, writes its record to the store, puts it
into the cache, works, or has ended. -/
inductive Phase where
  | opening
  | persisting
  | publishing
  | working
  | ended
  deriving DecidableEq, Repr

/-- A background run and its record. -/
structure Background where
  record : Record
  phase : Phase
  deriving Repr

/-- The next thing that happens to a background run. -/
inductive Happening where
  | connected
  | refused (cause : StoreError)
  | persisted
  | published
  | finished (outcome : Except BuildError Value)

namespace Background

def start (r : Record) : Background := ⟨r, .opening⟩

def refusalText (cause : StoreError) : String := "store error: " ++ cause.message

def failureText (e : BuildError) : String := e.kind ++ " error: " ++ e.message

def finishedRecord (r : Record) (outcome : Except BuildError Value) (now : Instant) : Record :=
  match outcome with
  | .ok v => r.transition .completed (some v) now
  | .error e => r.transition .failed (some (.str (failureText e))) now

def afterPublishing (r : Record) : Phase := if r.status.isTerminal then .ended else .working

/-- One step of a run; none when that cannot happen now. -/
def step (l : Ledger) (b : Background) (now : Instant) : Happening → Option (Ledger × Background)
  | .connected =>
    if b.phase = .opening then
      some (l, ⟨b.record.transition .running none now, .persisting⟩)
    else none
  | .refused cause =>
    if b.phase = .opening then
      some (l, ⟨b.record.transition .failed (some (.str (refusalText cause))) now, .persisting⟩)
    else none
  | .persisted =>
    if b.phase = .persisting then some (l.persist b.record, { b with phase := .publishing })
    else none
  | .published =>
    if b.phase = .publishing then
      some (l.publish b.record, { b with phase := afterPublishing b.record })
    else none
  | .finished outcome =>
    if b.phase = .working then
      some (l, ⟨finishedRecord b.record outcome now, .persisting⟩)
    else none

/-- Several steps with nothing between them; those that cannot happen are left out. -/
def steps (l : Ledger) (b : Background) (now : Instant) : List Happening → Ledger × Background
  | [] => (l, b)
  | h :: hs =>
    match b.step l now h with
    | some (l, b) => b.steps l now hs
    | none => b.steps l now hs

end Background

end CrewFlow.Execution
