import Mathlib
import CrewFlow.Execution.Background
import CrewFlow.Proofs.Service.Work
/-!
# Courses of runs

What is written for one run, step by step: it is pending, then running, and in the end completed or failed
with what its submission comes to by itself; or it fails at once, because there is no connection to the store.
-/
set_option autoImplicit false

namespace CrewFlow.Service

open Build (Collaborators)
open Execution (Background Happening Ledger Record Store StoreError)
open Json (Value)
open Time (Instant)

/-! ## Writes -/

/-- A durable write of a record. -/
inductive Write where
  | insert (record : Record)
  | update (record : Record)

namespace Write

def record : Write → Record
  | .insert r => r
  | .update r => r

def runId (w : Write) : String := w.record.id

/-- What a write does to a store. -/
def apply (s : Store) : Write → Except StoreError Store
  | .insert r => s.insert r
  | .update r => s.update r

end Write

/-- The store after some writes, if none of them fails. -/
def replay (writes : List Write) : Except StoreError Store := writes.foldlM Write.apply .empty

/-- The writes that are about a run. -/
def writesOf (id : String) (log : List Write) : List Write := log.filter fun w => w.runId = id

/-- What a step of a run writes. -/
def written (b : Background) : Happening → List Write
  | .persisted => [.update b.record]
  | _ => []

/-! ## Records -/

/-- A record has a result, and a time at which it finished, exactly when its run is over. -/
def Consistent (r : Record) : Prop :=
  r.result.isSome = r.status.isTerminal ∧ r.finishedAt.isSome = r.status.isTerminal

theorem consistent_running {r : Record} (fresh : r.result = none ∧ r.finishedAt = none) (time : Instant) :
    Consistent (r.transition .running none time) := by
  obtain ⟨noResult, unfinished⟩ := fresh
  simp [Consistent, Record.transition, Execution.Status.isTerminal, noResult, unfinished]

theorem consistent_terminal (r : Record) {status : Execution.Status} (terminal : status.isTerminal = true)
    (v : Value) (time : Instant) : Consistent (r.transition status (some v) time) := by
  simp [Consistent, Record.transition, terminal]

theorem status_transition (r : Record) (status : Execution.Status) (result : Option Value)
    (time : Instant) : (r.transition status result time).status = status := by
  unfold Record.transition
  split <;> rfl

theorem isTerminal_finishedRecord (r : Record) (outcome : Except BuildError Value) (time : Instant) :
    (Background.finishedRecord r outcome time).status.isTerminal = true := by
  cases outcome <;> rw [Background.finishedRecord, status_transition] <;> rfl

/-! ## Steps of a run -/

def begun (p : Record) (time : Instant) : Record := p.transition .running none time

def cutOff (p : Record) (cause : StoreError) (time : Instant) : Record :=
  p.transition .failed (some (.str (Background.refusalText cause))) time

/-- What a step of a run does, and when it can be taken. -/
inductive Took (l : Ledger) (b : Background) (time : Instant) :
    Happening → Ledger → Background → Prop where
  | connected (phase : b.phase = .opening) :
      Took l b time .connected l ⟨begun b.record time, .persisting⟩
  | refused {cause : StoreError} (phase : b.phase = .opening) :
      Took l b time (.refused cause) l ⟨cutOff b.record cause time, .persisting⟩
  | persisted (phase : b.phase = .persisting) :
      Took l b time .persisted (l.persist b.record) { b with phase := .publishing }
  | published (phase : b.phase = .publishing) :
      Took l b time .published (l.publish b.record)
        { b with phase := Background.afterPublishing b.record }
  | finished {result : Except BuildError Value} (phase : b.phase = .working) :
      Took l b time (.finished result) l
        ⟨Background.finishedRecord b.record result time, .persisting⟩

theorem took_of_step {l ledger : Ledger} {b after : Background} {time : Instant} {happening : Happening}
    (step : b.step l time happening = some (ledger, after)) : Took l b time happening ledger after := by
  cases happening with
  | connected =>
      obtain ⟨phase, same⟩ := Option.ite_none_right_eq_some.mp step
      cases same
      exact .connected phase
  | refused cause =>
      obtain ⟨phase, same⟩ := Option.ite_none_right_eq_some.mp step
      cases same
      exact .refused phase
  | persisted =>
      obtain ⟨phase, same⟩ := Option.ite_none_right_eq_some.mp step
      cases same
      exact .persisted phase
  | published =>
      obtain ⟨phase, same⟩ := Option.ite_none_right_eq_some.mp step
      cases same
      exact .published phase
  | finished result =>
      obtain ⟨phase, same⟩ := Option.ite_none_right_eq_some.mp step
      cases same
      exact .finished phase

/-! ## Courses -/

/-- The first record of a submission under an id. -/
def Submission.pending (s : Submission) (id : String) (time : Instant) : Record :=
  .pending id ((Spec.peekName? s.document).getD Tracker.unnamed) s.effectiveWorkflowId time

section Courses
variable (c : Collaborators Id) (s : Submission) (flowId : String) (p : Record)

/-- All that is ever written for a run whose first record is `p`. -/
inductive WholeCourse : List Write → Prop where
  | carriedOut (first last : Instant) :
      WholeCourse [.insert p, .update (begun p first),
        .update (Background.finishedRecord (begun p first) (s.outcome c flowId) last)]
  | unconnected (cause : StoreError) (time : Instant) :
      WholeCourse [.insert p, .update (cutOff p cause time)]

/-- How far a run has come on its course: what has been written for it, and where it stands. -/
inductive Course : List Write → Background → Work → Prop where
  | submitted : Course [.insert p] ⟨p, .opening⟩ .waiting
  | connected (time : Instant) : Course [.insert p] ⟨begun p time, .persisting⟩ .waiting
  | announced (time : Instant) :
      Course [.insert p, .update (begun p time)] ⟨begun p time, .publishing⟩ .waiting
  | working (time : Instant) {work : Work} (faithful : Faithful c s flowId work) :
      Course [.insert p, .update (begun p time)] ⟨begun p time, .working⟩ work
  | finished (first last : Instant) {work : Work} :
      Course [.insert p, .update (begun p first)]
        ⟨Background.finishedRecord (begun p first) (s.outcome c flowId) last, .persisting⟩ work
  | refused (cause : StoreError) (time : Instant) :
      Course [.insert p] ⟨cutOff p cause time, .persisting⟩ .waiting
  | settled {writes : List Write} {last : Record} {work : Work} (whole : WholeCourse c s flowId p writes)
      (written : writes.getLast? = some (.update last)) : Course writes ⟨last, .publishing⟩ work
  | ended {writes : List Write} {last : Record} {work : Work} (whole : WholeCourse c s flowId p writes)
      (written : writes.getLast? = some (.update last)) : Course writes ⟨last, .ended⟩ work

end Courses

section Steps
variable {c : Collaborators Id} {s : Submission} {flowId : String} {p : Record}

theorem isTerminal_of_whole {writes : List Write} (whole : WholeCourse c s flowId p writes) {last : Record}
    (written : writes.getLast? = some (.update last)) : last.status.isTerminal = true := by
  cases whole with
  | carriedOut first time =>
      simp only [List.getLast?_cons_cons, List.getLast?_singleton, Option.some.injEq, Write.update.injEq]
        at written
      rw [← written]
      exact isTerminal_finishedRecord _ _ _
  | unconnected cause time =>
      simp only [List.getLast?_cons_cons, List.getLast?_singleton, Option.some.injEq, Write.update.injEq]
        at written
      rw [← written, cutOff, status_transition]
      rfl

/-- A step of a run takes it on along its course. -/
theorem Course.step {writes : List Write} {b after : Background} {work : Work}
    (course : Course c s flowId p writes b work) {l ledger : Ledger} {time : Instant}
    {happening : Happening} (own : ∀ result, happening = .finished result → work = .done result)
    (step : b.step l time happening = some (ledger, after)) :
    Course c s flowId p (writes ++ written b happening) after work := by
  cases took_of_step step with
  | connected phase =>
      cases course with
      | submitted => exact .connected time
      | _ => cases phase
  | @refused cause phase =>
      cases course with
      | submitted => exact .refused cause time
      | _ => cases phase
  | persisted phase =>
      cases course with
      | connected first => exact .announced first
      | finished first last => exact .settled (.carriedOut first last) rfl
      | refused cause last => exact .settled (.unconnected cause last) rfl
      | _ => cases phase
  | published phase =>
      simp only [written, List.append_nil]
      cases course with
      | announced first =>
          have goesOn : Background.afterPublishing (begun p first) = .working := by
            rw [Background.afterPublishing, begun, status_transition]
            rfl
          rw [goesOn]
          exact .working first .waiting
      | settled whole last =>
          rw [Background.afterPublishing, if_pos (isTerminal_of_whole whole last)]
          exact .ended whole last
      | _ => cases phase
  | @finished result phase =>
      cases course with
      | working first faithful =>
          cases own result rfl
          cases faithful with
          | done => exact .finished first time
      | _ => cases phase

theorem Course.progress {writes : List Write} {b : Background} {work next : Work}
    (course : Course c s flowId p writes b work) (busy : b.phase = .working) {store after : Store}
    (progress : Progress c s flowId store work after next) : Course c s flowId p writes b next := by
  cases course with
  | working first faithful => exact .working first (faithful.progress progress)
  | _ => cases busy

/-- What has been written for a run is the beginning of a whole course. -/
theorem Course.exists_whole {writes : List Write} {b : Background} {work : Work}
    (course : Course c s flowId p writes b work) :
    ∃ whole, WholeCourse c s flowId p whole ∧ writes <+: whole := by
  cases course with
  | submitted => exact ⟨_, .carriedOut p.createdAt p.createdAt, by simp⟩
  | connected first => exact ⟨_, .carriedOut first first, by simp⟩
  | announced first => exact ⟨_, .carriedOut first first, by simp⟩
  | working first faithful => exact ⟨_, .carriedOut first first, by simp⟩
  | finished first last => exact ⟨_, .carriedOut first last, by simp⟩
  | refused cause last => exact ⟨_, .unconnected cause last, by simp⟩
  | settled whole last => exact ⟨_, whole, List.prefix_refl _⟩
  | ended whole last => exact ⟨_, whole, List.prefix_refl _⟩

theorem Course.whole_of_ended {writes : List Write} {b : Background} {work : Work}
    (course : Course c s flowId p writes b work) (ended : b.phase = .ended) :
    WholeCourse c s flowId p writes := by
  cases course with
  | ended whole last => exact whole
  | _ => cases ended

theorem Course.last_of_ended {writes : List Write} {b : Background} {work : Work}
    (course : Course c s flowId p writes b work) (ended : b.phase = .ended) :
    writes.getLast? = some (.update b.record) := by
  cases course with
  | ended whole last => exact last
  | _ => cases ended

theorem consistent_of_mem_whole (fresh : p.status = .pending ∧ p.result = none ∧ p.finishedAt = none)
    {writes : List Write} (whole : WholeCourse c s flowId p writes) :
    ∀ w ∈ writes, Consistent w.record := by
  obtain ⟨pending, noResult, unfinished⟩ := fresh
  have first : Consistent p := by
    rw [Consistent, pending, noResult, unfinished]
    exact ⟨rfl, rfl⟩
  cases whole with
  | carriedOut time last =>
      have second : Consistent (begun p time) := consistent_running ⟨noResult, unfinished⟩ time
      have third : ∀ result, Consistent (Background.finishedRecord (begun p time) result last) := by
        intro result
        cases result with
        | ok v => exact consistent_terminal _ rfl v last
        | error e => exact consistent_terminal _ rfl _ last
      simp [Write.record, first, second, third]
  | unconnected cause time =>
      have second : Consistent (cutOff p cause time) := consistent_terminal p rfl _ time
      simp [Write.record, first, second]

end Steps

end CrewFlow.Service
