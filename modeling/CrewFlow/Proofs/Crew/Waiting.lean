import Mathlib
import CrewFlow.Proofs.Crew.Places
import CrewFlow.Proofs.Crew.Timing
/-!
# Waiting

A task waits for tasks placed before it only: a job for jobs that were handed out before it, the main line for
jobs that it has handed out. So no task waits for itself, be it through others, and as long as a kickoff is not
over somebody can move or is being worked on. A kickoff ends when every work does.
-/
set_option autoImplicit false

namespace CrewFlow.Crew

open Relation (TransGen)
open Text (Inputs)

namespace Kickoff

/-! ## Whom a task waits for -/

section WaitsFor
variable (k : Kickoff)

/-- The place of the task to which the main line has come. -/
def place? : Option Nat :=
  match k.main with
  | .taking p => some p
  | .gathering p .. => some p
  | .working p _ => some p
  | .closing _ => none
  | .finished _ => none

/-- The task of a job stands at a place of the crew. -/
def StandsAt (j p : Nat) : Prop :=
  ∃ job, k.jobs[j]? = some job ∧ (apart k.crew)[j]? = some (job.task, p)

/-- The task at a place waits for the one at another: its job still has to gather the output of the other's job, or
the main line has to for it, or the main line has come to the other and not yet to it. -/
inductive WaitsFor (p q : Nat) : Prop where
  | job {i j : Nat} {context : List TaskOutput} {awaited : List Nat} (here : StandsAt k j p)
      (phase : k.phase? j = some (.gathering context awaited)) (listed : i ∈ awaited) (there : StandsAt k i q)
  | main {i : Nat} {t : CrewTask} {agent : Agent} {context : List TaskOutput} {names : List String} {name : String}
      (main : k.main = .gathering p t agent context names) (listed : name ∈ names)
      (awaited : k.jobFor? name = some i) (there : StandsAt k i q)
  | turn (main : k.place? = some q) (later : q < p)

end WaitsFor

section Order
variable {k : Kickoff} {p q : Nat}

theorem Linked.lt_of_waitsFor (linked : Linked k) (placed : Placed k) (waits : WaitsFor k p q) : q < p := by
  cases waits with
  | @job i j context awaited here phase listed there =>
      obtain ⟨job, standing, later⟩ := here
      obtain ⟨other, _, earlier⟩ := there
      have gathering : job.phase = .gathering context awaited := by
        rw [phase?, standing] at phase
        exact Option.some.inj phase
      exact place_lt_place (linked.jobs _ job standing _ _ gathering _ listed) earlier later
  | main main listed awaited there =>
      obtain ⟨other, standing, earlier⟩ := there
      unfold Placed at placed
      rw [main] at placed
      cases placed with
      | gathering jobs task inLine =>
          obtain ⟨place, before, here, _⟩ := jobs.place standing
          cases here.symm.trans earlier
          exact before
  | turn main later => exact later

/-- Neither directly nor through others does a task wait for one that does not stand before it. -/
theorem Linked.lt_of_transGen (linked : Linked k) (placed : Placed k) (waits : TransGen (WaitsFor k) p q) :
    q < p := by
  induction waits with
  | single direct => exact linked.lt_of_waitsFor placed direct
  | tail _ direct ih => exact (linked.lt_of_waitsFor placed direct).trans ih

theorem Placed.standsAt (placed : Placed k) {j : Nat} {job : Job} (standing : k.jobs[j]? = some job) :
    ∃ p, StandsAt k j p ∧ k.crew.tasks[p]? = some job.task := by
  obtain ⟨_, jobs⟩ := PlacedBy.handedOut placed
  obtain ⟨p, _, here, _⟩ := jobs.place standing
  exact ⟨p, ⟨job, standing, here⟩, (task_of_apart here).1⟩

end Order

/-! ## Somebody can go on -/

section Free
variable (k : Kickoff)

def Free : Prop := (∃ who next, k.moveBy who = some next) ∨ ∃ who w, k.workBy? who = some w

variable {k}

theorem Linked.free_of_job (linked : Linked k) (j : Nat) (below : j < k.jobs.length)
    (unfinished : k.jobResult? j = none) : Free k := by
  -- Jobs wait for jobs before them, so this goes back to one that waits for none.
  induction j using Nat.strong_induction_on with
  | _ j earlier =>
      cases moved : k.moveJob j with
      | some next => exact .inl ⟨.job 0 j, next, moved⟩
      | none =>
          have standing : k.jobs[j]? = some k.jobs[j] := List.getElem?_eq_getElem below
          rcases moveJob_eq_none standing moved with
            ⟨w, working⟩ | ⟨context, other, awaited, phase, going⟩ | ⟨result, finished⟩
          · exact .inr ⟨.job 0 j, w, working⟩
          · have before := linked.jobs j _ standing context _ phase other List.mem_cons_self
            exact earlier other before (before.trans below) going
          · cases unfinished.symm.trans finished

theorem Linked.free (linked : Linked k) (unfinished : k.result? = none) : Free k := by
  cases moved : k.moveMain with
  | some next => exact .inl ⟨.main 0, next, moved⟩
  | none =>
      rcases moveMain_eq_none moved with ⟨w, working⟩ | ⟨name, j, _, waiting, going⟩ | ⟨result, main⟩
      · exact .inr ⟨.main 0, w, working⟩
      · exact linked.free_of_job j (linked.pending name j waiting) going
      · simp [result?, main] at unfinished

theorem Free.exists_move (free : Free k) : ∃ reply next, Move k reply next := by
  rcases free with ⟨who, next, moved⟩ | ⟨who, w, working⟩
  · exact ⟨none, next, .moved moved⟩
  · exact ⟨_, _, .answered (.ok "") working⟩

end Free

/-! ## Kickoffs over time -/

/-- A kickoff over time: from one moment to the next it stands still, or there is a move or an answer. -/
structure Lifetime (crew : Crew) (inputs : Inputs) where
  state : Nat → Kickoff
  first : state 0 = start crew inputs
  step : ∀ n, state (n + 1) = state n ∨ ∃ reply, Move (state n) reply (state (n + 1))

namespace Lifetime
section Lives
variable {crew : Crew} {inputs : Inputs} (life : Lifetime crew inputs)

/-- A kickoff does not stand still forever while somebody can move by itself. -/
def Lively : Prop :=
  ∀ n who next, (life.state n).moveBy who = some next → ∃ m ≥ n, life.state (m + 1) ≠ life.state m

/-- No work goes on forever. -/
def Answering : Prop := ∀ n who w, (life.state n).workBy? who = some w → ∃ m ≥ n, (life.state m).workBy? who ≠ some w

theorem course (n : Nat) : ∃ replies, Course (start crew inputs) replies (life.state n) := by
  induction n with
  | zero => exact ⟨[], life.first ▸ .here⟩
  | succ n ih =>
      obtain ⟨replies, course⟩ := ih
      rcases life.step n with still | ⟨reply, move⟩
      · exact ⟨replies, still ▸ course⟩
      · exact ⟨_, .further course move⟩

theorem exists_still : ∃ n, ∀ m ≥ n, life.state m = life.state n := by
  -- Every move makes it lighter, so it stands still where it is lightest.
  obtain ⟨lightest, ⟨n, rfl⟩, least⟩ :=
    WellFounded.has_min Nat.lt_wfRel.wf (Set.range fun n => (life.state n).weight) ⟨_, 0, rfl⟩
  refine ⟨n, fun m later => ?_⟩
  induction m, later using Nat.le_induction with
  | base => rfl
  | succ m later ih =>
      rcases life.step m with still | ⟨reply, move⟩
      · exact still.trans ih
      · have lighter := move.weight_lt
        rw [ih] at lighter
        exact absurd lighter (least _ ⟨m + 1, rfl⟩)

variable {life}

theorem exists_result (lively : life.Lively) (answering : life.Answering) :
    ∃ n result, (life.state n).result? = some result := by
  obtain ⟨n, still⟩ := life.exists_still
  refine ⟨n, Option.isSome_iff_exists.mp (Option.isSome_iff_ne_none.mpr fun unfinished => ?_)⟩
  obtain ⟨replies, course⟩ := life.course n
  rcases (linked_of_course course).free unfinished with ⟨who, next, moved⟩ | ⟨who, w, working⟩
  · obtain ⟨m, later, changed⟩ := lively n who next moved
    exact changed ((still (m + 1) (later.trans m.le_succ)).trans (still m later).symm)
  · obtain ⟨m, later, ended⟩ := answering n who w working
    exact ended (still m later ▸ working)

end Lives

/-! ## Lives that come to their end -/

open Classical in
noncomputable def onward (k : Kickoff) : Kickoff :=
  if movable : ∃ reply next, Move k reply next then movable.choose_spec.choose else k

theorem onward_cases (k : Kickoff) :
    (∃ reply, Move k reply (onward k)) ∨ (onward k = k ∧ ∀ reply next, ¬Move k reply next) := by
  unfold onward
  split
  · next movable => exact .inl ⟨_, movable.choose_spec.choose_spec⟩
  · next stuck => exact .inr ⟨rfl, fun reply next move => stuck ⟨reply, next, move⟩⟩

/-- Every kickoff has a life in which it is not held up. -/
theorem exists_lively (crew : Crew) (inputs : Inputs) :
    ∃ life : Lifetime crew inputs, life.Lively ∧ life.Answering := by
  let life : Lifetime crew inputs :=
    { state := fun n => onward^[n] (start crew inputs)
      first := rfl
      step := fun n => by
        rw [Function.iterate_succ_apply']
        exact (onward_cases _).symm.imp_left And.left }
  have goesOn : ∀ n, life.state (n + 1) = onward (life.state n) := fun n => Function.iterate_succ_apply' ..
  refine ⟨life, fun n who next moved => ?_, fun n who w working => ?_⟩
  · refine ⟨n, le_rfl, fun still => ?_⟩
    rw [goesOn] at still
    rcases onward_cases (life.state n) with ⟨reply, move⟩ | ⟨_, stuck⟩
    · exact absurd (still ▸ move.weight_lt) (lt_irrefl _)
    · exact stuck _ _ (.moved moved)
  · obtain ⟨m, still⟩ := life.exists_still
    refine ⟨max n m, le_max_left n m, fun goes => ?_⟩
    have last : onward (life.state (max n m)) = life.state (max n m) := by
      rw [← goesOn, still _ (le_max_right n m), still _ ((le_max_right n m).trans (Nat.le_succ _))]
    rcases onward_cases (life.state (max n m)) with ⟨reply, move⟩ | ⟨_, stuck⟩
    · exact absurd (last ▸ move.weight_lt) (lt_irrefl _)
    · exact stuck _ _ (.answered (.ok "") goes)

end Lifetime

/-! ## No deadlock -/

/-- At no moment does a task wait, directly or through others, for one that does not stand before it. Unless it is
held up, and when all work comes to its end, the kickoff does. -/
theorem never_deadlocked {crew : Crew} {inputs : Inputs} (life : Lifetime crew inputs) :
    (∀ n, (∀ j job, (life.state n).jobs[j]? = some job →
        ∃ p, StandsAt (life.state n) j p ∧ crew.tasks[p]? = some job.task) ∧
      ∀ p q, TransGen (WaitsFor (life.state n)) p q → q < p) ∧
    (life.Lively → life.Answering → ∃ n result, (life.state n).result? = some result) := by
  refine ⟨fun n => ?_, Lifetime.exists_result⟩
  obtain ⟨replies, course⟩ := life.course n
  have placed := placed_of_course course
  refine ⟨fun j job standing => ?_, fun p q waits => (linked_of_course course).lt_of_transGen placed waits⟩
  obtain ⟨p, here, task⟩ := placed.standsAt standing
  exact ⟨p, here, crew_of_course course ▸ task⟩

/-- Two tasks that run beside the others and name each other, one that names itself and a stranger, and one of a
name that is taken. -/
def circle : Crew :=
  let task (name : String) (context : List String) (isAsync : Bool) : CrewTask :=
    ⟨name, "Write", "Text", none, [], context, none, isAsync⟩
  { name := "circle", agents := [writer], process := .sequential, manager := none, embedder := none
    tasks := [task "a" ["b"] true, task "b" ["a"] true, task "c" ["c", "b", "x"] false, task "a" ["a"] true] }

theorem circle_ends :
    ∃ life : Lifetime circle [], life.Lively ∧ life.Answering ∧ ∃ n result, (life.state n).result? = some result := by
  obtain ⟨life, lively, answering⟩ := Lifetime.exists_lively circle []
  exact ⟨life, lively, answering, (never_deadlocked life).2 lively answering⟩

end Kickoff

end CrewFlow.Crew
