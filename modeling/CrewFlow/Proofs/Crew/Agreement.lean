import Mathlib
import CrewFlow.Proofs.Crew.InOrder
/-!
# Agreement of a kickoff with the evaluation in order

At any time of a kickoff the outputs that are done, the jobs that are pending and what the main line has
gathered agree with the evaluation in order, as far as that comes: up to the first task that fails. This
holds at the start, every move keeps it, and at the end it gives the outcome.
-/
set_option autoImplicit false

namespace CrewFlow.Crew

open Text (Inputs)
open Kickoff (Settled Step Change setEntry)

/-- An output of the task at a position is that of the evaluation in order. The first task that fails has
none. -/
def Right (outs : List TaskOutput) (i : Nat) (o : TaskOutput) : Prop :=
  i ≠ outs.length ∧ ∀ plain, outs[i]? = some plain → o = plain

/-- An outcome of the task at a position: a right output, or an error if the evaluation in order fails
there or before. -/
def Yields (outs : List TaskOutput) (i : Nat) : Except ExecutionError TaskOutput → Prop
  | .ok o => Right outs i o
  | .error _ => outs.length ≤ i

/-- A run ends with the outputs of the evaluation in order if that comes to the last task, else with an
error. -/
def Good (crew : Crew) (outs : List TaskOutput) (result : Except ExecutionError CrewOutput) : Prop :=
  result.toOption =
    if outs.length = crew.tasks.length then some (.ofTasks crew.name outs) else none

section Definitions
variable (crew : Crew) (inputs : Inputs) (outs : List TaskOutput)

def Promises (handed : List CrewTask) (j : Nat) (o : TaskOutput) : Prop :=
  ∃ (i : Nat) (t : CrewTask), handed[j]? = some t ∧ crew.tasks[i]? = some t ∧ outs[i]? = some o

/-- The job with a number, for the task at a position, stands where the evaluation in order has it stand:
what it has gathered is, with what it waits for, what its task gets. -/
inductive JobRight (handed : List CrewTask) (i j : Nat) (t : CrewTask) (agent : Agent) :
    JobPhase → Prop where
  | gathering {context : List TaskOutput} {awaited : List Nat} (apart : t.isAsync = true)
      (linked : ∀ other ∈ awaited, other < j)
      (right : i ≤ outs.length → ∃ rest, List.Forall₂ (Promises crew outs handed) awaited rest ∧
        (context ++ rest).Perm ((crew.dependencies i t).filterMap (among outs i))) :
      JobRight handed i j t agent (.gathering context awaited)
  | working {w : Work} (right : i ≤ outs.length → w = givenWork crew inputs i t agent (outs.take i)) :
      JobRight handed i j t agent (.working w)
  | finished {result : Except ExecutionError TaskOutput} (right : Yields outs i result) :
      JobRight handed i j t agent (.finished result)

/-- Of the first tasks each one is done or pending. What is done is right, and so are the jobs. -/
structure Kept (k : Kickoff) (taken : Nat) : Prop where
  done : ∀ name o, k.done.lookup name = some o →
    ∃ i t, i < taken ∧ crew.tasks[i]? = some t ∧ t.name = name ∧ Right outs i o
  pending : ∀ name j, k.pending.lookup name = some j →
    ∃ i job, i < taken ∧ crew.tasks[i]? = some job.task ∧ job.task.name = name ∧
      k.jobs[j]? = some job
  apart : ∀ name o, k.done.lookup name = some o → k.pending.lookup name = none
  covered : ∀ i t, i < taken → crew.tasks[i]? = some t → k.done.lookup t.name = none →
    ∃ j, k.pending.lookup t.name = some j
  jobs : ∀ j job, k.jobs[j]? = some job →
    ∃ i, i < taken ∧ crew.tasks[i]? = some job.task ∧ crew.agentFor job.task = .ok job.agent ∧
      job.order = crew.dependencies i job.task ∧
      JobRight crew inputs outs (k.jobs.map (·.task)) i j job.task job.agent job.phase

/-- The main line has taken up the first tasks, and stands where the evaluation in order has it stand. -/
inductive MainRight (pending : List (String × Nat)) : Nat → MainPhase → Prop where
  | taking {p : Nat} (fits : p ≤ crew.tasks.length) : MainRight pending p (.taking p)
  | gathering {p : Nat} {t : CrewTask} {agent : Agent} {context : List TaskOutput}
      {names : List String} (task : crew.tasks[p]? = some t) (owner : crew.agentFor t = .ok agent)
      (inLine : t.isAsync = false)
      (right : p ≤ outs.length → context ++ names.filterMap (among outs p) =
        (crew.dependencies p t).filterMap (among outs p)) :
      MainRight pending p (.gathering p t agent context names)
  | working {p : Nat} {w : Work} (task : crew.tasks[p]? = some w.task)
      (owner : crew.agentFor w.task = .ok w.agent)
      (right : p ≤ outs.length → w = givenWork crew inputs p w.task w.agent (outs.take p)) :
      MainRight pending p (.working p w)
  | closing {names : List String} (left : ∀ name j, pending.lookup name = some j → name ∈ names) :
      MainRight pending crew.tasks.length (.closing names)

/-- The run of a crew without memory that is not over agrees with the evaluation in order. -/
structure Agrees (k : Kickoff) : Prop where
  ofCrew : k.crew = crew
  onInputs : k.inputs = inputs
  forgetful : k.memory = none
  kept : ∃ taken, Kept crew inputs outs k taken ∧ MainRight crew inputs outs k.pending taken k.main

end Definitions

variable {crew : Crew} {inputs : Inputs} {ask : Answers} {outs : List TaskOutput}

/-! ## Single facts -/

theorem good_error (short : outs.length < crew.tasks.length) (e : ExecutionError) :
    Good crew outs (.error e) := by
  rw [Good, if_neg short.ne]
  rfl

theorem Yield.yields_of_work (yield : Yield crew inputs ask outs) {i : Nat} {w : Work}
    {t : CrewTask} {agent : Agent} (task : crew.tasks[i]? = some t)
    (owner : crew.agentFor t = .ok agent)
    (same : i ≤ outs.length → w = givenWork crew inputs i t agent (outs.take i)) :
    Yields outs i (w.outcome (w.answer ask)) := by
  have output : i ≤ outs.length →
      givenOutput crew inputs ask i t (outs.take i) = w.outcome (w.answer ask) := by
    intro fits
    rw [same fits, givenOutput, owner]
    rfl
  rcases Nat.lt_trichotomy i outs.length with less | equal | greater
  · obtain ⟨o, present⟩ : ∃ o, outs[i]? = some o := ⟨_, List.getElem?_eq_getElem less⟩
    rw [← output less.le, yield.each i t o task present]
    refine ⟨less.ne, ?_⟩
    intro plain found
    exact Option.some.inj (present.symm.trans found)
  · obtain ⟨e, failed⟩ := yield.stops t (equal ▸ task)
    rw [← output equal.le, equal, List.take_length, failed]
    exact Nat.le_refl outs.length
  · cases outcome : w.outcome (w.answer ask) with
    | ok o =>
        refine ⟨greater.ne', ?_⟩
        intro plain found
        rw [List.getElem?_eq_none greater.le] at found
        cases found
    | error e => exact greater.le

theorem position_unique (distinct : (crew.tasks.map (·.name)).Nodup) {i j : Nat} {t t' : CrewTask}
    (first : crew.tasks[i]? = some t) (second : crew.tasks[j]? = some t')
    (same : t.name = t'.name) : i = j := by
  obtain ⟨below, _⟩ := List.getElem?_eq_some_iff.mp first
  apply (List.getElem?_inj (by simpa using below) distinct).mp
  rw [List.getElem?_map, List.getElem?_map, first, second, Option.map_some, Option.map_some, same]

theorem position_lt_of_name_ne {i p : Nat} {t t' : CrewTask} (task : crew.tasks[p]? = some t)
    (task' : crew.tasks[i]? = some t') (different : ¬t'.name = t.name) (inside : i < p + 1) : i < p := by
  have apart : i ≠ p := by
    intro same
    cases task'.symm.trans (same ▸ task)
    exact different rfl
  omega

theorem Promises.mono {handed more : List CrewTask} {j : Nat} {o : TaskOutput}
    (grows : ∀ (j : Nat) t, handed[j]? = some t → more[j]? = some t)
    (promise : Promises crew outs handed j o) : Promises crew outs more j o := by
  obtain ⟨i, t, standing, task, output⟩ := promise
  exact ⟨i, t, grows j t standing, task, output⟩

theorem JobRight.mono {handed more : List CrewTask} {i j : Nat} {t : CrewTask} {agent : Agent}
    {phase : JobPhase} (grows : ∀ (j : Nat) t, handed[j]? = some t → more[j]? = some t)
    (right : JobRight crew inputs outs handed i j t agent phase) :
    JobRight crew inputs outs more i j t agent phase := by
  cases right with
  | gathering apart linked right =>
      refine .gathering apart linked ?_
      intro fits
      obtain ⟨rest, promised, perm⟩ := right fits
      exact ⟨rest, promised.imp fun _ _ promise => promise.mono grows, perm⟩
  | working right => exact .working right
  | finished right => exact .finished right

section Agreement
variable (distinct : (crew.tasks.map (·.name)).Nodup)
variable {k next : Kickoff} {taken p j : Nat} {name : String} {o : TaskOutput}
include distinct

theorem Kept.job_at (kept : Kept crew inputs outs k taken) {i : Nat} {job : Job}
    (standing : k.jobs[j]? = some job) (task : crew.tasks[i]? = some job.task) :
    i < taken ∧ crew.agentFor job.task = .ok job.agent ∧
      job.order = crew.dependencies i job.task ∧
      JobRight crew inputs outs (k.jobs.map (·.task)) i j job.task job.agent job.phase := by
  obtain ⟨position, inside, same, owner, order, right⟩ := kept.jobs j job standing
  cases position_unique distinct same task rfl
  exact ⟨inside, owner, order, right⟩

theorem Kept.yields_at (kept : Kept crew inputs outs k taken) {i : Nat} {job : Job}
    {result : Except ExecutionError TaskOutput} (standing : k.jobs[j]? = some job)
    (task : crew.tasks[i]? = some job.task) (found : k.jobResult? j = some result) :
    Yields outs i result := by
  obtain ⟨same, present, phase⟩ := Kickoff.jobResult?_eq_some found
  cases standing.symm.trans present
  obtain ⟨_, _, _, right⟩ := kept.job_at distinct standing task
  rw [phase] at right
  cases right with
  | finished right => exact right

theorem Kept.eq_of_promise (kept : Kept crew inputs outs k taken)
    {result : Except ExecutionError TaskOutput}
    (promise : Promises crew outs (k.jobs.map (·.task)) j o)
    (found : k.jobResult? j = some result) : result = .ok o := by
  obtain ⟨i, t, handed, task, output⟩ := promise
  rw [List.getElem?_map] at handed
  obtain ⟨job, standing, same⟩ := Option.map_eq_some_iff.mp handed
  have yields := kept.yields_at distinct standing (same ▸ task) found
  cases result with
  | ok o' => rw [yields.2 o output]
  | error e =>
      obtain ⟨below, _⟩ := List.getElem?_eq_some_iff.mp output
      exact absurd below (Nat.not_lt.mpr yields)

/-! ## What moves keep -/

omit distinct in
theorem Kept.withMain (kept : Kept crew inputs outs k taken) (main : MainPhase) :
    Kept crew inputs outs { k with main } taken :=
  ⟨kept.done, kept.pending, kept.apart, kept.covered, kept.jobs⟩

theorem Kept.of_settled (kept : Kept crew inputs outs k taken) {found : Option TaskOutput}
    (settled : Settled k name found next) : Kept crew inputs outs next taken := by
  cases settled with
  | done present => exact kept
  | nothing absent unknown => exact kept
  | @yielded o j absent waiting result =>
      refine ⟨?_, ?_, ?_, ?_, kept.jobs⟩
      · intro other o' present
        rw [Kickoff.take, Kickoff.lookup_setEntry] at present
        split at present
        · next same =>
            cases present
            obtain ⟨i, job, inside, task, named, standing⟩ := kept.pending name j waiting
            exact ⟨i, job.task, inside, task, named.trans same.symm,
              kept.yields_at distinct standing task result⟩
        · exact kept.done other o' present
      · intro other j' present
        rw [Kickoff.take, Json.Fields.lookup_filter] at present
        split at present
        · cases present
        · exact kept.pending other j' present
      · intro other o' present
        rw [Kickoff.take, Kickoff.lookup_setEntry] at present
        rw [Kickoff.take, Json.Fields.lookup_filter]
        split at present
        · next same => rw [if_pos same]
        · next different => rw [if_neg different, kept.apart other o' present]
      · intro i t inside task absent
        rw [Kickoff.take, Kickoff.lookup_setEntry] at absent
        split at absent
        · cases absent
        · next different =>
            obtain ⟨j', present⟩ := kept.covered i t inside task absent
            exact ⟨j', by rw [Kickoff.take, Json.Fields.lookup_filter, if_neg different, present]⟩

theorem Kept.unknown (kept : Kept crew inputs outs k p) {t : CrewTask}
    (task : crew.tasks[p]? = some t) :
    k.done.lookup t.name = none ∧ k.pending.lookup t.name = none := by
  constructor
  · cases present : k.done.lookup t.name with
    | none => rfl
    | some o =>
        obtain ⟨i, t', inside, task', named, _⟩ := kept.done t.name o present
        have same := position_unique distinct task' task named
        omega
  · cases present : k.pending.lookup t.name with
    | none => rfl
    | some j =>
        obtain ⟨i, job, inside, task', named, _⟩ := kept.pending t.name j present
        have same := position_unique distinct task' task named
        omega

theorem Kept.of_answered (kept : Kept crew inputs outs k p) {t : CrewTask} {main : MainPhase}
    (task : crew.tasks[p]? = some t) (right : Right outs p o) :
    Kept crew inputs outs { k with done := setEntry k.done t.name o, main } (p + 1) := by
  obtain ⟨_, unknown⟩ := kept.unknown distinct task
  refine ⟨?_, ?_, ?_, ?_, ?_⟩
  · intro other o' present
    rw [Kickoff.lookup_setEntry] at present
    split at present
    · next same =>
        cases present
        exact ⟨p, t, by omega, task, same.symm, right⟩
    · obtain ⟨i, t', inside, rest⟩ := kept.done other o' present
      exact ⟨i, t', by omega, rest⟩
  · intro other j present
    obtain ⟨i, job, inside, rest⟩ := kept.pending other j present
    exact ⟨i, job, by omega, rest⟩
  · intro other o' present
    rw [Kickoff.lookup_setEntry] at present
    split at present
    · next same => rw [same, unknown]
    · exact kept.apart other o' present
  · intro i t' inside task' absent
    rw [Kickoff.lookup_setEntry] at absent
    split at absent
    · cases absent
    · next different =>
        have before := position_lt_of_name_ne task task' different inside
        exact kept.covered i t' before task' absent
  · intro j job standing
    obtain ⟨i, inside, rest⟩ := kept.jobs j job standing
    exact ⟨i, by omega, rest⟩

theorem Kept.of_handedOut (kept : Kept crew inputs outs k p) (same : k.crew = crew) {t : CrewTask}
    {agent : Agent} (task : crew.tasks[p]? = some t) (owner : crew.agentFor t = .ok agent)
    (right : JobRight crew inputs outs (k.jobs.map (·.task) ++ [t]) p k.jobs.length t agent
      (.gathering (k.handOut (crew.dependencies p t)).1 (k.handOut (crew.dependencies p t)).2)) :
    Kept crew inputs outs (k.handedOut p t agent) (p + 1) := by
  subst same
  obtain ⟨undone, _⟩ := kept.unknown distinct task
  refine ⟨?_, ?_, ?_, ?_, ?_⟩
  · intro other o' present
    obtain ⟨i, t', inside, rest⟩ := kept.done other o' present
    exact ⟨i, t', by omega, rest⟩
  · intro other j present
    rw [Kickoff.handedOut, Kickoff.lookup_setEntry] at present
    split at present
    · next same =>
        cases present
        exact ⟨p, _, by omega, task, same.symm, List.getElem?_concat_length⟩
    · obtain ⟨i, job, inside, task', named, standing⟩ := kept.pending other j present
      obtain ⟨below, _⟩ := List.getElem?_eq_some_iff.mp standing
      exact ⟨i, job, by omega, task', named, (List.getElem?_append_left below).trans standing⟩
  · intro other o' present
    rw [Kickoff.handedOut, Kickoff.lookup_setEntry]
    split
    · next same =>
        rw [same] at present
        cases undone.symm.trans present
    · exact kept.apart other o' present
  · intro i t' inside task' absent
    rw [Kickoff.handedOut, Kickoff.lookup_setEntry]
    split
    · exact ⟨_, rfl⟩
    · next different =>
        have before := position_lt_of_name_ne task task' different inside
        exact kept.covered i t' before task' absent
  · intro j job standing
    rw [Kickoff.handedOut, List.map_append]
    -- The jobs before stand where they stood, and the new one has the next place.
    rcases Nat.lt_trichotomy j k.jobs.length with less | equal | greater
    · obtain ⟨i, inside, task', owner', order, old⟩ := kept.jobs j job
        ((List.getElem?_append_left less).symm.trans standing)
      refine ⟨i, by omega, task', owner', order, old.mono ?_⟩
      intro j' t' there
      obtain ⟨below, _⟩ := List.getElem?_eq_some_iff.mp there
      exact (List.getElem?_append_left below).trans there
    · subst equal
      cases List.getElem?_concat_length.symm.trans standing
      exact ⟨p, by omega, task, owner, rfl, right⟩
    · have beyond : (k.handedOut p t agent).jobs[j]? = none :=
        List.getElem?_eq_none (by simpa [Kickoff.handedOut] using greater)
      cases beyond.symm.trans standing

omit distinct in
theorem Kept.of_setPhase (kept : Kept crew inputs outs k taken) {job : Job} {phase : JobPhase}
    (standing : k.jobs[j]? = some job)
    (right : ∀ i, crew.tasks[i]? = some job.task → job.order = crew.dependencies i job.task →
      JobRight crew inputs outs (k.jobs.map (·.task)) i j job.task job.agent job.phase →
      JobRight crew inputs outs (k.jobs.map (·.task)) i j job.task job.agent phase) :
    Kept crew inputs outs (k.setPhase j phase) taken := by
  have tasks : (k.setPhase j phase).jobs.map (·.task) = k.jobs.map (·.task) := by
    apply List.ext_getElem?
    intro j'
    rw [Kickoff.setPhase, List.getElem?_map, List.getElem?_map, List.getElem?_modify]
    cases k.jobs[j']? with
    | none => rfl
    | some other =>
        by_cases here : j = j' <;> simp [here]
  have others : ∀ j' job', (k.setPhase j phase).jobs[j']? = some job' →
      (j' = j ∧ job' = { job with phase }) ∨ (j' ≠ j ∧ k.jobs[j']? = some job') := by
    intro j' job' there
    obtain ⟨old, before, ⟨rfl, rfl⟩ | ⟨apart, rfl⟩⟩ := Kickoff.job_of_setPhase there
    · cases standing.symm.trans before
      exact .inl ⟨rfl, rfl⟩
    · exact .inr ⟨apart, before⟩
  refine ⟨kept.done, ?_, kept.apart, kept.covered, ?_⟩
  · intro other j' present
    obtain ⟨i, old, inside, task, named, there⟩ := kept.pending other j' present
    have kind : ((k.setPhase j phase).jobs.map (·.task))[j']? = some old.task := by
      rw [tasks, List.getElem?_map, there, Option.map_some]
    rw [List.getElem?_map] at kind
    obtain ⟨job', there', same⟩ := Option.map_eq_some_iff.mp kind
    rw [← same] at task named
    exact ⟨i, job', inside, task, named, there'⟩
  · intro j' job' there
    rw [tasks]
    rcases others j' job' there with ⟨here, same⟩ | ⟨_, old⟩
    · subst here same
      obtain ⟨i, inside, task, owner, order, before⟩ := kept.jobs j' job standing
      exact ⟨i, inside, task, owner, order, right i task order before⟩
    · exact kept.jobs j' job' old

/-! ## What the main line finds -/

variable (yield : Yield crew inputs ask outs)
include yield

theorem Yield.among_of_right (fits : p ≤ outs.length) {i : Nat} {t : CrewTask} (inside : i < p)
    (task : crew.tasks[i]? = some t) (right : Right outs i o) :
    among outs p t.name = some o := by
  obtain ⟨plain, output⟩ : ∃ plain, outs[i]? = some plain :=
    ⟨_, List.getElem?_eq_getElem (by omega)⟩
  rw [right.2 plain output]
  exact yield.among_of_lt distinct fits inside task output

/-- What the main line comes by, when it asks before the first task that fails, is what is there. -/
theorem Kept.among_of_settled (kept : Kept crew inputs outs k p) (fits : p ≤ outs.length)
    {found : Option TaskOutput} (settled : Settled k name found next) :
    among outs p name = found := by
  cases settled with
  | done present =>
      obtain ⟨i, t, inside, task, named, right⟩ := kept.done name _ present
      rw [← named]
      exact yield.among_of_right distinct fits inside task right
  | yielded absent waiting result =>
      obtain ⟨i, job, inside, task, named, standing⟩ := kept.pending name _ waiting
      rw [← named]
      exact yield.among_of_right distinct fits inside task
        (kept.yields_at distinct standing task result)
  | nothing absent unknown =>
      cases found : among outs p name with
      | none => rfl
      | some o =>
          obtain ⟨i, t, inside, task, named, _⟩ := yield.of_among found
          rw [← named] at absent unknown
          obtain ⟨j, waiting⟩ := kept.covered i t inside task absent
          cases unknown.symm.trans waiting

/-- What a job finds done when it is handed out is, with what it waits for, what its task gets. -/
theorem Kept.handOut_right (kept : Kept crew inputs outs k p) (fits : p ≤ outs.length)
    (names : List String) :
    ∃ rest, List.Forall₂ (Promises crew outs (k.jobs.map (·.task))) (k.handOut names).2 rest ∧
      ((k.handOut names).1 ++ rest).Perm (names.filterMap (among outs p)) := by
  simp only [Kickoff.handOut]
  induction names with
  | nil => exact ⟨[], .nil, by simp⟩
  | cons name names ih =>
      obtain ⟨rest, promised, perm⟩ := ih
      cases present : k.done.lookup name with
      | some o =>
          have there := kept.among_of_settled distinct yield fits (.done present)
          have waiting := kept.apart name o present
          simp only [List.filterMap_cons, present, waiting, there]
          exact ⟨rest, promised, perm.cons o⟩
      | none =>
          cases waiting : k.pending.lookup name with
          | none =>
              have there := kept.among_of_settled distinct yield fits (.nothing present waiting)
              simp only [List.filterMap_cons, present, waiting, there]
              exact ⟨rest, promised, perm⟩
          | some j =>
              obtain ⟨i, job, inside, task, named, standing⟩ := kept.pending name j waiting
              obtain ⟨o, output⟩ : ∃ o, outs[i]? = some o :=
                ⟨_, List.getElem?_eq_getElem (by omega)⟩
              have there := yield.among_of_lt distinct fits inside task output
              rw [named] at there
              have handed : (k.jobs.map (·.task))[j]? = some job.task := by
                rw [List.getElem?_map, standing, Option.map_some]
              simp only [List.filterMap_cons, present, waiting, there]
              exact ⟨o :: rest, .cons ⟨i, job.task, handed, task, output⟩ promised,
                List.perm_middle.trans (perm.cons o)⟩

end Agreement

end CrewFlow.Crew
