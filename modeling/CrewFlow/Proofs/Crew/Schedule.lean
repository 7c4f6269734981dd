import Mathlib
import CrewFlow.Crew.Kickoff
import CrewFlow.Proofs.Json.Fields
/-!
# Schedules of a kickoff

The machine of a kickoff does not say who moves next. A schedule is any order of its moves, in which the
answer to what is being worked on may come at any time. Every move makes the machine lighter, so no
schedule goes on forever.
-/
set_option autoImplicit false

namespace CrewFlow.Crew

open Tool (LocalTool)

/-- What agents answer to a prompt, with the tools that are added for a task. -/
abbrev Answers := Agent → List LocalTool → String → Except String String

/-- The answer to what is being worked on. -/
def Work.answer (ask : Answers) (w : Work) : Except String String := ask w.agent w.task.tools w.prompt

namespace Kickoff

/-! ## Entries by name -/

section Entries
variable {α : Type} {entries : List (String × α)} {name : String} {value : α}

theorem lookup_replaced (other : String) :
    (entries.map fun e => if e.1 = name then (name, value) else e).lookup other =
      if other = name then (entries.lookup name).map fun _ => value else entries.lookup other := by
  induction entries with
  | nil => simp
  | cons e rest ih =>
      obtain ⟨key, v⟩ := e
      rw [List.map_cons, List.lookup_cons, List.lookup_cons, List.lookup_cons]
      by_cases replaced : key = name
      · rw [if_pos replaced, replaced, ih]
        by_cases same : other = name
        · simp [same]
        · have differs : (other == name) = false := by simpa using same
          rw [if_neg same, if_neg same, differs]
      · have kept : (name == key) = false := by simpa using fun equal : name = key => replaced equal.symm
        rw [if_neg replaced, ih, kept]
        by_cases here : other = key
        · have differs : other ≠ name := fun equal => replaced (here.symm.trans equal)
          simp [here, replaced]
        · have differs : (other == key) = false := by simpa using here
          rw [differs]

theorem lookup_setEntry (other : String) :
    (setEntry entries name value).lookup other =
      if other = name then some value else entries.lookup other := by
  have known : (entries.any fun e => e.1 == name) = true ↔ (entries.lookup name).isSome := by
    rw [List.lookup_isSome_iff, List.any_eq_true]
    simp [BEq.comm]
  by_cases present : (entries.any fun e => e.1 == name) = true
  · obtain ⟨v, found⟩ := Option.isSome_iff_exists.mp (known.mp present)
    rw [setEntry, if_pos present, lookup_replaced, found, Option.map_some]
  · have absent : entries.lookup name = none :=
      Option.not_isSome_iff_eq_none.mp fun found => present (known.mpr found)
    rw [setEntry, if_neg present, List.lookup_append, List.lookup_cons]
    by_cases same : other = name
    · simp [same, absent]
    · have differs : (other == name) = false := by simpa using same
      rw [if_neg same, differs]
      exact Option.or_none

theorem length_setEntry_le : (setEntry entries name value).length ≤ entries.length + 1 := by
  unfold setEntry
  split <;> simp

end Entries

/-! ## Moves -/

/-- A move of the main line or of a job, or an answer to one of them. -/
inductive Step (ask : Answers) (k : Kickoff) : Kickoff → Prop where
  | main {next : Kickoff} (moved : k.moveMain = some next) : Step ask k next
  | mainAnswered {w : Work} (working : k.mainWork? = some w) :
      Step ask k (k.answerMain (w.answer ask))
  | job {j : Nat} {next : Kickoff} (moved : k.moveJob j = some next) : Step ask k next
  | jobAnswered {j : Nat} {w : Work} (working : k.jobWork? j = some w) :
      Step ask k (k.answerJob j (w.answer ask))

/-- However its moves are ordered, the machine comes to an end, and to one as it should be. -/
inductive Comes (ask : Answers) (right : Except ExecutionError CrewOutput → Prop) : Kickoff → Prop where
  | ended {k : Kickoff} {result : Except ExecutionError CrewOutput} (found : k.result? = some result)
      (good : right result) : Comes ask right k
  | onward {k : Kickoff} (movable : ∃ next, Step ask k next)
      (all : ∀ next, Step ask k next → Comes ask right next) : Comes ask right k

/-- What the main line comes by when it asks for the output of a task: the output, if there is one, and
the machine behind it. -/
inductive Settled (k : Kickoff) (name : String) : Option TaskOutput → Kickoff → Prop where
  | done {o : TaskOutput} (found : k.done.lookup name = some o) : Settled k name (some o) k
  | yielded {o : TaskOutput} {j : Nat} (absent : k.done.lookup name = none)
      (waiting : k.pending.lookup name = some j) (result : k.jobResult? j = some (.ok o)) :
      Settled k name (some o) (k.take name o)
  | nothing (absent : k.done.lookup name = none) (unknown : k.pending.lookup name = none) :
      Settled k name none k

def handedOut (k : Kickoff) (position : Nat) (task : CrewTask) (agent : Agent) : Kickoff :=
  let names := k.crew.dependencies position task
  { k with
    jobs := k.jobs ++ [⟨task, agent, names, .gathering (k.handOut names).1 (k.handOut names).2⟩]
    pending := setEntry k.pending task.name k.jobs.length
    main := .taking (position + 1) }

section Jobs
variable {k : Kickoff} {i j : Nat} {job : Job}

theorem job_of_setPhase {phase : JobPhase} {other : Job} (there : (k.setPhase j phase).jobs[i]? = some other) :
    ∃ job, k.jobs[i]? = some job ∧ ((i = j ∧ other = { job with phase }) ∨ (i ≠ j ∧ other = job)) := by
  rw [setPhase, List.getElem?_modify] at there
  obtain ⟨job, before, same⟩ := Option.map_eq_some_iff.mp there
  refine ⟨job, before, ?_⟩
  split at same
  · next here => exact .inl ⟨here.symm, same.symm⟩
  · next apart => exact .inr ⟨Ne.symm apart, same.symm⟩

theorem exists_job_setPhase (j : Nat) (phase : JobPhase) (there : k.jobs[i]? = some job) :
    ∃ other, (k.setPhase j phase).jobs[i]? = some other ∧ other.task = job.task := by
  rw [setPhase, List.getElem?_modify, there]
  by_cases here : j = i
  · exact ⟨{ job with phase }, by simp [here], rfl⟩
  · exact ⟨job, by simp [here], rfl⟩

theorem job_of_handedOut {p : Nat} {t : CrewTask} {agent : Agent}
    (there : (k.handedOut p t agent).jobs[j]? = some job) :
    k.jobs[j]? = some job ∨ (j = k.jobs.length ∧
      job = ⟨t, agent, k.crew.dependencies p t,
        .gathering (k.handOut (k.crew.dependencies p t)).1 (k.handOut (k.crew.dependencies p t)).2⟩) := by
  rw [handedOut, List.getElem?_append] at there
  split at there
  · exact .inl there
  · next new =>
      rw [List.getElem?_singleton] at there
      split at there
      · next first =>
          cases there
          exact .inr ⟨by omega, rfl⟩
      · cases there

theorem job_handedOut (p : Nat) (t : CrewTask) (agent : Agent) (there : k.jobs[j]? = some job) :
    (k.handedOut p t agent).jobs[j]? = some job :=
  (List.getElem?_append_left (List.getElem?_eq_some_iff.mp there).1).trans there

end Jobs

/-- What a move of a job changes, or one of the main line, which has no number, when nothing is
remembered. -/
inductive Change (ask : Answers) (k : Kickoff) : Option Nat → Kickoff → Prop where
  | unmanned {p : Nat} {t : CrewTask} {e : ExecutionError} (main : k.main = .taking p)
      (task : k.crew.tasks[p]? = some t) (nobody : k.crew.agentFor t = .error e) :
      Change ask k none (k.fail e)
  | handedOut {p : Nat} {t : CrewTask} {agent : Agent} (main : k.main = .taking p)
      (task : k.crew.tasks[p]? = some t) (owner : k.crew.agentFor t = .ok agent)
      (apart : t.isAsync = true) : Change ask k none (k.handedOut p t agent)
  | takenUp {p : Nat} {t : CrewTask} {agent : Agent} (main : k.main = .taking p)
      (task : k.crew.tasks[p]? = some t) (owner : k.crew.agentFor t = .ok agent)
      (inLine : t.isAsync = false) :
      Change ask k none { k with main := .gathering p t agent [] (k.crew.dependencies p t) }
  | allTaken {p : Nat} (main : k.main = .taking p) (last : k.crew.tasks[p]? = none) :
      Change ask k none { k with main := .closing (k.pending.map (·.1)) }
  | gathered {p : Nat} {t : CrewTask} {agent : Agent} {context : List TaskOutput} {name : String}
      {names : List String} {o : Option TaskOutput} {next : Kickoff}
      (main : k.main = .gathering p t agent context (name :: names))
      (settled : Settled k name o next) :
      Change ask k none { next with main := .gathering p t agent (context ++ o.toList) names }
  | begun {p : Nat} {t : CrewTask} {agent : Agent} {context : List TaskOutput}
      (main : k.main = .gathering p t agent context []) :
      Change ask k none { k with main := .working p (k.work t agent context) }
  | answered {p : Nat} {w : Work} {o : TaskOutput} (main : k.main = .working p w)
      (outcome : w.outcome (w.answer ask) = .ok o) :
      Change ask k none { k with done := setEntry k.done w.task.name o, main := .taking (p + 1) }
  | refused {p : Nat} {w : Work} {e : ExecutionError} (main : k.main = .working p w)
      (outcome : w.outcome (w.answer ask) = .error e) :
      Change ask k none (k.fail (k.crew.failed e.message))
  | closed {name : String} {names : List String} {o : Option TaskOutput} {next : Kickoff}
      (main : k.main = .closing (name :: names)) (settled : Settled k name o next) :
      Change ask k none { next with main := .closing names }
  | broken {j : Nat} {e : ExecutionError} (awaits : k.mainAwaits? = some j)
      (result : k.jobResult? j = some (.error e)) : Change ask k none (k.fail (k.crew.failed e.message))
  | ended (main : k.main = .closing []) : Change ask k none { k with main := .finished (.ok k.output) }
  | jobBegun {j : Nat} {job : Job} {context : List TaskOutput} (standing : k.jobs[j]? = some job)
      (phase : job.phase = .gathering context []) :
      Change ask k (some j)
        (k.setPhase j (.working (k.work job.task job.agent (arranged job.order context))))
  | jobGathered {j other : Nat} {job : Job} {context : List TaskOutput} {awaited : List Nat}
      {o : TaskOutput} (standing : k.jobs[j]? = some job)
      (phase : job.phase = .gathering context (other :: awaited))
      (result : k.jobResult? other = some (.ok o)) :
      Change ask k (some j) (k.setPhase j (.gathering (context ++ [o]) awaited))
  | jobBroken {j other : Nat} {job : Job} {context : List TaskOutput} {awaited : List Nat}
      {e : ExecutionError} (standing : k.jobs[j]? = some job)
      (phase : job.phase = .gathering context (other :: awaited))
      (result : k.jobResult? other = some (.error e)) :
      Change ask k (some j) (k.setPhase j (.finished (.error e)))
  | jobAnswered {j : Nat} {job : Job} {w : Work} (standing : k.jobs[j]? = some job)
      (phase : job.phase = .working w) :
      Change ask k (some j) (k.setPhase j (.finished (w.outcome (w.answer ask))))

theorem find_cases (k : Kickoff) (name : String) :
    (∃ o, k.find name = .output o ∧ Settled k name (some o) k) ∨
    (∃ o, k.find name = .yielded o ∧ Settled k name (some o) (k.take name o)) ∨
    (k.find name = .nothing ∧ Settled k name none k) ∨
    (∃ j e, k.find name = .failed e ∧ k.jobFor? name = some j ∧
      k.jobResult? j = some (.error e)) ∨
    ∃ j, k.find name = .later j ∧ k.jobFor? name = some j ∧ k.jobResult? j = none := by
  cases found : k.done.lookup name with
  | some o => exact .inl ⟨o, by simp [find, found], .done found⟩
  | none =>
      cases waiting : k.pending.lookup name with
      | none => exact .inr (.inr (.inl ⟨by simp [find, found, waiting], .nothing found waiting⟩))
      | some j =>
          have awaited : k.jobFor? name = some j := by simp [jobFor?, found, waiting]
          cases result : k.jobResult? j with
          | none =>
              exact .inr (.inr (.inr (.inr ⟨j, by simp [find, found, waiting, result], awaited,
                result⟩)))
          | some yield =>
              cases yield with
              | ok o =>
                  exact .inr (.inl ⟨o, by simp [find, found, waiting, result],
                    .yielded found waiting result⟩)
              | error e =>
                  exact .inr (.inr (.inr (.inl ⟨j, e, by simp [find, found, waiting, result],
                    awaited, result⟩)))

theorem change_of_moveMain {ask : Answers} {k next : Kickoff} (moved : k.moveMain = some next) :
    Change ask k none next := by
  cases main : k.main with
  | taking p =>
      simp only [moveMain, main] at moved
      cases task : k.crew.tasks[p]? with
      | none =>
          rw [task] at moved
          cases moved
          exact .allTaken main task
      | some t =>
          rw [task] at moved
          cases moved
          unfold takeUp
          cases owner : k.crew.agentFor t with
          | error e => exact .unmanned main task owner
          | ok agent =>
              dsimp only
              split
              · next apart => exact .handedOut main task owner apart
              · next inLine => exact .takenUp main task owner (by simpa using inLine)
  | gathering p t agent context names =>
      cases names with
      | nil =>
          simp only [moveMain, main] at moved
          cases moved
          exact .begun main
      | cons name names =>
          simp only [moveMain, main] at moved
          rcases k.find_cases name with ⟨o, found, settled⟩ | ⟨o, found, settled⟩ |
            ⟨found, settled⟩ | ⟨j, e, found, awaits, result⟩ | ⟨j, found, _⟩
          · rw [found] at moved
            cases moved
            exact .gathered main settled
          · rw [found] at moved
            cases moved
            exact .gathered main settled
          · rw [found] at moved
            cases moved
            -- Nothing is found: `gathered` puts the empty list behind the context.
            have passed : Change ask k none _ := .gathered main settled
            rw [Option.toList_none, List.append_nil] at passed
            exact passed
          · rw [found] at moved
            cases moved
            exact .broken (by rw [mainAwaits?, main]; exact awaits) result
          · rw [found] at moved
            cases moved
  | working p w => simp [moveMain, main] at moved
  | closing names =>
      cases names with
      | nil =>
          simp only [moveMain, main] at moved
          cases moved
          exact .ended main
      | cons name names =>
          simp only [moveMain, main] at moved
          rcases k.find_cases name with ⟨o, found, settled⟩ | ⟨o, found, settled⟩ |
            ⟨found, settled⟩ | ⟨j, e, found, awaits, result⟩ | ⟨j, found, _⟩
          · rw [found] at moved
            cases moved
            exact .closed main settled
          · rw [found] at moved
            cases moved
            exact .closed main settled
          · rw [found] at moved
            cases moved
            exact .closed main settled
          · rw [found] at moved
            cases moved
            exact .broken (by rw [mainAwaits?, main]; exact awaits) result
          · rw [found] at moved
            cases moved
  | finished result => simp [moveMain, main] at moved

theorem mainWork?_eq_some {k : Kickoff} {w : Work} (working : k.mainWork? = some w) :
    ∃ p, k.main = .working p w := by
  unfold mainWork? at working
  split at working
  · next p work main =>
      cases working
      exact ⟨p, main⟩
  · cases working

theorem result?_eq_some {k : Kickoff} {result : Except ExecutionError CrewOutput}
    (found : k.result? = some result) : k.main = .finished result := by
  unfold result? at found
  split at found
  · next main =>
      cases found
      exact main
  · cases found

theorem change_of_answerMain {ask : Answers} {k : Kickoff} {w : Work} (forgetful : k.memory = none)
    (working : k.mainWork? = some w) : Change ask k none (k.answerMain (w.answer ask)) := by
  have unremembered : ∀ answer, k.rememberAnswer w answer = k := by
    intro answer
    cases answer <;> simp [rememberAnswer, remember, forgetful]
  obtain ⟨p, main⟩ := mainWork?_eq_some working
  unfold answerMain
  rw [main]
  dsimp only
  rw [unremembered]
  cases outcome : w.outcome (w.answer ask) with
  | ok o => exact .answered main outcome
  | error e => exact .refused main outcome

theorem jobWork?_eq_some {k : Kickoff} {j : Nat} {w : Work} (working : k.jobWork? j = some w) :
    ∃ job, k.jobs[j]? = some job ∧ job.phase = .working w := by
  unfold jobWork? phase? at working
  cases standing : k.jobs[j]? with
  | none => simp [standing] at working
  | some job =>
      rw [standing, Option.map_some] at working
      split at working
      · next work phase =>
          cases working
          exact ⟨job, rfl, Option.some.inj phase⟩
      · cases working

theorem jobResult?_eq_some {k : Kickoff} {j : Nat} {result : Except ExecutionError TaskOutput}
    (found : k.jobResult? j = some result) :
    ∃ job, k.jobs[j]? = some job ∧ job.phase = .finished result := by
  unfold jobResult? phase? at found
  cases standing : k.jobs[j]? with
  | none => simp [standing] at found
  | some job =>
      rw [standing, Option.map_some] at found
      split at found
      · next result phase =>
          cases found
          exact ⟨job, rfl, Option.some.inj phase⟩
      · cases found

theorem change_of_answerJob {ask : Answers} {k : Kickoff} {j : Nat} {w : Work}
    (forgetful : k.memory = none) (working : k.jobWork? j = some w) :
    Change ask k (some j) (k.answerJob j (w.answer ask)) := by
  have unremembered : ∀ answer, k.rememberAnswer w answer = k := by
    intro answer
    cases answer <;> simp [rememberAnswer, remember, forgetful]
  obtain ⟨job, standing, phase⟩ := jobWork?_eq_some working
  rw [answerJob, working]
  dsimp only
  rw [unremembered]
  exact .jobAnswered standing phase

theorem change_of_moveJob {ask : Answers} {k next : Kickoff} {j : Nat}
    (moved : k.moveJob j = some next) : Change ask k (some j) next := by
  unfold moveJob at moved
  split at moved
  · next task agent order context standing =>
      cases moved
      exact .jobBegun standing rfl
  · next task agent order context other awaited standing =>
      split at moved
      · next o result =>
          cases moved
          exact .jobGathered standing rfl result
      · next e result =>
          cases moved
          exact .jobBroken standing rfl result
      · cases moved
  · cases moved

theorem change_of_step {ask : Answers} {k next : Kickoff} (forgetful : k.memory = none)
    (step : Step ask k next) : ∃ mover, Change ask k mover next := by
  cases step with
  | main moved => exact ⟨_, change_of_moveMain moved⟩
  | mainAnswered working => exact ⟨_, change_of_answerMain forgetful working⟩
  | job moved => exact ⟨_, change_of_moveJob moved⟩
  | jobAnswered working => exact ⟨_, change_of_answerJob forgetful working⟩

/-! ## Waiting -/

theorem pending_of_mainAwaits? {k : Kickoff} {j : Nat} (awaits : k.mainAwaits? = some j) :
    ∃ name, k.done.lookup name = none ∧ k.pending.lookup name = some j := by
  have asked : ∃ name, k.jobFor? name = some j := by
    unfold mainAwaits? at awaits
    split at awaits
    · exact ⟨_, awaits⟩
    · exact ⟨_, awaits⟩
    · cases awaits
  obtain ⟨name, waiting⟩ := asked
  unfold jobFor? at waiting
  split at waiting
  · cases waiting
  · next absent => exact ⟨name, absent, waiting⟩

/-- The main line cannot move by itself only when it works on a task, waits for a job or is over. -/
theorem moveMain_eq_none {k : Kickoff} (stuck : k.moveMain = none) :
    (∃ w, k.mainWork? = some w) ∨
    (∃ name j, k.mainAwaits? = some j ∧ k.pending.lookup name = some j ∧ k.jobResult? j = none) ∨
    ∃ result, k.main = .finished result := by
  have waits : ∀ name j, k.find name = .later j →
      k.jobFor? name = some j ∧ k.pending.lookup name = some j ∧ k.jobResult? j = none := by
    intro name j found
    unfold find at found
    split at found
    · cases found
    · next absent =>
        split at found
        · cases found
        · next waiting =>
            split at found
            · next unfinished =>
                cases found
                exact ⟨by rw [jobFor?, absent]; exact waiting, waiting, unfinished⟩
            · cases found
            · cases found
  unfold moveMain at stuck
  split at stuck
  · split at stuck <;> cases stuck
  · cases stuck
  · next main =>
      split at stuck
      · cases stuck
      · cases stuck
      · cases stuck
      · cases stuck
      · next j found =>
          obtain ⟨awaits, waiting⟩ := waits _ j found
          exact .inr (.inl ⟨_, j, by rw [mainAwaits?, main]; exact awaits, waiting⟩)
  · cases stuck
  · next main =>
      split at stuck
      · cases stuck
      · cases stuck
      · cases stuck
      · cases stuck
      · next j found =>
          obtain ⟨awaits, waiting⟩ := waits _ j found
          exact .inr (.inl ⟨_, j, by rw [mainAwaits?, main]; exact awaits, waiting⟩)
  · next position work main => exact .inl ⟨work, by rw [mainWork?, main]⟩
  · next result main => exact .inr (.inr ⟨result, main⟩)

/-- A job cannot move by itself only when it is worked on, waits for another or is over. -/
theorem moveJob_eq_none {k : Kickoff} {j : Nat} {job : Job} (standing : k.jobs[j]? = some job)
    (stuck : k.moveJob j = none) :
    (∃ w, k.jobWork? j = some w) ∨
    (∃ context other awaited, job.phase = .gathering context (other :: awaited) ∧
      k.jobResult? other = none) ∨
    ∃ result, k.jobResult? j = some result := by
  have at_phase : k.phase? j = some job.phase := by rw [phase?, standing, Option.map_some]
  cases phase : job.phase with
  | gathering context awaited =>
      obtain ⟨task, agent, order, same⟩ := job
      cases phase
      cases awaited with
      | nil =>
          rw [moveJob, standing] at stuck
          cases stuck
      | cons other awaited =>
          refine .inr (.inl ⟨context, other, awaited, rfl, ?_⟩)
          rw [moveJob, standing] at stuck
          dsimp only at stuck
          split at stuck
          · cases stuck
          · cases stuck
          · next unfinished => exact unfinished
  | working w => exact .inl ⟨w, by rw [jobWork?, at_phase, phase]⟩
  | finished result => exact .inr (.inr ⟨result, by rw [jobResult?, at_phase, phase]⟩)

/-! ## Weight -/

def JobPhase.weight : JobPhase → Nat
  | .gathering _ awaited => awaited.length + 2
  | .working _ => 1
  | .finished _ => 0

def weightFrom (crew : Crew) (position : Nat) : Nat :=
  ((crew.tasks.drop position).map fun t => crew.tasks.length + t.context.length + 5).sum

def mainWeight (k : Kickoff) : Nat :=
  match k.main with
  | .taking p => weightFrom k.crew p + k.pending.length + 2
  | .gathering p _ _ _ names => names.length + 2 + weightFrom k.crew (p + 1) + k.pending.length + 2
  | .working p _ => 1 + weightFrom k.crew (p + 1) + k.pending.length + 2
  | .closing names => names.length + 1
  | .finished _ => 0

def weight (k : Kickoff) : Nat := k.mainWeight + (k.jobs.map fun job => JobPhase.weight job.phase).sum

theorem weightFrom_eq {crew : Crew} {p : Nat} {t : CrewTask} (task : crew.tasks[p]? = some t) :
    weightFrom crew p = crew.tasks.length + t.context.length + 5 + weightFrom crew (p + 1) := by
  obtain ⟨below, here⟩ := List.getElem?_eq_some_iff.mp task
  rw [weightFrom, List.drop_eq_getElem_cons below, here, List.map_cons, List.sum_cons]
  rfl

theorem length_dependencies_le (crew : Crew) (p : Nat) (t : CrewTask) :
    (crew.dependencies p t).length ≤ crew.tasks.length + t.context.length := by
  unfold Crew.dependencies
  split
  · rw [List.length_map, List.length_take]
    omega
  · omega

theorem weight_setPhase_lt {k : Kickoff} {j : Nat} {job : Job} {phase : JobPhase}
    (standing : k.jobs[j]? = some job)
    (lighter : JobPhase.weight phase < JobPhase.weight job.phase) :
    (k.setPhase j phase).weight < k.weight := by
  obtain ⟨below, here⟩ := List.getElem?_eq_some_iff.mp standing
  have before : k.jobs = k.jobs.take j ++ job :: k.jobs.drop (j + 1) := by
    rw [← here, ← List.drop_eq_getElem_cons below, List.take_append_drop]
  have after : (k.setPhase j phase).jobs =
      k.jobs.take j ++ { job with phase } :: k.jobs.drop (j + 1) := by
    rw [setPhase, List.modify_eq_take_cons_drop below, here]
  have main : (k.setPhase j phase).mainWeight = k.mainWeight := rfl
  rw [weight, weight, main, after]
  conv_rhs => rw [before]
  simp only [List.map_append, List.map_cons, List.sum_append, List.sum_cons]
  omega

theorem Settled.frame {k next : Kickoff} {name : String} {o : Option TaskOutput}
    (settled : Settled k name o next) :
    next.crew = k.crew ∧ next.inputs = k.inputs ∧ next.memory = k.memory ∧ next.jobs = k.jobs ∧
      next.pending.length ≤ k.pending.length := by
  cases settled with
  | done found => exact ⟨rfl, rfl, rfl, rfl, le_rfl⟩
  | yielded absent waiting result => exact ⟨rfl, rfl, rfl, rfl, List.length_filter_le ..⟩
  | nothing absent unknown => exact ⟨rfl, rfl, rfl, rfl, le_rfl⟩

theorem weight_lt_of_change {ask : Answers} {k next : Kickoff} {mover : Option Nat}
    (change : Change ask k mover next) :
    next.weight < k.weight := by
  cases change with
  | unmanned main task nobody =>
      simp only [weight, mainWeight, fail, main]
      omega
  | @handedOut p t agent main task owner apart =>
      -- The new job waits for at most as many jobs as the task has dependencies, for which it was weighed.
      have links := length_dependencies_le k.crew p t
      have waits : (k.handOut (k.crew.dependencies p t)).2.length ≤
          (k.crew.dependencies p t).length := List.length_filterMap_le ..
      have grown : (setEntry k.pending t.name k.jobs.length).length ≤ k.pending.length + 1 :=
        length_setEntry_le
      simp only [weight, mainWeight, handedOut, main, weightFrom_eq task, List.map_append,
        List.map_cons, List.map_nil, List.sum_append, List.sum_cons, List.sum_nil,
        JobPhase.weight]
      omega
  | @takenUp p t agent main task owner inLine =>
      have links := length_dependencies_le k.crew p t
      simp only [weight, mainWeight, main, weightFrom_eq task]
      omega
  | allTaken main last =>
      simp only [weight, mainWeight, main, List.length_map]
      omega
  | gathered main settled =>
      obtain ⟨crew, _, _, jobs, pending⟩ := settled.frame
      simp only [weight, mainWeight, main, crew, jobs, List.length_cons]
      omega
  | begun main =>
      simp only [weight, mainWeight, main, List.length_nil]
      omega
  | answered main outcome =>
      simp only [weight, mainWeight, main]
      omega
  | refused main outcome =>
      simp only [weight, mainWeight, fail, main]
      omega
  | closed main settled =>
      obtain ⟨crew, _, _, jobs, pending⟩ := settled.frame
      simp only [weight, mainWeight, main, jobs, List.length_cons]
      omega
  | @broken j e awaits result =>
      have heavy : 0 < k.mainWeight := by
        unfold mainAwaits? at awaits
        unfold mainWeight
        split at awaits
        · next main => rw [main]; dsimp only; omega
        · next main => rw [main]; dsimp only; omega
        · cases awaits
      have light : (k.fail (k.crew.failed e.message)).mainWeight = 0 := rfl
      rw [weight, weight, light]
      exact Nat.add_lt_add_right heavy _
  | ended main =>
      simp only [weight, mainWeight, main, List.length_nil]
      omega
  | jobBegun standing phase =>
      exact weight_setPhase_lt standing (by simp [phase, JobPhase.weight])
  | jobGathered standing phase result =>
      exact weight_setPhase_lt standing (by simp [phase, JobPhase.weight])
  | jobBroken standing phase result =>
      exact weight_setPhase_lt standing (by simp [phase, JobPhase.weight])
  | jobAnswered standing phase =>
      exact weight_setPhase_lt standing (by simp [phase, JobPhase.weight])

theorem Comes.imp {ask : Answers} {right better : Except ExecutionError CrewOutput → Prop} {k : Kickoff}
    (comes : Comes ask right k) (implies : ∀ result, right result → better result) :
    Comes ask better k := by
  induction comes with
  | ended found good => exact .ended found (implies _ good)
  | onward movable _ ih => exact .onward movable ih

/-- A machine that remembers nothing comes to an end as it should be, when something is so from its start
on, as long as it can move, and until it ends as it should. -/
theorem comes_of_invariant {ask : Answers} {right : Except ExecutionError CrewOutput → Prop}
    {Inv : Kickoff → Prop} (forgetful : ∀ k, Inv k → k.memory = none)
    (movable : ∀ k, Inv k → ∃ next, Step ask k next)
    (keeps : ∀ k mover next, Inv k → Change ask k mover next →
      Inv next ∨ ∃ result, next.result? = some result ∧ right result)
    {k : Kickoff} (start : Inv k) : Comes ask right k := by
  induction weight : k.weight using Nat.strong_induction_on generalizing k with
  | _ n ih =>
      refine .onward (movable k start) ?_
      intro next step
      obtain ⟨mover, change⟩ := change_of_step (forgetful k start) step
      have lighter := weight_lt_of_change change
      rcases keeps k mover next start change with inv | ⟨result, found, good⟩
      · exact ih next.weight (weight ▸ lighter) inv rfl
      · exact .ended found good

end Kickoff

end CrewFlow.Crew
