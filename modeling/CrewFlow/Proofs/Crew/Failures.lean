import Mathlib
import CrewFlow.Proofs.Crew.Outputs
import CrewFlow.Proofs.Crew.Waiting
/-!
# Failures

Every error of a kickoff names its crew. A task whose name no other task has cannot fail unnoticed: the job of such a
task stays pending until the main line asks for its output, at the latest when it closes. So the kickoff comes to an
error however it goes on.
-/
set_option autoImplicit false

namespace CrewFlow.Crew

open Kickoff (Change Course Linked Move Placed PlacedBy HandedOutBefore Reply Settled setEntry)
open Text (Inputs)

namespace Kickoff

/-! ## Ends -/

/-- However a kickoff goes on, it comes to an end, and to one as it should be. -/
inductive Ends (right : Except ExecutionError CrewOutput → Prop) : Kickoff → Prop where
  | ended {k : Kickoff} {result : Except ExecutionError CrewOutput} (found : k.result? = some result)
      (good : right result) : Ends right k
  | onward {k : Kickoff} (movable : ∃ reply next, Move k reply next)
      (all : ∀ reply next, Move k reply next → Ends right next) : Ends right k

theorem ends_of_course {right : Except ExecutionError CrewOutput → Prop} (Led : List Reply → Kickoff → Prop)
    {crew : Crew} {inputs : Inputs} {replies : List Reply} {k : Kickoff}
    (course : Course (start crew inputs) replies k) (led : Led replies k)
    (keeps : ∀ {replies k reply next}, Course (start crew inputs) replies k → Led replies k → Move k reply next →
      Led (replies ++ reply.toList) next)
    (good : ∀ {replies k result}, Course (start crew inputs) replies k → Led replies k → k.result? = some result →
      right result) : Ends right k := by
  induction weight : k.weight using Nat.strong_induction_on generalizing replies k with
  | _ n ih =>
      cases found : k.result? with
      | some result => exact .ended found (good course led found)
      | none =>
          refine .onward ((linked_of_course course).free found).exists_move fun reply next move => ?_
          exact ih next.weight (weight ▸ move.weight_lt) (.further course move) (keeps course led move) rfl

end Kickoff

/-! ## Errors -/

theorem error_of_agentFor {crew : Crew} {t : CrewTask} {e : ExecutionError} (nobody : crew.agentFor t = .error e) :
    ∃ message, e = .crew crew.name message := by
  unfold Crew.agentFor at nobody
  split at nobody
  · cases nobody
  · cases nobody
  · split at nobody
    · cases nobody
    · cases nobody
      exact ⟨_, rfl⟩

section Errors
variable {crew : Crew} {inputs : Inputs} {replies : List Reply} {k next : Kickoff} {ask : Answers}
variable {mover : Option Nat}

def OwnError (k : Kickoff) : Prop :=
  ∀ e, k.main = .finished (.error e) → ∃ message, e = .crew k.crew.name message

theorem OwnError.of_change (own : OwnError k) (change : Change ask k mover next) : OwnError next := by
  intro e ended
  cases change with
  | unmanned main task nobody =>
      cases ended
      exact error_of_agentFor nobody
  | refused main outcome =>
      cases ended
      exact ⟨_, rfl⟩
  | broken awaits result =>
      cases ended
      exact ⟨_, rfl⟩
  | jobBegun standing phase => exact own e ended
  | jobGathered standing phase result => exact own e ended
  | jobBroken standing phase result => exact own e ended
  | jobAnswered standing phase => exact own e ended
  | _ => cases ended

theorem error_of_course (course : Course (Kickoff.start crew inputs) replies k) {e : ExecutionError}
    (failed : k.result? = some (.error e)) : ∃ message, e = .crew crew.name message := by
  have own : OwnError k := by
    refine Kickoff.invariant_of_course (fun _ k => OwnError k) ?_ ?_ ?_ course
    · intro e ended
      cases ended
    · exact fun _ own => own
    · exact fun own change => own.of_change change
  exact Kickoff.crew_of_course course ▸ own e (Kickoff.result?_eq_some failed)

theorem ComesTo.error_eq (forgetful : crew.embedder = none) {e : ExecutionError}
    (comes : ComesTo ask crew inputs (.error e)) : ∃ message, e = .crew crew.name message := by
  obtain ⟨k, reached, failed⟩ := comes
  have own : OwnError k := by
    refine Kickoff.invariant_of_reached forgetful ?_ ?_ reached
    · intro e ended
      cases ended
    · exact fun k mover next own change => own.of_change change
  rw [← (Kickoff.staffed_of_reached forgetful reached).ofCrew]
  exact own e (Kickoff.result?_eq_some failed)

end Errors

/-! ## Jobs of tasks with names of their own -/

/-- No other task of the crew has the name. -/
def Distinct (crew : Crew) (name : String) : Prop :=
  ∀ (i j : Nat) (t u : CrewTask), crew.tasks[i]? = some t → crew.tasks[j]? = some u →
    t.name = name → u.name = name → i = j

theorem Distinct.of_nodup {crew : Crew} (distinct : (crew.tasks.map (·.name)).Nodup) (name : String) :
    Distinct crew name :=
  fun _ _ _ _ first second same other => position_unique distinct first second (same.trans other.symm)

def StillAsks (name : String) : MainPhase → Prop
  | .closing names => name ∈ names
  | .finished result => ∃ e, result = .error e
  | _ => True

/-- The output of a job is pending under the name of its task. -/
structure Outstanding (k : Kickoff) (name : String) (j : Nat) : Prop where
  pending : k.pending.lookup name = some j
  absent : k.done.lookup name = none
  asks : StillAsks name k.main

/-- A job with a name of its own has come to an output, or its output is outstanding, or the kickoff has failed. -/
def Owed (k : Kickoff) : Prop :=
  ∀ (j : Nat) (job : Job), k.jobs[j]? = some job → Distinct k.crew job.task.name →
    (∃ o, job.phase = .finished (.ok o)) ∨ Outstanding k job.task.name j ∨ ∃ e, k.main = .finished (.error e)

section Steps
variable {k next : Kickoff} {name : String} {j : Nat}

theorem Outstanding.of_main (outstanding : Outstanding k name j) {main : MainPhase} (asks : StillAsks name main) :
    Outstanding { k with main } name j := ⟨outstanding.pending, outstanding.absent, asks⟩

theorem Outstanding.of_settled (outstanding : Outstanding k name j) {other : String} {o : Option TaskOutput}
    (settled : Settled k other o next) (apart : name ≠ other) {main : MainPhase} (asks : StillAsks name main) :
    Outstanding { next with main } name j := by
  cases settled with
  | done found => exact outstanding.of_main asks
  | yielded absent waiting result =>
      refine ⟨?_, ?_, asks⟩
      · rw [Kickoff.take, Json.Fields.lookup_filter]
        simp [apart, outstanding.pending]
      · rw [Kickoff.take, Kickoff.lookup_setEntry, if_neg apart]
        exact outstanding.absent
  | nothing absent unknown => exact outstanding.of_main asks

/-- The main line comes by what was outstanding only when the job has come to it. -/
theorem Outstanding.yields_of_settled (outstanding : Outstanding k name j) {o : Option TaskOutput}
    (settled : Settled k name o next) : ∃ o, k.jobResult? j = some (.ok o) := by
  cases settled with
  | done found => cases outstanding.absent.symm.trans found
  | yielded absent waiting result =>
      cases outstanding.pending.symm.trans waiting
      exact ⟨_, result⟩
  | nothing absent unknown => cases outstanding.pending.symm.trans unknown

def DoneBefore (k : Kickoff) (p : Nat) : Prop :=
  ∀ name, (k.done.lookup name).isSome → ∃ t ∈ k.crew.tasks.take p, t.name = name

def DoneTaken (k : Kickoff) : MainPhase → Prop
  | .taking p => DoneBefore k p
  | .gathering p .. => DoneBefore k p
  | .working p _ => DoneBefore k p
  | _ => True

theorem DoneTaken.of_change {crew : Crew} {inputs : Inputs} {replies : List Reply} {ask : Answers}
    {mover : Option Nat} (taken : DoneTaken k k.main) (stored : Stored crew inputs replies k) (placed : Placed k)
    (change : Change ask k mover next) : DoneTaken next next.main := by
  unfold Placed at placed
  cases change with
  | unmanned main task nobody => trivial
  | refused main outcome => trivial
  | broken awaits result => trivial
  | ended main => trivial
  | allTaken main last => trivial
  | closed main settled => trivial
  | @handedOut p t agent main task owner async =>
      rw [main] at taken
      intro name done
      obtain ⟨t', earlier, named⟩ := taken name done
      exact ⟨t', (List.take_prefix_take_left p.le_succ).subset earlier, named⟩
  | takenUp main task owner inLine =>
      rw [main] at taken
      exact taken
  | @gathered p t agent context name names o behind main settled =>
      rw [main] at taken placed
      cases placed with
      | gathering jobs task inLine =>
          intro other done
          cases settled with
          | done found => exact taken other done
          | nothing absent unknown => exact taken other done
          | @yielded o j absent waiting result =>
              dsimp only [Kickoff.take] at done
              rw [Kickoff.lookup_setEntry] at done
              split at done
              · next same =>
                  -- A job has yielded it, and jobs are for tasks in front of the position.
                  obtain ⟨job, there, named⟩ := stored.pending name j waiting
                  obtain ⟨q, before, place, _⟩ := jobs.place there
                  refine ⟨job.task, ?_, named.trans same.symm⟩
                  apply List.mem_of_getElem? (i := q)
                  rw [List.getElem?_take, if_pos before]
                  exact (task_of_apart place).1
              · exact taken other done
  | begun main =>
      rw [main] at taken
      exact taken
  | @answered p w o main outcome =>
      rw [main] at taken placed
      cases placed with
      | working jobs task inLine =>
          intro name done
          rw [Kickoff.lookup_setEntry] at done
          dsimp only
          rw [List.take_add_one, task]
          split at done
          · next same => exact ⟨w.task, by simp, same.symm⟩
          · obtain ⟨t, earlier, named⟩ := taken name done
            exact ⟨t, List.mem_append_left _ earlier, named⟩
  | jobBegun standing phase => exact taken
  | jobGathered standing phase result => exact taken
  | jobBroken standing phase result => exact taken
  | jobAnswered standing phase => exact taken

theorem finished_of_jobResult? {job : Job} {result : Except ExecutionError TaskOutput}
    (standing : k.jobs[j]? = some job) (found : k.jobResult? j = some result) : job.phase = .finished result := by
  obtain ⟨there, same, phase⟩ := Kickoff.jobResult?_eq_some found
  cases standing.symm.trans same
  exact phase

theorem Owed.of_setPhase {job : Job} {phase : JobPhase} (owed : Owed k) (standing : k.jobs[j]? = some job)
    (running : ∀ o, job.phase ≠ .finished (.ok o)) : Owed (k.setPhase j phase) := by
  intro i other there own
  have kept : ∀ {name}, Outstanding k name i → Outstanding (k.setPhase j phase) name i :=
    fun outstanding => ⟨outstanding.pending, outstanding.absent, outstanding.asks⟩
  obtain ⟨old, before, ⟨rfl, rfl⟩ | ⟨_, rfl⟩⟩ := Kickoff.job_of_setPhase there
  · cases standing.symm.trans before
    rcases owed i job standing own with ⟨o, finished⟩ | outstanding | failed
    · exact absurd finished (running o)
    · exact .inr (.inl (kept outstanding))
    · exact .inr (.inr failed)
  · exact (owed i _ before own).imp_right (Or.imp_left kept)

theorem name_ne_of_placed {p : Nat} {t : CrewTask} {job : Job} (jobs : HandedOutBefore k p)
    (task : k.crew.tasks[p]? = some t) (standing : k.jobs[j]? = some job) (own : Distinct k.crew job.task.name) :
    job.task.name ≠ t.name := by
  intro same
  obtain ⟨q, before, place, _⟩ := jobs.place standing
  have unique := own q p job.task t (task_of_apart place).1 task rfl same.symm
  omega

theorem Owed.withMain (owed : Owed k) {main : MainPhase} (going : ∀ e, k.main ≠ .finished (.error e))
    (asks : ∀ name j, Outstanding k name j → StillAsks name main ∨ ∃ e, main = .finished (.error e)) :
    Owed { k with main } := by
  intro i job there own
  rcases owed i job there own with finished | outstanding | ⟨e, failed⟩
  · exact .inl finished
  · exact .inr ((asks _ i outstanding).imp_left outstanding.of_main)
  · exact absurd failed (going e)

theorem Owed.of_settled (owed : Owed k) {o : Option TaskOutput} (settled : Settled k name o next)
    {main : MainPhase} (going : ∀ e, k.main ≠ .finished (.error e))
    (asks : ∀ other, other ≠ name → StillAsks other k.main → StillAsks other main) :
    Owed { next with main } := by
  intro i job there own
  have there : k.jobs[i]? = some job := settled.frame.2.2.2.1 ▸ there
  have own : Distinct k.crew job.task.name := settled.frame.1 ▸ own
  rcases owed i job there own with finished | outstanding | ⟨e, failed⟩
  · exact .inl finished
  · by_cases here : job.task.name = name
    · obtain ⟨o, result⟩ := (here ▸ outstanding).yields_of_settled settled
      exact .inl ⟨o, finished_of_jobResult? there result⟩
    · exact .inr (.inl (outstanding.of_settled settled here (asks _ here outstanding.asks)))
  · exact absurd failed (going e)

theorem Owed.of_handedOut (owed : Owed k) {p : Nat} {t : CrewTask} {agent : Agent} (jobs : HandedOutBefore k p)
    (taken : DoneBefore k p) (main : k.main = .taking p) (task : k.crew.tasks[p]? = some t) :
    Owed (k.handedOut p t agent) := by
  intro i job there own
  rcases Kickoff.job_of_handedOut there with old | ⟨rfl, rfl⟩
  · have other := name_ne_of_placed jobs task old own
    rcases owed i job old own with finished | outstanding | ⟨e, failed⟩
    · exact .inl finished
    · refine .inr (.inl ⟨?_, outstanding.absent, trivial⟩)
      rw [Kickoff.handedOut, Kickoff.lookup_setEntry, if_neg other, outstanding.pending]
    · cases main.symm.trans failed
  · refine .inr (.inl ⟨?_, ?_, trivial⟩)
    · rw [Kickoff.handedOut, Kickoff.lookup_setEntry, if_pos rfl]
    · -- What is done has been taken up before, and nothing of this name has.
      refine Option.not_isSome_iff_eq_none.mp fun done => ?_
      obtain ⟨other, earlier, named⟩ := taken t.name done
      obtain ⟨q, place⟩ := List.mem_iff_getElem?.mp earlier
      rw [List.getElem?_take] at place
      split at place
      · next before =>
          have unique := own q p other t place task named rfl
          omega
      · cases place

theorem Owed.of_change {ask : Answers} {mover : Option Nat} (owed : Owed k) (placed : Placed k)
    (taken : DoneTaken k k.main) (change : Change ask k mover next) : Owed next := by
  unfold Placed at placed
  cases change with
  | unmanned main task nobody => exact owed.withMain (by simp [main]) fun _ _ _ => .inr ⟨_, rfl⟩
  | refused main outcome => exact owed.withMain (by simp [main]) fun _ _ _ => .inr ⟨_, rfl⟩
  | takenUp main task owner inLine => exact owed.withMain (by simp [main]) fun _ _ _ => .inl trivial
  | begun main => exact owed.withMain (by simp [main]) fun _ _ _ => .inl trivial
  | broken awaits result => exact fun _ _ _ _ => .inr (.inr ⟨_, rfl⟩)
  | ended main =>
      refine owed.withMain (by simp [main]) fun name j outstanding => ?_
      have asks := outstanding.asks
      rw [main] at asks
      cases asks
  | allTaken main last =>
      refine owed.withMain (by simp [main]) fun name j outstanding => .inl ?_
      exact List.mem_map_of_mem (Json.Fields.mem_of_lookup outstanding.pending)
  | handedOut main task owner async =>
      rw [main] at placed taken
      cases placed with
      | taking jobs => exact owed.of_handedOut jobs taken main task
  | gathered main settled => exact owed.of_settled settled (by simp [main]) fun _ _ _ => trivial
  | @answered p w o main outcome =>
      rw [main] at placed
      cases placed with
      | working jobs task inLine =>
          intro i job there own
          have other := name_ne_of_placed jobs task there own
          rcases owed i job there own with finished | outstanding | ⟨e, failed⟩
          · exact .inl finished
          · refine .inr (.inl ⟨outstanding.pending, ?_, trivial⟩)
            rw [Kickoff.lookup_setEntry, if_neg other]
            exact outstanding.absent
          · cases main.symm.trans failed
  | closed main settled =>
      refine owed.of_settled settled (by simp [main]) fun other apart asks => ?_
      rw [main] at asks
      exact (List.mem_cons.mp asks).resolve_left apart
  | jobBegun standing phase => exact owed.of_setPhase standing (by simp [phase])
  | jobGathered standing phase result => exact owed.of_setPhase standing (by simp [phase])
  | jobBroken standing phase result => exact owed.of_setPhase standing (by simp [phase])
  | jobAnswered standing phase => exact owed.of_setPhase standing (by simp [phase])

/-! ## What stays -/

theorem main_of_ended {ask : Answers} {mover : Option Nat} {result : Except ExecutionError CrewOutput}
    (ended : k.main = .finished result) (change : Change ask k mover next) : next.main = .finished result := by
  cases change with
  | jobBegun standing phase => exact ended
  | jobGathered standing phase result => exact ended
  | jobBroken standing phase result => exact ended
  | jobAnswered standing phase => exact ended
  | broken awaits result => simp [Kickoff.mainAwaits?, ended] at awaits
  | unmanned main task nobody => cases main.symm.trans ended
  | handedOut main task owner async => cases main.symm.trans ended
  | takenUp main task owner inLine => cases main.symm.trans ended
  | allTaken main last => cases main.symm.trans ended
  | gathered main settled => cases main.symm.trans ended
  | begun main => cases main.symm.trans ended
  | answered main outcome => cases main.symm.trans ended
  | refused main outcome => cases main.symm.trans ended
  | closed main settled => cases main.symm.trans ended
  | ended main => cases main.symm.trans ended

theorem result?_of_move {reply : Option Reply} {result : Except ExecutionError CrewOutput}
    (ended : k.result? = some result) (move : Move k reply next) : next.result? = some result := by
  have main := Kickoff.result?_eq_some ended
  obtain ⟨ask, memory, mover, change, _⟩ := move.exists_change
  have before : ({ k with memory } : Kickoff).main = .finished result := main
  rw [Kickoff.result?, main_of_ended before change]

theorem Kickoff.Ends.right_of_result? {right : Except ExecutionError CrewOutput → Prop} (ends : k.Ends right)
    {result : Except ExecutionError CrewOutput} (found : k.result? = some result) : right result := by
  induction ends with
  | ended earlier good =>
      cases earlier.symm.trans found
      exact good
  | onward movable all ih =>
      obtain ⟨reply, next, move⟩ := movable
      exact ih reply next move (result?_of_move found move)

theorem job_of_finished {ask : Answers} {mover : Option Nat} {job : Job}
    {result : Except ExecutionError TaskOutput} (standing : k.jobs[j]? = some job)
    (finished : job.phase = .finished result) (change : Change ask k mover next) : next.jobs[j]? = some job := by
  have below := (List.getElem?_eq_some_iff.mp standing).1
  have apart : mover ≠ some j := by
    rintro rfl
    cases change with
    | jobBegun there phase =>
        cases standing.symm.trans there
        cases finished.symm.trans phase
    | jobGathered there phase result =>
        cases standing.symm.trans there
        cases finished.symm.trans phase
    | jobBroken there phase result =>
        cases standing.symm.trans there
        cases finished.symm.trans phase
    | jobAnswered there phase =>
        cases standing.symm.trans there
        cases finished.symm.trans phase
  rw [Kickoff.job_of_change change apart below, standing]

end Steps

/-! ## Failures -/

section Failed
variable (crew : Crew) (replies : List Reply)

def JobFailed (k : Kickoff) (t : CrewTask) : Prop :=
  ∃ (j : Nat) (job : Job) (e : ExecutionError), k.jobs[j]? = some job ∧ job.task = t ∧ job.phase = .finished (.error e)

/-- A task has failed: an agent has replied with an error, its job has ended with one, or no agent runs it. -/
inductive Failed (k : Kickoff) (t : CrewTask) : Prop where
  | refused {w : Work} {message : String} (heard : (w, .error message) ∈ replies) (task : w.task = t)
  | broken (job : JobFailed k t)
  | unmanned {e : ExecutionError} (member : t ∈ crew.tasks) (nobody : crew.agentFor t = .error e)

def Noted (k : Kickoff) : Prop :=
  ∀ w message, (w, .error message) ∈ replies → (∃ e, k.main = .finished (.error e)) ∨ JobFailed k w.task

end Failed

section Ends
variable {crew : Crew} {inputs : Inputs} {replies : List Reply} {k next : Kickoff} {t : CrewTask}
variable {ask : Answers} {mover : Option Nat}

theorem JobFailed.of_change (failed : JobFailed k t) (change : Change ask k mover next) : JobFailed next t := by
  obtain ⟨j, job, e, standing, task, finished⟩ := failed
  exact ⟨j, job, e, job_of_finished standing finished change, task, finished⟩

theorem failed_of_answer {w : Work} {message : String} (stored : Stored crew inputs replies k)
    (working : k.workOn? mover = some w) (answer : w.answer ask = .error message)
    (change : Change ask k mover next) : (∃ e, next.main = .finished (.error e)) ∨ JobFailed next w.task := by
  cases mover with
  | none =>
      obtain ⟨p, main⟩ := Kickoff.mainWork?_eq_some working
      cases change with
      | unmanned phase task nobody => exact .inl ⟨_, rfl⟩
      | refused phase outcome => exact .inl ⟨_, rfl⟩
      | broken awaits result => exact .inl ⟨_, rfl⟩
      | answered phase outcome =>
          cases main.symm.trans phase
          rw [answer] at outcome
          cases outcome
      | handedOut phase task owner async => cases main.symm.trans phase
      | takenUp phase task owner inLine => cases main.symm.trans phase
      | allTaken phase last => cases main.symm.trans phase
      | gathered phase settled => cases main.symm.trans phase
      | begun phase => cases main.symm.trans phase
      | closed phase settled => cases main.symm.trans phase
      | ended phase => cases main.symm.trans phase
  | some j =>
      obtain ⟨job, standing, phase⟩ := Kickoff.jobWork?_eq_some working
      cases change with
      | jobBegun there other =>
          cases standing.symm.trans there
          cases phase.symm.trans other
      | jobGathered there other result =>
          cases standing.symm.trans there
          cases phase.symm.trans other
      | jobBroken there other result =>
          cases standing.symm.trans there
          cases phase.symm.trans other
      | jobAnswered there other =>
          cases standing.symm.trans there
          cases phase.symm.trans other
          have works := ((stored.jobs job (List.mem_of_getElem? standing)).works w phase).task
          refine .inr ⟨j, { job with phase := .finished (.error (.task w.task.name message)) }, _, ?_, works.symm, rfl⟩
          rw [Kickoff.setPhase, List.getElem?_modify_eq, standing, answer]
          rfl

theorem Noted.of_change (noted : Noted replies k) (stored : Stored crew inputs replies k)
    (change : Change ask k mover next) : Noted (replies ++ (Kickoff.heardFrom ask k mover).toList) next := by
  intro w message heard
  rcases List.mem_append.mp heard with before | now
  · rcases noted w message before with ⟨e, ended⟩ | failed
    · exact .inl ⟨e, main_of_ended ended change⟩
    · exact .inr (failed.of_change change)
  · obtain ⟨w', working, same⟩ := Option.map_eq_some_iff.mp (Option.mem_toList.mp now)
    obtain ⟨rfl, answer⟩ := Prod.mk.inj same
    exact failed_of_answer stored working answer change

/-- What a course leads to: no failure is lost on the way. -/
theorem owed_of_course (course : Course (Kickoff.start crew inputs) replies k) : Owed k ∧ Noted replies k := by
  have known : Traced crew inputs replies k ∧ Placed k ∧ DoneTaken k k.main ∧ Owed k ∧ Noted replies k := by
    refine Kickoff.invariant_of_course
      (fun replies k => Traced crew inputs replies k ∧ Placed k ∧ DoneTaken k k.main ∧ Owed k ∧ Noted replies k)
      ⟨traced_start, .taking rfl, ?_, ?_, ?_⟩ ?_ ?_ course
    · intro name done
      cases done
    · intro j job standing
      cases standing
    · intro w message heard
      cases heard
    · rintro replies k memory ⟨traced, placed, taken, owed, noted⟩
      refine ⟨traced.withMemory memory, placed.of_same rfl fun _ => id, taken, fun j job standing own => ?_, noted⟩
      exact (owed j job standing own).imp_right (Or.imp_left fun o => ⟨o.pending, o.absent, o.asks⟩)
    · rintro replies ask k mover next ⟨traced, placed, taken, owed, noted⟩ change
      exact ⟨traced.after change, placed.of_change change, taken.of_change traced.stored placed change,
        owed.of_change placed taken change, noted.of_change traced.stored change⟩
  exact known.2.2.2

theorem Failed.of_move {reply : Option Reply} (failed : Failed crew replies k t) (move : Move k reply next) :
    Failed crew (replies ++ reply.toList) next t := by
  cases failed with
  | refused heard task => exact .refused (List.mem_append_left _ heard) task
  | unmanned member nobody => exact .unmanned member nobody
  | broken job =>
      obtain ⟨ask, memory, mover, change, _⟩ := move.exists_change
      have before : JobFailed { k with memory } t := job
      exact .broken (before.of_change change)

theorem Failed.not_ok (failed : Failed crew replies k t) (own : Distinct crew t.name)
    (course : Course (Kickoff.start crew inputs) replies k) {out : CrewOutput} :
    k.result? ≠ some (.ok out) := by
  intro ended
  obtain ⟨owed, noted⟩ := owed_of_course course
  have main := Kickoff.result?_eq_some ended
  -- The output of a job with an error would still have to be asked for.
  have sound : ¬JobFailed k t := by
    rintro ⟨j, job, e, standing, rfl, finished⟩
    rcases owed j job standing (Kickoff.crew_of_course course ▸ own) with ⟨o, good⟩ | outstanding | ⟨e, bad⟩
    · cases finished.symm.trans good
    · have asks := outstanding.asks
      rw [main] at asks
      obtain ⟨e, bad⟩ := asks
      cases bad
    · cases main.symm.trans bad
  cases failed with
  | broken job => exact sound job
  | refused heard task =>
      rcases noted _ _ heard with ⟨e, bad⟩ | job
      · cases main.symm.trans bad
      · exact sound (task ▸ job)
  | unmanned member nobody =>
      have once := oncePerName_of_course course ended
      have listed : t.name ∈ (crew.tasks.map (·.name)).eraseDups :=
        List.mem_eraseDups.mpr (List.mem_map_of_mem member)
      obtain ⟨n, here⟩ := List.mem_iff_get.mp listed
      obtain ⟨other, there, named, w, answer, _, works, _⟩ := once.outputs.get n.2 (once.outputs.length_eq ▸ n.2)
      obtain ⟨i, first⟩ := List.mem_iff_getElem?.mp member
      obtain ⟨j, second⟩ := List.mem_iff_getElem?.mp there
      cases own i j t other first second rfl (named.trans here)
      cases first.symm.trans second
      cases nobody.symm.trans works.agent

/-- However a kickoff goes on in which a task with a name of its own has failed, it ends with an error of its crew. -/
theorem Failed.ends (failed : Failed crew replies k t) (own : Distinct crew t.name)
    (course : Course (Kickoff.start crew inputs) replies k) :
    k.Ends fun result => ∃ message, result = .error (.crew crew.name message) := by
  refine Kickoff.ends_of_course (fun replies k => Failed crew replies k t) course failed ?_ ?_
  · exact fun _ failed move => failed.of_move move
  · intro replies k result course failed ended
    cases result with
    | ok out => exact absurd ended (failed.not_ok own course)
    | error e =>
        obtain ⟨message, rfl⟩ := error_of_course course ended
        exact ⟨message, rfl⟩

end Ends

end CrewFlow.Crew
