import Mathlib
import CrewFlow.Proofs.Crew.Outputs
import CrewFlow.Proofs.Crew.Places
/-!
# Every task is answered once

Where the tasks of a crew have different names, a course hears at most one reply about each of them: a task
that is ahead of the main line has not been answered, and neither has one whose job is not over.
-/
set_option autoImplicit false

namespace CrewFlow.Crew

open Kickoff (Change Course Placed PlacedBy HandedOutBefore Reply)
open Text (Inputs)

def answeredNames (replies : List Reply) : List String := replies.map fun r => r.1.task.name

/-- The output under a name that was heard. -/
def outputOf? (replies : List Reply) (name : String) : Option TaskOutput :=
  (replies.find? fun r => r.1.task.name == name).bind fun r => (r.1.outcome r.2).toOption

def MainPhase.position? : MainPhase → Option Nat
  | .taking p => some p
  | .gathering p _ _ _ _ => some p
  | .working p _ => some p
  | .closing _ => none
  | .finished _ => none

/-- No task was answered twice, and none that is ahead or whose job is not over was answered at all. -/
structure AnsweredOnce (crew : Crew) (replies : List Reply) (k : Kickoff) : Prop where
  once : (answeredNames replies).Nodup
  ahead : ∀ p, k.main.position? = some p → ∀ i t, p ≤ i → crew.tasks[i]? = some t →
    t.name ∉ answeredNames replies
  underway : ∀ (j : Nat) job, k.jobs[j]? = some job → (∀ result, job.phase ≠ .finished result) →
    job.task.name ∉ answeredNames replies

section Steps
variable {crew : Crew} {inputs : Inputs} {replies : List Reply} {k next : Kickoff}

theorem answeredNames_heard (r : Reply) :
    answeredNames (replies ++ [r]) = answeredNames replies ++ [r.1.task.name] := List.map_append

theorem nodup_answeredNames_heard {r : Reply} (once : (answeredNames replies).Nodup)
    (new : r.1.task.name ∉ answeredNames replies) : (answeredNames (replies ++ [r])).Nodup := by
  rw [answeredNames_heard]
  refine once.append (List.nodup_singleton _) fun name earlier last => new ?_
  rwa [List.mem_singleton.mp last] at earlier

theorem not_mem_answeredNames_heard {r : Reply} {name : String} (unheard : name ∉ answeredNames replies)
    (other : name ≠ r.1.task.name) : name ∉ answeredNames (replies ++ [r]) := by
  rw [answeredNames_heard, List.mem_append, List.mem_singleton]
  exact not_or.mpr ⟨unheard, other⟩

theorem Kickoff.PlacedBy.handedOut_of_position {main : MainPhase} {p : Nat} (placed : PlacedBy k main)
    (position : main.position? = some p) : HandedOutBefore k p := by
  cases placed with
  | taking jobs => exact Option.some.inj position ▸ jobs
  | gathering jobs task inLine => exact Option.some.inj position ▸ jobs
  | working jobs task inLine => exact Option.some.inj position ▸ jobs
  | closing jobs => cases position
  | finished jobs => cases position

section Distinct
variable (distinct : (k.crew.tasks.map (·.name)).Nodup)
include distinct

theorem Kickoff.HandedOutBefore.name_ne {p i j : Nat} {job : Job} {t : CrewTask} (jobs : HandedOutBefore k p)
    (standing : k.jobs[j]? = some job) (onward : p ≤ i) (task : k.crew.tasks[i]? = some t) :
    t.name ≠ job.task.name := by
  obtain ⟨q, before, place, _⟩ := jobs.place standing
  intro same
  have position := position_unique distinct task (task_of_apart place).1 same
  omega

theorem Kickoff.HandedOutBefore.name_ne_name {p i j : Nat} {job other : Job} (jobs : HandedOutBefore k p)
    (standing : k.jobs[j]? = some job) (there : k.jobs[i]? = some other) (apart : i ≠ j) :
    other.task.name ≠ job.task.name := by
  obtain ⟨q, _, place, _⟩ := jobs.place standing
  obtain ⟨r, _, place', _⟩ := jobs.place there
  intro same
  have position := position_unique distinct (task_of_apart place').1 (task_of_apart place).1 same
  rcases Nat.lt_or_gt_of_ne apart with less | greater
  · have := place_lt_place less place' place
    omega
  · have := place_lt_place greater place place'
    omega

end Distinct

theorem Kickoff.heardFrom_of_work {mover : Option Nat} {w : Work} (ask : Answers) (work : k.workOn? mover = some w) :
    Kickoff.heardFrom ask k mover = some (w, w.answer ask) := by
  rw [heardFrom, work]
  rfl

theorem Kickoff.workOn?_of_working {p : Nat} {w : Work} (phase : k.main = .working p w) :
    k.workOn? none = some w := by
  rw [workOn?, mainWork?, phase]

theorem Kickoff.workOn?_of_idle (idle : ∀ p w, k.main ≠ .working p w) : k.workOn? none = none := by
  rw [workOn?, mainWork?]
  split
  · next p w phase => exact absurd phase (idle p w)
  · rfl

theorem Kickoff.heardFrom_of_idle {mover : Option Nat} (ask : Answers) (idle : k.workOn? mover = none) :
    replies ++ (Kickoff.heardFrom ask k mover).toList = replies := by
  rw [heardFrom, idle]
  exact List.append_nil replies

theorem AnsweredOnce.withMain (answered : AnsweredOnce crew replies k) (ask : Answers)
    (idle : ∀ p w, k.main ≠ .working p w) (jobs : next.jobs = k.jobs)
    (ahead : ∀ p, next.main.position? = some p → ∃ q ≤ p, k.main.position? = some q) :
    AnsweredOnce crew (replies ++ (Kickoff.heardFrom ask k none).toList) next := by
  rw [Kickoff.heardFrom_of_idle ask (Kickoff.workOn?_of_idle idle)]
  refine ⟨answered.once, ?_, by rw [jobs]; exact answered.underway⟩
  intro p position i t onward task
  obtain ⟨q, before, earlier⟩ := ahead p position
  exact answered.ahead q earlier i t (before.trans onward) task

theorem AnsweredOnce.of_setPhase {j : Nat} {job : Job} {phase : JobPhase} (answered : AnsweredOnce crew replies k)
    (ask : Answers) (standing : k.jobs[j]? = some job) {context : List TaskOutput} {awaited : List Nat}
    (gathers : job.phase = .gathering context awaited) :
    AnsweredOnce crew (replies ++ (Kickoff.heardFrom ask k (some j)).toList) (k.setPhase j phase) := by
  have idle : k.workOn? (some j) = none := by
    rw [Kickoff.workOn?, Kickoff.jobWork?_eq, standing, Option.bind_some, gathers]
  rw [Kickoff.heardFrom_of_idle ask idle]
  refine ⟨answered.once, answered.ahead, ?_⟩
  intro i other there unfinished
  obtain ⟨old, before, ⟨rfl, rfl⟩ | ⟨_, rfl⟩⟩ := Kickoff.job_of_setPhase there
  · cases standing.symm.trans before
    exact answered.underway i job standing (by simp [gathers])
  · exact answered.underway i _ before unfinished

/-- The next task is handed out. It has not been answered, as it was ahead. -/
theorem AnsweredOnce.of_handedOut {p : Nat} {t : CrewTask} {agent : Agent} (answered : AnsweredOnce crew replies k)
    (ask : Answers) (main : k.main = .taking p) (task : crew.tasks[p]? = some t) :
    AnsweredOnce crew (replies ++ (Kickoff.heardFrom ask k none).toList) (k.handedOut p t agent) := by
  rw [Kickoff.heardFrom_of_idle ask (Kickoff.workOn?_of_idle (by simp [main]))]
  refine ⟨answered.once, ?_, ?_⟩
  · intro q position i t' onward here
    cases position
    exact answered.ahead p (by rw [main]; rfl) i t' (by omega) here
  · intro j job standing unfinished
    rcases Kickoff.job_of_handedOut standing with old | ⟨rfl, rfl⟩
    · exact answered.underway j job old unfinished
    · exact answered.ahead p (by rw [main]; rfl) p t le_rfl task

theorem AnsweredOnce.of_mainAnswered {p : Nat} {w : Work} {answer : Except String String}
    (answered : AnsweredOnce k.crew replies k) (distinct : (k.crew.tasks.map (·.name)).Nodup)
    (placed : Placed k) (main : k.main = .working p w) (jobs : next.jobs = k.jobs)
    (position : ∀ q, next.main.position? = some q → q = p + 1) :
    AnsweredOnce k.crew (replies ++ [(w, answer)]) next := by
  unfold Placed at placed
  rw [main] at placed
  cases placed with
  | working handedOut task inLine =>
      have new := answered.ahead p (by rw [main]; rfl) p w.task le_rfl task
      refine ⟨nodup_answeredNames_heard answered.once new, ?_, ?_⟩
      · intro q ahead i t onward here
        obtain rfl := position q ahead
        refine not_mem_answeredNames_heard (answered.ahead p (by rw [main]; rfl) i t (by omega) here) ?_
        intro same
        have := position_unique distinct here task same
        omega
      · intro j job standing unfinished
        rw [jobs] at standing
        exact not_mem_answeredNames_heard (answered.underway j job standing unfinished)
          (handedOut.name_ne distinct standing le_rfl task).symm

theorem AnsweredOnce.of_jobAnswered {j : Nat} {job : Job} {w : Work} {answer : Except String String}
    {phase : JobPhase} (answered : AnsweredOnce k.crew replies k) (distinct : (k.crew.tasks.map (·.name)).Nodup)
    (placed : Placed k) (standing : k.jobs[j]? = some job) (works : job.phase = .working w)
    (task : w.task = job.task) (ends : ∃ result, phase = .finished result) :
    AnsweredOnce k.crew (replies ++ [(w, answer)]) (k.setPhase j phase) := by
  have new : w.task.name ∉ answeredNames replies :=
    task ▸ answered.underway j job standing (by simp [works])
  refine ⟨nodup_answeredNames_heard answered.once new, ?_, ?_⟩
  · intro p position i t onward here
    refine not_mem_answeredNames_heard (answered.ahead p position i t onward here) ?_
    rw [task]
    exact (placed.handedOut_of_position position).name_ne distinct standing onward here
  · intro i other there unfinished
    obtain ⟨old, before, ⟨rfl, rfl⟩ | ⟨elsewhere, rfl⟩⟩ := Kickoff.job_of_setPhase there
    · obtain ⟨result, rfl⟩ := ends
      exact absurd rfl (unfinished result)
    · refine not_mem_answeredNames_heard (answered.underway i _ before unfinished) ?_
      obtain ⟨p, jobs⟩ := PlacedBy.handedOut placed
      rw [task]
      exact jobs.name_ne_name distinct standing before elsewhere

theorem AnsweredOnce.of_change {ask : Answers} {mover : Option Nat} (answered : AnsweredOnce crew replies k)
    (distinct : (crew.tasks.map (·.name)).Nodup) (traced : Traced crew inputs replies k) (placed : Placed k)
    (change : Change ask k mover next) :
    AnsweredOnce crew (replies ++ (Kickoff.heardFrom ask k mover).toList) next := by
  obtain rfl : k.crew = crew := traced.stored.ofCrew
  cases change with
  | unmanned phase task nobody =>
      exact answered.withMain ask (by simp [phase]) rfl
        (by simp [Kickoff.fail, MainPhase.position?])
  | handedOut phase task owner async => exact answered.of_handedOut ask phase task
  | takenUp phase task owner inLine =>
      exact answered.withMain ask (by simp [phase]) rfl (by simp [phase, MainPhase.position?])
  | allTaken phase last =>
      exact answered.withMain ask (by simp [phase]) rfl (by simp [MainPhase.position?])
  | gathered phase settled =>
      exact answered.withMain ask (by simp [phase]) settled.frame.2.2.2.1
        (by simp [phase, MainPhase.position?])
  | begun phase =>
      exact answered.withMain ask (by simp [phase]) rfl (by simp [phase, MainPhase.position?])
  | @answered p w o phase outcome =>
      rw [Kickoff.heardFrom_of_work ask (Kickoff.workOn?_of_working phase)]
      exact answered.of_mainAnswered distinct placed phase rfl fun q position => (Option.some.inj position).symm
  | @refused p w e phase outcome =>
      rw [Kickoff.heardFrom_of_work ask (Kickoff.workOn?_of_working phase)]
      exact answered.of_mainAnswered distinct placed phase rfl fun q position => by cases position
  | closed phase settled =>
      exact answered.withMain ask (by simp [phase]) settled.frame.2.2.2.1
        (by simp [MainPhase.position?])
  | broken awaits result =>
      have idle (p : Nat) (w : Work) : k.main ≠ .working p w := by
        intro phase
        simp [Kickoff.mainAwaits?, phase] at awaits
      exact answered.withMain ask idle rfl (by simp [Kickoff.fail, MainPhase.position?])
  | ended phase =>
      exact answered.withMain ask (by simp [phase]) rfl (by simp [MainPhase.position?])
  | jobBegun standing phase => exact answered.of_setPhase ask standing phase
  | jobGathered standing phase result => exact answered.of_setPhase ask standing phase
  | jobBroken standing phase result => exact answered.of_setPhase ask standing phase
  | @jobAnswered j job w standing phase =>
      have work : k.workOn? (some j) = some w := by
        rw [Kickoff.workOn?, Kickoff.jobWork?_eq, standing, Option.bind_some, phase]
      have works := (traced.stored.jobs job (List.mem_of_getElem? standing)).works w phase
      rw [Kickoff.heardFrom_of_work ask work]
      exact answered.of_jobAnswered distinct placed standing phase works.task ⟨_, rfl⟩

theorem answeredOnce_of_course (distinct : (crew.tasks.map (·.name)).Nodup)
    (course : Course (Kickoff.start crew inputs) replies k) : AnsweredOnce crew replies k := by
  have known : Traced crew inputs replies k ∧ Placed k ∧ AnsweredOnce crew replies k := by
    refine Kickoff.invariant_of_course
      (fun replies k => Traced crew inputs replies k ∧ Placed k ∧ AnsweredOnce crew replies k)
      ⟨traced_start, .taking rfl, ?_⟩ ?_ ?_ course
    · exact ⟨List.nodup_nil, by simp [answeredNames], by simp [answeredNames]⟩
    · rintro replies k memory ⟨traced, placed, answered⟩
      exact ⟨traced.withMemory memory, placed.of_same rfl fun _ => id,
        answered.once, answered.ahead, answered.underway⟩
    · rintro replies ask k mover next ⟨traced, placed, answered⟩ change
      exact ⟨traced.after change, placed.of_change change, answered.of_change distinct traced placed change⟩
  exact known.2.2

theorem outputOf?_of_mem (once : (answeredNames replies).Nodup) {w : Work} {answer : Except String String}
    (heard : (w, answer) ∈ replies) : outputOf? replies w.task.name = (w.outcome answer).toOption := by
  have first : replies.find? (fun r => r.1.task.name == w.task.name) = some (w, answer) := by
    induction replies with
    | nil => cases heard
    | cons r rest ih =>
        obtain ⟨new, onward⟩ := List.nodup_cons.mp once
        rcases List.mem_cons.mp heard with rfl | later
        · exact List.find?_cons_of_pos (by simp)
        · have other : r.1.task.name ≠ w.task.name := by
            intro same
            exact new (List.mem_map.mpr ⟨(w, answer), later, same.symm⟩)
          rw [List.find?_cons_of_neg (by simpa using other)]
          exact ih onward later
  rw [outputOf?, first]
  rfl

theorem YieldedUnder.outputOf?_eq (once : (answeredNames replies).Nodup) {name : String} {o : TaskOutput}
    (yielded : YieldedUnder crew inputs replies name o) : outputOf? replies name = some o := by
  obtain ⟨t, _, rfl, w, answer, heard, works, outcome⟩ := yielded
  have found := outputOf?_of_mem once heard
  rw [outcome, works.task] at found
  exact found

theorem name_of_outputOf? {name : String} {o : TaskOutput} (found : outputOf? replies name = some o) :
    o.name = name := by
  obtain ⟨⟨w, answer⟩, heard, yields⟩ := Option.bind_eq_some_iff.mp found
  have named : w.task.name = name := by simpa using List.find?_some heard
  cases outcome : w.outcome answer with
  | error e => simp [outcome, Except.toOption] at yields
  | ok o' =>
      obtain rfl : o' = o := by simpa [outcome, Except.toOption] using yields
      exact (Work.name_of_outcome outcome).trans named

end Steps

end CrewFlow.Crew
