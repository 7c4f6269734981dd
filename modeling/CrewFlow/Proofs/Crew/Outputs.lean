import Mathlib
import CrewFlow.Proofs.Crew.AnyOrder
import CrewFlow.Proofs.Crew.Course
/-!
# Outputs of kickoffs

Outputs are kept by the names of tasks. A kickoff that ends well has an output for each name among its tasks,
in the order in which the names first occur: what the agent who runs a task of this name replied when it worked
on it. So it has one output for each task exactly when no name occurs twice.
-/
set_option autoImplicit false

namespace CrewFlow.Crew

open Kickoff (Change Course Reply Settled setEntry)
open Text (Inputs)

section Promises
variable (crew : Crew) (inputs : Inputs) (replies : List Reply)

/-- Work on a task by the agent who runs it. -/
structure WorksOn (t : CrewTask) (w : Work) : Prop where
  task : w.task = t
  agent : crew.agentFor t = .ok w.agent
  description : w.description = t.describe inputs

/-- An output of a task: what the agent who runs it replied when it worked on the task. -/
def Yielded (t : CrewTask) (o : TaskOutput) : Prop :=
  ∃ w answer, (w, answer) ∈ replies ∧ WorksOn crew inputs t w ∧ w.outcome answer = .ok o

def YieldedUnder (name : String) (o : TaskOutput) : Prop :=
  ∃ t ∈ crew.tasks, t.name = name ∧ Yielded crew inputs replies t o

/-- A crew has yielded an output for each name among its tasks, in the order in which they first occur, and the
text of the last one. -/
structure OncePerName (out : CrewOutput) : Prop where
  whole : out = .ofTasks crew.name out.tasks
  outputs : List.Forall₂ (YieldedUnder crew inputs replies) (crew.tasks.map (·.name)).eraseDups out.tasks

/-- A job that works on its task, or has the output of its task. -/
structure JobTraced (job : Job) : Prop where
  task : job.task ∈ crew.tasks
  agent : crew.agentFor job.task = .ok job.agent
  works : ∀ w, job.phase = .working w → WorksOn crew inputs job.task w
  yields : ∀ o, job.phase = .finished (.ok o) → Yielded crew inputs replies job.task o

/-- What is kept under a name is an output of a task of this name, or the job of such a task. -/
structure Stored (k : Kickoff) : Prop where
  ofCrew : k.crew = crew
  onInputs : k.inputs = inputs
  done : ∀ name o, k.done.lookup name = some o → YieldedUnder crew inputs replies name o
  pending : ∀ name j, k.pending.lookup name = some j → ∃ job, k.jobs[j]? = some job ∧ job.task.name = name
  jobs : ∀ job ∈ k.jobs, JobTraced crew inputs replies job

def Promised (k : Kickoff) (name : String) : Prop :=
  (k.done.lookup name).isSome ∨ (k.pending.lookup name).isSome

/-- Tasks that have been taken up are promised, and those whose jobs the main line does not wait for any more
are done. -/
inductive MainTraced (k : Kickoff) : MainPhase → Prop where
  | taking {p : Nat} (taken : ∀ t ∈ crew.tasks.take p, Promised k t.name) : MainTraced k (.taking p)
  | gathering {p : Nat} {t : CrewTask} {agent : Agent} {context : List TaskOutput} {names : List String}
      (taken : ∀ t ∈ crew.tasks.take p, Promised k t.name) (task : crew.tasks[p]? = some t)
      (owner : crew.agentFor t = .ok agent) : MainTraced k (.gathering p t agent context names)
  | working {p : Nat} {t : CrewTask} {w : Work} (taken : ∀ t ∈ crew.tasks.take p, Promised k t.name)
      (task : crew.tasks[p]? = some t) (works : WorksOn crew inputs t w) : MainTraced k (.working p w)
  | closing {names : List String}
      (left : ∀ t ∈ crew.tasks, (k.done.lookup t.name).isSome ∨
        ((k.pending.lookup t.name).isSome ∧ t.name ∈ names)) : MainTraced k (.closing names)
  | ended {out : CrewOutput} (outputs : OncePerName crew inputs replies out) : MainTraced k (.finished (.ok out))
  | failed {e : ExecutionError} : MainTraced k (.finished (.error e))

/-- What is known of a kickoff after some replies. -/
structure Traced (k : Kickoff) : Prop where
  stored : Stored crew inputs replies k
  main : MainTraced crew inputs replies k k.main

end Promises

section Steps
variable {crew : Crew} {inputs : Inputs} {replies more : List Reply} {k next : Kickoff}

/-! ## More replies -/

theorem Yielded.mono {t : CrewTask} {o : TaskOutput} (yielded : Yielded crew inputs replies t o)
    (subset : replies ⊆ more) : Yielded crew inputs more t o := by
  obtain ⟨w, answer, heard, works, outcome⟩ := yielded
  exact ⟨w, answer, subset heard, works, outcome⟩

theorem YieldedUnder.mono {name : String} {o : TaskOutput} (yielded : YieldedUnder crew inputs replies name o)
    (subset : replies ⊆ more) : YieldedUnder crew inputs more name o := by
  obtain ⟨t, member, named, yielded⟩ := yielded
  exact ⟨t, member, named, yielded.mono subset⟩

theorem Stored.mono (stored : Stored crew inputs replies k) (subset : replies ⊆ more) :
    Stored crew inputs more k := by
  obtain ⟨ofCrew, onInputs, done, pending, jobs⟩ := stored
  refine ⟨ofCrew, onInputs, fun name o found => (done name o found).mono subset, pending, ?_⟩
  intro job member
  obtain ⟨task, agent, works, yields⟩ := jobs job member
  exact ⟨task, agent, works, fun o finished => (yields o finished).mono subset⟩

theorem MainTraced.mono {main : MainPhase} (traced : MainTraced crew inputs replies k main)
    (subset : replies ⊆ more) : MainTraced crew inputs more k main := by
  cases traced with
  | taking taken => exact .taking taken
  | gathering taken task owner => exact .gathering taken task owner
  | working taken task works => exact .working taken task works
  | closing left => exact .closing left
  | ended outputs => exact .ended ⟨outputs.whole, outputs.outputs.imp fun _ _ yielded => yielded.mono subset⟩
  | failed => exact .failed

/-! ## Changes -/

theorem Promised.of_settled {name : String} {o : Option TaskOutput} (settled : Settled k name o next)
    (other : String) :
    ((k.done.lookup other).isSome → (next.done.lookup other).isSome) ∧
      ((k.pending.lookup other).isSome →
        (next.done.lookup other).isSome ∨ (other ≠ name ∧ (next.pending.lookup other).isSome)) := by
  cases settled with
  | done found =>
      refine ⟨id, fun waiting => ?_⟩
      by_cases same : other = name
      · exact Or.inl (by rw [same, found]; rfl)
      · exact Or.inr ⟨same, waiting⟩
  | @yielded o j absent waiting result =>
      rw [Kickoff.take]
      simp only [Kickoff.lookup_setEntry, Json.Fields.lookup_filter]
      by_cases same : other = name
      · simp [same]
      · simp only [if_neg same]
        exact ⟨id, fun waiting => Or.inr ⟨same, waiting⟩⟩
  | nothing absent unknown =>
      refine ⟨id, fun waiting => Or.inr ⟨?_, waiting⟩⟩
      rintro rfl
      simp [unknown] at waiting

theorem Promised.after {name other : String} {o : Option TaskOutput} (settled : Settled k name o next)
    (promised : Promised k other) : Promised next other := by
  obtain ⟨done, pending⟩ := Promised.of_settled settled other
  rcases promised with there | waiting
  · exact Or.inl (done there)
  · exact (pending waiting).imp id And.right

theorem Stored.of_settled {name : String} {o : Option TaskOutput} (stored : Stored crew inputs replies k)
    (settled : Settled k name o next) : Stored crew inputs replies next := by
  cases settled with
  | done found => exact stored
  | nothing absent unknown => exact stored
  | @yielded o j absent waiting result =>
      refine ⟨stored.ofCrew, stored.onInputs, ?_, ?_, stored.jobs⟩
      · intro other o' found
        rw [Kickoff.take, Kickoff.lookup_setEntry] at found
        split at found
        · next same =>
            cases found
            obtain ⟨job, standing, named⟩ := stored.pending name j waiting
            obtain ⟨job', standing', phase⟩ := Kickoff.jobResult?_eq_some result
            cases standing.symm.trans standing'
            have traced := stored.jobs job (List.mem_of_getElem? standing)
            exact ⟨job.task, traced.task, named.trans same.symm, traced.yields _ phase⟩
        · exact stored.done other o' found
      · intro other i found
        rw [Kickoff.take, Json.Fields.lookup_filter] at found
        split at found
        · cases found
        · exact stored.pending other i found

theorem Stored.of_setPhase {j : Nat} {job : Job} {phase : JobPhase} (stored : Stored crew inputs replies k)
    (standing : k.jobs[j]? = some job) (traced : JobTraced crew inputs replies { job with phase }) :
    Stored crew inputs replies (k.setPhase j phase) := by
  refine ⟨stored.ofCrew, stored.onInputs, stored.done, ?_, ?_⟩
  · intro name i found
    obtain ⟨other, there, named⟩ := stored.pending name i found
    obtain ⟨old, before, same⟩ := Kickoff.exists_job_setPhase j phase there
    exact ⟨old, before, same ▸ named⟩
  · intro other member
    obtain ⟨i, place⟩ := List.mem_iff_getElem?.mp member
    obtain ⟨old, before, ⟨rfl, rfl⟩ | ⟨_, rfl⟩⟩ := Kickoff.job_of_setPhase place
    · cases standing.symm.trans before
      exact traced
    · exact stored.jobs _ (List.mem_of_getElem? before)

theorem Stored.of_handedOut {p : Nat} {t : CrewTask} {agent : Agent} (stored : Stored crew inputs replies k)
    (task : crew.tasks[p]? = some t) (owner : crew.agentFor t = .ok agent) :
    Stored crew inputs replies (k.handedOut p t agent) := by
  refine ⟨stored.ofCrew, stored.onInputs, stored.done, ?_, ?_⟩
  · intro name j found
    rw [Kickoff.handedOut, Kickoff.lookup_setEntry] at found
    rw [Kickoff.handedOut]
    split at found
    · next same =>
        cases found
        exact ⟨_, List.getElem?_concat_length, same.symm⟩
    · obtain ⟨job, there, named⟩ := stored.pending name j found
      exact ⟨job, Kickoff.job_handedOut p t agent there, named⟩
  · intro job member
    rcases List.mem_append.mp member with old | new
    · exact stored.jobs job old
    · cases List.mem_singleton.mp new
      exact ⟨List.mem_of_getElem? task, owner, by simp, by simp⟩

theorem Stored.of_answered {t : CrewTask} {w : Work} {o : TaskOutput} {answer : Except String String}
    (stored : Stored crew inputs replies k) (member : t ∈ crew.tasks) (works : WorksOn crew inputs t w)
    (heard : (w, answer) ∈ replies) (outcome : w.outcome answer = .ok o) :
    Stored crew inputs replies { k with done := setEntry k.done w.task.name o } := by
  refine ⟨stored.ofCrew, stored.onInputs, ?_, stored.pending, stored.jobs⟩
  intro name o' found
  rw [Kickoff.lookup_setEntry] at found
  split at found
  · next same =>
      cases found
      exact ⟨t, member, by rw [same, works.task], w, answer, heard, works, outcome⟩
  · exact stored.done name o' found

theorem Stored.withMain (stored : Stored crew inputs replies k) (main : MainPhase) :
    Stored crew inputs replies { k with main } :=
  ⟨stored.ofCrew, stored.onInputs, stored.done, stored.pending, stored.jobs⟩

theorem MainTraced.of_same {main : MainPhase} (traced : MainTraced crew inputs replies k main)
    (done : next.done = k.done) (pending : next.pending = k.pending) :
    MainTraced crew inputs replies next main := by
  have promised : ∀ {name}, Promised k name → Promised next name := by
    intro name there
    rwa [Promised, done, pending]
  cases traced with
  | taking taken => exact .taking fun t member => promised (taken t member)
  | gathering taken task owner => exact .gathering (fun t member => promised (taken t member)) task owner
  | working taken task works => exact .working (fun t member => promised (taken t member)) task works
  | closing left =>
      refine .closing ?_
      rwa [done, pending]
  | ended outputs => exact .ended outputs
  | failed => exact .failed

theorem taken_succ {p : Nat} {t : CrewTask} {holds : String → Prop} (task : crew.tasks[p]? = some t)
    (taken : ∀ t ∈ crew.tasks.take p, holds t.name) (this : holds t.name) :
    ∀ t ∈ crew.tasks.take (p + 1), holds t.name := by
  intro t' member
  rw [List.take_add_one, task] at member
  rcases List.mem_append.mp member with earlier | last
  · exact taken t' earlier
  · obtain rfl : t' = t := by simpa using last
    exact this

theorem forall₂_filterMap_of_some {α β : Type} {f : α → Option β} {R : α → β → Prop} {xs : List α}
    (each : ∀ x ∈ xs, ∃ y, f x = some y ∧ R x y) : List.Forall₂ R xs (xs.filterMap f) := by
  induction xs with
  | nil => exact .nil
  | cons x xs ih =>
      obtain ⟨y, found, related⟩ := each x List.mem_cons_self
      rw [List.filterMap_cons_some found]
      exact .cons related (ih fun z later => each z (List.mem_cons_of_mem x later))

theorem Stored.oncePerName (stored : Stored crew inputs replies k)
    (all : ∀ t ∈ crew.tasks, (k.done.lookup t.name).isSome) : OncePerName crew inputs replies k.output where
  whole := by
    rw [Kickoff.output, stored.ofCrew]
    rfl
  outputs := by
    have outputs : k.output.tasks = Kickoff.outputsOf k.done crew.tasks := by
      rw [Kickoff.output, stored.ofCrew]
      rfl
    rw [outputs, outputsOf_eq_firsts]
    refine forall₂_filterMap_of_some fun name member => ?_
    obtain ⟨t, isTask, rfl⟩ := List.mem_map.mp (List.mem_eraseDups.mp member)
    obtain ⟨o, found⟩ := Option.isSome_iff_exists.mp (all t isTask)
    exact ⟨o, found, stored.done t.name o found⟩

/-- What is known of a kickoff is known of it after a change, when the answer that it takes was heard. -/
theorem Traced.of_change {ask : Answers} {mover : Option Nat} (traced : Traced crew inputs replies k)
    (change : Change ask k mover next)
    (heard : ∀ w, k.workOn? mover = some w → (w, w.answer ask) ∈ replies) : Traced crew inputs replies next := by
  obtain ⟨stored, main⟩ := traced
  obtain rfl : k.crew = crew := stored.ofCrew
  cases change with
  | unmanned phase task nobody => exact ⟨stored.withMain _, .failed⟩
  | refused phase outcome => exact ⟨stored.withMain _, .failed⟩
  | broken awaits result => exact ⟨stored.withMain _, .failed⟩
  | handedOut phase task owner apart =>
      rw [phase] at main
      cases main with
      | @taking p taken =>
          refine ⟨stored.of_handedOut task owner, .taking (taken_succ task (fun t' member => ?_) ?_)⟩
          · rw [Promised, Kickoff.handedOut, Kickoff.lookup_setEntry]
            refine (taken t' member).imp id fun waiting => ?_
            split
            · rfl
            · exact waiting
          · rw [Promised, Kickoff.handedOut, Kickoff.lookup_setEntry, if_pos rfl]
            exact Or.inr rfl
  | takenUp phase task owner inLine =>
      rw [phase] at main
      cases main with
      | taking taken => exact ⟨stored.withMain _, .gathering taken task owner⟩
  | allTaken phase last =>
      rw [phase] at main
      cases main with
      | @taking p taken =>
          refine ⟨stored.withMain _, .closing fun t member => ?_⟩
          rw [List.take_of_length_le (List.getElem?_eq_none_iff.mp last)] at taken
          refine (taken t member).imp id fun waiting => ⟨waiting, ?_⟩
          obtain ⟨j, found⟩ := Option.isSome_iff_exists.mp waiting
          exact List.mem_map_of_mem (Json.Fields.mem_of_lookup found)
  | @gathered p t agent context name names o behind phase settled =>
      rw [phase] at main
      cases main with
      | gathering taken task owner =>
          have gathers : MainTraced k.crew inputs replies behind
              (.gathering p t agent (context ++ o.toList) names) :=
            .gathering (fun t member => (taken t member).after settled) task owner
          exact ⟨(stored.of_settled settled).withMain _, gathers.of_same rfl rfl⟩
  | begun phase =>
      rw [phase] at main
      cases main with
      | gathering taken task owner =>
          refine ⟨stored.withMain _, .working taken task ⟨rfl, owner, ?_⟩⟩
          rw [Kickoff.work, stored.onInputs]
  | answered phase outcome =>
      rw [phase] at main
      cases main with
      | working taken task works =>
          have own := heard _ (by rw [Kickoff.workOn?, Kickoff.mainWork?, phase])
          have done := stored.of_answered (List.mem_of_getElem? task) works own outcome
          refine ⟨done.withMain _, .taking (taken_succ task (fun t' member => ?_) ?_)⟩
          · rw [Promised, Kickoff.lookup_setEntry]
            refine (taken t' member).imp (fun there => ?_) id
            split
            · rfl
            · exact there
          · rw [Promised, Kickoff.lookup_setEntry, if_pos (by rw [works.task])]
            exact Or.inl rfl
  | closed phase settled =>
      -- The name that is settled leaves the list, since nothing is pending under it any more.
      rw [phase] at main
      cases main with
      | closing left =>
          have closes : MainTraced k.crew inputs replies _ (.closing _) := .closing fun t member => by
            obtain ⟨done, pending⟩ := Promised.of_settled settled t.name
            rcases left t member with there | ⟨waiting, listed⟩
            · exact Or.inl (done there)
            · refine (pending waiting).imp id fun still => ⟨still.2, ?_⟩
              exact (List.mem_cons.mp listed).resolve_left still.1
          exact ⟨(stored.of_settled settled).withMain _, closes.of_same rfl rfl⟩
  | ended phase =>
      rw [phase] at main
      cases main with
      | closing left =>
          refine ⟨stored.withMain _, .ended (stored.oncePerName fun t member => ?_)⟩
          exact (left t member).resolve_right fun waiting => List.not_mem_nil waiting.2
  | jobBegun standing phase =>
      obtain ⟨task, agent, _, _⟩ := stored.jobs _ (List.mem_of_getElem? standing)
      refine ⟨stored.of_setPhase standing ⟨task, agent, fun w begun => ?_, by simp⟩, main.of_same rfl rfl⟩
      cases begun
      exact ⟨rfl, agent, by rw [Kickoff.work, stored.onInputs]⟩
  | jobGathered standing phase result =>
      obtain ⟨task, agent, _, _⟩ := stored.jobs _ (List.mem_of_getElem? standing)
      exact ⟨stored.of_setPhase standing ⟨task, agent, by simp, by simp⟩, main.of_same rfl rfl⟩
  | jobBroken standing phase result =>
      obtain ⟨task, agent, _, _⟩ := stored.jobs _ (List.mem_of_getElem? standing)
      exact ⟨stored.of_setPhase standing ⟨task, agent, by simp, by simp⟩, main.of_same rfl rfl⟩
  | @jobAnswered j job w standing phase =>
      obtain ⟨task, agent, works, _⟩ := stored.jobs _ (List.mem_of_getElem? standing)
      have own := heard w (by rw [Kickoff.workOn?, Kickoff.jobWork?_eq, standing, Option.bind_some, phase])
      refine ⟨stored.of_setPhase standing ⟨task, agent, by simp, fun o finished => ?_⟩, main.of_same rfl rfl⟩
      exact ⟨w, _, own, works w phase, JobPhase.finished.inj finished⟩

theorem traced_start : Traced crew inputs [] (Kickoff.start crew inputs) where
  stored :=
    { ofCrew := rfl
      onInputs := rfl
      done := by simp [Kickoff.start]
      pending := by simp [Kickoff.start]
      jobs := by simp [Kickoff.start] }
  main := .taking (by simp)

theorem Traced.mono (traced : Traced crew inputs replies k) (subset : replies ⊆ more) : Traced crew inputs more k :=
  ⟨traced.stored.mono subset, traced.main.mono subset⟩

theorem Traced.withMemory (traced : Traced crew inputs replies k) (memory : Option Memory.ShortTerm) :
    Traced crew inputs replies { k with memory } := by
  obtain ⟨ofCrew, onInputs, done, pending, jobs⟩ := traced.stored
  exact ⟨⟨ofCrew, onInputs, done, pending, jobs⟩, traced.main.of_same rfl rfl⟩

theorem Traced.after {ask : Answers} {mover : Option Nat} (traced : Traced crew inputs replies k)
    (change : Change ask k mover next) :
    Traced crew inputs (replies ++ (Kickoff.heardFrom ask k mover).toList) next := by
  refine (traced.mono (List.subset_append_left _ _)).of_change change fun w working => ?_
  simp [Kickoff.heardFrom, working]

/-- Whatever course a kickoff goes through, what it has is an account of the replies. -/
theorem traced_of_course (course : Course (Kickoff.start crew inputs) replies k) : Traced crew inputs replies k := by
  -- The replies only grow, so what earlier ones account for stays accounted for.
  refine Kickoff.invariant_of_course (Traced crew inputs) traced_start ?_ ?_ course
  · exact fun memory traced => traced.withMemory memory
  · exact fun traced change => traced.after change

theorem oncePerName_of_course {out : CrewOutput} (course : Course (Kickoff.start crew inputs) replies k)
    (ended : k.result? = some (.ok out)) : OncePerName crew inputs replies out := by
  have main := (traced_of_course course).main
  rw [Kickoff.result?_eq_some ended] at main
  cases main with
  | ended outputs => exact outputs

end Steps

/-! ## One output for each task -/

section Tasks
variable (crew : Crew) (inputs : Inputs) (replies : List Reply)

/-- A crew has yielded one output for each of its tasks, in order, and the text of the last one. -/
structure OncePerTask (out : CrewOutput) : Prop where
  outputs : List.Forall₂ (Yielded crew inputs replies) crew.tasks out.tasks
  last : ∀ t, crew.tasks.getLast? = some t →
    ∃ o, out.tasks.getLast? = some o ∧ Yielded crew inputs replies t o ∧ out.raw = o.raw

end Tasks

theorem getLast?_of_forall₂ {α β : Type} {R : α → β → Prop} {xs : List α} {ys : List β}
    (related : List.Forall₂ R xs ys) {x : α} (last : xs.getLast? = some x) : ∃ y, ys.getLast? = some y ∧ R x y := by
  induction related with
  | nil => cases last
  | cons here rest ih =>
      cases rest with
      | nil =>
          cases last
          exact ⟨_, rfl, here⟩
      | cons next further =>
          rw [List.getLast?_cons_cons] at last ⊢
          exact ih last

section Names
variable {crew : Crew} {inputs : Inputs} {replies : List Reply} {out : CrewOutput}

/-- Where a name stands for one task, there is an output for each task exactly when no name occurs twice. -/
theorem OncePerName.oncePerTask_iff (once : OncePerName crew inputs replies out)
    (alike : ∀ t ∈ crew.tasks, ∀ t' ∈ crew.tasks, t'.name = t.name → t' = t) :
    OncePerTask crew inputs replies out ↔ (crew.tasks.map (·.name)).Nodup := by
  constructor
  · intro each
    -- There are as many outputs as names and as many as tasks, so no name is dropped.
    have count : (crew.tasks.map (·.name)).eraseDups.length = (crew.tasks.map (·.name)).length := by
      rw [once.outputs.length_eq, List.length_map, each.outputs.length_eq]
    exact eraseDups_eq_self_iff.mp ((eraseDups_sublist _).eq_of_length count)
  · intro distinct
    have named := once.outputs
    rw [eraseDups_eq_self_iff.mpr distinct, List.forall₂_map_left_iff] at named
    have outputs : List.Forall₂ (Yielded crew inputs replies) crew.tasks out.tasks := by
      refine ((List.forall₂_and_left (p := (· ∈ crew.tasks)) _ _).mpr ⟨fun _ => id, named⟩).imp ?_
      rintro t o ⟨member, t', member', same, yielded⟩
      exact alike t member t' member' same ▸ yielded
    refine ⟨outputs, fun t last => ?_⟩
    obtain ⟨o, final, yielded⟩ := getLast?_of_forall₂ outputs last
    refine ⟨o, final, yielded, ?_⟩
    rw [once.whole, CrewOutput.ofTasks]
    simp [final]

end Names

end CrewFlow.Crew
