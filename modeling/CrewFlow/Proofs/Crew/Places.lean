import Mathlib
import CrewFlow.Proofs.Crew.Course
/-!
# Places of jobs

A crew takes up its tasks in order, so the jobs of a kickoff stand at the places of its asynchronous tasks, the
first at the first, and depend on what is named at these places. This holds whatever the tasks are called and
whatever their contexts name.
-/
set_option autoImplicit false

namespace CrewFlow.Crew

open Kickoff (Change Course Reply)
open Text (Inputs)

/-! ## Asynchronous tasks -/

section Apart
variable (crew : Crew)

def apartBefore (p : Nat) : List (CrewTask × Nat) := (crew.tasks.zipIdx.take p).filter fun e => e.1.isAsync

def apart : List (CrewTask × Nat) := crew.tasks.zipIdx.filter fun e => e.1.isAsync

variable {crew} {p q i j : Nat} {t u : CrewTask}

theorem apart_of_apartBefore (here : (apartBefore crew p)[j]? = some (t, q)) :
    (apart crew)[j]? = some (t, q) := by
  obtain ⟨more, all⟩ : apartBefore crew p <+: apart crew := (List.take_prefix p _).filter _
  rw [← all, List.getElem?_append_left (List.getElem?_eq_some_iff.mp here).1, here]

theorem apartBefore_succ (task : crew.tasks[p]? = some t) :
    apartBefore crew (p + 1) = apartBefore crew p ++ if t.isAsync then [(t, p)] else [] := by
  have here : crew.tasks.zipIdx[p]? = some (t, p) := by simp [List.getElem?_zipIdx, task]
  rw [apartBefore, apartBefore, List.take_add_one, here, List.filter_append]
  split
  · next async => simp [async]
  · next inLine => simp [inLine]

theorem apartBefore_succ_of_inLine (task : crew.tasks[p]? = some t) (inLine : t.isAsync = false) :
    apartBefore crew (p + 1) = apartBefore crew p := by
  rw [apartBefore_succ task, inLine]
  exact List.append_nil _

theorem task_of_apart (here : (apart crew)[j]? = some (t, p)) : crew.tasks[p]? = some t ∧ t.isAsync = true := by
  obtain ⟨member, async⟩ := List.mem_filter.mp (List.mem_of_getElem? here)
  exact ⟨List.mk_mem_zipIdx_iff_getElem?.mp member, async⟩

theorem places_pairwise (crew : Crew) : (apart crew).Pairwise fun e f => e.2 < f.2 := by
  have increasing : (crew.tasks.zipIdx.map Prod.snd).Pairwise (· < ·) := by
    rw [List.zipIdx_map_snd]
    exact List.pairwise_lt_range'
  exact (List.pairwise_map.mp increasing).filter _

theorem place_lt_place (before : i < j) (earlier : (apart crew)[i]? = some (u, q))
    (later : (apart crew)[j]? = some (t, p)) : q < p := by
  obtain ⟨first, isFirst⟩ := List.getElem?_eq_some_iff.mp earlier
  obtain ⟨last, isLast⟩ := List.getElem?_eq_some_iff.mp later
  have less := List.pairwise_iff_getElem.mp (places_pairwise crew) i j first last before
  rwa [isFirst, isLast] at less

theorem place_lt (here : (apartBefore crew p)[j]? = some (t, q)) : q < p := by
  obtain ⟨member, _⟩ := List.mem_filter.mp (List.mem_of_getElem? here)
  obtain ⟨i, place⟩ := List.mem_iff_getElem?.mp member
  rw [List.getElem?_take] at place
  split at place
  · next before =>
      obtain ⟨a, _, same⟩ := Option.map_eq_some_iff.mp (List.getElem?_zipIdx .. ▸ place)
      cases same
      omega
  · cases place

end Apart

namespace Kickoff

variable {crew : Crew} {inputs : Inputs} {replies : List Reply} {k next : Kickoff}

/-! ## Jobs -/

def HandedOutBefore (k : Kickoff) (p : Nat) : Prop :=
  k.jobs.map (fun job => (job.task, job.order)) =
    (apartBefore k.crew p).map fun e => (e.1, k.crew.dependencies e.2 e.1)

/-- The tasks before the position of the main line have been handed out, and it works on a synchronous task. -/
inductive PlacedBy (k : Kickoff) : MainPhase → Prop where
  | taking {p : Nat} (jobs : HandedOutBefore k p) : PlacedBy k (.taking p)
  | gathering {p : Nat} {t : CrewTask} {agent : Agent} {context : List TaskOutput} {names : List String}
      (jobs : HandedOutBefore k p) (task : k.crew.tasks[p]? = some t) (inLine : t.isAsync = false) :
      PlacedBy k (.gathering p t agent context names)
  | working {p : Nat} {w : Work} (jobs : HandedOutBefore k p) (task : k.crew.tasks[p]? = some w.task)
      (inLine : w.task.isAsync = false) : PlacedBy k (.working p w)
  | closing {names : List String} (jobs : HandedOutBefore k k.crew.tasks.length) : PlacedBy k (.closing names)
  | finished {p : Nat} {result : Except ExecutionError CrewOutput} (jobs : HandedOutBefore k p) :
      PlacedBy k (.finished result)

def Placed (k : Kickoff) : Prop := PlacedBy k k.main

theorem PlacedBy.handedOut {main : MainPhase} (placed : PlacedBy k main) : ∃ p, HandedOutBefore k p := by
  cases placed with
  | taking jobs => exact ⟨_, jobs⟩
  | gathering jobs task inLine => exact ⟨_, jobs⟩
  | working jobs task inLine => exact ⟨_, jobs⟩
  | closing jobs => exact ⟨_, jobs⟩
  | finished jobs => exact ⟨_, jobs⟩

theorem HandedOutBefore.of_same {p : Nat} (jobs : HandedOutBefore k p) (crew : next.crew = k.crew)
    (same : next.jobs = k.jobs) : HandedOutBefore next p := by
  rw [HandedOutBefore, crew, same]
  exact jobs

theorem PlacedBy.of_same {main : MainPhase} (placed : PlacedBy k main) (crew : next.crew = k.crew)
    (same : ∀ p, HandedOutBefore k p → HandedOutBefore next p) : PlacedBy next main := by
  cases placed with
  | taking jobs => exact .taking (same _ jobs)
  | gathering jobs task inLine => exact .gathering (same _ jobs) (crew ▸ task) inLine
  | working jobs task inLine => exact .working (same _ jobs) (crew ▸ task) inLine
  | closing jobs => exact .closing (crew ▸ same _ jobs)
  | finished jobs => exact .finished (same _ jobs)

theorem HandedOutBefore.of_setPhase {p j : Nat} {phase : JobPhase} (jobs : HandedOutBefore k p) :
    HandedOutBefore (k.setPhase j phase) p := by
  have same : (k.setPhase j phase).jobs.map (fun job => (job.task, job.order)) =
      k.jobs.map fun job => (job.task, job.order) := by
    apply List.ext_getElem?
    intro i
    simp only [setPhase, List.getElem?_map, List.getElem?_modify]
    cases k.jobs[i]? with
    | none => rfl
    | some job => by_cases here : j = i <;> simp [here]
  rw [HandedOutBefore, same]
  exact jobs

theorem HandedOutBefore.of_handedOut {p : Nat} {t : CrewTask} {agent : Agent} (jobs : HandedOutBefore k p)
    (task : k.crew.tasks[p]? = some t) (async : t.isAsync = true) :
    HandedOutBefore (k.handedOut p t agent) (p + 1) := by
  have one_more : apartBefore k.crew (p + 1) = apartBefore k.crew p ++ [(t, p)] := by
    rw [apartBefore_succ task, if_pos async]
  rw [HandedOutBefore, Kickoff.handedOut]
  dsimp only
  rw [one_more, List.map_append, List.map_append, jobs]
  rfl

theorem Placed.of_change {ask : Answers} {mover : Option Nat} (placed : Placed k)
    (change : Change ask k mover next) : Placed next := by
  unfold Placed at placed
  cases change with
  | unmanned main task nobody =>
      obtain ⟨p, jobs⟩ := placed.handedOut
      exact .finished jobs
  | handedOut main task owner async =>
      rw [main] at placed
      cases placed with
      | taking jobs => exact .taking (jobs.of_handedOut task async)
  | takenUp main task owner inLine =>
      rw [main] at placed
      cases placed with
      | taking jobs => exact .gathering jobs task inLine
  | @allTaken p main last =>
      rw [main] at placed
      cases placed with
      | taking jobs =>
          -- Behind the last task there is nothing to hand out.
          have all : apartBefore k.crew p = apartBefore k.crew k.crew.tasks.length := by
            have few := List.getElem?_eq_none_iff.mp last
            rw [apartBefore, apartBefore, List.take_of_length_le (by simpa using few),
              List.take_of_length_le (by simp)]
          refine .closing ?_
          rw [HandedOutBefore, ← all]
          exact jobs
  | gathered main settled =>
      rw [main] at placed
      cases placed with
      | gathering jobs task inLine =>
          obtain ⟨crew, _, _, same, _⟩ := settled.frame
          exact .gathering (jobs.of_same crew same) (crew ▸ task) inLine
  | begun main =>
      rw [main] at placed
      cases placed with
      | gathering jobs task inLine => exact .working jobs task inLine
  | answered main outcome =>
      rw [main] at placed
      cases placed with
      | working jobs task inLine =>
          refine .taking ?_
          rw [HandedOutBefore, apartBefore_succ_of_inLine task inLine]
          exact jobs
  | refused main outcome =>
      obtain ⟨p, jobs⟩ := placed.handedOut
      exact .finished jobs
  | closed main settled =>
      rw [main] at placed
      cases placed with
      | closing jobs =>
          obtain ⟨crew, _, _, same, _⟩ := settled.frame
          exact .closing (HandedOutBefore.of_same (crew ▸ jobs) crew same)
  | broken awaits result =>
      obtain ⟨p, jobs⟩ := placed.handedOut
      exact .finished jobs
  | ended main =>
      obtain ⟨p, jobs⟩ := placed.handedOut
      exact .finished jobs
  | jobBegun standing phase => exact placed.of_same rfl fun _ jobs => jobs.of_setPhase
  | jobGathered standing phase result => exact placed.of_same rfl fun _ jobs => jobs.of_setPhase
  | jobBroken standing phase result => exact placed.of_same rfl fun _ jobs => jobs.of_setPhase
  | jobAnswered standing phase => exact placed.of_same rfl fun _ jobs => jobs.of_setPhase

theorem placed_of_course (course : Course (start crew inputs) replies k) : Placed k := by
  refine invariant_of_course (fun _ k => Placed k) (.taking rfl) ?_ ?_ course
  · intro _ k memory placed
    exact placed.of_same rfl fun _ jobs => jobs
  · intro _ _ _ _ _ placed change
    exact placed.of_change change

theorem crew_of_course (course : Course (start crew inputs) replies k) : k.crew = crew := by
  refine invariant_of_course (fun _ k => k.crew = crew) rfl ?_ ?_ course
  · exact fun _ same => same
  · intro _ _ _ _ _ same change
    exact (crew_of_change change).trans same

/-- A job stands at the place of its task, and has the dependencies of this place. -/
theorem HandedOutBefore.place {p j : Nat} {job : Job} (jobs : HandedOutBefore k p)
    (standing : k.jobs[j]? = some job) :
    ∃ q < p, (apart k.crew)[j]? = some (job.task, q) ∧ job.order = k.crew.dependencies q job.task := by
  have shown := congrArg (·[j]?) jobs
  simp only [List.getElem?_map, standing, Option.map_some] at shown
  obtain ⟨⟨t, q⟩, here, same⟩ := Option.map_eq_some_iff.mp shown.symm
  obtain ⟨rfl, order⟩ := Prod.mk.inj same
  exact ⟨q, place_lt here, apart_of_apartBefore here, order.symm⟩

theorem HandedOutBefore.place_next {p : Nat} {t : CrewTask} (jobs : HandedOutBefore k p)
    (task : k.crew.tasks[p]? = some t) (async : t.isAsync = true) :
    (apart k.crew)[k.jobs.length]? = some (t, p) := by
  have count : k.jobs.length = (apartBefore k.crew p).length := by
    simpa using congrArg List.length jobs
  apply apart_of_apartBefore (p := p + 1)
  rw [apartBefore_succ task, if_pos async, count]
  exact List.getElem?_concat_length

end Kickoff

end CrewFlow.Crew
