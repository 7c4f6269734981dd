import Mathlib
import CrewFlow.Proofs.Crew.Schedule
/-!
# Schedules that were followed

What is known of a kickoff after any of its moves: a result stays, everybody who works is of the crew, and
what is worked on stays so until the answer comes.
-/
set_option autoImplicit false

namespace CrewFlow.Crew

open Kickoff (Step Change Comes)
open Relation (ReflTransGen)
open Text (Inputs)

/-! ## Results -/

namespace Kickoff

variable {ask : Answers} {k next : Kickoff}

@[simp]
theorem jobs_rememberAnswer (w : Work) (answer : Except String String) :
    (k.rememberAnswer w answer).jobs = k.jobs := by
  unfold rememberAnswer remember
  split
  · split
    · split <;> rfl
    · rfl
  · rfl

@[simp]
theorem main_rememberAnswer (w : Work) (answer : Except String String) :
    (k.rememberAnswer w answer).main = k.main := by
  unfold rememberAnswer remember
  split
  · split
    · split <;> rfl
    · rfl
  · rfl

theorem main_of_moveJob {j : Nat} (moved : k.moveJob j = some next) : next.main = k.main := by
  unfold moveJob at moved
  split at moved
  · cases moved
    rfl
  · split at moved
    · cases moved
      rfl
    · cases moved
      rfl
    · cases moved
  · cases moved

theorem main_answerJob (j : Nat) (answer : Except String String) :
    (k.answerJob j answer).main = k.main := by
  unfold answerJob
  split
  · exact main_rememberAnswer ..
  · rfl

theorem result?_of_step {result : Except ExecutionError CrewOutput}
    (found : k.result? = some result) (step : Step ask k next) : next.result? = some result := by
  have main := result?_eq_some found
  cases step with
  | main moved => simp [moveMain, main] at moved
  | mainAnswered working => simp [mainWork?, main] at working
  | job moved => rw [result?, main_of_moveJob moved, main]
  | jobAnswered working => rw [result?, main_answerJob, main]

theorem result?_of_reached {result : Except ExecutionError CrewOutput}
    (found : k.result? = some result) (reached : ReflTransGen (Step ask) k next) :
    next.result? = some result := by
  induction reached with
  | refl => exact found
  | tail _ step ih => exact result?_of_step ih step

/-- What a machine comes to by any schedule, it has come to when it has ended. -/
theorem Comes.result_of_reached {right : Except ExecutionError CrewOutput → Prop}
    (comes : Comes ask right k) (reached : ReflTransGen (Step ask) k next)
    {result : Except ExecutionError CrewOutput} (found : next.result? = some result) :
    right result := by
  induction comes generalizing next with
  | ended earlier good =>
      cases (result?_of_reached earlier reached).symm.trans found
      exact good
  | onward movable all ih =>
      rcases ReflTransGen.cases_head reached with same | ⟨middle, step, rest⟩
      · subst same
        obtain ⟨later, step⟩ := movable
        exact ih later step .refl (result?_of_step found step)
      · exact ih middle step rest found

theorem Comes.of_reached {right : Except ExecutionError CrewOutput → Prop} (comes : Comes ask right k)
    (reached : ReflTransGen (Step ask) k next) : Comes ask right next := by
  induction comes generalizing next with
  | ended found good => exact .ended (result?_of_reached found reached) good
  | onward movable all ih =>
      rcases ReflTransGen.cases_head reached with same | ⟨middle, step, rest⟩
      · exact same ▸ .onward movable all
      · exact ih middle step rest

theorem Comes.exists_result {right : Except ExecutionError CrewOutput → Prop} (comes : Comes ask right k) :
    ∃ last result, ReflTransGen (Step ask) k last ∧ last.result? = some result := by
  induction comes with
  | ended found _ => exact ⟨_, _, .refl, found⟩
  | onward movable _ ih =>
      obtain ⟨next, step⟩ := movable
      obtain ⟨last, result, reached, found⟩ := ih next step
      exact ⟨last, result, .head step reached, found⟩

/-! ## Who works -/

def Employs (crew : Crew) (agent : Agent) : Prop := agent ∈ crew.agents ∨ crew.manager = some agent

theorem employs_of_agentFor {crew : Crew} {t : CrewTask} {agent : Agent}
    (owner : crew.agentFor t = .ok agent) : Employs crew agent := by
  unfold Crew.agentFor at owner
  split at owner
  · next owned =>
      cases owner
      unfold Crew.owner? at owned
      obtain ⟨role, _, found⟩ := Option.bind_eq_some_iff.mp owned
      exact .inl (List.mem_of_find?_eq_some found)
  · next managed =>
      cases owner
      exact .inr managed
  · split at owner
    · next first =>
        cases owner
        exact .inl (List.mem_of_mem_head? first)
    · cases owner

def MainEmploys (crew : Crew) : MainPhase → Prop
  | .gathering _ _ agent _ _ => Employs crew agent
  | .working _ w => Employs crew w.agent
  | _ => True

def JobEmploys (crew : Crew) (job : Job) : Prop :=
  Employs crew job.agent ∧ ∀ w, job.phase = .working w → Employs crew w.agent

/-- Everybody who works is of the crew, and nothing is remembered. -/
structure Staffed (crew : Crew) (k : Kickoff) : Prop where
  ofCrew : k.crew = crew
  forgetful : k.memory = none
  main : MainEmploys crew k.main
  jobs : ∀ job ∈ k.jobs, JobEmploys crew job

theorem Staffed.setPhase {crew : Crew} (staffed : Staffed crew k) {j : Nat} {phase : JobPhase}
    (works : ∀ w, phase = .working w → Employs crew w.agent) : Staffed crew (k.setPhase j phase) := by
  refine ⟨staffed.ofCrew, staffed.forgetful, staffed.main, ?_⟩
  intro other member
  obtain ⟨i, position⟩ := List.mem_iff_getElem?.mp member
  obtain ⟨old, before, ⟨_, rfl⟩ | ⟨_, rfl⟩⟩ := Kickoff.job_of_setPhase position
  · exact ⟨(staffed.jobs old (List.mem_of_getElem? before)).1, works⟩
  · exact staffed.jobs _ (List.mem_of_getElem? before)

theorem Staffed.of_change {crew : Crew} {mover : Option Nat} (staffed : Staffed crew k)
    (change : Change ask k mover next) :
    Staffed crew next := by
  obtain rfl : k.crew = crew := staffed.ofCrew
  have whole := staffed
  obtain ⟨ofCrew, forgetful, main, jobs⟩ := staffed
  cases change with
  | unmanned phase task nobody => exact ⟨ofCrew, forgetful, trivial, jobs⟩
  | handedOut phase task owner apart =>
      refine ⟨ofCrew, forgetful, trivial, ?_⟩
      intro job member
      rcases List.mem_append.mp member with old | new
      · exact jobs job old
      · cases List.mem_singleton.mp new
        refine ⟨employs_of_agentFor owner, ?_⟩
        intro w working
        cases working
  | takenUp phase task owner inLine =>
      exact ⟨ofCrew, forgetful, employs_of_agentFor owner, jobs⟩
  | allTaken phase last => exact ⟨ofCrew, forgetful, trivial, jobs⟩
  | gathered phase settled =>
      obtain ⟨sameCrew, _, sameMemory, sameJobs, _⟩ := settled.frame
      rw [phase] at main
      exact ⟨sameCrew.trans ofCrew, sameMemory.trans forgetful, main, sameJobs ▸ jobs⟩
  | begun phase =>
      rw [phase] at main
      exact ⟨ofCrew, forgetful, main, jobs⟩
  | answered phase outcome => exact ⟨ofCrew, forgetful, trivial, jobs⟩
  | refused phase outcome => exact ⟨ofCrew, forgetful, trivial, jobs⟩
  | closed phase settled =>
      obtain ⟨sameCrew, _, sameMemory, sameJobs, _⟩ := settled.frame
      exact ⟨sameCrew.trans ofCrew, sameMemory.trans forgetful, trivial, sameJobs ▸ jobs⟩
  | broken awaits result => exact ⟨ofCrew, forgetful, trivial, jobs⟩
  | ended phase => exact ⟨ofCrew, forgetful, trivial, jobs⟩
  | jobBegun standing phase =>
      refine whole.setPhase ?_
      intro w working
      cases working
      exact (jobs _ (List.mem_of_getElem? standing)).1
  | jobGathered standing phase result => exact whole.setPhase (by simp)
  | jobBroken standing phase result => exact whole.setPhase (by simp)
  | jobAnswered standing phase => exact whole.setPhase (by simp)

theorem staffed_of_reached {crew : Crew} {inputs : Inputs} (forgetful : crew.embedder = none)
    (reached : ReflTransGen (Step ask) (Kickoff.start crew inputs) k) : Staffed crew k := by
  induction reached with
  | refl =>
      refine ⟨rfl, by rw [start, forgetful, Option.map_none], trivial, ?_⟩
      intro job member
      cases member
  | tail _ step ih =>
      obtain ⟨_, change⟩ := change_of_step ih.forgetful step
      exact ih.of_change change

theorem invariant_of_reached {Inv : Kickoff → Prop} {crew : Crew} {inputs : Inputs}
    (forgetful : crew.embedder = none) (first : Inv (start crew inputs))
    (keeps : ∀ k mover next, Inv k → Change ask k mover next → Inv next)
    (reached : ReflTransGen (Step ask) (Kickoff.start crew inputs) k) : Inv k := by
  induction reached with
  | refl => exact first
  | tail reached step ih =>
      obtain ⟨mover, change⟩ := change_of_step (staffed_of_reached forgetful reached).forgetful step
      exact keeps _ mover _ ih change

theorem weight_le_of_reached {crew : Crew} {inputs : Inputs} (forgetful : crew.embedder = none)
    (reached : ReflTransGen (Step ask) (start crew inputs) k) :
    k.weight ≤ weightFrom crew 0 + 2 := by
  refine @invariant_of_reached ask k (fun k => k.weight ≤ weightFrom crew 0 + 2) crew inputs
    forgetful ?_ ?_ reached
  · exact le_rfl
  · intro k mover next light change
    exact (weight_lt_of_change change).le.trans light

/-! ## Jobs -/

def Taken (k : Kickoff) : Prop :=
  match k.main with
  | .taking p => k.jobs.length ≤ p ∧ p ≤ k.crew.tasks.length
  | .gathering p .. => k.jobs.length ≤ p ∧ p < k.crew.tasks.length
  | .working p _ => k.jobs.length ≤ p ∧ p < k.crew.tasks.length
  | .closing _ => k.jobs.length ≤ k.crew.tasks.length
  | .finished _ => k.jobs.length ≤ k.crew.tasks.length

theorem Taken.few (taken : Taken k) : k.jobs.length ≤ k.crew.tasks.length := by
  unfold Taken at taken
  split at taken <;> omega

theorem Taken.of_setPhase (taken : Taken k) (j : Nat) (phase : JobPhase) :
    Taken (k.setPhase j phase) := by
  have count : (k.setPhase j phase).jobs.length = k.jobs.length := by simp [setPhase]
  unfold Taken
  rw [count]
  exact taken

theorem Taken.of_change {mover : Option Nat} (taken : Taken k) (change : Change ask k mover next) :
    Taken next := by
  have few := taken.few
  cases change with
  | unmanned main task nobody => exact few
  | @handedOut p t agent main task owner apart =>
      obtain ⟨below, _⟩ := List.getElem?_eq_some_iff.mp task
      simp only [Taken, main] at taken
      simp only [Taken, handedOut, List.length_append, List.length_singleton]
      omega
  | @takenUp p t agent main task owner inLine =>
      obtain ⟨below, _⟩ := List.getElem?_eq_some_iff.mp task
      simp only [Taken, main] at taken ⊢
      omega
  | allTaken main last => exact few
  | gathered main settled =>
      obtain ⟨crew, _, _, jobs, _⟩ := settled.frame
      simp only [Taken, main, crew, jobs] at taken ⊢
      exact taken
  | begun main =>
      simp only [Taken, main] at taken ⊢
      exact taken
  | answered main outcome =>
      simp only [Taken, main] at taken ⊢
      omega
  | refused main outcome => exact few
  | closed main settled =>
      obtain ⟨crew, _, _, jobs, _⟩ := settled.frame
      simp only [Taken, crew, jobs]
      exact few
  | broken awaits result => exact few
  | ended main => exact few
  | jobBegun standing phase => exact taken.of_setPhase ..
  | jobGathered standing phase result => exact taken.of_setPhase ..
  | jobBroken standing phase result => exact taken.of_setPhase ..
  | jobAnswered standing phase => exact taken.of_setPhase ..

theorem taken_of_reached {crew : Crew} {inputs : Inputs} (forgetful : crew.embedder = none)
    (reached : ReflTransGen (Step ask) (start crew inputs) k) : Taken k :=
  invariant_of_reached forgetful ⟨le_rfl, Nat.zero_le _⟩ (fun _ _ _ => Taken.of_change) reached

/-- Jobs wait for jobs that were handed out before them, and the main line for one that was handed out. -/
structure Linked (k : Kickoff) : Prop where
  pending : ∀ name j, k.pending.lookup name = some j → j < k.jobs.length
  jobs : ∀ (j : Nat) job, k.jobs[j]? = some job →
    ∀ context awaited, job.phase = .gathering context awaited → ∀ i ∈ awaited, i < j

theorem Linked.of_setPhase (linked : Linked k) {j : Nat} {phase : JobPhase}
    (waits : ∀ context awaited, phase = .gathering context awaited → ∀ i ∈ awaited, i < j) :
    Linked (k.setPhase j phase) := by
  refine ⟨?_, ?_⟩
  · intro name i found
    simpa [setPhase] using linked.pending name i found
  · intro i job standing context awaited gathering
    obtain ⟨old, before, ⟨rfl, rfl⟩ | ⟨_, rfl⟩⟩ := job_of_setPhase standing
    · exact waits context awaited gathering
    · exact linked.jobs i _ before context awaited gathering

theorem Linked.of_pending (linked : Linked k) (jobs : next.jobs = k.jobs)
    (pending : ∀ name j, next.pending.lookup name = some j → k.pending.lookup name = some j) :
    Linked next := by
  refine ⟨?_, ?_⟩
  · intro name j found
    rw [jobs]
    exact linked.pending name j (pending name j found)
  · rw [jobs]
    exact linked.jobs

theorem Linked.of_settled {name : String} {o : Option TaskOutput} (linked : Linked k)
    (settled : Settled k name o next) : Linked next := by
  cases settled with
  | done found => exact linked
  | yielded absent waiting result =>
      refine linked.of_pending rfl ?_
      intro other j found
      rw [take, Json.Fields.lookup_filter] at found
      split at found
      · cases found
      · exact found
  | nothing absent unknown => exact linked

theorem Linked.of_handedOut (linked : Linked k) (p : Nat) (t : CrewTask) (agent : Agent) :
    Linked (k.handedOut p t agent) := by
  refine ⟨?_, ?_⟩
  · intro name j found
    rw [handedOut, lookup_setEntry] at found
    rw [handedOut, List.length_append, List.length_singleton]
    split at found
    · cases found
      exact Nat.lt_succ_self _
    · exact Nat.lt_succ_of_lt (linked.pending name j found)
  · intro j job standing context awaited gathering i member
    rcases job_of_handedOut standing with old | ⟨rfl, rfl⟩
    · exact linked.jobs j job old context awaited gathering i member
    · cases gathering
      obtain ⟨name, _, found⟩ := List.mem_filterMap.mp member
      exact linked.pending name i found

theorem Linked.of_change {mover : Option Nat} (linked : Linked k)
    (change : Change ask k mover next) : Linked next := by
  cases change with
  | handedOut main task owner apart => exact linked.of_handedOut ..
  | gathered main settled => exact (linked.of_settled settled).of_pending rfl fun _ _ => id
  | closed main settled => exact (linked.of_settled settled).of_pending rfl fun _ _ => id
  | jobBegun standing phase => exact linked.of_setPhase (by simp)
  | jobGathered standing phase result =>
      refine linked.of_setPhase ?_
      intro context awaited same i member
      cases same
      exact linked.jobs _ _ standing _ _ phase i (List.mem_cons_of_mem _ member)
  | jobBroken standing phase result => exact linked.of_setPhase (by simp)
  | jobAnswered standing phase => exact linked.of_setPhase (by simp)
  | _ => exact linked.of_pending rfl fun _ _ => id

theorem linked_of_reached {crew : Crew} {inputs : Inputs} (forgetful : crew.embedder = none)
    (reached : ReflTransGen (Step ask) (start crew inputs) k) : Linked k := by
  refine invariant_of_reached forgetful ⟨?_, ?_⟩ (fun _ _ _ => Linked.of_change) reached
  · intro name j found
    cases found
  · intro j job standing
    cases standing

/-! ## Work -/

theorem moveMain_of_mainWork? {w : Work} (working : k.mainWork? = some w) : k.moveMain = none := by
  obtain ⟨p, main⟩ := mainWork?_eq_some working
  rw [moveMain, main]

theorem jobWork?_eq {j : Nat} : k.jobWork? j =
    (k.jobs[j]?).bind fun job =>
      match job.phase with
      | .working w => some w
      | _ => none := by
  unfold jobWork? phase?
  cases k.jobs[j]? with
  | none => rfl
  | some job => cases phase : job.phase <;> simp [phase]

theorem jobs_takeUp (p : Nat) (t : CrewTask) : k.jobs <+: (k.takeUp p t).jobs := by
  unfold takeUp
  split
  · exact List.prefix_rfl
  · dsimp only
    split
    · exact List.prefix_append ..
    · exact List.prefix_rfl

theorem jobs_of_moveMain (moved : k.moveMain = some next) : k.jobs <+: next.jobs := by
  unfold moveMain at moved
  split at moved
  · split at moved
    · cases moved
      exact jobs_takeUp ..
    · cases moved
      exact List.prefix_rfl
  · cases moved
    exact List.prefix_rfl
  · split at moved
    all_goals cases moved
    all_goals exact List.prefix_rfl
  · cases moved
    exact List.prefix_rfl
  · split at moved
    all_goals cases moved
    all_goals exact List.prefix_rfl
  · cases moved
  · cases moved

theorem jobWork?_of_moveMain {j : Nat} {w : Work} (moved : k.moveMain = some next)
    (working : k.jobWork? j = some w) : next.jobWork? j = some w := by
  obtain ⟨more, grown⟩ := jobs_of_moveMain moved
  rw [jobWork?_eq] at working ⊢
  obtain ⟨job, standing, phase⟩ := Option.bind_eq_some_iff.mp working
  obtain ⟨below, _⟩ := List.getElem?_eq_some_iff.mp standing
  rw [← grown, List.getElem?_append_left below, standing]
  exact phase

theorem jobs_answerMain (answer : Except String String) : (k.answerMain answer).jobs = k.jobs := by
  unfold answerMain
  split
  · dsimp only
    split
    · exact jobs_rememberAnswer ..
    · exact jobs_rememberAnswer ..
  · rfl

theorem jobWork?_answerMain {j : Nat} (answer : Except String String) :
    (k.answerMain answer).jobWork? j = k.jobWork? j := by
  rw [jobWork?_eq, jobWork?_eq, jobs_answerMain]

theorem jobWork?_setPhase {i j : Nat} {phase : JobPhase} (other : i ≠ j) :
    (k.setPhase j phase).jobWork? i = k.jobWork? i := by
  have same : (k.setPhase j phase).jobs[i]? = k.jobs[i]? :=
    List.getElem?_modify_ne _ _ (Ne.symm other)
  rw [jobWork?_eq, jobWork?_eq, same]

theorem jobWork?_of_moveJob {i j : Nat} {w : Work} (moved : k.moveJob j = some next)
    (working : k.jobWork? i = some w) : next.jobWork? i = some w := by
  have other : i ≠ j := by
    intro same
    subst same
    obtain ⟨⟨task, agent, order, phase⟩, standing, worked⟩ := jobWork?_eq_some working
    cases worked
    rw [moveJob, standing] at moved
    cases moved
  unfold moveJob at moved
  split at moved
  · cases moved
    rw [jobWork?_setPhase other, working]
  · split at moved
    · cases moved
      rw [jobWork?_setPhase other, working]
    · cases moved
      rw [jobWork?_setPhase other, working]
    · cases moved
  · cases moved

theorem jobWork?_answerJob {i j : Nat} (answer : Except String String) (other : i ≠ j) :
    (k.answerJob j answer).jobWork? i = k.jobWork? i := by
  unfold answerJob
  split
  · rw [jobWork?_setPhase other, jobWork?_eq, jobWork?_eq, jobs_rememberAnswer]
  · rfl

end Kickoff

end CrewFlow.Crew
