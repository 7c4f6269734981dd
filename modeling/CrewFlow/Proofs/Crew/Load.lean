import Mathlib
import CrewFlow.Proofs.Crew.Working
/-!
# What crews still have to pay

Every actor has what its work may cost: the turns at the requests of its agent, and the waking of those
who wait for it. Whatever happens is paid from this, so crews take only so many turns. A crew that is over
has nothing to pay any more.
-/
set_option autoImplicit false

namespace CrewFlow.Crew

open Agent (Execution)
open Agent.Execution (fare purse toll)
open Kickoff (Change Employs Staffed)
open Rate (Allowance)

/-! ## Fees -/

def wage (agent : Agent) : Nat := (3 * fare + 3) * (agent.limits.maxIter + 1)

def wages (crew : Crew) : Nat := ((crew.agents ++ crew.manager.toList).map wage).sum

def jobFee (crew : Crew) : Nat := fare * (crew.tasks.length + 1)

def taskFee (crew : Crew) : Nat := wages crew + jobFee crew + fare + 1

theorem wage_le_wages {crew : Crew} {agent : Agent} (employed : Employs crew agent) :
    wage agent ≤ wages crew := by
  apply List.le_sum_of_mem
  apply List.mem_map_of_mem
  rcases employed with pool | manager
  · exact List.mem_append_left _ pool
  · exact List.mem_append_right _ (by simp [manager])

def remaining (executions : List (Execution Actor)) (who : Actor) (w : Work) : Nat :=
  match executions.find? fun e => e.who = who with
  | some e => purse e
  | none => wage w.agent

theorem purse_underway (t : Timeline) (who : Actor) (w : Work) :
    purse (t.underway who w) = remaining t.executions who w := by
  unfold Timeline.underway remaining
  cases t.executions.find? fun e => e.who = who with
  | none =>
      simp only [Option.getD_none, purse, Execution.start, Agent.Dialogue.start, Agent.Dialogue.equipped, toll, wage]
      ring
  | some e => rfl

def phaseLoad (executions : List (Execution Actor)) (crew : Crew) (who : Actor) (agent : Agent) :
    JobPhase → Nat
  | .gathering .. => wage agent + jobFee crew
  | .working w => remaining executions who w + jobFee crew
  | .finished _ => 0

def loadOf (executions : List (Execution Actor)) (k : Kickoff) : Actor → Nat
  | .main c =>
    match k.main with
    | .taking p => taskFee k.crew * (k.crew.tasks.length - p) + fare * k.crew.tasks.length
    | .gathering p _ agent _ _ =>
      wage agent + taskFee k.crew * (k.crew.tasks.length - (p + 1)) + fare * k.crew.tasks.length
    | .working p w =>
      remaining executions (.main c) w + taskFee k.crew * (k.crew.tasks.length - (p + 1)) +
        fare * k.crew.tasks.length
    | .closing _ => fare * k.crew.tasks.length
    | .finished _ => 0
  | .job c j =>
    match k.jobs[j]? with
    | some job => phaseLoad executions k.crew (.job c j) job.agent job.phase
    | none => 0

def unnoticed (noticed : List Actor) (c : Nat) (k : Kickoff) : Finset Nat :=
  (Finset.range k.jobs.length).filter fun j => .job c j ∉ noticed

def openLoad (executions : List (Execution Actor)) (noticed : List Actor) (c : Nat) (k : Kickoff) : Nat :=
  loadOf executions k (.main c) + ∑ j ∈ Finset.range k.jobs.length, loadOf executions k (.job c j) +
    (unnoticed noticed c k).card

def load (executions : List (Execution Actor)) (noticed : List Actor) (c : Nat) (k : Kickoff) : Nat :=
  if k.result?.isSome then 0 else openLoad executions noticed c k

def loads (executions : List (Execution Actor)) (noticed : List Actor) (kickoffs : List Kickoff) : Nat :=
  ∑ c ∈ Finset.range kickoffs.length, (kickoffs[c]?).elim 0 (load executions noticed c)

section Loads
variable {executions more : List (Execution Actor)} {noticed : List Actor} {k after : Kickoff}
variable {kickoffs : List Kickoff} {who : Actor} {c : Nat}

theorem load_le_openLoad : load executions noticed c k ≤ openLoad executions noticed c k := by
  unfold load
  split
  · exact Nat.zero_le _
  · exact le_rfl

theorem load_eq_openLoad (going : k.result? = none) :
    load executions noticed c k = openLoad executions noticed c k := by
  rw [load, going]
  rfl

theorem openLoad_add_le (noticed : List Actor) (crew : who.crew = c) (has : k.Has who)
    (same : after.jobs.length = k.jobs.length)
    (others : ∀ other, other.crew = c → k.Has other → other ≠ who →
      loadOf more after other ≤ loadOf executions k other) :
    openLoad more noticed c after + loadOf executions k who ≤
      openLoad executions noticed c k + loadOf more after who := by
  have unnoticed_same : unnoticed noticed c after = unnoticed noticed c k := by
    rw [unnoticed, unnoticed, same]
  rw [openLoad, openLoad, unnoticed_same, same]
  cases who with
  | main c' =>
      obtain rfl : c' = c := crew
      have jobs : ∑ j ∈ Finset.range k.jobs.length, loadOf more after (.job c' j) ≤
          ∑ j ∈ Finset.range k.jobs.length, loadOf executions k (.job c' j) := by
        apply Finset.sum_le_sum
        intro j inside
        exact others (.job c' j) rfl (Finset.mem_range.mp inside) (by simp)
      omega
  | job c' j =>
      obtain rfl : c' = c := crew
      have main := others (.main c') rfl trivial (by simp)
      have inside : j ∈ Finset.range k.jobs.length := Finset.mem_range.mpr has
      have jobs : ∑ i ∈ (Finset.range k.jobs.length).erase j, loadOf more after (.job c' i) ≤
          ∑ i ∈ (Finset.range k.jobs.length).erase j, loadOf executions k (.job c' i) := by
        apply Finset.sum_le_sum
        intro i there
        obtain ⟨apart, inside⟩ := Finset.mem_erase.mp there
        exact others (.job c' i) rfl (Finset.mem_range.mp inside) (by simpa using apart)
      rw [← Finset.add_sum_erase _ (fun i => loadOf more after (.job c' i)) inside,
        ← Finset.add_sum_erase _ (fun i => loadOf executions k (.job c' i)) inside]
      omega

theorem loads_add_le {found : List Actor} (after : Kickoff) (standing : kickoffs[c]? = some k)
    (others : ∀ c' k', c' ≠ c → kickoffs[c']? = some k' →
      load more found c' k' ≤ load executions noticed c' k') :
    loads more found (kickoffs.set c after) + load executions noticed c k ≤
      loads executions noticed kickoffs + load more found c after := by
  obtain ⟨below, _⟩ := List.getElem?_eq_some_iff.mp standing
  have inside : c ∈ Finset.range kickoffs.length := Finset.mem_range.mpr below
  have rest : ∑ c' ∈ (Finset.range kickoffs.length).erase c,
        ((kickoffs.set c after)[c']?).elim 0 (load more found c') ≤
      ∑ c' ∈ (Finset.range kickoffs.length).erase c,
        (kickoffs[c']?).elim 0 (load executions noticed c') := by
    apply Finset.sum_le_sum
    intro c' there
    obtain ⟨apart, inside⟩ := Finset.mem_erase.mp there
    obtain ⟨k', here⟩ : ∃ k', kickoffs[c']? = some k' :=
      ⟨_, List.getElem?_eq_getElem (Finset.mem_range.mp inside)⟩
    rw [List.getElem?_set_ne (Ne.symm apart), here]
    exact others c' _ apart here
  rw [loads, loads, List.length_set,
    ← Finset.add_sum_erase _ (fun c' => ((kickoffs.set c after)[c']?).elim 0 _) inside,
    ← Finset.add_sum_erase _ (fun c' => (kickoffs[c']?).elim 0 _) inside,
    List.getElem?_set_self below, standing]
  simp only [Option.elim_some]
  omega

theorem loads_le {found : List Actor}
    (each : ∀ c k, kickoffs[c]? = some k → load more found c k ≤ load executions noticed c k) :
    loads more found kickoffs ≤ loads executions noticed kickoffs := by
  apply Finset.sum_le_sum
  intro c inside
  obtain ⟨k, here⟩ : ∃ k, kickoffs[c]? = some k :=
    ⟨_, List.getElem?_eq_getElem (Finset.mem_range.mp inside)⟩
  rw [here]
  exact each c _ here

theorem load_congr (noticed : List Actor) (k : Kickoff)
    (same : ∀ who, who.crew = c → ∀ w, remaining more who w = remaining executions who w) :
    load more noticed c k = load executions noticed c k := by
  have each : ∀ who, who.crew = c → loadOf more k who = loadOf executions k who := by
    intro who crew
    cases who with
    | main c' => simp only [loadOf, same _ crew]
    | job c' j => simp only [loadOf, phaseLoad, same _ crew]
  have main : loadOf more k (.main c) = loadOf executions k (.main c) := each (.main c) rfl
  have jobs : ∀ j, loadOf more k (.job c j) = loadOf executions k (.job c j) :=
    fun j => each (.job c j) rfl
  rw [load, load, openLoad, openLoad, main]
  simp only [jobs]

end Loads

/-! ## What a change costs -/

section Changes
variable {ask : Answers} {executions more : List (Execution Actor)} {noticed : List Actor}
variable {k after : Kickoff} {who other : Actor} {c : Nat}

theorem loadOf_of_change {mover : Option Nat} (change : Change ask k mover after)
    (apart : mover ≠ other.job?) (has : k.Has other)
    (same : ∀ w, remaining more other w = remaining executions other w) :
    loadOf more after other = loadOf executions k other := by
  have crew := Kickoff.crew_of_change change
  cases other with
  | main c =>
      cases mover with
      | none => exact absurd rfl apart
      | some j =>
          obtain ⟨_, phase, _, rfl⟩ := Kickoff.eq_setPhase_of_change change
          simp only [loadOf, same]
          rfl
  | job c j =>
      have job := Kickoff.job_of_change change apart has
      simp only [loadOf, job, crew, phaseLoad, same]

theorem remaining_of_fresh (fresh : ∀ e ∈ executions, e.who ≠ who) (w : Work) :
    remaining executions who w = wage w.agent := by
  have none_found : executions.find? (fun e => e.who = who) = none := by
    rw [List.find?_eq_none]
    simpa using fresh
  rw [remaining, none_found]

theorem remaining_replaced {mine : Option (Execution Actor)} (his : ∀ e ∈ mine, e.who = who)
    (apart : other ≠ who) (w : Work) :
    remaining ((executions.filter fun e => e.who ≠ who) ++ mine.toList) other w =
      remaining executions other w := by
  have elsewhere : mine.toList.find? (fun e => e.who = other) = none := by
    rw [List.find?_eq_none]
    intro e member
    have same := his e (Option.mem_toList.mp member)
    simpa [same] using apart.symm
  have kept : (executions.filter fun e => e.who ≠ who).find? (fun e => e.who = other) =
      executions.find? fun e => e.who = other := by
    rw [List.find?_filter]
    congr 1
    funext e
    by_cases same : e.who = other
    · simp [same, apart]
    · simp [same]
  rw [remaining, List.find?_append, elsewhere, Option.or_none, kept, remaining]

theorem remaining_of_own {e : Execution Actor} (his : e.who = who) (w : Work) :
    remaining ((executions.filter fun e => e.who ≠ who) ++ [e]) who w = purse e := by
  have nobody : (executions.filter fun e => e.who ≠ who).find? (fun e => e.who = who) = none := by
    rw [List.find?_eq_none]
    intro other member
    simpa using (List.mem_filter.mp member).2
  have own : [e].find? (fun e => e.who = who) = some e := by simp [his]
  rw [remaining, List.find?_append, nobody, Option.none_or, own]

theorem taskFee_of_task {crew : Crew} {p : Nat} {t : CrewTask} (task : crew.tasks[p]? = some t) :
    taskFee crew * (crew.tasks.length - p) =
      taskFee crew * (crew.tasks.length - (p + 1)) + taskFee crew := by
  obtain ⟨below, _⟩ := List.getElem?_eq_some_iff.mp task
  have one_more : crew.tasks.length - p = crew.tasks.length - (p + 1) + 1 := by omega
  rw [one_more, Nat.mul_succ]

theorem wage_le_taskFee {crew : Crew} {t : CrewTask} {agent : Agent}
    (owner : crew.agentFor t = .ok agent) :
    wage agent + jobFee crew + fare + 1 ≤ taskFee crew := by
  have paid := wage_le_wages (Kickoff.employs_of_agentFor owner)
  rw [taskFee]
  omega

/-- The end of the main line wakes no more than there are tasks. -/
theorem fare_wokenBy_le (same : after.jobs.length = k.jobs.length)
    (few : k.jobs.length ≤ k.crew.tasks.length) :
    fare * Timeline.wokenBy k after none ≤ fare * k.crew.tasks.length := by
  apply Nat.mul_le_mul_left
  rw [Timeline.wokenBy, same, Nat.sub_self]
  split
  · exact few
  · exact Nat.zero_le _

theorem wokenBy_of_unfinished (same : after.jobs.length = k.jobs.length)
    (unfinished : after.result? = none) : Timeline.wokenBy k after none = 0 := by
  simp [Timeline.wokenBy, unfinished, same]

theorem loadOf_of_moveMain {c : Nat} (change : Change ask k none after)
    (moved : k.moveMain = some after) (few : k.jobs.length ≤ k.crew.tasks.length)
    (fresh : ∀ e ∈ executions, e.who ≠ .main c) (same : after.jobs.length = k.jobs.length) :
    loadOf executions after (.main c) + fare * Timeline.wokenBy k after none ≤
      loadOf executions k (.main c) := by
  have woken := fare_wokenBy_le same few
  cases change with
  | unmanned main task nobody =>
      simp only [loadOf, main, Kickoff.fail] at woken ⊢
      omega
  | handedOut main task owner apart => simp [Kickoff.handedOut] at same
  | @takenUp p t agent main task owner inLine =>
      have paid := wage_le_taskFee owner
      rw [wokenBy_of_unfinished same rfl]
      simp only [loadOf, main, taskFee_of_task task]
      omega
  | allTaken main last =>
      rw [wokenBy_of_unfinished same rfl]
      simp only [loadOf, main]
      omega
  | gathered main settled =>
      rw [wokenBy_of_unfinished same rfl]
      simp only [loadOf, main, settled.frame.1]
      omega
  | @begun p t agent context main =>
      rw [wokenBy_of_unfinished same rfl]
      simp only [loadOf, main, remaining_of_fresh fresh]
      exact le_rfl
  | answered main outcome => simp [Kickoff.moveMain, main] at moved
  | refused main outcome => simp [Kickoff.moveMain, main] at moved
  | closed main settled =>
      rw [wokenBy_of_unfinished same rfl]
      simp only [loadOf, main, settled.frame.1]
      omega
  | @broken j e awaits result =>
      have light : loadOf executions (k.fail (k.crew.failed e.message)) (.main c) = 0 := rfl
      rw [light, Nat.zero_add]
      refine woken.trans ?_
      unfold Kickoff.mainAwaits? at awaits
      split at awaits
      · next main =>
          simp only [loadOf, main]
          omega
      · next main => simp only [loadOf, main, le_refl]
      · cases awaits
  | ended main =>
      simp only [loadOf, main] at woken ⊢
      omega

theorem loadOf_setPhase (executions : List (Execution Actor)) (c : Nat) {j : Nat} {job : Job}
    (standing : k.jobs[j]? = some job) (phase : JobPhase) :
    loadOf executions k (.job c j) = phaseLoad executions k.crew (.job c j) job.agent job.phase ∧
      loadOf executions (k.setPhase j phase) (.job c j) =
        phaseLoad executions k.crew (.job c j) job.agent phase := by
  have there : (k.setPhase j phase).jobs[j]? = some { job with phase } := by
    rw [Kickoff.setPhase, List.getElem?_modify_eq, standing]
    rfl
  refine ⟨by simp only [loadOf, standing], ?_⟩
  simp only [loadOf, there]
  rfl

theorem wokenBy_setPhase {j : Nat} {job : Job} (standing : k.jobs[j]? = some job)
    (phase : JobPhase) :
    Timeline.wokenBy k (k.setPhase j phase) (some j) =
      match phase with
      | .finished _ => k.jobs.length + 1
      | _ => 0 := by
  have there : (k.setPhase j phase).jobs[j]? = some { job with phase } := by
    rw [Kickoff.setPhase, List.getElem?_modify_eq, standing]
    rfl
  rw [Timeline.wokenBy, Kickoff.jobResult?, Kickoff.phase?, there]
  cases phase <;> rfl

/-- The end of a job wakes no more than it has paid for. -/
theorem fare_awaiting_le (few : k.jobs.length ≤ k.crew.tasks.length) :
    fare * (k.jobs.length + 1) ≤ jobFee k.crew :=
  Nat.mul_le_mul_left _ (Nat.succ_le_succ few)

theorem loadOf_of_moveJob {c j : Nat} (change : Change ask k (some j) after)
    (moved : k.moveJob j = some after) (few : k.jobs.length ≤ k.crew.tasks.length)
    (fresh : ∀ e ∈ executions, e.who ≠ .job c j) :
    loadOf executions after (.job c j) + fare * Timeline.wokenBy k after (some j) ≤
      loadOf executions k (.job c j) := by
  have woken := fare_awaiting_le few
  cases change with
  | @jobBegun j job context standing phase =>
      have begun := loadOf_setPhase executions c standing
        (.working (k.work job.task job.agent (Kickoff.arranged job.order context)))
      rw [begun.1, begun.2, wokenBy_setPhase standing, phase]
      simp only [phaseLoad, remaining_of_fresh fresh]
      exact le_rfl
  | @jobGathered j other job context awaited o standing phase result =>
      have goesOn := loadOf_setPhase executions c standing
        (.gathering (context ++ [o]) awaited)
      rw [goesOn.1, goesOn.2, wokenBy_setPhase standing, phase]
      exact le_rfl
  | @jobBroken j other job context awaited e standing phase result =>
      have broken := loadOf_setPhase executions c standing
        (.finished (.error e))
      rw [broken.1, broken.2, wokenBy_setPhase standing, phase]
      simp only [phaseLoad]
      omega
  | @jobAnswered j job w standing phase =>
      have stuck : k.moveJob j = none := by
        obtain ⟨task, agent, order, _⟩ := job
        cases phase
        rw [Kickoff.moveJob, standing]
      cases stuck.symm.trans moved

theorem loadOf_of_answerMain {c : Nat} {w : Work} (change : Change ask k none after)
    (working : k.mainWork? = some w) (few : k.jobs.length ≤ k.crew.tasks.length)
    (same : after.jobs.length = k.jobs.length) :
    loadOf more after (.main c) + fare * Timeline.wokenBy k after none +
      remaining executions (.main c) w ≤ loadOf executions k (.main c) := by
  have woken := fare_wokenBy_le same few
  obtain ⟨p, main⟩ := Kickoff.mainWork?_eq_some working
  cases change with
  | unmanned phase task nobody => cases main.symm.trans phase
  | handedOut phase task owner apart => cases main.symm.trans phase
  | takenUp phase task owner inLine => cases main.symm.trans phase
  | allTaken phase last => cases main.symm.trans phase
  | gathered phase settled => cases main.symm.trans phase
  | begun phase => cases main.symm.trans phase
  | answered phase outcome =>
      cases main.symm.trans phase
      rw [wokenBy_of_unfinished same rfl]
      simp only [loadOf, main]
      omega
  | refused phase outcome =>
      cases main.symm.trans phase
      simp only [loadOf, main, Kickoff.fail] at woken ⊢
      omega
  | closed phase settled => cases main.symm.trans phase
  | broken awaits result => simp [Kickoff.mainAwaits?, main] at awaits
  | ended phase => cases main.symm.trans phase

theorem loadOf_of_answerJob {c j : Nat} {w : Work} (change : Change ask k (some j) after)
    (working : k.jobWork? j = some w) (few : k.jobs.length ≤ k.crew.tasks.length) :
    loadOf more after (.job c j) + fare * Timeline.wokenBy k after (some j) +
      remaining executions (.job c j) w ≤ loadOf executions k (.job c j) := by
  have woken := fare_awaiting_le few
  obtain ⟨job, there, phase⟩ := Kickoff.jobWork?_eq_some working
  cases change with
  | jobBegun standing waits =>
      cases there.symm.trans standing
      cases phase.symm.trans waits
  | jobGathered standing waits result =>
      cases there.symm.trans standing
      cases phase.symm.trans waits
  | jobBroken standing waits result =>
      cases there.symm.trans standing
      cases phase.symm.trans waits
  | jobAnswered standing works =>
      cases there.symm.trans standing
      cases phase.symm.trans works
      rw [(loadOf_setPhase executions c standing job.phase).1,
        (loadOf_setPhase more c standing (.finished (w.outcome (w.answer ask)))).2,
        wokenBy_setPhase standing, phase]
      simp only [phaseLoad]
      omega

theorem openLoad_handedOut {p : Nat} {t : CrewTask} {agent : Agent} (main : k.main = .taking p)
    (task : k.crew.tasks[p]? = some t) (owner : k.crew.agentFor t = .ok agent)
    (apart : t.isAsync = true) :
    openLoad executions noticed c (k.handedOut p t agent) +
      fare * Timeline.wokenBy k (k.handedOut p t agent) none ≤ openLoad executions noticed c k := by
  have change : Change Timeline.answers k none (k.handedOut p t agent) :=
    .handedOut main task owner apart
  have count : (k.handedOut p t agent).jobs.length = k.jobs.length + 1 := by
    simp [Kickoff.handedOut]
  have old : ∑ j ∈ Finset.range k.jobs.length,
      loadOf executions (k.handedOut p t agent) (.job c j) =
      ∑ j ∈ Finset.range k.jobs.length, loadOf executions k (.job c j) := by
    apply Finset.sum_congr rfl
    intro j inside
    have has : k.Has (.job c j) := Finset.mem_range.mp inside
    exact loadOf_of_change change (by simp [Actor.job?]) has fun _ => rfl
  have new : loadOf executions (k.handedOut p t agent) (.job c k.jobs.length) =
      wage agent + jobFee k.crew := by
    simp [loadOf, Kickoff.handedOut, phaseLoad]
  have found : (unnoticed noticed c (k.handedOut p t agent)).card ≤ (unnoticed noticed c k).card + 1 := by
    rw [unnoticed, count, Finset.range_add_one, Finset.filter_insert]
    split
    · exact Finset.card_insert_le _ _
    · exact Nat.le_succ _
  have woken : Timeline.wokenBy k (k.handedOut p t agent) none = 1 := by
    simp [Timeline.wokenBy, Kickoff.handedOut, Kickoff.result?]
  have goesOn : loadOf executions (k.handedOut p t agent) (.main c) + taskFee k.crew =
      loadOf executions k (.main c) := by
    simp only [loadOf, Kickoff.handedOut, main, taskFee_of_task task]
    omega
  have paid := wage_le_taskFee owner
  rw [openLoad, openLoad, count, Finset.sum_range_succ, old, new, woken, Nat.mul_one]
  omega

theorem Actor.job?_ne (crew : who.crew = c) (sameCrew : other.crew = c) (apart : other ≠ who) :
    who.job? ≠ other.job? := by
  intro same
  exact apart (Actor.eq_of_same (crew.trans sameCrew.symm) same).symm

theorem load_of_moveBy (moved : k.moveBy who = some after) (crew : who.crew = c)
    (going : k.result? = none) (few : k.jobs.length ≤ k.crew.tasks.length)
    (fresh : ∀ e ∈ executions, e.who ≠ who) :
    load executions noticed c after + fare * Timeline.wokenBy k after who.job? ≤
      load executions noticed c k := by
  have change : Change Timeline.answers k who.job? after := Kickoff.change_of_moveBy moved
  have others : ∀ other, other.crew = c → k.Has other → other ≠ who →
      loadOf executions after other ≤ loadOf executions k other := by
    intro other sameCrew has apart
    exact (loadOf_of_change change (Actor.job?_ne crew sameCrew apart) has fun _ => rfl).le
  rw [load_eq_openLoad going]
  refine (Nat.add_le_add_right load_le_openLoad _).trans ?_
  cases who with
  | main c' =>
      by_cases same : after.jobs.length = k.jobs.length
      · have swapped := openLoad_add_le noticed crew trivial same others
        have paid := loadOf_of_moveMain change moved few fresh same
        simp only [Actor.job?]
        omega
      · cases change with
        | handedOut main task owner apart => exact openLoad_handedOut main task owner apart
        | gathered main settled => exact absurd (congrArg List.length settled.frame.2.2.2.1) same
        | closed main settled => exact absurd (congrArg List.length settled.frame.2.2.2.1) same
        | _ => exact absurd rfl same
  | job c' j =>
      obtain ⟨job, phase, standing, rfl⟩ := Kickoff.eq_setPhase_of_change change
      have has : k.Has (.job c' j) := (List.getElem?_eq_some_iff.mp standing).1
      have same : (k.setPhase j phase).jobs.length = k.jobs.length := by simp [Kickoff.setPhase]
      have swapped := openLoad_add_le noticed crew has same others
      have paid := loadOf_of_moveJob change moved few fresh
      simp only [Actor.job?]
      omega

theorem load_of_workBy {w : Work} (noticed : List Actor) (working : k.workBy? who = some w)
    (crew : who.crew = c) (going : k.result? = none)
    (others : ∀ other, other ≠ who → ∀ w, remaining more other w = remaining executions other w) :
    load more noticed c k + remaining executions who w ≤
      load executions noticed c k + remaining more who w := by
  have kept : ∀ other, other.crew = c → k.Has other → other ≠ who →
      loadOf more k other ≤ loadOf executions k other := by
    intro other _ _ apart
    cases other with
    | main c' => simp only [loadOf, others _ apart, le_refl]
    | job c' j => simp only [loadOf, phaseLoad, others _ apart, le_refl]
  have swapped := openLoad_add_le noticed crew (Kickoff.has_of_workBy? working) rfl kept
  have own : loadOf more k who + remaining executions who w =
      loadOf executions k who + remaining more who w := by
    cases who with
    | main c' =>
        obtain ⟨p, main⟩ := Kickoff.mainWork?_eq_some working
        simp only [loadOf, main]
        omega
    | job c' j =>
        obtain ⟨job, standing, phase⟩ := Kickoff.jobWork?_eq_some working
        simp only [loadOf, standing, phase, phaseLoad]
        omega
  rw [load_eq_openLoad going, load_eq_openLoad going]
  omega

theorem load_of_answerBy {w : Work} (change : Change ask k who.job? after) (crew : who.crew = c)
    (going : k.result? = none) (working : k.workBy? who = some w)
    (few : k.jobs.length ≤ k.crew.tasks.length) (same : after.jobs.length = k.jobs.length)
    (others : ∀ other, other ≠ who → ∀ w, remaining more other w = remaining executions other w) :
    load more noticed c after + fare * Timeline.wokenBy k after who.job? +
      remaining executions who w ≤ load executions noticed c k := by
  have has := Kickoff.has_of_workBy? working
  have kept : ∀ other, other.crew = c → k.Has other → other ≠ who →
      loadOf more after other ≤ loadOf executions k other := by
    intro other sameCrew has apart
    exact (loadOf_of_change change (Actor.job?_ne crew sameCrew apart) has (others other apart)).le
  have swapped := openLoad_add_le noticed crew has same kept
  have paid : loadOf more after who + fare * Timeline.wokenBy k after who.job? +
      remaining executions who w ≤ loadOf executions k who := by
    cases who with
    | main c' => exact loadOf_of_answerMain change working few same
    | job c' j => exact loadOf_of_answerJob change working few
  have light : load more noticed c after ≤ openLoad more noticed c after := load_le_openLoad
  rw [load_eq_openLoad going]
  omega

end Changes

end CrewFlow.Crew
