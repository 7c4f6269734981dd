import Mathlib
import CrewFlow.Crew.Timeline
import CrewFlow.Proofs.Crew.Reached
/-!
# Polls

The main line of a crew and its jobs are polled in the same way: an actor looks for the end of the job
that it awaits, moves as long as it can, goes on with its work, and stops when it has to wait.
-/
set_option autoImplicit false

namespace CrewFlow.Crew

open Agent (AgentError Execution Progress)
open Kickoff (Step Change)

/-! ## Actors -/

def Actor.crew : Actor → Nat
  | .main c => c
  | .job c _ => c

/-- The number of a job. The main line has none. -/
def Actor.job? : Actor → Option Nat
  | .main _ => none
  | .job _ j => some j

theorem Actor.eq_of_same {who other : Actor} (crew : who.crew = other.crew)
    (job : who.job? = other.job?) : who = other := by
  cases who with
  | main c =>
      cases other with
      | main c' => exact congrArg Actor.main crew
      | job c' j => cases job
  | job c j =>
      cases other with
      | main c' => cases job
      | job c' i =>
          cases job
          exact congrArg (Actor.job · j) crew

namespace Kickoff

variable {k after : Kickoff} {who other : Actor} {w : Work}

/-- A move of an actor, if it can move by itself. -/
def moveBy (k : Kickoff) : Actor → Option Kickoff
  | .main _ => k.moveMain
  | .job _ j => k.moveJob j

/-- What an actor works on, if it does. -/
def workBy? (k : Kickoff) : Actor → Option Work
  | .main _ => k.mainWork?
  | .job _ j => k.jobWork? j

def awaitedBy? (k : Kickoff) : Actor → Option Nat
  | .main _ => k.mainAwaits?
  | .job _ j => k.jobAwaits? j

/-- Hands the answer of its agent to an actor. -/
def answerBy (k : Kickoff) (answer : Except String String) : Actor → Kickoff
  | .main _ => k.answerMain answer
  | .job _ j => k.answerJob j answer

theorem step_of_moveBy {ask : Answers} (moved : k.moveBy who = some after) : Step ask k after := by
  cases who with
  | main c => exact .main moved
  | job c j => exact .job moved

theorem step_of_answerBy {ask : Answers} (working : k.workBy? who = some w) :
    Step ask k (k.answerBy (w.answer ask) who) := by
  cases who with
  | main c => exact .mainAnswered working
  | job c j => exact .jobAnswered working

theorem workBy?_of_moveBy (moved : k.moveBy who = some after) (working : k.workBy? other = some w) :
    after.workBy? other = some w := by
  cases who with
  | main c =>
      cases other with
      | main c' =>
          have stuck := moveMain_of_mainWork? working
          cases stuck.symm.trans moved
      | job c' j => exact jobWork?_of_moveMain moved working
  | job c j =>
      cases other with
      | main c' =>
          rw [workBy?, mainWork?, main_of_moveJob moved]
          exact working
      | job c' i => exact jobWork?_of_moveJob moved working

theorem workBy?_answerBy (sameCrew : other.crew = who.crew) (apart : other ≠ who)
    (answer : Except String String) : (k.answerBy answer who).workBy? other = k.workBy? other := by
  cases who with
  | main c =>
      cases other with
      | main c' => exact absurd (congrArg Actor.main sameCrew) apart
      | job c' j => exact jobWork?_answerMain answer
  | job c j =>
      cases other with
      | main c' =>
          rw [workBy?, mainWork?, answerBy, main_answerJob]
          rfl
      | job c' i =>
          refine jobWork?_answerJob answer ?_
          rintro rfl
          exact apart (congrArg (Actor.job · i) sameCrew)

theorem moveBy_of_workBy? (working : k.workBy? who = some w) : k.moveBy who = none := by
  cases who with
  | main c => exact moveMain_of_mainWork? working
  | job c j =>
      obtain ⟨⟨task, agent, order, phase⟩, standing, works⟩ := jobWork?_eq_some working
      cases works
      rw [moveBy, moveJob, standing]

def Has (k : Kickoff) : Actor → Prop
  | .main _ => True
  | .job _ j => j < k.jobs.length

def IsOver (k : Kickoff) : Actor → Prop
  | .main _ => k.result?.isSome = true
  | .job _ j => (k.jobResult? j).isSome = true

theorem has_of_workBy? (working : k.workBy? who = some w) : k.Has who := by
  cases who with
  | main c => trivial
  | job c j =>
      obtain ⟨job, standing, _⟩ := jobWork?_eq_some working
      exact (List.getElem?_eq_some_iff.mp standing).1

theorem awaitedBy?_of_workBy? (working : k.workBy? who = some w) :
    k.awaitedBy? who = none ∧ ¬k.IsOver who := by
  cases who with
  | main c =>
      obtain ⟨p, main⟩ := mainWork?_eq_some working
      simp [awaitedBy?, mainAwaits?, IsOver, result?, main]
  | job c j =>
      rw [workBy?] at working
      unfold jobWork? at working
      split at working
      · next phase => simp [awaitedBy?, jobAwaits?, IsOver, jobResult?, phase]
      · cases working

theorem has_of_awaitedBy? {j : Nat} (awaits : k.awaitedBy? who = some j) : k.Has who := by
  cases who with
  | main c => trivial
  | job c i =>
      rw [awaitedBy?] at awaits
      unfold jobAwaits? phase? at awaits
      cases standing : k.jobs[i]? with
      | none => simp [standing] at awaits
      | some job => exact (List.getElem?_eq_some_iff.mp standing).1

theorem isOver_of_stuck (stuck : k.moveBy who = none) (idle : k.workBy? who = none)
    (alone : k.awaitedBy? who = none) (has : k.Has who) : k.IsOver who := by
  cases who with
  | main c =>
      rcases moveMain_eq_none stuck with ⟨w, working⟩ | ⟨name, j, awaits, _⟩ | ⟨result, main⟩
      · cases working.symm.trans idle
      · cases awaits.symm.trans alone
      · simp [IsOver, result?, main]
  | job c j =>
      have standing : k.jobs[j]? = some k.jobs[j] := List.getElem?_eq_getElem has
      rcases moveJob_eq_none standing stuck with
        ⟨w, working⟩ | ⟨context, other, awaited, phase, _⟩ | ⟨result, finished⟩
      · cases working.symm.trans idle
      · simp [awaitedBy?, jobAwaits?, phase?, standing, phase] at alone
      · exact Option.isSome_iff_exists.mpr ⟨result, finished⟩

theorem jobResult?_of_stuck {j : Nat} (stuck : k.moveBy who = none) (idle : k.workBy? who = none)
    (awaits : k.awaitedBy? who = some j) : k.jobResult? j = none := by
  cases who with
  | main c =>
      rcases moveMain_eq_none stuck with
        ⟨w, working⟩ | ⟨name, i, same, _, unfinished⟩ | ⟨result, main⟩
      · cases working.symm.trans idle
      · cases same.symm.trans awaits
        exact unfinished
      · simp [awaitedBy?, mainAwaits?, main] at awaits
  | job c i =>
      rw [awaitedBy?] at awaits
      unfold jobAwaits? phase? at awaits
      cases standing : k.jobs[i]? with
      | none => simp [standing] at awaits
      | some job =>
          rw [standing, Option.map_some] at awaits
          rcases moveJob_eq_none standing stuck with
            ⟨w, working⟩ | ⟨context, other, awaited, phase, unfinished⟩ | ⟨result, finished⟩
          · cases working.symm.trans idle
          · simp only [phase] at awaits
            cases awaits
            exact unfinished
          · obtain ⟨_, there, phase⟩ := jobResult?_eq_some finished
            cases standing.symm.trans there
            simp [phase] at awaits

theorem change_of_moveBy {ask : Answers} (moved : k.moveBy who = some after) :
    Change ask k who.job? after := by
  cases who with
  | main c => exact change_of_moveMain moved
  | job c j => exact change_of_moveJob moved

theorem change_of_answerBy {ask : Answers} (forgetful : k.memory = none)
    (working : k.workBy? who = some w) : Change ask k who.job? (k.answerBy (w.answer ask) who) := by
  cases who with
  | main c => exact change_of_answerMain forgetful working
  | job c j => exact change_of_answerJob forgetful working

theorem crew_of_change {ask : Answers} {mover : Option Nat} (change : Change ask k mover after) :
    after.crew = k.crew := by
  cases change with
  | gathered main settled => exact settled.frame.1
  | closed main settled => exact settled.frame.1
  | _ => rfl

theorem isSome_result?_of_change {ask : Answers} {mover : Option Nat} (change : Change ask k mover after)
    (ended : k.result?.isSome = true) : after.result?.isSome = true := by
  obtain ⟨result, found⟩ := Option.isSome_iff_exists.mp ended
  have main := result?_eq_some found
  cases change with
  | jobBegun standing phase => exact ended
  | jobGathered standing phase result => exact ended
  | jobBroken standing phase result => exact ended
  | jobAnswered standing phase => exact ended
  | broken awaits result => simp [mainAwaits?, main] at awaits
  | unmanned phase task nobody => cases main.symm.trans phase
  | handedOut phase task owner apart => cases main.symm.trans phase
  | takenUp phase task owner inLine => cases main.symm.trans phase
  | allTaken phase last => cases main.symm.trans phase
  | gathered phase settled => cases main.symm.trans phase
  | begun phase => cases main.symm.trans phase
  | answered phase outcome => cases main.symm.trans phase
  | refused phase outcome => cases main.symm.trans phase
  | closed phase settled => cases main.symm.trans phase
  | ended phase => cases main.symm.trans phase

theorem jobs_of_change {ask : Answers} (change : Change ask k none after) :
    k.jobs <+: after.jobs := by
  cases change with
  | handedOut main task owner apart => exact List.prefix_append ..
  | gathered main settled =>
      rw [settled.frame.2.2.2.1]
  | closed main settled =>
      rw [settled.frame.2.2.2.1]
  | _ => exact List.prefix_rfl

theorem eq_setPhase_of_change {ask : Answers} {j : Nat} (change : Change ask k (some j) after) :
    ∃ job phase, k.jobs[j]? = some job ∧ after = k.setPhase j phase := by
  cases change with
  | jobBegun standing phase => exact ⟨_, _, standing, rfl⟩
  | jobGathered standing phase result => exact ⟨_, _, standing, rfl⟩
  | jobBroken standing phase result => exact ⟨_, _, standing, rfl⟩
  | jobAnswered standing phase => exact ⟨_, _, standing, rfl⟩

theorem job_of_change {ask : Answers} {mover : Option Nat} {j : Nat}
    (change : Change ask k mover after) (apart : mover ≠ some j) (below : j < k.jobs.length) :
    after.jobs[j]? = k.jobs[j]? := by
  cases mover with
  | none =>
      obtain ⟨more, grown⟩ := jobs_of_change change
      rw [← grown, List.getElem?_append_left below]
  | some i =>
      obtain ⟨_, phase, _, rfl⟩ := eq_setPhase_of_change change
      exact List.getElem?_modify_ne _ _ fun same => apart (congrArg some same)

theorem jobResult?_of_change {ask : Answers} {mover : Option Nat} {j : Nat}
    (change : Change ask k mover after) (apart : mover ≠ some j) (below : j < k.jobs.length) :
    after.jobResult? j = k.jobResult? j := by
  rw [jobResult?, phase?, job_of_change change apart below]
  rfl

theorem length_jobs_of_change {ask : Answers} {mover : Option Nat}
    (change : Change ask k mover after) : k.jobs.length ≤ after.jobs.length := by
  cases mover with
  | none => exact (jobs_of_change change).length_le
  | some j =>
      obtain ⟨_, phase, _, rfl⟩ := eq_setPhase_of_change change
      simp [setPhase]

theorem length_jobs_answerBy (answer : Except String String) :
    (k.answerBy answer who).jobs.length = k.jobs.length := by
  cases who with
  | main c => rw [answerBy, jobs_answerMain]
  | job c j =>
      rw [answerBy]
      unfold answerJob
      split
      · rw [setPhase, List.length_modify, jobs_rememberAnswer]
      · rfl

theorem Has.of_change {ask : Answers} {mover : Option Nat} (change : Change ask k mover after)
    (has : k.Has other) : after.Has other := by
  cases other with
  | main c => trivial
  | job c j => exact Nat.lt_of_lt_of_le has (length_jobs_of_change change)

/-- Whom somebody awaits, and whether somebody is over, stays so while others move. -/
theorem awaitedBy?_of_change {ask : Answers} {mover : Option Nat}
    (change : Change ask k mover after) (apart : mover ≠ other.job?) (has : k.Has other) :
    after.awaitedBy? other = k.awaitedBy? other ∧ (k.IsOver other → after.IsOver other) := by
  cases other with
  | main c =>
      cases mover with
      | none => exact absurd rfl apart
      | some j =>
          obtain ⟨_, phase, _, rfl⟩ := eq_setPhase_of_change change
          exact ⟨rfl, id⟩
  | job c j =>
      have same := job_of_change change apart has
      simp only [awaitedBy?, jobAwaits?, IsOver, jobResult?, phase?, same]
      exact ⟨trivial, id⟩

theorem Staffed.employs_of_workBy {crew : Crew} (staffed : Staffed crew k)
    (working : k.workBy? who = some w) : Employs crew w.agent := by
  cases who with
  | main c =>
      obtain ⟨p, phase⟩ := mainWork?_eq_some working
      have main := staffed.main
      rw [phase] at main
      exact main
  | job c j =>
      obtain ⟨job, here, phase⟩ := jobWork?_eq_some working
      exact (staffed.jobs job (List.mem_of_getElem? here)).2 w phase

end Kickoff

/-! ## Polling -/

namespace Timeline

/-- Writes a kickoff back after one of its actors has moved. -/
def afterBy (t : Timeline) (before after : Kickoff) : Actor → Timeline
  | .main c => t.afterMain c before after
  | .job c j => t.afterJob c j after

/-- How a timeline comes to another by polling an actor, in at most so many moves. -/
inductive Polled (who : Actor) : Nat → Timeline → Timeline → Prop
  | tired {t : Timeline} : Polled who 0 t t
  | absent {n : Nat} {t : Timeline} (nobody : t.kickoffs[who.crew]? = none) : Polled who (n + 1) t t
  | spent {n : Nat} {t : Timeline} {k : Kickoff} (standing : t.kickoffs[who.crew]? = some k)
      (spent : t.lookFor who.crew k (k.awaitedBy? who) = none) :
      Polled who (n + 1) t (t.exhaust who.mover)
  | moved {n : Nat} {t looked last : Timeline} {k after : Kickoff}
      (standing : t.kickoffs[who.crew]? = some k)
      (look : t.lookFor who.crew k (k.awaitedBy? who) = some looked)
      (moved : k.moveBy who = some after) (rest : Polled who n (looked.afterBy k after who) last) :
      Polled who (n + 1) t last
  | answered {n : Nat} {t looked worked last : Timeline} {k : Kickoff} {w : Work}
      {answer : Except String String} (standing : t.kickoffs[who.crew]? = some k)
      (look : t.lookFor who.crew k (k.awaitedBy? who) = some looked)
      (working : k.workBy? who = some w) (works : looked.work who w = (worked, some answer))
      (rest : Polled who n (worked.afterBy k (k.answerBy answer who) who) last) :
      Polled who (n + 1) t last
  | working {n : Nat} {t looked last : Timeline} {k : Kickoff} {w : Work}
      (standing : t.kickoffs[who.crew]? = some k)
      (look : t.lookFor who.crew k (k.awaitedBy? who) = some looked)
      (working : k.workBy? who = some w) (works : looked.work who w = (last, none)) :
      Polled who (n + 1) t last
  | awaiting {n j : Nat} {t looked : Timeline} {k : Kickoff}
      (standing : t.kickoffs[who.crew]? = some k)
      (look : t.lookFor who.crew k (k.awaitedBy? who) = some looked)
      (stuck : k.moveBy who = none) (idle : k.workBy? who = none)
      (awaits : k.awaitedBy? who = some j) :
      Polled who (n + 1) t (looked.await (.job who.crew j) who)
  | resting {n : Nat} {t looked : Timeline} {k : Kickoff}
      (standing : t.kickoffs[who.crew]? = some k)
      (look : t.lookFor who.crew k (k.awaitedBy? who) = some looked)
      (stuck : k.moveBy who = none) (idle : k.workBy? who = none)
      (alone : k.awaitedBy? who = none) :
      Polled who (n + 1) t looked

theorem polled_pollMain (c n : Nat) (t : Timeline) : Polled (.main c) n t (t.pollMain c n) := by
  induction n generalizing t with
  | zero => exact .tired
  | succ n ih =>
      rw [pollMain]
      split
      · next nobody => exact .absent nobody
      · next k standing =>
          split
          · next spent => exact .spent standing spent
          · next looked look =>
              split
              · next after moved => exact .moved standing look moved (ih _)
              · next stuck =>
                  split
                  · next w working =>
                      split
                      · next worked answer works => exact .answered standing look working works (ih _)
                      · next last works => exact .working standing look working works
                  · next j idle awaits => exact .awaiting standing look stuck idle awaits
                  · next idle alone => exact .resting standing look stuck idle alone

theorem polled_pollJob (c j n : Nat) (t : Timeline) : Polled (.job c j) n t (t.pollJob c j n) := by
  induction n generalizing t with
  | zero => exact .tired
  | succ n ih =>
      rw [pollJob]
      split
      · next nobody => exact .absent nobody
      · next k standing =>
          split
          · next spent => exact .spent standing spent
          · next looked look =>
              split
              · next after moved => exact .moved standing look moved (ih _)
              · next stuck =>
                  split
                  · next w working =>
                      split
                      · next worked answer works => exact .answered standing look working works (ih _)
                      · next last works => exact .working standing look working works
                  · next i idle awaits => exact .awaiting standing look stuck idle awaits
                  · next idle alone => exact .resting standing look stuck idle alone

/-! ## Work -/

variable {t : Timeline}

/-- The execution that an actor goes on with. -/
def underway (t : Timeline) (who : Actor) (w : Work) : Execution Actor :=
  (t.executions.find? fun e => e.who = who).getD
    (Execution.start who w.agent w.task.tools w.prompt t.now)

/-- What the execution of an actor comes to in a turn. -/
def progress (t : Timeline) (who : Actor) (w : Work) : Progress Actor :=
  (t.underway who w).advance t.now (t.limiters.lookup w.agent.role) t.left

def charge (t : Timeline) (role : String) (p : Progress Actor) : Timeline :=
  let charged : Timeline := { t with calls := t.calls ++ p.calls, left := p.left }
  match t.limiters.lookup role, p.limiter with
  | some before, some after => charged.putLimiter role before after
  | _, _ => charged

def newAlarms (t : Timeline) (who : Actor) (e : Execution Actor) : List (Nat × Actor) :=
  let known := ((t.executions.find? fun e => e.who = who).map Execution.alarms).getD []
  (e.alarms.filter fun time => !known.contains time).map fun time => (time, who)

theorem work_of_finished {who : Actor} {w : Work} {result : Except AgentError String}
    (outcome : (t.progress who w).outcome = .finished result) :
    t.work who w =
      ({ t.charge w.agent.role (t.progress who w) with
        executions := t.executions.filter fun e => e.who ≠ who
        alarms := (t.charge w.agent.role (t.progress who w)).alarms.filter fun a => a.2 ≠ who },
        some (result.mapError (·.message))) := by
  unfold progress underway at outcome
  unfold work
  dsimp only
  rw [outcome]
  rfl

theorem work_of_waiting {who : Actor} {w : Work} {e : Execution Actor} {isSpent : Bool}
    (outcome : (t.progress who w).outcome = .waiting e isSpent) :
    t.work who w =
      (let left : Timeline := { t.charge w.agent.role (t.progress who w) with
        executions := (t.executions.filter fun e => e.who ≠ who) ++ [e]
        alarms := (t.charge w.agent.role (t.progress who w)).alarms ++ t.newAlarms who e }
      if isSpent then left.exhaust who.mover else left, none) := by
  unfold progress underway at outcome
  unfold work
  dsimp only
  rw [outcome]
  rfl

end Timeline

end CrewFlow.Crew
