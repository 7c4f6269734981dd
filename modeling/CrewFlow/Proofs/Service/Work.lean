import Mathlib
import CrewFlow.Proofs.Flow.Passage
import CrewFlow.Proofs.Run.Later
import CrewFlow.Service.Tracker
/-!
# Work on submissions

What a background run does between its two checkpoints, in the steps between which other runs may come:
its document is compiled, and a flow is walked round by round, each with a state that is saved. Whatever
comes between, the work ends with the outcome that the submission has by itself.
-/
set_option autoImplicit false

namespace CrewFlow.Service

open Build (Collaborators)
open CrewFlow.Flow (Graph Halt Passage Round Visit Walk)
open Execution (Snapshot Store)
open Json (Value)
open Run (Clock)

/-- Runs submissions with collaborators of their own, each in line with the others. -/
def carryOut (c : Collaborators Id) : Execute := fun s flowId now =>
  Run.compileAndRun c s.document s.wish s.inputs s.effectiveWorkflowId flowId .inLine now

/-- What a submission comes to by itself. -/
def Submission.outcome (c : Collaborators Id) (s : Submission) (flowId : String) : Except BuildError Value :=
  (carryOut c s flowId 0).result

theorem result_carryOut (c : Collaborators Id) (s : Submission) (flowId : String) (now : Nat) :
    (carryOut c s flowId now).result = s.outcome c flowId := Run.result_compileAndRun ..

/-- How far the work on a submission has come: it waits, a flow is being walked, or it is done. -/
inductive Work where
  | waiting
  | walking (graph : Graph) (crews : List Crew) (walk : Walk Clock)
  | done (result : Except BuildError Value)

/-- The result of a walk that has ended. -/
def resultOf (ending : Walk Clock × Option ExecutionError) : Except BuildError Value :=
  match ending with
  | (walk, none) => .ok (Run.walkResult walk)
  | (_, some e) => .error (.execution e)

/-- Saves states one after the other. -/
def saveAll (store : Store) (states : List Snapshot) : Store :=
  states.foldl (fun s x => s.saveState x.flowId x.method x.state) store

theorem records_saveAll (store : Store) (states : List Snapshot) :
    (saveAll store states).records = store.records := by
  induction states generalizing store with
  | nil => rfl
  | cons x rest ih => exact ih (store.saveState x.flowId x.method x.state)

theorem saveAll_append (store : Store) (first second : List Snapshot) :
    saveAll store (first ++ second) = saveAll (saveAll store first) second := List.foldl_append ..

section Progress
variable (c : Collaborators Id) (s : Submission) (flowId : String)

/-- The walk of a flow before its first step. -/
def firstWalk (graph : Graph) (fields : List Spec.FieldSpec) (agents : List Agent) (now : Nat) :
    Walk Clock :=
  .start graph (.start flowId fields graph.stepNames s.effectiveWorkflowId)
    (.ofAgents agents .inLine now)

/-- One step of the work on a submission. What it shares with others is the store of states. -/
inductive Progress (store : Store) : Work → Store → Work → Prop where
  | refused {e : BuildError} (compiled : (Run.compile c s.document s.wish).run = .error e) :
      Progress store .waiting store (.done (.error e))
  | gathered {crews : List Crew} {agents : List Agent}
      (compiled : (Run.compile c s.document s.wish).run = .ok (.parallel crews, agents)) (now : Nat) :
      Progress store .waiting store (.done ((Run.gathered crews
        (Run.runSideBySide crews s.inputs (.ofAgents agents .inLine now)).1).mapError .execution))
  | started {graph : Graph} {crews : List Crew} {fields : List Spec.FieldSpec} {agents : List Agent}
      (compiled : (Run.compile c s.document s.wish).run = .ok (.flow graph crews fields, agents))
      (now : Nat) :
      Progress store .waiting store (.walking graph crews (firstWalk s flowId graph fields agents now))
  | went {graph : Graph} {crews : List Crew} {walk next : Walk Clock} {visit : Option Visit}
      (round : Round Run.runCrew crews s.inputs graph walk visit next) :
      Progress store (.walking graph crews walk)
        (saveAll store (next.saved.drop walk.saved.length)) (.walking graph crews next)
  | halted {graph : Graph} {crews : List Crew} {walk : Walk Clock}
      {ending : Walk Clock × Option ExecutionError}
      (halt : Halt Run.runCrew crews s.inputs graph walk ending) :
      Progress store (.walking graph crews walk) store (.done (resultOf ending))

/-- What is known of the work on a submission at any time: the point that a walk has come to is one that
the run by itself passes, and what it is done with is the outcome of the submission. -/
inductive Faithful : Work → Prop where
  | waiting : Faithful .waiting
  | walking {graph : Graph} {crews : List Crew} {fields : List Spec.FieldSpec} {agents : List Agent}
      (compiled : (Run.compile c s.document s.wish).run = .ok (.flow graph crews fields, agents))
      {now : Nat} {visits : List Visit} {walk : Walk Clock}
      (passage : Passage Run.runCrew crews s.inputs graph (firstWalk s flowId graph fields agents now)
        visits walk) : Faithful (.walking graph crews walk)
  | done : Faithful (.done (s.outcome c flowId))

end Progress

section Own
variable {c : Collaborators Id} {s : Submission} {flowId : String}

theorem outcome_of_refused {e : BuildError} (compiled : (Run.compile c s.document s.wish).run = .error e) :
    s.outcome c flowId = .error e := by
  rw [Submission.outcome, carryOut, Run.compileAndRun, compiled]

theorem outcome_of_gathered {crews : List Crew} {agents : List Agent}
    (compiled : (Run.compile c s.document s.wish).run = .ok (.parallel crews, agents)) (now : Nat) :
    s.outcome c flowId = (Run.gathered crews
      (Run.runSideBySide crews s.inputs (.ofAgents agents .inLine now)).1).mapError .execution := by
  rw [← result_carryOut c s flowId now, carryOut, Run.compileAndRun, compiled]
  rfl

/-- The run of a flow by itself comes to where its walk ends. -/
theorem carryOut_flow {graph : Graph} {crews : List Crew} {fields : List Spec.FieldSpec}
    {agents : List Agent}
    (compiled : (Run.compile c s.document s.wish).run = .ok (.flow graph crews fields, agents))
    (now : Nat) {ending : Walk Clock × Option ExecutionError}
    (ends : (firstWalk s flowId graph fields agents now).run Run.runCrew crews s.inputs graph = ending) :
    (carryOut c s flowId now).result = resultOf ending ∧
      (carryOut c s flowId now).saved = ending.1.saved := by
  have whole : Flow.run Run.runCrew crews graph s.inputs
      (.start flowId fields graph.stepNames s.effectiveWorkflowId) (.ofAgents agents .inLine now) =
        ending := ends
  rw [carryOut, Run.compileAndRun, compiled]
  simp only [Run.Compiled.run, whole]
  obtain ⟨last, failure⟩ := ending
  cases failure <;> exact ⟨rfl, rfl⟩

/-- Where a walk that the run by itself passes halts, the submission ends. -/
theorem outcome_of_halt {graph : Graph} {crews : List Crew} {fields : List Spec.FieldSpec}
    {agents : List Agent}
    (compiled : (Run.compile c s.document s.wish).run = .ok (.flow graph crews fields, agents))
    {now : Nat} {visits : List Visit} {walk : Walk Clock}
    (passage : Passage Run.runCrew crews s.inputs graph (firstWalk s flowId graph fields agents now)
      visits walk) {ending : Walk Clock × Option ExecutionError}
    (halt : Halt Run.runCrew crews s.inputs graph walk ending) :
    s.outcome c flowId = resultOf ending := by
  have ends := passage.run_eq.symm.trans (Flow.run_of_halt _ _ _ _ halt)
  rw [← result_carryOut c s flowId now, (carryOut_flow compiled now ends).1]

theorem Faithful.progress {work next : Work} {store after : Store} (faithful : Faithful c s flowId work)
    (progress : Progress c s flowId store work after next) : Faithful c s flowId next := by
  cases progress with
  | refused compiled => exact outcome_of_refused compiled ▸ .done
  | gathered compiled now => exact outcome_of_gathered compiled now ▸ .done
  | started compiled now => exact .walking compiled .here
  | went round =>
      cases faithful with
      | walking compiled passage => exact .walking compiled (.further passage round)
  | halted halt =>
      cases faithful with
      | walking compiled passage => exact outcome_of_halt compiled passage halt ▸ .done

theorem Progress.records_eq {work next : Work} {store after : Store}
    (progress : Progress c s flowId store work after next) : after.records = store.records := by
  cases progress with
  | went round => exact records_saveAll _ _
  | _ => rfl

end Own

end CrewFlow.Service
