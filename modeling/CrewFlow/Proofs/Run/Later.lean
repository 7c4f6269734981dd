import Mathlib
import CrewFlow.Proofs.Crew.Later
import CrewFlow.Proofs.Flow.Worlds
import CrewFlow.Run.Compiled
/-!
# Runs at a later time

Whenever a text is run, it comes to the same.
-/
set_option autoImplicit false

namespace CrewFlow.Run

open Build (Collaborators)
open CrewFlow.Flow (Walk)
open Crew (Limiters Rank)
open Text (Inputs)

variable (d : Nat)

def Clock.later (clock : Clock) : Clock :=
  { clock with
    now := clock.now + d
    limiters := clock.limiters.later d
    calls := clock.calls.map (·.later d) }

theorem Clock.ofAgents_later (agents : List Agent) (rank : Rank) (now : Nat) :
    ofAgents agents rank (now + d) = (ofAgents agents rank now).later d := by
  rw [ofAgents, Limiters.ofAgents_later]
  rfl

theorem runSideBySide_later (crews : List Crew) (inputs : Inputs) (clock : Clock) :
    runSideBySide crews inputs (clock.later d) =
      ((runSideBySide crews inputs clock).1, (runSideBySide crews inputs clock).2.later d) := by
  have ran := Crew.runAll_later d crews inputs clock.now clock.limiters clock.rank clock.left
  rw [runSideBySide, runSideBySide]
  simp only [Clock.later, ran]
  cases Crew.runAll crews inputs clock.now clock.limiters clock.rank clock.left with
  | none => rfl
  | some ending => simp [Crew.Ending.later]

theorem runCrew_later (crew : Crew) (inputs : Inputs) (clock : Clock) :
    runCrew crew inputs (clock.later d) =
      ((runCrew crew inputs clock).1, (runCrew crew inputs clock).2.later d) := by
  rw [runCrew, runCrew, runSideBySide_later]
  rcases runSideBySide [crew] inputs clock with ⟨_ | ⟨result, results⟩, clock⟩ <;> rfl

def Finish.later (f : Finish) : Finish := { f with clock := f.clock.later d }

theorem Compiled.run_later (compiled : Compiled) (inputs : Inputs) (workflowId : Option String)
    (flowId : String) (clock : Clock) :
    compiled.run inputs workflowId flowId (clock.later d) =
      (compiled.run inputs workflowId flowId clock).later d := by
  cases compiled with
  | parallel crews =>
      simp only [Compiled.run, runSideBySide_later]
      rfl
  | flow graph crews fields =>
      have walked : Flow.run runCrew crews graph inputs
          (.start flowId fields graph.stepNames workflowId) (clock.later d) = _ :=
        Flow.run_inWorld (Clock.later d) (runCrew_later d) crews inputs graph
          (.start graph (.start flowId fields graph.stepNames workflowId) clock)
      rw [Compiled.run, Compiled.run, walked, Flow.run]
      rcases Walk.run runCrew crews inputs graph
        (.start graph (.start flowId fields graph.stepNames workflowId) clock) with ⟨walk, _ | e⟩ <;> rfl

/-- The result of a run is the same whenever it begins. -/
theorem result_compileAndRun (c : Collaborators Id) (text : String) (wish : Option String)
    (inputs : Inputs) (workflowId : Option String) (flowId : String) (rank : Rank) (now : Nat) :
    (compileAndRun c text wish inputs workflowId flowId rank now).result =
      (compileAndRun c text wish inputs workflowId flowId rank 0).result := by
  rw [compileAndRun, compileAndRun]
  rcases (compile c text wish).run with e | ⟨compiled, agents⟩
  · rfl
  · have clock : Clock.ofAgents agents rank now = (Clock.ofAgents agents rank 0).later now := by
      rw [← Clock.ofAgents_later, Nat.zero_add]
    simp only [clock, Compiled.run_later]
    rfl

end CrewFlow.Run
