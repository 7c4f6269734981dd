import Mathlib
import CrewFlow.Proofs.Crew.Beside
/-!
# Kickoffs in time

What crews come to does not depend on time.
-/
set_option autoImplicit false

namespace CrewFlow.Crew

open Kickoff (Employs)
open Rate (Allowance)
open Text (Inputs)

/-- Crews that run side by side come to what the evaluation of their tasks in order comes to, however
long their models take. -/
theorem runAll_as_in_order {crews : List Crew} {inputs : Inputs} (timeless : Timeline.Timeless crews)
    (plain : ∀ crew ∈ crews, (crew.tasks.map (·.name)).Nodup ∧ ∀ t ∈ crew.tasks, t.context.Nodup)
    {now : Nat} {limiters : Limiters} {rank : Rank} {left : Allowance} {ending : Ending}
    (ended : runAll crews inputs now limiters rank left = some ending) :
    List.Forall₂ (AsInOrder Agent.reply · inputs ·) crews ending.outcomes := by
  have each := runTo_iff.mp (runTo_of_runAll timeless ended)
  refine List.forall₂_iff_zip.mpr ⟨each.length_eq, fun {crew outcome} together => ?_⟩
  have member := (List.of_mem_zip together).1
  obtain ⟨distinct, separate⟩ := plain crew member
  obtain ⟨k, reached, found⟩ := List.forall₂_zip each together
  exact (kickoff_comes_as_in_order distinct separate (timeless crew member).1).result_of_reached reached found

/-- A crew without memory and time limits, whose tasks have names of their own and name no task twice in
a context, comes to what the evaluation of its tasks in order comes to: in any order of its moves,
whatever its agents answer, and in time, however long their models take. -/
theorem kickoff_independent_of_timing {crew : Crew} {inputs : Inputs}
    (distinct : (crew.tasks.map (·.name)).Nodup) (separate : ∀ t ∈ crew.tasks, t.context.Nodup)
    (forgetful : crew.embedder = none)
    (patient : ∀ agent, Employs crew agent → agent.limits.maxTime = none) :
    (∀ ask, Kickoff.Comes ask (AsInOrder ask crew inputs) (Kickoff.start crew inputs)) ∧
    ∀ now limiters rank left ending, runAll [crew] inputs now limiters rank left = some ending →
      ∃ result, ending.outcomes = [result] ∧ AsInOrder Agent.reply crew inputs result := by
  refine ⟨fun ask => kickoff_comes_as_in_order distinct separate forgetful, ?_⟩
  intro now limiters rank left ending ended
  have timeless : Timeline.Timeless [crew] := by
    intro other member
    cases List.mem_singleton.mp member
    exact ⟨forgetful, patient⟩
  have plain : ∀ other ∈ [crew], (other.tasks.map (·.name)).Nodup ∧
      ∀ t ∈ other.tasks, t.context.Nodup := by
    intro other member
    cases List.mem_singleton.mp member
    exact ⟨distinct, separate⟩
  obtain ⟨result, rest, asInOrder, others, outcomes⟩ :=
    List.forall₂_cons_left_iff.mp (runAll_as_in_order timeless plain ended)
  cases others
  exact ⟨result, outcomes, asInOrder⟩

def writer : Agent :=
  { role := "writer", goal := "write", backstory := ""
    model := ⟨"slow", fun _ => ⟨1000, .ok "Final Answer: text"⟩⟩
    tools := [], limits := .default, runsCode := false }

def desk : Crew :=
  { name := "desk", agents := [writer], process := .sequential, manager := none, embedder := none
    tasks :=
      [⟨"draft", "Draft", "a text", none, [], [], none, true⟩,
        ⟨"edit", "Edit", "a text", none, [], ["draft"], none, false⟩] }

theorem desk_independent_of_timing :
    (∀ ask, Kickoff.Comes ask (AsInOrder ask desk []) (Kickoff.start desk [])) ∧
    ∀ now limiters rank left ending, runAll [desk] [] now limiters rank left = some ending →
      ∃ result, ending.outcomes = [result] ∧ AsInOrder Agent.reply desk [] result := by
  refine kickoff_independent_of_timing (by decide) (by decide) rfl ?_
  intro agent employed
  rcases employed with pool | manager
  · cases List.mem_singleton.mp pool
    rfl
  · cases manager

end CrewFlow.Crew
