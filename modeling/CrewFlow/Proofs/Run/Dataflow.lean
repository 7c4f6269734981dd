import Mathlib
import CrewFlow.Proofs.Flow.Notes
import CrewFlow.Proofs.Run.Snapshots
/-!
# Data of validated flows

Which values the fields of a flow take on the way, and what its crews are given.
-/
set_option autoImplicit false

namespace CrewFlow.Run

open CrewFlow.Flow (Accounts Done Graph Halt KickedOff Note Passage Runner Walk noting valueAfter)
open Spec (Workflow)
open Text (Inputs)

/-- On every run of a validated flow each declared field holds, behind any number of completed steps, what the
text is converted to that the crew of the last of them yielded which has the field as its output, and its
initial value if there is none. Each crew is kicked off with the inputs of the run, in which the texts of all
fields as they stand before its step take the place of the inputs of their names. -/
theorem flow_data_reaches_crews_and_fields {w : Workflow} (validated : Spec.Validated w) {σ : Type}
    (runner : Runner σ) (crews : List Crew) (inputs : Inputs) (flowId : String) (workflowId : Option String)
    (world : σ) :
    let g := Graph.ofWorkflow w
    let start := Walk.start g (.start flowId w.state g.stepNames workflowId) world
    let ending := start.run runner crews inputs g
    (∀ visits last, Passage runner crews inputs g start visits last →
      ∃ done notes, done.map Done.toVisit = visits ∧
        Passage (noting runner) crews inputs g (start.noted []) visits (last.noted notes) ∧
        Accounts w.state crews inputs done last notes ∧
        ∀ f ∈ w.state, ∃ v, valueAfter f done = .ok v ∧ last.state.get? f.name = some v) ∧
    ∃ visits last done notes, ∃ note? : Option Note,
      Passage runner crews inputs g start visits last ∧ Halt runner crews inputs g last ending ∧
      (start.noted []).run (noting runner) crews inputs g = (ending.1.noted (notes ++ note?.toList), ending.2) ∧
      done.map Done.toVisit = visits ∧ Accounts w.state crews inputs done last notes ∧
      ending.1.state = last.state ∧
      ∀ note ∈ note?, ∃ name s queue, last.queue = name :: queue ∧ g.step? name = some s ∧
        KickedOff w.state crews inputs done s note := by
  intro g start ending
  have outputs (s : Flow.Step) (member : s ∈ g.steps) := (step_ofWorkflow validated.wellFormed member).1
  refine ⟨?_, ?_⟩
  · intro visits last passage
    obtain ⟨done, notes, same, _, noted, accounts⟩ := passage.exists_accounts validated.nodup_state outputs
    refine ⟨done, notes, same, noted, accounts, fun f member => ?_⟩
    obtain ⟨v, after, found⟩ := accounts.fields f member
    exact ⟨v, after, (get?_of_fit (fit_of_validated validated f member) last.state).trans found⟩
  · obtain ⟨visits, last, passage, halt⟩ := Flow.exists_halt runner crews inputs g start
    obtain ⟨done, notes, same, _, noted, accounts⟩ := passage.exists_accounts validated.nodup_state outputs
    obtain ⟨note?, there, standing, kicked⟩ := halt.exists_note validated.nodup_state accounts
    refine ⟨visits, last, done, notes, note?, passage, halt, ?_, same, accounts, standing, kicked⟩
    rw [← noted.run_eq]
    exact Flow.run_of_halt _ _ _ _ there

/-- The crew of the flow of one step is given the initial value of the field, which hides the input of its
name. -/
theorem gauge_data_reaches_crew :
    ∃ w, Spec.Validated w ∧ ∃ f ∈ w.state, f.name = "level" ∧
      ∃ (visits : List Flow.Visit) (last : Walk Unit) (note : Note),
      Passage (noting (answering "2.5")) [us] [("level", "9"), ("topic", "tea")] (.ofWorkflow w)
        ((Walk.start (.ofWorkflow w)
          (.start "run" w.state (Graph.ofWorkflow w).stepNames none) ()).noted []) visits (last.noted [note]) ∧
      note.crew = us ∧ note.given.get? "level" = some f.initial.plainText ∧
      note.given.get? "topic" = some "tea" ∧
      ∃ v, Flow.coerce .decimal "2.5" = .ok v ∧ last.state.get? "level" = some v := by
  obtain ⟨w, checked, _, _, graph, declared⟩ := gauge_checked
  obtain ⟨f, only, level, decimal⟩ := gauge_state declared
  have member : f ∈ w.state := by simp [only]
  obtain ⟨visit, last, passage, step, found, _⟩ := gauge_visit graph declared "2.5" rfl
    [("level", "9"), ("topic", "tea")]
  obtain ⟨done, notes, same, noted, accounts, _⟩ := (flow_data_reaches_crews_and_fields (.text checked)
    (answering "2.5") [us] [("level", "9"), ("topic", "tea")] "run" none ()).1 [visit] last passage
  obtain ⟨d, rfl, rfl⟩ := List.map_eq_singleton_iff.mp same
  obtain ⟨runs, kicked⟩ := accounts.kickoffs 0 d rfl
  obtain ⟨note, taken⟩ := Option.isSome_iff_exists.mp (runs.mpr ⟨"us", by rw [step]⟩)
  obtain ⟨kickoff, _⟩ := kicked note taken
  have noteOnly : notes = [note] := by simp [accounts.notes, taken]
  refine ⟨w, .text checked, f, member, level, [d.toVisit], last, note, noteOnly ▸ noted, ?_, ?_, ?_, _, rfl, found⟩
  · obtain ⟨name, action, crew⟩ := kickoff.crew
    cases action.symm.trans (congrArg Flow.Step.action step)
    exact (Option.some_inj.mp crew).symm
  · obtain ⟨v, initial, given⟩ := kickoff.fields f member
    cases initial
    rw [← level]
    exact given
  · exact kickoff.others "topic" (by simp [only, level])

end CrewFlow.Run
