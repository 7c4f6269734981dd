import Mathlib
import CrewFlow.Proofs.Flow.Record
import CrewFlow.Proofs.Run.Flows
/-!
# Saved states of validated flows

A saved record has every declared field under its name, next to what the runtime writes under reserved names.
The step that joins the results adds its output under a name that is not reserved, so a declared field of this
name is lost from its record.
-/
set_option autoImplicit false

namespace CrewFlow.Run

open CrewFlow.Flow (Graph Halt Passage Runner Visit Walk resultSeparator)
open Execution (Snapshot)
open Json (Fields Value)
open Spec (Workflow)
open Text (Inputs)

/-- What a record saved behind a visit has: under the name of a declared field its value at that moment, and
else only what the runtime writes under reserved names. The step that joins the results, which only a flow
without methods has, puts what it joins under "output" all the same. -/
structure Keeps (w : Workflow) (v : Visit) (snapshot : Snapshot) : Prop where
  method : snapshot.method = v.step.name
  fields : ∀ f ∈ w.state, ∃ value, v.state.get? f.name = some value ∧
    snapshot.state.get? f.name =
      some (if v.step.action = .finalize ∧ f.name = "output" then .str (resultSeparator.intercalate v.state.results)
        else value)
  foreign : ∀ key value, snapshot.state.get? key = some value → key ∉ w.state.map (·.name) →
    Spec.isReservedField key = true ∨ (v.step.action = .finalize ∧ key = "output")
  joining : v.step.action = .finalize → w.methods = []

/-! ## The steps of a workflow -/

theorem output_chainFrom {previous : Option String} {crews : List String} {s : Flow.Step}
    (member : s ∈ Flow.chainFrom previous crews) : s.output = none := by
  induction crews generalizing previous with
  | nil =>
      cases List.mem_singleton.mp member
      rfl
  | cons crew rest ih =>
      rcases List.mem_cons.mp member with rfl | later
      · rfl
      · exact ih later

/-- The steps of a workflow store texts in declared fields only, and only those of a flow without methods join
results. -/
theorem step_ofWorkflow {w : Workflow} (formed : Spec.WellFormed w) {s : Flow.Step}
    (member : s ∈ (Graph.ofWorkflow w).steps) :
    (∀ field, s.output = some field → field ∈ w.state.map (·.name)) ∧
      (s.action = .finalize → w.methods = []) := by
  by_cases undeclared : w.methods = []
  · refine ⟨?_, fun _ => undeclared⟩
    rw [Graph.ofWorkflow, undeclared] at member
    simp [output_chainFrom member]
  · rw [Graph.ofWorkflow, if_neg (by simpa using undeclared)] at member
    obtain ⟨promoted, m, declared, rfl⟩ := Flow.mem_declaredSteps member
    have flow : w.orchestration = .flow := by
      cases kind : w.orchestration with
      | crew => exact absurd (formed.bare kind).2 undeclared
      | flow => rfl
    refine ⟨fun field output => ((formed.flow flow).equipped m declared).output field output, ?_⟩
    intro joining
    cases crew : m.crew <;> simp [Flow.methodStep, crew] at joining

/-! ## Records -/

theorem keeps_snapshot {w : Workflow} (validated : Spec.Validated w) {v : Visit}
    (joining : v.step.action = .finalize → w.methods = [])
    (keys : v.state.fields.map (·.1) = w.state.map (·.name)) : Keeps w v v.snapshot where
  method := rfl
  fields := by
    intro f member
    have fit := fit_of_validated validated f member
    have distinct : (v.state.fields.map (·.1)).Nodup := keys ▸ validated.nodup_state
    obtain ⟨entry, held, same⟩ : ∃ entry ∈ v.state.fields, entry.1 = f.name :=
      List.mem_map.mp (keys ▸ List.mem_map_of_mem member)
    have now : v.state.fields.get? f.name = some entry.2 := Fields.lookup_of_mem distinct (same ▸ held)
    have saved : v.state.fields.reverse.lookup f.name = some entry.2 := by
      apply Fields.lookup_of_mem
      · rw [List.map_reverse, List.nodup_reverse]
        exact distinct
      · exact List.mem_reverse.mpr (same ▸ held)
    refine ⟨entry.2, (get?_of_fit fit v.state).trans now, ?_⟩
    rw [Visit.snapshot, Flow.get?_savedForm, Flow.State.get?_toFields_of_free _ fit.free, saved]
    split <;> rfl
  foreign := by
    intro key value found undeclared
    rw [Visit.snapshot, Flow.get?_savedForm] at found
    split at found
    · next added => exact Or.inr added
    · refine Or.inl ?_
      by_contra free
      rw [Flow.State.get?_toFields_of_free _ (Bool.not_eq_true _ ▸ free)] at found
      have listed := List.mem_map_of_mem (f := (·.1)) (List.mem_reverse.mp (Fields.mem_of_lookup found))
      rw [keys] at listed
      exact undeclared listed
  joining := joining

/-- Every run of a validated flow saves one record for each visit, which keeps every declared field as it was
at that moment, except a field "output" behind the step that joins the results. No declared field has a
reserved name. -/
theorem snapshots_keep_fields_unless_output_joined {w : Workflow} (validated : Spec.Validated w) :
    (∀ f ∈ w.state, Spec.isReservedField f.name = false) ∧
    ∀ (σ : Type) (runner : Runner σ) (crews : List Crew) (inputs : Inputs) (flowId : String)
      (workflowId : Option String) (world : σ),
      let start := Walk.start (.ofWorkflow w)
        (.start flowId w.state (Graph.ofWorkflow w).stepNames workflowId) world
      let ending := start.run runner crews inputs (.ofWorkflow w)
      ∃ visits last, Passage runner crews inputs (.ofWorkflow w) start visits last ∧
        Halt runner crews inputs (.ofWorkflow w) last ending ∧
        List.Forall₂ (Keeps w) visits ending.1.saved := by
  refine ⟨fun f member => (fit_of_validated validated f member).free, ?_⟩
  intro σ runner crews inputs flowId workflowId world start ending
  obtain ⟨visits, last, passage, halt⟩ := Flow.exists_halt runner crews inputs (.ofWorkflow w) start
  refine ⟨visits, last, passage, halt, ?_⟩
  have formed := validated.wellFormed
  have first : start.state.fields.map (·.1) = w.state.map (·.name) := by
    have declared : (w.state.map fun f => (f.name, f.initial)).map (·.1) = w.state.map (·.name) := by
      rw [List.map_map]
      rfl
    exact (Fields.keys_ofList (declared ▸ validated.nodup_state)).trans declared
  have keys := passage.keys_eq (fun s member => (step_ofWorkflow formed member).1) first
  have saved : ending.1.saved = visits.map Visit.snapshot := halt.saved_eq.trans passage.saved_eq
  rw [saved, List.forall₂_map_right_iff, List.forall₂_same]
  intro v member
  exact keeps_snapshot validated (step_ofWorkflow formed (passage.mem_steps v member)).2 (keys v member)

/-- A flow without methods, with a declared field of the name under which outputs are saved. -/
def keeper : String :=
  "agents:\n- role: me\n  goal: look\n  backstory: me\n" ++
  "tasks:\n- name: t\n  description: look\n  expected_output: it\n" ++
  "crews:\n- name: us\n" ++
  "state:\n  output: mine\n"

theorem keeper_checked :
    ∃ w, Spec.check keeper (some "flow") = .ok w ∧ Graph.ofWorkflow w = ⟨"workflow", Flow.defaultChain ["us"]⟩ ∧
      ∃ f, w.state = [f] ∧ f.name = "output" ∧ f.initial = .str "mine" := by
  have evaluated : (Spec.check keeper (some "flow")).toOption.map (fun w => (Graph.ofWorkflow w,
      w.state.map fun f => (f.name, f.initial.text?))) =
      some (⟨"workflow", Flow.defaultChain ["us"]⟩, [("output", some "mine")]) := by
    decide +kernel
  cases outcome : Spec.check keeper (some "flow") with
  | error e => simp [outcome, Except.toOption] at evaluated
  | ok w =>
      simp only [outcome, Except.toOption, Option.map_some, Option.some.injEq, Prod.mk.injEq] at evaluated
      obtain ⟨graph, declared⟩ := evaluated
      obtain ⟨f, rest, same, field, nothing⟩ := List.map_eq_cons_iff.mp declared
      cases List.map_eq_nil_iff.mp nothing
      obtain ⟨name, text⟩ := Prod.mk.inj field
      refine ⟨w, rfl, graph, f, same, name, ?_⟩
      cases initial : f.initial <;> simp [initial, Value.text?] at text ⊢
      exact text

theorem keeper_keeps_fields :
    ∃ w, Spec.Validated w ∧ w.state.map (·.name) = ["output"] ∧
      ∃ visits last, Passage (answering "a") [us] [] (.ofWorkflow w) (.start (.ofWorkflow w)
          (.start "run" w.state (Graph.ofWorkflow w).stepNames none) ()) visits last ∧
        Halt (answering "a") [us] [] (.ofWorkflow w) last (Flow.run (answering "a") [us] (.ofWorkflow w) []
          (.start "run" w.state (Graph.ofWorkflow w).stepNames none) ()) ∧
        List.Forall₂ (Keeps w) visits (Flow.run (answering "a") [us] (.ofWorkflow w) []
          (.start "run" w.state (Graph.ofWorkflow w).stepNames none) ()).1.saved := by
  obtain ⟨w, checked, _, f, only, name, _⟩ := keeper_checked
  exact ⟨w, .text checked, by simp [only, name],
    (snapshots_keep_fields_unless_output_joined (.text checked)).2 Unit (answering "a") [us] [] "run" none ()⟩

/-- The chain of one crew passes its two steps and ends. The second leaves the fields as they are, and what is
saved behind it has what the crew yielded as its output. -/
theorem passage_keeper (state : Flow.State) (before : state.results = []) :
    ∃ first v last, Passage (answering "a") [us] [] ⟨"workflow", Flow.defaultChain ["us"]⟩
        (.start ⟨"workflow", Flow.defaultChain ["us"]⟩ state ()) [first, v] last ∧
      Halt (answering "a") [us] [] ⟨"workflow", Flow.defaultChain ["us"]⟩ last
        (Flow.run (answering "a") [us] ⟨"workflow", Flow.defaultChain ["us"]⟩ [] state ()) ∧
      v.state.fields = state.fields ∧ v.snapshot.state.get? "output" = some (.str "a") := by
  have fresh : "finalize" ∉ ["run_us"] := by decide
  have trail : ∃ first v last, Passage (answering "a") [us] [] ⟨"workflow", Flow.defaultChain ["us"]⟩
      (.start ⟨"workflow", Flow.defaultChain ["us"]⟩ state ()) [first, v] last ∧ last.queue = [] ∧
      v = ⟨⟨"finalize", .listen ["run_us"] .all, .finalize, none⟩,
        ((state.pushResult "a").mark "run_us").mark "finalize"⟩ :=
    ⟨_, _, _, .further (.further .here (.visit rfl List.not_mem_nil rfl rfl)) (.visit rfl fresh rfl rfl), rfl, rfl⟩
  obtain ⟨first, v, last, passage, nothing, rfl⟩ := trail
  refine ⟨first, _, last, passage, ?_, rfl, ?_⟩
  · have ending := passage.run_eq
    rw [Flow.run_of_halt _ _ _ _ (.done nothing)] at ending
    rw [Flow.run, ← ending]
    exact .done nothing
  · rw [Visit.snapshot, Flow.get?_savedForm, if_pos ⟨rfl, rfl⟩]
    have joined : resultSeparator.intercalate ["a"] = "a" := rfl
    simp only [Flow.State.mark, Flow.State.pushResult, before, List.nil_append, joined]

/-- The declared field is lost from the record of the step that joins the results. -/
theorem keeper_output_overwritten :
    ∃ w, Spec.check keeper (some "flow") = .ok w ∧ ∃ f ∈ w.state, f.name = "output" ∧
      ∃ visits last, Passage (answering "a") [us] [] (.ofWorkflow w) (.start (.ofWorkflow w)
          (.start "run" w.state (Graph.ofWorkflow w).stepNames none) ()) visits last ∧
        Halt (answering "a") [us] [] (.ofWorkflow w) last (Flow.run (answering "a") [us] (.ofWorkflow w) []
          (.start "run" w.state (Graph.ofWorkflow w).stepNames none) ()) ∧
        ∃ v snapshot, visits[1]? = some v ∧
          (Flow.run (answering "a") [us] (.ofWorkflow w) []
            (.start "run" w.state (Graph.ofWorkflow w).stepNames none) ()).1.saved[1]? = some snapshot ∧
          v.state.get? f.name = some (.str "mine") ∧ snapshot.state.get? f.name = some (.str "a") := by
  obtain ⟨w, checked, graph, f, only, name, initial⟩ := keeper_checked
  refine ⟨w, checked, f, by simp [only], name, ?_⟩
  rw [graph]
  obtain ⟨first, v, last, passage, halt, same, saved⟩ :=
    passage_keeper (.start "run" w.state (Graph.stepNames ⟨"workflow", Flow.defaultChain ["us"]⟩) none) rfl
  refine ⟨_, last, passage, halt, v, v.snapshot, rfl, ?_, ?_, ?_⟩
  · rw [halt.saved_eq.trans passage.saved_eq]
    rfl
  · have held : v.state.get? "output" = v.state.fields.get? "output" := if_neg (by decide)
    rw [name, held, same, Flow.State.start, only, Fields.get?_ofList]
    simp [name, initial]
  · rw [name]
    exact saved

end CrewFlow.Run
