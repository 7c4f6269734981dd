import Mathlib
import CrewFlow.Proofs.Build.Assembled
import CrewFlow.Proofs.Flow.Safety
import CrewFlow.Proofs.Flow.Typing
import CrewFlow.Proofs.Spec.Keyed
import CrewFlow.Run.Compiled
/-!
# Compiled flows

From the text of a flow to the end of a run. A text that passes the check and gets what it asks for is
compiled, a run of it fails only where a crew fails, and on the way its state keeps the declared types as
far as conversions do.
-/
set_option autoImplicit false

namespace CrewFlow.Run

open Build (Collaborators Provides)
open CrewFlow.Flow (FailsOnlyWithCrews Graph NonFinite Passage Runner lastStored?)
open Spec (FieldSpec FieldType Workflow)
open Text (Inputs)

theorem wellFormed_of_check {text : String} {wish : Option String} {w : Workflow}
    (checked : Spec.check text wish = .ok w) : Spec.WellFormed w := by
  obtain ⟨doc, _, accepted⟩ := Spec.validate_of_check checked
  exact Spec.wellFormed_of_validate accepted

section Flows
variable {m : Type → Type} [Monad m] [LawfulMonad m] {c : Collaborators m} {text : String}
  {wish : Option String} {w : Workflow}

theorem compile_of_check (checked : Spec.check text wish = .ok w) (flow : w.orchestration = .flow)
    (provides : Provides c w) :
    SatisfiesM (fun outcome => ∃ crews agents,
      outcome = .ok (.flow (.ofWorkflow w) crews w.state, agents) ∧
        crews.map (·.name) = w.crews.map (·.name)) (compile c text wish) := by
  simp only [compile, checked]
  have owners := ((wellFormed_of_check checked).flow flow).owners
  refine (Build.build_complete provides owners).bind fun outcome built => ?_
  obtain ⟨b, rfl, names⟩ := built
  refine SatisfiesM.pure ⟨b.crews, b.agents, ?_, names⟩
  rw [Compiled.ofBuilt, flow]

/-- A flow that passes the check is compiled where the collaborators provide what it asks for. Its graph
has different steps and one to start with. Every run of it, whatever its crews answer, ends well, or at
the step that it has come to, because the crew of that step fails or yields a text that has no value of
the type it is stored with. -/
theorem checked_flow_fails_only_with_crews (checked : Spec.check text wish = .ok w)
    (flow : w.orchestration = .flow) (provides : Provides c w) :
    (Graph.ofWorkflow w).stepNames.Nodup ∧ (Graph.ofWorkflow w).starts ≠ [] ∧
      SatisfiesM (fun outcome => ∃ crews agents,
        outcome = .ok (.flow (.ofWorkflow w) crews w.state, agents) ∧
        ∀ (σ : Type) (runner : Runner σ) (inputs : Inputs) (flowId : String) (workflowId : Option String)
          (world : σ), FailsOnlyWithCrews runner crews inputs (.ofWorkflow w)
            (.start flowId w.state (Graph.ofWorkflow w).stepNames workflowId) world)
        (compile c text wish) := by
  have whole := Flow.whole_ofWorkflow (wellFormed_of_check checked) flow
  refine ⟨whole.distinct, whole.starts, ?_⟩
  refine (compile_of_check checked flow provides).imp ?_
  rintro outcome ⟨crews, agents, compiled, names⟩
  rw [← names] at whole
  exact ⟨crews, agents, compiled, fun σ runner inputs flowId workflowId world =>
    Flow.run_fails_only_with_crews whole runner inputs _ world⟩

end Flows

/-- A flow of one step, which keeps what its crew answers as a decimal. -/
def gauge : String :=
  "agents:\n- role: me\n  goal: look\n  backstory: me\n" ++
  "tasks:\n- name: t\n  description: look\n  expected_output: it\n" ++
  "crews:\n- name: us\n" ++
  "state:\n  level: 0.5\n" ++
  "flow_methods:\n  read:\n    type: start\n    crew: us\n    output: level\n"

/-- Collaborators with one model for everybody and without tools. -/
def bare : Collaborators Id where
  resolve _ := .error (.config "no tools")
  modelFor _ := .ok ⟨"plain", fun _ => ⟨0, .ok "Final Answer: 1"⟩⟩
  embedderFor := none

theorem gauge_checked :
    ∃ w, Spec.check gauge (some "flow") = .ok w ∧ w.orchestration = .flow ∧ (Build.requests w).isEmpty = true ∧
      Graph.ofWorkflow w = ⟨"workflow", [⟨"read", .start, .runCrew "us", some "level"⟩]⟩ ∧
      w.state.map (fun f => (f.name, f.type)) = [("level", .decimal)] := by
  have evaluated : (Spec.check gauge (some "flow")).toOption.map (fun w => (w.orchestration,
      (Build.requests w).isEmpty, Graph.ofWorkflow w, w.state.map fun f => (f.name, f.type))) =
      some (.flow, true, ⟨"workflow", [⟨"read", .start, .runCrew "us", some "level"⟩]⟩,
        [("level", .decimal)]) := by
    decide +kernel
  cases outcome : Spec.check gauge (some "flow") with
  | error e => simp [outcome, Except.toOption] at evaluated
  | ok w =>
      simp only [outcome, Except.toOption, Option.map_some, Option.some.injEq, Prod.mk.injEq] at evaluated
      exact ⟨w, rfl, evaluated⟩

theorem bare_provides {w : Workflow} (toolless : (Build.requests w).isEmpty = true) : Provides bare w where
  tools := by
    have passed : Tool.gate bare.resolve [] = pure (.ok []) := by
      simp [Tool.gate, Tool.declarations, Tool.verdict, Tool.failuresOf, Tool.sortedByOwner]
    rw [List.isEmpty_iff.mp toolless, passed]
    exact SatisfiesM.pure ⟨[], rfl⟩
  models := by
    intro a _
    rw [SatisfiesM_Id_eq]
    exact ⟨_, rfl⟩

theorem gauge_fails_only_with_crews :
    ∃ w, Spec.check gauge (some "flow") = .ok w ∧ w.orchestration = .flow ∧ Provides bare w ∧
      ∃ crews agents, compile bare gauge (some "flow") = .ok (.flow (.ofWorkflow w) crews w.state, agents) ∧
        ∀ (σ : Type) (runner : Runner σ) (world : σ), FailsOnlyWithCrews runner crews [] (.ofWorkflow w)
          (.start "run" w.state (Graph.ofWorkflow w).stepNames none) world := by
  obtain ⟨w, checked, flow, toolless, _, _⟩ := gauge_checked
  have provides := bare_provides toolless
  obtain ⟨_, _, compiled⟩ := checked_flow_fails_only_with_crews checked flow provides
  rw [SatisfiesM_Id_eq] at compiled
  obtain ⟨crews, agents, outcome, safe⟩ := compiled
  exact ⟨w, checked, flow, provides, crews, agents, outcome,
    fun σ runner world => safe σ runner [] "run" none world⟩

/-! ## State -/

theorem fit_of_validated {w : Workflow} (validated : Spec.Validated w) : ∀ f ∈ w.state, Spec.Fit f := by
  have formed := validated.wellFormed
  cases kind : w.orchestration with
  | crew =>
      rw [(formed.bare kind).1]
      simp
  | flow => exact (formed.flow kind).fields

theorem get?_of_fit {f : FieldSpec} (fit : Spec.Fit f) (state : Flow.State) :
    state.get? f.name = state.fields.get? f.name := by
  have free := fit.free
  refine if_neg ?_
  intro reserved
  rw [reserved] at free
  exact absurd free (by decide +kernel)

/-- A conversion has the type it is for, except that of a decimal whose number JSON cannot hold. So
wherever a walk over the graph of a workflow that has passed validation comes to, each declared field
holds a value of its type, except a decimal in which such a text was stored last. -/
theorem fields_keep_types_unless_non_finite {w : Workflow} (validated : Spec.Validated w) :
    (∀ (type : FieldType) (raw : String) (v : Json.Value), Flow.coerce type raw = .ok v →
      (type.accepts v = false ↔ type = .decimal ∧ NonFinite raw)) ∧
    ∀ (σ : Type) (runner : Runner σ) (crews : List Crew) (inputs : Inputs) (flowId : String)
      (workflowId : Option String) (world : σ) (visits : List Flow.Visit) (last : Flow.Walk σ),
      Passage runner crews inputs (.ofWorkflow w) (.start (.ofWorkflow w)
        (.start flowId w.state (Graph.ofWorkflow w).stepNames workflowId) world) visits last →
      ∀ f ∈ w.state, ∃ v, last.state.get? f.name = some v ∧
        (f.type.accepts v = false ↔
          f.type = .decimal ∧ ∃ raw, lastStored? visits f.name = some raw ∧ NonFinite raw) := by
  refine ⟨fun type raw v => Flow.accepts_eq_false_iff, ?_⟩
  intro σ runner crews inputs flowId workflowId world visits last passage f member
  have fit := fit_of_validated validated f member
  obtain ⟨v, found, holds⟩ := (passage.filled validated.nodup_state).values f member
  exact ⟨v, (get?_of_fit fit last.state).trans found, holds.accepts_eq_false_iff fit.default⟩

def us : Crew :=
  { name := "us", agents := [], tasks := [], process := .sequential, manager := none, embedder := none }

/-- A way to run crews in which each of them answers one text. -/
def answering (text : String) : Runner Unit := fun crew _ world => (.ok ⟨crew.name, text, []⟩, world)

theorem gauge_visit {w : Workflow}
    (graph : Graph.ofWorkflow w = ⟨"workflow", [⟨"read", .start, .runCrew "us", some "level"⟩]⟩)
    (declared : w.state.map (fun f => (f.name, f.type)) = [("level", .decimal)]) (text : String)
    {v : Json.Value} (converted : Flow.coerce .decimal text = .ok v) (inputs : Inputs) :
    ∃ visit last, Passage (answering text) [us] inputs (.ofWorkflow w) (.start (.ofWorkflow w)
        (.start "run" w.state (Graph.ofWorkflow w).stepNames none) ()) [visit] last ∧
      visit.step = ⟨"read", .start, .runCrew "us", some "level"⟩ ∧
      last.state.get? "level" = some v ∧ lastStored? [visit] "level" = some text := by
  have types : (Flow.State.start "run" w.state (Graph.ofWorkflow w).stepNames none).types =
      [("level", .decimal)] := by
    rw [Flow.State.start, List.map_reverse, declared]
    rfl
  generalize Flow.State.start "run" w.state (Graph.ofWorkflow w).stepNames none = state at types ⊢
  rw [graph]
  have stored : Flow.storeResult ⟨"read", .start, .runCrew "us", some "level"⟩ state text =
      .ok ((state.pushResult text).put "level" v) := by
    have typed : (state.pushResult text).types.lookup "level" = some .decimal := by
      rw [Flow.State.pushResult, types]
      rfl
    simp [Flow.storeResult, Flow.State.setText, typed, converted, bind, Except.bind, pure, Except.pure]
  have acted : Flow.act (answering text) [us] inputs ⟨"read", .start, .runCrew "us", some "level"⟩ state () =
      (.ok ((state.pushResult text).put "level" v, some text), ()) := by
    simp [Flow.act, Flow.crewOf?, us, answering, stored, Except.map]
  refine ⟨_, _, .further .here (.visit rfl List.not_mem_nil rfl acted), rfl, ?_, ?_⟩
  · show (state.fields.insert "level" v).get? "level" = some v
    rw [Json.Fields.get?_insert, if_pos rfl]
  · simp [lastStored?, Flow.Visit.stored?, Flow.State.put, Flow.State.pushResult, Flow.State.mark]

theorem gauge_passage {w : Workflow}
    (graph : Graph.ofWorkflow w = ⟨"workflow", [⟨"read", .start, .runCrew "us", some "level"⟩]⟩)
    (declared : w.state.map (fun f => (f.name, f.type)) = [("level", .decimal)]) (text : String)
    {v : Json.Value} (converted : Flow.coerce .decimal text = .ok v) :
    ∃ visits last, Passage (answering text) [us] [] (.ofWorkflow w) (.start (.ofWorkflow w)
        (.start "run" w.state (Graph.ofWorkflow w).stepNames none) ()) visits last ∧
      last.state.get? "level" = some v ∧ lastStored? visits "level" = some text := by
  obtain ⟨visit, last, passage, _, found, stored⟩ := gauge_visit graph declared text converted []
  exact ⟨[visit], last, passage, found, stored⟩

theorem gauge_state {w : Workflow}
    (declared : w.state.map (fun f => (f.name, f.type)) = [("level", .decimal)]) :
    ∃ f, w.state = [f] ∧ f.name = "level" ∧ f.type = .decimal := by
  obtain ⟨f, rest, same, field, nothing⟩ := List.map_eq_cons_iff.mp declared
  cases List.map_eq_nil_iff.mp nothing
  exact ⟨f, same, (Prod.mk.inj field).1, (Prod.mk.inj field).2⟩

theorem gauge_keeps_type :
    ∃ w, Spec.Validated w ∧ ∃ f ∈ w.state, f.type = .decimal ∧ ∃ visits last,
      Passage (answering "2.5") [us] [] (.ofWorkflow w) (.start (.ofWorkflow w)
        (.start "run" w.state (Graph.ofWorkflow w).stepNames none) ()) visits last ∧
      ∃ v, last.state.get? f.name = some v ∧ f.type.accepts v = true := by
  obtain ⟨w, checked, _, _, graph, declared⟩ := gauge_checked
  obtain ⟨f, only, level, decimal⟩ := gauge_state declared
  obtain ⟨visits, last, passage, _, stored⟩ := gauge_passage graph declared "2.5" rfl
  have member : f ∈ w.state := by simp [only]
  obtain ⟨v, found, unfit⟩ := (fields_keep_types_unless_non_finite (.text checked)).2 Unit _ _ _ _ _ _
    visits last passage f member
  refine ⟨w, .text checked, f, member, decimal, visits, last, passage, v, found, ?_⟩
  rw [← Bool.not_eq_false]
  intro misfit
  obtain ⟨_, raw, last, x, read, infinite⟩ := unfit.mp misfit
  rw [level, stored] at last
  cases last
  cases read
  exact absurd infinite (by decide)

/-- A decimal field does not always hold a value of its type: where the crew answers with an infinity, the
field holds null. -/
theorem gauge_holds_null :
    Flow.coerce .decimal "inf" = .ok .null ∧ ∃ w, Spec.check gauge (some "flow") = .ok w ∧ ∃ f ∈ w.state, ∃ visits last,
      Passage (answering "inf") [us] [] (.ofWorkflow w) (.start (.ofWorkflow w)
        (.start "run" w.state (Graph.ofWorkflow w).stepNames none) ()) visits last ∧
      last.state.get? f.name = some .null ∧ f.type.accepts .null = false := by
  obtain ⟨w, checked, _, _, graph, declared⟩ := gauge_checked
  obtain ⟨f, only, level, decimal⟩ := gauge_state declared
  obtain ⟨visits, last, passage, found, _⟩ := gauge_passage graph declared "inf" rfl
  refine ⟨rfl, w, checked, f, by simp [only], visits, last, passage, ?_, ?_⟩
  · rw [level]
    exact found
  · rw [decimal]
    rfl

end CrewFlow.Run
